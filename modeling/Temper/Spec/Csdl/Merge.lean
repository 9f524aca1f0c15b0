import Mathlib
import Temper.Lib.KeyedMerge
import Temper.Spec.Csdl.Types

/-!
# Merging CSDL documents

A tenant's document is updated by merging another one into it: schemas meet by namespace, what they
declare by kind and key. What the incoming document declares replaces what is there, except for
terms and for the imports of a container, where what is there stays.
-/

namespace Temper.Spec.Csdl

open KeyedMerge

/-! ### The merge -/

/-- The first item of a name is replaced in its place; an item of a new name is pushed. -/
def mergeReplaceByName {α κ : Type} [DecidableEq κ] (name : α → κ) (target incoming : List α) :
    List α :=
  merge name (fun _ item => item) target incoming

def mergeAppendMissingByName {α κ : Type} [DecidableEq κ] (name : α → κ)
    (target incoming : List α) : List α :=
  incoming.foldl (fun target item =>
    if target.any fun existing => name existing = name item then target
    else target ++ [item]) target

/-- What tells actions apart. -/
def Operation.actionKey (o : Operation) : String × Option String := (o.name, o.bindingType)

/-- What tells functions apart: the first parameter counts whether the function is bound or not. -/
def Operation.functionKey (o : Operation) : String × Bool × Option String :=
  (o.name, o.isBound, o.parameters.head?.map Parameter.typeName)

/-- The container that is there is updated. -/
def mergeContainer (existing incoming : EntityContainer) : EntityContainer :=
  { existing with
    entitySets := mergeReplaceByName EntitySet.name existing.entitySets incoming.entitySets
    actionImports :=
      mergeAppendMissingByName ActionImport.name existing.actionImports incoming.actionImports
    functionImports := mergeAppendMissingByName FunctionImport.name existing.functionImports
      incoming.functionImports }

def mergeEntityContainer (containers : List EntityContainer) (incoming : EntityContainer) :
    List EntityContainer :=
  put EntityContainer.name mergeContainer containers incoming

/-- The schema that is there is updated. -/
def mergeInto (existing incoming : Schema) : Schema :=
  { existing with
    entityTypes := mergeReplaceByName EntityType.name existing.entityTypes incoming.entityTypes
    enumTypes := mergeReplaceByName EnumType.name existing.enumTypes incoming.enumTypes
    actions := mergeReplaceByName Operation.actionKey existing.actions incoming.actions
    functions := mergeReplaceByName Operation.functionKey existing.functions incoming.functions
    entityContainers :=
      incoming.entityContainers.foldl mergeEntityContainer existing.entityContainers
    terms := mergeAppendMissingByName Term.name existing.terms incoming.terms }

def mergeSchema (schemas : List Schema) (incoming : Schema) : List Schema :=
  put Schema.nameSpace mergeInto schemas incoming

def mergeCsdl (existing incoming : CsdlDocument) : CsdlDocument :=
  { existing with schemas := incoming.schemas.foldl mergeSchema existing.schemas }

/-- Appending what is missing keeps the first item of each name. -/
lemma mergeAppendMissingByName_eq {α κ : Type} [DecidableEq κ] (name : α → κ)
    (target incoming : List α) :
    mergeAppendMissingByName name target incoming = merge name (fun x _ => x) target incoming := by
  have hput : ∀ (target : List α) (item : α), put name (fun x _ => x) target item =
      if target.any fun existing => name existing = name item then target
      else target ++ [item] := by
    intro target item
    induction target with
    | nil => rfl
    | cons x target ih =>
      by_cases h : name x = name item
      · simp [put, h]
      · rw [put, if_neg h, ih, List.any_cons, decide_eq_false h, Bool.false_or]
        split_ifs <;> rfl
  unfold mergeAppendMissingByName merge
  congr 1
  funext target item
  rw [hput]

/-! ### Unique keys -/

structure EntityContainer.Keyed (c : EntityContainer) : Prop where
  entitySets : (c.entitySets.map EntitySet.name).Nodup
  actionImports : (c.actionImports.map ActionImport.name).Nodup
  functionImports : (c.functionImports.map FunctionImport.name).Nodup

structure Schema.Keyed (s : Schema) : Prop where
  entityTypes : (s.entityTypes.map EntityType.name).Nodup
  enumTypes : (s.enumTypes.map EnumType.name).Nodup
  actions : (s.actions.map Operation.actionKey).Nodup
  functions : (s.functions.map Operation.functionKey).Nodup
  entityContainers : (s.entityContainers.map EntityContainer.name).Nodup
  containers : ∀ c ∈ s.entityContainers, c.Keyed
  terms : (s.terms.map Term.name).Nodup

structure CsdlDocument.Keyed (d : CsdlDocument) : Prop where
  schemas : (d.schemas.map Schema.nameSpace).Nodup
  each : ∀ s ∈ d.schemas, s.Keyed

/-! ### Declarations -/

/-- What a container declares; `here` is the container itself. -/
inductive Member
  | here
  | entitySet (set : EntitySet)
  | actionImport (imported : ActionImport)
  | functionImport (imported : FunctionImport)

inductive MemberKey
  | here
  | entitySet (name : String)
  | actionImport (name : String)
  | functionImport (name : String)
deriving DecidableEq

def Member.key : Member → MemberKey
  | .here => .here
  | .entitySet set => .entitySet set.name
  | .actionImport imported => .actionImport imported.name
  | .functionImport imported => .functionImport imported.name

def EntityContainer.Declares (c : EntityContainer) : Member → Prop
  | .here => True
  | .entitySet set => set ∈ c.entitySets
  | .actionImport imported => imported ∈ c.actionImports
  | .functionImport imported => imported ∈ c.functionImports

/-- What a schema declares; `here` is the schema itself. -/
inductive Declaration
  | here
  | entityType (type : EntityType)
  | enumType (type : EnumType)
  | action (act : Action)
  | function (fn : Function)
  | term (t : Term)
  | inContainer (member : String × Member)

inductive DeclarationKey
  | here
  | entityType (name : String)
  | enumType (name : String)
  | action (key : String × Option String)
  | function (key : String × Bool × Option String)
  | term (name : String)
  | inContainer (key : String × MemberKey)
deriving DecidableEq

def Declaration.key : Declaration → DeclarationKey
  | .here => .here
  | .entityType type => .entityType type.name
  | .enumType type => .enumType type.name
  | .action act => .action act.actionKey
  | .function fn => .function fn.functionKey
  | .term t => .term t.name
  | .inContainer member => .inContainer (member.map id Member.key)

def Schema.Declares (s : Schema) : Declaration → Prop
  | .here => True
  | .entityType type => type ∈ s.entityTypes
  | .enumType type => type ∈ s.enumTypes
  | .action act => act ∈ s.actions
  | .function fn => fn ∈ s.functions
  | .term t => t ∈ s.terms
  | .inContainer member =>
    Within EntityContainer.name EntityContainer.Declares s.entityContainers member

/-- What a document declares, under the namespace of its schema. -/
def CsdlDocument.Declares (d : CsdlDocument) : String × Declaration → Prop :=
  Within Schema.nameSpace Schema.Declares d.schemas

def CsdlDocument.DeclaresKey (d : CsdlDocument) (key : String × DeclarationKey) : Prop :=
  ∃ decl, d.Declares decl ∧ Prod.map id Declaration.key decl = key

/-! ### What the merge declares -/

/-- The merge takes the incoming member, not the one that is there. -/
def Member.wins : Member → Bool
  | .here | .entitySet _ => true
  | .actionImport _ | .functionImport _ => false

/-- The merge takes the incoming declaration, not the one that is there. -/
def Declaration.wins : Declaration → Bool
  | .term _ => false
  | .inContainer member => member.2.wins
  | _ => true

lemma keepsKey_replace {α κ : Type} (key : α → κ) : KeepsKey key fun _ y : α => y :=
  fun _ _ _ => rfl

lemma keepsKey_keep {α κ : Type} (key : α → κ) : KeepsKey key fun x _ : α => x := fun _ _ h => h

lemma keepsKey_mergeContainer : KeepsKey EntityContainer.name mergeContainer := fun _ _ h => h

lemma keepsKey_mergeInto : KeepsKey Schema.nameSpace mergeInto := fun _ _ h => h

lemma overlay_mergeContainer {x y : EntityContainer} (hx : x.Keyed) (hy : y.Keyed) :
    Overlay Member.wins Member.key x.Declares y.Declares (mergeContainer x y).Declares := by
  intro d
  cases d with
  | here => simp [EntityContainer.Declares, Member.wins]
  | entitySet set =>
    exact Overlay.embed Member.entitySet (overlay_replace hx.entitySets hy.entitySets)
      (fun _ => rfl) (by intro d b; cases d <;> simp [Member.key]) set
  | actionImport imported =>
    have hkeep := overlay_keep hx.actionImports hy.actionImports
    rw [← mergeAppendMissingByName_eq] at hkeep
    exact Overlay.embed Member.actionImport hkeep (fun _ => rfl)
      (by intro d b; cases d <;> simp [Member.key]) imported
  | functionImport imported =>
    have hkeep := overlay_keep hx.functionImports hy.functionImports
    rw [← mergeAppendMissingByName_eq] at hkeep
    exact Overlay.embed Member.functionImport hkeep (fun _ => rfl)
      (by intro d b; cases d <;> simp [Member.key]) imported

lemma overlay_mergeInto {x y : Schema} (hx : x.Keyed) (hy : y.Keyed) :
    Overlay Declaration.wins Declaration.key x.Declares y.Declares (mergeInto x y).Declares := by
  intro d
  cases d with
  | here => simp [Schema.Declares, Declaration.wins]
  | entityType type =>
    exact Overlay.embed Declaration.entityType (overlay_replace hx.entityTypes hy.entityTypes)
      (fun _ => rfl) (by intro d b; cases d <;> simp [Declaration.key]) type
  | enumType type =>
    exact Overlay.embed Declaration.enumType (overlay_replace hx.enumTypes hy.enumTypes)
      (fun _ => rfl) (by intro d b; cases d <;> simp [Declaration.key]) type
  | action act =>
    exact Overlay.embed Declaration.action (overlay_replace hx.actions hy.actions)
      (fun _ => rfl) (by intro d b; cases d <;> simp [Declaration.key]) act
  | function fn =>
    exact Overlay.embed Declaration.function (overlay_replace hx.functions hy.functions)
      (fun _ => rfl) (by intro d b; cases d <;> simp [Declaration.key]) fn
  | term t =>
    have hkeep := overlay_keep hx.terms hy.terms
    rw [← mergeAppendMissingByName_eq] at hkeep
    exact Overlay.embed Declaration.term hkeep (fun _ => rfl)
      (by intro d b; cases d <;> simp [Declaration.key]) t
  | inContainer member =>
    have hmerge := overlay_merge keepsKey_mergeContainer hx.entityContainers hy.entityContainers
      fun c hc c' hc' _ => overlay_mergeContainer (hx.containers c hc) (hy.containers c' hc')
    exact Overlay.embed Declaration.inContainer hmerge (fun _ => rfl)
      (by intro d b; cases d <;> simp [Declaration.key]) member

/-- The merge of two documents overlays what they declare. -/
lemma overlay_mergeCsdl {a b : CsdlDocument} (ha : a.Keyed) (hb : b.Keyed) :
    Overlay (fun d => d.2.wins) (Prod.map id Declaration.key) a.Declares b.Declares
      (mergeCsdl a b).Declares :=
  overlay_merge keepsKey_mergeInto ha.schemas hb.schemas
    fun s hs s' hs' _ => overlay_mergeInto (ha.each s hs) (hb.each s' hs')

/-! ### Keys are unique -/

lemma EntityContainer.Keyed.unique {c : EntityContainer} (h : c.Keyed) {d d' : Member}
    (hd : c.Declares d) (hd' : c.Declares d') (heq : d.key = d'.key) : d = d' := by
  cases d <;> cases d' <;> simp only [Member.key, reduceCtorEq, MemberKey.entitySet.injEq,
    MemberKey.actionImport.injEq, MemberKey.functionImport.injEq] at heq
  case here.here => rfl
  case entitySet.entitySet x y =>
    exact congrArg _ (List.inj_on_of_nodup_map h.entitySets hd hd' heq)
  case actionImport.actionImport x y =>
    exact congrArg _ (List.inj_on_of_nodup_map h.actionImports hd hd' heq)
  case functionImport.functionImport x y =>
    exact congrArg _ (List.inj_on_of_nodup_map h.functionImports hd hd' heq)

lemma Schema.Keyed.unique {s : Schema} (h : s.Keyed) {d d' : Declaration} (hd : s.Declares d)
    (hd' : s.Declares d') (heq : d.key = d'.key) : d = d' := by
  cases d <;> cases d' <;> simp only [Declaration.key, reduceCtorEq,
    DeclarationKey.entityType.injEq, DeclarationKey.enumType.injEq, DeclarationKey.action.injEq,
    DeclarationKey.function.injEq, DeclarationKey.term.injEq,
    DeclarationKey.inContainer.injEq] at heq
  case here.here => rfl
  case entityType.entityType x y =>
    exact congrArg _ (List.inj_on_of_nodup_map h.entityTypes hd hd' heq)
  case enumType.enumType x y =>
    exact congrArg _ (List.inj_on_of_nodup_map h.enumTypes hd hd' heq)
  case action.action x y =>
    exact congrArg _ (List.inj_on_of_nodup_map h.actions hd hd' heq)
  case function.function x y =>
    exact congrArg _ (List.inj_on_of_nodup_map h.functions hd hd' heq)
  case term.term x y => exact congrArg _ (List.inj_on_of_nodup_map h.terms hd hd' heq)
  case inContainer.inContainer x y =>
    exact congrArg _ (Within.unique h.entityContainers
      (fun c hc _ _ hd hd' heq => (h.containers c hc).unique hd hd' heq) hd hd' heq)

lemma CsdlDocument.Keyed.unique {a : CsdlDocument} (h : a.Keyed) {d d' : String × Declaration}
    (hd : a.Declares d) (hd' : a.Declares d')
    (heq : Prod.map id Declaration.key d = Prod.map id Declaration.key d') : d = d' :=
  Within.unique h.schemas (fun s hs _ _ hd hd' heq => (h.each s hs).unique hd hd' heq) hd hd' heq

/-! ### Associativity and idempotence -/

section ByName

variable {α κ : Type} [DecidableEq κ] {name : α → κ} {xs ys zs : List α}

lemma mergeReplaceByName_assoc (hxs : (xs.map name).Nodup) (hys : (ys.map name).Nodup)
    (hzs : (zs.map name).Nodup) :
    mergeReplaceByName name (mergeReplaceByName name xs ys) zs =
      mergeReplaceByName name xs (mergeReplaceByName name ys zs) :=
  merge_assoc (keepsKey_replace name) hxs hys hzs fun _ _ _ _ _ _ _ _ => rfl

lemma mergeReplaceByName_self (hys : (ys.map name).Nodup) : mergeReplaceByName name ys ys = ys :=
  merge_self (keepsKey_replace name) hys fun _ _ => rfl

lemma mergeReplaceByName_twice (hxs : (xs.map name).Nodup) (hys : (ys.map name).Nodup) :
    mergeReplaceByName name (mergeReplaceByName name xs ys) ys = mergeReplaceByName name xs ys :=
  merge_merge_self (keepsKey_replace name) hxs hys (fun _ _ => rfl) fun _ _ _ _ _ => rfl

lemma mergeAppendMissingByName_assoc (hxs : (xs.map name).Nodup) (hys : (ys.map name).Nodup)
    (hzs : (zs.map name).Nodup) :
    mergeAppendMissingByName name (mergeAppendMissingByName name xs ys) zs =
      mergeAppendMissingByName name xs (mergeAppendMissingByName name ys zs) := by
  simp only [mergeAppendMissingByName_eq]
  exact merge_assoc (keepsKey_keep name) hxs hys hzs fun _ _ _ _ _ _ _ _ => rfl

lemma mergeAppendMissingByName_self (hys : (ys.map name).Nodup) :
    mergeAppendMissingByName name ys ys = ys := by
  rw [mergeAppendMissingByName_eq]
  exact merge_self (keepsKey_keep name) hys fun _ _ => rfl

lemma mergeAppendMissingByName_twice (hxs : (xs.map name).Nodup) (hys : (ys.map name).Nodup) :
    mergeAppendMissingByName name (mergeAppendMissingByName name xs ys) ys =
      mergeAppendMissingByName name xs ys := by
  simp only [mergeAppendMissingByName_eq]
  exact merge_merge_self (keepsKey_keep name) hxs hys (fun _ _ => rfl) fun _ _ _ _ _ => rfl

end ByName

section Containers

variable {x y z : EntityContainer}

lemma mergeContainer_assoc (hx : x.Keyed) (hy : y.Keyed) (hz : z.Keyed) :
    mergeContainer (mergeContainer x y) z = mergeContainer x (mergeContainer y z) := by
  simp only [mergeContainer, EntityContainer.mk.injEq, true_and]
  exact ⟨mergeReplaceByName_assoc hx.entitySets hy.entitySets hz.entitySets,
    mergeAppendMissingByName_assoc hx.actionImports hy.actionImports hz.actionImports,
    mergeAppendMissingByName_assoc hx.functionImports hy.functionImports hz.functionImports⟩

lemma mergeContainer_self (hy : y.Keyed) : mergeContainer y y = y := by
  rw [mergeContainer, mergeReplaceByName_self hy.entitySets,
    mergeAppendMissingByName_self hy.actionImports,
    mergeAppendMissingByName_self hy.functionImports]

lemma mergeContainer_twice (hx : x.Keyed) (hy : y.Keyed) :
    mergeContainer (mergeContainer x y) y = mergeContainer x y := by
  simp only [mergeContainer, EntityContainer.mk.injEq, true_and]
  exact ⟨mergeReplaceByName_twice hx.entitySets hy.entitySets,
    mergeAppendMissingByName_twice hx.actionImports hy.actionImports,
    mergeAppendMissingByName_twice hx.functionImports hy.functionImports⟩

end Containers

section Schemas

variable {x y z : Schema}

lemma mergeInto_assoc (hx : x.Keyed) (hy : y.Keyed) (hz : z.Keyed) :
    mergeInto (mergeInto x y) z = mergeInto x (mergeInto y z) := by
  simp only [mergeInto, Schema.mk.injEq, true_and]
  refine ⟨mergeReplaceByName_assoc hx.entityTypes hy.entityTypes hz.entityTypes,
    mergeReplaceByName_assoc hx.enumTypes hy.enumTypes hz.enumTypes,
    mergeReplaceByName_assoc hx.actions hy.actions hz.actions,
    mergeReplaceByName_assoc hx.functions hy.functions hz.functions, ?_,
    mergeAppendMissingByName_assoc hx.terms hy.terms hz.terms⟩
  exact merge_assoc keepsKey_mergeContainer hx.entityContainers hy.entityContainers
    hz.entityContainers fun c hc c' hc' c'' hc'' _ _ =>
      mergeContainer_assoc (hx.containers c hc) (hy.containers c' hc') (hz.containers c'' hc'')

lemma mergeInto_self (hy : y.Keyed) : mergeInto y y = y := by
  have hcontainers : y.entityContainers.foldl mergeEntityContainer y.entityContainers =
      y.entityContainers :=
    merge_self keepsKey_mergeContainer hy.entityContainers
      fun c hc => mergeContainer_self (hy.containers c hc)
  rw [mergeInto, mergeReplaceByName_self hy.entityTypes, mergeReplaceByName_self hy.enumTypes,
    mergeReplaceByName_self hy.actions, mergeReplaceByName_self hy.functions, hcontainers,
    mergeAppendMissingByName_self hy.terms]

lemma mergeInto_twice (hx : x.Keyed) (hy : y.Keyed) :
    mergeInto (mergeInto x y) y = mergeInto x y := by
  simp only [mergeInto, Schema.mk.injEq, true_and]
  refine ⟨mergeReplaceByName_twice hx.entityTypes hy.entityTypes,
    mergeReplaceByName_twice hx.enumTypes hy.enumTypes,
    mergeReplaceByName_twice hx.actions hy.actions,
    mergeReplaceByName_twice hx.functions hy.functions, ?_,
    mergeAppendMissingByName_twice hx.terms hy.terms⟩
  exact merge_merge_self keepsKey_mergeContainer hx.entityContainers hy.entityContainers
    (fun c hc => mergeContainer_self (hy.containers c hc))
    fun c hc c' hc' _ => mergeContainer_twice (hx.containers c hc) (hy.containers c' hc')

end Schemas

section Documents

variable {a b c : CsdlDocument}

lemma mergeCsdl_assoc (ha : a.Keyed) (hb : b.Keyed) (hc : c.Keyed) :
    mergeCsdl (mergeCsdl a b) c = mergeCsdl a (mergeCsdl b c) := by
  simp only [mergeCsdl, CsdlDocument.mk.injEq, true_and]
  exact merge_assoc keepsKey_mergeInto ha.schemas hb.schemas hc.schemas
    fun s hs s' hs' s'' hs'' _ _ =>
      mergeInto_assoc (ha.each s hs) (hb.each s' hs') (hc.each s'' hs'')

lemma mergeCsdl_twice (ha : a.Keyed) (hb : b.Keyed) :
    mergeCsdl (mergeCsdl a b) b = mergeCsdl a b := by
  simp only [mergeCsdl, CsdlDocument.mk.injEq, true_and]
  exact merge_merge_self keepsKey_mergeInto ha.schemas hb.schemas
    (fun s hs => mergeInto_self (hb.each s hs))
    fun s hs s' hs' _ => mergeInto_twice (ha.each s hs) (hb.each s' hs')

end Documents

/-! ### Incoming wins -/

def Member.isImport : Member → Bool
  | .actionImport _ | .functionImport _ => true
  | _ => false

def Declaration.isTerm : Declaration → Bool
  | .term _ => true
  | _ => false

/-- The incoming document is taken whole, what it does not declare is kept, and nothing else is
there; a term that is there stays. -/
structure IncomingWins (existing incoming merged : CsdlDocument) : Prop where
  verbatim : ∀ d, d.2.isTerm = false → incoming.Declares d → merged.Declares d
  kept : ∀ d, existing.Declares d → ¬ incoming.DeclaresKey (Prod.map id Declaration.key d) →
    merged.Declares d
  nothingElse : ∀ d, merged.Declares d → incoming.Declares d ∨
    existing.Declares d ∧
      (d.2.isTerm ∨ ¬ incoming.DeclaresKey (Prod.map id Declaration.key d))

/-- Imports of one name, in one container of both documents, are the same import. -/
def ImportsAgree (existing incoming : CsdlDocument) : Prop :=
  ∀ nameSpace container (i j : Member), i.isImport →
    existing.Declares (nameSpace, .inContainer (container, i)) →
    incoming.Declares (nameSpace, .inContainer (container, j)) → i.key = j.key → i = j

/-- What the merge does not replace is a term or an import. -/
lemma Declaration.eq_import_of_not_wins {d : Declaration} (h : d.wins = false)
    (hterm : d.isTerm = false) :
    ∃ container i, d = .inContainer (container, i) ∧ i.isImport := by
  cases d with
  | inContainer member =>
    obtain ⟨container, i⟩ := member
    refine ⟨container, i, rfl, ?_⟩
    cases i <;> first | rfl | exact absurd h (by simp [wins, Member.wins])
  | term t => exact absurd hterm (by simp [isTerm])
  | _ => exact absurd h (by simp [wins])

/-- Where imports agree, declarations of one key that the merge does not replace are equal. -/
lemma ImportsAgree.eq {a b : CsdlDocument} (h : ImportsAgree a b) {d d' : String × Declaration}
    (hwins : d.2.wins = false) (hterm : d.2.isTerm = false) (hd : a.Declares d)
    (hd' : b.Declares d') (heq : Prod.map id Declaration.key d = Prod.map id Declaration.key d') :
    d = d' := by
  obtain ⟨ns, d⟩ := d
  obtain ⟨ns', d'⟩ := d'
  obtain ⟨container, i, rfl, himport⟩ := Declaration.eq_import_of_not_wins hwins hterm
  simp only [Prod.map_apply, id_eq, Prod.mk.injEq] at heq
  obtain ⟨rfl, hkey⟩ := heq
  cases d' <;> simp only [Declaration.key, reduceCtorEq, DeclarationKey.inContainer.injEq] at hkey
  rename_i member
  obtain ⟨container', j⟩ := member
  simp only [Prod.map_apply, id_eq, Prod.mk.injEq] at hkey
  obtain ⟨rfl, hmember⟩ := hkey
  rw [h ns container i j himport hd hd' hmember]

/-- A key tells whether the incoming declaration is taken. -/
lemma Declaration.wins_eq_of_key {d d' : Declaration} (h : d.key = d'.key) :
    d.wins = d'.wins ∧ d.isTerm = d'.isTerm := by
  cases d <;> cases d' <;> simp only [key, reduceCtorEq, DeclarationKey.inContainer.injEq] at h
  case inContainer.inContainer member member' =>
    obtain ⟨container, i⟩ := member
    obtain ⟨container', j⟩ := member'
    have hkey : i.key = j.key := congrArg Prod.snd h
    cases i <;> cases j <;> simp_all [Member.key, wins, isTerm, Member.wins]
  all_goals exact ⟨rfl, rfl⟩

lemma incomingWins_of_importsAgree {a b : CsdlDocument} (ha : a.Keyed) (hb : b.Keyed)
    (h : ImportsAgree a b) : IncomingWins a b (mergeCsdl a b) := by
  have hmerge := overlay_mergeCsdl ha hb
  refine ⟨fun d hterm hd => ?_, fun d hd hnone => ?_, fun d hd => ?_⟩
  · rw [hmerge d]
    split_ifs with hwins
    · exact .inl hd
    · by_cases hthere : ∃ d', a.Declares d' ∧
          Prod.map id Declaration.key d' = Prod.map id Declaration.key d
      · -- the import that is there is the incoming one
        obtain ⟨d', hd', heq⟩ := hthere
        obtain ⟨hwins', hterm'⟩ := Declaration.wins_eq_of_key (congrArg Prod.snd heq)
        obtain rfl := h.eq (hwins'.trans (by simpa using hwins)) (hterm'.trans hterm) hd' hd heq
        exact .inl hd'
      · exact .inr ⟨hd, hthere⟩
  · rw [hmerge d]
    split_ifs with hwins
    · exact .inr ⟨hd, hnone⟩
    · exact .inl hd
  · rw [hmerge d] at hd
    split_ifs at hd with hwins
    · exact hd.imp_right fun ⟨hda, hnone⟩ => ⟨hda, .inr hnone⟩
    · rcases hd with hda | ⟨hdb, -⟩
      · by_cases hterm : d.2.isTerm
        · exact .inr ⟨hda, .inl hterm⟩
        · by_cases hthere : b.DeclaresKey (Prod.map id Declaration.key d)
          · obtain ⟨d', hd', heq⟩ := hthere
            obtain rfl := h.eq (by simpa using hwins) (by simpa using hterm) hda hd' heq.symm
            exact .inl hd'
          · exact .inr ⟨hda, .inr hthere⟩
      · exact .inl hdb

lemma importsAgree_of_incomingWins {a b : CsdlDocument} (ha : a.Keyed) (hb : b.Keyed)
    (h : IncomingWins a b (mergeCsdl a b)) : ImportsAgree a b := by
  intro ns container i j himport hi hj hkey
  have hwins : j.wins = false := by
    cases i <;> cases j <;> simp_all [Member.key, Member.isImport, Member.wins]
  have heq : Prod.map id Declaration.key (ns, Declaration.inContainer (container, i)) =
      Prod.map id Declaration.key (ns, Declaration.inContainer (container, j)) := by
    simp [Declaration.key, hkey]
  have hmerged := h.verbatim (ns, .inContainer (container, j)) rfl hj
  rw [overlay_mergeCsdl ha hb, if_neg (by simp [Declaration.wins, hwins])] at hmerged
  rcases hmerged with hj' | ⟨-, hnone⟩
  · have hsame := ha.unique hi hj' heq
    simpa using hsame
  · exact absurd ⟨_, hi, heq⟩ hnone

/-- Merging is an incoming-wins update exactly when the imports of the two documents agree;
associative and idempotent it is in any case. -/
theorem mergeCsdl_incomingWins_iff (a b c : CsdlDocument) (ha : a.Keyed) (hb : b.Keyed)
    (hc : c.Keyed) :
    (IncomingWins a b (mergeCsdl a b) ∧
        mergeCsdl (mergeCsdl a b) c = mergeCsdl a (mergeCsdl b c) ∧
        mergeCsdl (mergeCsdl a b) b = mergeCsdl a b) ↔
      ImportsAgree a b := by
  constructor
  · rintro ⟨hwins, -, -⟩
    exact importsAgree_of_incomingWins ha hb hwins
  · intro h
    exact ⟨incomingWins_of_importsAgree ha hb h, mergeCsdl_assoc ha hb hc, mergeCsdl_twice ha hb⟩

/-- A document with one container and its action imports. -/
def importing (imports : List ActionImport) : CsdlDocument where
  version := "4.0"
  schemas := [{ nameSpace := "App"
                entityContainers := [{ name := "Default", actionImports := imports }] }]

lemma importing_keyed {imports : List ActionImport} (h : (imports.map ActionImport.name).Nodup) :
    (importing imports).Keyed := by
  refine ⟨by simp [importing], ?_⟩
  simp only [importing, List.mem_singleton, forall_eq]
  have hcontainer : EntityContainer.Keyed { name := "Default", actionImports := imports } :=
    ⟨by simp, h, by simp⟩
  refine ⟨?_, ?_, ?_, ?_, ?_, ?_, ?_⟩ <;> simp [hcontainer]

lemma importing_declares {imports : List ActionImport} {ns container : String} {i : Member} :
    (importing imports).Declares (ns, .inContainer (container, i)) ↔
      ns = "App" ∧ container = "Default" ∧
        (i = .here ∨ ∃ imported ∈ imports, i = .actionImport imported) := by
  cases i <;> simp [importing, CsdlDocument.Declares, Within, Schema.Declares,
    EntityContainer.Declares, eq_comm]

/-- A second version of an import does not get in. -/
theorem reimported_action_dropped :
    let existing := importing [⟨"Ship", "App.ShipV1"⟩]
    let incoming := importing [⟨"Ship", "App.ShipV2"⟩]
    existing.Keyed ∧ incoming.Keyed ∧
      ¬ IncomingWins existing incoming (mergeCsdl existing incoming) := by
  intro existing incoming
  refine ⟨importing_keyed (by simp), importing_keyed (by simp), fun h => ?_⟩
  have hmerged : mergeCsdl existing incoming = existing := by decide +kernel
  have hverbatim := h.verbatim
    ("App", .inContainer ("Default", .actionImport ⟨"Ship", "App.ShipV2"⟩)) rfl
    (importing_declares.mpr ⟨rfl, rfl, .inr ⟨_, List.mem_singleton.mpr rfl, rfl⟩⟩)
  rw [hmerged] at hverbatim
  simpa using importing_declares.mp hverbatim

theorem added_import_merges :
    let existing := importing [⟨"Ship", "App.Ship"⟩]
    let incoming := importing [⟨"Cancel", "App.Cancel"⟩, ⟨"Ship", "App.Ship"⟩]
    let latest := importing [⟨"Cancel", "App.CancelV2"⟩]
    IncomingWins existing incoming (mergeCsdl existing incoming) ∧
      mergeCsdl (mergeCsdl existing incoming) latest =
        mergeCsdl existing (mergeCsdl incoming latest) ∧
      mergeCsdl (mergeCsdl existing incoming) incoming = mergeCsdl existing incoming := by
  intro existing incoming latest
  refine (mergeCsdl_incomingWins_iff existing incoming latest (importing_keyed (by simp))
    (importing_keyed (by simp)) (importing_keyed (by simp))).mpr ?_
  intro ns container i j himport hi hj hkey
  obtain ⟨-, -, rfl | ⟨imported, himported, rfl⟩⟩ := importing_declares.mp hi
  · simp [Member.isImport] at himport
  · obtain ⟨-, -, rfl | ⟨imported', himported', rfl⟩⟩ := importing_declares.mp hj
    · simp [Member.key] at hkey
    · simp only [Member.key, MemberKey.actionImport.injEq] at hkey
      simp only [List.mem_cons, List.not_mem_nil, or_false] at himported himported'
      rcases himported' with rfl | rfl <;> simp_all

end Temper.Spec.Csdl
