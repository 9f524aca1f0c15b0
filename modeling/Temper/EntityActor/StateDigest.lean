import Mathlib
import Temper.EntityActor.SharedJournal

/-!
# What the digest of a state stands for

The bytes that are hashed for an authorization precondition determine the sequence, the status and
the fields of the state, and are determined by them. Fields are compared as JSON: objects by what
they bind, numbers by the text they are printed with.
-/

namespace Temper.EntityActor

open Json Framing

lemma textBytes_inj {s t : String} : textBytes s = textBytes t ↔ s = t := by
  constructor
  · intro h
    exact String.toByteArray_inj.mp (ByteArray.ext (Array.toList_inj.mp h))
  · rintro rfl
    rfl

/-! ### Equal JSON values -/

/-- Equal as JSON values. -/
inductive SameJson : Value → Value → Prop
  | null : SameJson .null .null
  | bool (b : Bool) : SameJson (.bool b) (.bool b)
  | number {n n' : Number} (h : n.toText = n'.toText) : SameJson (.number n) (.number n')
  | string (s : String) : SameJson (.string s) (.string s)
  | array {vs ws : List Value} (h : List.Forall₂ SameJson vs ws) : SameJson (.array vs) (.array ws)
  | object {m m' : Members}
      (h : ∀ k, Option.Rel SameJson (IndexMap.get m k) (IndexMap.get m' k)) :
      SameJson (.object m) (.object m')

mutual

/-- A value as memory can hold it: lengths fit in 64 bits and an object binds a key once. -/
def Representable : Value → Prop
  | .null => True
  | .bool _ => True
  | .number n => (textBytes n.toText).length < 2 ^ 64
  | .string s => (textBytes s).length < 2 ^ 64
  | .array vs => vs.length < 2 ^ 64 ∧ RepresentableAll vs
  | .object m => m.length < 2 ^ 64 ∧ (m.map Prod.fst).Nodup ∧ RepresentableMembers m

def RepresentableAll : List Value → Prop
  | [] => True
  | v :: vs => Representable v ∧ RepresentableAll vs

def RepresentableMembers : Members → Prop
  | [] => True
  | (k, v) :: m => ((textBytes k).length < 2 ^ 64 ∧ Representable v) ∧ RepresentableMembers m

end

lemma representableAll_iff {vs : List Value} :
    RepresentableAll vs ↔ ∀ v ∈ vs, Representable v := by
  induction vs with
  | nil => simp [RepresentableAll]
  | cons v vs ih => simp [RepresentableAll, ih]

variable {m : Members}

lemma representableMembers_iff : RepresentableMembers m ↔
    ∀ b ∈ m, (textBytes b.1).length < 2 ^ 64 ∧ Representable b.2 := by
  induction m with
  | nil => simp [RepresentableMembers]
  | cons b m ih =>
    obtain ⟨k, v⟩ := b
    rw [RepresentableMembers, ih, List.forall_mem_cons]

/-! ### The bytes of arrays and objects -/

/-- The members of an object by key. -/
def sortMembers (m : Members) : Members := m.mergeSort fun a b => decide (a.1 ≤ b.1)

def codeMember (b : String × Value) : Bytes := sized (textBytes b.1) ++ jsonBytes b.2

lemma arrayBytes_eq (vs : List Value) : arrayBytes vs = vs.flatMap jsonBytes := by
  induction vs with
  | nil => rfl
  | cons v vs ih => rw [arrayBytes, ih, List.flatMap_cons]

lemma memberBytes_eq (m : Members) : memberBytes m = m.map fun b => (b.1, jsonBytes b.2) := by
  induction m with
  | nil => rfl
  | cons b m ih =>
    obtain ⟨k, v⟩ := b
    rw [memberBytes, ih, List.map_cons]

lemma jsonBytes_object (m : Members) :
    jsonBytes (.object m) = 5 :: beBytes 8 m.length ++ (sortMembers m).flatMap codeMember := by
  rw [jsonBytes, memberBytes_eq, sortMembers]
  rw [← List.map_mergeSort (r := fun a b => decide (a.1 ≤ b.1)) (fun _ _ _ _ => rfl),
    List.flatMap_map]
  rfl

lemma sortMembers_perm (m : Members) : (sortMembers m).Perm m := List.mergeSort_perm m _

lemma length_sortMembers (m : Members) : (sortMembers m).length = m.length :=
  (sortMembers_perm m).length_eq

lemma nodup_sortMembers (h : (m.map Prod.fst).Nodup) : ((sortMembers m).map Prod.fst).Nodup :=
  ((sortMembers_perm m).map Prod.fst).nodup_iff.mpr h

lemma pairwise_sortMembers (m : Members) :
    ((sortMembers m).map Prod.fst).Pairwise (· ≤ ·) := by
  rw [List.pairwise_map]
  have hsorted : (sortMembers m).Pairwise fun a b => decide (a.1 ≤ b.1) = true := by
    apply List.pairwise_mergeSort
    · simpa using fun a b c hab hbc => le_trans hab hbc
    · simpa using fun a b => le_total _ _
  exact hsorted.imp fun h => of_decide_eq_true h

lemma get_eq_some_iff (h : (m.map Prod.fst).Nodup) {k : String} {v : Value} :
    IndexMap.get m k = some v ↔ (k, v) ∈ m :=
  ⟨IndexMap.mem_of_get, IndexMap.get_of_mem_of_nodup h⟩

/-- Sorting keeps what the object binds. -/
lemma get_sortMembers (h : (m.map Prod.fst).Nodup) (k : String) :
    IndexMap.get (sortMembers m) k = IndexMap.get m k := by
  apply Option.ext
  intro v
  rw [get_eq_some_iff (nodup_sortMembers h), get_eq_some_iff h, (sortMembers_perm m).mem_iff]

/-! ### From the bytes to the value -/

/-- The bytes of the value end where they say, and belong to no other value. -/
def ReadsOff (v : Value) : Prop :=
  ∀ w, Representable w → ∀ r r', jsonBytes v ++ r = jsonBytes w ++ r' → SameJson v w ∧ r = r'

lemma get_rel_of_forall₂ {m' : Members}
    (h : List.Forall₂ (fun b c => b.1 = c.1 ∧ SameJson b.2 c.2) m m') (k : String) :
    Option.Rel SameJson (IndexMap.get m k) (IndexMap.get m' k) := by
  induction h with
  | nil => exact .none
  | cons hhead _ ih =>
    rename_i b c m m' _
    obtain ⟨k₁, v⟩ := b
    obtain ⟨k₂, w⟩ := c
    obtain ⟨rfl, hsame⟩ := hhead
    rw [IndexMap.get_cons, IndexMap.get_cons]
    split_ifs
    · exact .some hsame
    · exact ih

lemma readsOff_array {vs : List Value} (hlength : vs.length < 2 ^ 64)
    (hall : ∀ v ∈ vs, ReadsOff v) : ReadsOff (.array vs) := by
  intro w hw r r' h
  cases w with
  | array ws =>
    obtain ⟨hlength', hws⟩ := hw
    simp only [jsonBytes, arrayBytes_eq, List.cons_append, List.append_assoc, List.cons.injEq,
      true_and] at h
    obtain ⟨hcount, hrest⟩ := List.append_inj h (by simp)
    have hsame := (beBytes_inj (by norm_num; omega) (by norm_num; omega)).mp hcount
    obtain ⟨hvalues, hr⟩ := flatMap_append_inj hsame (fun v hv w hw =>
      hall v hv w (representableAll_iff.mp hws w hw)) hrest
    exact ⟨.array hvalues, hr⟩
  | _ => simp [jsonBytes] at h

lemma readsOff_object (hlength : m.length < 2 ^ 64) (hnodup : (m.map Prod.fst).Nodup)
    (hall : ∀ b ∈ m, (textBytes b.1).length < 2 ^ 64 ∧ ReadsOff b.2) : ReadsOff (.object m) := by
  intro w hw r r' h
  cases w with
  | object m' =>
    obtain ⟨hlength', hnodup', hmembers⟩ := hw
    rw [jsonBytes_object, jsonBytes_object] at h
    simp only [List.cons_append, List.append_assoc, List.cons.injEq, true_and] at h
    obtain ⟨hcount, hrest⟩ := List.append_inj h (by simp)
    have hsame := (beBytes_inj (by norm_num; omega) (by norm_num; omega)).mp hcount
    -- a member is its key with its length before it, then its value
    have hmember : ∀ b ∈ sortMembers m, ∀ c ∈ sortMembers m', ∀ s s',
        codeMember b ++ s = codeMember c ++ s' → (b.1 = c.1 ∧ SameJson b.2 c.2) ∧ s = s' := by
      intro b hb c hc s s' hcode
      obtain ⟨hbfits, hbreads⟩ := hall b ((sortMembers_perm m).mem_iff.mp hb)
      obtain ⟨hcfits, hcvalue⟩ := representableMembers_iff.mp hmembers c
        ((sortMembers_perm m').mem_iff.mp hc)
      rw [codeMember, codeMember, List.append_assoc, List.append_assoc] at hcode
      obtain ⟨hkey, hvalue⟩ := sized_append_inj (by norm_num; omega) (by norm_num; omega) hcode
      obtain ⟨hsame, hs⟩ := hbreads c.2 hcvalue s s' hvalue
      exact ⟨⟨textBytes_inj.mp hkey, hsame⟩, hs⟩
    have hlengths : (sortMembers m).length = (sortMembers m').length := by
      rw [length_sortMembers, length_sortMembers, hsame]
    obtain ⟨hpairs, hr⟩ := flatMap_append_inj hlengths hmember hrest
    refine ⟨.object ?_, hr⟩
    intro k
    rw [← get_sortMembers hnodup, ← get_sortMembers hnodup']
    exact get_rel_of_forall₂ hpairs k
  | _ => simp [jsonBytes] at h

mutual

theorem readsOff (v : Value) (hv : Representable v) : ReadsOff v := by
  match v with
  | .null =>
    intro w _ r r' h
    cases w with
    | null => exact ⟨.null, by simpa [jsonBytes] using h⟩
    | _ => simp [jsonBytes] at h
  | .bool b =>
    intro w _ r r' h
    cases w with
    | bool b' =>
      cases b <;> cases b' <;> simp [jsonBytes] at h
      · exact ⟨.bool false, h⟩
      · exact ⟨.bool true, h⟩
    | _ => simp [jsonBytes] at h
  | .number n =>
    intro w hw r r' h
    cases w with
    | number n' =>
      rw [Representable] at hv hw
      simp only [jsonBytes, List.cons_append, List.cons.injEq, true_and] at h
      obtain ⟨htext, hr⟩ := sized_append_inj (by norm_num; omega) (by norm_num; omega) h
      exact ⟨.number (textBytes_inj.mp htext), hr⟩
    | _ => simp [jsonBytes] at h
  | .string s =>
    intro w hw r r' h
    cases w with
    | string s' =>
      rw [Representable] at hv hw
      simp only [jsonBytes, List.cons_append, List.cons.injEq, true_and] at h
      obtain ⟨htext, hr⟩ := sized_append_inj (by norm_num; omega) (by norm_num; omega) h
      obtain rfl := textBytes_inj.mp htext
      exact ⟨.string s, hr⟩
    | _ => simp [jsonBytes] at h
  | .array vs => exact readsOff_array hv.1 (readsOffAll vs hv.2)
  | .object m => exact readsOff_object hv.1 hv.2.1 (readsOffMembers m hv.2.2)

theorem readsOffAll (vs : List Value) (hvs : RepresentableAll vs) : ∀ v ∈ vs, ReadsOff v := by
  match vs with
  | [] => simp
  | v :: vs =>
    rw [List.forall_mem_cons]
    exact ⟨readsOff v hvs.1, readsOffAll vs hvs.2⟩

theorem readsOffMembers (m : Members) (hm : RepresentableMembers m) :
    ∀ b ∈ m, (textBytes b.1).length < 2 ^ 64 ∧ ReadsOff b.2 := by
  match m with
  | [] => simp
  | (k, v) :: m =>
    rw [List.forall_mem_cons]
    exact ⟨⟨hm.1.1, readsOff v hm.1.2⟩, readsOffMembers m hm.2⟩

end

/-! ### From the value to the bytes -/

lemma sortMembers_keys_eq {m' : Members} (h : (m.map Prod.fst).Nodup) (h' : (m'.map Prod.fst).Nodup)
    (hget : ∀ k, (IndexMap.get m k).isSome = (IndexMap.get m' k).isSome) :
    (sortMembers m).map Prod.fst = (sortMembers m').map Prod.fst := by
  refine List.Perm.eq_of_pairwise (fun a b _ _ hab hba => le_antisymm hab hba)
    (pairwise_sortMembers m) (pairwise_sortMembers m') ?_
  have hmem : ∀ {m : Members}, (m.map Prod.fst).Nodup → ∀ k,
      k ∈ (sortMembers m).map Prod.fst ↔ (IndexMap.get m k).isSome = true := by
    intro m hm k
    rw [((sortMembers_perm m).map Prod.fst).mem_iff, Option.isSome_iff_exists, List.mem_map]
    constructor
    · rintro ⟨⟨k, v⟩, hb, rfl⟩
      exact ⟨v, (get_eq_some_iff hm).mpr hb⟩
    · rintro ⟨v, hv⟩
      exact ⟨(k, v), (get_eq_some_iff hm).mp hv, rfl⟩
  rw [List.perm_ext_iff_of_nodup (nodup_sortMembers h) (nodup_sortMembers h')]
  intro k
  rw [hmem h, hmem h', hget]

/-- Members under the same keys whose codes are equal make up the same bytes. -/
lemma flatMap_codeMember_eq {l l' : Members} (hkeys : l.map Prod.fst = l'.map Prod.fst)
    (h : ∀ k v w, (k, v) ∈ l → (k, w) ∈ l' → jsonBytes v = jsonBytes w) :
    l.flatMap codeMember = l'.flatMap codeMember := by
  induction l generalizing l' with
  | nil =>
    obtain rfl : l' = [] := by simpa using hkeys.symm
    rfl
  | cons b l ih =>
    cases l' with
    | nil => simp at hkeys
    | cons c l' =>
      obtain ⟨k, v⟩ := b
      obtain ⟨k', w⟩ := c
      rw [List.map_cons, List.map_cons, List.cons.injEq] at hkeys
      obtain ⟨hkey, hrest⟩ := hkeys
      dsimp only at hkey
      subst hkey
      have hhead := h k v w (by simp) (by simp)
      rw [List.flatMap_cons, List.flatMap_cons, codeMember, codeMember, hhead,
        ih hrest fun k v w hv hw => h k v w (by simp [hv]) (by simp [hw])]

mutual

theorem jsonBytes_eq (v : Value) (hv : Representable v) :
    ∀ w, Representable w → SameJson v w → jsonBytes v = jsonBytes w := by
  intro w hw h
  match v with
  | .null => cases h with | null => rfl
  | .bool b => cases h with | bool => rfl
  | .number n =>
    cases h with
    | number htext => rw [jsonBytes, jsonBytes, htext]
  | .string s => cases h with | string => rfl
  | .array vs =>
    cases h with
    | array hall =>
      rw [jsonBytes, jsonBytes, hall.length_eq, arrayBytes_all vs hv.2 _ hw.2 hall]
  | .object m =>
    cases h with
    | object hrel =>
      rename_i m'
      have hkeys := sortMembers_keys_eq hv.2.1 hw.2.1 fun k => by
        have := hrel k
        generalize IndexMap.get m k = a at this
        generalize IndexMap.get m' k = b at this
        cases this <;> rfl
      have hcount : m.length = m'.length := by
        have := congrArg List.length hkeys
        simpa [length_sortMembers] using this
      rw [jsonBytes_object, jsonBytes_object, hcount, flatMap_codeMember_eq hkeys]
      intro k x y hx hy
      have hx' := (sortMembers_perm m).mem_iff.mp hx
      have hy' := (sortMembers_perm m').mem_iff.mp hy
      have hsame := hrel k
      rw [(get_eq_some_iff hv.2.1).mpr hx', (get_eq_some_iff hw.2.1).mpr hy'] at hsame
      cases hsame with
      | some hsame =>
        exact jsonBytes_members m hv.2.2 (k, x) hx' y
          (representableMembers_iff.mp hw.2.2 (k, y) hy').2 hsame

theorem arrayBytes_all (vs : List Value) (hvs : RepresentableAll vs) :
    ∀ ws, RepresentableAll ws → List.Forall₂ SameJson vs ws → arrayBytes vs = arrayBytes ws := by
  intro ws hws h
  match vs with
  | [] => cases h with | nil => rfl
  | v :: vs =>
    cases h with
    | cons hhead htail =>
      rw [arrayBytes, arrayBytes, jsonBytes_eq v hvs.1 _ hws.1 hhead,
        arrayBytes_all vs hvs.2 _ hws.2 htail]

theorem jsonBytes_members (m : Members) (hm : RepresentableMembers m) :
    ∀ b ∈ m, ∀ w, Representable w → SameJson b.2 w → jsonBytes b.2 = jsonBytes w := by
  match m with
  | [] => simp
  | (k, v) :: m =>
    rw [List.forall_mem_cons]
    exact ⟨jsonBytes_eq v hm.1.2, jsonBytes_members m hm.2⟩

end

/-! ### The digest of a state -/

/-- A state as memory can hold it. -/
structure EntityState.Representable (s : EntityState) : Prop where
  sequenceNr : s.sequenceNr < 2 ^ 64
  status : (textBytes s.status).length < 2 ^ 64
  fields : EntityActor.Representable s.fields

/-- The bytes that are hashed are the same exactly for states of the same sequence, the same status
and the same fields. -/
theorem authorizationPreimage_eq_iff {s t : EntityState} (hs : s.Representable)
    (ht : t.Representable) :
    authorizationPreimage s = authorizationPreimage t ↔
      s.sequenceNr = t.sequenceNr ∧ s.status = t.status ∧ SameJson s.fields t.fields := by
  obtain ⟨hsequence, hstatus, hfields⟩ := hs
  obtain ⟨hsequence', hstatus', hfields'⟩ := ht
  constructor
  · intro h
    simp only [authorizationPreimage, List.append_assoc] at h
    obtain ⟨hnumber, hrest⟩ := List.append_inj (List.append_cancel_left h) (by simp)
    obtain ⟨htext, hvalue⟩ := sized_append_inj (by norm_num; omega) (by norm_num; omega) hrest
    refine ⟨(beBytes_inj (by norm_num; omega) (by norm_num; omega)).mp hnumber,
      textBytes_inj.mp htext, ?_⟩
    exact (readsOff s.fields hfields t.fields hfields' [] [] (by simpa using hvalue)).1
  · rintro ⟨hnumber, htext, hsame⟩
    rw [authorizationPreimage, authorizationPreimage, hnumber, htext,
      jsonBytes_eq s.fields hfields t.fields hfields' hsame]

def priced (m : Members) : EntityState where
  entityType := "Order"
  entityId := "o1"
  status := "Draft"
  fields := .object m
  sequenceNr := 3

/-- Two orders of the same members are hashed alike. -/
theorem member_order_is_immaterial :
    (priced [("Total", .number (.posInt 7)), ("Tags", .array [.string "new"])]).Representable ∧
    (priced [("Tags", .array [.string "new"]), ("Total", .number (.posInt 7))]).Representable ∧
    authorizationPreimage
        (priced [("Total", .number (.posInt 7)), ("Tags", .array [.string "new"])]) =
      authorizationPreimage
        (priced [("Tags", .array [.string "new"]), ("Total", .number (.posInt 7))]) := by
  have hs : (priced
      [("Total", .number (.posInt 7)), ("Tags", .array [.string "new"])]).Representable := by
    refine ⟨by decide, by decide +kernel, ?_⟩
    simp only [priced, Representable, RepresentableMembers, RepresentableAll]
    decide +kernel
  have ht : (priced
      [("Tags", .array [.string "new"]), ("Total", .number (.posInt 7))]).Representable := by
    refine ⟨by decide, by decide +kernel, ?_⟩
    simp only [priced, Representable, RepresentableMembers, RepresentableAll]
    decide +kernel
  refine ⟨hs, ht, (authorizationPreimage_eq_iff hs ht).mpr ⟨rfl, rfl, .object ?_⟩⟩
  intro k
  simp only [IndexMap.get_cons, IndexMap.get_nil]
  by_cases htotal : "Total" = k
  · subst htotal
    exact .some (.number rfl)
  · by_cases htags : "Tags" = k
    · subst htags
      exact .some (.array (.cons (.string "new") .nil))
    · rw [if_neg htotal, if_neg htags, if_neg htags, if_neg htotal]
      exact .none

end Temper.EntityActor
