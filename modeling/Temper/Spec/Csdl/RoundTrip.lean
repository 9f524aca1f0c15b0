import Mathlib
import Temper.Lib.Checks
import Temper.Spec.Csdl.ReadBack
import Temper.Spec.Csdl.WellFormed

/-!
# Reading, writing and reading again

A document that was read holds no record and no empty item. Written and read again it comes back,
up to the operations and containers without children.
-/

namespace Temper.Spec.Csdl

open Checks

/-! ### What the parser returns -/

/-- An annotation that the parser can return. -/
def Annotation.Parsed (a : Annotation) : Prop :=
  match a.value with
  | .record _ => False
  | .collection items => ∀ item ∈ items, item ≠ ""
  | _ => True

def operationAnnotations (os : List Operation) : List Annotation := os.flatMap (·.annotations)

def Schema.annotations (s : Schema) : List Annotation :=
  s.entityTypes.flatMap (·.annotations) ++ operationAnnotations s.actions ++
    operationAnnotations s.functions

/-- The annotations that a loop has read. -/
def Loop.annotations : Loop → List Annotation
  | .schema s => s.annotations
  | .entityType t actions functions =>
    t.annotations ++ operationAnnotations actions ++ operationAnnotations functions
  | .operation _ o => o.annotations
  | .annotationChildren term items _ => [⟨term, .collection items⟩]
  | _ => []

def Read.annotations : Read → List Annotation
  | .schema s => s.annotations
  | .entityType t actions functions =>
    t.annotations ++ operationAnnotations actions ++ operationAnnotations functions
  | .operation _ o => o.annotations
  | .annotated a => [a]
  | _ => []

def Loop.Parsed (l : Loop) : Prop := ∀ a ∈ l.annotations, a.Parsed

def Read.Parsed (r : Read) : Prop := ∀ a ∈ r.annotations, a.Parsed

def Move.Parsed : Move → Prop
  | .stay l => l.Parsed
  | .enter l inner => l.Parsed ∧ inner.Parsed
  | .leave r => r.Parsed

section Parsed

variable {floats : FloatFormat} {frozen : Bool} {unescape : String → Except String String}
  {l l' : Loop} {e : Element}

@[simp] lemma operationAnnotations_append (os os' : List Operation) :
    operationAnnotations (os ++ os') = operationAnnotations os ++ operationAnnotations os' :=
  List.flatMap_append

@[simp] lemma operationAnnotations_singleton (o : Operation) :
    operationAnnotations [o] = o.annotations := by
  simp [operationAnnotations]

lemma parseInlineAnnotationOverride_parsed {term : String} {value : AnnotationValue}
    (h : parseInlineAnnotationOverride floats e = .ok (some value)) :
    Annotation.Parsed ⟨term, value⟩ := by
  simp only [parseInlineAnnotationOverride, bind_ok_iff] at h
  obtain ⟨string, -, h⟩ := h
  cases string with
  | some string => cases h; trivial
  | none =>
    simp only [bind_ok_iff] at h
    obtain ⟨path, -, h⟩ := h
    cases path with
    | some path => cases h; trivial
    | none =>
      simp only [bind_ok_iff] at h
      obtain ⟨float, -, h⟩ := h
      cases float with
      | some float => cases h; trivial
      | none => cases h

lemma parseInlineAnnotationValue_parsed {term : String} {value : AnnotationValue}
    (h : parseInlineAnnotationValue floats e = .ok value) : Annotation.Parsed ⟨term, value⟩ := by
  simp only [parseInlineAnnotationValue, bind_ok_iff] at h
  obtain ⟨inline, hinline, h⟩ := h
  cases inline with
  | some inline =>
    cases h
    exact parseInlineAnnotationOverride_parsed hinline
  | none =>
    simp only [bind_ok_iff] at h
    obtain ⟨bool, -, h⟩ := h
    cases bool with
    | some bool => cases h; trivial
    | none =>
      simp only [bind_ok_iff] at h
      obtain ⟨int, -, h⟩ := h
      cases int <;> cases h <;> trivial

lemma annotationFromAttrs_parsed {a : Option Annotation}
    (h : annotationFromAttrs floats e = .ok a) : ∀ a' ∈ a.toList, a'.Parsed := by
  simp only [annotationFromAttrs, bind_ok_iff] at h
  obtain ⟨term, -, h⟩ := h
  cases term with
  | none =>
    cases h
    simp
  | some term =>
    simp only [bind_ok_iff] at h
    obtain ⟨value, hvalue, h⟩ := h
    cases h
    simpa using parseInlineAnnotationValue_parsed hvalue

/-- An annotation with children is read at once or by a loop that has read nothing yet. -/
lemma enterAnnotation_parsed {result : Sum Annotation Loop}
    (h : enterAnnotationChildren floats e = .ok result) :
    (∀ a, result = .inl a → a.Parsed) ∧ ∀ inner, result = .inr inner → inner.Parsed := by
  simp only [enterAnnotationChildren, bind_ok_iff] at h
  obtain ⟨term, -, value, hvalue, h⟩ := h
  cases value with
  | some value =>
    cases h
    refine ⟨?_, fun _ h => by cases h⟩
    rintro a ⟨⟩
    exact parseInlineAnnotationOverride_parsed hvalue
  | none =>
    cases h
    refine ⟨fun _ h => (by cases h), ?_⟩
    rintro inner ⟨⟩
    simp [Loop.Parsed, Loop.annotations, Annotation.Parsed]

variable {o : Operation}

lemma parseEmptyOperation_annotations (h : parseEmptyOperation e = .ok o) : o.annotations = [] := by
  simp only [parseEmptyOperation, bind_ok_iff] at h
  obtain ⟨name, -, bound, -, h⟩ := h
  cases h
  rfl

variable {actions : List Action} {functions : List Function} {a : Annotation}

lemma addOperation_annotations {kind : String}
    (h : a ∈ operationAnnotations (addOperation kind o actions functions).1 ++
      operationAnnotations (addOperation kind o actions functions).2) :
    a ∈ operationAnnotations actions ++ operationAnnotations functions ++ o.annotations := by
  unfold addOperation at h
  split_ifs at h <;> simp at h ⊢ <;> tauto

lemma Loop.parsed_of_annotations (h : l.annotations = []) : l.Parsed := by
  simp [Loop.Parsed, h]

variable {m : Move}

lemma enterSchemaChild_parsed {s : Schema} (hl : (Loop.schema s).Parsed)
    (h : enterSchemaChild s e = .ok m) : m.Parsed := by
  unfold enterSchemaChild at h
  dsimp only at h
  split_ifs at h
  · simp only [bind_ok_iff] at h
    obtain ⟨name, -, stream, -, h⟩ := h
    cases h
    exact ⟨hl, Loop.parsed_of_annotations rfl⟩
  · cases h
    exact ⟨hl, Loop.parsed_of_annotations rfl⟩
  · simp only [bind_ok_iff] at h
    obtain ⟨o, ho, h⟩ := h
    cases h
    exact ⟨hl, Loop.parsed_of_annotations (parseEmptyOperation_annotations ho)⟩
  · simp only [bind_ok_iff] at h
    obtain ⟨name, -, h⟩ := h
    cases h
    exact ⟨hl, Loop.parsed_of_annotations rfl⟩
  · cases h
    exact ⟨hl, Loop.parsed_of_annotations rfl⟩

lemma mem_annotations_append {t : EntityType} {actions : List Action} {functions : List Function}
    {new : List Annotation} :
    a ∈ (Loop.entityType { t with annotations := t.annotations ++ new } actions
        functions).annotations ↔
      a ∈ new ∨ a ∈ (Loop.entityType t actions functions).annotations := by
  simp only [Loop.annotations, List.mem_append]
  tauto

lemma enterEntityTypeChild_parsed {t : EntityType}
    (hl : (Loop.entityType t actions functions).Parsed)
    (h : enterEntityTypeChild floats t actions functions e = .ok m) : m.Parsed := by
  unfold enterEntityTypeChild at h
  dsimp only at h
  split_ifs at h
  · simp only [bind_ok_iff] at h
    obtain ⟨n, -, h⟩ := h
    cases h
    exact ⟨hl, Loop.parsed_of_annotations rfl⟩
  · simp only [bind_ok_iff] at h
    obtain ⟨result, hresult, h⟩ := h
    obtain ⟨hann, hinner⟩ := enterAnnotation_parsed hresult
    cases result with
    | inl a =>
      cases h
      refine ⟨fun a' ha' => ?_, Loop.parsed_of_annotations rfl⟩
      rcases mem_annotations_append.mp ha' with hmem | hmem
      · obtain rfl := List.mem_singleton.mp hmem
        exact hann a' rfl
      · exact hl a' hmem
    | inr inner =>
      cases h
      exact ⟨hl, hinner inner rfl⟩
  · cases h
    exact ⟨hl, Loop.parsed_of_annotations rfl⟩
  · simp only [bind_ok_iff] at h
    obtain ⟨o, ho, h⟩ := h
    cases h
    exact ⟨hl, Loop.parsed_of_annotations (parseEmptyOperation_annotations ho)⟩
  · cases h
    exact ⟨hl, Loop.parsed_of_annotations rfl⟩

lemma enterOperationChild_parsed {kind : String} (hl : (Loop.operation kind o).Parsed)
    (h : enterOperationChild floats kind o e = .ok m) : m.Parsed := by
  unfold enterOperationChild at h
  split_ifs at h
  · simp only [bind_ok_iff] at h
    obtain ⟨result, hresult, h⟩ := h
    obtain ⟨hann, hinner⟩ := enterAnnotation_parsed hresult
    cases result with
    | inl a =>
      cases h
      refine ⟨fun a' ha' => ?_, Loop.parsed_of_annotations rfl⟩
      rcases List.mem_append.mp ha' with hmem | hmem
      · exact hl a' hmem
      · obtain rfl := List.mem_singleton.mp hmem
        exact hann a' rfl
    | inr inner =>
      cases h
      exact ⟨hl, hinner inner rfl⟩
  · cases h
    exact ⟨hl, Loop.parsed_of_annotations rfl⟩

lemma onStart_parsed (hl : l.Parsed) (h : l.onStart floats e = .ok m) : m.Parsed := by
  cases l with
  | schema s => exact enterSchemaChild_parsed hl h
  | entityType t actions functions => exact enterEntityTypeChild_parsed hl h
  | operation kind o => exact enterOperationChild_parsed hl h
  | entityContainer c =>
    simp only [Loop.onStart, enterContainerChild] at h
    split_ifs at h
    · simp only [bind_ok_iff] at h
      obtain ⟨s, -, h⟩ := h
      cases h
      exact ⟨hl, Loop.parsed_of_annotations rfl⟩
    · cases h
      exact ⟨hl, Loop.parsed_of_annotations rfl⟩
  | annotationChildren term items sawCollection =>
    simp only [Loop.onStart] at h
    split_ifs at h
    · cases h
      exact hl
    · cases h
      exact ⟨hl, Loop.parsed_of_annotations rfl⟩
    · cases h
      exact hl
  | _ =>
    cases h
    exact hl

lemma readEntityTypeLeaf_parsed {t : EntityType} (hl : (Loop.entityType t actions functions).Parsed)
    (h : readEntityTypeLeaf floats t actions functions e = .ok l') : l'.Parsed := by
  unfold readEntityTypeLeaf at h
  dsimp only at h
  split_ifs at h
  · simp only [bind_ok_iff] at h
    obtain ⟨keys, -, h⟩ := h
    cases h
    exact hl
  · simp only [bind_ok_iff] at h
    obtain ⟨p, -, h⟩ := h
    cases h
    exact hl
  · simp only [bind_ok_iff] at h
    obtain ⟨n, -, h⟩ := h
    cases h
    exact hl
  · simp only [bind_ok_iff] at h
    obtain ⟨a, ha, h⟩ := h
    cases h
    intro a' ha'
    rcases mem_annotations_append.mp ha' with hmem | hmem
    · exact annotationFromAttrs_parsed ha a' hmem
    · exact hl a' hmem
  · simp only [bind_ok_iff] at h
    obtain ⟨o, ho, h⟩ := h
    cases h
    intro a ha
    have hnone := parseEmptyOperation_annotations ho
    simp only [Loop.annotations, List.append_assoc, List.mem_append (s := t.annotations)] at ha
    rcases ha with ha | ha
    · exact hl a (by simp [Loop.annotations, ha])
    · have hold := addOperation_annotations ha
      rw [hnone, List.append_nil] at hold
      apply hl a
      simp only [Loop.annotations, List.append_assoc, List.mem_append (s := t.annotations)]
      exact .inr hold
  · cases h
    exact hl

lemma readOperationLeaf_parsed {kind : String} {o' : Operation}
    (hl : (Loop.operation kind o).Parsed) (h : readOperationLeaf floats o e = .ok o') :
    (Loop.operation kind o').Parsed := by
  unfold readOperationLeaf at h
  dsimp only at h
  split_ifs at h
  · simp only [bind_ok_iff] at h
    obtain ⟨p, -, h⟩ := h
    cases h
    exact hl
  · simp only [bind_ok_iff] at h
    obtain ⟨t, -, h⟩ := h
    cases h
    exact hl
  · simp only [bind_ok_iff] at h
    obtain ⟨a, ha, h⟩ := h
    cases h
    intro a' ha'
    rcases List.mem_append.mp ha' with hmem | hmem
    · exact hl a' hmem
    · exact annotationFromAttrs_parsed ha a' hmem
  · cases h
    exact hl

lemma readSchemaLeaf_annotations {s s' : Schema} (h : readSchemaLeaf frozen s e = .ok s') :
    s'.annotations = s.annotations := by
  unfold readSchemaLeaf at h
  dsimp only at h
  split_ifs at h
  · simp only [bind_ok_iff] at h
    obtain ⟨t, -, h⟩ := h
    cases h
    rfl
  · simp only [bind_ok_iff] at h
    obtain ⟨name, -, h⟩ := h
    cases h
    rfl
  · cases h
    rfl

lemma onEmpty_parsed (hl : l.Parsed) (h : l.onEmpty floats frozen e = .ok l') : l'.Parsed := by
  cases l with
  | schema s =>
    simp only [Loop.onEmpty, bind_ok_iff] at h
    obtain ⟨s', hs', h⟩ := h
    cases h
    intro a ha
    apply hl a
    rwa [Loop.annotations, ← readSchemaLeaf_annotations hs']
  | entityType t actions functions => exact readEntityTypeLeaf_parsed hl h
  | operation kind o =>
    simp only [Loop.onEmpty, bind_ok_iff] at h
    obtain ⟨o', ho', h⟩ := h
    cases h
    exact readOperationLeaf_parsed hl ho'
  | entityContainer c =>
    simp only [Loop.onEmpty, bind_ok_iff] at h
    obtain ⟨c', -, h⟩ := h
    cases h
    exact Loop.parsed_of_annotations rfl
  | annotationChildren term items sawCollection =>
    cases h
    exact hl
  | text name depth raw =>
    cases h
    exact hl
  | skip depth =>
    cases h
    exact hl
  | _ =>
    simp only [Loop.onEmpty] at h
    split_ifs at h
    · simp only [bind_ok_iff] at h
      obtain ⟨_, -, h⟩ := h
      cases h
      exact Loop.parsed_of_annotations rfl
    · cases h
      exact hl

variable {r : Read}

lemma read_parsed (hl : l.Parsed) (h : l.read = .ok r) : r.Parsed := by
  cases l with
  | annotationChildren term items sawCollection =>
    cases h
    cases sawCollection with
    | true => exact hl
    | false => simp [Read.Parsed, Read.annotations, Annotation.Parsed]
  | enumType start members =>
    simp only [Loop.read, bind_ok_iff] at h
    obtain ⟨name, -, h⟩ := h
    cases h
    simp [Read.Parsed, Read.annotations]
  | text name depth raw => cases h
  | _ =>
    cases h
    exact hl

lemma onEnd_parsed (hl : l.Parsed) {name : String} (h : l.onEnd name = .ok m) : m.Parsed := by
  unfold Loop.onEnd at h
  split at h
  · split_ifs at h <;> cases h
    · simp [Move.Parsed, Read.Parsed, Read.annotations]
    · exact Loop.parsed_of_annotations rfl
  · split_ifs at h
    · simp only [bind_ok_iff] at h
      obtain ⟨r, hr, h⟩ := h
      cases h
      exact read_parsed hl hr
    · cases h
      exact hl

variable {t : Token}

lemma onText_parsed {name raw : String} {depth : Nat} (h : onText name depth raw t = .ok m) :
    m.Parsed := by
  unfold onText at h
  split at h
  · cases h
    exact Loop.parsed_of_annotations rfl
  · cases h
    exact Loop.parsed_of_annotations rfl
  · split_ifs at h <;> cases h
    · simp [Move.Parsed, Read.Parsed, Read.annotations]
    · exact Loop.parsed_of_annotations rfl
    · exact Loop.parsed_of_annotations rfl
  · cases h

lemma onToken_parsed (hl : l.Parsed) (h : l.onToken floats frozen t = .ok m) : m.Parsed := by
  unfold Loop.onToken at h
  split at h
  · exact onText_parsed h
  · split at h
    · exact onStart_parsed hl h
    · simp only [bind_ok_iff] at h
      obtain ⟨l', hl', h⟩ := h
      cases h
      exact onEmpty_parsed hl hl'
    · exact onEnd_parsed hl h
    · cases h

/-- Whatever is not text adds its annotations, and nothing else. -/
lemma accept_annotations (hr : ∀ raw, r ≠ .text raw) (h : l.accept unescape r = .ok l')
    (ha : a ∈ l'.annotations) : a ∈ l.annotations ∨ a ∈ r.annotations := by
  unfold Loop.accept at h
  split at h
  case h_1 s t actions functions =>
    cases h
    simp only [Loop.annotations, Schema.annotations, Read.annotations, List.flatMap_append,
      List.flatMap_singleton, operationAnnotations_append, List.mem_append] at ha ⊢
    tauto
  case h_3 s kind o =>
    cases h
    simp only [Loop.annotations, Schema.annotations, Read.annotations, List.append_assoc,
      List.mem_append (s := s.entityTypes.flatMap _)] at ha ⊢
    rcases ha with ha | ha
    · exact .inl (.inl ha)
    · have hold := addOperation_annotations ha
      rcases List.mem_append.mp hold with hold | hold
      · exact .inl (.inr hold)
      · exact .inr hold
  case h_6 t actions functions a =>
    cases h
    rcases mem_annotations_append.mp ha with hmem | hmem
    · exact .inr hmem
    · exact .inl hmem
  case h_8 t actions functions kind o =>
    cases h
    simp only [Loop.annotations, Read.annotations, List.append_assoc,
      List.mem_append (s := t.annotations)] at ha ⊢
    rcases ha with ha | ha
    · exact .inl (.inl ha)
    · have hold := addOperation_annotations ha
      rcases List.mem_append.mp hold with hold | hold
      · exact .inl (.inr hold)
      · exact .inr hold
  case h_9 kind o a =>
    cases h
    exact List.mem_append.mp ha
  case h_11 term items sawCollection raw => exact absurd rfl (hr raw)
  all_goals
    cases h
    exact .inl ha

lemma accept_parsed (hl : l.Parsed) (hr : r.Parsed) (h : l.accept unescape r = .ok l') :
    l'.Parsed := by
  by_cases htext : ∃ raw, r = .text raw
  · obtain ⟨raw, rfl⟩ := htext
    cases l with
    | annotationChildren term items sawCollection =>
      simp only [Loop.accept] at h
      split at h
      · cases h
      · cases h
        split_ifs with hvalue
        · exact hl
        · simp only [Loop.Parsed, Loop.annotations, List.mem_singleton, forall_eq,
            Annotation.Parsed] at hl ⊢
          intro item hitem
          rcases List.mem_append.mp hitem with hitem | hitem
          · exact hl item hitem
          · obtain rfl := List.mem_singleton.mp hitem
            exact hvalue
    | _ =>
      cases h
      exact hl
  · intro a ha
    rcases accept_annotations (fun raw hraw => htext ⟨raw, hraw⟩) h ha with hmem | hmem
    · exact hl a hmem
    · exact hr a hmem

/-! #### Whole texts -/

def CsdlDocument.Parsed (d : CsdlDocument) : Prop :=
  ∀ s ∈ d.schemas, ∀ a ∈ s.annotations, a.Parsed

structure ParserState.Parsed (st : ParserState) : Prop where
  document : st.document.Parsed
  loops : ∀ l ∈ st.loops, l.Parsed

variable {d : CsdlDocument}

lemma CsdlDocument.Parsed.add (hd : d.Parsed) {s : Schema} (hs : (Read.schema s).Parsed) :
    CsdlDocument.Parsed { d with schemas := d.schemas ++ [s] } := by
  intro s' hs'
  rcases List.mem_append.mp hs' with hs' | hs'
  · exact hd s' hs'
  · obtain rfl := List.mem_singleton.mp hs'
    exact hs

variable {st : ParserState} {st' : ParserState}

lemma give_parsed (hst : st.Parsed) (hr : r.Parsed) (h : st.give unescape r = .ok st') :
    st'.Parsed := by
  unfold ParserState.give at h
  split at h
  next hloops =>
    split at h
    next s =>
      cases h
      exact ⟨hst.document.add hr, hst.loops⟩
    next =>
      cases h
      exact hst
  next l outer hloops =>
    simp only [bind_ok_iff] at h
    obtain ⟨l', hl', h⟩ := h
    cases h
    have hparts := hst.loops
    rw [hloops] at hparts
    refine ⟨hst.document, fun inner hinner => ?_⟩
    rcases List.mem_cons.mp hinner with rfl | hinner
    · exact accept_parsed (hparts l (by simp)) hr hl'
    · exact hparts inner (List.mem_cons_of_mem _ hinner)

lemma documentOnToken_parsed (hd : d.Parsed) (h : documentOnToken d t = .ok st) : st.Parsed := by
  unfold documentOnToken at h
  split at h
  · split_ifs at h
    · simp only [bind_ok_iff] at h
      obtain ⟨version, -, h⟩ := h
      cases h
      exact ⟨hd, by simp⟩
    · simp only [bind_ok_iff] at h
      obtain ⟨name, -, h⟩ := h
      cases h
      exact ⟨hd, by simpa using Loop.parsed_of_annotations rfl⟩
    · cases h
      exact ⟨hd, by simp⟩
  · split_ifs at h
    · simp only [bind_ok_iff] at h
      obtain ⟨version, -, h⟩ := h
      cases h
      exact ⟨hd, by simp⟩
    · cases h
      exact ⟨hd, by simp⟩
  · cases h
    exact ⟨hd, by simp⟩
  · cases h

lemma step_parsed (hst : st.Parsed) (h : st.step floats frozen unescape t = .ok st') :
    st'.Parsed := by
  unfold ParserState.step at h
  split at h
  next => exact documentOnToken_parsed hst.document h
  next l outer hloops =>
    have hparts := hst.loops
    rw [hloops] at hparts
    have houter : ∀ inner ∈ outer, inner.Parsed := fun inner hinner =>
      hparts inner (List.mem_cons_of_mem _ hinner)
    simp only [bind_ok_iff] at h
    obtain ⟨m, hm, h⟩ := h
    have hmove := onToken_parsed (hparts l (by simp)) hm
    cases m with
    | stay l' =>
      cases h
      exact ⟨hst.document, List.forall_mem_cons.mpr ⟨hmove, houter⟩⟩
    | enter l' inner =>
      cases h
      exact ⟨hst.document,
        List.forall_mem_cons.mpr ⟨hmove.2, List.forall_mem_cons.mpr ⟨hmove.1, houter⟩⟩⟩
    | leave r =>
      have hleft : ParserState.Parsed { st with loops := outer } := ⟨hst.document, houter⟩
      exact give_parsed hleft hmove h

lemma run_parsed (hst : st.Parsed) {tokens : List Token}
    (h : st.run floats frozen unescape tokens = .ok st') : st'.Parsed := by
  induction tokens generalizing st with
  | nil =>
    cases h
    exact hst
  | cons t tokens ih =>
    simp only [ParserState.run, List.foldlM_cons, bind_ok_iff] at h
    obtain ⟨st₁, hstep, h⟩ := h
    exact ih (step_parsed hst hstep) h

lemma finishOuter_parsed {loops : List Loop} {d' : CsdlDocument} (hr : r.Parsed)
    (hloops : ∀ l ∈ loops, l.Parsed) (hd : d.Parsed) (h : finishOuter unescape r loops d = .ok d') :
    d'.Parsed := by
  induction loops generalizing r with
  | nil =>
    cases r with
    | schema s =>
      cases h
      exact hd.add hr
    | _ =>
      cases h
      exact hd
  | cons l loops ih =>
    simp only [finishOuter, bind_ok_iff] at h
    obtain ⟨l', hl', r', hr', h⟩ := h
    have hparsed := accept_parsed (hloops l (by simp)) hr hl'
    exact ih (read_parsed hparsed hr') (fun l hl => hloops l (List.mem_cons_of_mem _ hl)) h

theorem parseTokens_parsed {tokens : List Token}
    (h : parseTokens floats frozen unescape tokens = .ok d) : d.Parsed := by
  simp only [parseTokens, bind_ok_iff] at h
  obtain ⟨st, hrun, h⟩ := h
  have hst : st.Parsed := run_parsed ⟨by simp [CsdlDocument.Parsed], by simp⟩ hrun
  unfold ParserState.finish at h
  split at h
  next =>
    cases h
    exact hst.document
  next l outer hloops =>
    simp only [bind_ok_iff] at h
    obtain ⟨r, hr, h⟩ := h
    have hparts := hst.loops
    rw [hloops] at hparts
    exact finishOuter_parsed (read_parsed (hparts l (by simp)) hr)
      (fun l hl => hparts l (List.mem_cons_of_mem _ hl)) hst.document h

end Parsed

/-! ### The round trip -/

/-- Whether an annotation holds a floating-point number. -/
def Annotation.isFloat (a : Annotation) : Bool :=
  match a.value with
  | .float _ => true
  | _ => false

def CsdlDocument.NoFloats (d : CsdlDocument) : Prop :=
  ∀ s ∈ d.schemas, ∀ a ∈ s.annotations, a.isFloat = false

instance (d : CsdlDocument) : Decidable d.NoFloats :=
  inferInstanceAs (Decidable (∀ s ∈ d.schemas, ∀ a ∈ s.annotations, a.isFloat = false))

/-- Every operation and every container has children. -/
def CsdlDocument.NoneChildless (d : CsdlDocument) : Prop :=
  ∀ s ∈ d.schemas, (∀ o ∈ s.actions, o.hasChildren = true) ∧
    (∀ o ∈ s.functions, o.hasChildren = true) ∧ ∀ c ∈ s.entityContainers, c.hasChildren = true

instance (d : CsdlDocument) : Decidable d.NoneChildless :=
  inferInstanceAs (Decidable (∀ s ∈ d.schemas, (∀ o ∈ s.actions, o.hasChildren = true) ∧
    (∀ o ∈ s.functions, o.hasChildren = true) ∧ ∀ c ∈ s.entityContainers, c.hasChildren = true))

lemma reread_eq_iff (d : CsdlDocument) : d.reread = d ↔ d.NoneChildless := by
  have hschema : ∀ s : Schema, s.reread = s ↔ (∀ o ∈ s.actions, o.hasChildren = true) ∧
      (∀ o ∈ s.functions, o.hasChildren = true) ∧
      ∀ c ∈ s.entityContainers, c.hasChildren = true := by
    intro s
    cases s
    simp [Schema.reread, List.filter_eq_self]
  have hschemas : d.schemas.map Schema.reread = d.schemas ↔ ∀ s ∈ d.schemas, s.reread = s := by
    simpa using List.map_inj_left (l := d.schemas) (f := Schema.reread) (g := id)
  cases d with
  | mk version schemas =>
    simp only [CsdlDocument.reread, CsdlDocument.NoneChildless, CsdlDocument.mk.injEq, true_and,
      ← hschema]
    exact hschemas

lemma mem_block {indent : Nat} {name : String} {attributes : List (String × String)}
    {children : List Piece} {p : Piece} (h : p ∈ children) :
    p ∈ block indent name attributes children := by
  simp [block, h]

/-- The tag before which an item stands. -/
lemma item_mem_emitAnnotationElement {floats : FloatFormat} {term item : String} {items : List String}
    {indent : Nat} (h : item ∈ items) :
    (⟨xmlEscapeText item, .end "String"⟩ : Piece) ∈
      emitAnnotationElement floats indent ⟨term, .collection items⟩ := by
  apply mem_block
  apply mem_block
  apply List.mem_flatMap.mpr
  exact ⟨item, h, by simp [emitItem]⟩

lemma mem_emitOperation {floats : FloatFormat} {kind : String} {o : Operation} {a : Annotation}
    (ha : a ∈ o.annotations) {p : Piece} (hp : p ∈ emitAnnotationElement floats 8 a) :
    p ∈ emitOperation floats kind o := by
  have hchildren : o.hasChildren = true := by
    have hsome : o.annotations ≠ [] := List.ne_nil_of_mem ha
    simp [Operation.hasChildren, hsome]
  rw [emitOperation, element, if_pos hchildren]
  apply mem_block
  exact List.mem_append_right _ (List.mem_flatMap.mpr ⟨a, ha, hp⟩)

/-- The tags of an annotation are among those of its schema. -/
lemma mem_emitSchema {floats : FloatFormat} {s : Schema} {a : Annotation} (ha : a ∈ s.annotations)
    {p : Piece} (hp : p ∈ emitAnnotationElement floats 8 a) : p ∈ emitSchema floats s := by
  apply mem_block
  simp only [Schema.annotations, operationAnnotations, List.mem_append, List.mem_flatMap] at ha ⊢
  rcases ha with (⟨t, ht, ha⟩ | ⟨o, ho, ha⟩) | ⟨o, ho, ha⟩
  · refine .inl (.inl (.inl (.inr ⟨t, ht, mem_block ?_⟩)))
    exact List.mem_append_right _ (List.mem_flatMap.mpr ⟨a, ha, hp⟩)
  · exact .inl (.inl (.inr ⟨o, ho, mem_emitOperation ha hp⟩))
  · exact .inl (.inr ⟨o, ho, mem_emitOperation ha hp⟩)

/-- With a reader that is right about it, what the parser returned can be read back. -/
lemma readable_of_parsed {floats : FloatFormat} {x : XmlReader} {d : CsdlDocument} (hd : d.Parsed)
    (hfloats : d.NoFloats) (hx : x.Reads (emitDocument floats d)) :
    ∀ s ∈ d.schemas, s.Readable x.unescape := by
  have hannotation : ∀ s ∈ d.schemas, ∀ a ∈ s.annotations, a.Readable x.unescape := by
    intro s hs a ha
    have hparsed := hd s hs a ha
    have hfloat := hfloats s hs a ha
    obtain ⟨term, value⟩ := a
    cases value with
    | float value => cases hfloat
    | record entries => cases hparsed
    | collection items =>
      intro item hitem
      have hmem : (⟨xmlEscapeText item, .end "String"⟩ : Piece) ∈ emitDocument floats d :=
        mem_block (mem_block (List.mem_flatMap.mpr
          ⟨s, hs, mem_emitSchema ha (item_mem_emitAnnotationElement hitem)⟩))
      exact ⟨hparsed item hitem, hx.unescape _ hmem item rfl⟩
    | _ => trivial
  intro s hs
  refine ⟨fun t ht a ha => ?_, fun o ho a ha => ?_, fun o ho a ha => ?_⟩
  all_goals
    apply hannotation s hs a
    simp only [Schema.annotations, operationAnnotations, List.mem_append, List.mem_flatMap]
  · exact .inl (.inl ⟨t, ht, ha⟩)
  · exact .inl (.inr ⟨o, ho, ha⟩)
  · exact .inr ⟨o, ho, ha⟩

/-- A document that can be read comes back without its childless operations and containers. -/
lemma parseCsdl_emitCsdlXml {floats : FloatFormat} {x : XmlReader} {d : CsdlDocument}
    (hd : d.Parsed) (hfloats : d.NoFloats) (hx : x.Reads (emitDocument floats d)) :
    parseCsdl floats x (emitCsdlXml floats d) = .ok d.reread := by
  have hreadable := readable_of_parsed hd hfloats hx
  have htokens : x.tokens (emitCsdlXml floats d) = (emitDocument floats d).map Piece.token :=
    hx.tokens (wellFormed_document floats d)
  unfold parseCsdl parseCsdlWithCompatibility
  rw [htokens, parseTokens_emitDocument hreadable]

/-- Which documents come back as they were when they are written and read again. -/
theorem emitted_document_reads_back_iff (floats : FloatFormat) (x : XmlReader) {text : String}
    {d : CsdlDocument} (hparse : parseCsdl floats x text = .ok d) (hfloats : d.NoFloats)
    (hx : x.Reads (emitDocument floats d)) :
    parseCsdl floats x (emitCsdlXml floats d) = .ok d ↔ d.NoneChildless := by
  rw [parseCsdl_emitCsdlXml (parseTokens_parsed hparse) hfloats hx, Except.ok.injEq, reread_eq_iff]

/-! ### A reader of given texts -/

/-- Character data with its references to the predefined entities resolved. -/
def unescapeChars : List Char → List Char
  | '&' :: 'a' :: 'm' :: 'p' :: ';' :: rest => '&' :: unescapeChars rest
  | '&' :: 'l' :: 't' :: ';' :: rest => '<' :: unescapeChars rest
  | '&' :: 'g' :: 't' :: ';' :: rest => '>' :: unescapeChars rest
  | c :: rest => c :: unescapeChars rest
  | [] => []

lemma unescapeChars_escape (cs : List Char) :
    unescapeChars (cs.flatMap fun c => (escapeTextChar c).toList) = cs := by
  induction cs with
  | nil => rfl
  | cons c cs ih =>
    rw [List.flatMap_cons]
    generalize cs.flatMap (fun c => (escapeTextChar c).toList) = rest at ih ⊢
    unfold escapeTextChar
    split
    · simp [unescapeChars, ih]
    · simp [unescapeChars, ih]
    · simp [unescapeChars, ih]
    · simp_all [unescapeChars]

/-- A reader that knows the tags of some texts. -/
def tableReader (table : List (List Piece)) : XmlReader where
  tokens text := ((table.find? fun pieces => document pieces = text).getD []).map Piece.token
  unescape raw := .ok (String.ofList (unescapeChars raw.toList))

lemma tableReader_reads {table : List (List Piece)} {pieces : List Piece}
    (h : table.find? (fun other => document other = document pieces) = some pieces) :
    (tableReader table).Reads pieces := by
  constructor
  · intro _
    simp [tableReader, h]
  · intro p _ s hbefore
    rw [hbefore]
    simp [tableReader, xmlEscapeText, List.flatMap_map, unescapeChars_escape]

def noFloats : FloatFormat := ⟨fun _ => none, fun _ => ""⟩

/-- A schema with an action that has a parameter. -/
def orderDocument : CsdlDocument where
  version := "4.0"
  schemas := [{
    nameSpace := "Shop"
    entityTypes := [{
      name := "Order"
      annotations := [⟨"Shop.Hint", .collection ["a<b"]⟩] }]
    actions := [{
      name := "Ship"
      isBound := true
      parameters := [⟨"order", "Shop.Order", false, none⟩] }] }]

/-- The order schema as it may be written by hand. -/
def orderPieces : List Piece :=
  [⟨"\n", .start "Edmx" [("Version", "4.0")]⟩, ⟨"", .start "Schema" [("Namespace", "Shop")]⟩,
    ⟨"", .start "EntityType" [("Name", "Order")]⟩,
    ⟨"", .start "Annotation" [("Term", "Shop.Hint")]⟩, ⟨"", .start "Collection" []⟩,
    ⟨"", .start "String" []⟩, ⟨"a&lt;b", .end "String"⟩, ⟨"", .end "Collection"⟩,
    ⟨"", .end "Annotation"⟩, ⟨"", .end "EntityType"⟩,
    ⟨"", .start "Action" [("Name", "Ship"), ("IsBound", "true")]⟩,
    ⟨"", .empty "Parameter" [("Name", "order"), ("Type", "Shop.Order"), ("Nullable", "false")]⟩,
    ⟨"", .end "Action"⟩, ⟨"", .end "Schema"⟩, ⟨"", .end "Edmx"⟩]

/-- The order schema is written and read back. -/
theorem order_document_reads_back :
    parseCsdl noFloats (tableReader [orderPieces, emitDocument noFloats orderDocument])
      (emitCsdlXml noFloats orderDocument) = .ok orderDocument := by
  have hparse : parseCsdl noFloats (tableReader [orderPieces, emitDocument noFloats orderDocument])
      (document orderPieces) = .ok orderDocument := by
    decide +kernel
  have hreads : (tableReader [orderPieces, emitDocument noFloats orderDocument]).Reads
      (emitDocument noFloats orderDocument) := tableReader_reads (by decide +kernel)
  exact (emitted_document_reads_back_iff noFloats _ hparse (by decide) hreads).mpr (by decide)

/-- A schema with an action without children. -/
def pingDocument : CsdlDocument where
  version := "4.0"
  schemas := [{ nameSpace := "Net", actions := [{ name := "Ping", isBound := false }] }]

def pingPieces : List Piece :=
  [⟨"\n", .start "Edmx" [("Version", "4.0")]⟩, ⟨"", .start "Schema" [("Namespace", "Net")]⟩,
    ⟨"", .start "Action" [("Name", "Ping")]⟩, ⟨"", .end "Action"⟩, ⟨"", .end "Schema"⟩,
    ⟨"", .end "Edmx"⟩]

/-- The action is read with its end tag, written without one, and then not read. -/
theorem ping_action_is_lost :
    parseCsdl noFloats (tableReader [pingPieces, emitDocument noFloats pingDocument])
        (document pingPieces) = .ok pingDocument ∧
      pingDocument.NoFloats ∧
      (tableReader [pingPieces, emitDocument noFloats pingDocument]).Reads
        (emitDocument noFloats pingDocument) ∧
      parseCsdl noFloats (tableReader [pingPieces, emitDocument noFloats pingDocument])
        (emitCsdlXml noFloats pingDocument) ≠ .ok pingDocument := by
  have hparse : parseCsdl noFloats (tableReader [pingPieces, emitDocument noFloats pingDocument])
      (document pingPieces) = .ok pingDocument := by
    decide +kernel
  have hreads : (tableReader [pingPieces, emitDocument noFloats pingDocument]).Reads
      (emitDocument noFloats pingDocument) := tableReader_reads (by decide +kernel)
  refine ⟨hparse, by decide, hreads, ?_⟩
  rw [parseCsdl_emitCsdlXml (parseTokens_parsed hparse) (by decide) hreads]
  decide

end Temper.Spec.Csdl
