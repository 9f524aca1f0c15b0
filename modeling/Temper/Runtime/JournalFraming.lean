import Mathlib
import Temper.Runtime.Listing

/-!
# Framing scoped journals

A scoped journal id ends in a frame: a marker, the kind of the scope, the hex of its id and the
digest of the bundle. Nothing in the frame holds a colon of its own, so it is read off from the
right whatever the entity id looks like.
-/

namespace Temper.Runtime

open Spec

/-! ### Hex -/

variable {n : Nat}

lemma decodeHexDigit_hexDigitChar (h : n < 16) : decodeHexDigit (hexDigitChar n) = some n := by
  interval_cases n <;> decide

/-- A digit that is read is the one that is written. -/
lemma hexDigitChar_of_decodeHexDigit {c : Char} (h : decodeHexDigit c = some n) :
    n < 16 ∧ hexDigitChar n = c := by
  unfold decodeHexDigit at h
  split_ifs at h with hdigit hletter
  · rw [Bool.and_eq_true, decide_eq_true_iff, decide_eq_true_iff] at hdigit
    have hlow : 48 ≤ c.toNat := hdigit.1
    have hhigh : c.toNat ≤ 57 := hdigit.2
    cases h
    refine ⟨by omega, ?_⟩
    rw [hexDigitChar, if_pos (by omega), show 48 + (c.toNat - 48) = c.toNat by omega,
      Char.ofNat_toNat]
  · rw [Bool.and_eq_true, decide_eq_true_iff, decide_eq_true_iff] at hletter
    have hlow : 97 ≤ c.toNat := hletter.1
    have hhigh : c.toNat ≤ 102 := hletter.2
    cases h
    refine ⟨by omega, ?_⟩
    rw [hexDigitChar, if_neg (by omega), show 87 + (c.toNat - 87) = c.toNat by omega,
      Char.ofNat_toNat]

lemma isLowerHex_of_decodeHexDigit {c : Char} (h : decodeHexDigit c = some n) : isLowerHex c := by
  unfold decodeHexDigit at h
  unfold isLowerHex
  split_ifs at h with hdigit hletter
  · rw [hdigit, Bool.true_or]
  · rw [hletter, Bool.or_true]

lemma isLowerHex_hexDigitChar (h : n < 16) : isLowerHex (hexDigitChar n) :=
  isLowerHex_of_decodeHexDigit (decodeHexDigit_hexDigitChar h)

lemma not_isLowerHex_colon : isLowerHex ':' = false := by decide

variable {cs : List Char}

lemma colon_notMem_of_isLowerHex (h : ∀ c ∈ cs, isLowerHex c) : ':' ∉ cs := by
  intro hmem
  have hcolon := h ':' hmem
  rw [not_isLowerHex_colon] at hcolon
  cases hcolon

variable {bytes : List Nat}

lemma decodeHex_encodeHex (h : ∀ b ∈ bytes, b < 256) :
    decodeHex (encodeHex bytes) = some bytes := by
  induction bytes with
  | nil => rfl
  | cons b bytes ih =>
    rw [List.forall_mem_cons] at h
    have hrest : decodeHex (encodeHex (b :: bytes)) = (do
        let high ← decodeHexDigit (hexDigitChar (b / 16))
        let low ← decodeHexDigit (hexDigitChar (b % 16))
        let bytes ← decodeHex (encodeHex bytes)
        pure ((16 * high + low) :: bytes)) := rfl
    have hb := h.1
    rw [hrest, decodeHexDigit_hexDigitChar (by omega), decodeHexDigit_hexDigitChar (by omega),
      ih h.2]
    change some ((16 * (b / 16) + b % 16) :: bytes) = some (b :: bytes)
    rw [Nat.div_add_mod]

/-- The hex of some bytes is determined by them. -/
lemma encodeHex_of_decodeHex (h : decodeHex cs = some bytes) : encodeHex bytes = cs := by
  induction cs using decodeHex.induct generalizing bytes with
  | case1 =>
    cases h
    rfl
  | case2 c => cases h
  | case3 high low rest ih =>
    simp only [decodeHex, Option.bind_eq_bind, Option.bind_eq_some_iff, Option.pure_def,
      Option.some.injEq] at h
    obtain ⟨n, hn, m, hm, tail, htail, rfl⟩ := h
    obtain ⟨hn16, hhigh⟩ := hexDigitChar_of_decodeHexDigit hn
    obtain ⟨hm16, hlow⟩ := hexDigitChar_of_decodeHexDigit hm
    have hcons : encodeHex ((16 * n + m) :: tail) =
        hexDigitChar ((16 * n + m) / 16) :: hexDigitChar ((16 * n + m) % 16) :: encodeHex tail := rfl
    rw [hcons, show (16 * n + m) / 16 = n by omega, show (16 * n + m) % 16 = m by omega, hhigh,
      hlow, ih htail]

lemma isLowerHex_of_mem_encodeHex (h : ∀ b ∈ bytes, b < 256) {c : Char} (hc : c ∈ encodeHex bytes) :
    isLowerHex c := by
  obtain ⟨b, hb, hc⟩ := List.mem_flatMap.mp hc
  have hlt := h b hb
  simp only [List.mem_cons, List.not_mem_nil, or_false] at hc
  rcases hc with rfl | rfl
  · exact isLowerHex_hexDigitChar (by omega)
  · exact isLowerHex_hexDigitChar (by omega)

/-! ### UTF-8 -/

lemma toNat_ofNat (h : n < 0xD800 ∨ 0xDFFF < n ∧ n < 0x110000) : (Char.ofNat n).toNat = n := by
  have hvalid : n.isValidChar := h
  simp [Char.ofNat, hvalid, Char.ofNatAux, Char.toNat]

lemma toNat_valid (c : Char) : c.toNat < 0xD800 ∨ 0xDFFF < c.toNat ∧ c.toNat < 0x110000 := c.valid

lemma isContinuation_iff {b : Nat} : isContinuation b ↔ 0x80 ≤ b ∧ b < 0xC0 := by
  simp [isContinuation]

lemma lt_of_mem_encodeUtf8Char {c : Char} {b : Nat} (h : b ∈ encodeUtf8Char c) : b < 256 := by
  have hvalid := toNat_valid c
  unfold encodeUtf8Char at h
  dsimp only at h
  split_ifs at h
  all_goals
    simp only [List.mem_cons, List.not_mem_nil, or_false] at h
    omega

/-- A character that was written is read back. -/
lemma decodeUtf8_encodeUtf8Char (c : Char) (rest : List Nat) :
    decodeUtf8 (encodeUtf8Char c ++ rest) = (decodeUtf8 rest).map (c :: ·) := by
  have hvalid := toNat_valid c
  have hback : Char.ofNat c.toNat = c := Char.ofNat_toNat c
  unfold encodeUtf8Char
  dsimp only
  split_ifs with hone htwo hthree
  · rw [List.singleton_append, decodeUtf8.eq_def]
    dsimp only
    rw [if_pos hone, hback]
  · rw [List.cons_append, List.singleton_append, decodeUtf8.eq_def]
    dsimp only
    rw [if_neg (by omega), if_pos (by simp; omega), if_pos (isContinuation_iff.mpr (by omega)),
      show 64 * (0xC0 + c.toNat / 64 - 0xC0) + (0x80 + c.toNat % 64 - 0x80) = c.toNat by omega,
      hback]
  · rw [List.cons_append, List.cons_append, List.singleton_append, decodeUtf8.eq_def]
    dsimp only
    have hn : 4096 * (0xE0 + c.toNat / 4096 - 0xE0) + 64 * (0x80 + c.toNat / 64 % 64 - 0x80) +
        (0x80 + c.toNat % 64 - 0x80) = c.toNat := by omega
    have hcont : isContinuation (0x80 + c.toNat / 64 % 64) ∧ isContinuation (0x80 + c.toNat % 64) :=
      ⟨isContinuation_iff.mpr (by omega), isContinuation_iff.mpr (by omega)⟩
    rw [if_neg (by omega), if_neg (by simp), if_pos (by simp; omega), hn,
      if_pos (by simp [hcont]; omega), hback]
  · rw [List.cons_append, List.cons_append, List.cons_append, List.singleton_append,
      decodeUtf8.eq_def]
    dsimp only
    have hn : 262144 * (0xF0 + c.toNat / 262144 - 0xF0) +
        4096 * (0x80 + c.toNat / 4096 % 64 - 0x80) + 64 * (0x80 + c.toNat / 64 % 64 - 0x80) +
        (0x80 + c.toNat % 64 - 0x80) = c.toNat := by omega
    have hcont : isContinuation (0x80 + c.toNat / 4096 % 64) ∧
        isContinuation (0x80 + c.toNat / 64 % 64) ∧ isContinuation (0x80 + c.toNat % 64) :=
      ⟨isContinuation_iff.mpr (by omega), isContinuation_iff.mpr (by omega),
        isContinuation_iff.mpr (by omega)⟩
    rw [if_neg (by omega), if_neg (by simp; omega), if_neg (by simp),
      if_pos (by simp; omega), hn, if_pos (by simp [hcont]; omega), hback]

lemma decodeUtf8_flatMap (cs : List Char) : decodeUtf8 (cs.flatMap encodeUtf8Char) = some cs := by
  induction cs with
  | nil => rfl
  | cons c cs ih =>
    rw [List.flatMap_cons, decodeUtf8_encodeUtf8Char, ih]
    rfl

/-- There is one way to write a text. -/
lemma flatMap_of_decodeUtf8 (h : decodeUtf8 bytes = some cs) :
    cs.flatMap encodeUtf8Char = bytes := by
  fun_induction decodeUtf8 bytes generalizing cs with
  | case1 =>
    cases h
    rfl
  | case2 a rest hone ih =>
    obtain ⟨tail, htail, rfl⟩ := Option.map_eq_some_iff.mp h
    have hn : (Char.ofNat a).toNat = a := toNat_ofNat (by omega)
    rw [List.flatMap_cons, ih htail, encodeUtf8Char, hn,
      if_pos hone, List.singleton_append]
  | case3 a hone htwo b rest hb ih =>
    obtain ⟨tail, htail, rfl⟩ := Option.map_eq_some_iff.mp h
    rw [Bool.and_eq_true, decide_eq_true_iff, decide_eq_true_iff] at htwo
    rw [isContinuation_iff] at hb
    set n := 64 * (a - 0xC0) + (b - 0x80) with hn
    have hchar : (Char.ofNat n).toNat = n := toNat_ofNat (by omega)
    rw [List.flatMap_cons, ih htail, encodeUtf8Char, hchar, if_neg (by omega), if_pos (by omega),
      show 0xC0 + n / 64 = a by omega, show 0x80 + n % 64 = b by omega]
    rfl
  | case6 a hone htwo hthree b c rest n hcheck =>
    rename_i ih
    obtain ⟨tail, htail, rfl⟩ := Option.map_eq_some_iff.mp h
    simp only [Bool.and_eq_true, decide_eq_true_iff, Bool.not_eq_true', Bool.and_eq_false_iff,
      decide_eq_false_iff_not, isContinuation_iff] at hthree hcheck
    have hchar : (Char.ofNat n).toNat = n := toNat_ofNat (by omega)
    rw [List.flatMap_cons, ih htail, encodeUtf8Char, hchar, if_neg (by omega), if_neg (by omega),
      if_pos (by omega), show 0xE0 + n / 4096 = a by omega, show 0x80 + n / 64 % 64 = b by omega,
      show 0x80 + n % 64 = c by omega]
    rfl
  | case9 a hone htwo hthree hfour b c d rest n hcheck =>
    rename_i ih
    obtain ⟨tail, htail, rfl⟩ := Option.map_eq_some_iff.mp h
    simp only [Bool.and_eq_true, decide_eq_true_iff, isContinuation_iff] at hfour hcheck
    have hchar : (Char.ofNat n).toNat = n := toNat_ofNat (by omega)
    rw [List.flatMap_cons, ih htail, encodeUtf8Char, hchar, if_neg (by omega), if_neg (by omega),
      if_neg (by omega), show 0xF0 + n / 262144 = a by omega,
      show 0x80 + n / 4096 % 64 = b by omega, show 0x80 + n / 64 % 64 = c by omega,
      show 0x80 + n % 64 = d by omega]
    rfl
  | _ => cases h

/-! ### Frames -/

lemma canonicalDigest_toList {digest : String} (h : isCanonicalSha256Digest digest) :
    ∃ hex, digest.toList = "sha256".toList ++ ':' :: hex ∧ ∀ c ∈ hex, isLowerHex c := by
  simp only [isCanonicalSha256Digest, Bool.and_eq_true, List.isPrefixOf_iff_prefix] at h
  obtain ⟨⟨-, hex, hhex⟩, hall⟩ := h
  refine ⟨hex, hhex.symm, ?_⟩
  rw [← hhex] at hall
  exact List.all_eq_true.mp hall

/-- What the framing asserts of its arguments. -/
structure Framable (entityId : String) (pin : SchemaExecutionPin) : Prop where
  entityId : entityId ≠ ""
  scopeId : pin.scope.id ≠ ""
  digest : isCanonicalSha256Digest pin.bundleDigest

/-- The hex of a scope id. -/
def scopeHex (scope : SchemaScope) : List Char :=
  encodeHex (scope.id.toList.flatMap encodeUtf8Char)

lemma scopedJournalEntityId_toList (entityId : String) (pin : SchemaExecutionPin) :
    (scopedJournalEntityId entityId pin).toList =
      ((entityId.toList ++ ":schema".toList) ++ ':' :: "task".toList) ++
        ':' :: (scopeHex pin.scope ++ ':' :: pin.bundleDigest.toList) := by
  cases pin.scope.kind
  simp [scopedJournalEntityId, scopedJournalPinSuffix, scopedJournalScopeMarker, scopeHex]

lemma decode_scopeHex (scope : SchemaScope) :
    (decodeHex (scopeHex scope)).bind decodeUtf8 = some scope.id.toList := by
  have hbytes : ∀ b ∈ scope.id.toList.flatMap encodeUtf8Char, b < 256 := by
    intro b hb
    obtain ⟨c, -, hc⟩ := List.mem_flatMap.mp hb
    exact lt_of_mem_encodeUtf8Char hc
  rw [scopeHex, decodeHex_encodeHex hbytes, Option.bind_some, decodeUtf8_flatMap]

lemma colon_notMem_scopeHex (scope : SchemaScope) : ':' ∉ scopeHex scope := by
  refine colon_notMem_of_isLowerHex fun c hc => isLowerHex_of_mem_encodeHex (fun b hb => ?_) hc
  obtain ⟨c, -, hc⟩ := List.mem_flatMap.mp hb
  exact lt_of_mem_encodeUtf8Char hc

lemma scopeHex_ne_nil {scope : SchemaScope} (h : scope.id ≠ "") : scopeHex scope ≠ [] := by
  intro hnil
  have hdecode := decode_scopeHex scope
  rw [hnil] at hdecode
  exact h (String.toList_eq_nil_iff.mp (Option.some.inj hdecode).symm)

/-- The frame is read off from the right. -/
lemma Framable.split {entityId : String} {pin : SchemaExecutionPin} (h : Framable entityId pin) :
    splitScopedJournalEntityId (scopedJournalEntityId entityId pin) = some (entityId, pin) := by
  obtain ⟨hex, hdigest, hhex⟩ := canonicalDigest_toList h.digest
  have hentity : entityId.toList ≠ [] := fun hnil => h.entityId (String.toList_eq_nil_iff.mp hnil)
  have hscope : pin.scope.id.toList ≠ [] := fun hnil => h.scopeId (String.toList_eq_nil_iff.mp hnil)
  have hdigest' : String.ofList ("sha256".toList ++ ':' :: hex) = pin.bundleDigest := by
    rw [← hdigest, String.ofList_toList]
  -- the parts, from the last colon to the first of the frame
  set marked := entityId.toList ++ ":schema".toList
  set kinded := marked ++ ':' :: "task".toList
  set scoped' := kinded ++ ':' :: scopeHex pin.scope
  have hsplit₁ : rsplitOnce ':' (scopedJournalEntityId entityId pin).toList =
      some (scoped' ++ ':' :: "sha256".toList, hex) := by
    rw [scopedJournalEntityId_toList, hdigest,
      ← rsplitOnce_append (colon_notMem_of_isLowerHex hhex)]
    simp [scoped', kinded, marked]
  have hsplit₂ : rsplitOnce ':' (scoped' ++ ':' :: "sha256".toList) =
      some (scoped', "sha256".toList) := rsplitOnce_append (by decide) _
  have hsplit₃ : rsplitOnce ':' scoped' = some (kinded, scopeHex pin.scope) :=
    rsplitOnce_append (colon_notMem_scopeHex pin.scope) _
  have hsplit₄ : rsplitOnce ':' kinded = some (marked, "task".toList) :=
    rsplitOnce_append (by decide) _
  have hstrip : stripSuffix ":schema".toList marked = some entityId.toList :=
    stripSuffix_append _ _
  have hkind : pin.scope.kind = .task := rfl
  simp only [splitScopedJournalEntityId, hsplit₁, hsplit₂, hsplit₃, hsplit₄, hstrip, hdigest',
    decode_scopeHex, h.digest, hentity, scopeHex_ne_nil h.scopeId, hscope, Option.bind_eq_bind,
    Option.bind_some, String.ofList_toList]
  rw [if_neg (by simp), if_neg (by simp), if_pos trivial, if_neg not_false, Option.pure_def,
    ← hkind]

lemma framable_of_split {value entityId : String} {pin : SchemaExecutionPin}
    (h : splitScopedJournalEntityId value = some (entityId, pin)) :
    Framable entityId pin ∧ scopedJournalEntityId entityId pin = value := by
  simp only [splitScopedJournalEntityId, Option.bind_eq_bind, Option.bind_eq_some_iff] at h
  obtain ⟨⟨rest₁, digestHex⟩, hsplit₁, ⟨rest₂, algorithm⟩, hsplit₂, ⟨kinded, hex⟩, hsplit₃,
    ⟨marked, kind⟩, hsplit₄, entity, hstrip, h⟩ := h
  dsimp only at h hsplit₂ hsplit₃ hsplit₄ hstrip
  by_cases hempty : entity = [] ∨ hex = []
  · rw [if_pos hempty] at h
    cases h
  rw [if_neg hempty] at h
  cases hdigest : isCanonicalSha256Digest (String.ofList (algorithm ++ ':' :: digestHex)) with
  | false =>
    rw [hdigest, if_pos (by simp)] at h
    cases h
  | true =>
    rw [hdigest, if_neg (by simp)] at h
    by_cases hkind : kind = "task".toList
    swap
    · rw [if_neg hkind] at h
      cases h
    simp only [hkind, if_true, Option.bind_some, Option.bind_eq_some_iff] at h
    obtain ⟨scopeId, ⟨bytes, hhex, hutf8⟩, h⟩ := h
    by_cases hscope : scopeId = []
    · rw [if_pos hscope] at h
      cases h
    rw [if_neg hscope] at h
    cases h
    rw [not_or] at hempty
    refine ⟨⟨?_, ?_, hdigest⟩, ?_⟩
    · exact fun hnil => hempty.1 (String.ofList_injective hnil)
    · exact fun hnil => hscope (String.ofList_injective hnil)
    · apply String.toList_injective
      rw [scopedJournalEntityId_toList, rsplitOnce_eq_some hsplit₁, rsplitOnce_eq_some hsplit₂,
        rsplitOnce_eq_some hsplit₃, rsplitOnce_eq_some hsplit₄, stripSuffix_eq_some hstrip, hkind]
      simp [scopeHex, flatMap_of_decodeUtf8 hutf8, encodeHex_of_decodeHex hhex]

/-- Framing and splitting are inverse to each other: no two pairs share an id, and the reserved ids
are the framed ones. -/
theorem scoped_journal_ids_are_framed :
    (∀ entityId pin, Framable entityId pin →
      splitScopedJournalEntityId (scopedJournalEntityId entityId pin) = some (entityId, pin)) ∧
    (∀ value entityId pin, splitScopedJournalEntityId value = some (entityId, pin) →
      Framable entityId pin ∧ scopedJournalEntityId entityId pin = value) ∧
    (∀ entityId pin entityId' pin', Framable entityId pin → Framable entityId' pin' →
      scopedJournalEntityId entityId pin = scopedJournalEntityId entityId' pin' →
        entityId = entityId' ∧ pin = pin') ∧
    ∀ value, isReservedScopedJournalEntityId value ↔
      ∃ entityId pin, Framable entityId pin ∧ scopedJournalEntityId entityId pin = value := by
  refine ⟨fun _ _ h => h.split, fun _ _ _ h => framable_of_split h, ?_, fun value => ⟨?_, ?_⟩⟩
  · intro entityId pin entityId' pin' h h' heq
    have hsplit := h.split
    rw [heq, h'.split] at hsplit
    cases hsplit
    exact ⟨rfl, rfl⟩
  · intro h
    obtain ⟨⟨entityId, pin⟩, hsplit⟩ := Option.isSome_iff_exists.mp h
    exact ⟨entityId, pin, framable_of_split hsplit⟩
  · rintro ⟨entityId, pin, h, rfl⟩
    rw [isReservedScopedJournalEntityId, h.split]
    rfl

def colonPin : SchemaExecutionPin where
  scope := ⟨.task, "é:1"⟩
  bundleDigest := "sha256:0000000000000000000000000000000000000000000000000000000000000000"

/-- An entity id that imitates a frame. -/
theorem imitated_frame_is_split :
    splitScopedJournalEntityId (scopedJournalEntityId "a:schema:task:31:sha256:0" colonPin) =
      some ("a:schema:task:31:sha256:0", colonPin) :=
  scoped_journal_ids_are_framed.1 _ _ ⟨by decide, by decide, by decide +kernel⟩

end Temper.Runtime
