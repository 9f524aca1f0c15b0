import Mathlib

/-!
# Base64 with the URL-safe alphabet

Three bytes are written as four sextets; one or two bytes at the end as two or three sextets, with
the bits that are left over unset. The lists of sextets that come from bytes are those with no
single sextet at the end and nothing in the bits left over.
-/

namespace Temper.Base64

/-! ### Bytes as sextets -/

def sextets : List UInt8 → List Nat
  | [] => []
  | [a] => [a.toNat / 4, a.toNat % 4 * 16]
  | [a, b] => [a.toNat / 4, a.toNat % 4 * 16 + b.toNat / 16, b.toNat % 16 * 4]
  | a :: b :: c :: rest =>
    a.toNat / 4 :: (a.toNat % 4 * 16 + b.toNat / 16) :: (b.toNat % 16 * 4 + c.toNat / 64) ::
      c.toNat % 64 :: sextets rest

/-- The bytes of whole groups, and of the full bytes of a group at the end. -/
def bytes : List Nat → List UInt8
  | x :: y :: z :: w :: rest =>
    UInt8.ofNat (x * 4 + y / 16) :: UInt8.ofNat (y % 16 * 16 + z / 4) ::
      UInt8.ofNat (z % 4 * 64 + w) :: bytes rest
  | [x, y, z] => [UInt8.ofNat (x * 4 + y / 16), UInt8.ofNat (y % 16 * 16 + z / 4)]
  | [x, y] => [UInt8.ofNat (x * 4 + y / 16)]
  | _ => []

/-- How many pad characters fill up the last group of four. -/
def padLength (bs : List UInt8) : Nat := (3 - bs.length % 3) % 3

/-- No single sextet at the end, and nothing in the bits left over. -/
def Canonical (xs : List Nat) : Prop :=
  match xs.length % 4 with
  | 0 => True
  | 2 => ∀ x, xs.getLast? = some x → x % 16 = 0
  | 3 => ∀ x, xs.getLast? = some x → x % 4 = 0
  | _ => False

lemma canonical_append_group {x y z w : Nat} {rest : List Nat} :
    Canonical (x :: y :: z :: w :: rest) ↔ Canonical rest := by
  have hlength : (x :: y :: z :: w :: rest).length % 4 = rest.length % 4 := by
    simp only [List.length_cons]
    omega
  unfold Canonical
  rw [hlength]
  cases rest with
  | nil => simp
  | cons u us => simp [List.getLast?_cons_cons]

lemma sextets_lt {bs : List UInt8} : ∀ x ∈ sextets bs, x < 64 := by
  induction bs using sextets.induct with
  | case1 => simp [sextets]
  | case2 a =>
    have ha := a.toNat_lt
    simp only [sextets, List.mem_cons, List.not_mem_nil, or_false, forall_eq_or_imp, forall_eq]
    omega
  | case3 a b =>
    have ha := a.toNat_lt
    have hb := b.toNat_lt
    simp only [sextets, List.mem_cons, List.not_mem_nil, or_false, forall_eq_or_imp, forall_eq]
    omega
  | case4 a b c rest ih =>
    have ha := a.toNat_lt
    have hb := b.toNat_lt
    have hc := c.toNat_lt
    simp only [sextets, List.mem_cons, forall_eq_or_imp]
    exact ⟨by omega, by omega, by omega, by omega, ih⟩

lemma canonical_sextets (bs : List UInt8) : Canonical (sextets bs) := by
  induction bs using sextets.induct with
  | case1 => simp [sextets, Canonical]
  | case2 a => simp [sextets, Canonical]
  | case3 a b => simp [sextets, Canonical]
  | case4 a b c rest ih =>
    rw [sextets, canonical_append_group]
    exact ih

/-- Canonical sextets are those of the bytes they hold. -/
lemma sextets_bytes {xs : List Nat} (hlt : ∀ x ∈ xs, x < 64) (h : Canonical xs) :
    sextets (bytes xs) = xs := by
  induction xs using bytes.induct with
  | case1 x y z w rest ih =>
    simp only [List.mem_cons, forall_eq_or_imp] at hlt
    obtain ⟨hx, hy, hz, hw, hrest⟩ := hlt
    rw [bytes, sextets, ih hrest (canonical_append_group.mp h)]
    simp only [UInt8.toNat_ofNat', List.cons.injEq, and_true]
    omega
  | case2 x y z =>
    simp only [List.mem_cons, List.not_mem_nil, or_false, forall_eq_or_imp, forall_eq] at hlt
    obtain ⟨hx, hy, hz⟩ := hlt
    have hlast : z % 4 = 0 := h z rfl
    simp only [bytes, sextets, UInt8.toNat_ofNat', List.cons.injEq, and_true]
    omega
  | case3 x y =>
    simp only [List.mem_cons, List.not_mem_nil, or_false, forall_eq_or_imp, forall_eq] at hlt
    obtain ⟨hx, hy⟩ := hlt
    have hlast : y % 16 = 0 := h y rfl
    simp only [bytes, sextets, UInt8.toNat_ofNat', List.cons.injEq, and_true]
    omega
  | case4 xs h₁ h₂ h₃ =>
    match xs with
    | [] => rfl
    | [x] => exact absurd h (by simp [Canonical])
    | [x, y] => exact absurd rfl (h₃ x y)
    | [x, y, z] => exact absurd rfl (h₂ x y z)
    | x :: y :: z :: w :: rest => exact absurd rfl (h₁ x y z w rest)

/-- The sextets of bytes and their pad characters make whole groups of four. -/
lemma length_sextets (bs : List UInt8) :
    ((sextets bs).length + padLength bs) % 4 = 0 ∧ padLength bs ≤ 2 := by
  induction bs using sextets.induct with
  | case1 => simp [sextets, padLength]
  | case2 a => simp [sextets, padLength]
  | case3 a b => simp [sextets, padLength]
  | case4 a b c rest ih =>
    have hpad : padLength (a :: b :: c :: rest) = padLength rest := by
      simp only [padLength, List.length_cons]
      omega
    rw [hpad, sextets]
    simp only [List.length_cons]
    omega

/-! ### The alphabet -/

/-- The character of a sextet: upper case, lower case, digits, `-` and `_`. -/
def symbol (x : Nat) : Char :=
  if x < 26 then Char.ofNat (65 + x)
  else if x < 52 then Char.ofNat (97 + (x - 26))
  else if x < 62 then Char.ofNat (48 + (x - 52))
  else if x = 62 then '-'
  else '_'

/-- The encoding without pad characters. -/
def encodeUrlSafe (bs : List UInt8) : String := String.ofList ((sextets bs).map symbol)

def padding (bs : List UInt8) : String := String.ofList (List.replicate (padLength bs) '=')

example : encodeUrlSafe [77, 97, 110, 255] = "TWFu_w" ∧ padding [77, 97, 110, 255] = "==" := by
  decide

end Temper.Base64
