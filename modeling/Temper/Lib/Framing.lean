import Mathlib

/-!
# Framed bytes

Parts of a text of bytes that are written with their lengths before them are determined by it, and
so are codes that end where they say.
-/

namespace Framing

abbrev Bytes := List UInt8

/-! ### Numbers -/

/-- The `width` bytes of a number, the highest first. -/
def beBytes : Nat → Nat → Bytes
  | 0, _ => []
  | width + 1, n => UInt8.ofNat (n / 256 ^ width) :: beBytes width n

@[simp] lemma length_beBytes (width n : Nat) : (beBytes width n).length = width := by
  induction width with
  | zero => rfl
  | succ width ih => simp [beBytes, ih]

/-- The number that the bytes stand for. -/
def ofBytes (bytes : Bytes) : Nat := bytes.foldl (fun n b => 256 * n + b.toNat) 0

private lemma foldl_beBytes (width n k : Nat) :
    (beBytes width n).foldl (fun n b => 256 * n + b.toNat) k =
      256 ^ width * k + n % 256 ^ width := by
  induction width generalizing k with
  | zero => simp [beBytes, Nat.mod_one]
  | succ width ih =>
    have hsplit : n % 256 ^ (width + 1) = n % 256 ^ width + 256 ^ width * (n / 256 ^ width % 256) :=
      Nat.mod_pow_succ
    simp only [beBytes, List.foldl_cons, ih, UInt8.toNat_ofNat', hsplit]
    ring

lemma ofBytes_beBytes {width n : Nat} (h : n < 256 ^ width) : ofBytes (beBytes width n) = n := by
  simp [ofBytes, foldl_beBytes, Nat.mod_eq_of_lt h]

lemma beBytes_inj {width n m : Nat} (hn : n < 256 ^ width) (hm : m < 256 ^ width) :
    beBytes width n = beBytes width m ↔ n = m := by
  constructor
  · intro h
    rw [← ofBytes_beBytes hn, h, ofBytes_beBytes hm]
  · rintro rfl
    rfl

/-! ### Frames -/

/-- Bytes with their length in eight bytes before them. -/
def sized (bytes : Bytes) : Bytes := beBytes 8 bytes.length ++ bytes

lemma sized_append_inj {xs ys r r' : Bytes} (hx : xs.length < 256 ^ 8) (hy : ys.length < 256 ^ 8)
    (h : sized xs ++ r = sized ys ++ r') : xs = ys ∧ r = r' := by
  simp only [sized, List.append_assoc] at h
  obtain ⟨hlength, hrest⟩ := List.append_inj h (by simp)
  exact List.append_inj hrest ((beBytes_inj hx hy).mp hlength)

/-- Sized parts one after the other are determined by their bytes. -/
theorem flatMap_sized_inj {xs ys : List Bytes} (hx : ∀ x ∈ xs, x.length < 256 ^ 8)
    (hy : ∀ y ∈ ys, y.length < 256 ^ 8) (h : xs.flatMap sized = ys.flatMap sized) : xs = ys := by
  have hne : ∀ z (zs : List Bytes), (z :: zs).flatMap sized ≠ [] := by
    intro z zs
    apply List.ne_nil_of_length_pos
    simp [sized]
  induction xs generalizing ys with
  | nil =>
    cases ys with
    | nil => rfl
    | cons y ys => exact absurd h.symm (hne y ys)
  | cons x xs ih =>
    cases ys with
    | nil => exact absurd h (hne x xs)
    | cons y ys =>
      obtain ⟨rfl, hrest⟩ := sized_append_inj (hx x (by simp)) (hy y (by simp))
        (by simpa using h)
      rw [ih (fun z hz => hx z (by simp [hz])) (fun z hz => hy z (by simp [hz])) hrest]

/-- As many codes one after the other, each of which ends where it says, are read off in turn. -/
theorem flatMap_append_inj {α : Type} {code : α → Bytes} {same : α → α → Prop} {xs ys : List α}
    (hlength : xs.length = ys.length)
    (hcode : ∀ x ∈ xs, ∀ y ∈ ys, ∀ r r', code x ++ r = code y ++ r' → same x y ∧ r = r')
    {r r' : Bytes} (h : xs.flatMap code ++ r = ys.flatMap code ++ r') :
    List.Forall₂ same xs ys ∧ r = r' := by
  induction xs generalizing ys with
  | nil =>
    obtain rfl := List.eq_nil_of_length_eq_zero hlength.symm
    exact ⟨.nil, by simpa using h⟩
  | cons x xs ih =>
    cases ys with
    | nil => simp at hlength
    | cons y ys =>
      rw [List.flatMap_cons, List.flatMap_cons, List.append_assoc, List.append_assoc] at h
      obtain ⟨hsame, hrest⟩ := hcode x (by simp) y (by simp) _ _ h
      obtain ⟨hall, hr⟩ := ih (by simpa using hlength)
        (fun a ha b hb => hcode a (by simp [ha]) b (by simp [hb])) hrest
      exact ⟨.cons hsame hall, hr⟩

end Framing
