import Mathlib
import Temper.Lib.Framing

/-!
# Texts and digests as bytes

A text is hashed as its UTF-8 bytes, and a digest is written in hexadecimal. Both are read back.
-/

namespace Temper.Spec.Bundle

open Framing

def utf8 (s : String) : Bytes := s.toByteArray.data.toList

@[simp] lemma length_utf8 (s : String) : (utf8 s).length = s.utf8ByteSize := by simp [utf8]

lemma utf8_inj {s t : String} : utf8 s = utf8 t ↔ s = t := by
  constructor
  · intro h
    have hdata : s.toByteArray.data = t.toByteArray.data := Array.toList_inj.mp h
    exact String.toByteArray_inj.mp (ByteArray.ext hdata)
  · rintro rfl
    rfl

/-- The two hexadecimal digits of a byte. -/
def hexByte (b : UInt8) : List Char := [(b.toNat / 16).digitChar, (b.toNat % 16).digitChar]

/-- Bytes as `{:x}` writes them. -/
def hex (bytes : Bytes) : String := String.ofList (bytes.flatMap hexByte)

private lemma digitChar_inj : ∀ a < 16, ∀ b < 16, Nat.digitChar a = Nat.digitChar b → a = b := by
  decide

lemma hexByte_append_inj {a b : UInt8} {r r' : List Char}
    (h : hexByte a ++ r = hexByte b ++ r') : a = b ∧ r = r' := by
  have ha := a.toNat_lt
  have hb := b.toNat_lt
  simp only [hexByte, List.cons_append, List.nil_append, List.cons.injEq] at h
  have hhigh := digitChar_inj _ (by omega) _ (by omega) h.1
  have hlow := digitChar_inj _ (by omega) _ (by omega) h.2.1
  exact ⟨UInt8.toNat_inj.mp (by omega), h.2.2⟩

lemma hex_inj {xs ys : Bytes} (h : hex xs = hex ys) : xs = ys := by
  have hchars : xs.flatMap hexByte = ys.flatMap hexByte := by
    simpa [hex] using congrArg String.toList h
  clear h
  induction xs generalizing ys with
  | nil =>
    cases ys with
    | nil => rfl
    | cons y ys => simp [hexByte] at hchars
  | cons x xs ih =>
    cases ys with
    | nil => simp [hexByte] at hchars
    | cons y ys =>
      obtain ⟨rfl, hrest⟩ := hexByte_append_inj hchars
      rw [ih hrest]

end Temper.Spec.Bundle
