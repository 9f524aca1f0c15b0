import Mathlib

/-!
# Lists of values under keys

A map from keys to lists that is filled one value at a time. A missing key stands for the empty
list.
-/

namespace Multimap

variable {κ β : Type*} {cmp : κ → κ → Ordering} [Std.TransCmp cmp] [Std.LawfulEqCmp cmp]
  [DecidableEq κ]

abbrev Map (κ β : Type*) (cmp : κ → κ → Ordering) := Std.ExtTreeMap κ (List β) cmp

omit [Std.LawfulEqCmp cmp] [DecidableEq κ] in
/-- A value pushed to the list under a key. -/
def pushUnder (m : Map κ β cmp) (key : κ) (value : β) : Map κ β cmp :=
  m.insert key (m[key]?.getD [] ++ [value])

lemma getD_pushUnder (m : Map κ β cmp) (key k : κ) (value : β) :
    (pushUnder m key value)[k]?.getD [] = m[k]?.getD [] ++ if key = k then [value] else [] := by
  unfold pushUnder
  rw [Std.ExtTreeMap.getElem?_insert]
  by_cases hkey : key = k
  · subst hkey
    simp
  · have hcmp : cmp key k ≠ .eq := fun h => hkey (Std.LawfulEqCmp.eq_of_compare h)
    simp [hkey, hcmp]

/-- What lies under a key after a number of pushes. -/
lemma getD_foldl_pushUnder (entries : List (κ × β)) (m : Map κ β cmp) (k : κ) :
    (entries.foldl (fun m entry => pushUnder m entry.1 entry.2) m)[k]?.getD [] =
      m[k]?.getD [] ++ (entries.filter (·.1 = k)).map (·.2) := by
  induction entries generalizing m with
  | nil => simp
  | cons entry entries ih =>
    rw [List.foldl_cons, ih, getD_pushUnder, List.append_assoc]
    by_cases hkey : entry.1 = k <;> simp [hkey]

lemma mem_foldl_pushUnder_iff (entries : List (κ × β)) (k : κ) (x : β) :
    x ∈ (entries.foldl (fun m entry => pushUnder m entry.1 entry.2) (∅ : Map κ β cmp))[k]?.getD []
      ↔ (k, x) ∈ entries := by
  rw [getD_foldl_pushUnder]
  simp

omit [DecidableEq κ] in
/-- The values under all keys. -/
lemma mem_flatMap_toList_iff (m : Map κ β cmp) (x : β) :
    x ∈ m.toList.flatMap (·.2) ↔ ∃ k : κ, x ∈ m[k]?.getD [] := by
  simp only [List.mem_flatMap, Prod.exists, Std.ExtTreeMap.mem_toList_iff_getElem?_eq_some]
  constructor
  · rintro ⟨k, values, hget, hx⟩
    exact ⟨k, by rwa [hget, Option.getD_some]⟩
  · rintro ⟨k, hx⟩
    cases hget : m[k]? with
    | none => simp [hget] at hx
    | some values => exact ⟨k, values, hget, by simpa [hget] using hx⟩

end Multimap
