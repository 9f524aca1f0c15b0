import Mathlib

/-!
# Maps by key

What is found in a map after an insertion or a removal, and totals over its entries.
-/

namespace Keyed

variable {κ β : Type} [Ord κ] [Std.TransOrd κ] [Std.LawfulEqOrd κ]

abbrev Map (κ β : Type) [Ord κ] := Std.ExtTreeMap κ β compare

lemma getElem?_insert_eq (m : Map κ β) (k j : κ) (v : β) [DecidableEq κ] :
    (m.insert k v)[j]? = if k = j then some v else m[j]? := by
  rw [Std.ExtTreeMap.getElem?_insert]
  by_cases h : k = j
  · simp [h]
  · rw [if_neg h, if_neg]
    exact fun heq => h (Std.LawfulEqCmp.eq_of_compare heq)

lemma getElem?_erase_eq (m : Map κ β) (k j : κ) [DecidableEq κ] :
    (m.erase k)[j]? = if k = j then none else m[j]? := by
  rw [Std.ExtTreeMap.getElem?_erase]
  by_cases h : k = j
  · simp [h]
  · rw [if_neg h, if_neg]
    exact fun heq => h (Std.LawfulEqCmp.eq_of_compare heq)

/-- A total over the entries of a map, taken over its keys in any order. -/
lemma sum_toList {m : Map κ β} {ks : List κ} (hnodup : ks.Nodup) (hks : ∀ k, k ∈ ks ↔ k ∈ m)
    (size : β → Nat) :
    (m.toList.map fun e => size e.2).sum = (ks.map fun k => (m[k]?.map size).getD 0).sum := by
  have hperm : m.keys.Perm ks := by
    refine (List.perm_ext_iff_of_nodup Std.ExtTreeMap.nodup_keys hnodup).mpr fun k => ?_
    rw [Std.ExtTreeMap.mem_keys, hks]
  rw [← (hperm.map _).sum_eq, ← Std.ExtTreeMap.map_fst_toList_eq_keys, List.map_map]
  congr 1
  refine List.map_congr_left fun e he => ?_
  have hget : m[e.1]? = some e.2 := Std.ExtTreeMap.mem_toList_iff_getElem?_eq_some.mp he
  simp [hget]

end Keyed
