import Std.Data.ExtTreeMap
import Std.Data.ExtTreeSet
import Mathlib.Order.Defs.LinearOrder

/-! # Lookups in ordered maps

The ordered maps of the standard library state their lookup laws through
`compare`. Over a key type whose comparison decides equality the same laws are
wanted with `=`, which is how every proof about a keyed registry uses them.
-/

namespace Gcit.Library.OrderedMap

open Std

universe u v

variable {κ : Type u} {β : Type v} [Ord κ] [TransOrd κ] [LawfulEqOrd κ] [DecidableEq κ]

theorem lookup_insert (m : ExtTreeMap κ β) (k a : κ) (v : β) :
    (m.insert k v)[a]? = if k = a then some v else m[a]? := by
  simp only [ExtTreeMap.getElem?_insert, Std.compare_eq_iff_eq]

theorem lookup_erase (m : ExtTreeMap κ β) (k a : κ) :
    (m.erase k)[a]? = if k = a then none else m[a]? := by
  simp only [ExtTreeMap.getElem?_erase, Std.compare_eq_iff_eq]

omit [DecidableEq κ] in
theorem nodup_toList (s : ExtTreeSet κ) : s.toList.Nodup := by
  apply (ExtTreeSet.distinct_toList (t := s)).imp
  rintro k _ hne rfl
  exact hne compare_self

/-- `entry(k).or_default().push(x)`. -/
def pushAt {α : Type v} (m : ExtTreeMap κ (List α)) (k : κ) (x : α) : ExtTreeMap κ (List α) :=
  m.insert k (m[k]?.getD [] ++ [x])

theorem getD_pushAt {α : Type v} (m : ExtTreeMap κ (List α)) (k a : κ) (x : α) :
    (pushAt m k x)[a]?.getD [] = m[a]?.getD [] ++ if k = a then [x] else [] := by
  rw [pushAt, lookup_insert]
  split
  case isTrue h => rw [h, Option.getD_some]
  case isFalse => rw [List.append_nil]

omit [DecidableEq κ] in
/-- What holds of the empty list holds of every list filed in a map exactly if it holds of
the list under every key. -/
theorem forall_toList_iff {α : Type v} {m : ExtTreeMap κ (List α)} {p : κ → List α → Prop}
    (hnil : ∀ k, p k []) : (∀ e ∈ m.toList, p e.1 e.2) ↔ ∀ k, p k (m[k]?.getD []) := by
  constructor
  · intro h k
    cases hk : m[k]? with
    | none => exact hnil k
    | some xs => exact h (k, xs) (ExtTreeMap.mem_toList_iff_getElem?_eq_some.mpr hk)
  · rintro h ⟨k, xs⟩ hmem
    have hk := h k
    rwa [ExtTreeMap.mem_toList_iff_getElem?_eq_some.mp hmem] at hk

end Gcit.Library.OrderedMap
