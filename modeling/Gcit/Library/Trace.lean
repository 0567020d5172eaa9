import Mathlib.Data.List.DropRight
import Mathlib.Data.List.Induction

/-! # Positions in a finite history

`splits` lists every entry of a history together with what came before it and
what came after it, so that "not followed by" and "the last one that" can be
said without indices. All laws are stated for a history that grows at its end.
-/

namespace Gcit.Library.Trace

universe u v

variable {α : Type u} {β : Type v}

def splits : List α → List (List α × α × List α)
  | [] => []
  | a :: l => ([], a, l) :: (splits l).map fun x => (a :: x.1, x.2.1, x.2.2)

theorem mem_splits {l p q : List α} {a : α} : (p, a, q) ∈ splits l ↔ l = p ++ a :: q := by
  induction l generalizing p with
  | nil => simp [splits]
  | cons b l ih =>
    cases p with
    | nil => simp [splits, eq_comm]
    | cons c p =>
      simp only [splits, List.mem_cons, List.mem_map, Prod.mk.injEq, reduceCtorEq, false_and,
        false_or, List.cons.injEq, Prod.exists, List.cons_append]
      constructor
      · rintro ⟨p', a', q', h, ⟨rfl, rfl⟩, rfl, rfl⟩
        exact ⟨rfl, ih.mp h⟩
      · rintro ⟨rfl, h⟩
        exact ⟨p, a, q, ih.mpr h, ⟨rfl, rfl⟩, rfl, rfl⟩

theorem splits_concat (l : List α) (a : α) :
    splits (l ++ [a]) = (splits l).map (fun x => (x.1, x.2.1, x.2.2 ++ [a])) ++ [(l, a, [])] := by
  induction l with
  | nil => rfl
  | cons b l ih => simp [splits, ih, Function.comp_def]

/-- An entry of a grown history is the new one, or an entry of the history. -/
theorem concat_eq_append_cons {l p q : List α} {a b : α} (h : l ++ [a] = p ++ b :: q) :
    (l = p ∧ a = b) ∨ ∃ q', l = p ++ b :: q' := by
  have hmem := mem_splits.mpr h
  rw [splits_concat, List.mem_append, List.mem_map, List.mem_singleton] at hmem
  rcases hmem with ⟨⟨p', b', q'⟩, hsplit, heq⟩ | heq
  · obtain ⟨rfl, rfl, -⟩ : p' = p ∧ b' = b ∧ q' ++ [a] = q := by simpa using heq
    exact .inr ⟨q', mem_splits.mp hsplit⟩
  · obtain ⟨rfl, rfl, -⟩ : p = l ∧ b = a ∧ q = [] := by simpa using heq
    exact .inl ⟨rfl, rfl⟩

/-- The value set by the last entry that sets one. -/
def latest (f : α → Option β) (l : List α) : Option β := l.reverse.findSome? f

theorem latest_concat (f : α → Option β) (l : List α) (a : α) :
    latest f (l ++ [a]) = (f a).or (latest f l) := by
  rw [latest, List.reverse_concat, List.findSome?_cons]
  cases f a with
  | none => rfl
  | some b => rfl

theorem latest_eq_some {f : α → Option β} {l : List α} {b : β} :
    latest f l = some b ↔ ∃ before a after, l = before ++ a :: after ∧ f a = some b ∧
      ∀ x ∈ after, f x = none := by
  induction l using List.reverseRecOn with
  | nil => simp [latest]
  | append_singleton l a ih =>
    rw [latest_concat, Option.or_eq_some_iff, ih]
    constructor
    · rintro (ha | ⟨hnone, before, c, after, rfl, hc, hafter⟩)
      · exact ⟨l, a, [], rfl, ha, List.forall_mem_nil _⟩
      · refine ⟨before, c, after ++ [a], by simp, hc, fun x hx => ?_⟩
        rcases List.mem_append.mp hx with hx | hx
        · exact hafter x hx
        · exact List.mem_singleton.mp hx ▸ hnone
    · rintro ⟨before, c, after, heq, hc, hafter⟩
      rcases List.eq_nil_or_concat after with rfl | ⟨after, d, rfl⟩
      · obtain ⟨rfl, hcons⟩ := List.append_inj' heq rfl
        obtain ⟨rfl, -⟩ := List.cons.inj hcons
        exact .inl hc
      · rw [List.concat_eq_append] at heq hafter
        rw [← List.cons_append, ← List.append_assoc] at heq
        obtain ⟨rfl, hcons⟩ := List.append_inj' heq rfl
        obtain ⟨rfl, -⟩ := List.cons.inj hcons
        refine .inr ⟨hafter _ (by simp), before, c, after, rfl, hc, fun x hx => ?_⟩
        exact hafter x (List.mem_append_left _ hx)

theorem rtake_rtake_concat (l : List α) (a : α) (n : Nat) :
    (l.rtake n ++ [a]).rtake n = (l ++ [a]).rtake n := by
  cases n with
  | zero => simp
  | succ n =>
    rw [List.rtake_concat_succ, List.rtake_concat_succ, List.rtake_eq_reverse_take_reverse,
      List.rtake_eq_reverse_take_reverse, List.rtake_eq_reverse_take_reverse, List.reverse_reverse,
      List.take_take, Nat.min_eq_left (Nat.le_succ n)]

theorem eraseP_eq_filter {κ : Type v} [BEq κ] [LawfulBEq κ] (key : α → κ) (k : κ) {l : List α}
    (h : (l.map key).Nodup) : l.eraseP (fun a => key a == k) = l.filter (fun a => key a != k) := by
  induction l with
  | nil => rfl
  | cons a l ih =>
    obtain ⟨ha, hl⟩ := List.nodup_cons.mp h
    by_cases hk : key a = k
    · rw [List.eraseP_cons_of_pos (by simpa using hk), List.filter_cons_of_neg (by simpa using hk)]
      refine (List.filter_eq_self.mpr fun b hb => ?_).symm
      have hne : key b ≠ k := fun hbk => ha (hk.trans hbk.symm ▸ List.mem_map_of_mem hb)
      simpa using hne
    · rw [List.eraseP_cons_of_neg (by simpa using hk), List.filter_cons_of_pos (by simpa using hk),
        ih hl]

end Gcit.Library.Trace
