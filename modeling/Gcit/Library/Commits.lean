import Mathlib.Data.List.Basic

/-! # Transactions cut short

An operation that stops at its first failure has done a prefix of its effects. In a
transaction one effect counts: those before it change nothing, and those after it
change nothing of what it made. A sequence of transactions that is cut short has then
done the commits among the effects that came to pass, and nothing else.
-/

namespace Gcit.Library.Commits

universe u v

variable {ε : Type u} {σ : Type v}

structure Transaction (ε : Type u) where
  before : List ε
  commit : ε
  after : List ε

def Transaction.effects (t : Transaction ε) : List ε := t.before ++ t.commit :: t.after

variable (apply : σ → ε → σ) (commits : ε → Bool)

def played (n : Nat) (effects : List ε) (s : σ) : σ := (effects.take n).foldl apply s

structure Transaction.Sound (t : Transaction ε) : Prop where
  before : ∀ e ∈ t.before, commits e = false ∧ ∀ s, apply s e = s
  commit : commits t.commit = true
  after : ∀ e ∈ t.after, commits e = false ∧ ∀ s, apply (apply s t.commit) e = apply s t.commit

variable {apply commits}

theorem foldl_of_fixed {s : σ} {effects : List ε} (h : ∀ e ∈ effects, apply s e = s) :
    effects.foldl apply s = s := by
  induction effects with
  | nil => rfl
  | cons e effects ih =>
    rw [List.foldl_cons, h e List.mem_cons_self]
    exact ih fun e he => h e (List.mem_cons_of_mem _ he)

theorem countP_take_eq_zero {effects : List ε} (h : ∀ e ∈ effects, commits e = false) (n : Nat) :
    (effects.take n).countP commits = 0 :=
  List.countP_eq_zero.mpr fun e he => by simp [h e (List.mem_of_mem_take he)]

/-- A prefix of a transaction and what follows it: either the commit is not in it, and
nothing counts, or it is the commit and a prefix of the rest. -/
theorem played_effects_append {t : Transaction ε} (ht : t.Sound apply commits) (rest : List ε)
    (n : Nat) (s : σ) :
    (played apply n (t.effects ++ rest) s = s ∧
      ((t.effects ++ rest).take n).countP commits = 0) ∨
    ∃ m, played apply n (t.effects ++ rest) s = played apply m rest (apply s t.commit) ∧
      ((t.effects ++ rest).take n).countP commits = (rest.take m).countP commits + 1 := by
  have heffects : t.effects ++ rest = t.before ++ t.commit :: (t.after ++ rest) := by
    simp [Transaction.effects]
  have hbefore (s : σ) : t.before.foldl apply s = s :=
    foldl_of_fixed fun e he => (ht.before e he).2 s
  rw [heffects, played]
  by_cases hn : n ≤ t.before.length
  · left
    rw [List.take_append_of_le_length hn]
    refine ⟨foldl_of_fixed fun e he => ?_, countP_take_eq_zero (fun e he => (ht.before e he).1) n⟩
    exact (ht.before e (List.mem_of_mem_take he)).2 s
  · right
    obtain ⟨k, rfl⟩ : ∃ k, n = t.before.length + (k + 1) := ⟨n - t.before.length - 1, by omega⟩
    have hafter : (t.after.take k).foldl apply (apply s t.commit) = apply s t.commit :=
      foldl_of_fixed fun e he => (ht.after e (List.mem_of_mem_take he)).2 s
    have hcount : t.before.countP commits = 0 := by
      simpa using countP_take_eq_zero (fun e he => (ht.before e he).1) t.before.length
    refine ⟨k - t.after.length, ?_, ?_⟩
    · rw [List.take_length_add_append, List.take_succ_cons, List.take_append, List.foldl_append,
        hbefore, List.foldl_cons, List.foldl_append, hafter]
      rfl
    · rw [List.take_length_add_append, List.take_succ_cons, List.take_append, List.countP_append,
        List.countP_cons, List.countP_append, hcount, ht.commit,
        countP_take_eq_zero fun e he => (ht.after e he).1]
      simp

/-- Transactions cut short have done as many commits as there are among the effects that
came to pass. -/
theorem played_transactions {ts : List (Transaction ε)} (h : ∀ t ∈ ts, t.Sound apply commits)
    (n : Nat) (s : σ) :
    played apply n (ts.flatMap Transaction.effects) s =
      (ts.take (((ts.flatMap Transaction.effects).take n).countP commits)).foldl
        (fun s t => apply s t.commit) s := by
  induction ts generalizing n s with
  | nil => simp [played]
  | cons t ts ih =>
    have hrest := ih fun t ht => h t (List.mem_cons_of_mem _ ht)
    rw [List.flatMap_cons]
    obtain ⟨hplayed, hcount⟩ | ⟨m, hplayed, hcount⟩ :=
      played_effects_append (h t List.mem_cons_self) (ts.flatMap Transaction.effects) n s
    · rw [hplayed, hcount]
      rfl
    · rw [hplayed, hcount, hrest, List.take_succ_cons, List.foldl_cons]

section Attempt

variable (apply) (fails : ε → Bool)

/-- The effects one after the other up to the first that fails. -/
def attempt : List ε → σ → Option ε × σ
  | [], s => (none, s)
  | e :: rest, s => if fails e then (some e, s) else attempt rest (apply s e)

variable {apply fails}

theorem attempt_cons (e : ε) (rest : List ε) (s : σ) : attempt apply fails (e :: rest) s =
    if fails e then (some e, s) else attempt apply fails rest (apply s e) :=
  rfl

theorem attempt_fst (effects : List ε) (s : σ) :
    (attempt apply fails effects s).1 = effects.find? fails := by
  induction effects generalizing s with
  | nil => rfl
  | cons e rest ih =>
    rw [attempt_cons, List.find?_cons]
    cases fails e with
    | true => rfl
    | false => exact ih (apply s e)

theorem attempt_append {first : List ε} (h : ∀ e ∈ first, fails e = false) (rest : List ε) (s : σ) :
    attempt apply fails (first ++ rest) s = attempt apply fails rest (first.foldl apply s) := by
  induction first generalizing s with
  | nil => rfl
  | cons e first ih =>
    rw [List.cons_append, attempt_cons, h e List.mem_cons_self]
    exact ih (fun e he => h e (List.mem_cons_of_mem _ he)) (apply s e)

theorem attempt_append_of_failing {first : List ε} (h : ∃ e ∈ first, fails e = true) (rest : List ε)
    (s : σ) : attempt apply fails (first ++ rest) s = attempt apply fails first s := by
  induction first generalizing s with
  | nil => obtain ⟨e, he, -⟩ := h; cases he
  | cons e first ih =>
    rw [List.cons_append, attempt_cons, attempt_cons]
    cases hfails : fails e with
    | true => rfl
    | false =>
      refine ih ?_ (apply s e)
      obtain ⟨e', he', hfails'⟩ := h
      obtain rfl | he' := List.mem_cons.mp he'
      · rw [hfails] at hfails'
        cases hfails'
      · exact ⟨e', he', hfails'⟩

theorem attempt_invariant {I : σ → Prop} {effects : List ε} (hstep : ∀ e ∈ effects, ∀ s, I s →
    I (apply s e)) {s : σ} (h : I s) : I (attempt apply fails effects s).2 := by
  induction effects generalizing s with
  | nil => exact h
  | cons e rest ih =>
    rw [attempt_cons]
    cases fails e with
    | true => exact h
    | false =>
      exact ih (fun e he => hstep e (List.mem_cons_of_mem _ he)) (hstep e List.mem_cons_self s h)

end Attempt

end Gcit.Library.Commits
