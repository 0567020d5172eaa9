import Mathlib.Data.List.Basic

/-! # Loops over a tape of answers

A loop that asks the outside world again and again, until one answer ends it, is
played against the list of answers it would get. Each round either stops with a
result or goes on in another state; a tape that ends first leaves the loop
waiting. Nothing here mentions a particular loop.
-/

namespace Gcit.Library.Tape

universe u v w

variable {σ : Type u} {α : Type v} {β : Type w} {round : σ → α → β ⊕ σ} {s t : σ}

def play (round : σ → α → β ⊕ σ) : σ → List α → Option β
  | _, [] => none
  | s, a :: as => match round s a with
    | .inl b => some b
    | .inr t => play round t as

/-- The state after the answers, if none of them ends the loop. -/
def goesOn (round : σ → α → β ⊕ σ) : σ → List α → Option σ
  | s, [] => some s
  | s, a :: as => match round s a with
    | .inl _ => none
    | .inr t => goesOn round t as

/-- The answers the loop takes, up to the one that ends it. -/
def played (round : σ → α → β ⊕ σ) : σ → List α → List α
  | _, [] => []
  | s, a :: as => a :: match round s a with
    | .inl _ => []
    | .inr t => played round t as

/-- The rounds of the loop: the answers it takes, each with the state it comes in. -/
def rounds (round : σ → α → β ⊕ σ) : σ → List α → List (σ × α)
  | _, [] => []
  | s, a :: as => (s, a) :: match round s a with
    | .inl _ => []
    | .inr t => rounds round t as

theorem play_nil (s : σ) : play round s [] = none := rfl

theorem play_cons (s : σ) (a : α) (as : List α) : play round s (a :: as) =
    (round s a).elim some fun t => play round t as := by
  rw [play]
  cases round s a <;> rfl

theorem goesOn_nil (s : σ) : goesOn round s [] = some s := rfl

theorem goesOn_cons (s : σ) (a : α) (as : List α) : goesOn round s (a :: as) =
    (round s a).elim (fun _ => none) fun t => goesOn round t as := by
  rw [goesOn]
  cases round s a <;> rfl

theorem played_cons (s : σ) (a : α) (as : List α) : played round s (a :: as) =
    a :: (round s a).elim (fun _ => []) fun t => played round t as := by
  rw [played]
  cases round s a <;> rfl

theorem rounds_cons (s : σ) (a : α) (as : List α) : rounds round s (a :: as) =
    (s, a) :: (round s a).elim (fun _ => []) fun t => rounds round t as := by
  rw [rounds]
  cases round s a <;> rfl

theorem goesOn_cons_eq_some {a : α} {as : List α} :
    goesOn round s (a :: as) = some t ↔ ∃ m, round s a = .inr m ∧ goesOn round m as = some t := by
  cases h : round s a <;> simp [goesOn_cons, h]

theorem goesOn_invariant {I : σ → Prop} (hround : ∀ s a t, I s → round s a = .inr t → I t)
    {as : List α} (hs : I s) (h : goesOn round s as = some t) : I t := by
  induction as generalizing s with
  | nil =>
    obtain rfl := Option.some.inj h
    exact hs
  | cons a as ih =>
    obtain ⟨m, hm, hrest⟩ := goesOn_cons_eq_some.1 h
    exact ih (hround s a m hs hm) hrest

theorem play_eq_some {as : List α} {b : β} :
    play round s as = some b ↔
      ∃ pre a post t, as = pre ++ a :: post ∧ goesOn round s pre = some t ∧ round t a = .inl b := by
  induction as generalizing s with
  | nil => simp [play_nil]
  | cons a as ih =>
    constructor
    · intro h
      cases hround : round s a with
      | inl c =>
        obtain rfl : c = b := by simpa [play_cons, hround] using h
        exact ⟨[], a, as, s, rfl, rfl, hround⟩
      | inr m =>
        have hrest : play round m as = some b := by simpa [play_cons, hround] using h
        obtain ⟨pre, c, post, t, rfl, hpre, hstop⟩ := ih.mp hrest
        exact ⟨a :: pre, c, post, t, rfl, goesOn_cons_eq_some.2 ⟨m, hround, hpre⟩, hstop⟩
    · rintro ⟨pre, c, post, t, has, hpre, hstop⟩
      cases pre with
      | nil =>
        obtain ⟨rfl, rfl⟩ := List.cons.inj has
        obtain rfl := Option.some.inj hpre
        simp [play_cons, hstop]
      | cons p pre =>
        obtain ⟨rfl, rfl⟩ := List.cons.inj has
        obtain ⟨m, hround, hpre⟩ := goesOn_cons_eq_some.1 hpre
        have hrest := ih.mpr ⟨pre, c, post, t, rfl, hpre, hstop⟩
        simpa [play_cons, hround] using hrest

theorem play_eq_none {as : List α} : play round s as = none ↔ ∃ t, goesOn round s as = some t := by
  induction as generalizing s with
  | nil => simp [play_nil, goesOn_nil]
  | cons a as ih =>
    cases hround : round s a with
    | inl b => simp [play_cons, goesOn_cons, hround]
    | inr m => simpa [play_cons, goesOn_cons, hround] using ih

theorem map_snd_rounds (round : σ → α → β ⊕ σ) (s : σ) (as : List α) :
    (rounds round s as).map Prod.snd = played round s as := by
  induction as generalizing s with
  | nil => rfl
  | cons a as ih =>
    simp only [rounds_cons, played_cons, List.map_cons, List.cons.injEq, true_and]
    cases round s a with
    | inl b => rfl
    | inr t => exact ih t

/-- A round comes in the state that the rounds before it lead to, and only a round
that goes on has others behind it. -/
theorem rounds_split {as : List α} {a : α} {pre post : List (σ × α)}
    (h : rounds round s as = pre ++ (t, a) :: post) :
    goesOn round s (pre.map Prod.snd) = some t ∧ (post ≠ [] → ∃ m, round t a = .inr m) := by
  induction pre generalizing s as with
  | nil =>
    cases as with
    | nil => cases h
    | cons b as =>
      obtain ⟨hhead, hpost⟩ := List.cons.inj h
      obtain ⟨rfl, rfl⟩ := Prod.mk.inj hhead
      refine ⟨rfl, fun hne => ?_⟩
      cases hround : round s b with
      | inl r => exact absurd (by simp [← hpost, hround]) hne
      | inr m => exact ⟨m, rfl⟩
  | cons p pre ih =>
    cases as with
    | nil => cases h
    | cons b as =>
      obtain ⟨rfl, hrest⟩ := List.cons.inj h
      cases hround : round s b with
      | inl r => simp [hround] at hrest
      | inr m =>
        rw [hround] at hrest
        obtain ⟨hpre, hpost⟩ := ih hrest
        exact ⟨goesOn_cons_eq_some.2 ⟨m, hround, hpre⟩, hpost⟩

theorem goesOn_map {γ : Type*} (f : γ → α) (s : σ) (cs : List γ) :
    goesOn (fun s c => round s (f c)) s cs = goesOn round s (cs.map f) := by
  induction cs generalizing s with
  | nil => rfl
  | cons c cs ih =>
    simp only [goesOn_cons, List.map_cons]
    cases round s (f c) with
    | inl b => rfl
    | inr t => exact ih t

theorem played_append_of_some {pre : List α} (post : List α) (h : goesOn round s pre = some t) :
    played round s (pre ++ post) = pre ++ played round t post := by
  induction pre generalizing s with
  | nil =>
    obtain rfl := Option.some.inj h
    rfl
  | cons a pre ih =>
    obtain ⟨m, hround, hpre⟩ := goesOn_cons_eq_some.1 h
    simp only [List.cons_append, played_cons, hround, Sum.elim_inr, ih hpre]

theorem played_prefix_tape (round : σ → α → β ⊕ σ) (s : σ) (as : List α) :
    played round s as <+: as := by
  induction as generalizing s with
  | nil => exact List.nil_prefix
  | cons a as ih =>
    cases hround : round s a with
    | inl b => simp [played_cons, hround]
    | inr m =>
      simp only [played_cons, hround]
      exact (List.prefix_cons_inj a).mpr (ih m)

/-- An answer with another one taken behind it did not end the loop. -/
theorem goesOn_of_played {as pre post : List α} {a b : α}
    (h : played round s as = pre ++ a :: b :: post) :
    ∃ t m, goesOn round s pre = some t ∧ round t a = .inr m := by
  induction pre generalizing s as with
  | nil =>
    cases as with
    | nil => cases h
    | cons c as =>
      obtain ⟨rfl, hrest⟩ := List.cons.inj h
      cases hround : round s c with
      | inl r => simp [hround] at hrest
      | inr m => exact ⟨s, m, rfl, hround⟩
  | cons p pre ih =>
    cases as with
    | nil => cases h
    | cons c as =>
      obtain ⟨rfl, hrest⟩ := List.cons.inj h
      cases hround : round s c with
      | inl r => simp [hround] at hrest
      | inr m =>
        rw [hround] at hrest
        obtain ⟨t, n, ht, hn⟩ := ih hrest
        exact ⟨t, n, goesOn_cons_eq_some.2 ⟨m, hround, ht⟩, hn⟩

/-- The answer that ends the loop is the last one taken. -/
theorem played_of_play {as : List α} {b : β} (h : play round s as = some b) :
    ∃ pre a t, played round s as = pre ++ [a] ∧ goesOn round s pre = some t ∧ round t a = .inl b := by
  obtain ⟨pre, a, post, t, rfl, hpre, hstop⟩ := play_eq_some.1 h
  refine ⟨pre, a, t, ?_, hpre, hstop⟩
  rw [played_append_of_some _ hpre]
  simp [played_cons, hstop]

theorem played_map {γ : Type*} (f : γ → α) (s : σ) (cs : List γ) :
    (played (fun s c => round s (f c)) s cs).map f = played round s (cs.map f) := by
  induction cs generalizing s with
  | nil => rfl
  | cons c cs ih =>
    simp only [played_cons, List.map_cons, List.cons.injEq, true_and]
    cases round s (f c) with
    | inl b => rfl
    | inr t => exact ih t

end Gcit.Library.Tape
