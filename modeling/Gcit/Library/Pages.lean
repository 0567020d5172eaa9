import Mathlib.Data.List.Basic

/-! # Walks along the links of pages

A list comes in pages, each with a link to the next one. A loop takes the items of a page
one after the other into its state, may stop at any of them, and follows the links as far
as a cap on the pages lets it. What the other side answers may depend on the number of the
request as well as on the link, so the links may lead anywhere, also back.
-/

namespace Gcit.Library.Pages

universe u

variable {ε α π ν σ : Type u}

/-- What a walk got for its requests, in order, and what it returns. -/
structure Walk (ε π σ : Type u) where
  answers : List (Except ε π)
  outcome : Except ε σ

def Walk.cons (answer : Except ε π) (w : Walk ε π σ) : Walk ε π σ :=
  { w with answers := answer :: w.answers }

def Walk.map {τ : Type u} (f : σ → τ) (w : Walk ε π σ) : Walk ε π τ :=
  ⟨w.answers, w.outcome.map f⟩

section Items

variable (step : σ → α → σ) (stop : σ → Bool)

def visit : σ → List α → σ
  | s, [] => s
  | s, x :: xs => let s := step s x; if stop s then s else visit s xs

variable {step stop} {s : σ} {xs ys : List α}

theorem visit_append (hs : stop s = false) :
    visit step stop s (xs ++ ys) =
      if stop (visit step stop s xs) then visit step stop s xs
      else visit step stop (visit step stop s xs) ys := by
  induction xs generalizing s with
  | nil => simp [visit, hs]
  | cons x xs ih =>
    simp only [List.cons_append, visit]
    by_cases hx : stop (step s x) = true
    · simp [hx]
    · have hx := Bool.eq_false_iff.mpr hx
      simpa [hx] using ih hx

theorem visit_never : visit step (fun _ => false) s xs = xs.foldl step s := by
  induction xs generalizing s with
  | nil => rfl
  | cons x xs ih => exact ih

/-- A loop that pushes every item and stops at a number of them. -/
theorem visit_push {β : Type u} {f : α → β} {limit : Nat} {out : List β}
    (hlimit : out.length < limit) :
    visit (fun out x => out ++ [f x]) (fun out => limit ≤ out.length) out xs =
      out ++ (xs.take (limit - out.length)).map f := by
  induction xs generalizing out with
  | nil => simp [visit]
  | cons x xs ih =>
    have hlength : (out ++ [f x]).length = out.length + 1 := by simp
    have hroom : limit - out.length = limit - (out.length + 1) + 1 := by omega
    simp only [visit, hlength, decide_eq_true_eq]
    rw [hroom, List.take_succ_cons, List.map_cons]
    split
    case isTrue hfull =>
      rw [Nat.sub_eq_zero_of_le hfull, List.take_zero, List.map_nil]
    case isFalse hmore =>
      rw [ih (hlength ▸ Nat.lt_of_not_le hmore), hlength, List.append_assoc]
      rfl

end Items

section Loop

variable (items : π → List α) (next : π → Option ν) (server : Nat → ν → Except ε π)
  (step : σ → α → σ) (stop : σ → Bool) (cap : Nat)

/-- The loop at its top, with `pages` behind it. -/
def follow (pages : Nat) (current : π) (s : σ) : Walk ε π σ :=
  let s := visit step stop s (items current)
  if stop s ∨ cap ≤ pages + 1 then ⟨[], .ok s⟩
  else match next current with
    | none => ⟨[], .ok s⟩
    | some uri => match server (pages + 1) uri with
      | .error e => ⟨[.error e], .error e⟩
      | .ok page => (follow (pages + 1) page s).cons (.ok page)
termination_by cap - pages

def walk (uri : ν) (s : σ) : Walk ε π σ :=
  match server 0 uri with
  | .error e => ⟨[.error e], .error e⟩
  | .ok page => (follow items next server step stop cap 0 page s).cons (.ok page)

end Loop

/-- The answers to the request of a link and to those of the links that it leads to. -/
inductive Linked (next : π → Option ν) (server : Nat → ν → Except ε π) :
    Nat → ν → List (Except ε π) → Prop where
  | last (number : Nat) (uri : ν) : Linked next server number uri [server number uri]
  | more {number : Nat} {uri uri' : ν} {page : π} {answers : List (Except ε π)}
      (hpage : server number uri = .ok page) (hnext : next page = some uri')
      (hrest : Linked next server (number + 1) uri' answers) :
      Linked next server number uri (.ok page :: answers)

section Spec

variable (items : π → List α) (next : π → Option ν) (server : Nat → ν → Except ε π)
  (step : σ → α → σ) (stop : σ → Bool) (cap : Nat)

/-- The ways on from the top of the loop, to its end. -/
inductive Follows : Nat → π → σ → Walk ε π σ → Prop where
  | ended {pages : Nat} {current : π} {s : σ}
      (hend : stop (visit step stop s (items current)) = true ∨ cap ≤ pages + 1 ∨
        next current = none) :
      Follows pages current s ⟨[], .ok (visit step stop s (items current))⟩
  | failed {pages : Nat} {current : π} {s : σ} {uri : ν} {e : ε} (hcap : pages + 1 < cap)
      (hnext : next current = some uri) (hserver : server (pages + 1) uri = .error e) :
      Follows pages current s ⟨[.error e], .error e⟩
  | more {pages : Nat} {current : π} {s : σ} {uri : ν} {page : π} {w : Walk ε π σ}
      (hstop : stop (visit step stop s (items current)) = false) (hcap : pages + 1 < cap)
      (hnext : next current = some uri) (hserver : server (pages + 1) uri = .ok page)
      (hrest : Follows (pages + 1) page (visit step stop s (items current)) w) :
      Follows pages current s (w.cons (.ok page))

theorem follows_follow (pages : Nat) (current : π) (s : σ) :
    Follows items next server step stop cap pages current s
      (follow items next server step stop cap pages current s) := by
  rw [follow]
  by_cases hend : stop (visit step stop s (items current)) ∨ cap ≤ pages + 1
  · rw [if_pos hend]
    exact .ended (hend.imp_right .inl)
  · rw [if_neg hend]
    obtain ⟨hstop, hcap⟩ := not_or.mp hend
    have hcap := Nat.lt_of_not_le hcap
    cases hnext : next current with
    | none => exact .ended (.inr (.inr hnext))
    | some uri =>
      cases hserver : server (pages + 1) uri with
      | error e => simpa only [hserver] using .failed hcap hnext hserver
      | ok page =>
        simpa only [hserver] using .more (by simpa using hstop) hcap hnext hserver
          (follows_follow (pages + 1) page (visit step stop s (items current)))
termination_by cap - pages

end Spec

namespace Follows

variable {items : π → List α} {next : π → Option ν} {server : Nat → ν → Except ε π}
  {step : σ → α → σ} {stop : σ → Bool} {cap pages : Nat} {current : π} {s : σ} {w : Walk ε π σ}

theorem length_le (h : Follows items next server step stop cap pages current s w)
    (hpages : pages < cap) : w.answers.length + (pages + 1) ≤ cap := by
  induction h with
  | ended => rwa [List.length_nil, Nat.zero_add]
  | failed hcap =>
    rw [List.length_singleton, Nat.add_comm]
    exact hcap
  | more _ hcap _ _ _ ih =>
    have hrest := ih hcap
    simp only [Walk.cons, List.length_cons]
    omega

theorem linked (h : Follows items next server step stop cap pages current s w) :
    w.answers = [] ∨
      ∃ uri, next current = some uri ∧ Linked next server (pages + 1) uri w.answers := by
  induction h with
  | ended => exact .inl rfl
  | failed _ hnext hserver => exact .inr ⟨_, hnext, hserver ▸ .last _ _⟩
  | more _ _ hnext hserver _ ih =>
    refine .inr ⟨_, hnext, ?_⟩
    obtain hempty | ⟨uri, hnext', hrest⟩ := ih
    · rw [Walk.cons, hempty, ← hserver]
      exact .last _ _
    · exact .more hserver hnext' hrest

theorem outcome_eq_error_iff (h : Follows items next server step stop cap pages current s w)
    {e : ε} : w.outcome = .error e ↔ w.answers.getLast? = some (.error e) := by
  induction h with
  | ended => simp
  | failed => simp
  | @more _ _ _ _ _ w _ _ _ _ _ ih =>
    simp only [Walk.cons, ih]
    cases w.answers with
    | nil => simp
    | cons answer answers => rw [List.getLast?_cons_cons]

theorem outcome_eq_ok (h : Follows items next server step stop cap pages current s w)
    (hs : stop s = false) {rest : List π} (hok : w.answers = rest.map .ok) :
    w.outcome = .ok (visit step stop s ((current :: rest).flatMap items)) := by
  induction h generalizing rest with
  | ended =>
    obtain rfl := List.map_eq_nil_iff.mp hok.symm
    simp
  | failed => cases rest with
    | nil => cases hok
    | cons page rest => cases hok
  | more hstop _ _ _ _ ih => cases rest with
    | nil => cases hok
    | cons page rest =>
      obtain ⟨hpage, hrest⟩ := List.cons.inj hok
      cases hpage
      rw [List.flatMap_cons, visit_append hs, hstop]
      exact ih hstop hrest

theorem ended_of_ok (h : Follows items next server step stop cap pages current s w)
    {rest : List π} (hok : w.answers = rest.map .ok) {t : σ} (ht : w.outcome = .ok t) :
    stop t = true ∨ cap ≤ pages + (rest.length + 1) ∨
      ∃ last ∈ (current :: rest).getLast?, next last = none := by
  induction h generalizing rest with
  | ended hend =>
    obtain rfl := List.map_eq_nil_iff.mp hok.symm
    cases ht
    exact hend.imp_right (Or.imp_right fun hnone => ⟨_, rfl, hnone⟩)
  | failed => cases ht
  | more _ _ _ _ _ ih => cases rest with
    | nil => cases hok
    | cons page rest =>
      obtain ⟨hpage, hrest⟩ := List.cons.inj hok
      cases hpage
      have hended := ih hrest ht
      rw [List.getLast?_cons_cons, List.length_cons, Nat.add_comm (rest.length + 1), ← Nat.add_assoc]
      exact hended

end Follows

section Spec

variable {items : π → List α} {next : π → Option ν} {server : Nat → ν → Except ε π}
  {step : σ → α → σ} {stop : σ → Bool} {cap : Nat} {uri : ν} {s : σ}

theorem walk_cases (items : π → List α) (next : π → Option ν) (server : Nat → ν → Except ε π)
    (step : σ → α → σ) (stop : σ → Bool) (cap : Nat) (uri : ν) (s : σ) :
    (∃ e, server 0 uri = .error e ∧
        walk items next server step stop cap uri s = ⟨[.error e], .error e⟩) ∨
      ∃ page w, server 0 uri = .ok page ∧
        walk items next server step stop cap uri s = w.cons (.ok page) ∧
        Follows items next server step stop cap 0 page s w := by
  unfold walk
  cases hserver : server 0 uri with
  | error e => exact .inl ⟨e, rfl, rfl⟩
  | ok page => exact .inr ⟨page, _, rfl, rfl, follows_follow ..⟩

/-- No more requests than the cap allows pages. -/
theorem length_answers_walk_le (hcap : 0 < cap) :
    (walk items next server step stop cap uri s).answers.length ≤ cap := by
  obtain ⟨e, -, heq⟩ | ⟨page, w, -, heq, hfollows⟩ :=
    walk_cases items next server step stop cap uri s
  · rw [heq]
    exact hcap
  · rw [heq]
    exact hfollows.length_le hcap

theorem linked_walk :
    Linked next server 0 uri (walk items next server step stop cap uri s).answers := by
  obtain ⟨e, hserver, heq⟩ | ⟨page, w, hserver, heq, hfollows⟩ :=
    walk_cases items next server step stop cap uri s
  · rw [heq, ← hserver]
    exact .last _ _
  · rw [heq, Walk.cons]
    obtain hempty | ⟨uri, hnext, hrest⟩ := hfollows.linked
    · rw [hempty, ← hserver]
      exact .last _ _
    · exact .more hserver hnext hrest

theorem walk_outcome_eq_error_iff {e : ε} :
    (walk items next server step stop cap uri s).outcome = .error e ↔
      (walk items next server step stop cap uri s).answers.getLast? = some (.error e) := by
  obtain ⟨e', -, heq⟩ | ⟨page, w, -, heq, hfollows⟩ :=
    walk_cases items next server step stop cap uri s
  · rw [heq]
    simp
  · rw [heq]
    simp only [Walk.cons, hfollows.outcome_eq_error_iff]
    cases w.answers with
    | nil => simp
    | cons answer answers => rw [List.getLast?_cons_cons]

/-- If no request fails, the loop has seen the items of all pages up to where it stops,
and it ends at the cap or at a page without a link if it does not stop. -/
theorem walk_of_ok (hs : stop s = false) {pages : List π}
    (hok : (walk items next server step stop cap uri s).answers = pages.map .ok) :
    (walk items next server step stop cap uri s).outcome =
        .ok (visit step stop s (pages.flatMap items)) ∧
      (stop (visit step stop s (pages.flatMap items)) = true ∨ cap ≤ pages.length ∨
        ∃ last ∈ pages.getLast?, next last = none) := by
  obtain ⟨e, -, heq⟩ | ⟨page, w, -, heq, hfollows⟩ :=
    walk_cases items next server step stop cap uri s
  · rw [heq] at hok
    cases pages with
    | nil => cases hok
    | cons page pages => cases hok
  · rw [heq] at hok ⊢
    cases pages with
    | nil => cases hok
    | cons page pages =>
      obtain ⟨hpage, hrest⟩ := List.cons.inj hok
      cases hpage
      have houtcome := hfollows.outcome_eq_ok hs hrest
      refine ⟨houtcome, ?_⟩
      rw [List.length_cons, ← Nat.zero_add (pages.length + 1)]
      exact hfollows.ended_of_ok hrest houtcome

end Spec

end Gcit.Library.Pages
