import Gcit.Flow.Retries

/-! # How often a dispatch is repeated, and how soon

The attempts of one call on a timeline. A sleep of the retry loop never ends early,
so an attempt starts no sooner than the adjusted delay after the one before it.
`with_max_times` counts the delays, and the first attempt needs none.
-/

namespace Gcit.Github

open Std Gcit Gcit.Git Gcit.Library

/-- An attempt, with the instant at which it starts and the reading of the clock
that the adjustment of its delay makes. -/
structure TimedAttempt where
  attempt : Attempt
  startedAt : DateTime
  adjustedAt : DateTime

section Timeline

variable (http : HttpCrate) (client : Client) (params : DispatchParams) (maxAttempts : Nat)

/-- The sleep after this attempt, when there were as many retries before it. -/
def retryWait (retries : Nat) (t : TimedAttempt) : Option Duration :=
  match dispatch http client params t.attempt with
  | .ok _ => none
  | .error err =>
    adjustDelay err t.adjustedAt (if retries < maxAttempts then some t.attempt.delay else none)

structure RetryTimeline where
  attempts : List TimedAttempt
  timely : ∀ pre t u post, attempts = pre ++ t :: u :: post →
    ∀ wait ∈ retryWait http client params maxAttempts pre.length t, t.adjustedAt + wait ≤ u.startedAt

variable {http client params maxAttempts} (timeline : RetryTimeline http client params maxAttempts)

def RetryTimeline.tape : List Attempt := timeline.attempts.map TimedAttempt.attempt

def RetryTimeline.made : List TimedAttempt :=
  Tape.played (fun retries t => retryRound http client params maxAttempts retries t.attempt) 0
    timeline.attempts

variable (http client params)

def RateLimitedOutcome (a : Attempt) : Prop :=
  ∃ credential reset, dispatch http client params a = .error (.rateLimited credential reset)

def TransientOutcome (a : Attempt) : Prop :=
  ∃ err, dispatch http client params a = .error err ∧ err.isTransient = true

variable {http client params}

structure RetryTimeline.BoundedAndSpaced : Prop where
  bounded : (∀ t ∈ timeline.made, ¬ RateLimitedOutcome http client params t.attempt) →
    timeline.made.length ≤ maxAttempts
  stops : ∀ pre t u post, timeline.made = pre ++ t :: u :: post →
    TransientOutcome http client params t.attempt
  last : ∀ result, dispatchWithRetry http client params maxAttempts timeline.tape = some result →
    ∃ pre t, timeline.made = pre ++ [t] ∧ dispatch http client params t.attempt = result
  spaced : ∀ pre t u post credential reset, timeline.made = pre ++ t :: u :: post →
    dispatch http client params t.attempt = .error (.rateLimited credential reset) →
    reset ≤ u.startedAt

variable (http client params maxAttempts) in
/-- As many attempts as the budget allows fail for now, none of them at a rate
limit, and the one after them is not limited either. -/
def Overruns (attempts : List Attempt) : Prop :=
  ∃ pre a post, attempts = pre ++ a :: post ∧ pre.length = maxAttempts ∧
    (∀ b ∈ pre, TransientOutcome http client params b ∧ ¬ RateLimitedOutcome http client params b) ∧
    ¬ RateLimitedOutcome http client params a

theorem Retried.transient {retries : Nat} {a : Attempt}
    (h : Retried http client params maxAttempts retries a) : TransientOutcome http client params a := by
  obtain ⟨err, herr, htransient, -⟩ := h
  exact ⟨err, herr, htransient⟩

theorem retried_of_transient {retries : Nat} {a : Attempt} (hlt : retries < maxAttempts)
    (h : TransientOutcome http client params a) : Retried http client params maxAttempts retries a := by
  obtain ⟨err, herr, htransient⟩ := h
  exact ⟨err, herr, htransient, .inl hlt⟩

theorem goesOn_retryRound {retries t : Nat} {pre : List Attempt}
    (h : Tape.goesOn (retryRound http client params maxAttempts) retries pre = some t) :
    t = retries + pre.length := by
  induction pre generalizing retries with
  | nil => exact (Option.some.inj h).symm
  | cons a pre ih =>
    obtain ⟨m, hround, hpre⟩ := Tape.goesOn_cons_eq_some.mp h
    obtain ⟨-, rfl⟩ := retryRound_eq_inr.mp hround
    rw [ih hpre, List.length_cons]
    omega

theorem goesOn_of_transient {retries : Nat} {pre : List Attempt}
    (hbudget : retries + pre.length ≤ maxAttempts)
    (h : ∀ b ∈ pre, TransientOutcome http client params b) :
    Tape.goesOn (retryRound http client params maxAttempts) retries pre =
      some (retries + pre.length) := by
  induction pre generalizing retries with
  | nil => rfl
  | cons a pre ih =>
    rw [List.length_cons] at hbudget
    have hlt : retries < maxAttempts := by omega
    have hround := retryRound_eq_inr.mpr
      ⟨retried_of_transient hlt (h a List.mem_cons_self), rfl⟩
    refine Tape.goesOn_cons_eq_some.mpr ⟨retries + 1, hround, ?_⟩
    rw [ih (by omega) fun b hb => h b (List.mem_cons_of_mem a hb), List.length_cons]
    congr 1
    omega

theorem le_add_wait (reset now : Int) :
    reset ≤ now + ((if now < reset then (reset - now).toNat else 0 : Nat) : Int) := by
  split <;> omega

namespace RetryTimeline

theorem map_made : timeline.made.map TimedAttempt.attempt =
    attemptsMade http client params maxAttempts timeline.tape :=
  Tape.played_map TimedAttempt.attempt 0 timeline.attempts

theorem made_prefix : timeline.made <+: timeline.attempts := Tape.played_prefix_tape _ _ _

theorem retried_of_made {pre post : List TimedAttempt} {t u : TimedAttempt}
    (h : timeline.made = pre ++ t :: u :: post) :
    Retried http client params maxAttempts pre.length t.attempt := by
  have hmade := timeline.map_made
  rw [h, List.map_append, List.map_cons, List.map_cons] at hmade
  obtain ⟨retries, m, hpre, hround⟩ := Tape.goesOn_of_played hmade.symm
  have hretries := goesOn_retryRound hpre
  rw [List.length_map, Nat.zero_add] at hretries
  exact hretries ▸ (retryRound_eq_inr.mp hround).1

theorem reset_le_of_made {pre post : List TimedAttempt} {t u : TimedAttempt}
    {credential : CredentialId} {reset : DateTime} (h : timeline.made = pre ++ t :: u :: post)
    (hlimited : dispatch http client params t.attempt = .error (.rateLimited credential reset)) :
    reset ≤ u.startedAt := by
  obtain ⟨rest, hrest⟩ := timeline.made_prefix
  have hsplit : timeline.attempts = pre ++ t :: u :: (post ++ rest) := by simp [← hrest, h]
  obtain ⟨wait, hwait, hle⟩ : ∃ wait ∈ retryWait http client params maxAttempts pre.length t,
      reset ≤ t.adjustedAt + wait := by
    -- the adjusted delay is at least the time up to the reset
    have hafter : reset ≤ t.adjustedAt +
        ((if t.adjustedAt < reset then (reset - t.adjustedAt).toNat else 0 : Nat) : Int) :=
      le_add_wait reset t.adjustedAt
    simp only [retryWait, hlimited, adjustDelay, GithubErrorKind.retryAfter]
    by_cases hbudget : pre.length < maxAttempts
    · refine ⟨_, by rw [if_pos hbudget]; rfl, Int.le_trans hafter ?_⟩
      have hmax := Nat.le_max_left
        (if t.adjustedAt < reset then (reset - t.adjustedAt).toNat else 0) t.attempt.delay
      exact Int.add_le_add_left (Int.ofNat_le.mpr hmax) _
    · exact ⟨_, by rw [if_neg hbudget]; rfl, hafter⟩
  exact Int.le_trans hle (timeline.timely pre t u _ hsplit wait hwait)

theorem made_length_le (h : ¬ Overruns http client params maxAttempts timeline.tape)
    (hnone : ∀ t ∈ timeline.made, ¬ RateLimitedOutcome http client params t.attempt) :
    timeline.made.length ≤ maxAttempts := by
  by_contra hlong
  obtain ⟨rest, hrest⟩ := timeline.made_prefix
  obtain ⟨pre, t, post, hmade, hlength⟩ :
      ∃ pre t post, timeline.made = pre ++ t :: post ∧ pre.length = maxAttempts := by
    have hlt : maxAttempts < timeline.made.length := Nat.not_le.mp hlong
    have hsplit := List.take_append_drop maxAttempts timeline.made
    rw [List.drop_eq_getElem_cons hlt] at hsplit
    exact ⟨_, _, _, hsplit.symm, List.length_take_of_le (Nat.le_of_lt hlt)⟩
  apply h
  refine ⟨pre.map TimedAttempt.attempt, t.attempt, (post ++ rest).map TimedAttempt.attempt,
    ?_, ?_, ?_, ?_⟩
  · rw [tape, ← hrest, hmade]
    simp
  · rw [List.length_map, hlength]
  · intro b hb
    obtain ⟨u, hu, rfl⟩ := List.mem_map.mp hb
    refine ⟨?_, hnone u (hmade ▸ List.mem_append_left _ hu)⟩
    -- one more call follows each of them
    obtain ⟨before, after, rfl⟩ := List.append_of_mem hu
    rw [List.append_assoc, List.cons_append] at hmade
    cases after with
    | nil => exact (timeline.retried_of_made hmade).transient
    | cons v after => exact (timeline.retried_of_made hmade).transient
  · exact hnone t (hmade ▸ List.mem_append_right _ List.mem_cons_self)

theorem made_of_overruns (h : Overruns http client params maxAttempts timeline.tape) :
    (∀ t ∈ timeline.made, ¬ RateLimitedOutcome http client params t.attempt) ∧
      timeline.made.length = maxAttempts + 1 := by
  obtain ⟨pre, a, post, htape, hlength, hpre, ha⟩ := h
  have hbudget : 0 + pre.length ≤ maxAttempts := by omega
  have hgoes := goesOn_of_transient hbudget fun b hb => (hpre b hb).1
  rw [Nat.zero_add, hlength] at hgoes
  obtain ⟨result, hround⟩ : ∃ result,
      retryRound http client params maxAttempts maxAttempts a = .inl result := by
    cases hround : retryRound http client params maxAttempts maxAttempts a with
    | inl result => exact ⟨result, rfl⟩
    | inr m =>
      obtain ⟨⟨err, herr, -, hmore⟩, -⟩ := retryRound_eq_inr.mp hround
      obtain hlt | ⟨credential, reset, rfl⟩ := hmore
      · exact absurd hlt (Nat.lt_irrefl _)
      · exact absurd ⟨credential, reset, herr⟩ ha
  have hmade : timeline.made.map TimedAttempt.attempt = pre ++ [a] := by
    rw [map_made, htape, attemptsMade, Tape.played_append_of_some _ hgoes]
    simp [Tape.played, hround]
  constructor
  · intro t ht
    have hmem := List.mem_map_of_mem (f := TimedAttempt.attempt) ht
    rw [hmade] at hmem
    rcases List.mem_append.mp hmem with hmem | hmem
    · exact (hpre _ hmem).2
    · exact List.mem_singleton.mp hmem ▸ ha
  · have hcount := congrArg List.length hmade
    simpa [hlength] using hcount

theorem last_of_made {result : Except GithubErrorKind DispatchOutcome}
    (h : dispatchWithRetry http client params maxAttempts timeline.tape = some result) :
    ∃ pre t, timeline.made = pre ++ [t] ∧ dispatch http client params t.attempt = result := by
  obtain ⟨pre, a, retries, hplayed, -, hstop⟩ := Tape.played_of_play h
  have hmade := timeline.map_made
  rw [attemptsMade, hplayed] at hmade
  obtain ⟨pre', last, hsplit, -, hlast⟩ := List.map_eq_append_iff.mp hmade
  obtain ⟨t, rest, rfl, rfl, hrest⟩ := List.map_eq_cons_iff.mp hlast
  obtain rfl := List.map_eq_nil_iff.mp hrest
  refine ⟨pre', t, hsplit, ?_⟩
  unfold retryRound at hstop
  cases hdispatch : dispatch http client params t.attempt with
  | ok outcome =>
    rw [hdispatch] at hstop
    exact Sum.inl.inj hstop
  | error err =>
    simp only [hdispatch] at hstop
    split at hstop
    · split at hstop
      · exact Sum.inl.inj hstop
      · cases hstop
    · exact Sum.inl.inj hstop

/-- For every sequence of answers: the calls stay within the budget, stop at the
first answer that is no transient error, return the last one and respect every
reset if and only if the budget is not overrun. -/
theorem bounded_and_spaced_iff :
    timeline.BoundedAndSpaced ↔ ¬ Overruns http client params maxAttempts timeline.tape := by
  constructor
  · intro h hoverruns
    obtain ⟨hnone, hlength⟩ := timeline.made_of_overruns hoverruns
    have hle := h.bounded hnone
    omega
  · intro h
    exact {
      bounded := timeline.made_length_le h
      stops := fun _ _ _ _ hmade => (timeline.retried_of_made hmade).transient
      last := fun _ hresult => timeline.last_of_made hresult
      spaced := fun _ _ _ _ _ _ hmade hlimited => timeline.reset_le_of_made hmade hlimited }

end RetryTimeline

end Timeline

def mainDispatch : DispatchParams :=
  ⟨"owner/repo", "ci.yml", "refs/heads/main", .repeated 1, ∅⟩

def lostAttempt (now : DateTime) : TimedAttempt := ⟨Flow.attemptAt now .elapsed false, now, now⟩

/-- The second of two attempts starts as soon as the sleep allows. -/
def lostAttempts : RetryTimeline plainHttp ⟨"github", seconds 30⟩ mainDispatch 1 where
  attempts := [lostAttempt 0, lostAttempt (seconds 5 : Nat)]
  timely := by
    intro pre t u post hsplit
    obtain rfl : pre = [] := by
      have hlength := congrArg List.length hsplit
      simp only [List.length_cons, List.length_nil, List.length_append] at hlength
      exact List.length_eq_zero_iff.mp (by omega)
    obtain ⟨rfl, htail⟩ := List.cons.inj hsplit
    obtain ⟨rfl, -⟩ := List.cons.inj htail
    decide

/-- With a budget of one attempt, a dispatch without an answer is sent twice. -/
theorem budget_overrun : ¬ lostAttempts.BoundedAndSpaced ∧ lostAttempts.made.length = 2 := by
  have hmade : lostAttempts.made = [lostAttempt 0, lostAttempt (seconds 5 : Nat)] := rfl
  refine ⟨fun h => ?_, rfl⟩
  have hle := h.bounded fun t ht => ?_
  · exact absurd hle (by decide)
  · rw [hmade] at ht
    have hlost : dispatch plainHttp ⟨"github", seconds 30⟩ mainDispatch t.attempt =
        .error (.timeout (seconds 30)) := by
      rcases List.mem_cons.mp ht with rfl | ht
      · rfl
      · obtain rfl := List.mem_singleton.mp ht
        rfl
    rintro ⟨credential, reset, hlimited⟩
    rw [hlost] at hlimited
    cases hlimited

end Gcit.Github
