import Gcit.Config.Raw

/-! # Durations, jitter and the HTTP section

The settings that pace the daemon. Each parser answers `none` where it has pushed an
error, and a section falls back to its default on `none`; where nothing was pushed
the default is there only because the field is absent.
-/

namespace Gcit.Validate

open Gcit Gcit.Git Gcit.Library.Validation

structure HttpConfig where
  requestTimeout : Duration := seconds 30
  deriving DecidableEq

def MIN_JITTER : Rat := 0
def MAX_JITTER : Rat := 1 / 2

def caseConfusableHint (raw : String) : String :=
  if textContains raw "M" then
    " (note: 'M' means months in humantime; use lowercase 'm' for minutes)"
  else if textContains raw "W" then
    " (note: 'W' is not a valid humantime unit; use lowercase 'w' for weeks)"
  else ""

/-- `(MIN_JITTER..=MAX_JITTER).contains`, with the number itself. -/
def jitterWithin : F64 → Option Rat
  | .finite q => if MIN_JITTER ≤ q ∧ q ≤ MAX_JITTER then some q else none
  | .infinite _ | .nan => none

variable (crates : Crates) (source path : String)

def invalidDuration (spanned : Spanned String) (field e : String) : ConfigError :=
  .parse path (spanLine source spanned) (field ++ " = " ++ crates.strDebug spanned.value ++
    ": invalid duration: " ++ e ++ caseConfusableHint spanned.value)

def parseBoundedDuration (spanned : Spanned String) (field : String) (flow : Option String)
    (min max : Duration) : Checking (Option Duration) :=
  match crates.parseDuration spanned.value with
  | .error e => do
    push (invalidDuration crates source path spanned field e)
    return none
  | .ok d =>
    if d < min ∨ d > max then do
      push (validateErr path [spanLine source spanned] flow field spanned.value
        (s!"{field} must be between {asSecs min}s and {asSecs max}s; got {asSecs d}s" ++
          caseConfusableHint spanned.value)
        s!"use a value in the range [{asSecs min}s, {asSecs max}s]")
      return none
    else return some d

def parseInterval (spanned : Spanned String) (field : String) (flow : Option String) :
    Checking (Option Duration) :=
  parseBoundedDuration crates source path spanned field flow MIN_INTERVAL MAX_INTERVAL

/-- No cooldown at all is allowed; a cooldown has the bounds of an interval. -/
def parseCooldown (spanned : Spanned String) (field : String) (flow : Option String) :
    Checking (Option Duration) :=
  match crates.parseDuration spanned.value with
  | .error e => do
    push (invalidDuration crates source path spanned field e)
    return none
  | .ok d =>
    if d = 0 then return some 0
    else if d < MIN_INTERVAL ∨ d > MAX_INTERVAL then do
      push (validateErr path [spanLine source spanned] flow field spanned.value
        (s!"{field} must be 0s (disables throttling) or between {asSecs MIN_INTERVAL}s and " ++
          s!"{asSecs MAX_INTERVAL}s; got {asSecs d}s" ++ caseConfusableHint spanned.value)
        ("use 0s to disable, or a value in the range " ++
          s!"[{asSecs MIN_INTERVAL}s, {asSecs MAX_INTERVAL}s]"))
      return none
    else return some d

def parseJitter (spanned : Spanned F64) (field : String) (flow : Option String) :
    Checking (Option Rat) :=
  match jitterWithin spanned.value with
  | none => do
    let value := crates.f64Display spanned.value
    let min := crates.f64Display (.finite MIN_JITTER)
    let max := crates.f64Display (.finite MAX_JITTER)
    push (validateErr path [spanLine source spanned] flow field value
      s!"{field} must be in the range [{min}, {max}]; got {value}"
      s!"use a value in [{min}, {max}], for example 0.1")
    return none
  | some q => return some q

def validatePollDefaults (raw : RawPollDefaults) : Checking PollDefaults := do
  let defaultPoll : PollDefaults := {}
  let sourceInterval ← onField raw.sourceInterval fun s =>
    parseInterval crates source path s "poll.source_interval" none
  let jobInterval ← onField raw.jobInterval fun s =>
    parseInterval crates source path s "poll.job_interval" none
  let jitter ← onField raw.jitter fun s => parseJitter crates source path s "poll.jitter" none
  let cooldown ← onField raw.cooldown fun s =>
    parseCooldown crates source path s "poll.cooldown" none
  return {
    sourceInterval := sourceInterval
    jobInterval := jobInterval.getD defaultPoll.jobInterval
    jitter := jitter.getD defaultPoll.jitter
    cooldown := cooldown.getD defaultPoll.cooldown }

def validateHttp (raw : RawHttpConfig) : Checking HttpConfig := do
  let defaults : HttpConfig := {}
  let requestTimeout ← onField raw.requestTimeout fun s =>
    parseBoundedDuration crates source path s "http.request_timeout" none MIN_HTTP_TIMEOUT
      MAX_HTTP_TIMEOUT
  return { requestTimeout := requestTimeout.getD defaults.requestTimeout }

def validatePollOverride (raw : RawPollOverride) (flowName : String) : Checking PollOverride := do
  let sourceInterval ← onField raw.sourceInterval fun s =>
    parseInterval crates source path s "flow.poll.source_interval" (some flowName)
  let jobInterval ← onField raw.jobInterval fun s =>
    parseInterval crates source path s "flow.poll.job_interval" (some flowName)
  let jitter ← onField raw.jitter fun s =>
    parseJitter crates source path s "flow.poll.jitter" (some flowName)
  let cooldown ← onField raw.cooldown fun s =>
    parseCooldown crates source path s "flow.poll.cooldown" (some flowName)
  return {
    sourceInterval := sourceInterval
    jobInterval := jobInterval
    jitter := jitter
    cooldown := cooldown }

/-! ## What the settings must be -/

/-- The text `s` stands for the duration `d`, which lies within the bounds. -/
def ReadsDuration (min max : Duration) (s : Spanned String) (d : Duration) : Prop :=
  crates.parseDuration s.value = .ok d ∧ min ≤ d ∧ d ≤ max

abbrev ReadsInterval (s : Spanned String) (d : Duration) : Prop :=
  ReadsDuration crates MIN_INTERVAL MAX_INTERVAL s d

def ReadsCooldown (s : Spanned String) (d : Duration) : Prop :=
  crates.parseDuration s.value = .ok d ∧ (d = 0 ∨ MIN_INTERVAL ≤ d ∧ d ≤ MAX_INTERVAL)

def ReadsJitter (s : Spanned F64) (q : Rat) : Prop :=
  s.value = .finite q ∧ MIN_JITTER ≤ q ∧ q ≤ MAX_JITTER

structure RawPollDefaults.Valid (raw : RawPollDefaults) : Prop where
  sourceInterval : ∀ s, raw.sourceInterval = some s → ∃ d, ReadsInterval crates s d
  jobInterval : ∀ s, raw.jobInterval = some s → ∃ d, ReadsInterval crates s d
  jitter : ∀ s, raw.jitter = some s → ∃ q, ReadsJitter s q
  cooldown : ∀ s, raw.cooldown = some s → ∃ d, ReadsCooldown crates s d

/-- `poll` says what `raw` says, with the defaults for what `raw` leaves out. -/
structure RawPollDefaults.Gives (raw : RawPollDefaults) (poll : PollDefaults) : Prop where
  sourceInterval : Option.Rel (ReadsInterval crates) raw.sourceInterval poll.sourceInterval
  jobInterval : Given (ReadsInterval crates) raw.jobInterval (seconds 30) poll.jobInterval
  jitter : Given ReadsJitter raw.jitter (1 / 10) poll.jitter
  cooldown : Given (ReadsCooldown crates) raw.cooldown (seconds 300) poll.cooldown

structure RawPollOverride.Valid (raw : RawPollOverride) : Prop where
  sourceInterval : ∀ s, raw.sourceInterval = some s → ∃ d, ReadsInterval crates s d
  jobInterval : ∀ s, raw.jobInterval = some s → ∃ d, ReadsInterval crates s d
  jitter : ∀ s, raw.jitter = some s → ∃ q, ReadsJitter s q
  cooldown : ∀ s, raw.cooldown = some s → ∃ d, ReadsCooldown crates s d

structure RawPollOverride.Gives (raw : RawPollOverride) (poll : PollOverride) : Prop where
  sourceInterval : Option.Rel (ReadsInterval crates) raw.sourceInterval poll.sourceInterval
  jobInterval : Option.Rel (ReadsInterval crates) raw.jobInterval poll.jobInterval
  jitter : Option.Rel ReadsJitter raw.jitter poll.jitter
  cooldown : Option.Rel (ReadsCooldown crates) raw.cooldown poll.cooldown

def RawHttpConfig.Valid (raw : RawHttpConfig) : Prop :=
  ∀ s, raw.requestTimeout = some s → ∃ d, ReadsDuration crates MIN_HTTP_TIMEOUT MAX_HTTP_TIMEOUT s d

def RawHttpConfig.Gives (raw : RawHttpConfig) (http : HttpConfig) : Prop :=
  Given (ReadsDuration crates MIN_HTTP_TIMEOUT MAX_HTTP_TIMEOUT) raw.requestTimeout (seconds 30)
    http.requestTimeout

/-! ## What the parsers check -/

section Checks

variable {crates source path}

theorem not_outside {min max d : Duration} : ¬(d < min ∨ d > max) ↔ min ≤ d ∧ d ≤ max := by
  rw [not_or, Nat.not_lt, gt_iff_lt, Nat.not_lt]

theorem checks_parseBoundedDuration (spanned : Spanned String) (field : String)
    (flow : Option String) (min max : Duration) :
    ChecksField (parseBoundedDuration crates source path spanned field flow min max)
      (∃ d, ReadsDuration crates min max spanned d)
      fun v => ∃ d, v = some d ∧ ReadsDuration crates min max spanned d := by
  unfold parseBoundedDuration
  cases hparse : crates.parseDuration spanned.value with
  | error e => exact .fails _ _ (by simp [ReadsDuration, hparse])
  | ok d =>
    have hiff : (∃ d, ReadsDuration crates min max spanned d) ↔ min ≤ d ∧ d ≤ max := by
      simp [ReadsDuration, hparse]
    by_cases hd : d < min ∨ d > max
    · simp only [if_pos hd]
      exact .fails _ _ fun h => not_outside.mpr (hiff.mp h) hd
    · simp only [if_neg hd]
      have hbounds := not_outside.mp hd
      exact .returns (hiff.mpr hbounds) ⟨d, rfl, hparse, hbounds⟩

theorem checks_parseCooldown (spanned : Spanned String) (field : String) (flow : Option String) :
    ChecksField (parseCooldown crates source path spanned field flow)
      (∃ d, ReadsCooldown crates spanned d)
      fun v => ∃ d, v = some d ∧ ReadsCooldown crates spanned d := by
  unfold parseCooldown
  cases hparse : crates.parseDuration spanned.value with
  | error e => exact .fails _ _ (by simp [ReadsCooldown, hparse])
  | ok d =>
    have hiff : (∃ d, ReadsCooldown crates spanned d) ↔
        d = 0 ∨ MIN_INTERVAL ≤ d ∧ d ≤ MAX_INTERVAL := by
      simp [ReadsCooldown, hparse]
    by_cases hzero : d = 0
    · simp only [if_pos hzero]
      exact .returns (hiff.mpr (.inl hzero)) ⟨0, rfl, hzero ▸ hparse, .inl rfl⟩
    · simp only [if_neg hzero]
      by_cases hd : d < MIN_INTERVAL ∨ d > MAX_INTERVAL
      · simp only [if_pos hd]
        exact .fails _ _ fun h => (hiff.mp h).elim hzero fun hb => not_outside.mpr hb hd
      · simp only [if_neg hd]
        have hbounds := not_outside.mp hd
        exact .returns (hiff.mpr (.inr hbounds)) ⟨d, rfl, hparse, .inr hbounds⟩

theorem jitterWithin_eq_some_iff {x : F64} {q : Rat} :
    jitterWithin x = some q ↔ x = .finite q ∧ MIN_JITTER ≤ q ∧ q ≤ MAX_JITTER := by
  cases x with
  | finite r =>
    rw [jitterWithin]
    split
    case isTrue h =>
      simp only [Option.some.injEq, F64.finite.injEq]
      exact ⟨fun he => he ▸ ⟨rfl, h⟩, fun he => he.1⟩
    case isFalse h =>
      simp only [F64.finite.injEq, reduceCtorEq, false_iff]
      rintro ⟨rfl, hq⟩
      exact h hq
  | infinite negative => simp [jitterWithin]
  | nan => simp [jitterWithin]

theorem checks_parseJitter (spanned : Spanned F64) (field : String) (flow : Option String) :
    ChecksField (parseJitter crates source path spanned field flow) (∃ q, ReadsJitter spanned q)
      fun v => ∃ q, v = some q ∧ ReadsJitter spanned q := by
  unfold parseJitter
  cases hq : jitterWithin spanned.value with
  | none =>
    refine .fails _ _ ?_
    rintro ⟨q, h⟩
    rw [jitterWithin_eq_some_iff.mpr h] at hq
    cases hq
  | some q =>
    have h : ReadsJitter spanned q := jitterWithin_eq_some_iff.mp hq
    exact .returns ⟨q, h⟩ ⟨q, rfl, h⟩

theorem checks_validatePollDefaults (raw : RawPollDefaults) :
    ChecksField (validatePollDefaults crates source path raw) (raw.Valid crates)
      (raw.Gives crates) := by
  refine ((Checks.onField _ fun s _ => checks_parseBoundedDuration s _ _ _ _).bind fun a =>
    (Checks.onField _ fun s _ => checks_parseBoundedDuration s _ _ _ _).bind fun b =>
    (Checks.onField _ fun s _ => checks_parseJitter s _ _).bind fun c =>
    (Checks.onField _ fun s _ => checks_parseCooldown s _ _).bind fun d =>
    Checks.value _).imp ?_ fun _ => ⟨?_, rfl⟩
  · exact ⟨fun ⟨h₁, h₂, h₃, h₄, _⟩ => ⟨h₁, h₂, h₃, h₄⟩, fun ⟨h₁, h₂, h₃, h₄⟩ =>
      ⟨h₁, h₂, h₃, h₄, trivial⟩⟩
  · rintro _ ⟨a, ha, b, hb, c, hc, d, hd, rfl⟩
    exact ⟨ha, .of_rel _ hb, .of_rel _ hc, .of_rel _ hd⟩

theorem checks_validateHttp (raw : RawHttpConfig) :
    ChecksField (validateHttp crates source path raw) (raw.Valid crates) (raw.Gives crates) := by
  refine ((Checks.onField _ fun s _ => checks_parseBoundedDuration s _ _ _ _).bind fun a =>
    Checks.value _).imp (and_true _).to_iff fun _ => ⟨?_, rfl⟩
  rintro _ ⟨a, ha, rfl⟩
  exact .of_rel _ ha

theorem checks_validatePollOverride (raw : RawPollOverride) (flowName : String) :
    ChecksField (validatePollOverride crates source path raw flowName) (raw.Valid crates)
      (raw.Gives crates) := by
  refine ((Checks.onField _ fun s _ => checks_parseBoundedDuration s _ _ _ _).bind fun a =>
    (Checks.onField _ fun s _ => checks_parseBoundedDuration s _ _ _ _).bind fun b =>
    (Checks.onField _ fun s _ => checks_parseJitter s _ _).bind fun c =>
    (Checks.onField _ fun s _ => checks_parseCooldown s _ _).bind fun d =>
    Checks.value _).imp ?_ fun _ => ⟨?_, rfl⟩
  · exact ⟨fun ⟨h₁, h₂, h₃, h₄, _⟩ => ⟨h₁, h₂, h₃, h₄⟩, fun ⟨h₁, h₂, h₃, h₄⟩ =>
      ⟨h₁, h₂, h₃, h₄, trivial⟩⟩
  · rintro _ ⟨a, ha, b, hb, c, hc, d, hd, rfl⟩
    exact ⟨ha, hb, hc, hd⟩

end Checks

end Gcit.Validate
