import Gcit.Github.RateLimit

/-! # One response on the two paths

A response that the dispatcher gets is classified with the credential's snapshot, into
which its own headers went before. A response that `classified_get` gets is classified
without either. The response arrives whole and before the deadline here.
-/

namespace Gcit.Github

open Gcit Gcit.Git Gcit.Library

structure HttpResponse where
  status : Nat
  rateLimit : RateLimitHeaders
  /-- Neither path looks at it. -/
  retryAfter : Option String
  contentLength : Option UInt64
  body : List UInt8
  deriving DecidableEq

/-- What `map_github_error` makes of an unsuccessful response: a GitHub error has the
response's status and the message of its body, a body that is none is another error. -/
structure Octocrab where
  mapGithubError : Nat → List UInt8 → OctocrabError
  status_eq : ∀ {status body code message},
    mapGithubError status body = .github code message → code = status

def RESPONSE_BODY_LIMIT : Nat := 16 * 1024 * 1024

/-- `FromResponse::readerresponse` of the type asked for. -/
structure FromResponse (T : Type) where
  fromResponse : List UInt8 → Except OctocrabError T

variable (octo : Octocrab) (client : Client) (params : DispatchParams) (a : Attempt)
  (response : HttpResponse) (prior : RateLimitSnapshot)
  (others : RateLimitSnapshot → RateLimitSnapshot)

/-- What the dispatcher reads back: its own headers went in, and whatever other tasks of
the credential did since. -/
def seenByDispatch : RateLimitSnapshot :=
  others (prior.observeHeaders response.rateLimit a.answeredAt)

def dispatchPath : Except GithubErrorKind Unit :=
  answerResult client params { a with
    answer := .response response.status (octo.mapGithubError response.status response.body)
    snapshotAfter := seenByDispatch a response prior others }

/-- `classified_get` from its response on, and the snapshot that it leaves. -/
def classifiedGet {T : Type} (reader : FromResponse T) (now : DateTime) :
    Except GithubErrorKind T × RateLimitSnapshot :=
  let classified (e : OctocrabError) :=
    classify e client.credential params.repo params.workflow none none now
  match response.contentLength.filter fun declared => RESPONSE_BODY_LIMIT < declared.toNat with
  | some declared => (.error (.bodyTooLarge (some declared.toNat) RESPONSE_BODY_LIMIT), prior)
  | none =>
    if RESPONSE_BODY_LIMIT < response.body.length then
      (.error (.bodyTooLarge none RESPONSE_BODY_LIMIT), prior)
    else if isSuccess response.status then
      match reader.fromResponse response.body with
      | .ok value => (.ok value, prior.observeHeaders response.rateLimit now)
      | .error e => (.error (classified e), prior)
    else (.error (classified (octo.mapGithubError response.status response.body)), prior)

/-- The declared or the real length of the body is over the cap of the read path. -/
def HttpResponse.OverLimit : Prop :=
  (∃ declared ∈ response.contentLength, RESPONSE_BODY_LIMIT < declared.toNat) ∨
    RESPONSE_BODY_LIMIT < response.body.length

instance decidableOverLimit : Decidable response.OverLimit :=
  inferInstanceAs (Decidable ((∃ _ ∈ _, _) ∨ _))

def IsRateLimited {T : Type} (result : Except GithubErrorKind T) : Prop :=
  ∃ credential reset, result = .error (.rateLimited credential reset)

/-- Where the dispatch path fails the read path fails, with the same retryability; and a
403 that says that nothing remains is a rate limit on both. -/
structure PathsAgree {T : Type} (dispatched : Except GithubErrorKind Unit)
    (read : Except GithubErrorKind T) : Prop where
  alike : ∀ e, dispatched = .error e → ∃ e', read = .error e' ∧ e'.retryability = e.retryability
  exhausted : response.status = 403 → response.rateLimit.remaining = some 0 →
    IsRateLimited dispatched ∧ IsRateLimited read

/-- An error that no retry mends, given what is known to remain of the quota. -/
def OctocrabError.Refusal (remaining : Option Nat) (e : OctocrabError) : Prop :=
  ∃ status message, e = .github status message ∧
    (status = 401 ∨ (status = 403 ∧ remaining ≠ some 0) ∨ status = 404 ∨
      (status = 422 ∧ messageIndicatesDispatchInvalid message = true))

/-- The GitHub error of a 403, at a time when nothing is known to remain. -/
def OctocrabError.ExhaustedForbidden (remaining : Option Nat) (e : OctocrabError) : Prop :=
  (∃ message, e = .github 403 message) ∧ remaining = some 0

namespace OctocrabError

variable {e : OctocrabError} {remaining : Option Nat}

theorem refusal_github_iff {status : Nat} {message : String} :
    Refusal remaining (.github status message) ↔
      status = 401 ∨ (status = 403 ∧ remaining ≠ some 0) ∨ status = 404 ∨
        (status = 422 ∧ messageIndicatesDispatchInvalid message = true) := by
  constructor
  · rintro ⟨_, _, heq, h⟩
    cases heq
    exact h
  · exact fun h => ⟨status, message, rfl, h⟩

theorem refusal_iff_refusal_none :
    (e.Refusal remaining ↔ e.Refusal none) ↔ ¬ e.ExhaustedForbidden remaining := by
  cases e with
  | github status message =>
    rw [refusal_github_iff, refusal_github_iff]
    rcases eq_or_ne status 403 with rfl | hstatus
    · simp [ExhaustedForbidden]
    · simp [ExhaustedForbidden, hstatus]
  | transport display => simp [Refusal, ExhaustedForbidden]
  | other display => simp [Refusal, ExhaustedForbidden]

end OctocrabError

section Classifiers

variable {client params a} {e : OctocrabError} {now : DateTime}

theorem classify_permanent_iff {credential : CredentialId} {repo workflow : String} :
    (classify e credential repo workflow none none now).retryability = .permanent ↔
      e.Refusal none := by
  cases e with
  | transport display => simp [classify, OctocrabError.Refusal, GithubErrorKind.retryability]
  | other display => simp [classify, OctocrabError.Refusal, GithubErrorKind.retryability]
  | github status message =>
    rw [OctocrabError.refusal_github_iff]
    simp only [classify, classifyStatus]
    -- the branches of the classifier, in its order
    by_cases h401 : status = 401
    · simp [h401, GithubErrorKind.retryability]
    by_cases h403 : status = 403
    · simp [h403, GithubErrorKind.retryability]
    by_cases h404 : status = 404
    · simp [h404, GithubErrorKind.retryability]
    by_cases h422 : status = 422
    · cases messageIndicatesDispatchInvalid message <;>
        simp [h422, GithubErrorKind.retryability]
    · simp only [h401, h403, h404, h422, ↓reduceIte, false_and, or_self, iff_false]
      split
      · nofun
      · split <;> nofun

theorem classify_eq_forbidden {credential other : CredentialId} {repo workflow : String}
    (h : classify e credential repo workflow none none now = .forbidden other) :
    ∃ message, e = .github 403 message := by
  cases e with
  | transport display => cases h
  | other display => cases h
  | github status message =>
    by_cases h403 : status = 403
    · exact ⟨message, by rw [h403]⟩
    · simp only [classify, classifyStatus, h403, ↓reduceIte] at h
      repeat' split at h
      all_goals cases h

/-- A forbidden answer counts as a rate limit where the snapshot is exhausted. -/
theorem classifyAnswer_permanent_iff :
    (classifyAnswer client params e a).retryability = .permanent ↔
      e.Refusal a.snapshotAfter.remaining := by
  by_cases hforbidden : e.ExhaustedForbidden a.snapshotAfter.remaining
  · obtain ⟨⟨message, rfl⟩, hremaining⟩ := hforbidden
    have hclass : classifyAnswer client params (.github 403 message) a =
        .rateLimited client.credential (resolveReset a.snapshotAfter.reset a.answeredAt) :=
      if_pos hremaining
    rw [hclass, OctocrabError.refusal_github_iff, hremaining]
    simp [GithubErrorKind.retryability]
  · rw [OctocrabError.refusal_iff_refusal_none.mpr hforbidden, ← classify_permanent_iff]
    unfold classifyAnswer reclassify403ViaSnapshot
    split
    case h_2 => rfl
    case h_1 credential hclass =>
      obtain ⟨message, rfl⟩ := classify_eq_forbidden hclass
      rw [if_neg fun hremaining => hforbidden ⟨⟨message, rfl⟩, hremaining⟩]

theorem Retryability.eq_iff {r r' : Retryability} :
    r = r' ↔ (r = .permanent ↔ r' = .permanent) := by
  cases r <;> cases r' <;> decide

end Classifiers

section Paths

variable {octo client params a response prior others} {T : Type} {reader : FromResponse T}
  {now : DateTime}

theorem dispatchPath_of_success (h : isSuccess response.status = true) :
    dispatchPath octo client params a response prior others = .ok () := if_pos h

theorem dispatchPath_of_failure (h : ¬ isSuccess response.status = true) :
    ∃ e, dispatchPath octo client params a response prior others = .error e ∧
      (e.retryability = .permanent ↔ (octo.mapGithubError response.status response.body).Refusal
        (seenByDispatch a response prior others).remaining) :=
  ⟨_, if_neg h, classifyAnswer_permanent_iff⟩

theorem classifiedGet_of_overLimit (octo : Octocrab) (client : Client) (params : DispatchParams)
    (prior : RateLimitSnapshot) (reader : FromResponse T) (now : DateTime)
    (h : response.OverLimit) :
    ∃ declared, (classifiedGet octo client params response prior reader now).1 =
      .error (.bodyTooLarge declared RESPONSE_BODY_LIMIT) := by
  unfold classifiedGet
  split
  case h_1 declared _ => exact ⟨_, rfl⟩
  case h_2 hdeclared =>
    obtain ⟨declared, hmem, hover⟩ | hbody := h
    · rw [Option.mem_def.mp hmem, Option.filter_some] at hdeclared
      simp [hover] at hdeclared
    · rw [if_pos hbody]
      exact ⟨none, rfl⟩

theorem classifiedGet_of_failure (hlimit : ¬ response.OverLimit)
    (h : ¬ isSuccess response.status = true) :
    (classifiedGet octo client params response prior reader now).1 =
      .error (classify (octo.mapGithubError response.status response.body) client.credential
        params.repo params.workflow none none now) := by
  unfold classifiedGet
  split
  case h_1 declared hdeclared =>
    obtain ⟨hmem, hover⟩ := Option.filter_eq_some_iff.mp hdeclared
    exact absurd (.inl ⟨declared, hmem, of_decide_eq_true hover⟩) hlimit
  case h_2 => rw [if_neg fun hbody => hlimit (.inr hbody), if_neg h]

theorem classifiedGet_snapshot_of_error {e : GithubErrorKind}
    (h : (classifiedGet octo client params response prior reader now).1 = .error e) :
    (classifiedGet octo client params response prior reader now).2 = prior := by
  revert h
  fun_cases classifiedGet octo client params response prior reader now <;> simp_all

/-- No 403 is a rate limit on the read path, whatever its headers say. -/
theorem not_isRateLimited_read (h : response.status = 403) :
    ¬ IsRateLimited (classifiedGet octo client params response prior reader now).1 := by
  rintro ⟨credential, reset, hread⟩
  by_cases hlimit : response.OverLimit
  · obtain ⟨declared, hlarge⟩ :=
      classifiedGet_of_overLimit octo client params prior reader now hlimit
    cases hlarge.symm.trans hread
  · rw [classifiedGet_of_failure hlimit (by rw [h]; decide)] at hread
    cases hmap : octo.mapGithubError response.status response.body with
    | transport display => rw [hmap] at hread; cases hread
    | other display => rw [hmap] at hread; cases hread
    | github status message =>
      rw [hmap, octo.status_eq hmap, h] at hread
      cases hread

end Paths

/-- What a response has to be for the two paths to agree on it: a success; or one that
does not say that nothing remains, if it is a 403, and that is a refusal to the
dispatcher too where its body is over the cap, and no forbidden answer at a time when the
snapshot is exhausted where it is not. -/
def SameVerdict : Prop :=
  isSuccess response.status = true ∨
    ¬ (response.status = 403 ∧ response.rateLimit.remaining = some 0) ∧
      let e := octo.mapGithubError response.status response.body
      let remaining := (seenByDispatch a response prior others).remaining
      if response.OverLimit then e.Refusal remaining else ¬ e.ExhaustedForbidden remaining

theorem exhausted_iff {T : Type} (reader : FromResponse T) (now : DateTime) :
    (response.status = 403 → response.rateLimit.remaining = some 0 →
      IsRateLimited (dispatchPath octo client params a response prior others) ∧
        IsRateLimited (classifiedGet octo client params response prior reader now).1) ↔
      ¬ (response.status = 403 ∧ response.rateLimit.remaining = some 0) := by
  constructor
  · rintro h ⟨h403, hzero⟩
    exact not_isRateLimited_read h403 (h h403 hzero).2
  · intro h h403 hzero
    exact absurd ⟨h403, hzero⟩ h

theorem alike_iff {T : Type} (reader : FromResponse T) (now : DateTime)
    (h : ¬ isSuccess response.status = true) :
    (∀ e, dispatchPath octo client params a response prior others = .error e →
      ∃ e', (classifiedGet octo client params response prior reader now).1 = .error e' ∧
        e'.retryability = e.retryability) ↔
      if response.OverLimit then
        (octo.mapGithubError response.status response.body).Refusal
          (seenByDispatch a response prior others).remaining
      else ¬ (octo.mapGithubError response.status response.body).ExhaustedForbidden
          (seenByDispatch a response prior others).remaining := by
  obtain ⟨e, herror, hpermanent⟩ :
      ∃ e, dispatchPath octo client params a response prior others = .error e ∧
        (e.retryability = .permanent ↔
          (octo.mapGithubError response.status response.body).Refusal
            (seenByDispatch a response prior others).remaining) := dispatchPath_of_failure h
  rw [herror]
  split
  case isTrue hlimit =>
    obtain ⟨declared, hlarge⟩ :=
      classifiedGet_of_overLimit octo client params prior reader now hlimit
    rw [hlarge, ← hpermanent]
    simp [GithubErrorKind.retryability, eq_comm]
  case isFalse hlimit =>
    have hread : (classify (octo.mapGithubError response.status response.body) client.credential
        params.repo params.workflow none none now).retryability = .permanent ↔
        (octo.mapGithubError response.status response.body).Refusal none := classify_permanent_iff
    rw [classifiedGet_of_failure hlimit h, ← OctocrabError.refusal_iff_refusal_none,
      ← hpermanent, ← hread, ← Retryability.eq_iff]
    simp [eq_comm]

/-- For every response, on every snapshot and with anything that other tasks do to it in
between: the two paths agree if and only if the response is one of `SameVerdict`. -/
theorem paths_agree_iff {T : Type} (reader : FromResponse T) (now : DateTime) :
    PathsAgree response (dispatchPath octo client params a response prior others)
        (classifiedGet octo client params response prior reader now).1 ↔
      SameVerdict octo a response prior others := by
  by_cases hsuccess : isSuccess response.status = true
  · have hok : dispatchPath octo client params a response prior others = .ok () :=
      dispatchPath_of_success hsuccess
    rw [hok]
    refine ⟨fun _ => .inl hsuccess, fun _ => ⟨nofun, fun h403 => ?_⟩⟩
    rw [h403] at hsuccess
    cases hsuccess
  · rw [SameVerdict, or_iff_right hsuccess,
      ← exhausted_iff octo client params a response prior others reader now,
      ← alike_iff octo client params a response prior others reader now hsuccess]
    constructor
    · exact fun h => ⟨h.exhausted, h.alike⟩
    · exact fun h => ⟨h.2, h.1⟩

def exhaustedResponse : HttpResponse where
  status := 403
  rateLimit := ⟨some 0, none, none⟩
  retryAfter := none
  contentLength := none
  body := []

/-- A 403 that says that nothing remains is a rate limit to the dispatcher, and a missing
scope to the correlator and the monitor. -/
theorem exhausted_403_disagrees :
    let octo : Octocrab :=
      ⟨fun status _ => .github status "API rate limit exceeded", by rintro _ _ _ _ ⟨⟩; rfl⟩
    let client : Client := ⟨"default", seconds 30⟩
    let params : DispatchParams := ⟨"owner/repo", "ci.yml", "main", Uuid.nil, ∅⟩
    let a : Attempt := ⟨.new, 0, false, 0, .elapsed, false, .new, 0, 0⟩
    let reader : FromResponse Unit := ⟨fun _ => .ok ()⟩
    ¬ PathsAgree exhaustedResponse (dispatchPath octo client params a exhaustedResponse .new id)
      (classifiedGet octo client params exhaustedResponse .new reader 0).1 := by
  intro octo client params a reader h
  obtain ⟨e, hread, hretry⟩ := h.alike (.rateLimited "default" (seconds 60 : Nat)) rfl
  have hforbidden : (classifiedGet octo client params exhaustedResponse .new reader 0).1 =
      .error (.forbidden "default") := rfl
  obtain rfl : GithubErrorKind.forbidden "default" = e := by
    simpa only [Except.error.injEq] using hforbidden.symm.trans hread
  cases hretry

end Gcit.Github
