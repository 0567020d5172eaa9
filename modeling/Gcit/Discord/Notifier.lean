import Gcit.Discord.Webhook
import Gcit.Mail.Notifier
import Gcit.Notify.EmbedLimits

/-! # The Discord notifier

What a call decides before it sends its one request, and what it makes of the answer.
-/

namespace Gcit.Discord

open Gcit Gcit.Git Gcit.Flow Gcit.Library.Handlebars Gcit.Notify

/-- What the crates around the request decide: the check of an embed by itself, and the
name of a status. -/
structure DiscordCrates where
  registry : Registry
  rfc3339 : DateTime → String
  validateEmbed : Embed → Except String Unit
  /-- Why the client does not send a request with this embed. -/
  requestError : Embed → Option String
  canonicalReason : Nat → Option String

structure DiscordNotifier where
  id : String
  parsed : ParsedWebhookUrl
  fireOn : List FireEvent
  template : DiscordTemplateConfig

def DEFAULT_RATE_LIMIT_RETRY_AFTER : Duration := seconds 5

def isSuccess (status : Nat) : Bool := decide (200 ≤ status ∧ status ≤ 299)

def isServerError (status : Nat) : Bool := decide (500 ≤ status ∧ status ≤ 599)

inductive ErrorType where
  | response (status : Nat)
  | validation
  | requestTimedOut
  | other
  deriving DecidableEq

/-- An error of the client with its text. -/
structure TwilightError where
  kind : ErrorType
  text : String

section Crates

variable (crates : DiscordCrates)

def statusText (status : Nat) : String :=
  s!"{status} " ++ (crates.canonicalReason status).getD "<unknown status code>"

def classifyTwilightError (err : TwilightError) : NotifyError :=
  match err.kind with
  | .response code =>
    if code = 429 then .transient s!"discord HTTP {code}" (some DEFAULT_RATE_LIMIT_RETRY_AFTER)
    else if code = 401 then .permanent ("discord HTTP 401: invalid token; the webhook token has " ++
      "been rotated or never existed")
    else if code = 403 then .permanent ("discord HTTP 403: forbidden; the webhook lacks " ++
      "permission to post in its channel")
    else if code = 404 then .permanent ("discord HTTP 404: webhook deleted; recreate it in " ++
      "Discord and update the credential")
    else if code = 410 then .permanent ("discord HTTP 410: webhook channel closed; the " ++
      "destination channel was deleted")
    else if isServerError code then .transient ("discord HTTP " ++ statusText crates code) none
    else .permanent s!"discord HTTP {code}"
  | .validation => .permanent s!"twilight-http validation error: {err.text}"
  | .requestTimedOut => .transient s!"discord request timed out: {err.text}" none
  | .other => .transient s!"discord transport error: {err.text}" none

namespace DiscordNotifier

def firesOn (n : DiscordNotifier) (event : FireEvent) : Bool := n.fireOn.contains event

def cancelledError (n : DiscordNotifier) : NotifyError :=
  .transient (s!"discord webhook {n.parsed.id} cancelled; delivery status unknown — the request " ++
    "may or may not have reached Discord") none

def receipt (n : DiscordNotifier) : String := s!"webhook:{n.parsed.id}"

/-- The checks of `deliver` before the request. -/
def checkEmbed (embed : Embed) : Except NotifyError Unit :=
  match crates.validateEmbed embed with
  | .error e => .error (.permanent s!"embed validation failed: {e}")
  | .ok () => (checkTotal embed).mapError .permanent

/-- The embed of the request, or how the call ends without one. -/
def prepare (n : DiscordNotifier) (ctx : RunContext) (summary : RunReport) (isCancelled : Bool) :
    Except (Except NotifyError NotifyOutcome) Embed :=
  if n.firesOn .runComplete = false then .error (.ok (.skipped .fireOnMismatch))
  else match buildRunCompleteEmbed crates.registry discordLimits crates.rfc3339 n.template ctx
      summary with
    | .error e => .error (.error (.permanent s!"embed render failed: {e}"))
    | .ok embed =>
      if isCancelled then .error (.error n.cancelledError)
      else match checkEmbed crates embed with
        | .error e => .error (.error e)
        | .ok () => .ok embed

/-- How the call ends on an answer. On a 429 the client sends the request again by itself. -/
def onAnswer (n : DiscordNotifier) (status : Nat) : Option (Except NotifyError NotifyOutcome) :=
  if isSuccess status then some (.ok (.sent n.receipt))
  else if status = 429 then none
  else some (.error (classifyTwilightError crates ⟨.response status, ""⟩))

end DiscordNotifier

end Crates

variable {crates : DiscordCrates} {n : DiscordNotifier} {ctx : RunContext} {summary : RunReport}
  {isCancelled : Bool}

theorem classify_isTransient {status : Nat} (h : isServerError status) (text : String) :
    (classifyTwilightError crates ⟨.response status, text⟩).isTransient = true := by
  have hrange : 500 ≤ status ∧ status ≤ 599 := of_decide_eq_true h
  simp only [classifyTwilightError]
  rw [if_neg (by omega), if_neg (by omega), if_neg (by omega), if_neg (by omega),
    if_neg (by omega), if_pos h]
  rfl

/-- What is sent was built for this run, is within the limits, and fires on it. -/
structure DiscordNotifier.Built (crates : DiscordCrates) (n : DiscordNotifier) (ctx : RunContext)
    (summary : RunReport) (embed : Embed) : Prop where
  fires : n.firesOn .runComplete = true
  build : buildRunCompleteEmbed crates.registry discordLimits crates.rfc3339 n.template ctx
    summary = .ok embed
  caps : WithinCaps discordLimits embed
  total : embedCodepointCount embed ≤ EMBED_TOTAL_CODEPOINTS

theorem built_of_prepare {embed : Embed}
    (h : n.prepare crates ctx summary isCancelled = .ok embed) :
    n.Built crates ctx summary embed := by
  unfold DiscordNotifier.prepare at h
  split at h
  case isTrue => cases h
  case isFalse hfires =>
  split at h
  case h_1 => cases h
  case h_2 built hbuild =>
  split at h
  case isTrue => cases h
  case isFalse =>
  split at h
  case h_1 => cases h
  case h_2 hcheck =>
  obtain rfl := Except.ok.inj h
  refine ⟨(Bool.not_eq_false _).mp hfires, hbuild, withinCaps_of_build (by decide) hbuild, ?_⟩
  unfold DiscordNotifier.checkEmbed at hcheck
  split at hcheck
  case h_1 => cases hcheck
  case h_2 =>
    rcases Nat.lt_or_ge EMBED_TOTAL_CODEPOINTS (embedCodepointCount built) with hover | hfits
    · rw [checkTotal, if_pos hover] at hcheck
      cases hcheck
    · exact hfits

theorem onAnswer_eq_none {status : Nat} :
    n.onAnswer crates status = none ↔ isSuccess status = false ∧ status = 429 := by
  unfold DiscordNotifier.onAnswer
  split
  case isTrue h => simp [h]
  case isFalse h =>
  split
  case isTrue h429 => simp [h429 ▸ Bool.eq_false_iff.mpr h, h429]
  case isFalse h429 => simp [h429]

theorem onAnswer_eq_some {status : Nat} {result : Except NotifyError NotifyOutcome}
    (h : n.onAnswer crates status = some result) :
    (isSuccess status = true ∧ result = .ok (.sent n.receipt)) ∨
      (isSuccess status = false ∧
        result = .error (classifyTwilightError crates ⟨.response status, ""⟩)) := by
  unfold DiscordNotifier.onAnswer at h
  split at h
  case isTrue hsuccess => exact .inl ⟨hsuccess, (Option.some.inj h).symm⟩
  case isFalse hsuccess =>
  split at h
  case isTrue => cases h
  case isFalse => exact .inr ⟨Bool.eq_false_iff.mpr hsuccess, (Option.some.inj h).symm⟩

/-- A call that ends before its request has not sent anything. -/
theorem prepare_ne_sent {receipt : String} :
    n.prepare crates ctx summary isCancelled ≠ .error (.ok (.sent receipt)) := by
  intro h
  unfold DiscordNotifier.prepare at h
  split at h
  case isTrue => cases h
  case isFalse =>
  split at h
  case h_1 => cases h
  case h_2 =>
  split at h
  case isTrue => cases h
  case isFalse =>
  split at h
  case h_1 => cases h
  case h_2 => cases h

end Gcit.Discord
