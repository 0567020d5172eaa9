import Gcit.Config.Template

/-! # Credential ids and destinations

A destination of either kind refuses the fields of the other. An id that is well
formed is noted for the search for collisions; one that is not is reported where it
stands and not noted.
-/

namespace Gcit.Validate

open Gcit Gcit.Library.OrderedMap Gcit.Library.Validation

def FireEvent.label : FireEvent → String
  | .runStart => "run_start"
  | .jobComplete => "job_complete"
  | .runComplete => "run_complete"

variable (crates : Crates) (source path : String)

def validateCredentialId (spanned : Spanned String) (field flowName : String) :
    Checking (Option CredentialId) :=
  let id := spanned.value
  let line := spanLine source spanned
  match CredentialId.new id with
  | .ok cid => do
    note fun t => { t with
      envVarIndex := pushAt t.envVarIndex (toEnvVar cid) (id, line, flowName)
      credentialLines := pushAt t.credentialLines cid line }
    return some cid
  | .error e => do
    push (validateErr path [line] (some flowName) field id (e.message crates.charDebug)
      e.suggestion)
    return none

def optionalCredentialId (credentialId : Option (Spanned String)) (field flowName : String) :
    Checking (Option CredentialId) :=
  match credentialId with
  | some spanned => validateCredentialId crates source path spanned field flowName
  | none => return none

def requireCredentialId (credentialId : Option (Spanned String)) (field flowName : String)
    (missing : ConfigError) : Checking (Option CredentialId) :=
  match credentialId with
  | some spanned => validateCredentialId crates source path spanned field flowName
  | none => do
    push missing
    return none

def collectFireOn (field flowName : String) :
    List (Spanned FireEvent) → List FireEvent → Checking (List FireEvent)
  | [], out => pure out
  | s :: events, out =>
    if out.contains s.value then do
      let label := FireEvent.label s.value
      push (validateErr path [spanLine source s] (some flowName) field label
        s!"fire_on contains duplicate event '{label}'"
        s!"remove the duplicate '{label}'; events fire once per occurrence")
      collectFireOn field flowName events out
    else collectFireOn field flowName events (out ++ [s.value])

def fireOnOrDefault (fireOn : Option (List (Spanned FireEvent))) (field flowName : String) :
    Checking (List FireEvent) :=
  match fireOn with
  | some events => collectFireOn source path field flowName events []
  | none => return [.runComplete]

def rejectCrossKindTemplateFields (fields : List (String × Option (Spanned String)))
    (owningKind currentKind flowName : String) : Checking Unit := do
  let _ ← forEach (fun (field, value) => rejectSome value fun spanned =>
    validateErr path [spanLine source spanned] (some flowName) s!"destination.template.{field}"
      spanned.value
      s!"destination.template.{field} belongs to {owningKind}; not valid on {currentKind}"
      s!"remove `{field}` or change kind to {owningKind}") fields
  return ()

def validateDiscordTemplate (raw : RawDestinationTemplateConfig) (flowName : String) :
    Checking DiscordTemplateConfig := do
  rejectCrossKindTemplateFields source path [("subject", raw.subject), ("body", raw.body)]
    "local_mail" "discord_webhook" flowName
  let compile := fun template field =>
    compileTemplateField crates source path template field flowName
  let title ← compile raw.title "destination.template.title"
  let description ← compile raw.description "destination.template.description"
  let fieldName ← compile raw.fieldName "destination.template.field_name"
  let fieldValue ← compile raw.fieldValue "destination.template.field_value"
  let collapsedSummary ← compile raw.collapsedSummary "destination.template.collapsed_summary"
  return {
    title := title
    description := description
    fieldName := fieldName
    fieldValue := fieldValue
    collapsedSummary := collapsedSummary }

def validateDiscord (raw : RawDestination) (kindLine : Nat) (flowName : String) :
    Checking Destination := do
  rejectSome raw.user fun user => validateErr path [spanLine source user] (some flowName)
    "destination.user" user.value
    "destination.user belongs to local_mail; not valid on discord_webhook"
    "remove `user` or change kind to local_mail"
  let credentialId ← requireCredentialId crates source path raw.credentialId
    "destination.discord_webhook.credential_id" flowName
    (validateErr path [kindLine] (some flowName) "destination.credential_id" ""
      "destination.credential_id is required for discord_webhook"
      "add credential_id = \"<id>\" under [[flow.destination]]")
  let fireOn ← fireOnOrDefault source path raw.fireOn "destination.discord_webhook.fire_on" flowName
  let template ← validateDiscordTemplate crates source path raw.template flowName
  return .discordWebhook (credentialId.getD "placeholder") fireOn template

def validateLocalMailTemplate (raw : RawDestinationTemplateConfig) (flowName : String) :
    Checking LocalMailTemplateConfig := do
  rejectCrossKindTemplateFields source path
    [("title", raw.title), ("description", raw.description), ("field_name", raw.fieldName),
      ("field_value", raw.fieldValue), ("collapsed_summary", raw.collapsedSummary)]
    "discord_webhook" "local_mail" flowName
  let subject ← compileTemplateField crates source path raw.subject
    "destination.template.subject" flowName
  let body ← compileTemplateField crates source path raw.body "destination.template.body" flowName
  return { subject := subject, body := body }

def validateLocalMailUser (userStr : String) (userLine : Nat) (flowName : String) :
    Checking Unit :=
  let err := validateErr path [userLine] (some flowName) "destination.local_mail.user" userStr
  if userStr = "" then
    push (err "local_mail.user must be non-empty" "use a Unix username like 'ops'")
  else if userStr.utf8ByteSize > MAX_LOCAL_MAIL_USER_LEN then
    push (err
      s!"local_mail.user is {userStr.utf8ByteSize} chars; max is {MAX_LOCAL_MAIL_USER_LEN}"
      s!"shorten to {MAX_LOCAL_MAIL_USER_LEN} chars or fewer")
  else rejectSome (userStr.toList.find? fun ch => !nameChar ch) fun ch => err
    ("local_mail.user contains invalid character " ++ crates.charDebug ch ++
      "; allowed: A-Z a-z 0-9 _ -") "use only A-Z, a-z, 0-9, '_', and '-'"

/-- The user with its line; a missing one is reported and stands as the empty text. -/
def requireUser (user : Option (Spanned String)) (kindLine : Nat) (flowName : String) :
    Checking (String × Nat) :=
  match user with
  | some spanned => return (spanned.value, spanLine source spanned)
  | none => do
    push (validateErr path [kindLine] (some flowName) "destination.user" ""
      "destination.user is required for local_mail"
      "add user = \"<unix_user>\" under [[flow.destination]]")
    return ("", kindLine)

def validateLocalMail (raw : RawDestination) (kindLine : Nat) (flowName : String) :
    Checking Destination := do
  rejectSome raw.credentialId fun cid => validateErr path [spanLine source cid] (some flowName)
    "destination.credential_id" cid.value
    "destination.credential_id belongs to discord_webhook; not valid on local_mail"
    "remove `credential_id` or change kind to discord_webhook"
  let user ← requireUser source path raw.user kindLine flowName
  validateLocalMailUser crates path user.1 user.2 flowName
  let fireOn ← fireOnOrDefault source path raw.fireOn "destination.local_mail.fire_on" flowName
  let template ← validateLocalMailTemplate crates source path raw.template flowName
  return .localMail user.1 fireOn template

def validateDestination (flowName : String) (dest : RawDestination) :
    Checking (Option Destination) :=
  let kindLine := spanLine source dest.kind
  if dest.kind.value = "discord_webhook" then do
    let d ← validateDiscord crates source path dest kindLine flowName
    return some d
  else if dest.kind.value = "local_mail" then do
    let d ← validateLocalMail crates source path dest kindLine flowName
    return some d
  else do
    push (validateErr path [kindLine] (some flowName) "destination.kind" dest.kind.value
      ("unknown destination kind " ++ crates.strDebug dest.kind.value ++
        "; valid kinds: discord_webhook, local_mail")
      "set kind = \"discord_webhook\" or \"local_mail\"")
    return none

def validateDestinations (raw : List RawDestination) (flowName : String) :
    Checking (List Destination) := do
  let out ← forEach (validateDestination crates source path flowName) raw
  return out.reduceOption

/-! ## What a destination must be -/

/-- A text of at most `max` bytes, all of them characters of names. -/
structure NameOk (max : Nat) (s : String) : Prop where
  nonempty : s ≠ ""
  short : s.utf8ByteSize ≤ max
  chars : ∀ ch ∈ s.toList, nameChar ch = true

def FireOnOk (fireOn : Option (List (Spanned FireEvent))) : Prop :=
  ∀ events, fireOn = some events → (events.map Spanned.value).Nodup

structure RawDestinationTemplateConfig.DiscordValid (raw : RawDestinationTemplateConfig) :
    Prop where
  subject : raw.subject = none
  body : raw.body = none
  title : ∀ s, raw.title = some s → TemplateOk crates s.value
  description : ∀ s, raw.description = some s → TemplateOk crates s.value
  fieldName : ∀ s, raw.fieldName = some s → TemplateOk crates s.value
  fieldValue : ∀ s, raw.fieldValue = some s → TemplateOk crates s.value
  collapsedSummary : ∀ s, raw.collapsedSummary = some s → TemplateOk crates s.value

structure RawDestinationTemplateConfig.LocalMailValid (raw : RawDestinationTemplateConfig) :
    Prop where
  title : raw.title = none
  description : raw.description = none
  fieldName : raw.fieldName = none
  fieldValue : raw.fieldValue = none
  collapsedSummary : raw.collapsedSummary = none
  subject : ∀ s, raw.subject = some s → TemplateOk crates s.value
  body : ∀ s, raw.body = some s → TemplateOk crates s.value

structure RawDestination.DiscordValid (raw : RawDestination) : Prop where
  kind : raw.kind.value = "discord_webhook"
  user : raw.user = none
  credentialId : ∃ s, raw.credentialId = some s ∧ IdOk s.value
  fireOn : FireOnOk raw.fireOn
  template : raw.template.DiscordValid crates

structure RawDestination.LocalMailValid (raw : RawDestination) : Prop where
  kind : raw.kind.value = "local_mail"
  credentialId : raw.credentialId = none
  user : ∃ s, raw.user = some s ∧ NameOk MAX_LOCAL_MAIL_USER_LEN s.value
  fireOn : FireOnOk raw.fireOn
  template : raw.template.LocalMailValid crates

def RawDestination.Valid (raw : RawDestination) : Prop :=
  raw.DiscordValid crates ∨ raw.LocalMailValid crates

def eventsOf (fireOn : Option (List (Spanned FireEvent))) : List FireEvent :=
  (fireOn.map (·.map Spanned.value)).getD [.runComplete]

def RawDestinationTemplateConfig.discord (raw : RawDestinationTemplateConfig) :
    DiscordTemplateConfig where
  title := raw.title.map Spanned.value
  description := raw.description.map Spanned.value
  fieldName := raw.fieldName.map Spanned.value
  fieldValue := raw.fieldValue.map Spanned.value
  collapsedSummary := raw.collapsedSummary.map Spanned.value

def RawDestinationTemplateConfig.localMail (raw : RawDestinationTemplateConfig) :
    LocalMailTemplateConfig where
  subject := raw.subject.map Spanned.value
  body := raw.body.map Spanned.value

/-- `dest` says what `raw` says; only an absent `fire_on` has a default. -/
def RawDestination.Gives (raw : RawDestination) : Destination → Prop
  | .discordWebhook credentialId fireOn template =>
    raw.kind.value = "discord_webhook" ∧ raw.credentialId.map Spanned.value = some credentialId ∧
      fireOn = eventsOf raw.fireOn ∧ template = raw.template.discord
  | .localMail user fireOn template =>
    raw.kind.value = "local_mail" ∧ raw.user.map Spanned.value = some user ∧
      fireOn = eventsOf raw.fireOn ∧ template = raw.template.localMail

/-- What a field with an id leaves in the tables. -/
def noted (flowName : String) (credentialId : Option (Spanned String)) : List Noted :=
  (credentialId.map fun s => Noted.credential s.value (spanLine source s) flowName).toList

/-! ## What the validators check -/

section Checks

variable {crates source path}

theorem find?_eq_none_iff {s : String} :
    (s.toList.find? fun ch => !nameChar ch) = none ↔ ∀ ch ∈ s.toList, nameChar ch = true := by
  rw [List.find?_eq_none]
  simp

theorem checks_validateCredentialId (spanned : Spanned String) (field flowName : String) :
    Checks Tables.record (validateCredentialId crates source path spanned field flowName)
      (IdOk spanned.value) (noted source flowName (some spanned)) (· = some spanned.value) := by
  simp only [validateCredentialId]
  cases hnew : CredentialId.new spanned.value with
  | error e =>
    refine .fails _ _ fun h => ?_
    rw [CredentialId.new_eq_ok_iff.mpr ⟨h, rfl⟩] at hnew
    cases hnew
  | ok cid =>
    obtain ⟨hok, rfl⟩ := CredentialId.new_eq_ok_iff.mp hnew
    refine ((Checks.note (Noted.credential spanned.value (spanLine source spanned) flowName)
      fun t => rfl).bind fun _ => Checks.value _).imp (iff_of_true ⟨trivial, trivial⟩ hok)
        fun _ => ⟨?_, rfl⟩
    rintro _ ⟨-, -, rfl⟩
    rfl

theorem checks_requireCredentialId (credentialId : Option (Spanned String))
    (field flowName : String) (missing : ConfigError) :
    Checks Tables.record
      (requireCredentialId crates source path credentialId field flowName missing)
      (∃ s, credentialId = some s ∧ IdOk s.value) (noted source flowName credentialId)
      fun v => v.isSome = true ∧ v = credentialId.map Spanned.value := by
  cases credentialId with
  | none => exact .fails _ _ (by simp)
  | some spanned =>
    refine (checks_validateCredentialId spanned field flowName).imp (by simp) fun _ => ⟨?_, rfl⟩
    rintro _ rfl
    exact ⟨rfl, rfl⟩

theorem checks_collectFireOn (field flowName : String) (events : List (Spanned FireEvent))
    {out : List FireEvent} (hout : out.Nodup) :
    ChecksField (collectFireOn source path field flowName events out)
      (out ++ events.map Spanned.value).Nodup (· = out ++ events.map Spanned.value) := by
  induction events generalizing out with
  | nil => exact .returns (by simpa using hout) (by simp)
  | cons s events ih =>
    unfold collectFireOn
    by_cases hmem : s.value ∈ out
    · rw [if_pos (by simpa using hmem)]
      refine ((Checks.push _).bind fun _ => ih hout).invalid (fun h => h.1) fun h => ?_
      exact (List.nodup_append.mp h).2.2 _ hmem _ List.mem_cons_self rfl
    · rw [if_neg (by simpa using hmem)]
      have hout' : (out ++ [s.value]).Nodup :=
        List.nodup_append.mpr ⟨hout, by simp, fun a ha b hb => by
          rintro rfl
          exact hmem (List.mem_singleton.mp hb ▸ ha)⟩
      have happend : out ++ [s.value] ++ events.map Spanned.value =
          out ++ (s :: events).map Spanned.value := by simp
      exact (ih hout').imp (by rw [happend]) fun _ => ⟨fun v h => h.trans happend, rfl⟩

theorem checks_fireOnOrDefault (fireOn : Option (List (Spanned FireEvent)))
    (field flowName : String) :
    ChecksField (fireOnOrDefault source path fireOn field flowName) (FireOnOk fireOn)
      (· = eventsOf fireOn) := by
  cases fireOn with
  | none => exact .returns (fun _ h => by cases h) rfl
  | some events =>
    refine (checks_collectFireOn field flowName events List.nodup_nil).imp ?_ fun _ =>
      ⟨fun v h => h, rfl⟩
    simp [FireOnOk]

theorem checks_rejectCrossKindTemplateFields (fields : List (String × Option (Spanned String)))
    (owningKind currentKind flowName : String) :
    ChecksField
      (rejectCrossKindTemplateFields source path fields owningKind currentKind flowName)
      (∀ f ∈ fields, f.2 = none) fun _ => True := by
  refine ((Checks.forEach fields fun f _ => Checks.rejectSome f.2 _).bind fun _ =>
    Checks.value ()).imp (and_true _).to_iff fun _ => ⟨fun _ _ => trivial, ?_⟩
  simp

theorem checks_validateDiscordTemplate (raw : RawDestinationTemplateConfig) (flowName : String) :
    ChecksField (validateDiscordTemplate crates source path raw flowName)
      (raw.DiscordValid crates) (· = raw.discord) := by
  refine ((checks_rejectCrossKindTemplateFields _ _ _ _).bind fun _ =>
    (checks_compileTemplateField _ _ _).bind fun a =>
    (checks_compileTemplateField _ _ _).bind fun b =>
    (checks_compileTemplateField _ _ _).bind fun c =>
    (checks_compileTemplateField _ _ _).bind fun d =>
    (checks_compileTemplateField _ _ _).bind fun e => Checks.value _).imp ?_ fun _ => ⟨?_, rfl⟩
  · simp only [List.forall_mem_cons, List.not_mem_nil, false_imp_iff, implies_true, and_true]
    exact ⟨fun ⟨⟨h₁, h₂⟩, h₃, h₄, h₅, h₆, h₇⟩ => ⟨h₁, h₂, h₃, h₄, h₅, h₆, h₇⟩,
      fun ⟨h₁, h₂, h₃, h₄, h₅, h₆, h₇⟩ => ⟨⟨h₁, h₂⟩, h₃, h₄, h₅, h₆, h₇⟩⟩
  · rintro _ ⟨-, -, _, rfl, _, rfl, _, rfl, _, rfl, _, rfl, rfl⟩
    rfl

theorem checks_validateLocalMailTemplate (raw : RawDestinationTemplateConfig)
    (flowName : String) :
    ChecksField (validateLocalMailTemplate crates source path raw flowName)
      (raw.LocalMailValid crates) (· = raw.localMail) := by
  refine ((checks_rejectCrossKindTemplateFields _ _ _ _).bind fun _ =>
    (checks_compileTemplateField _ _ _).bind fun a =>
    (checks_compileTemplateField _ _ _).bind fun b => Checks.value _).imp ?_ fun _ => ⟨?_, rfl⟩
  · simp only [List.forall_mem_cons, List.not_mem_nil, false_imp_iff, implies_true, and_true]
    exact ⟨fun ⟨⟨h₁, h₂, h₃, h₄, h₅⟩, h₆, h₇⟩ => ⟨h₁, h₂, h₃, h₄, h₅, h₆, h₇⟩,
      fun ⟨h₁, h₂, h₃, h₄, h₅, h₆, h₇⟩ => ⟨⟨h₁, h₂, h₃, h₄, h₅⟩, h₆, h₇⟩⟩
  · rintro _ ⟨-, -, _, rfl, _, rfl, rfl⟩
    rfl

theorem checks_validateLocalMailUser (userStr : String) (userLine : Nat) (flowName : String) :
    ChecksField (validateLocalMailUser crates path userStr userLine flowName)
      (NameOk MAX_LOCAL_MAIL_USER_LEN userStr) fun _ => True := by
  unfold validateLocalMailUser
  by_cases hempty : userStr = ""
  · simp only [if_pos hempty]
    exact (Checks.push _).invalid id fun h => h.nonempty hempty
  · simp only [if_neg hempty]
    by_cases hlen : userStr.utf8ByteSize > MAX_LOCAL_MAIL_USER_LEN
    · simp only [if_pos hlen]
      exact (Checks.push _).invalid id fun h => Nat.not_lt.mpr h.short hlen
    · simp only [if_neg hlen]
      refine (Checks.rejectSome _ _).imp ?_ fun _ => ⟨fun _ _ => trivial, rfl⟩
      rw [find?_eq_none_iff]
      exact ⟨fun h => ⟨hempty, Nat.not_lt.mp hlen, h⟩, fun h => h.chars⟩

theorem checks_requireUser (user : Option (Spanned String)) (kindLine : Nat)
    (flowName : String) :
    ChecksField (requireUser source path user kindLine flowName) (user.isSome = true)
      fun v => user.map Spanned.value = some v.1 := by
  cases user with
  | none => exact .fails _ _ (by simp)
  | some s => exact .returns rfl rfl

theorem checks_validateDiscord (raw : RawDestination) (kindLine : Nat) (flowName : String)
    (hkind : raw.kind.value = "discord_webhook") :
    Checks Tables.record (validateDiscord crates source path raw kindLine flowName)
      (raw.DiscordValid crates) (noted source flowName raw.credentialId) raw.Gives := by
  refine ((Checks.rejectSome raw.user _).bind fun _ =>
    (checks_requireCredentialId raw.credentialId _ _ _).bind fun a =>
    (checks_fireOnOrDefault raw.fireOn _ _).bind fun b =>
    (checks_validateDiscordTemplate raw.template _).bind fun c =>
    Checks.value _).imp ?_ fun _ => ⟨?_, by simp⟩
  · exact ⟨fun ⟨h₁, h₂, h₃, h₄, _⟩ => ⟨hkind, h₁, h₂, h₃, h₄⟩,
      fun ⟨_, h₁, h₂, h₃, h₄⟩ => ⟨h₁, h₂, h₃, h₄, trivial⟩⟩
  · rintro _ ⟨-, -, a, ⟨ha, hid⟩, _, rfl, _, rfl, rfl⟩
    obtain ⟨id, rfl⟩ := Option.isSome_iff_exists.mp ha
    exact ⟨hkind, hid.symm, rfl, rfl⟩

theorem checks_validateLocalMail (raw : RawDestination) (kindLine : Nat) (flowName : String)
    (hkind : raw.kind.value = "local_mail") :
    Checks Tables.record (validateLocalMail crates source path raw kindLine flowName)
      (raw.LocalMailValid crates) (noted source flowName raw.credentialId) raw.Gives := by
  have huser : ∀ u : String × Nat, raw.user.map Spanned.value = some u.1 →
      (NameOk MAX_LOCAL_MAIL_USER_LEN u.1 ↔
        ∃ s, raw.user = some s ∧ NameOk MAX_LOCAL_MAIL_USER_LEN s.value) := by
    intro u hu
    obtain ⟨s, hs, hval⟩ := Option.map_eq_some_iff.mp hu
    simp [hs, hval]
  refine ((Checks.rejectSome raw.credentialId _).bind fun _ =>
    (checks_requireUser raw.user kindLine flowName).bindOn (fun u =>
      (checks_validateLocalMailUser u.1 u.2 flowName).bind fun _ =>
      (checks_fireOnOrDefault raw.fireOn _ _).bind fun b =>
      (checks_validateLocalMailTemplate raw.template _).bind fun c => Checks.value _)
      fun _ u hu => ⟨and_congr_left fun _ => huser u hu, rfl⟩).imp ?_ fun h => ⟨?_, ?_⟩
  · constructor
    · rintro ⟨h₁, -, h₂, h₃, h₄, -⟩
      exact ⟨hkind, h₁, h₂, h₃, h₄⟩
    · rintro ⟨-, h₁, h₂, h₃, h₄⟩
      refine ⟨h₁, ?_, h₂, h₃, h₄, trivial⟩
      obtain ⟨s, hs, -⟩ := h₂
      rw [hs]
      rfl
  · rintro _ ⟨-, -, u, hu, -, -, _, rfl, _, rfl, rfl⟩
    exact ⟨hkind, hu, rfl, rfl⟩
  · rw [h.credentialId]
    rfl

theorem checks_validateDestination (flowName : String) (dest : RawDestination) :
    Checks Tables.record (validateDestination crates source path flowName dest)
      (dest.Valid crates) (noted source flowName dest.credentialId)
      fun o => ∃ d, o = some d ∧ dest.Gives d := by
  unfold validateDestination
  by_cases hdiscord : dest.kind.value = "discord_webhook"
  · simp only [if_pos hdiscord]
    have hmail : ¬dest.LocalMailValid crates := fun h => by
      have hne := h.kind.symm.trans hdiscord
      exact absurd hne (by decide)
    refine ((checks_validateDiscord dest _ flowName hdiscord).bind fun d =>
      Checks.value _).imp ?_ fun _ => ⟨?_, by simp⟩
    · simp [RawDestination.Valid, hmail]
    · rintro _ ⟨d, hd, rfl⟩
      exact ⟨d, rfl, hd⟩
  · simp only [if_neg hdiscord]
    have hno : ¬dest.DiscordValid crates := fun h => hdiscord h.kind
    by_cases hmail : dest.kind.value = "local_mail"
    · simp only [if_pos hmail]
      refine ((checks_validateLocalMail dest _ flowName hmail).bind fun d =>
        Checks.value _).imp ?_ fun _ => ⟨?_, by simp⟩
      · simp [RawDestination.Valid, hno]
      · rintro _ ⟨d, hd, rfl⟩
        exact ⟨d, rfl, hd⟩
    · simp only [if_neg hmail]
      exact .fails _ _ fun h => h.elim hno fun h => hmail h.kind

theorem checks_validateDestinations (raw : List RawDestination) (flowName : String) :
    Checks Tables.record (validateDestinations crates source path raw flowName)
      (∀ dest ∈ raw, dest.Valid crates)
      (raw.flatMap fun dest => noted source flowName dest.credentialId)
      (List.Forall₂ RawDestination.Gives raw) := by
  refine ((Checks.forEach raw fun dest _ => checks_validateDestination flowName dest).bind
    fun out => Checks.value _).imp (and_true _).to_iff fun _ => ⟨?_, by simp⟩
  rintro _ ⟨out, hout, rfl⟩
  exact forall₂_reduceOption hout

end Checks

end Gcit.Validate
