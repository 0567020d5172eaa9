import Gcit.Config.Cadence
import Gcit.Config.Destination
import Gcit.Github.Dispatcher
import Gcit.Library.Lines

/-! # Flows

The checks of one flow: its name, source, action, destinations and cadence. Every
check runs, whatever the ones before it found, and an invalid part stands in the
answer as an empty text or as the id `placeholder`.
-/

namespace Gcit.Validate

open Std Gcit Gcit.Git Gcit.Github Gcit.Library Gcit.Library.OrderedMap Gcit.Library.Validation

def ALLOWED_SCHEMES : List String := ["http", "https", "ssh", "git", "file"]

/-- Exactly one `/`, with something on both sides. -/
def ownerRepo (s : String) : Bool :=
  match s.toList.splitOn '/' with
  | [owner, repo] => !owner.isEmpty && !repo.isEmpty
  | _ => false

variable (crates : Crates) (source path : String)

def validateFlowName (spanned : Spanned String) : Checking Bool :=
  let name := spanned.value
  let line := spanLine source spanned
  if name = "" then do
    push (validateErr path [line] none "flow.name" name "flow.name must be non-empty"
      "use a descriptive name like 'linux-mainline-ci'")
    return false
  else if name.utf8ByteSize > MAX_FLOW_NAME_LEN then do
    push (validateErr path [line] (some name) "flow.name" name
      s!"flow.name is {name.utf8ByteSize} chars; max is {MAX_FLOW_NAME_LEN}"
      s!"shorten to {MAX_FLOW_NAME_LEN} chars or fewer")
    return false
  else match name.toList.find? fun ch => !nameChar ch with
    | some ch => do
      push (validateErr path [line] (some name) "flow.name" name
        ("flow.name contains invalid character " ++ crates.charDebug ch ++
          "; allowed: A-Z a-z 0-9 _ -") "use only A-Z, a-z, 0-9, '_', and '-'")
      return false
    | none => return true

def validateUrl (url : Spanned String) (flowName : String) : Checking Unit :=
  let err := validateErr path [spanLine source url] (some flowName) "source.url" url.value
  match crates.urlParse url.value with
  | .error e => push (err ("source.url is not a valid URL: " ++ e)
      "use a full URL like 'https://github.com/owner/repo.git'")
  | .ok parsed => rejectIf (parsed.scheme ∉ ALLOWED_SCHEMES) (err
      ("source.url has unsupported scheme '" ++ parsed.scheme ++ "'; allowed: " ++
        ", ".intercalate ALLOWED_SCHEMES)
      ("use one of: " ++ ", ".intercalate (ALLOWED_SCHEMES.map (· ++ "://"))))

def validateRef (field flowName : String) (refName : Spanned String) : Checking Unit :=
  rejectIf (startsWith refName.value "refs/" = false)
    (validateErr path [spanLine source refName] (some flowName) field refName.value
      (field ++ " must start with 'refs/'")
      ("use 'refs/heads/" ++ refName.value ++ "' for a branch"))

def validateSource (raw : RawSourceConfig) (flowName : String) : Checking SourceConfig := do
  validateUrl crates source path raw.url flowName
  validateRef source path "source.ref" flowName raw.refName
  let credentialId ← optionalCredentialId crates source path raw.credentialId
    "source.credential_id" flowName
  return { url := raw.url.value, refName := raw.refName.value, credentialId := credentialId }

def requireField (spanned : Option (Spanned String)) (field flowName : String)
    (fallbackLine : Nat) : Checking String :=
  match spanned with
  | some s => return s.value
  | none => do
    push (validateErr path [fallbackLine] (some flowName) field "<missing>"
      s!"{field} is required" s!"add {field} = \"...\" to the relevant table")
    return ""

def validateRepo (flowName : String) (repo : Spanned String) : Checking Unit :=
  rejectIf (ownerRepo repo.value = false)
    (validateErr path [spanLine source repo] (some flowName) "action.repo" repo.value
      "action.repo must match owner/repo (exactly one '/', both sides non-empty)"
      "use the form 'owner/repo' (for example, 'octocat/hello-world')")

def validateWorkflow (flowName : String) (workflow : Spanned String) : Checking Unit :=
  let s := workflow.value
  let err := validateErr path [spanLine source workflow] (some flowName) "action.workflow" s
  if s = "" then
    push (err "action.workflow must be non-empty" "use the workflow file name like 'ci.yml'")
  else rejectIf ((textContains s "/" || textContains s "\\" || textContains s "..") = true)
    (err "action.workflow must not contain '/', '\\', or '..'"
      "use a bare file name like 'ci.yml' (no directory components)")

def validateAction (raw : RawActionConfig) (flowName : String) : Checking ActionConfig :=
  let kindLine := spanLine source raw.kind
  if raw.kind.value = "github_workflow_dispatch" then do
    let repo ← requireField path raw.repo "action.repo" flowName kindLine
    let workflow ← requireField path raw.workflow "action.workflow" flowName kindLine
    let refName ← requireField path raw.refName "action.ref" flowName kindLine
    onSome raw.repo (validateRepo source path flowName)
    onSome raw.workflow (validateWorkflow source path flowName)
    onSome raw.refName (validateRef source path "action.ref" flowName)
    let cid ← requireCredentialId crates source path raw.credentialId "action.credential_id"
      flowName
      (validateErr path [kindLine] (some flowName) "action.credential_id" "<missing>"
        "action.credential_id is required for github_workflow_dispatch"
        "add credential_id = \"<id>\" under [flow.action]")
    rejectSome raw.inputs[GCIT_RUN_ID_INPUT]? fun operatorValue =>
      validateErr path [kindLine] (some flowName) s!"action.inputs.{GCIT_RUN_ID_INPUT}"
        operatorValue
        (s!"action.inputs may not contain `{GCIT_RUN_ID_INPUT}`; gcit injects this key " ++
          "automatically at dispatch time (the value you supplied would be silently overwritten)")
        (s!"remove the `{GCIT_RUN_ID_INPUT}` entry from action.inputs (gcit supplies the " ++
          "value automatically)")
    return {
      repo := repo
      workflow := workflow
      refName := refName
      credentialId := cid.getD "placeholder"
      inputs := raw.inputs }
  else do
    push (validateErr path [kindLine] (some flowName) "action.kind" raw.kind.value
      ("unknown action kind " ++ crates.strDebug raw.kind.value ++
        "; valid kinds: github_workflow_dispatch") "set kind = \"github_workflow_dispatch\"")
    return {
      repo := "", workflow := "", refName := "", credentialId := "placeholder", inputs := ∅ }

def validateFlow (raw : RawFlowConfig) (flowName : String) : Checking FlowConfig := do
  let sourceCfg ← validateSource crates source path raw.source flowName
  let actionCfg ← validateAction crates source path raw.action flowName
  let destinations ← validateDestinations crates source path raw.destination flowName
  let pollOverride ← validatePollOverride crates source path raw.poll flowName
  return {
    name := flowName
    enabled := raw.enabled
    description := raw.description
    source := sourceCfg
    action := actionCfg
    destination := destinations
    poll := pollOverride }

/-- The body of the loop over the flows. -/
def validateNamedFlow (raw : RawFlowConfig) : Checking FlowConfig := do
  let flowLine := spanLine source raw.name
  let nameOk ← validateFlowName crates source path raw.name
  noteIf nameOk fun t => { t with nameIndex := pushAt t.nameIndex raw.name.value flowLine }
  validateFlow crates source path raw raw.name.value

/-! ## What a flow must be -/

def RepoOk (s : String) : Prop :=
  ∃ owner repo, s.toList = owner ++ '/' :: repo ∧ '/' ∉ owner ∧ '/' ∉ repo ∧
    owner ≠ [] ∧ repo ≠ []

structure WorkflowOk (s : String) : Prop where
  nonempty : s ≠ ""
  slash : textContains s "/" = false
  backslash : textContains s "\\" = false
  dots : textContains s ".." = false

structure RawSourceConfig.Valid (raw : RawSourceConfig) : Prop where
  url : ∃ parsed, crates.urlParse raw.url.value = .ok parsed ∧ parsed.scheme ∈ ALLOWED_SCHEMES
  refName : startsWith raw.refName.value "refs/" = true
  credentialId : ∀ s, raw.credentialId = some s → IdOk s.value

structure RawActionConfig.Valid (raw : RawActionConfig) : Prop where
  kind : raw.kind.value = "github_workflow_dispatch"
  repo : ∃ s, raw.repo = some s ∧ RepoOk s.value
  workflow : ∃ s, raw.workflow = some s ∧ WorkflowOk s.value
  refName : ∃ s, raw.refName = some s ∧ startsWith s.value "refs/" = true
  credentialId : ∃ s, raw.credentialId = some s ∧ IdOk s.value
  inputs : raw.inputs[GCIT_RUN_ID_INPUT]? = none

structure RawFlowConfig.Valid (raw : RawFlowConfig) : Prop where
  name : NameOk MAX_FLOW_NAME_LEN raw.name.value
  source : raw.source.Valid crates
  action : raw.action.Valid
  destination : ∀ dest ∈ raw.destination, dest.Valid crates
  poll : raw.poll.Valid crates

structure RawSourceConfig.Gives (raw : RawSourceConfig) (cfg : SourceConfig) : Prop where
  url : cfg.url = raw.url.value
  refName : cfg.refName = raw.refName.value
  credentialId : cfg.credentialId = raw.credentialId.map Spanned.value

structure RawActionConfig.Gives (raw : RawActionConfig) (cfg : ActionConfig) : Prop where
  repo : raw.repo.map Spanned.value = some cfg.repo
  workflow : raw.workflow.map Spanned.value = some cfg.workflow
  refName : raw.refName.map Spanned.value = some cfg.refName
  credentialId : raw.credentialId.map Spanned.value = some cfg.credentialId
  inputs : cfg.inputs = raw.inputs

/-- `flow` says what `raw` says, field by field. -/
structure RawFlowConfig.Gives (raw : RawFlowConfig) (flow : FlowConfig) : Prop where
  name : flow.name = raw.name.value
  enabled : flow.enabled = raw.enabled
  description : flow.description = raw.description
  source : raw.source.Gives flow.source
  action : raw.action.Gives flow.action
  destination : List.Forall₂ RawDestination.Gives raw.destination flow.destination
  poll : raw.poll.Gives crates flow.poll

/-- The fields of a flow that may hold an id, in the order in which they are read. -/
def RawFlowConfig.credentialFields (raw : RawFlowConfig) : List (Option (Spanned String)) :=
  raw.source.credentialId :: raw.action.credentialId ::
    raw.destination.map RawDestination.credentialId

def RawFlowConfig.notes (raw : RawFlowConfig) : List Noted :=
  .name raw.name.value (spanLine source raw.name) ::
    raw.credentialFields.flatMap (noted source raw.name.value)

/-! ## What the validators check -/

section Checks

variable {crates source path}

theorem ownerRepo_iff {s : String} : ownerRepo s = true ↔ RepoOk s := by
  constructor
  · intro h
    unfold ownerRepo at h
    split at h
    case h_1 owner repo hsplit =>
      obtain ⟨htext, howner, hrepo⟩ := Lines.splitOn_eq_pair_iff.mp hsplit
      simp only [Bool.and_eq_true, Bool.not_eq_true', List.isEmpty_eq_false_iff] at h
      exact ⟨owner, repo, htext, howner, hrepo, h.1, h.2⟩
    case h_2 => cases h
  · rintro ⟨owner, repo, htext, howner, hrepo, hne, hne'⟩
    have hsplit := Lines.splitOn_eq_pair_iff.mpr ⟨htext, howner, hrepo⟩
    simp [ownerRepo, hsplit, hne, hne']

theorem RepoOk.splitRepo {s : String} (h : RepoOk s) : ∃ owner repo,
    splitRepo s = .ok (owner, repo) ∧ s = owner ++ "/" ++ repo ∧ '/' ∉ owner.toList ∧
      '/' ∉ repo.toList := by
  obtain ⟨owner, repo, htext, howner, hrepo, hne, hne'⟩ := h
  have hstop : ∀ c ∈ owner, (c != '/') = true := by
    intro c hc
    rw [bne_iff_ne]
    rintro rfl
    exact howner hc
  have htake : s.toList.takeWhile (· != '/') = owner := by
    rw [htext, List.takeWhile_append_of_pos hstop]
    simp
  have hdrop : (s.toList.dropWhile (· != '/')).drop 1 = repo := by
    rw [htext, List.dropWhile_append_of_pos hstop]
    simp
  have hempty : ∀ l : List Char, l ≠ [] → String.ofList l ≠ "" := fun l hl he =>
    hl (by simpa using congrArg String.toList he)
  refine ⟨String.ofList owner, String.ofList repo, ?_, ?_, ?_, ?_⟩
  · simp only [Github.splitRepo, htake, hdrop]
    rw [if_neg (not_or.mpr ⟨hempty owner hne, hempty repo hne'⟩)]
  · rw [← String.toList_inj, htext]
    simp
  · rwa [String.toList_ofList]
  · rwa [String.toList_ofList]

theorem checks_validateFlowName (spanned : Spanned String) :
    ChecksField (validateFlowName crates source path spanned)
      (NameOk MAX_FLOW_NAME_LEN spanned.value) (· = true) := by
  simp only [validateFlowName]
  by_cases hempty : spanned.value = ""
  · simp only [if_pos hempty]
    exact .fails _ _ fun h => h.nonempty hempty
  · simp only [if_neg hempty]
    by_cases hlen : spanned.value.utf8ByteSize > MAX_FLOW_NAME_LEN
    · simp only [if_pos hlen]
      exact .fails _ _ fun h => Nat.not_lt.mpr h.short hlen
    · simp only [if_neg hlen]
      cases hfind : spanned.value.toList.find? fun ch => !nameChar ch with
      | none => exact .returns ⟨hempty, Nat.not_lt.mp hlen, find?_eq_none_iff.mp hfind⟩ rfl
      | some ch =>
        refine .fails _ _ fun h => ?_
        rw [find?_eq_none_iff.mpr h.chars] at hfind
        cases hfind

theorem checks_validateUrl (url : Spanned String) (flowName : String) :
    ChecksField (validateUrl crates source path url flowName)
      (∃ parsed, crates.urlParse url.value = .ok parsed ∧ parsed.scheme ∈ ALLOWED_SCHEMES)
      fun _ => True := by
  simp only [validateUrl]
  cases hparse : crates.urlParse url.value with
  | error e => exact (Checks.push _).invalid id (by simp)
  | ok parsed => exact (Checks.rejectIf _ _).imp (by simp) fun _ => ⟨fun _ h => h, rfl⟩

theorem checks_validateRef (field flowName : String) (refName : Spanned String) :
    ChecksField (validateRef source path field flowName refName)
      (startsWith refName.value "refs/" = true) fun _ => True :=
  (Checks.rejectIf _ _).imp (by simp) fun _ => ⟨fun _ h => h, rfl⟩

theorem checks_optionalCredentialId (credentialId : Option (Spanned String))
    (field flowName : String) :
    Checks Tables.record (optionalCredentialId crates source path credentialId field flowName)
      (∀ s, credentialId = some s → IdOk s.value) (noted source flowName credentialId)
      (· = credentialId.map Spanned.value) := by
  cases credentialId with
  | none => exact .returns (by simp) rfl
  | some s => exact (checks_validateCredentialId s _ _).imp (by simp) fun _ => ⟨fun _ h => h, rfl⟩

theorem checks_validateSource (raw : RawSourceConfig) (flowName : String) :
    Checks Tables.record (validateSource crates source path raw flowName) (raw.Valid crates)
      (noted source flowName raw.credentialId) raw.Gives := by
  refine ((checks_validateUrl raw.url flowName).bind fun _ =>
    (checks_validateRef _ flowName raw.refName).bind fun _ =>
    (checks_optionalCredentialId raw.credentialId _ _).bind fun c =>
    Checks.value _).imp ?_ fun _ => ⟨?_, by simp⟩
  · exact ⟨fun ⟨h₁, h₂, h₃, _⟩ => ⟨h₁, h₂, h₃⟩, fun ⟨h₁, h₂, h₃⟩ => ⟨h₁, h₂, h₃, trivial⟩⟩
  · rintro _ ⟨-, -, -, -, c, hc, rfl⟩
    exact ⟨rfl, rfl, hc⟩

theorem checks_requireField (spanned : Option (Spanned String)) (field flowName : String)
    (fallbackLine : Nat) :
    ChecksField (requireField path spanned field flowName fallbackLine) (∃ s, spanned = some s)
      fun v => spanned.map Spanned.value = some v := by
  cases spanned with
  | none => exact .fails _ _ (by simp)
  | some s => exact .returns ⟨s, rfl⟩ rfl

theorem checks_validateRepo (flowName : String) (repo : Spanned String) :
    ChecksField (validateRepo source path flowName repo) (RepoOk repo.value) fun _ => True :=
  (Checks.rejectIf _ _).imp (by rw [← ownerRepo_iff]; simp) fun _ => ⟨fun _ h => h, rfl⟩

theorem checks_validateWorkflow (flowName : String) (workflow : Spanned String) :
    ChecksField (validateWorkflow source path flowName workflow) (WorkflowOk workflow.value)
      fun _ => True := by
  simp only [validateWorkflow]
  by_cases hempty : workflow.value = ""
  · simp only [if_pos hempty]
    exact (Checks.push _).invalid id fun h => h.nonempty hempty
  · simp only [if_neg hempty]
    refine (Checks.rejectIf _ _).imp ?_ fun _ => ⟨fun _ h => h, rfl⟩
    simp only [Bool.or_eq_true, not_or, Bool.not_eq_true]
    exact ⟨fun ⟨⟨h₁, h₂⟩, h₃⟩ => ⟨hempty, h₁, h₂, h₃⟩, fun ⟨_, h₁, h₂, h₃⟩ => ⟨⟨h₁, h₂⟩, h₃⟩⟩

theorem exists_some_and_iff {α : Type} {field : Option α} {R : α → Prop} :
    (∃ a, field = some a ∧ R a) ↔ (∃ a, field = some a) ∧ ∀ a, field = some a → R a := by
  cases field with
  | none => simp
  | some a => simp

theorem checks_validateAction (raw : RawActionConfig) (flowName : String) :
    Checks Tables.record (validateAction crates source path raw flowName) raw.Valid
      (noted source flowName raw.credentialId) raw.Gives := by
  simp only [validateAction]
  by_cases hkind : raw.kind.value = "github_workflow_dispatch"
  · simp only [if_pos hkind]
    refine ((checks_requireField raw.repo _ _ _).bind fun repo =>
      (checks_requireField raw.workflow _ _ _).bind fun workflow =>
      (checks_requireField raw.refName _ _ _).bind fun refName =>
      (Checks.onSome raw.repo fun s => checks_validateRepo flowName s).bind fun _ =>
      (Checks.onSome raw.workflow fun s => checks_validateWorkflow flowName s).bind fun _ =>
      (Checks.onSome raw.refName fun s => checks_validateRef _ flowName s).bind fun _ =>
      (checks_requireCredentialId raw.credentialId _ _ _).bind fun cid =>
      (Checks.rejectSome raw.inputs[GCIT_RUN_ID_INPUT]? _).bind fun _ =>
      Checks.value _).imp ?_ fun _ => ⟨?_, by simp⟩
    · constructor
      · rintro ⟨h₁, h₂, h₃, h₄, h₅, h₆, h₇, h₈, -⟩
        exact ⟨hkind, exists_some_and_iff.mpr ⟨h₁, h₄⟩, exists_some_and_iff.mpr ⟨h₂, h₅⟩,
          exists_some_and_iff.mpr ⟨h₃, h₆⟩, h₇, h₈⟩
      · rintro ⟨-, hrepo, hworkflow, href, hcid, hinputs⟩
        obtain ⟨h₁, h₄⟩ := exists_some_and_iff.mp hrepo
        obtain ⟨h₂, h₅⟩ := exists_some_and_iff.mp hworkflow
        obtain ⟨h₃, h₆⟩ := exists_some_and_iff.mp href
        exact ⟨h₁, h₂, h₃, h₄, h₅, h₆, hcid, hinputs, trivial⟩
    · rintro _ ⟨repo, hrepo, workflow, hworkflow, refName, href, -, -, -, -, -, -, cid,
        ⟨hsome, hcid⟩, -, -, rfl⟩
      obtain ⟨id, rfl⟩ := Option.isSome_iff_exists.mp hsome
      exact ⟨hrepo, hworkflow, href, hcid.symm, rfl⟩
  · simp only [if_neg hkind]
    exact .fails _ _ fun h => hkind h.kind

theorem checks_validateFlow (raw : RawFlowConfig) (flowName : String) :
    Checks Tables.record (validateFlow crates source path raw flowName)
      (raw.source.Valid crates ∧ raw.action.Valid ∧ (∀ dest ∈ raw.destination, dest.Valid crates) ∧
        raw.poll.Valid crates)
      (raw.credentialFields.flatMap (noted source flowName))
      fun flow => flow.name = flowName ∧ flow.enabled = raw.enabled ∧
        flow.description = raw.description ∧ raw.source.Gives flow.source ∧
        raw.action.Gives flow.action ∧
        List.Forall₂ RawDestination.Gives raw.destination flow.destination ∧
        raw.poll.Gives crates flow.poll := by
  refine ((checks_validateSource raw.source flowName).bind fun a =>
    (checks_validateAction raw.action flowName).bind fun b =>
    (checks_validateDestinations raw.destination flowName).bind fun c =>
    (checks_validatePollOverride raw.poll flowName).bind fun d =>
    Checks.value _).imp (by simp) fun _ => ⟨?_, ?_⟩
  · rintro _ ⟨a, ha, b, hb, c, hc, d, hd, rfl⟩
    exact ⟨rfl, rfl, rfl, ha, hb, hc, hd⟩
  · simp [RawFlowConfig.credentialFields, List.flatMap_map]

theorem checks_validateNamedFlow (raw : RawFlowConfig) :
    Checks Tables.record (validateNamedFlow crates source path raw) (raw.Valid crates)
      (raw.notes source) (raw.Gives crates) := by
  refine ((checks_validateFlowName raw.name).bindOn (fun nameOk =>
    (Checks.noteIf nameOk (Noted.name raw.name.value (spanLine source raw.name))
      fun t => rfl).bind fun _ => checks_validateFlow raw raw.name.value)
    fun _ nameOk hok => ⟨Iff.rfl, by rw [hok]; rfl⟩).imp ?_ fun _ => ⟨?_, rfl⟩
  · exact ⟨fun ⟨h₁, _, h₂, h₃, h₄, h₅⟩ => ⟨h₁, h₂, h₃, h₄, h₅⟩,
      fun ⟨h₁, h₂, h₃, h₄, h₅⟩ => ⟨h₁, trivial, h₂, h₃, h₄, h₅⟩⟩
  · rintro flow ⟨-, -, -, -, h₁, h₂, h₃, h₄, h₅, h₆, h₇⟩
    exact ⟨h₁, h₂, h₃, h₄, h₅, h₆, h₇⟩

end Checks

end Gcit.Validate
