import Gcit.Config.Flow
import Mathlib.Data.List.Dedup

/-! # Validation

`validate` runs the checks of the two sections and of every flow over one list of
errors, then looks for names and environment variables that several flows claim.
It answers a configuration exactly if no check found anything; that configuration
says what the raw one says.
-/

namespace Gcit.Validate

open Std Gcit Gcit.Git Gcit.Github Gcit.Library Gcit.Library.OrderedMap Gcit.Library.Validation

structure LogConfig where
  filter : Option String := none
  deriving DecidableEq

/-- The configuration with what only logging, the HTTP client and error positions use. -/
structure ValidConfig extends Config where
  sourcePath : String
  log : LogConfig
  http : HttpConfig
  credentialLines : ExtTreeMap CredentialId (List Nat)

/-- `sort` and `dedup`. -/
def sortDedup {α : Type} [DecidableEq α] (le : α → α → Bool) (xs : List α) : List α :=
  (xs.mergeSort le).dedup

variable (crates : Crates) (source path : String)

def noFlow : ConfigError :=
  validateErr path [] none "flow" "[]" "at least one flow is required"
    "add a [[flow]] block with name, source, and action"

/-- That there is a flow, and the loop over the flows. -/
def validateFlows (raw : List RawFlowConfig) : Checking (List FlowConfig) := do
  rejectIf (raw.isEmpty = true) (noFlow path)
  forEach (validateNamedFlow crates source path) raw

def validateSections (raw : RawConfig) : Checking (PollDefaults × HttpConfig × List FlowConfig) := do
  let poll ← validatePollDefaults crates source path raw.poll
  let http ← validateHttp crates source path raw.http
  let flows ← validateFlows crates source path raw.flow
  return (poll, http, flows)

def duplicateNames (nameIndex : ExtTreeMap String (List Nat)) : List ConfigError :=
  nameIndex.toList.filterMap fun (name, lines) =>
    if lines.length > 1 then
      some (validateErr path lines (some name) "flow.name" name
        s!"duplicate flow name; {lines.length} occurrences"
        "rename each occurrence so flow names are unique")
    else none

def credentialCollisions (envVarIndex : ExtTreeMap String (List (String × Nat × String))) :
    List ConfigError :=
  envVarIndex.toList.filterMap fun (env, occurrences) =>
    let distinctIds := sortDedup (fun a b => decide (a ≤ b)) (occurrences.map Prod.fst)
    if distinctIds.length > 1 then
      some (validateErr path
        (sortDedup (fun a b => decide (a ≤ b)) (occurrences.map fun o => o.2.1)) none
        "credential_id" (", ".intercalate distinctIds)
        ("credential_id collision: ids map to the same env var " ++ env ++
          " (rule: uppercase + s/-/_/)")
        ("rename so each id maps to a unique env var (current rule: " ++
          "id.uppercase().replace('-','_'))"))
    else none

def findings (raw : RawConfig) : List ConfigError :=
  let pass := ((validateSections crates source path raw).run ⟨[], .empty⟩).2
  pass.errors ++ duplicateNames path pass.tables.nameIndex ++
    credentialCollisions path pass.tables.envVarIndex

/-! ## What a configuration must be -/

def RawConfig.credentialIds (raw : RawConfig) : List CredentialId :=
  raw.flow.flatMap fun f => f.credentialFields.filterMap (·.map Spanned.value)

structure RawConfig.SectionsValid (raw : RawConfig) : Prop where
  poll : raw.poll.Valid crates
  http : raw.http.Valid crates
  nonempty : raw.flow ≠ []
  flow : ∀ f ∈ raw.flow, f.Valid crates

structure RawConfig.Valid (raw : RawConfig) : Prop extends raw.SectionsValid crates where
  names : (raw.flow.map fun f => f.name.value).Nodup
  credentials : ∀ a ∈ raw.credentialIds, ∀ b ∈ raw.credentialIds, toEnvVar a = toEnvVar b → a = b

section Tables

/-- The line that an item files under a flow name. -/
def nameLine (name : String) : Noted → Option Nat
  | .name n line => if n = name then some line else none
  | .credential _ _ _ => none

def occurrence (env : String) : Noted → Option (String × Nat × String)
  | .credential id line flow => if toEnvVar id = env then some (id, line, flow) else none
  | .name _ _ => none

theorem nameIndex_foldl (items : List Noted) (t : Tables) (name : String) :
    (items.foldl Tables.record t).nameIndex[name]?.getD [] =
      t.nameIndex[name]?.getD [] ++ items.filterMap (nameLine name) := by
  induction items generalizing t with
  | nil => simp
  | cons item items ih =>
    rw [List.foldl_cons, ih, List.filterMap_cons]
    cases item with
    | credential id line flow => rfl
    | name n line =>
      have hpush : (t.record (.name n line)).nameIndex[name]?.getD [] =
          t.nameIndex[name]?.getD [] ++ if n = name then [line] else [] :=
        getD_pushAt t.nameIndex n name line
      rw [hpush, nameLine]
      by_cases h : n = name
      · simp [h]
      · simp [h]

theorem envVarIndex_foldl (items : List Noted) (t : Tables) (env : String) :
    (items.foldl Tables.record t).envVarIndex[env]?.getD [] =
      t.envVarIndex[env]?.getD [] ++ items.filterMap (occurrence env) := by
  induction items generalizing t with
  | nil => simp
  | cons item items ih =>
    rw [List.foldl_cons, ih, List.filterMap_cons]
    cases item with
    | name n line => rfl
    | credential id line flow =>
      have hpush : (t.record (.credential id line flow)).envVarIndex[env]?.getD [] =
          t.envVarIndex[env]?.getD [] ++ if toEnvVar id = env then [(id, line, flow)] else [] :=
        getD_pushAt t.envVarIndex (toEnvVar id) env (id, line, flow)
      rw [hpush, occurrence]
      by_cases h : toEnvVar id = env
      · simp [h]
      · simp [h]

variable {path}

theorem filterMap_nameLine_noted (name flowName : String) (field : Option (Spanned String)) :
    (noted source flowName field).filterMap (nameLine name) = [] := by
  cases field with
  | none => rfl
  | some s => rfl

theorem length_filterMap_nameLine (flows : List RawFlowConfig) (name : String) :
    ((flows.flatMap (RawFlowConfig.notes source)).filterMap (nameLine name)).length =
      (flows.map fun f => f.name.value).count name := by
  induction flows with
  | nil => rfl
  | cons f flows ih =>
    have hrest : (f.credentialFields.flatMap (noted source f.name.value)).filterMap
        (nameLine name) = [] := by
      rw [List.filterMap_flatMap]
      simp [filterMap_nameLine_noted source]
    rw [List.flatMap_cons, List.filterMap_append, List.length_append, ih, List.map_cons,
      List.count_cons, RawFlowConfig.notes, List.filterMap_cons, hrest, nameLine]
    by_cases h : f.name.value = name
    · simp [h, Nat.add_comm]
    · simp [h]

theorem map_fst_filterMap_occurrence (flows : List RawFlowConfig) (env : String) :
    ((flows.flatMap (RawFlowConfig.notes source)).filterMap (occurrence env)).map Prod.fst =
      (flows.flatMap fun f => f.credentialFields.filterMap (·.map Spanned.value)).filter
        fun id => toEnvVar id = env := by
  have hfield : ∀ (flowName : String) (fields : List (Option (Spanned String))),
      ((fields.flatMap (noted source flowName)).filterMap (occurrence env)).map Prod.fst =
        (fields.filterMap (·.map Spanned.value)).filter fun id => toEnvVar id = env := by
    intro flowName fields
    induction fields with
    | nil => rfl
    | cons field fields ih =>
      cases field with
      | none => exact ih
      | some s =>
        rw [List.flatMap_cons, List.filterMap_append, List.map_append, ih]
        by_cases h : toEnvVar s.value = env
        · simp [noted, occurrence, h]
        · simp [noted, occurrence, h]
  induction flows with
  | nil => rfl
  | cons f flows ih =>
    rw [List.flatMap_cons, List.filterMap_append, List.map_append, ih, List.flatMap_cons,
      List.filter_append, RawFlowConfig.notes, List.filterMap_cons, occurrence, hfield]

theorem sortDedup_length_le_one_iff {α : Type} [DecidableEq α] (le : α → α → Bool)
    {xs : List α} : (sortDedup le xs).length ≤ 1 ↔ ∀ a ∈ xs, ∀ b ∈ xs, a = b := by
  have hmem : ∀ a, a ∈ sortDedup le xs ↔ a ∈ xs := fun a => by simp [sortDedup]
  have hnodup : (sortDedup le xs).Nodup := List.nodup_dedup _
  simp only [← hmem]
  generalize sortDedup le xs = ys at hnodup
  match ys, hnodup with
  | [], _ => simp
  | [y], _ => simp
  | y :: z :: ys, h =>
    have hne : y ≠ z := fun he => (List.nodup_cons.mp h).1 (he ▸ List.mem_cons_self)
    simp only [List.length_cons, Nat.reduceLeDiff, false_iff]
    exact fun hall => hne (hall y (by simp) z (by simp))

theorem duplicateNames_eq_nil_iff {nameIndex : ExtTreeMap String (List Nat)} :
    duplicateNames path nameIndex = [] ↔ ∀ name : String, (nameIndex[name]?.getD []).length ≤ 1 := by
  refine Iff.trans ?_ (forall_toList_iff (p := fun _ (lines : List Nat) => lines.length ≤ 1)
    fun _ => by simp)
  simp [duplicateNames, List.filterMap_eq_nil_iff]

theorem credentialCollisions_eq_nil_iff
    {envVarIndex : ExtTreeMap String (List (String × Nat × String))} :
    credentialCollisions path envVarIndex = [] ↔ ∀ env : String,
      ∀ a ∈ (envVarIndex[env]?.getD []).map Prod.fst,
        ∀ b ∈ (envVarIndex[env]?.getD []).map Prod.fst, a = b := by
  refine Iff.trans ?_ (forall_toList_iff (p := fun _ (os : List (String × Nat × String)) =>
    ∀ a ∈ os.map Prod.fst, ∀ b ∈ os.map Prod.fst, a = b) fun _ => by simp)
  simp only [credentialCollisions, List.filterMap_eq_nil_iff]
  refine forall_congr' fun e => forall_congr' fun _ => ?_
  rw [← sortDedup_length_le_one_iff fun a b => decide (a ≤ b)]
  by_cases h : (sortDedup (fun a b => decide (a ≤ b)) (e.2.map Prod.fst)).length > 1
  · simp [h, Nat.not_le.mpr h]
  · simp [h, Nat.not_lt.mp h]

end Tables

section Findings

variable {crates source path}

theorem checks_validateFlows (raw : List RawFlowConfig) :
    Checks Tables.record (validateFlows crates source path raw)
      (raw ≠ [] ∧ ∀ f ∈ raw, f.Valid crates) (raw.flatMap (RawFlowConfig.notes source))
      (List.Forall₂ (RawFlowConfig.Gives crates) raw) := by
  refine ((Checks.rejectIf (raw.isEmpty = true) _).bind fun _ =>
    Checks.forEach raw fun f _ => checks_validateNamedFlow f).imp ?_ fun _ => ⟨?_, rfl⟩
  · rw [List.isEmpty_iff]
  · rintro flows ⟨-, -, h⟩
    exact h

theorem checks_validateSections (raw : RawConfig) :
    Checks Tables.record (validateSections crates source path raw) (raw.SectionsValid crates)
      (raw.flow.flatMap (RawFlowConfig.notes source))
      fun v => raw.poll.Gives crates v.1 ∧ raw.http.Gives crates v.2.1 ∧
        List.Forall₂ (RawFlowConfig.Gives crates) raw.flow v.2.2 := by
  refine ((checks_validatePollDefaults raw.poll).bind fun a =>
    (checks_validateHttp raw.http).bind fun b =>
    (checks_validateFlows raw.flow).bind fun c => Checks.value _).imp ?_ fun _ => ⟨?_, by simp⟩
  · exact ⟨fun ⟨h₁, h₂, ⟨h₃, h₄⟩, _⟩ => ⟨h₁, h₂, h₃, h₄⟩, fun ⟨h₁, h₂, h₃, h₄⟩ =>
      ⟨h₁, h₂, ⟨h₃, h₄⟩, trivial⟩⟩
  · rintro _ ⟨a, ha, b, hb, c, hc, rfl⟩
    exact ⟨ha, hb, hc⟩

/-- Nothing is found wrong exactly with a valid configuration. -/
theorem findings_eq_nil_iff {raw : RawConfig} :
    findings crates source path raw = [] ↔ raw.Valid crates := by
  have hsections : Checks Tables.record (validateSections crates source path raw) _ _ _ :=
    checks_validateSections raw
  have hcross : raw.SectionsValid crates →
      (duplicateNames path ((validateSections crates source path raw).run
          ⟨[], .empty⟩).2.tables.nameIndex = [] ↔
        (raw.flow.map fun f => f.name.value).Nodup) ∧
      (credentialCollisions path ((validateSections crates source path raw).run
          ⟨[], .empty⟩).2.tables.envVarIndex = [] ↔
        ∀ a ∈ raw.credentialIds, ∀ b ∈ raw.credentialIds, toEnvVar a = toEnvVar b → a = b) := by
    intro hvalid
    obtain ⟨-, htables⟩ := hsections.run_of_valid Tables.empty hvalid
    rw [htables, duplicateNames_eq_nil_iff, credentialCollisions_eq_nil_iff]
    constructor
    · rw [List.nodup_iff_count_le_one]
      apply forall_congr'
      intro name
      rw [nameIndex_foldl, ← length_filterMap_nameLine source]
      simp [Tables.empty]
    · have hids : ∀ env : String, ((((raw.flow.flatMap (RawFlowConfig.notes source)).foldl
          Tables.record Tables.empty).envVarIndex[env]?.getD []).map Prod.fst) =
            raw.credentialIds.filter fun id => toEnvVar id = env := by
        intro env
        rw [envVarIndex_foldl, List.map_append, map_fst_filterMap_occurrence]
        simp [Tables.empty, RawConfig.credentialIds]
      simp only [hids, List.mem_filter, decide_eq_true_eq]
      constructor
      · intro h a ha b hb he
        exact h (toEnvVar b) a ⟨ha, he⟩ b ⟨hb, rfl⟩
      · rintro h env a ⟨ha, hae⟩ b ⟨hb, hbe⟩
        exact h a ha b hb (hae.trans hbe.symm)
  rw [findings, List.append_eq_nil_iff, List.append_eq_nil_iff]
  constructor
  · rintro ⟨⟨herrors, hnames⟩, hids⟩
    have hvalid := (hsections.alone_eq_nil_iff Tables.empty).mp herrors
    exact ⟨hvalid, (hcross hvalid).1.mp hnames, (hcross hvalid).2.mp hids⟩
  · rintro ⟨hvalid, hnames, hids⟩
    exact ⟨⟨(hsections.alone_eq_nil_iff Tables.empty).mpr hvalid, (hcross hvalid).1.mpr hnames⟩,
      (hcross hvalid).2.mpr hids⟩

theorem map_name_of_gives {raw : List RawFlowConfig} {flows : List FlowConfig}
    (h : List.Forall₂ (RawFlowConfig.Gives crates) raw flows) :
    flows.map FlowConfig.name = raw.map fun f => f.name.value := by
  induction h with
  | nil => rfl
  | cons hf _ ih => rw [List.map_cons, List.map_cons, hf.name, ih]

theorem distinct_of_findings {raw : RawConfig} (h : findings crates source path raw = []) :
    ((((validateSections crates source path raw).run ⟨[], .empty⟩).1.2.2).map
      FlowConfig.name).Nodup := by
  have hvalid := findings_eq_nil_iff.mp h
  obtain ⟨⟨-, -, hflows⟩, -⟩ :=
    (checks_validateSections raw).run_of_valid Tables.empty hvalid.toSectionsValid
  rw [map_name_of_gives hflows]
  exact hvalid.names

end Findings

def validate (raw : RawConfig) : Except (List ConfigError) ValidConfig :=
  let result := (validateSections crates source path raw).run ⟨[], .empty⟩
  let errors := findings crates source path raw
  if h : errors = [] then
    .ok {
      poll := result.1.1
      flow := result.1.2.2
      distinct := distinct_of_findings h
      sourcePath := path
      log := { filter := raw.log.filter }
      http := result.1.2.1
      credentialLines := result.2.tables.credentialLines.map fun _ lines =>
        sortDedup (fun a b => decide (a ≤ b)) lines }
  else .error errors

/-! ## What is promised of an accepted configuration -/

/-- `cfg` says what `raw` says; a default stands only for what `raw` leaves out. -/
structure RawConfig.Gives (raw : RawConfig) (cfg : ValidConfig) : Prop where
  poll : raw.poll.Gives crates cfg.poll
  http : raw.http.Gives crates cfg.http
  log : cfg.log.filter = raw.log.filter
  flow : List.Forall₂ (RawFlowConfig.Gives crates) raw.flow cfg.flow

abbrev Within (min max d : Duration) : Prop := min ≤ d ∧ d ≤ max

def CooldownOk (d : Duration) : Prop := d = 0 ∨ Within MIN_INTERVAL MAX_INTERVAL d

def fireOn : Destination → List FireEvent
  | .discordWebhook _ fireOn _ => fireOn
  | .localMail _ fireOn _ => fireOn

structure FlowSound (flow : FlowConfig) : Prop where
  sourceInterval : ∀ d, flow.poll.sourceInterval = some d → Within MIN_INTERVAL MAX_INTERVAL d
  jobInterval : ∀ d, flow.poll.jobInterval = some d → Within MIN_INTERVAL MAX_INTERVAL d
  cooldown : ∀ d, flow.poll.cooldown = some d → CooldownOk d
  repo : ∃ parts, splitRepo flow.action.repo = .ok parts
  inputs : flow.action.inputs[GCIT_RUN_ID_INPUT]? = none
  fireOn : ∀ dest ∈ flow.destination, (fireOn dest).Nodup

structure Sound (cfg : ValidConfig) : Prop where
  sourceInterval : ∀ d, cfg.poll.sourceInterval = some d → Within MIN_INTERVAL MAX_INTERVAL d
  jobInterval : Within MIN_INTERVAL MAX_INTERVAL cfg.poll.jobInterval
  cooldown : CooldownOk cfg.poll.cooldown
  requestTimeout : Within MIN_HTTP_TIMEOUT MAX_HTTP_TIMEOUT cfg.http.requestTimeout
  flow : ∀ f ∈ cfg.flow, FlowSound f

section Accepted

variable {crates source path}

theorem RawDestination.Gives.nodup_fireOn {raw : RawDestination} {dest : Destination}
    (hvalid : raw.Valid crates) (h : raw.Gives dest) : (Validate.fireOn dest).Nodup := by
  have hok : FireOnOk raw.fireOn := hvalid.elim (fun h => h.fireOn) fun h => h.fireOn
  have hevents : (eventsOf raw.fireOn).Nodup := by
    cases hon : raw.fireOn with
    | none => exact List.nodup_singleton _
    | some events => exact hok events hon
  cases dest with
  | discordWebhook credentialId fireOn template => exact h.2.2.1 ▸ hevents
  | localMail user fireOn template => exact h.2.2.1 ▸ hevents

theorem RawFlowConfig.Gives.sound {raw : RawFlowConfig} {flow : FlowConfig}
    (hvalid : raw.Valid crates) (h : raw.Gives crates flow) : FlowSound flow where
  sourceInterval := rel_holds h.poll.sourceInterval fun _ _ hr => hr.2
  jobInterval := rel_holds h.poll.jobInterval fun _ _ hr => hr.2
  cooldown := rel_holds h.poll.cooldown fun _ _ hr => hr.2
  repo := by
    obtain ⟨s, hs, hok⟩ := hvalid.action.repo
    have hrepo := h.action.repo
    rw [hs, Option.map_some, Option.some.injEq] at hrepo
    obtain ⟨owner, name, hsplit, -⟩ := hok.splitRepo
    exact hrepo ▸ ⟨_, hsplit⟩
  inputs := h.action.inputs ▸ hvalid.action.inputs
  fireOn := by
    intro dest hdest
    obtain ⟨r, hr, hgives⟩ := exists_of_mem_right h.destination hdest
    exact hgives.nodup_fireOn (hvalid.destination r hr)

theorem RawConfig.Gives.sound {raw : RawConfig} {cfg : ValidConfig}
    (hvalid : raw.Valid crates) (h : raw.Gives crates cfg) : Sound cfg where
  sourceInterval := rel_holds h.poll.sourceInterval fun _ _ hr => hr.2
  jobInterval := h.poll.jobInterval.holds (fun _ _ hr => hr.2) (by decide)
  cooldown := h.poll.cooldown.holds (fun _ _ hr => hr.2) (.inr (by decide))
  requestTimeout := Given.holds h.http (fun _ _ hr => hr.2) (by decide)
  flow := by
    intro f hf
    obtain ⟨r, hr, hgives⟩ := exists_of_mem_right h.flow hf
    exact hgives.sound (hvalid.flow r hr)

theorem validate_eq_error_iff {raw : RawConfig} {errs : List ConfigError} :
    validate crates source path raw = .error errs ↔
      findings crates source path raw = errs ∧ errs ≠ [] := by
  unfold validate
  by_cases h : findings crates source path raw = []
  · simp [h]
  · simp only [h, dite_false, Except.error.injEq]
    exact ⟨fun he => ⟨he, he ▸ h⟩, fun he => he.1⟩

theorem isOk_validate_iff {raw : RawConfig} :
    (∃ cfg, validate crates source path raw = .ok cfg) ↔ raw.Valid crates := by
  have hfindings : findings crates source path raw = [] ↔ raw.Valid crates := findings_eq_nil_iff
  rw [← hfindings]
  unfold validate
  by_cases h : findings crates source path raw = []
  · simp [h]
  · simp [h]

theorem gives_of_validate {raw : RawConfig} {cfg : ValidConfig}
    (h : validate crates source path raw = .ok cfg) : raw.Gives crates cfg := by
  have hvalid := isOk_validate_iff.mp ⟨cfg, h⟩
  obtain ⟨⟨hpoll, hhttp, hflows⟩, -⟩ :=
    (checks_validateSections raw).run_of_valid Tables.empty hvalid.toSectionsValid
  have hnil : findings crates source path raw = [] := findings_eq_nil_iff.mpr hvalid
  simp only [validate, hnil, dite_true, Except.ok.injEq] at h
  subst h
  exact ⟨hpoll, hhttp, rfl, hflows⟩

theorem alone_subset_validateFlows {raw : List RawFlowConfig} {f : RawFlowConfig} (hf : f ∈ raw) :
    alone .empty (validateNamedFlow crates source path f) ⊆
      alone .empty (validateFlows crates source path raw) := by
  have hflow : ∀ f, Appends (validateNamedFlow crates source path f) := fun f =>
    (checks_validateNamedFlow f).appends
  have hloop : Appends (forEach (validateNamedFlow crates source path) raw) := .forEach hflow
  obtain ⟨u, hall⟩ := alone_bind Tables.empty (rejectIf (raw.isEmpty = true) (noFlow path))
    fun _ => hloop
  rw [validateFlows, hall]
  exact List.Subset.trans (alone_subset_forEach Tables.empty hflow hf)
    (List.subset_append_right _ _)

theorem alone_subset_findings (raw : RawConfig) :
    alone .empty (validatePollDefaults crates source path raw.poll) ⊆
        findings crates source path raw ∧
      alone .empty (validateHttp crates source path raw.http) ⊆
        findings crates source path raw ∧
      ∀ f ∈ raw.flow, alone .empty (validateNamedFlow crates source path f) ⊆
        findings crates source path raw := by
  have hflows : Appends (validateFlows crates source path raw.flow) :=
    (checks_validateFlows raw.flow).appends
  have hhttp : Appends (validateHttp crates source path raw.http) :=
    (checks_validateHttp raw.http).appends
  have hrest : ∀ (poll : PollDefaults) (http : HttpConfig), Appends do
      let flows ← validateFlows crates source path raw.flow
      return (poll, http, flows) := fun poll http => hflows.bind fun flows => .value _
  obtain ⟨poll, hall⟩ := alone_bind Tables.empty (validatePollDefaults crates source path raw.poll)
    fun poll => hhttp.bind (hrest poll)
  obtain ⟨http, htail⟩ := alone_bind Tables.empty (validateHttp crates source path raw.http)
    (hrest poll)
  have herrors : alone Tables.empty (validateSections crates source path raw) =
      alone Tables.empty (validatePollDefaults crates source path raw.poll) ++
        (alone Tables.empty (validateHttp crates source path raw.http) ++
          alone Tables.empty (validateFlows crates source path raw.flow)) :=
    hall.trans (congrArg _ htail)
  have hsub : alone Tables.empty (validateSections crates source path raw) ⊆
      findings crates source path raw :=
    List.Subset.trans (List.subset_append_left _ _) (List.subset_append_left _ _)
  rw [herrors] at hsub
  obtain ⟨hpoll, hsub⟩ := List.append_subset.mp hsub
  obtain ⟨hhttp, hsub⟩ := List.append_subset.mp hsub
  exact ⟨hpoll, hhttp, fun f hf =>
    List.Subset.trans (alone_subset_validateFlows hf) hsub⟩

end Accepted

/-- Validation accepts exactly the valid configurations, its errors contain all that a section
or a flow would have reported alone, and what it accepts says what was written and is within
the bounds. -/
theorem validate_sound_complete (raw : RawConfig) :
    ((∃ cfg, validate crates source path raw = .ok cfg) ↔ raw.Valid crates) ∧
      (∀ f, alone .empty (validateNamedFlow crates source path f) = [] ↔ f.Valid crates) ∧
      (∀ errs, validate crates source path raw = .error errs →
        alone .empty (validatePollDefaults crates source path raw.poll) ⊆ errs ∧
          alone .empty (validateHttp crates source path raw.http) ⊆ errs ∧
          ∀ f ∈ raw.flow, alone .empty (validateNamedFlow crates source path f) ⊆ errs) ∧
      ∀ cfg, validate crates source path raw = .ok cfg → raw.Gives crates cfg ∧ Sound cfg := by
  refine ⟨isOk_validate_iff, fun f => ?_, fun errs h => ?_, fun cfg h => ?_⟩
  · exact (checks_validateNamedFlow f).alone_eq_nil_iff Tables.empty
  · obtain ⟨rfl, -⟩ := validate_eq_error_iff.mp h
    exact alone_subset_findings raw
  · have hvalid := isOk_validate_iff.mp ⟨cfg, h⟩
    have hgives := gives_of_validate h
    exact ⟨hgives, hgives.sound hvalid⟩

end Gcit.Validate
