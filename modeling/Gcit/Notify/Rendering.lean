import Gcit.Config.Validate
import Gcit.Notify.RenderContext

/-! # Rendering the templates of a configuration

The embed, the mail and the inputs of a dispatch render what validation accepted.
`Site` names the places a template can stand in, with the data it is given there.
The inputs are accepted unseen, and a template outside the fields of a job is
accepted with references to a job that only those fields are given.
-/

namespace Gcit.Notify

open Std Gcit Gcit.Git Gcit.Flow Gcit.Github Gcit.Library Gcit.Library.Handlebars Gcit.Validate

/-- The limits of an embed, as its crate has them. -/
structure Limits where
  titleLength : Nat
  descriptionLength : Nat
  fieldCount : Nat
  fieldNameLength : Nat
  fieldValueLength : Nat
  footerTextLength : Nat

structure RunReport extends RunSummary where
  jobs : List JobResult

structure EmbedField where
  inline : Bool
  name : String
  value : String

/-- What is always the same in an embed is left out. -/
structure Embed where
  color : Nat
  description : Option String
  fields : List EmbedField
  footer : String
  title : Option String
  url : String

def colorFor : Conclusion → Nat
  | .success => 0x3ba55d
  | .skipped => 0x747f8d
  | .neutral => 0x99aab5
  | .failure => 0xed4245
  | .timedOut => 0xfaa61a
  | .cancelled => 0x747f8d
  | .actionRequired => 0x9b59b6
  | .unknown => 0x99aab5

def COLOR_IN_PROGRESS : Nat := 0x99aab5

def shouldCollapse (c : Conclusion) : Bool := c == .success || c == .skipped || c == .neutral

def truncateCodepoints (input : String) (maxChars : Nat) : String :=
  if maxChars = 0 then ""
  else if input.length ≤ maxChars then input
  else String.ofList (input.toList.take (maxChars - 1)) ++ "…"

variable (hb : Registry) (limits : Limits) (rfc3339 : DateTime → String)

def renderAndTruncate (template : String) (data : Json) (maxChars : Nat) : Except String String :=
  (hb.renderTemplate template data).map fun rendered => truncateCodepoints rendered maxChars

def renderOptional (template : Option String) (data : Json) (maxChars : Nat) :
    Except String (Option String) :=
  match template with
  | some t => (renderAndTruncate hb t data maxChars).map some
  | none => .ok none

/-- A template, or the text that stands for one that is left out. -/
def renderOr (template : Option String) (default_ : String) (data : Json) (maxChars : Nat) :
    Except String String :=
  match template with
  | some t => renderAndTruncate hb t data maxChars
  | none => .ok (truncateCodepoints default_ maxChars)

def buildCollapsedFields (templates : DiscordTemplateConfig) (data : Json) (summary : RunReport) :
    Except String (List EmbedField) := do
  let label := conclusionLabel "complete" summary.conclusion
  let summaryText ← renderOr hb templates.collapsedSummary
    s!"{summary.jobs.length} jobs · {label}" data limits.fieldValueLength
  return [⟨false, truncateCodepoints "Summary" limits.fieldNameLength, summaryText⟩]

def buildJobField (templates : DiscordTemplateConfig) (ctx : RunContext) (summary : RunReport)
    (job : JobResult) : Except String EmbedField := do
  let jobData := renderContextWithJob rfc3339 ctx summary.toRunSummary job
  let name ← renderOr hb templates.fieldName job.name jobData limits.fieldNameLength
  let label := conclusionLabel "in progress" job.conclusion
  let value ← renderOr hb templates.fieldValue s!"[{label}]({job.htmlUrl})" jobData
    limits.fieldValueLength
  return ⟨true, name, value⟩

def buildExpandedFields (templates : DiscordTemplateConfig) (ctx : RunContext)
    (summary : RunReport) : Except String (List EmbedField) := do
  let jobs := summary.jobs
  let cap := if jobs.length > limits.fieldCount then limits.fieldCount - 1 else limits.fieldCount
  let fields ← (jobs.take cap).mapM (buildJobField hb limits rfc3339 templates ctx summary)
  let extra := jobs.length - cap
  return fields ++ if jobs.length > limits.fieldCount then
    [⟨false, truncateCodepoints "…" limits.fieldNameLength,
      truncateCodepoints s!"and {extra} more job(s)" limits.fieldValueLength⟩]
    else []

def buildFields (templates : DiscordTemplateConfig) (ctx : RunContext) (summary : RunReport)
    (data : Json) : Except String (List EmbedField) :=
  if (summary.conclusion.map shouldCollapse).getD false then
    buildCollapsedFields hb limits templates data summary
  else buildExpandedFields hb limits rfc3339 templates ctx summary

def buildRunCompleteEmbed (templates : DiscordTemplateConfig) (ctx : RunContext)
    (summary : RunReport) : Except String Embed := do
  let data := renderContext rfc3339 ctx summary.toRunSummary
  let title ← renderOptional hb templates.title data limits.titleLength
  let description ← renderOptional hb templates.description data limits.descriptionLength
  let fields ← buildFields hb limits rfc3339 templates ctx summary data
  return {
    color := (summary.conclusion.map colorFor).getD COLOR_IN_PROGRESS
    description := description
    fields := fields
    footer := truncateCodepoints
      s!"Run #{summary.runNumber} · attempt {summary.runAttempt}" limits.footerTextLength
    title := title
    url := summary.runUrl }

def defaultBody (ctx : RunContext) (summary : RunReport) : String :=
  s!"flow:       {ctx.flowName}\n" ++ s!"source:     {ctx.source.url}\n" ++
    s!"ref:        {ctx.source.refName}\n" ++ s!"sha:        {ctx.source.shaShort}\n" ++
    s!"repo:       {ctx.action.repo}\n" ++ s!"workflow:   {ctx.action.workflow}\n" ++
    s!"run id:     {summary.runId}\n" ++ s!"run url:    {summary.runUrl}\n" ++
    s!"attempt:    {summary.runAttempt}\n" ++
    "conclusion: " ++ conclusionLabel "(in progress)" summary.conclusion ++ "\n" ++
    s!"\njobs ({summary.jobs.length}):\n" ++
    String.join (summary.jobs.map fun j =>
      "  - " ++ j.name ++ " [" ++ conclusionLabel "(in progress)" j.conclusion ++ "] " ++
        j.htmlUrl ++ "\n")

def renderPart (part : String) (template : Option String) (default_ : String) (data : Json) :
    Except String String :=
  match template with
  | some t => (hb.renderTemplate t data).mapError (part ++ " render failed: " ++ ·)
  | none => .ok default_

/-- The subject and the body of the mail about a run; an error is permanent. -/
def renderMail (template : LocalMailTemplateConfig) (ctx : RunContext) (summary : RunReport) :
    Except String (String × String) := do
  let data := renderContext rfc3339 ctx summary.toRunSummary
  let subject ← renderPart hb "subject" template.subject
    ("[gcit] " ++ ctx.flowName ++ " " ++ conclusionLabel "complete" summary.conclusion) data
  let body ← renderPart hb "body" template.body (defaultBody ctx summary) data
  return (subject, body)

/-- The crates of a dispatch with this registry: inputs see the trigger and an empty run. -/
def dispatchCrates (http : HttpCrate) (formats : Formats) : DispatchCrates where
  http := http
  formats := formats
  renderTemplate text ctx := hb.renderTemplate text (renderContext rfc3339 ctx (emptyRunSummary 0))

/-! ## Where templates stand -/

inductive Site where
  | title
  | description
  | fieldName
  | fieldValue
  | collapsedSummary
  | subject
  | body
  | input (key : String)
  deriving DecidableEq

namespace Site

def context (site : Site) (ctx : RunContext) (summary : RunSummary) (job : JobResult) : Json :=
  match site with
  | .fieldName | .fieldValue => renderContextWithJob rfc3339 ctx summary job
  | .input _ => renderContext rfc3339 ctx (emptyRunSummary 0)
  | .title | .description | .collapsedSummary | .subject | .body =>
    renderContext rfc3339 ctx summary

/-- The references that the data of a place can follow, given that validation, where it looks,
let only documented variables through. -/
def Supports (site : Site) (t : Template) : Prop :=
  match site with
  | .fieldName | .fieldValue => True
  | .input _ => ∀ path ∈ references t,
      (probeContext.follow path).isSome = true ∧ path.head? ≠ some "job"
  | .title | .description | .collapsedSummary | .subject | .body =>
    ∀ path ∈ references t, path.head? ≠ some "job"

end Site

def placed (sites : List (Site × Option String)) : List (Site × String) :=
  sites.filterMap fun (site, template) => template.map fun t => (site, t)

def discordSites (t : DiscordTemplateConfig) : List (Site × String) :=
  placed [(.title, t.title), (.description, t.description), (.fieldName, t.fieldName),
    (.fieldValue, t.fieldValue), (.collapsedSummary, t.collapsedSummary)]

def localMailSites (t : LocalMailTemplateConfig) : List (Site × String) :=
  placed [(.subject, t.subject), (.body, t.body)]

def destinationSites : Destination → List (Site × String)
  | .discordWebhook _ _ template => discordSites template
  | .localMail _ _ template => localMailSites template

def inputSites (inputs : ExtTreeMap String String) : List (Site × String) :=
  inputs.toList.map fun (key, value) => (.input key, value)

def templatesOf (cfg : Config) : List (Site × String) :=
  cfg.flow.flatMap fun f => inputSites f.action.inputs ++ f.destination.flatMap destinationSites

/-- The template renders in its place, whatever trigger, run and job it is about. -/
def RendersAt (p : Site × String) : Prop :=
  ∀ (ctx : RunContext) (summary : RunSummary) (job : JobResult),
    ∃ out, hb.renderTemplate p.2 (p.1.context rfc3339 ctx summary job) = .ok out

section Runtime

variable {hb limits rfc3339}

theorem exists_bind_ok {α β : Type} {x : Except String α} {f : α → Except String β}
    (hx : ∃ a, x = .ok a) (hf : ∀ a, ∃ b, f a = .ok b) : ∃ b, (x >>= f) = .ok b := by
  obtain ⟨a, rfl⟩ := hx
  exact hf a

theorem exists_mapM_ok {α β : Type} {f : α → Except String β} {as : List α}
    (h : ∀ a ∈ as, ∃ b, f a = .ok b) : ∃ bs, as.mapM f = .ok bs := by
  induction as with
  | nil => exact ⟨[], rfl⟩
  | cons a as ih =>
    rw [List.mapM_cons]
    apply exists_bind_ok (h a List.mem_cons_self)
    intro b
    exact exists_bind_ok (ih fun c hc => h c (List.mem_cons_of_mem a hc)) fun bs => ⟨b :: bs, rfl⟩

def RendersWith (hb : Registry) (data : Json) (template : Option String) : Prop :=
  ∀ t, template = some t → ∃ out, hb.renderTemplate t data = .ok out

theorem renderOptional_ok {template : Option String} {data : Json}
    (h : RendersWith hb data template) (maxChars : Nat) :
    ∃ o, renderOptional hb template data maxChars = .ok o := by
  cases template with
  | none => exact ⟨none, rfl⟩
  | some t =>
    obtain ⟨out, hout⟩ := h t rfl
    rw [renderOptional, renderAndTruncate, hout]
    exact ⟨_, rfl⟩

theorem renderOr_ok {template : Option String} {data : Json} (h : RendersWith hb data template)
    (default_ : String) (maxChars : Nat) :
    ∃ o, renderOr hb template default_ data maxChars = .ok o := by
  cases template with
  | none => exact ⟨_, rfl⟩
  | some t =>
    obtain ⟨out, hout⟩ := h t rfl
    rw [renderOr, renderAndTruncate, hout]
    exact ⟨_, rfl⟩

theorem renderPart_ok {template : Option String} {data : Json} (h : RendersWith hb data template)
    (part default_ : String) : ∃ o, renderPart hb part template default_ data = .ok o := by
  cases template with
  | none => exact ⟨_, rfl⟩
  | some t =>
    obtain ⟨out, hout⟩ := h t rfl
    rw [renderPart, hout]
    exact ⟨_, rfl⟩

theorem rendersWith_of_placed {sites : List (Site × Option String)}
    (h : ∀ p ∈ placed sites, RendersAt hb rfc3339 p) (site : Site) (template : Option String)
    (hmem : (site, template) ∈ sites) (ctx : RunContext) (summary : RunSummary) (job : JobResult) :
    RendersWith hb (site.context rfc3339 ctx summary job) template := by
  rintro t rfl
  exact h (site, t) (List.mem_filterMap.mpr ⟨(site, some t), hmem, rfl⟩) ctx summary job

theorem buildFields_ok {templates : DiscordTemplateConfig}
    (h : ∀ p ∈ discordSites templates, RendersAt hb rfc3339 p) (ctx : RunContext)
    (summary : RunReport) : ∃ fields, buildFields hb limits rfc3339 templates ctx summary
      (renderContext rfc3339 ctx summary.toRunSummary) = .ok fields := by
  unfold buildFields
  split
  case isTrue =>
    -- The site does not look at the job.
    have hcollapsed := rendersWith_of_placed h .collapsedSummary templates.collapsedSummary (by simp) ctx
      summary.toRunSummary ⟨0, "", "", none, 0⟩
    exact exists_bind_ok (renderOr_ok hcollapsed _ _) fun text => ⟨_, rfl⟩
  case isFalse =>
    refine exists_bind_ok (exists_mapM_ok fun job _ => ?_) fun fields => ⟨_, rfl⟩
    have hname := rendersWith_of_placed h .fieldName templates.fieldName (by simp) ctx
      summary.toRunSummary job
    have hvalue := rendersWith_of_placed h .fieldValue templates.fieldValue (by simp) ctx
      summary.toRunSummary job
    exact exists_bind_ok (renderOr_ok hname _ _) fun name =>
      exists_bind_ok (renderOr_ok hvalue _ _) fun value => ⟨_, rfl⟩

theorem buildRunCompleteEmbed_ok {templates : DiscordTemplateConfig}
    (h : ∀ p ∈ discordSites templates, RendersAt hb rfc3339 p) (ctx : RunContext)
    (summary : RunReport) :
    ∃ e, buildRunCompleteEmbed hb limits rfc3339 templates ctx summary = .ok e := by
  have htitle := rendersWith_of_placed h .title templates.title (by simp) ctx
    summary.toRunSummary ⟨0, "", "", none, 0⟩
  have hdescription := rendersWith_of_placed h .description templates.description (by simp) ctx
    summary.toRunSummary ⟨0, "", "", none, 0⟩
  exact exists_bind_ok (renderOptional_ok htitle _) fun title =>
    exists_bind_ok (renderOptional_ok hdescription _) fun description =>
      exists_bind_ok (buildFields_ok h ctx summary) fun fields => ⟨_, rfl⟩

theorem renderMail_ok {template : LocalMailTemplateConfig}
    (h : ∀ p ∈ localMailSites template, RendersAt hb rfc3339 p) (ctx : RunContext)
    (summary : RunReport) : ∃ mail, renderMail hb rfc3339 template ctx summary = .ok mail := by
  have hsubject := rendersWith_of_placed h .subject template.subject (by simp) ctx
    summary.toRunSummary ⟨0, "", "", none, 0⟩
  have hbody := rendersWith_of_placed h .body template.body (by simp) ctx
    summary.toRunSummary ⟨0, "", "", none, 0⟩
  exact exists_bind_ok (renderPart_ok hsubject _ _) fun subject =>
    exists_bind_ok (renderPart_ok hbody _ _) fun body => ⟨_, rfl⟩

theorem renderInputs_ok {http : HttpCrate} {formats : Formats} {inputs : ExtTreeMap String String}
    (h : ∀ p ∈ inputSites inputs, RendersAt hb rfc3339 p) (ctx : RunContext) :
    ∃ out, renderInputs (dispatchCrates hb rfc3339 http formats) inputs ctx = .ok out := by
  have hvalue : ∀ kv ∈ inputs.toList,
      ∃ out, (dispatchCrates hb rfc3339 http formats).renderTemplate kv.2 ctx = .ok out :=
    fun kv hkv => h (.input kv.1, kv.2) (List.mem_map_of_mem hkv) ctx (emptyRunSummary 0)
      ⟨0, "", "", none, 0⟩
  unfold renderInputs
  generalize (∅ : ExtTreeMap String String) = done
  generalize inputs.toList = kvs at hvalue ⊢
  induction kvs generalizing done with
  | nil => exact ⟨done, rfl⟩
  | cons kv rest ih =>
    obtain ⟨key, value⟩ := kv
    obtain ⟨out, hout⟩ := hvalue (key, value) List.mem_cons_self
    rw [List.foldlM_cons]
    refine exists_bind_ok ⟨done.insert key out, ?_⟩ fun done =>
      ih done fun kv hkv => hvalue kv (List.mem_cons_of_mem _ hkv)
    simp only [hout, Except.map]

end Runtime

/-! ## Which accepted templates render -/

section Accepted

variable {crates : Crates} {source path : String} {raw : RawConfig} {cfg : ValidConfig}
  {rfc3339 : DateTime → String}

def Site.Follows (site : Site) (path : List String) : Prop :=
  match site with
  | .fieldName | .fieldValue => (probeContext.follow path).isSome = true
  | .input _ | .title | .description | .collapsedSummary | .subject | .body =>
    (probeContext.follow path).isSome = true ∧ path.head? ≠ some "job"

theorem isSome_follow_context (site : Site) (ctx : RunContext) (summary : RunSummary)
    (job : JobResult) (path : List String) :
    ((site.context rfc3339 ctx summary job).follow path).isSome = true ↔ site.Follows path := by
  have hjob : ((renderContextWithJob rfc3339 ctx summary job).follow path).isSome = true ↔
      (probeContext.follow path).isSome = true := by
    rw [isSome_follow_renderContextWithJob]
  cases site with
  | fieldName => exact hjob
  | fieldValue => exact hjob
  | input key => exact isSome_follow_renderContext ctx (emptyRunSummary 0) path
  | title => exact isSome_follow_renderContext ctx summary path
  | description => exact isSome_follow_renderContext ctx summary path
  | collapsedSummary => exact isSome_follow_renderContext ctx summary path
  | subject => exact isSome_follow_renderContext ctx summary path
  | body => exact isSome_follow_renderContext ctx summary path

def blankContext : RunContext where
  flowName := ""
  flowDescription := none
  source := ⟨"", "", .repeated 0, ""⟩
  action := ⟨"", "", 0, "", 0⟩
  gcitRunId := .nil

theorem rendersAt_iff {hb : Registry} (hstrict : hb.Strict) {p : Site × String} {t : Template}
    (hcompile : hb.compile p.2 = .ok t) (hplain : Plain t) :
    RendersAt hb rfc3339 p ↔ ∀ path ∈ references t, p.1.Follows path := by
  have hat : ∀ (ctx : RunContext) (summary : RunSummary) (job : JobResult),
      (∃ out, hb.renderTemplate p.2 (p.1.context rfc3339 ctx summary job) = .ok out) ↔
        ∀ path ∈ references t, p.1.Follows path := by
    intro ctx summary job
    simp only [hstrict.renderTemplate_iff hcompile hplain, isSome_follow_context]
  constructor
  · intro h
    exact (hat blankContext (emptyRunSummary 0) ⟨0, "", "", none, 0⟩).mp (h _ _ _)
  · intro h ctx summary job
    exact (hat ctx summary job).mpr h

theorem forall_placed {sites : List (Site × Option String)} {good : String → Prop}
    (h : ∀ s ∈ sites, ∀ t, s.2 = some t → good t) : ∀ p ∈ placed sites, good p.2 := by
  intro p hp
  obtain ⟨⟨site, template⟩, hmem, hsome⟩ := List.mem_filterMap.mp hp
  obtain ⟨t, rfl, rfl⟩ := Option.map_eq_some_iff.mp hsome
  exact h (site, some t) hmem t rfl

theorem templateOk_map {field : Option (Spanned String)}
    (h : ∀ s, field = some s → TemplateOk crates s.value) (t : String)
    (ht : field.map Spanned.value = some t) : TemplateOk crates t := by
  obtain ⟨s, hs, rfl⟩ := Option.map_eq_some_iff.mp ht
  exact h s hs

/-- Validation has seen every template of a destination. -/
theorem templateOk_of_gives {dest : RawDestination} {d : Destination} (hvalid : dest.Valid crates)
    (h : dest.Gives d) : ∀ p ∈ destinationSites d, TemplateOk crates p.2 := by
  cases d with
  | discordWebhook credentialId fireOn template =>
    obtain ⟨hkind, -, -, rfl⟩ := h
    have hdiscord : dest.DiscordValid crates := hvalid.resolve_right fun hmail =>
      absurd (hkind.symm.trans hmail.kind) (by decide)
    apply forall_placed
    simp only [List.forall_mem_cons, RawDestinationTemplateConfig.discord]
    exact ⟨templateOk_map hdiscord.template.title, templateOk_map hdiscord.template.description,
      templateOk_map hdiscord.template.fieldName, templateOk_map hdiscord.template.fieldValue,
      templateOk_map hdiscord.template.collapsedSummary, by simp⟩
  | localMail user fireOn template =>
    obtain ⟨hkind, -, -, rfl⟩ := h
    have hmail : dest.LocalMailValid crates := hvalid.resolve_left fun hdiscord =>
      absurd (hkind.symm.trans hdiscord.kind) (by decide)
    apply forall_placed
    simp only [List.forall_mem_cons, RawDestinationTemplateConfig.localMail]
    exact ⟨templateOk_map hmail.template.subject, templateOk_map hmail.template.body, by simp⟩

theorem templateOk_or_input (hok : validate crates source path raw = .ok cfg) {p : Site × String}
    (hp : p ∈ templatesOf cfg.toConfig) : TemplateOk crates p.2 ∨ ∃ key, p.1 = .input key := by
  have hvalid := isOk_validate_iff.mp ⟨cfg, hok⟩
  obtain ⟨f, hf, hp⟩ := List.mem_flatMap.mp hp
  obtain ⟨r, hr, hgives⟩ := Library.Validation.exists_of_mem_right (gives_of_validate hok).flow hf
  obtain hinput | hdest := List.mem_append.mp hp
  · obtain ⟨kv, -, rfl⟩ := List.mem_map.mp hinput
    exact .inr ⟨kv.1, rfl⟩
  · obtain ⟨d, hd, hp⟩ := List.mem_flatMap.mp hdest
    obtain ⟨rd, hrd, hgivesd⟩ := Library.Validation.exists_of_mem_right hgives.destination hd
    exact .inl (templateOk_of_gives ((hvalid.flow r hr).destination rd hrd) hgivesd p hp)

theorem TemplateOk.follow_probe (hstrict : crates.handlebars.Strict) {s : String} {t : Template}
    (h : TemplateOk crates s) (hcompile : crates.handlebars.compile s = .ok t) (hplain : Plain t) :
    ∀ path ∈ references t, (probeContext.follow path).isSome = true := by
  obtain ⟨tpl, out, htpl, -, hrender⟩ := h
  obtain rfl : t = tpl := Except.ok.inj (hcompile.symm.trans htpl)
  exact (hstrict t probeContext hplain).mp ⟨out, hrender⟩

/-- The plain templates of an accepted configuration render in their places, whatever they are
rendered for, exactly if the data of their places supports them. -/
theorem templates_render_iff (hstrict : crates.handlebars.Strict)
    (hok : validate crates source path raw = .ok cfg)
    (hplain : ∀ p ∈ templatesOf cfg.toConfig,
      ∃ t, crates.handlebars.compile p.2 = .ok t ∧ Plain t) :
    (∀ p ∈ templatesOf cfg.toConfig, RendersAt crates.handlebars rfc3339 p) ↔
      ∀ p ∈ templatesOf cfg.toConfig, ∀ t, crates.handlebars.compile p.2 = .ok t →
        p.1.Supports t := by
  refine forall_congr' fun p => forall_congr' fun hp => ?_
  obtain ⟨t, hcompile, ht⟩ := hplain p hp
  have hone : (∀ t', crates.handlebars.compile p.2 = .ok t' → p.1.Supports t') ↔
      p.1.Supports t := by
    refine ⟨fun h => h t hcompile, fun h t' ht' => ?_⟩
    obtain rfl : t = t' := Except.ok.inj (hcompile.symm.trans ht')
    exact h
  rw [hone, rendersAt_iff hstrict hcompile ht]
  obtain ⟨site, text⟩ := p
  obtain hseen | ⟨key, hkey⟩ := templateOk_or_input hok hp
  · have hprobe := TemplateOk.follow_probe hstrict hseen hcompile ht
    have hrun : (∀ path ∈ references t,
        (probeContext.follow path).isSome = true ∧ path.head? ≠ some "job") ↔
        ∀ path ∈ references t, path.head? ≠ some "job" :=
      ⟨fun h path hpath => (h path hpath).2, fun h path hpath => ⟨hprobe path hpath, h path hpath⟩⟩
    cases site with
    | fieldName => exact iff_of_true hprobe trivial
    | fieldValue => exact iff_of_true hprobe trivial
    | input key => exact Iff.rfl
    | title => exact hrun
    | description => exact hrun
    | collapsedSummary => exact hrun
    | subject => exact hrun
    | body => exact hrun
  · obtain rfl : site = .input key := hkey
    exact Iff.rfl

end Accepted

/-! ## A mail about a job -/

section Mail

def jobSubject : String := "\x7b\x7bjob.name\x7d\x7d"

def flowSubject : String := "\x7b\x7bflow.name\x7d\x7d"

def mailReference (raw namespace_ field : String) : Template :=
  [.helper .expression (.path raw [.named namespace_, .named field]) [] none none]

/-- The registry on the two subjects and on texts without references. -/
def mailRegistry : Registry where
  compile text :=
    if text = jobSubject then .ok (mailReference "job.name" "job" "name")
    else if text = flowSubject then .ok (mailReference "flow.name" "flow" "name")
    else .ok [.rawString text]
  named _ e := e
  render t ctx := renderElements toString ctx t

def mailCrates : Crates where
  urlParse _ := .ok ⟨"https", some "github.com", some ["o", "r.git"]⟩
  gixUrlParse _ := .ok ⟨some "github.com", "/o/r.git"⟩
  strDebug s := "\"" ++ s ++ "\""
  parseDuration _ := .error "expected number at 0"
  handlebars := mailRegistry
  charDebug c := "'" ++ c.toString ++ "'"
  f64Display _ := "NaN"

def mailFlow (subject : String) : RawFlowConfig where
  name := ⟨"ci", 0⟩
  source := { url := ⟨"https://github.com/o/r.git", 0⟩, refName := ⟨"refs/heads/main", 0⟩ }
  action := {
    kind := ⟨"github_workflow_dispatch", 0⟩
    repo := some ⟨"o/r", 0⟩
    workflow := some ⟨"ci.yml", 0⟩
    refName := some ⟨"refs/heads/main", 0⟩
    credentialId := some ⟨"gh", 0⟩ }
  destination := [{
    kind := ⟨"local_mail", 0⟩
    user := some ⟨"ops", 0⟩
    template := { subject := some ⟨subject, 0⟩ } }]

theorem mailRegistry_strict : mailRegistry.Strict := fun _ _ h => renderElements_ok_iff h

theorem mailFlow_valid {subject : String} (h : TemplateOk mailCrates subject) :
    RawConfig.Valid mailCrates { flow := [mailFlow subject] } where
  poll := ⟨nofun, nofun, nofun, nofun⟩
  http := nofun
  nonempty := List.cons_ne_nil _ _
  flow := by
    intro f hf
    obtain rfl := List.mem_singleton.mp hf
    have hname : NameOk MAX_FLOW_NAME_LEN "ci" :=
      ⟨by decide, by decide, List.all_eq_true.mp (by decide)⟩
    have href : startsWith "refs/heads/main" "refs/" = true := by decide +kernel
    have hworkflow : WorkflowOk "ci.yml" :=
      ⟨by decide, by decide, by decide, by decide +kernel⟩
    have hid : IdOk "gh" :=
      ⟨by decide, by decide, by decide, List.all_eq_true.mp (by decide)⟩
    have hrepo : ownerRepo "o/r" = true := by decide +kernel
    refine ⟨hname, ⟨⟨_, rfl, by decide⟩, href, nofun⟩, ⟨rfl, ⟨_, rfl, ownerRepo_iff.mp hrepo⟩,
      ⟨_, rfl, hworkflow⟩, ⟨_, rfl, href⟩, ⟨_, rfl, hid⟩, by simp [mailFlow]⟩, ?_,
      ⟨nofun, nofun, nofun, nofun⟩⟩
    intro dest hdest
    obtain rfl := List.mem_singleton.mp hdest
    have huser : NameOk MAX_LOCAL_MAIL_USER_LEN "ops" :=
      ⟨by decide, by decide, List.all_eq_true.mp (by decide)⟩
    refine .inr ⟨rfl, rfl, ⟨_, rfl, huser⟩, nofun,
      ⟨rfl, rfl, rfl, rfl, rfl, ?_, nofun⟩⟩
    intro s hs
    obtain rfl := Option.some.inj hs
    exact h
  names := List.nodup_singleton _
  credentials := by
    intro a ha b hb _
    rw [List.mem_singleton.mp ha, List.mem_singleton.mp hb]

theorem templatesOf_mailFlow {subject : String} {cfg : ValidConfig}
    (h : validate mailCrates "" "gcit.toml" { flow := [mailFlow subject] } = .ok cfg) :
    templatesOf cfg.toConfig = [(.subject, subject)] := by
  have hflows := (gives_of_validate h).flow
  unfold templatesOf
  generalize cfg.flow = flows at hflows
  cases hflows with
  | @cons _ f _ _ hf hrest =>
    cases hrest
    obtain ⟨name, enabled, description, source, action, dests, poll⟩ := f
    obtain ⟨-, -, -, -, haction, hdests, -⟩ := hf
    have hinputs : action.inputs = ∅ := haction.inputs
    cases hdests with
    | @cons _ d _ _ hd hrest =>
      cases hrest
      cases d with
      | discordWebhook credentialId fireOn template =>
        have hkind : "local_mail" = "discord_webhook" := hd.1
        exact absurd hkind (by decide)
      | localMail user fireOn template =>
        obtain ⟨-, -, -, rfl⟩ := hd
        simp [hinputs, inputSites, destinationSites, localMailSites, placed,
          RawDestinationTemplateConfig.localMail]

theorem mailReference_plain (raw namespace_ field : String) :
    Plain (mailReference raw namespace_ field) := by
  intro e he
  obtain rfl := List.mem_singleton.mp he
  exact .inr ⟨.expression, raw, [namespace_, field], by decide, rfl⟩

theorem compile_jobSubject :
    mailRegistry.compile jobSubject = .ok (mailReference "job.name" "job" "name") := by
  simp only [mailRegistry, ↓reduceIte]

theorem compile_flowSubject :
    mailRegistry.compile flowSubject = .ok (mailReference "flow.name" "flow" "name") := by
  have hne : flowSubject ≠ jobSubject := by decide
  simp only [mailRegistry, hne, ↓reduceIte]

theorem templateOk_mailReference {subject raw namespace_ field : String}
    (hcompile : mailRegistry.compile subject = .ok (mailReference raw namespace_ field))
    (hbare : findBareName (mailReference raw namespace_ field) = none)
    (hprobe : (probeContext.follow [namespace_, field]).isSome = true) :
    TemplateOk mailCrates subject := by
  have hrefs : ∀ path ∈ references (mailReference raw namespace_ field),
      (probeContext.follow path).isSome = true := by
    intro path hpath
    obtain rfl := List.mem_singleton.mp hpath
    exact hprobe
  obtain ⟨out, hout⟩ := (mailRegistry_strict _ probeContext (mailReference_plain _ _ _)).mpr hrefs
  exact ⟨_, out, hcompile, hbare, hout⟩

def mailRfc3339 (_ : DateTime) : String := "2026-04-26T12:34:56+00:00"

/-- A subject that names the flow renders in every mail. -/
theorem flow_subject_renders : ∃ cfg,
    validate mailCrates "" "gcit.toml" { flow := [mailFlow flowSubject] } = .ok cfg ∧
      templatesOf cfg.toConfig = [(.subject, flowSubject)] ∧
      ∀ p ∈ templatesOf cfg.toConfig, RendersAt mailRegistry mailRfc3339 p := by
  have hok := templateOk_mailReference compile_flowSubject (by decide) (by decide)
  obtain ⟨cfg, hcfg⟩ := isOk_validate_iff.mpr (mailFlow_valid hok)
  have hsites := templatesOf_mailFlow hcfg
  refine ⟨cfg, hcfg, hsites, (templates_render_iff mailRegistry_strict hcfg ?_).mpr ?_⟩
  · intro p hp
    obtain rfl := List.mem_singleton.mp (hsites ▸ hp)
    exact ⟨_, compile_flowSubject, mailReference_plain _ _ _⟩
  · intro p hp t ht
    obtain rfl := List.mem_singleton.mp (hsites ▸ hp)
    obtain rfl := Except.ok.inj (compile_flowSubject.symm.trans ht)
    intro path hpath
    obtain rfl := List.mem_singleton.mp hpath
    decide

/-- A subject that names a job is accepted and renders in no mail. -/
theorem job_subject_never_renders : mailRegistry.Strict ∧ ∃ cfg,
    validate mailCrates "" "gcit.toml" { flow := [mailFlow jobSubject] } = .ok cfg ∧
      (∀ p ∈ templatesOf cfg.toConfig, ∃ t, mailRegistry.compile p.2 = .ok t ∧ Plain t) ∧
      ¬∀ p ∈ templatesOf cfg.toConfig, RendersAt mailRegistry mailRfc3339 p := by
  have hok := templateOk_mailReference compile_jobSubject (by decide) (by decide)
  obtain ⟨cfg, hcfg⟩ := isOk_validate_iff.mpr (mailFlow_valid hok)
  have hsites := templatesOf_mailFlow hcfg
  refine ⟨mailRegistry_strict, cfg, hcfg, ?_, fun hall => ?_⟩
  · intro p hp
    obtain rfl := List.mem_singleton.mp (hsites ▸ hp)
    exact ⟨_, compile_jobSubject, mailReference_plain _ _ _⟩
  · have hrenders := hall (.subject, jobSubject) (by rw [hsites]; exact List.mem_singleton_self _)
    have hfollows := (rendersAt_iff mailRegistry_strict compile_jobSubject
      (mailReference_plain _ _ _)).mp hrenders ["job", "name"] (by decide)
    exact hfollows.2 rfl

end Mail

end Gcit.Notify
