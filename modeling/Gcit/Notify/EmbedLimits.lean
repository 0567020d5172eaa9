import Gcit.Notify.Rendering

/-! # What an embed needs of the limits

Every text of an embed is cut to a cap of its own, and the number of fields is kept below
theirs. The sum over all of them is not: it is that of the capped lengths, and Discord's
limit on it is smaller than the caps of a long list of jobs allow.
-/

namespace Gcit.Notify

open Std Gcit Gcit.Git Gcit.Flow Gcit.Github Gcit.Library Gcit.Library.Handlebars

/-- The constants of the validating crate. -/
def discordLimits : Limits := ⟨256, 4096, 25, 256, 1024, 2048⟩

def EMBED_TOTAL_CODEPOINTS : Nat := 6000

def fieldCodepoints (field : EmbedField) : Nat := field.name.length + field.value.length

def embedCodepointCount (embed : Embed) : Nat :=
  let total := (embed.description.map String.length).getD 0 + embed.footer.length
  let total := embed.fields.foldl (fun total field => total + fieldCodepoints field) total
  total + (embed.title.map String.length).getD 0

/-- The check of the sum in `deliver`. -/
def checkTotal (embed : Embed) : Except String Unit :=
  let total := embedCodepointCount embed
  if total > EMBED_TOTAL_CODEPOINTS then
    .error s!"embed total {total} codepoints exceeds Discord limit {EMBED_TOTAL_CODEPOINTS}"
  else .ok ()

def jobCap (limits : Limits) (summary : RunReport) : Nat :=
  if summary.jobs.length > limits.fieldCount then limits.fieldCount - 1 else limits.fieldCount

section Demand

variable (hb : Registry) (limits : Limits) (rfc3339 : DateTime → String)

def textLength (template : Option String) (default_ : String) (data : Json) : Nat :=
  match template with
  | none => default_.length
  | some t => match hb.renderTemplate t data with
    | .ok rendered => rendered.length
    | .error _ => 0

def jobDemand (templates : DiscordTemplateConfig) (ctx : RunContext) (summary : RunReport)
    (job : JobResult) : Nat :=
  let data := renderContextWithJob rfc3339 ctx summary.toRunSummary job
  let label := conclusionLabel "in progress" job.conclusion
  min (textLength hb templates.fieldName job.name data) limits.fieldNameLength +
    min (textLength hb templates.fieldValue s!"[{label}]({job.htmlUrl})" data) limits.fieldValueLength

def tailText (summary : RunReport) : String :=
  s!"and {summary.jobs.length - jobCap limits summary} more job(s)"

def tailDemand (summary : RunReport) : Nat :=
  if summary.jobs.length > limits.fieldCount then
    min "…".length limits.fieldNameLength +
      min (tailText limits summary).length limits.fieldValueLength
  else 0

def fieldsDemand (templates : DiscordTemplateConfig) (ctx : RunContext) (summary : RunReport) : Nat :=
  if (summary.conclusion.map shouldCollapse).getD false then
    let label := conclusionLabel "complete" summary.conclusion
    min "Summary".length limits.fieldNameLength +
      min (textLength hb templates.collapsedSummary s!"{summary.jobs.length} jobs · {label}"
        (renderContext rfc3339 ctx summary.toRunSummary)) limits.fieldValueLength
  else (summary.jobs.take (jobCap limits summary)).foldl
    (fun total job => total + jobDemand hb limits rfc3339 templates ctx summary job) 0 +
      tailDemand limits summary

/-- The capped lengths of all texts of the embed together. -/
def demand (templates : DiscordTemplateConfig) (ctx : RunContext) (summary : RunReport) : Nat :=
  let data := renderContext rfc3339 ctx summary.toRunSummary
  min (textLength hb templates.title "" data) limits.titleLength +
    min (textLength hb templates.description "" data) limits.descriptionLength +
    fieldsDemand hb limits rfc3339 templates ctx summary +
    min s!"Run #{summary.runNumber} · attempt {summary.runAttempt}".length limits.footerTextLength

end Demand

theorem length_truncateCodepoints (s : String) (maxChars : Nat) :
    (truncateCodepoints s maxChars).length = min s.length maxChars := by
  unfold truncateCodepoints
  split
  case isTrue hzero => simp [hzero]
  case isFalse hpos =>
    split
    case isTrue hfits => exact (Nat.min_eq_left hfits).symm
    case isFalse hlong =>
      have hlong : maxChars < s.length := Nat.lt_of_not_le hlong
      rw [String.length_append, String.length_ofList, List.length_take, String.length_toList,
        Nat.min_eq_left (by omega), Nat.min_eq_right (Nat.le_of_lt hlong)]
      exact Nat.sub_add_cancel (Nat.pos_of_ne_zero hpos)

theorem exists_of_bind_eq_ok {α β : Type} {x : Except String α} {f : α → Except String β} {b : β}
    (h : (x >>= f) = .ok b) : ∃ a, x = .ok a ∧ f a = .ok b := by
  cases x with
  | error e => cases h
  | ok a => exact ⟨a, rfl, h⟩

theorem forall₂_of_mapM_eq_ok {α β : Type} {f : α → Except String β} {as : List α} {bs : List β}
    (h : as.mapM f = .ok bs) : List.Forall₂ (fun a b => f a = .ok b) as bs := by
  induction as generalizing bs with
  | nil =>
    cases h
    exact .nil
  | cons a as ih =>
    rw [List.mapM_cons] at h
    obtain ⟨b, hb, h⟩ := exists_of_bind_eq_ok h
    obtain ⟨rest, hrest, h⟩ := exists_of_bind_eq_ok h
    cases h
    exact .cons hb (ih hrest)

theorem foldl_add_eq {α : Type} (g : α → Nat) (xs : List α) (total : Nat) :
    xs.foldl (fun total x => total + g x) total =
      total + xs.foldl (fun total x => total + g x) 0 := by
  induction xs generalizing total with
  | nil => rfl
  | cons x xs ih =>
    rw [List.foldl_cons, List.foldl_cons, ih, ih (0 + g x), Nat.zero_add, Nat.add_assoc]

theorem foldl_replicate {α : Type} (g : α → Nat) (n : Nat) (x : α) :
    (List.replicate n x).foldl (fun total x => total + g x) 0 = n * g x := by
  induction n with
  | zero => exact (Nat.zero_mul _).symm
  | succ n ih =>
    rw [List.replicate_succ, List.foldl_cons, foldl_add_eq, ih, Nat.zero_add, Nat.succ_mul,
      Nat.add_comm]

section Lengths

variable {hb : Registry} {limits : Limits} {rfc3339 : DateTime → String}

theorem length_renderOr {template : Option String} {default_ s : String} {data : Json}
    {maxChars : Nat} (h : renderOr hb template default_ data maxChars = .ok s) :
    s.length = min (textLength hb template default_ data) maxChars := by
  cases template with
  | none =>
    cases h
    exact length_truncateCodepoints _ _
  | some t =>
    simp only [renderOr, renderAndTruncate] at h
    simp only [textLength]
    cases hrender : hb.renderTemplate t data with
    | error e => rw [hrender] at h; cases h
    | ok rendered =>
      rw [hrender] at h
      cases h
      exact length_truncateCodepoints _ _

theorem length_renderOptional {template : Option String} {o : Option String} {data : Json}
    {maxChars : Nat} (h : renderOptional hb template data maxChars = .ok o) :
    (o.map String.length).getD 0 = min (textLength hb template "" data) maxChars := by
  cases template with
  | none =>
    cases h
    exact (Nat.zero_min _).symm
  | some t =>
    simp only [renderOptional] at h
    cases hrender : renderAndTruncate hb t data maxChars with
    | error e => rw [hrender] at h; cases h
    | ok rendered =>
      rw [hrender] at h
      cases h
      have hsome : renderOr hb (some t) "" data maxChars = .ok rendered := hrender
      exact length_renderOr hsome

variable {templates : DiscordTemplateConfig} {ctx : RunContext} {summary : RunReport}

theorem length_buildJobField {job : JobResult} {field : EmbedField}
    (h : buildJobField hb limits rfc3339 templates ctx summary job = .ok field) :
    fieldCodepoints field = jobDemand hb limits rfc3339 templates ctx summary job ∧
      field.name.length ≤ limits.fieldNameLength ∧ field.value.length ≤ limits.fieldValueLength := by
  obtain ⟨name, hname, h⟩ := exists_of_bind_eq_ok h
  obtain ⟨value, hvalue, h⟩ := exists_of_bind_eq_ok h
  cases h
  have hname := length_renderOr hname
  have hvalue := length_renderOr hvalue
  refine ⟨congrArg₂ (· + ·) hname hvalue, hname ▸ Nat.min_le_right _ _, hvalue ▸ Nat.min_le_right _ _⟩

def tailFields (limits : Limits) (summary : RunReport) : List EmbedField :=
  if summary.jobs.length > limits.fieldCount then
    [⟨false, truncateCodepoints "…" limits.fieldNameLength,
      truncateCodepoints (tailText limits summary) limits.fieldValueLength⟩]
  else []

/-- The listed jobs in order, each with its field, and what follows them. -/
def Lists (hb : Registry) (limits : Limits) (rfc3339 : DateTime → String)
    (templates : DiscordTemplateConfig) (ctx : RunContext) (summary : RunReport)
    (fields tail : List EmbedField) : Prop :=
  ∃ listed, fields = listed ++ tail ∧
    List.Forall₂ (fun job field => buildJobField hb limits rfc3339 templates ctx summary job = .ok field)
      (summary.jobs.take (jobCap limits summary)) listed

theorem lists_of_buildExpandedFields {fields : List EmbedField}
    (h : buildExpandedFields hb limits rfc3339 templates ctx summary = .ok fields) :
    Lists hb limits rfc3339 templates ctx summary fields (tailFields limits summary) := by
  obtain ⟨listed, hlisted, h⟩ := exists_of_bind_eq_ok h
  cases h
  exact ⟨listed, rfl, forall₂_of_mapM_eq_ok hlisted⟩

theorem foldl_listed {jobs : List JobResult} {listed : List EmbedField}
    (h : List.Forall₂ (fun job field =>
      buildJobField hb limits rfc3339 templates ctx summary job = .ok field) jobs listed) (total : Nat) :
    listed.foldl (fun total field => total + fieldCodepoints field) total =
      jobs.foldl (fun total job =>
        total + jobDemand hb limits rfc3339 templates ctx summary job) total := by
  induction h generalizing total with
  | nil => rfl
  | cons hjob _ ih => rw [List.foldl_cons, List.foldl_cons, (length_buildJobField hjob).1, ih]

theorem foldl_tailFields (total : Nat) :
    (tailFields limits summary).foldl (fun total field => total + fieldCodepoints field) total =
      total + tailDemand limits summary := by
  unfold tailFields tailDemand
  split
  case isTrue =>
    simp only [List.foldl_cons, List.foldl_nil, fieldCodepoints, length_truncateCodepoints]
  case isFalse => rfl

theorem length_buildCollapsedFields {fields : List EmbedField} {data : Json}
    (h : buildCollapsedFields hb limits templates data summary = .ok fields) :
    let label := conclusionLabel "complete" summary.conclusion
    ∃ field, fields = [field] ∧ field.name.length = min "Summary".length limits.fieldNameLength ∧
      field.value.length = min (textLength hb templates.collapsedSummary
        s!"{summary.jobs.length} jobs · {label}" data) limits.fieldValueLength := by
  intro label
  obtain ⟨text, htext, h⟩ := exists_of_bind_eq_ok h
  cases h
  exact ⟨_, rfl, length_truncateCodepoints _ _, length_renderOr htext⟩

theorem foldl_buildFields {fields : List EmbedField}
    (h : buildFields hb limits rfc3339 templates ctx summary
      (renderContext rfc3339 ctx summary.toRunSummary) = .ok fields) (total : Nat) :
    fields.foldl (fun total field => total + fieldCodepoints field) total =
      total + fieldsDemand hb limits rfc3339 templates ctx summary := by
  unfold buildFields at h
  unfold fieldsDemand
  split at h
  case isTrue hcollapse =>
    obtain ⟨field, rfl, hname, hvalue⟩ := length_buildCollapsedFields h
    rw [if_pos hcollapse]
    exact congrArg (total + ·) (congrArg₂ (· + ·) hname hvalue)
  case isFalse hcollapse =>
    obtain ⟨listed, rfl, hlisted⟩ := lists_of_buildExpandedFields h
    rw [if_neg hcollapse, List.foldl_append, foldl_tailFields, foldl_listed hlisted, foldl_add_eq,
      Nat.add_assoc]

theorem embedCodepointCount_eq {embed : Embed}
    (h : buildRunCompleteEmbed hb limits rfc3339 templates ctx summary = .ok embed) :
    embedCodepointCount embed = demand hb limits rfc3339 templates ctx summary := by
  obtain ⟨title, htitle, h⟩ := exists_of_bind_eq_ok h
  obtain ⟨description, hdescription, h⟩ := exists_of_bind_eq_ok h
  obtain ⟨fields, hfields, h⟩ := exists_of_bind_eq_ok h
  cases h
  simp only [embedCodepointCount, demand, foldl_buildFields hfields, length_truncateCodepoints]
  rw [length_renderOptional htitle, length_renderOptional hdescription]
  omega

theorem fieldsDemand_le_demand :
    fieldsDemand hb limits rfc3339 templates ctx summary ≤
      demand hb limits rfc3339 templates ctx summary := by
  simp only [demand]
  omega

theorem fieldValue_le_jobDemand {job : JobResult} {n : Nat}
    (hvalue : ∀ default_ data, textLength hb templates.fieldValue default_ data = n) :
    min n limits.fieldValueLength ≤ jobDemand hb limits rfc3339 templates ctx summary job := by
  rw [jobDemand, hvalue]
  exact Nat.le_add_left _ _

/-- Every text is within the cap of its place, and so is the number of fields. -/
structure WithinCaps (limits : Limits) (embed : Embed) : Prop where
  fieldCount : embed.fields.length ≤ limits.fieldCount
  title : ∀ t ∈ embed.title, t.length ≤ limits.titleLength
  description : ∀ t ∈ embed.description, t.length ≤ limits.descriptionLength
  fields : ∀ field ∈ embed.fields, field.name.length ≤ limits.fieldNameLength ∧
    field.value.length ≤ limits.fieldValueLength
  footer : embed.footer.length ≤ limits.footerTextLength

theorem length_truncateCodepoints_le (s : String) (maxChars : Nat) :
    (truncateCodepoints s maxChars).length ≤ maxChars :=
  length_truncateCodepoints s maxChars ▸ Nat.min_le_right _ _

theorem length_fields_le {fields : List EmbedField} (hcount : 0 < limits.fieldCount)
    (h : Lists hb limits rfc3339 templates ctx summary fields (tailFields limits summary)) :
    fields.length ≤ limits.fieldCount := by
  obtain ⟨listed, rfl, hlisted⟩ := h
  rw [List.length_append, ← hlisted.length_eq, List.length_take, tailFields, jobCap]
  split
  case isTrue hmany =>
    rw [List.length_singleton]
    omega
  case isFalse hfew =>
    rw [List.length_nil]
    omega

theorem fields_withinCaps {fields : List EmbedField} {data : Json} (hcount : 0 < limits.fieldCount)
    (h : buildFields hb limits rfc3339 templates ctx summary data = .ok fields) :
    fields.length ≤ limits.fieldCount ∧ ∀ field ∈ fields,
      field.name.length ≤ limits.fieldNameLength ∧ field.value.length ≤ limits.fieldValueLength := by
  unfold buildFields at h
  split at h
  case isTrue =>
    obtain ⟨field, rfl, hname, hvalue⟩ := length_buildCollapsedFields h
    refine ⟨hcount, fun f hf => ?_⟩
    rw [List.mem_singleton.mp hf]
    exact ⟨hname ▸ Nat.min_le_right _ _, hvalue ▸ Nat.min_le_right _ _⟩
  case isFalse =>
    have hlists := lists_of_buildExpandedFields h
    refine ⟨length_fields_le hcount hlists, fun field hfield => ?_⟩
    obtain ⟨listed, rfl, hlisted⟩ := hlists
    obtain hjob | htail := List.mem_append.mp hfield
    · obtain ⟨job, -, hjob⟩ := Library.Validation.exists_of_mem_right hlisted hjob
      exact (length_buildJobField hjob).2
    · unfold tailFields at htail
      split at htail
      case isTrue =>
        rw [List.mem_singleton.mp htail]
        exact ⟨length_truncateCodepoints_le _ _, length_truncateCodepoints_le _ _⟩
      case isFalse => cases htail

theorem withinCaps_of_build {embed : Embed} (hcount : 0 < limits.fieldCount)
    (h : buildRunCompleteEmbed hb limits rfc3339 templates ctx summary = .ok embed) :
    WithinCaps limits embed := by
  obtain ⟨title, htitle, h⟩ := exists_of_bind_eq_ok h
  obtain ⟨description, hdescription, h⟩ := exists_of_bind_eq_ok h
  obtain ⟨fields, hfields, h⟩ := exists_of_bind_eq_ok h
  cases h
  have hfields := fields_withinCaps hcount hfields
  have hoptional {o : Option String} {template : Option String} {data : Json} {maxChars : Nat}
      (ho : renderOptional hb template data maxChars = .ok o) : ∀ t ∈ o, t.length ≤ maxChars := by
    rintro t ⟨⟩
    have hlength : t.length = min (textLength hb template "" data) maxChars :=
      length_renderOptional ho
    exact hlength ▸ Nat.min_le_right _ _
  exact ⟨hfields.1, hoptional htitle, hoptional hdescription, hfields.2,
    length_truncateCodepoints_le _ _⟩

/-- The tail is there exactly if jobs are left out, and tells how many. A `Vec` holds fewer
than `2 ^ 64`. -/
theorem tailFields_eq (hjobs : summary.jobs.length < 2 ^ 64) :
    tailFields discordLimits summary =
      if jobCap discordLimits summary < summary.jobs.length then
        [⟨false, "…", s!"and {summary.jobs.length - jobCap discordLimits summary} more job(s)"⟩]
      else [] := by
  have hleft : (toString (summary.jobs.length - jobCap discordLimits summary)).length ≤ 20 :=
    (Nat.length_repr_le_iff (by decide)).mpr (by omega)
  have htext : (tailText discordLimits summary).length ≤ discordLimits.fieldValueLength := by
    simp only [tailText, String.length_append]
    exact Nat.le_trans (Nat.add_le_add_right (Nat.add_le_add_left hleft _) _) (by decide)
  have hcut : truncateCodepoints (tailText discordLimits summary) discordLimits.fieldValueLength =
      tailText discordLimits summary := by
    rw [truncateCodepoints, if_neg (by decide), if_pos htext]
  have hmany : jobCap discordLimits summary < summary.jobs.length ↔
      summary.jobs.length > discordLimits.fieldCount := by
    unfold jobCap
    split
    case isTrue h => exact iff_of_true (Nat.lt_of_le_of_lt (Nat.sub_le _ _) h) h
    case isFalse h => exact iff_of_false h h
  rw [tailFields, hcut]
  simp only [hmany]
  rfl

end Lengths

/-- What is asked of an embed: Discord's limits, the check before it is sent, and, where
jobs are listed, the first of them in order with the number of the others behind. -/
structure Fits (hb : Registry) (rfc3339 : DateTime → String) (templates : DiscordTemplateConfig)
    (ctx : RunContext) (summary : RunReport) (embed : Embed) : Prop where
  caps : WithinCaps discordLimits embed
  total : embedCodepointCount embed ≤ EMBED_TOTAL_CODEPOINTS
  checked : checkTotal embed = .ok ()
  jobs : (summary.conclusion.map shouldCollapse).getD false = false →
    ∃ k listed, List.Forall₂ (fun job field =>
        buildJobField hb discordLimits rfc3339 templates ctx summary job = .ok field)
        (summary.jobs.take k) listed ∧
      embed.fields = listed ++ if k < summary.jobs.length then
        [⟨false, "…", s!"and {summary.jobs.length - k} more job(s)"⟩] else []

/-- For whatever templates render to and any number of jobs: an embed that is built fits
exactly if the capped lengths of its texts sum up to no more than the limit. -/
theorem embed_fits_iff (hb : Registry) (rfc3339 : DateTime → String)
    (templates : DiscordTemplateConfig) (ctx : RunContext) (summary : RunReport) (embed : Embed)
    (hjobs : summary.jobs.length < 2 ^ 64)
    (hbuild : buildRunCompleteEmbed hb discordLimits rfc3339 templates ctx summary = .ok embed) :
    Fits hb rfc3339 templates ctx summary embed ↔
      demand hb discordLimits rfc3339 templates ctx summary ≤ EMBED_TOTAL_CODEPOINTS := by
  rw [← embedCodepointCount_eq hbuild]
  refine ⟨fun h => h.total, fun htotal => ⟨withinCaps_of_build (by decide) hbuild, htotal, ?_, ?_⟩⟩
  · exact if_neg (Nat.not_lt.mpr htotal)
  · intro hcollapse
    obtain ⟨title, -, h⟩ := exists_of_bind_eq_ok hbuild
    obtain ⟨description, -, h⟩ := exists_of_bind_eq_ok h
    obtain ⟨fields, hfields, h⟩ := exists_of_bind_eq_ok h
    cases h
    rw [buildFields, hcollapse] at hfields
    obtain ⟨listed, rfl, hlisted⟩ := lists_of_buildExpandedFields hfields
    exact ⟨jobCap discordLimits summary, listed, hlisted, by rw [tailFields_eq hjobs]⟩

section Runs

def plainRegistry : Registry where
  compile text := .ok [.rawString text]
  named _ e := e
  render
    | [.rawString text], _ => .ok text
    | _, _ => .ok ""

def failedJob : JobResult :=
  ⟨1, "build", "https://github.com/o/r/actions/runs/7/job/1", some .failure, 1⟩

def failedRun (jobs : Nat) : RunReport where
  toRunSummary := { emptyRunSummary 7 with
    status := .completed
    conclusion := some .failure }
  jobs := .replicate jobs failedJob

theorem exists_build (templates : DiscordTemplateConfig) (jobs : Nat) :
    ∃ embed, buildRunCompleteEmbed plainRegistry discordLimits mailRfc3339 templates blankContext
      (failedRun jobs) = .ok embed :=
  buildRunCompleteEmbed_ok (fun _ _ _ _ _ => ⟨_, rfl⟩) _ _

theorem small_embed_fits : ∃ embed,
    buildRunCompleteEmbed plainRegistry discordLimits mailRfc3339 {} blankContext (failedRun 2) =
      .ok embed ∧ Fits plainRegistry mailRfc3339 {} blankContext (failedRun 2) embed := by
  obtain ⟨embed, hbuild⟩ := exists_build {} 2
  refine ⟨embed, hbuild, (embed_fits_iff _ _ _ _ _ embed (by decide) hbuild).mpr ?_⟩
  decide +kernel

def rowOf (n : Nat) : String := String.ofList (List.replicate n 'x')

theorem length_rowOf (n : Nat) : (rowOf n).length = n := by
  rw [rowOf, String.length_ofList, List.length_replicate]

def longValues : DiscordTemplateConfig where
  fieldValue := some (rowOf 300)

theorem fieldsDemand_longValues :
    fieldsDemand plainRegistry discordLimits mailRfc3339 longValues blankContext (failedRun 25) =
      25 * jobDemand plainRegistry discordLimits mailRfc3339 longValues blankContext (failedRun 25)
        failedJob := by
  have hlisted : (failedRun 25).jobs.take (jobCap discordLimits (failedRun 25)) =
      List.replicate 25 failedJob := List.take_of_length_le (by decide)
  have htail : tailDemand discordLimits (failedRun 25) = 0 := if_neg (by decide)
  rw [fieldsDemand, if_neg (by decide), hlisted, htail, foldl_replicate, Nat.add_zero]

theorem le_demand_longValues : 25 * 300 ≤
    demand plainRegistry discordLimits mailRfc3339 longValues blankContext (failedRun 25) := by
  have hrender (data : Json) : plainRegistry.renderTemplate (rowOf 300) data = .ok (rowOf 300) := rfl
  have hvalue (default_ : String) (data : Json) :
      textLength plainRegistry longValues.fieldValue default_ data = 300 := by
    simp only [textLength, longValues, hrender, length_rowOf]
  have hcap : 300 ≤ min 300 discordLimits.fieldValueLength := by decide
  have hjob : 300 ≤ jobDemand plainRegistry discordLimits mailRfc3339 longValues
      blankContext (failedRun 25) failedJob := Nat.le_trans hcap (fieldValue_le_jobDemand hvalue)
  have hfields := Nat.mul_le_mul_left 25 hjob
  rw [← fieldsDemand_longValues] at hfields
  exact Nat.le_trans hfields fieldsDemand_le_demand

/-- Twenty-five failed jobs, each with a value of three hundred code points. -/
theorem long_values_overflow :
    ¬ ∀ (hb : Registry) (rfc3339 : DateTime → String) (templates : DiscordTemplateConfig)
      (ctx : RunContext) (summary : RunReport) (embed : Embed), summary.jobs.length < 2 ^ 64 →
      buildRunCompleteEmbed hb discordLimits rfc3339 templates ctx summary = .ok embed →
        Fits hb rfc3339 templates ctx summary embed := by
  intro h
  obtain ⟨embed, hbuild⟩ := exists_build longValues 25
  have htotal := (h _ _ _ _ _ embed (by decide) hbuild).total
  rw [embedCodepointCount_eq hbuild] at htotal
  exact absurd htotal (Nat.not_le.mpr (Nat.lt_of_lt_of_le (by decide) le_demand_longValues))

end Runs

end Gcit.Notify
