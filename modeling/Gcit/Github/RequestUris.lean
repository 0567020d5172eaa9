import Gcit.Github.Markers
import Gcit.Library.Uri
import Gcit.Notify.Rendering

/-! # What the server reads in a request URI

The routes are put together from the action's texts as they stand. Validation keeps the
separator of a path out of them and http the characters that no URI may have; what else a
URI gives a meaning to is read by the server with that meaning.
-/

namespace Gcit.Github

open Std Gcit Gcit.Git Gcit.Library Gcit.Validate

/-- The path has these segments, and the query these parameters and no more. -/
structure Carries (uri : String) (names : List String) (params : List (String × String)) : Prop where
  segments : Uri.segments uri.toList = names.map fun name => Uri.encode name.toList
  query : Uri.queryPairs uri.toList =
    params.map fun param => (Uri.encode param.1.toList, Uri.encode param.2.toList)

def workflowSegments (owner repo workflow last : String) : List String :=
  ["repos", owner, repo, "actions", "workflows", workflow, last]

def runsParams (branch : String) (headSha : Option String) : List (String × String) :=
  [("event", "workflow_dispatch"), ("per_page", "100")] ++
    (if branch = "" then [] else [("branch", branch)]) ++ headSha.toList.map ("head_sha", ·)

def PlainPath (owner repo workflow : String) : Prop :=
  Uri.PlainSegment owner.toList ∧ Uri.PlainSegment repo.toList ∧ Uri.PlainSegment workflow.toList

def routePath (owner repo workflow last : String) : List Char :=
  ['/'].intercalate ((workflowSegments owner repo workflow last).map String.toList)

def paramChars (param : String × String) : List Char × List Char :=
  (param.1.toList, param.2.toList)

def routeQuery (params : List (String × String)) : List Char :=
  ['&'].intercalate ((params.map paramChars).map Uri.pairText)

section Uris

variable {http : HttpCrate} {owner repo workflow uri : String}

theorem toList_routePath (owner repo workflow last : String) :
    ("/repos/" ++ owner ++ "/" ++ repo ++ "/actions/workflows/" ++ workflow ++ "/" ++ last).toList =
      '/' :: routePath owner repo workflow last := by
  have hrepos : "/repos/".toList = '/' :: ("repos".toList ++ ['/']) := by decide
  have hworkflows : "/actions/workflows/".toList =
      '/' :: ("actions".toList ++ '/' :: ("workflows".toList ++ ['/'])) := by decide
  have hslash : "/".toList = ['/'] := by decide
  simp only [String.toList_append, hrepos, hworkflows, hslash, routePath, workflowSegments,
    List.map_cons, List.map_nil, List.intercalate_cons_cons, List.intercalate_singleton,
    List.append_assoc, List.cons_append, List.nil_append]

theorem toList_of_buildDispatchUri (h : buildDispatchUri http owner repo workflow = .ok uri) :
    uri.toList = '/' :: routePath owner repo workflow "dispatches" := by
  unfold buildDispatchUri at h
  simp only at h
  split at h
  case h_1 =>
    cases h
    rw [show "/dispatches" = "/" ++ "dispatches" by decide, ← String.append_assoc, toList_routePath]
  case h_2 => cases h

theorem toList_routeQuery (branch : String) (headSha : Option String) :
    ("event=workflow_dispatch&per_page=100" ++ (if branch = "" then "" else "&branch=" ++ branch) ++
      headSha.elim "" ("&head_sha=" ++ ·)).toList = routeQuery (runsParams branch headSha) := by
  have hstart : "event=workflow_dispatch&per_page=100".toList = "event".toList ++ '=' ::
      ("workflow_dispatch".toList ++ '&' :: ("per_page".toList ++ '=' :: "100".toList)) := by decide
  have hbranch : "&branch=".toList = '&' :: ("branch".toList ++ ['=']) := by decide
  have hsha : "&head_sha=".toList = '&' :: ("head_sha".toList ++ ['=']) := by decide
  have hnil : "".toList = [] := rfl
  by_cases hempty : branch = "" <;> cases headSha <;>
    simp only [hempty, if_true, if_false, Option.elim_none, Option.elim_some, String.toList_append,
      hstart, hbranch, hsha, hnil, routeQuery, runsParams, paramChars, Uri.pairText,
      Option.toList_none, Option.toList_some, List.map_cons, List.map_nil,
      List.intercalate_cons_cons, List.intercalate_singleton, List.append_assoc, List.cons_append,
      List.nil_append, List.append_nil]

theorem toList_of_listRunsUri {params : CorrelateParams} {headSha : Option String}
    (hsplit : splitRepo params.repo = .ok (owner, repo))
    (h : listRunsUri http params headSha = .ok uri) :
    uri.toList = '/' :: (routePath owner repo params.workflow "runs" ++
      '?' :: routeQuery (runsParams params.branch headSha)) := by
  have htext : uri = "/repos/" ++ owner ++ "/" ++ repo ++ "/actions/workflows/" ++ params.workflow ++
      "/" ++ "runs" ++ ("?" ++ ("event=workflow_dispatch&per_page=100" ++
        (if params.branch = "" then "" else "&branch=" ++ params.branch) ++
        headSha.elim "" ("&head_sha=" ++ ·))) := by
    have hquery : "/runs?event=workflow_dispatch&per_page=100" =
        "/" ++ ("runs" ++ ("?" ++ "event=workflow_dispatch&per_page=100")) := by decide
    unfold listRunsUri at h
    rw [hsplit] at h
    simp only [bind, Except.bind] at h
    split at h
    case h_1 =>
      cases h
      rw [hquery]
      by_cases hempty : params.branch = "" <;> cases headSha <;>
        simp only [hempty, if_true, if_false, Option.elim_none, Option.elim_some, String.append_assoc,
          String.append_empty]
    case h_2 => cases h
  rw [htext, String.toList_append, toList_routePath, String.toList_append, toList_routeQuery]
  rfl

/-! ## What is read -/

variable {last : String}

/-- What validation keeps out of the parts of a path. -/
structure NoSlash (owner repo workflow : String) : Prop where
  owner : '/' ∉ owner.toList
  repo : '/' ∉ repo.toList
  workflow : '/' ∉ workflow.toList

theorem forall_plainSegment_iff (hlast : Uri.PlainSegment last.toList) :
    (∀ name ∈ (workflowSegments owner repo workflow last).map String.toList, Uri.PlainSegment name) ↔
      PlainPath owner repo workflow := by
  simp only [workflowSegments, List.map_cons, List.map_nil, List.forall_mem_cons]
  constructor
  · rintro ⟨-, howner, hrepo, -, -, hworkflow, -⟩
    exact ⟨howner, hrepo, hworkflow⟩
  · rintro ⟨howner, hrepo, hworkflow⟩
    exact ⟨by decide, howner, hrepo, by decide, by decide, hworkflow, hlast, List.forall_mem_nil _⟩

theorem segments_routePath_iff (hslash : NoSlash owner repo workflow) (tail : List Char)
    (hlast : '/' ∉ last.toList) (hplain : Uri.PlainSegment last.toList)
    (htail : ∀ c ∈ tail.head?, c = '?') :
    Uri.segments ('/' :: (routePath owner repo workflow last ++ tail)) =
        (workflowSegments owner repo workflow last).map (fun name => Uri.encode name.toList) ↔
      PlainPath owner repo workflow := by
  have hnames : ∀ name ∈ (workflowSegments owner repo workflow last).map String.toList,
      '/' ∉ name := by
    simp only [workflowSegments, List.map_cons, List.map_nil, List.forall_mem_cons]
    exact ⟨by decide, hslash.owner, hslash.repo, by decide, by decide, hslash.workflow, hlast,
      List.forall_mem_nil _⟩
  have hne : (workflowSegments owner repo workflow last).map String.toList ≠ [] :=
    List.cons_ne_nil _ _
  have hread := Uri.segments_eq_iff hne hnames htail
  rw [List.map_map] at hread
  exact hread.trans (forall_plainSegment_iff hplain)

theorem not_mem_of_plainPath (hplain : PlainPath owner repo workflow)
    (hlast : Uri.PlainSegment last.toList) :
    '?' ∉ '/' :: routePath owner repo workflow last ∧
      '#' ∉ '/' :: routePath owner repo workflow last := by
  have hnames := (forall_plainSegment_iff hlast).mpr hplain
  refine ⟨List.not_mem_cons_of_ne_of_not_mem (by decide) ?_,
    List.not_mem_cons_of_ne_of_not_mem (by decide) ?_⟩
  · exact Uri.not_mem_intercalate (by decide) fun name hname => (hnames name hname).1
  · exact Uri.not_mem_intercalate (by decide) fun name hname => (hnames name hname).2.1

theorem carries_dispatch_iff (hslash : NoSlash owner repo workflow)
    (h : buildDispatchUri http owner repo workflow = .ok uri) :
    Carries uri (workflowSegments owner repo workflow "dispatches") [] ↔
      PlainPath owner repo workflow := by
  have huri := toList_of_buildDispatchUri h
  have hlast : Uri.PlainSegment "dispatches".toList := by decide
  have hpath := segments_routePath_iff hslash [] (by decide) hlast (fun c hc => by cases hc)
  rw [List.append_nil, ← huri] at hpath
  refine ⟨fun h => hpath.mp h.segments, fun hplain => ⟨hpath.mpr hplain, ?_⟩⟩
  rw [huri]
  exact Uri.queryPairs_of_not_mem (not_mem_of_plainPath hplain hlast).1

theorem forall_runsParams_iff {branch : String} {headSha : Option String}
    {P : String × String → Prop} :
    (∀ param ∈ runsParams branch headSha, P param) ↔
      (P ("event", "workflow_dispatch") ∧ P ("per_page", "100")) ∧
        (branch ≠ "" → P ("branch", branch)) ∧ ∀ sha ∈ headSha, P ("head_sha", sha) := by
  have hbranch : (∀ param ∈ if branch = "" then [] else [("branch", branch)], P param) ↔
      (branch ≠ "" → P ("branch", branch)) := by
    by_cases hempty : branch = "" <;> simp [hempty]
  simp only [runsParams, List.forall_mem_append, hbranch, List.forall_mem_map, List.forall_mem_cons,
    Option.mem_toList, Option.mem_def, List.not_mem_nil, false_implies, implies_true, and_true]
  exact and_assoc

theorem forall_plainValue_iff {branch : String} {headSha : Option String}
    (hhex : ∀ sha ∈ headSha, ∀ c ∈ sha.toList, (Uri.hexDigit? c).isSome) :
    (∀ pair ∈ (runsParams branch headSha).map paramChars, Uri.PlainValue pair.2) ↔
      Uri.PlainValue branch.toList := by
  rw [List.forall_mem_map, forall_runsParams_iff]
  constructor
  · rintro ⟨-, hbranch, -⟩
    by_cases hempty : branch = ""
    · rw [hempty]
      decide
    · exact hbranch hempty
  · intro hbranch
    exact ⟨⟨by decide, by decide⟩, fun _ => hbranch, fun sha hsha => Uri.plainValue_of_hex (hhex sha hsha)⟩

theorem plain_names (branch : String) (headSha : Option String) :
    ∀ pair ∈ (runsParams branch headSha).map paramChars, '=' ∉ pair.1 ∧ Uri.PlainValue pair.1 := by
  simp only [List.forall_mem_map, forall_runsParams_iff, paramChars]
  have hbranch : '=' ∉ "branch".toList ∧ Uri.PlainValue "branch".toList := by decide
  have hsha : '=' ∉ "head_sha".toList ∧ Uri.PlainValue "head_sha".toList := by decide
  exact ⟨⟨by decide, by decide⟩, fun _ => hbranch, fun _ _ => hsha⟩

theorem carries_runs_iff {params : CorrelateParams} {headSha : Option String}
    (hslash : NoSlash owner repo params.workflow) (hsplit : splitRepo params.repo = .ok (owner, repo))
    (hhex : ∀ sha ∈ headSha, ∀ c ∈ sha.toList, (Uri.hexDigit? c).isSome)
    (h : listRunsUri http params headSha = .ok uri) :
    Carries uri (workflowSegments owner repo params.workflow "runs")
        (runsParams params.branch headSha) ↔
      PlainPath owner repo params.workflow ∧ Uri.PlainValue params.branch.toList := by
  have huri := toList_of_listRunsUri hsplit h
  have hlast : Uri.PlainSegment "runs".toList := by decide
  have hpath := segments_routePath_iff hslash ('?' :: routeQuery (runsParams params.branch headSha))
    (by decide) hlast (fun c hc => by simpa using hc.symm)
  rw [← huri] at hpath
  have hquery (hplain : PlainPath owner repo params.workflow) : Uri.queryPairs uri.toList =
        (runsParams params.branch headSha).map (fun param =>
          (Uri.encode param.1.toList, Uri.encode param.2.toList)) ↔
      Uri.PlainValue params.branch.toList := by
    have hbefore := not_mem_of_plainPath hplain hlast
    have hne : (runsParams params.branch headSha).map paramChars ≠ [] := List.cons_ne_nil _ _
    have hread := Uri.queryPairs_eq_iff hbefore.1 hbefore.2 hne (plain_names params.branch headSha)
    have hbytes : ((runsParams params.branch headSha).map paramChars).map Uri.pairBytes =
        (runsParams params.branch headSha).map fun param =>
          (Uri.encode param.1.toList, Uri.encode param.2.toList) := List.map_map
    rw [hbytes] at hread
    rw [huri, ← forall_plainValue_iff hhex]
    exact hread
  constructor
  · intro h
    have hplain := hpath.mp h.segments
    exact ⟨hplain, (hquery hplain).mp h.query⟩
  · rintro ⟨hplain, hbranch⟩
    exact ⟨hpath.mpr hplain, (hquery hplain).mpr hbranch⟩

end Uris

/-! ## Accepted actions -/

theorem slash_not_mem {s : String} (h : WorkflowOk s) : '/' ∉ s.toList := by
  intro hmem
  obtain ⟨before, after, htext⟩ := List.append_of_mem hmem
  have hcontains : textContains s "/" = true := by
    rw [textContains, htext]
    refine List.any_eq_true.mpr ⟨'/' :: after, ?_, by simp⟩
    exact (List.mem_tails _ _).mpr (List.suffix_append _ _)
  rw [h.slash] at hcontains
  cases hcontains

variable {crates : Validate.Crates} {source path : String} {raw : RawConfig} {cfg : ValidConfig}
  {flow : FlowConfig}

theorem noSlash_of_validate (hok : validate crates source path raw = .ok cfg)
    (hflow : flow ∈ cfg.flow) : ∃ owner repo, splitRepo flow.action.repo = .ok (owner, repo) ∧
      flow.action.repo = owner ++ "/" ++ repo ∧ NoSlash owner repo flow.action.workflow := by
  obtain ⟨r, hr, hgives⟩ := Validation.exists_of_mem_right (gives_of_validate hok).flow hflow
  have hvalid := ((isOk_validate_iff.mp ⟨cfg, hok⟩).flow r hr).action
  obtain ⟨repo, hrepo, hrepoOk⟩ := hvalid.repo
  obtain ⟨workflow, hworkflow, hworkflowOk⟩ := hvalid.workflow
  have hrepoEq := hgives.action.repo
  have hworkflowEq := hgives.action.workflow
  rw [hrepo, Option.map_some, Option.some.injEq] at hrepoEq
  rw [hworkflow, Option.map_some, Option.some.injEq] at hworkflowEq
  rw [hrepoEq] at hrepoOk
  rw [hworkflowEq] at hworkflowOk
  obtain ⟨owner, repo, hsplit, htext, howner, hrepo⟩ := hrepoOk.splitRepo
  exact ⟨owner, repo, hsplit, htext, howner, hrepo, slash_not_mem hworkflowOk⟩

structure ParamsOf (action : ActionConfig) (params : CorrelateParams) : Prop where
  repo : params.repo = action.repo
  workflow : params.workflow = action.workflow
  branch : params.branch = refToBranch action.refName

/-- For every accepted configuration and every flow of it: what is parsed of the two routes
carries exactly their parameters if and only if these hold nothing that a URI gives another
meaning to. -/
theorem request_uris_carry_iff (hok : validate crates source path raw = .ok cfg)
    (hflow : flow ∈ cfg.flow) (http : HttpCrate) (params : CorrelateParams)
    (hparams : ParamsOf flow.action params) (headSha : Option String)
    (hhex : ∀ sha ∈ headSha, ∀ c ∈ sha.toList, (Uri.hexDigit? c).isSome) :
    ∃ owner repo, flow.action.repo = owner ++ "/" ++ repo ∧
      splitRepo flow.action.repo = .ok (owner, repo) ∧
      (∀ uri, buildDispatchUri http owner repo flow.action.workflow = .ok uri →
        (Carries uri (workflowSegments owner repo flow.action.workflow "dispatches") [] ↔
          PlainPath owner repo flow.action.workflow)) ∧
      ∀ uri, listRunsUri http params headSha = .ok uri →
        (Carries uri (workflowSegments owner repo flow.action.workflow "runs")
            (runsParams (refToBranch flow.action.refName) headSha) ↔
          PlainPath owner repo flow.action.workflow ∧
            Uri.PlainValue (refToBranch flow.action.refName).toList) := by
  obtain ⟨owner, repo, hsplit, htext, hslash⟩ := noSlash_of_validate hok hflow
  refine ⟨owner, repo, htext, hsplit, fun uri h => carries_dispatch_iff hslash h, fun uri h => ?_⟩
  rw [← hparams.workflow, ← hparams.branch]
  exact carries_runs_iff (hparams.workflow ▸ hslash) (hparams.repo ▸ hsplit) hhex h

section Runs

def dispatchFlow (refName : String) : RawFlowConfig where
  name := ⟨"ci", 0⟩
  source := { url := ⟨"https://github.com/o/r.git", 0⟩, refName := ⟨"refs/heads/main", 0⟩ }
  action := {
    kind := ⟨"github_workflow_dispatch", 0⟩
    repo := some ⟨"o/r", 0⟩
    workflow := some ⟨"ci.yml", 0⟩
    refName := some ⟨refName, 0⟩
    credentialId := some ⟨"gh", 0⟩ }

theorem dispatchFlow_valid {refName : String} (h : startsWith refName "refs/" = true) :
    RawConfig.Valid Notify.mailCrates { flow := [dispatchFlow refName] } where
  poll := ⟨nofun, nofun, nofun, nofun⟩
  http := nofun
  nonempty := List.cons_ne_nil _ _
  flow := by
    intro f hf
    obtain rfl := List.mem_singleton.mp hf
    have hname : NameOk MAX_FLOW_NAME_LEN "ci" :=
      ⟨by decide, by decide, List.all_eq_true.mp (by decide)⟩
    have hsource : startsWith "refs/heads/main" "refs/" = true := by decide +kernel
    have hworkflow : WorkflowOk "ci.yml" := ⟨by decide, by decide, by decide, by decide +kernel⟩
    have hid : IdOk "gh" := ⟨by decide, by decide, by decide, List.all_eq_true.mp (by decide)⟩
    have hrepo : ownerRepo "o/r" = true := by decide +kernel
    exact ⟨hname, ⟨⟨_, rfl, by decide⟩, hsource, nofun⟩, ⟨rfl, ⟨_, rfl, ownerRepo_iff.mp hrepo⟩,
      ⟨_, rfl, hworkflow⟩, ⟨_, rfl, h⟩, ⟨_, rfl, hid⟩, by simp [dispatchFlow]⟩,
      List.forall_mem_nil _, ⟨nofun, nofun, nofun, nofun⟩⟩
  names := List.nodup_singleton _
  credentials := by
    intro a ha b hb _
    rw [List.mem_singleton.mp ha, List.mem_singleton.mp hb]

theorem action_of_dispatchFlow {refName : String} {cfg : ValidConfig}
    (hok : validate Notify.mailCrates "" "gcit.toml" { flow := [dispatchFlow refName] } = .ok cfg) :
    ∃ flow ∈ cfg.flow, flow.action.repo = "o/r" ∧ flow.action.workflow = "ci.yml" ∧
      flow.action.refName = refName := by
  have hflows := (gives_of_validate hok).flow
  generalize cfg.flow = flows at hflows
  cases hflows with
  | @cons _ flow _ _ hgives hrest =>
    have hrepo : some "o/r" = some flow.action.repo := hgives.action.repo
    have hworkflow : some "ci.yml" = some flow.action.workflow := hgives.action.workflow
    have href : some refName = some flow.action.refName := hgives.action.refName
    exact ⟨flow, List.mem_cons_self, (Option.some.inj hrepo).symm, (Option.some.inj hworkflow).symm,
      (Option.some.inj href).symm⟩

def dispatchedOn (refName : String) : CorrelateParams where
  repo := "o/r"
  workflow := "ci.yml"
  gcitRunId := .repeated 1
  branch := refToBranch refName
  headSha := "aa"
  dispatchedAt := 0
  runNameConfigured := none

theorem paramsOf_dispatchedOn {refName : String} {action : ActionConfig} (hrepo : action.repo = "o/r")
    (hworkflow : action.workflow = "ci.yml") (href : action.refName = refName) :
    ParamsOf action (dispatchedOn refName) :=
  ⟨hrepo.symm, hworkflow.symm, congrArg refToBranch href.symm⟩

theorem main_branch_carried : ∃ uri,
    listRunsUri plainHttp (dispatchedOn "refs/heads/main") (some "aa") = .ok uri ∧
      Carries uri (workflowSegments "o" "r" "ci.yml" "runs") (runsParams "main" (some "aa")) := by
  obtain ⟨cfg, hok⟩ : ∃ cfg, validate Notify.mailCrates "" "gcit.toml"
      { flow := [dispatchFlow "refs/heads/main"] } = .ok cfg :=
    isOk_validate_iff.mpr (dispatchFlow_valid (by decide +kernel))
  obtain ⟨flow, hflow, hrepo, hworkflow, href⟩ := action_of_dispatchFlow hok
  have huri : listRunsUri plainHttp (dispatchedOn "refs/heads/main") (some "aa") = .ok
      ("/repos/o/r/actions/workflows/ci.yml/runs?event=workflow_dispatch&per_page=100" ++
        "&branch=main&head_sha=aa") := by decide +kernel
  have hhex : ∀ sha ∈ some "aa", ∀ c ∈ sha.toList, (Uri.hexDigit? c).isSome := by
    rintro sha ⟨⟩
    exact List.all_eq_true.mp (by decide)
  obtain ⟨owner, repo, -, hsplit, -, hruns⟩ := request_uris_carry_iff hok hflow plainHttp _
    (paramsOf_dispatchedOn hrepo hworkflow href) (some "aa") hhex
  have hparts : splitRepo "o/r" = .ok ("o", "r") := by decide +kernel
  rw [hrepo, hparts] at hsplit
  cases hsplit
  rw [hworkflow, href] at hruns
  exact ⟨_, huri, (hruns _ huri).mpr ⟨⟨by decide, by decide, by decide⟩, by decide⟩⟩

/-- The branch `c++` is accepted, and the server is asked for the runs of another one. -/
theorem plus_branch_misread :
    (∃ cfg, validate Notify.mailCrates "" "gcit.toml" { flow := [dispatchFlow "refs/heads/c++"] } =
        .ok cfg ∧ ∃ flow ∈ cfg.flow, ParamsOf flow.action (dispatchedOn "refs/heads/c++")) ∧
      ∃ uri, listRunsUri plainHttp (dispatchedOn "refs/heads/c++") none = .ok uri ∧
        ("branch".toList.flatMap String.utf8EncodeChar, "c  ".toList.flatMap String.utf8EncodeChar) ∈
          Uri.queryPairs uri.toList ∧
        ¬ Carries uri (workflowSegments "o" "r" "ci.yml" "runs") (runsParams "c++" none) := by
  obtain ⟨cfg, hok⟩ : ∃ cfg, validate Notify.mailCrates "" "gcit.toml"
      { flow := [dispatchFlow "refs/heads/c++"] } = .ok cfg :=
    isOk_validate_iff.mpr (dispatchFlow_valid (by decide +kernel))
  obtain ⟨flow, hflow, hrepo, hworkflow, href⟩ := action_of_dispatchFlow hok
  refine ⟨⟨cfg, hok, flow, hflow, paramsOf_dispatchedOn hrepo hworkflow href⟩,
    "/repos/o/r/actions/workflows/ci.yml/runs?event=workflow_dispatch&per_page=100&branch=c++",
    by decide +kernel, by decide +kernel, fun h => ?_⟩
  exact absurd h.query (by decide +kernel)

end Runs

end Gcit.Github
