import Gcit.Config.Raw

/-! # Template fields

A template field is compiled, searched for bare names, and rendered once against
stub values of every documented variable. What goes through is kept as the text
it came as.
-/

namespace Gcit.Validate

open Gcit Gcit.Library Gcit.Library.Handlebars Gcit.Library.Validation

def TEMPLATE_NAMESPACES : List String := ["flow", "source", "action", "run", "job", "gcit"]

def namespaceFormExamples : String :=
  ", ".intercalate (TEMPLATE_NAMESPACES.map fun n => n ++ ".<field>")

mutual

/-- The bare name of one element; a dotted or slashed name sends the search into its blocks. -/
def elementBareName : TemplateElement → Option String
  | .helper _ name _ template inverse =>
    match name.asName with
    | none => none
    | some n =>
      if !textContains n "." && !textContains n "/" then some n
      else (innerBareName template).or (innerBareName inverse)
  | .rawString _ => none
  | .other => none

def innerBareName : Option (List TemplateElement) → Option String
  | none => none
  | some inner => findBareName inner

def findBareName : List TemplateElement → Option String
  | [] => none
  | element :: elements => (elementBareName element).or (findBareName elements)

end

/-- Stub values of every documented variable. -/
def probeContext : Json := .object [
  ("action", .object [
    ("dispatched_at", .string "2026-04-26T12:34:56Z"),
    ("repo", .string "myorg/linux-builder"),
    ("run_id", .number 1234567890),
    ("run_url", .string "https://github.com/myorg/linux-builder/actions/runs/1234567890"),
    ("workflow", .string "ci.yml")]),
  ("flow", .object [
    ("description", .string "Watch torvalds/linux master and dispatch our CI builder."),
    ("name", .string "linux-mainline-ci")]),
  ("gcit", .object [("run_id", .string "00000000-0000-0000-0000-000000000000")]),
  ("job", .object [
    ("attempt", .number 1),
    ("conclusion", .string "success"),
    ("id", .number 9876543210),
    ("name", .string "build-and-test"),
    ("url", .string
      "https://github.com/myorg/linux-builder/actions/runs/1234567890/job/9876543210")]),
  ("run", .object [("conclusion", .string "success"), ("status", .string "completed")]),
  ("source", .object [
    ("ref_name", .string "refs/heads/master"),
    ("sha", .string (String.ofList (List.replicate 40 'a'))),
    ("sha_short", .string (String.ofList (List.replicate 12 'a'))),
    ("url", .string "https://git.kernel.org/pub/scm/linux/kernel/git/torvalds/linux.git")])]

variable (crates : Crates) (source path : String)

def compileTemplateField (template : Option (Spanned String)) (field flowName : String) :
    Checking (Option String) :=
  onField template fun spanned =>
    let raw := spanned.value
    let line := spanLine source spanned
    match crates.handlebars.registerTemplateString field raw with
    | .error e => do
      push (.templateCompile path line flowName field e)
      return none
    | .ok tpl =>
      match findBareName tpl with
      | some bare => do
        push (validateErr path [line] (some flowName) field raw
          ("template references bare name '\x7b\x7b" ++ bare ++
            "\x7d\x7d'; only namespaced variables (" ++ namespaceFormExamples ++ ") are accepted")
          ("use a namespaced reference like '\x7b\x7bflow.name\x7d\x7d', " ++
            "'\x7b\x7bsource.sha_short\x7d\x7d' (got \x7b\x7b" ++ bare ++ "\x7d\x7d)"))
        return none
      | none =>
        match crates.handlebars.render tpl probeContext with
        | .error e => do
          push (validateErr path [line] (some flowName) field raw
            ("template fails to render against the probe context: " ++ e)
            ("use only documented variables (flow.name, source.sha, source.sha_short, " ++
              "action.repo, action.workflow, action.run_id, action.run_url, " ++
              "action.dispatched_at, run.status, run.conclusion, gcit.run_id, flow.description)"))
          return none
        | .ok _ => return some raw

def TemplateOk (s : String) : Prop :=
  ∃ tpl out, crates.handlebars.compile s = .ok tpl ∧ findBareName tpl = none ∧
    crates.handlebars.render tpl probeContext = .ok out

variable {crates source path}

theorem checks_compileTemplateField (template : Option (Spanned String)) (field flowName : String) :
    ChecksField (compileTemplateField crates source path template field flowName)
      (∀ s, template = some s → TemplateOk crates s.value)
      (· = template.map Spanned.value) := by
  have hfield : ChecksField (compileTemplateField crates source path template field flowName)
      (∀ s, template = some s → TemplateOk crates s.value)
      (Option.Rel (fun s t => t = s.value) template) := by
    refine .onField template fun spanned _ => ?_
    simp only [Handlebars.Registry.registerTemplateString]
    cases hcompile : crates.handlebars.compile spanned.value with
    | error e => exact .fails _ _ (by simp [TemplateOk, hcompile])
    | ok tpl =>
      cases hbare : findBareName tpl with
      | some bare =>
        simp only [Except.mapError, hbare]
        exact .fails _ _ (by simp [TemplateOk, hcompile, hbare])
      | none =>
        simp only [Except.mapError, hbare]
        cases hrender : crates.handlebars.render tpl probeContext with
        | error e => exact .fails _ _ (by simp [TemplateOk, hcompile, hrender])
        | ok out => exact .returns ⟨tpl, out, hcompile, hbare, hrender⟩ ⟨_, rfl, rfl⟩
  refine hfield.imp Iff.rfl fun _ => ⟨fun v hv => ?_, rfl⟩
  cases hv with
  | none => rfl
  | some h => rw [h]; rfl

end Gcit.Validate
