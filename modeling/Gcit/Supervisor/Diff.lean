import Gcit.Config.Types
import Mathlib.Data.List.Sort

/-! # When a flow is unchanged across a reload

Source, action and poll override are compared through their JSON values,
destinations as a multiset of rendered values in which the order of `fire_on`
does not count. Rendering a value to text is the JSON crate's; it enters as a
parameter beside the URL parsers.
-/

namespace Gcit.Supervisor

open Std Gcit Gcit.Git Gcit.Library

structure Crates extends UrlCrates where
  jsonToString : Json → String

/-- A duration is written as its whole seconds and the rest in nanoseconds. -/
def durationValue (d : Duration) : Json :=
  .object [("nanos", .number (d % 1000000000 : Nat)), ("secs", .number (d / 1000000000 : Nat))]

def sourceValue (s : SourceConfig) : Json :=
  .object [("credential_id", .ofOption .string s.credentialId), ("ref", .string s.refName),
    ("url", .string s.url)]

def actionValue (a : ActionConfig) : Json :=
  .object [("credential_id", .string a.credentialId),
    ("inputs", .object (a.inputs.toList.map fun (k, v) => (k, .string v))),
    ("kind", .string "github_workflow_dispatch"), ("ref", .string a.refName),
    ("repo", .string a.repo), ("workflow", .string a.workflow)]

def pollValue (p : PollOverride) : Json :=
  .object [("cooldown", .ofOption durationValue p.cooldown),
    ("jitter", .ofOption .number p.jitter),
    ("job_interval", .ofOption durationValue p.jobInterval),
    ("source_interval", .ofOption durationValue p.sourceInterval)]

def flowDiffValue (f : FlowConfig) : Json :=
  .object [("action", actionValue f.action), ("poll", pollValue f.poll),
    ("source", sourceValue f.source)]

def FireEvent.value : FireEvent → Json
  | .runStart => .string "run_start"
  | .jobComplete => .string "job_complete"
  | .runComplete => .string "run_complete"

def destinationValue : Destination → Json
  | .discordWebhook credentialId fireOn template =>
    .object [("credential_id", .string credentialId), ("fire_on", .array (fireOn.map FireEvent.value)),
      ("kind", .string "discord_webhook"),
      ("template", .object [("collapsed_summary", .ofOption .string template.collapsedSummary),
        ("description", .ofOption .string template.description),
        ("field_name", .ofOption .string template.fieldName),
        ("field_value", .ofOption .string template.fieldValue),
        ("title", .ofOption .string template.title)])]
  | .localMail user fireOn template =>
    .object [("fire_on", .array (fireOn.map FireEvent.value)), ("kind", .string "local_mail"),
      ("template", .object [("body", .ofOption .string template.body),
        ("subject", .ofOption .string template.subject)]),
      ("user", .string user)]

variable (crates : Crates)

def canonicalizeFireOn : Json → Json
  | .object fields => .object (fields.map fun (k, v) => match v with
    | .array items =>
      if k = "fire_on" then
        (k, .array (items.insertionSort fun a b => crates.jsonToString a ≤ crates.jsonToString b))
      else (k, v)
    | _ => (k, v))
  | v => v

def canonicalDestinationMultiset (destinations : List Destination) : List String :=
  (destinations.map fun d =>
    crates.jsonToString (canonicalizeFireOn crates (destinationValue d))).insertionSort (· ≤ ·)

def flowConfigUnchanged (old new : FlowConfig) : Bool :=
  old.enabled == new.enabled && decide (flowDiffValue old = flowDiffValue new) &&
    canonicalDestinationMultiset crates old.destination ==
      canonicalDestinationMultiset crates new.destination

variable {crates}

theorem ofOption_string_injective : Function.Injective (Json.ofOption .string) :=
  Json.ofOption_injective (fun _ _ h => Json.string.inj h) fun _ h => by cases h

theorem durationValue_injective : Function.Injective durationValue := by
  intro a b h
  simp only [durationValue, Json.object.injEq, List.cons.injEq, Prod.mk.injEq, true_and, and_true,
    Json.number.injEq, Rat.natCast_inj] at h
  obtain ⟨hnanos, hsecs⟩ := h
  rw [← Nat.div_add_mod a 1000000000, ← Nat.div_add_mod b 1000000000, hnanos, hsecs]

theorem ofOption_duration_injective : Function.Injective (Json.ofOption durationValue) :=
  Json.ofOption_injective durationValue_injective fun _ h => by cases h

theorem sourceValue_injective : Function.Injective sourceValue := by
  intro a b h
  simp only [sourceValue, Json.object.injEq, List.cons.injEq, Prod.mk.injEq, true_and, and_true,
    Json.string.injEq] at h
  obtain ⟨hcred, href, hurl⟩ := h
  have hcred := ofOption_string_injective hcred
  cases a
  cases b
  simp_all

theorem actionValue_injective : Function.Injective actionValue := by
  intro a b h
  simp only [actionValue, Json.object.injEq, List.cons.injEq, Prod.mk.injEq, true_and, and_true,
    Json.string.injEq] at h
  obtain ⟨hcred, hinputs, href, hrepo, hworkflow⟩ := h
  have hinputs : a.inputs = b.inputs := by
    have hentry : Function.Injective fun e : String × String => (e.1, Json.string e.2) := by
      rintro ⟨k, v⟩ ⟨l, w⟩ h
      obtain ⟨hk, hv⟩ := Prod.mk.inj h
      exact Prod.ext hk (Json.string.inj hv)
    exact ExtTreeMap.toList_inj.mp (hentry.list_map hinputs)
  cases a
  cases b
  simp_all

theorem pollValue_injective : Function.Injective pollValue := by
  intro a b h
  simp only [pollValue, Json.object.injEq, List.cons.injEq, Prod.mk.injEq, true_and, and_true] at h
  obtain ⟨hcooldown, hjitter, hjob, hsource⟩ := h
  have hcooldown := ofOption_duration_injective hcooldown
  have hjitter := Json.ofOption_injective (fun _ _ h => Json.number.inj h) (fun _ h => by cases h)
    hjitter
  have hjob := ofOption_duration_injective hjob
  have hsource := ofOption_duration_injective hsource
  cases a
  cases b
  simp_all

theorem flowDiffValue_eq_iff {old new : FlowConfig} : flowDiffValue old = flowDiffValue new ↔
    old.source = new.source ∧ old.action = new.action ∧ old.poll = new.poll := by
  simp only [flowDiffValue, Json.object.injEq, List.cons.injEq, Prod.mk.injEq, true_and, and_true,
    actionValue_injective.eq_iff, pollValue_injective.eq_iff, sourceValue_injective.eq_iff]
  tauto

theorem flowConfigUnchanged_iff {old new : FlowConfig} :
    flowConfigUnchanged crates old new = true ↔ old.enabled = new.enabled ∧
      (old.source = new.source ∧ old.action = new.action ∧ old.poll = new.poll) ∧
      canonicalDestinationMultiset crates old.destination =
        canonicalDestinationMultiset crates new.destination := by
  rw [flowConfigUnchanged, Bool.and_eq_true, Bool.and_eq_true, beq_iff_eq, decide_eq_true_eq,
    beq_iff_eq, flowDiffValue_eq_iff, and_assoc]

theorem source_eq_of_unchanged {old new : FlowConfig}
    (h : flowConfigUnchanged crates old new = true) : old.source = new.source :=
  (flowConfigUnchanged_iff.1 h).2.1.1

theorem action_eq_of_unchanged {old new : FlowConfig}
    (h : flowConfigUnchanged crates old new = true) : old.action = new.action :=
  (flowConfigUnchanged_iff.1 h).2.1.2.1

theorem poll_eq_of_unchanged {old new : FlowConfig}
    (h : flowConfigUnchanged crates old new = true) : old.poll = new.poll :=
  (flowConfigUnchanged_iff.1 h).2.1.2.2

end Gcit.Supervisor
