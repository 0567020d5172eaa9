import Gcit.Library.Json
import Gcit.Poll.Executor

/-! # The validated configuration

The record types the daemon works with after validation. Validation refuses two
flows of one name, so a configuration carries that fact. What only logging, the
HTTP client and error positions use is left out.
-/

namespace Gcit

open Std Gcit.Git Gcit.Poll Gcit.Library

abbrev CredentialId := String

structure SourceConfig where
  url : String
  refName : String
  credentialId : Option CredentialId
  deriving DecidableEq

/-- The one action kind is `github_workflow_dispatch`. -/
structure ActionConfig where
  repo : String
  workflow : String
  refName : String
  credentialId : CredentialId
  inputs : ExtTreeMap String String
  deriving DecidableEq

inductive FireEvent where
  | runStart
  | jobComplete
  | runComplete
  deriving DecidableEq, Repr

structure DiscordTemplateConfig where
  title : Option String := none
  description : Option String := none
  fieldName : Option String := none
  fieldValue : Option String := none
  collapsedSummary : Option String := none
  deriving DecidableEq

structure LocalMailTemplateConfig where
  subject : Option String := none
  body : Option String := none
  deriving DecidableEq

inductive Destination where
  | discordWebhook (credentialId : CredentialId) (fireOn : List FireEvent)
      (template : DiscordTemplateConfig)
  | localMail (user : String) (fireOn : List FireEvent) (template : LocalMailTemplateConfig)
  deriving DecidableEq

structure PollOverride where
  sourceInterval : Option Duration := none
  jobInterval : Option Duration := none
  jitter : Option Rat := none
  cooldown : Option Duration := none
  deriving DecidableEq

structure PollDefaults where
  sourceInterval : Option Duration := none
  jobInterval : Duration := seconds 30
  jitter : Rat := 1 / 10
  cooldown : Duration := seconds 300
  deriving DecidableEq

structure FlowConfig where
  name : String
  enabled : Bool
  description : Option String
  source : SourceConfig
  action : ActionConfig
  destination : List Destination
  poll : PollOverride
  deriving DecidableEq

structure Config where
  poll : PollDefaults
  flow : List FlowConfig
  distinct : (flow.map FlowConfig.name).Nodup
  deriving DecidableEq

namespace Config

def find? (c : Config) (name : String) : Option FlowConfig := c.flow.find? fun f => f.name == name

theorem mem_of_find? {c : Config} {name : String} {f : FlowConfig} (h : c.find? name = some f) :
    f ∈ c.flow ∧ f.name = name := by
  refine ⟨List.mem_of_find?_eq_some h, ?_⟩
  simpa using List.find?_some h

theorem find?_eq_some {c : Config} {f : FlowConfig} (h : f ∈ c.flow) : c.find? f.name = some f := by
  unfold find?
  obtain ⟨poll, flow, distinct⟩ := c
  simp only at h ⊢
  induction flow with
  | nil => cases h
  | cons g flow ih =>
    obtain ⟨hg, hflow⟩ := List.nodup_cons.mp distinct
    obtain rfl | h := List.mem_cons.mp h
    · simp
    · have hne : g.name ≠ f.name := fun hname => hg (hname ▸ List.mem_map_of_mem h)
      rw [List.find?_cons_of_neg (by simpa using hne)]
      exact ih hflow h

theorem eq_of_name_eq {c : Config} {f g : FlowConfig} (hf : f ∈ c.flow) (hg : g ∈ c.flow)
    (h : f.name = g.name) : f = g := by
  have hfind := find?_eq_some hf
  rw [h, find?_eq_some hg] at hfind
  exact (Option.some.inj hfind).symm

end Config

def effectivePoll (defaults : PollDefaults) (override_ : PollOverride) (strategy : PollStrategy) :
    EffectivePoll where
  sourceInterval :=
    (override_.sourceInterval.or defaults.sourceInterval).getD (defaultInterval strategy)
  jobInterval := override_.jobInterval.getD defaults.jobInterval
  jitter := override_.jitter.getD defaults.jitter
  cooldown := override_.cooldown.getD defaults.cooldown

end Gcit
