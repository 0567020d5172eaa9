import Gcit.Config.CredentialId
import Gcit.Library.Handlebars
import Gcit.Library.OrderedMap
import Gcit.Library.Validation

/-! # The raw configuration and the errors about it

What the TOML parser hands to validation: texts and numbers with the place they
stand at. The passes over it share one list of errors and three tables that are
looked into when every flow was seen. The parsers of durations, URLs and templates
are crates, and so are the debug and the float renderings of the error texts.
-/

namespace Gcit.Validate

open Std Gcit Gcit.Git Gcit.Library Gcit.Library.OrderedMap Gcit.Library.Validation

structure Spanned (α : Type) where
  value : α
  /-- The byte offset of its first byte. -/
  start : Nat
  deriving DecidableEq

/-- A double, without the sign of zero. -/
inductive F64 where
  | finite (value : Rat)
  | infinite (negative : Bool)
  | nan
  deriving DecidableEq

structure RawPollDefaults where
  sourceInterval : Option (Spanned String) := none
  jobInterval : Option (Spanned String) := none
  jitter : Option (Spanned F64) := none
  cooldown : Option (Spanned String) := none

structure RawLogConfig where
  filter : Option String := none

structure RawHttpConfig where
  requestTimeout : Option (Spanned String) := none

structure RawSourceConfig where
  url : Spanned String
  refName : Spanned String
  credentialId : Option (Spanned String) := none

structure RawActionConfig where
  kind : Spanned String
  repo : Option (Spanned String) := none
  workflow : Option (Spanned String) := none
  refName : Option (Spanned String) := none
  credentialId : Option (Spanned String) := none
  inputs : ExtTreeMap String String := ∅

structure RawDestinationTemplateConfig where
  title : Option (Spanned String) := none
  description : Option (Spanned String) := none
  fieldName : Option (Spanned String) := none
  fieldValue : Option (Spanned String) := none
  collapsedSummary : Option (Spanned String) := none
  subject : Option (Spanned String) := none
  body : Option (Spanned String) := none

structure RawDestination where
  kind : Spanned String
  credentialId : Option (Spanned String) := none
  user : Option (Spanned String) := none
  fireOn : Option (List (Spanned FireEvent)) := none
  template : RawDestinationTemplateConfig := {}

structure RawPollOverride where
  sourceInterval : Option (Spanned String) := none
  jobInterval : Option (Spanned String) := none
  jitter : Option (Spanned F64) := none
  cooldown : Option (Spanned String) := none

structure RawFlowConfig where
  name : Spanned String
  enabled : Bool := true
  description : Option String := none
  source : RawSourceConfig
  action : RawActionConfig
  destination : List RawDestination := []
  poll : RawPollOverride := {}

structure RawConfig where
  poll : RawPollDefaults := {}
  log : RawLogConfig := {}
  http : RawHttpConfig := {}
  flow : List RawFlowConfig := []

inductive ConfigError where
  | parse (path : String) (line : Nat) (message : String)
  | validate (path : String) (lines : List Nat) (flow : Option String)
      (field value message suggestion : String)
  | templateCompile (path : String) (line : Nat) (flow field source : String)
  deriving DecidableEq

structure Crates extends UrlCrates where
  parseDuration : String → Except String Duration
  handlebars : Handlebars.Registry
  charDebug : Char → String
  f64Display : F64 → String

/-- The tables filled on the side: the occurrences of ids by environment variable, the
lines of each id, and the lines of each flow name that is valid. -/
structure Tables where
  envVarIndex : ExtTreeMap String (List (String × Nat × String))
  credentialLines : ExtTreeMap CredentialId (List Nat)
  nameIndex : ExtTreeMap String (List Nat)

inductive Noted where
  | credential (id : CredentialId) (line : Nat) (flow : String)
  | name (name : String) (line : Nat)

namespace Tables

def empty : Tables := ⟨∅, ∅, ∅⟩

def record (t : Tables) : Noted → Tables
  | .credential id line flow =>
    { t with
      envVarIndex := pushAt t.envVarIndex (toEnvVar id) (id, line, flow)
      credentialLines := pushAt t.credentialLines id line }
  | .name name line => { t with nameIndex := pushAt t.nameIndex name line }

end Tables

abbrev Checking := Check ConfigError Tables

/-- The 1-based line of a byte offset; offsets past the end are in the last line. -/
def byteOffsetToLine (source : String) (offset : Nat) : Nat :=
  1 + (source.toUTF8.data.toList.take offset).count 10

def spanLine {α : Type} (source : String) (span : Spanned α) : Nat :=
  byteOffsetToLine source span.start

def validateErr (path : String) (lines : List Nat) (flow : Option String)
    (field value message suggestion : String) : ConfigError :=
  .validate path (if lines = [] then [1] else lines) flow field value message suggestion

/-- A check of one setting says when it finds nothing wrong and what it answers then; it
notes nothing. -/
abbrev ChecksField {α : Type} (c : Checking α) (valid : Prop) (gives : α → Prop) : Prop :=
  Checks Tables.record c valid [] gives

def MIN_INTERVAL : Duration := seconds 15
def MAX_INTERVAL : Duration := seconds (24 * 60 * 60)
def MAX_LOCAL_MAIL_USER_LEN : Nat := 32
def MAX_FLOW_NAME_LEN : Nat := 64
def MIN_HTTP_TIMEOUT : Duration := seconds 1
def MAX_HTTP_TIMEOUT : Duration := seconds 300

def asSecs (d : Duration) : Nat := d / 1000000000

end Gcit.Validate
