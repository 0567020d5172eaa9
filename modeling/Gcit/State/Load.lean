import Mathlib.Data.List.Induction
import Gcit.Library.Document
import Gcit.Library.Utf8
import Gcit.State.Writer

/-! # The state file

What `atomic_write_json` writes for a state and what `load_or_init` makes of a file.
The text of a document and of an instant are the business of `serde_json` and
`chrono`; which documents are states, and of what version, is decided here.
-/

namespace Gcit

open Std Gcit.Git Gcit.Library

/-- chrono's RFC 3339 codec. -/
structure Rfc3339 where
  format : DateTime → String
  parse : String → Option DateTime
  parse_format : ∀ t, parse (format t) = some t

/-- `serde_json` on texts. `skim` reads a text whose values are of no interest but one,
and so accepts what `parse` does; the two error texts are for a document of the wrong
shape. -/
structure SerdeJson where
  parse : String → Except String Document
  skim : String → Except String Document
  skim_of_parse : ∀ text d, parse text = .ok d → skim text = .ok d
  probeError : String → String
  stateError : String → String
  toStringPretty : Document → String
  display : Document → String
  debug : String → String

def Rfc3339.codec (chrono : Rfc3339) : Codec DateTime where
  write t := .string (chrono.format t)
  read
    | .string s => chrono.parse s
    | _ => none
  read_write := chrono.parse_format
  write_ne_null _ := nofun

variable (chrono : Rfc3339) (json : SerdeJson)

namespace RunState

def NAMES : List String := ["run_id", "started_at", "conclusion", "completed_at"]

def fields (run : RunState) : List (String × Option Document) :=
  [Codec.uint64.requiredField "run_id" run.runId,
    chrono.codec.requiredField "started_at" run.startedAt,
    Codec.string.optionalField "conclusion" run.conclusion,
    chrono.codec.optionalField "completed_at" run.completedAt]

def deserialize (d : Document) : Option RunState := do
  let fields ← d.fields NAMES
  return {
    runId := ← Codec.uint64.required fields "run_id"
    startedAt := ← chrono.codec.required fields "started_at"
    conclusion := ← Codec.string.optional fields "conclusion"
    completedAt := ← chrono.codec.optional fields "completed_at" }

theorem names_fields (run : RunState) : (run.fields chrono).map Prod.fst = NAMES := rfl

theorem deserialize_record (run : RunState) :
    deserialize chrono (.record (run.fields chrono)) = some run := by
  have hnodup : ((run.fields chrono).map Prod.fst).Nodup := by
    rw [names_fields]
    decide
  rw [deserialize, Document.fields_record hnodup (names_fields chrono run),
    Option.bind_eq_bind, Option.bind_some,
    Codec.required_present hnodup (a := run.runId) (by simp [fields]),
    Codec.required_present hnodup (a := run.startedAt) (by simp [fields]),
    Codec.optional_present hnodup (a := run.conclusion) (by simp [fields]),
    Codec.optional_present hnodup (a := run.completedAt) (by simp [fields])]
  rfl

def codec : Codec RunState where
  write run := .record (run.fields chrono)
  read := deserialize chrono
  read_write := deserialize_record chrono
  write_ne_null _ := nofun

end RunState

namespace FlowState

def NAMES : List String :=
  ["last_sha", "last_poll_at", "last_dispatched_at", "cooldown_until", "active_runs",
    "notified_runs"]

def fields (f : FlowState) : List (String × Option Document) :=
  [Codec.string.optionalField "last_sha" f.lastSha,
    chrono.codec.optionalField "last_poll_at" f.lastPollAt,
    chrono.codec.optionalField "last_dispatched_at" f.lastDispatchedAt,
    chrono.codec.optionalField "cooldown_until" f.cooldownUntil,
    (RunState.codec chrono).itemsField "active_runs" f.activeRuns,
    (RunState.codec chrono).itemsField "notified_runs" f.notifiedRuns]

def deserialize (d : Document) : Option FlowState := do
  let fields ← d.fields NAMES
  return {
    lastSha := ← Codec.string.optional fields "last_sha"
    lastPollAt := ← chrono.codec.optional fields "last_poll_at"
    lastDispatchedAt := ← chrono.codec.optional fields "last_dispatched_at"
    cooldownUntil := ← chrono.codec.optional fields "cooldown_until"
    activeRuns := ← (RunState.codec chrono).items fields "active_runs"
    notifiedRuns := ← (RunState.codec chrono).items fields "notified_runs" }

theorem names_fields (f : FlowState) : (f.fields chrono).map Prod.fst = NAMES := rfl

theorem deserialize_record (f : FlowState) :
    deserialize chrono (.record (f.fields chrono)) = some f := by
  have hnodup : ((f.fields chrono).map Prod.fst).Nodup := by
    rw [names_fields]
    decide
  rw [deserialize, Document.fields_record hnodup (names_fields chrono f),
    Option.bind_eq_bind, Option.bind_some,
    Codec.optional_present hnodup (a := f.lastSha) (by simp [fields]),
    Codec.optional_present hnodup (a := f.lastPollAt) (by simp [fields]),
    Codec.optional_present hnodup (a := f.lastDispatchedAt) (by simp [fields]),
    Codec.optional_present hnodup (a := f.cooldownUntil) (by simp [fields]),
    Codec.items_present hnodup (l := f.activeRuns) (by simp [fields]),
    Codec.items_present hnodup (l := f.notifiedRuns) (by simp [fields])]
  rfl

def codec : Codec FlowState where
  write f := .record (f.fields chrono)
  read := deserialize chrono
  read_write := deserialize_record chrono
  write_ne_null _ := nofun

end FlowState

namespace State

def NAMES : List String := ["schema", "flows"]

def fields (s : State) : List (String × Option Document) :=
  [Codec.uint32.requiredField "schema" s.schema,
    (FlowState.codec chrono).treeMap.requiredField "flows" s.flows]

def deserialize (d : Document) : Option State := do
  let fields ← d.fields NAMES
  return {
    schema := ← Codec.uint32.required fields "schema"
    flows := ← (FlowState.codec chrono).treeMap.required fields "flows" }

theorem names_fields (s : State) : (s.fields chrono).map Prod.fst = NAMES := rfl

theorem deserialize_record (s : State) :
    deserialize chrono (.record (s.fields chrono)) = some s := by
  have hnodup : ((s.fields chrono).map Prod.fst).Nodup := by
    rw [names_fields]
    decide
  rw [deserialize, Document.fields_record hnodup (names_fields chrono s),
    Option.bind_eq_bind, Option.bind_some,
    Codec.required_present hnodup (a := s.schema) (by simp [fields]),
    Codec.required_present hnodup (a := s.flows) (by simp [fields])]
  rfl

def codec : Codec State where
  write s := .record (s.fields chrono)
  read := deserialize chrono
  read_write := deserialize_record chrono
  write_ne_null _ := nofun

end State

/-- `SchemaProbe`: only `schema` counts, which may be left out or `null`. -/
def schemaProbe : Document → Option (Option Document)
  | .object members =>
    match members.filter fun member => member.1 == "schema" with
    | [] | [(_, .null)] => some none
    | [(_, d)] => some (some d)
    | _ => none
  | .array [.null] => some none
  | .array [d] => some (some d)
  | _ => none

def asU64 : Document → Option UInt64
  | .number (.posInt n) => some n
  | _ => none

inductive StateError where
  | load (path message : String)
  | loadIo (path message : String)
  deriving DecidableEq

def StateError.display : StateError → String
  | .load path message => s!"state file at {path}: {message} (back up the file and remove it to " ++
      s!"start fresh on schema {SCHEMA_VERSION}; all flow tracking state is lost; the daemon " ++
      "will re-poll fresh)"
  | .loadIo path message => s!"state file at {path}: {message}"

/-- What opening and reading a path gives. -/
inductive FileRead where
  | notFound
  | cannotOpen (e : String)
  | cannotRead (e : String)
  | content (bytes : ByteArray)

def FileRead.text : FileRead → Option String
  | .content bytes => String.fromUTF8? bytes
  | _ => none

/-- What `atomic_write_json` leaves at its path. -/
def writtenJson (s : State) : FileRead :=
  .content (json.toStringPretty ((State.codec chrono).write s)).toUTF8

/-- `load_or_init` from the text on. -/
def loadText (path text : String) : Except StateError State :=
  match json.skim text with
  | .error e => .error (.load path ("parse JSON: " ++ e))
  | .ok skimmed => match schemaProbe skimmed with
    | none => .error (.load path ("parse JSON: " ++ json.probeError text))
    | some none => .error (.load path
        "missing required field `schema` (was the file written by an older gcit?)")
    | some (some rawSchema) => match asU64 rawSchema with
      | none => .error (.load path ("field `schema` must be an unsigned integer, got: " ++
          json.display rawSchema ++ " (" ++ (match rawSchema with
            | .string s => "string " ++ json.debug s
            | _ => "non-string") ++ ")"))
      | some n =>
        if n.toNat ≠ SCHEMA_VERSION.toNat then
          .error (.load path (s!"schema version {n} is unsupported; this gcit only handles " ++
            s!"schema {SCHEMA_VERSION}"))
        else match json.parse text with
          | .error e => .error (.load path ("deserialize state: " ++ e))
          | .ok d => match State.deserialize chrono d with
            | none => .error (.load path ("deserialize state: " ++ json.stateError text))
            | some state => .ok state

def loadOrInit (path : String) : FileRead → Except StateError State
  | .notFound => .ok .default
  | .cannotOpen e => .error (.loadIo path ("cannot open: " ++ e))
  | .cannotRead e => .error (.loadIo path ("read: " ++ e))
  | .content bytes => match String.fromUTF8? bytes with
    | none => .error (.loadIo path "read: stream did not contain valid UTF-8")
    | some text => loadText chrono json path text

/-! What a state carries of a document, field by field. -/

def RunState.Has (run : RunState) : String × Document → Prop
  | ("run_id", d) => Codec.uint64.read d = some run.runId
  | ("started_at", d) => chrono.codec.read d = some run.startedAt
  | ("conclusion", d) => Codec.string.Holds run.conclusion d
  | ("completed_at", d) => chrono.codec.Holds run.completedAt d
  | _ => False

def RunState.Carries (run : RunState) (d : Document) : Prop :=
  ∃ fields, d.fields NAMES = some fields ∧ ∀ field ∈ fields, run.Has chrono field

def FlowState.Has (f : FlowState) : String × Document → Prop
  | ("last_sha", d) => Codec.string.Holds f.lastSha d
  | ("last_poll_at", d) => chrono.codec.Holds f.lastPollAt d
  | ("last_dispatched_at", d) => chrono.codec.Holds f.lastDispatchedAt d
  | ("cooldown_until", d) => chrono.codec.Holds f.cooldownUntil d
  | ("active_runs", .array ds) => List.Forall₂ (RunState.Carries chrono) f.activeRuns ds
  | ("notified_runs", .array ds) => List.Forall₂ (RunState.Carries chrono) f.notifiedRuns ds
  | _ => False

def FlowState.Carries (f : FlowState) (d : Document) : Prop :=
  ∃ fields, d.fields NAMES = some fields ∧ ∀ field ∈ fields, f.Has chrono field

def State.Has (s : State) : String × Document → Prop
  | ("schema", d) => Codec.uint32.read d = some s.schema
  | ("flows", .object entries) =>
    ∀ entry ∈ entries, ∃ f, s.flows[entry.1]? = some f ∧ f.Carries chrono entry.2
  | _ => False

/-- No field of the document is lost when the state is written again. -/
def State.Carries (s : State) (d : Document) : Prop :=
  ∃ fields, d.fields NAMES = some fields ∧ ∀ field ∈ fields, s.Has chrono field

variable {chrono json}

theorem RunState.carries_of_deserialize {run : RunState} {d : Document}
    (h : deserialize chrono d = some run) : run.Carries chrono d := by
  obtain ⟨fields, hfields, h⟩ := Option.bind_eq_some_iff.mp h
  simp only [Option.bind_eq_bind, Option.bind_eq_some_iff, Option.pure_def] at h
  obtain ⟨runId, hrunId, startedAt, hstarted, conclusion, hconclusion, completedAt, hcompleted,
    ⟨⟩⟩ := h
  obtain ⟨hnodup, hnames⟩ := Document.fields_spec (by decide) hfields
  refine ⟨fields, hfields, ?_⟩
  rintro ⟨name, d⟩ hmem
  have hlookup := Document.lookup_of_mem hnodup hmem
  have hname := hnames _ hmem
  simp only [NAMES, List.mem_cons, List.not_mem_nil, or_false] at hname
  obtain rfl | rfl | rfl | rfl := hname
  · exact Codec.read_of_required hrunId hlookup
  · exact Codec.read_of_required hstarted hlookup
  · exact Codec.holds_of_optional hconclusion hlookup
  · exact Codec.holds_of_optional hcompleted hlookup

theorem FlowState.carries_of_deserialize {f : FlowState} {d : Document}
    (h : deserialize chrono d = some f) : f.Carries chrono d := by
  obtain ⟨fields, hfields, h⟩ := Option.bind_eq_some_iff.mp h
  simp only [Option.bind_eq_bind, Option.bind_eq_some_iff, Option.pure_def] at h
  obtain ⟨lastSha, hsha, lastPollAt, hpoll, lastDispatchedAt, hdispatched, cooldownUntil,
    hcooldown, activeRuns, hactive, notifiedRuns, hnotified, ⟨⟩⟩ := h
  obtain ⟨hnodup, hnames⟩ := Document.fields_spec (by decide) hfields
  have hruns {l : List RunState} {ds : List Document}
      (h : List.Forall₂ (fun run d => (RunState.codec chrono).read d = some run) l ds) :
      List.Forall₂ (RunState.Carries chrono) l ds :=
    h.imp fun _ _ => RunState.carries_of_deserialize
  refine ⟨fields, hfields, ?_⟩
  rintro ⟨name, d⟩ hmem
  have hlookup := Document.lookup_of_mem hnodup hmem
  have hname := hnames _ hmem
  simp only [NAMES, List.mem_cons, List.not_mem_nil, or_false] at hname
  obtain rfl | rfl | rfl | rfl | rfl | rfl := hname
  · exact Codec.holds_of_optional hsha hlookup
  · exact Codec.holds_of_optional hpoll hlookup
  · exact Codec.holds_of_optional hdispatched hlookup
  · exact Codec.holds_of_optional hcooldown hlookup
  · obtain ⟨ds, rfl, hds⟩ := Codec.forall₂_of_items hactive hlookup
    exact hruns hds
  · obtain ⟨ds, rfl, hds⟩ := Codec.forall₂_of_items hnotified hlookup
    exact hruns hds

def State.flowEntries (d : Document) : Option (List (String × Document)) :=
  match (d.fields NAMES).bind (List.lookup "flows" ·) with
  | some (.object entries) => some entries
  | _ => none

/-- Where a flow is entered more than once, the last entry says all that the others do. -/
def KeepsRepeated (chrono : Rfc3339) (d : Document) : Prop :=
  ∀ entries, State.flowEntries d = some entries → ∀ entry ∈ entries, ∀ last f,
    entries.reverse.lookup entry.1 = some last → FlowState.deserialize chrono last = some f →
      f.Carries chrono entry.2

theorem State.deserialize_eq_some {s : State} {d : Document} (h : deserialize chrono d = some s) :
    ∃ fields entries, d.fields NAMES = some fields ∧ flowEntries d = some entries ∧
      Codec.uint32.required fields "schema" = some s.schema ∧
      fields.lookup "flows" = some (.object entries) ∧
      (FlowState.codec chrono).treeMap.read (.object entries) = some s.flows := by
  obtain ⟨fields, hfields, h⟩ := Option.bind_eq_some_iff.mp h
  simp only [Option.bind_eq_bind, Option.bind_eq_some_iff, Option.pure_def] at h
  obtain ⟨schema, hschema, flows, hflows, ⟨⟩⟩ := h
  obtain ⟨d', hlookup, hread⟩ := Option.bind_eq_some_iff.mp hflows
  cases d' with
  | object entries =>
    have hentries : flowEntries d = some entries := by
      simp only [flowEntries, hfields, Option.bind_some, hlookup]
    exact ⟨fields, entries, hfields, hentries, hschema, hlookup, hread⟩
  | null | bool | number | string | array => cases hread

theorem State.carries_iff {s : State} {d : Document} (h : deserialize chrono d = some s) :
    s.Carries chrono d ↔ KeepsRepeated chrono d := by
  obtain ⟨fields, entries, hfields, hentries, hschema, hflows, hread⟩ := deserialize_eq_some h
  obtain ⟨hnodup, hnames⟩ := Document.fields_spec (by decide) hfields
  constructor
  · rintro ⟨fields', hfields', hcarries⟩ entries' hentries' entry hmem last f hlast hf
    obtain rfl := Option.some.inj (hfields.symm.trans hfields')
    obtain rfl := Option.some.inj (hentries.symm.trans hentries')
    obtain ⟨f', hf', hcarries⟩ := hcarries _ (Document.mem_of_lookup hflows) entry hmem
    rw [Codec.lookup_treeMap hread, hlast] at hf'
    obtain rfl := Option.some.inj (hf.symm.trans hf')
    exact hcarries
  · intro hkeeps
    refine ⟨fields, hfields, ?_⟩
    rintro ⟨name, d'⟩ hmem
    have hlookup := Document.lookup_of_mem hnodup hmem
    have hname := hnames _ hmem
    simp only [NAMES, List.mem_cons, List.not_mem_nil, or_false] at hname
    obtain rfl | rfl := hname
    · exact Codec.read_of_required hschema hlookup
    · obtain rfl := Option.some.inj (hflows.symm.trans hlookup)
      intro entry hentry
      obtain ⟨last, hlast⟩ := Document.exists_lookup (List.mem_reverse.mpr hentry)
      have hin := List.mem_reverse.mp (Document.mem_of_lookup hlast)
      obtain ⟨f, hf⟩ := Codec.read_of_treeMap hread hin
      refine ⟨f, ?_, hkeeps entries hentries entry hentry last f hlast hf⟩
      rw [Codec.lookup_treeMap hread, hlast]
      exact hf

def FileRead.document (json : SerdeJson) (file : FileRead) : Option Document :=
  file.text.bind fun text => (json.parse text).toOption

def SCHEMA : Document := .number (.posInt SCHEMA_VERSION.toUInt64)

def HasSchema (d : Document) : Prop :=
  ∃ members, d = .object members ∧ ("schema", SCHEMA) ∈ members

/-- A state comes from an absent file, or from a document of this schema that it carries. -/
def LoadsFaithfully (chrono : Rfc3339) (json : SerdeJson) (path : String) (file : FileRead) :
    Prop :=
  ∀ s, loadOrInit chrono json path file = .ok s →
    file = .notFound ∧ s = .default ∨
      ∃ d, file.document json = some d ∧ HasSchema d ∧ s.Carries chrono d

def Acceptable (chrono : Rfc3339) (d : Document) : Prop :=
  schemaProbe d = some (some SCHEMA) ∧ (State.deserialize chrono d).isSome

theorem asU64_eq_schema {d : Document} {n : UInt64} (h : asU64 d = some n)
    (hn : n.toNat = SCHEMA_VERSION.toNat) : d = SCHEMA := by
  unfold asU64 at h
  split at h
  · cases h
    obtain rfl : n = SCHEMA_VERSION.toUInt64 := UInt64.toNat_inj.mp hn
    rfl
  · cases h

theorem loadText_eq_ok {path text : String} {s : State} :
    loadText chrono json path text = .ok s ↔
      ∃ d, json.parse text = .ok d ∧ schemaProbe d = some (some SCHEMA) ∧
        State.deserialize chrono d = some s := by
  unfold loadText
  constructor
  · intro h
    split at h
    · cases h
    · next skimmed hskim =>
      split at h
      · cases h
      · cases h
      · next rawSchema hprobe =>
        split at h
        · cases h
        · next n hn =>
          split at h
          · cases h
          · next hversion =>
            split at h
            · cases h
            · next d hparse =>
              split at h
              · cases h
              · next state hstate =>
                cases h
                have hsame := hskim.symm.trans (json.skim_of_parse text d hparse)
                obtain rfl := Except.ok.inj hsame
                obtain rfl := asU64_eq_schema hn (not_ne_iff.mp hversion)
                exact ⟨skimmed, hparse, hprobe, hstate⟩
  · rintro ⟨d, hparse, hprobe, hstate⟩
    have hu64 : asU64 SCHEMA = some SCHEMA_VERSION.toUInt64 := rfl
    simp [json.skim_of_parse text d hparse, hprobe, hu64, hparse, hstate]

theorem hasSchema_of_schemaProbe {d : Document} {s : State}
    (hprobe : schemaProbe d = some (some SCHEMA)) (hstate : State.deserialize chrono d = some s) :
    HasSchema d := by
  unfold schemaProbe at hprobe
  split at hprobe
  · next members =>
    split at hprobe
    · cases hprobe
    · cases hprobe
    · next name d' _ hfilter =>
      obtain rfl := Option.some.inj (Option.some.inj hprobe)
      have hmem : (name, SCHEMA) ∈ members.filter fun member => member.1 == "schema" := by
        rw [hfilter]
        exact List.mem_singleton_self _
      obtain ⟨hmem, hname⟩ := List.mem_filter.mp hmem
      obtain rfl : name = "schema" := eq_of_beq hname
      exact ⟨members, rfl, hmem⟩
    · cases hprobe
  · cases hprobe
  · next d' _ =>
    -- the probe takes an array of one, which lacks the flows
    obtain ⟨fields, entries, hfields, -, -, hflows, -⟩ := State.deserialize_eq_some hstate
    cases hfields
    cases hflows
  · cases hprobe

theorem loadOrInit_eq_ok {path : String} {file : FileRead} {s : State}
    (hfile : file ≠ .notFound) : loadOrInit chrono json path file = .ok s ↔
      ∃ d, file.document json = some d ∧ schemaProbe d = some (some SCHEMA) ∧
        State.deserialize chrono d = some s := by
  cases file with
  | notFound => exact absurd rfl hfile
  | cannotOpen e | cannotRead e => simp [loadOrInit, FileRead.document, FileRead.text]
  | content bytes =>
    unfold loadOrInit FileRead.document FileRead.text
    cases hutf8 : String.fromUTF8? bytes with
    | none => simp [hutf8]
    | some text =>
      simp only [hutf8, loadText_eq_ok, Option.bind_some]
      cases hparse : json.parse text <;> simp [Except.toOption]

theorem loadsFaithfully_iff {path : String} {file : FileRead} :
    LoadsFaithfully chrono json path file ↔
      ∀ d, file.document json = some d → Acceptable chrono d → KeepsRepeated chrono d := by
  constructor
  · rintro h d hd ⟨hprobe, hstate⟩
    obtain ⟨s, hs⟩ := Option.isSome_iff_exists.mp hstate
    have hfile : file ≠ .notFound := by
      rintro rfl
      cases hd
    rcases h s ((loadOrInit_eq_ok hfile).mpr ⟨d, hd, hprobe, hs⟩) with
      ⟨habsent, -⟩ | ⟨d', hd', -, hcarries⟩
    · exact absurd habsent hfile
    · obtain rfl := Option.some.inj (hd.symm.trans hd')
      exact (State.carries_iff hs).mp hcarries
  · intro h s hs
    rcases eq_or_ne file .notFound with rfl | hfile
    · cases hs
      exact .inl ⟨rfl, rfl⟩
    · obtain ⟨d, hd, hprobe, hstate⟩ := (loadOrInit_eq_ok hfile).mp hs
      have hacceptable : Acceptable chrono d := ⟨hprobe, Option.isSome_iff_exists.mpr ⟨s, hstate⟩⟩
      refine .inr ⟨d, hd, hasSchema_of_schemaProbe hprobe hstate, ?_⟩
      exact (State.carries_iff hstate).mpr (h d hd hacceptable)

/-- What was written for a state is read back as that state. -/
theorem loadOrInit_writtenJson {path : String} {s : State} (hschema : s.schema = SCHEMA_VERSION)
    (hjson : json.parse (json.toStringPretty ((State.codec chrono).write s)) =
      .ok ((State.codec chrono).write s)) :
    loadOrInit chrono json path (writtenJson chrono json s) = .ok s := by
  have hfile : writtenJson chrono json s ≠ .notFound := nofun
  refine (loadOrInit_eq_ok hfile).mpr ⟨(State.codec chrono).write s, ?_, ?_, ?_⟩
  · simp [writtenJson, FileRead.document, FileRead.text, Utf8.fromUTF8?_toByteArray, hjson,
      Except.toOption]
  · obtain ⟨schema, flows⟩ := s
    obtain rfl : schema = SCHEMA_VERSION := hschema
    rfl
  · exact State.deserialize_record chrono s

/-- The writer's disk, seen as a file: reading it gives the state that the writer starts on. -/
theorem loadOrInit_disk {path : String} {disk : Option State}
    (hschema : ∀ s ∈ disk, s.schema = SCHEMA_VERSION)
    (hjson : ∀ s ∈ disk, json.parse (json.toStringPretty ((State.codec chrono).write s)) =
      .ok ((State.codec chrono).write s)) :
    loadOrInit chrono json path (disk.elim .notFound (writtenJson chrono json)) =
      .ok (Writer.loadOrInit disk) := by
  cases disk with
  | none => rfl
  | some s => exact loadOrInit_writtenJson (hschema s rfl) (hjson s rfl)

theorem State.schema_apply (s : State) (u : StateUpdate) : (s.apply u).schema = s.schema := by
  cases u with
  | pollObservation | pollTimestamp | runStarted | flowRemoved => rfl
  | runFinished flow runId conclusion completedAt =>
    simp only [apply, applyRunFinished]
    repeat' split
    all_goals rfl

theorem State.schema_applyAll (s : State) (us : List StateUpdate) :
    (s.applyAll us).schema = s.schema := by
  induction us using List.reverseRecOn with
  | nil => rfl
  | append_singleton us u ih => rw [applyAll_concat, schema_apply, ih]

/-- Every state the writer reaches is read back from what was written for it, and
whatever a file holds, the state read from it carries the whole document exactly if no
repeated flow loses anything to its last entry. -/
theorem state_file_faithful_iff (chrono : Rfc3339) (json : SerdeJson) (path : String)
    (us : List StateUpdate)
    (hjson : json.parse (json.toStringPretty ((State.codec chrono).write (State.default.applyAll us))) =
      .ok ((State.codec chrono).write (State.default.applyAll us))) :
    loadOrInit chrono json path (writtenJson chrono json (State.default.applyAll us)) =
        .ok (State.default.applyAll us) ∧
      ∀ file, LoadsFaithfully chrono json path file ↔
        ∀ d, file.document json = some d → Acceptable chrono d → KeepsRepeated chrono d := by
  refine ⟨loadOrInit_writtenJson ?_ hjson, fun file => loadsFaithfully_iff⟩
  exact State.schema_applyAll .default us

/-- The codec at the epoch; any other instant is counted out. -/
def epochRfc3339 : Rfc3339 where
  format
    | 0 => "1970-01-01T00:00:00Z"
    | .ofNat (n + 1) => String.ofList ('+' :: List.replicate n ' ')
    | .negSucc n => String.ofList ('-' :: List.replicate n ' ')
  parse text :=
    match text.toList with
    | '+' :: rest => some (.ofNat (rest.length + 1))
    | '-' :: rest => some (.negSucc rest.length)
    | _ => if text = "1970-01-01T00:00:00Z" then some 0 else none
  parse_format t := by
    match t with
    | 0 => rfl
    | .ofNat (n + 1) => simp
    | .negSucc n => simp

/-- `serde_json` on one text, and on the document that it holds. -/
def oneText (text : String) (d : Document) : SerdeJson where
  parse t := if t = text then .ok d else .error "expected value at line 1 column 1"
  skim t := if t = text then .ok d else .error "expected value at line 1 column 1"
  skim_of_parse _ _ h := h
  probeError _ := ""
  stateError _ := ""
  toStringPretty _ := text
  display _ := ""
  debug _ := ""

theorem parse_oneText (text : String) (d : Document) : (oneText text d).parse text = .ok d :=
  if_pos rfl

def startedText : String :=
  "\x7b\n  \"schema\": 1,\n  \"flows\": \x7b\n    \"linux\": \x7b\n      \"active_runs\": [\n" ++
  "        \x7b\n          \"run_id\": 7,\n          \"started_at\": \"1970-01-01T00:00:00Z\"\n" ++
  "        \x7d\n      ]\n    \x7d\n  \x7d\n\x7d"

def startedDocument : Document :=
  .object [("schema", .number (.posInt 1)), ("flows", .object [("linux", .object [("active_runs",
    .array [.object [("run_id", .number (.posInt 7)),
      ("started_at", .string "1970-01-01T00:00:00Z")]])])])]

theorem started_run_read_back :
    loadOrInit epochRfc3339 (oneText startedText startedDocument) "/var/lib/gcit/state.json"
        (writtenJson epochRfc3339 (oneText startedText startedDocument)
          (State.default.applyAll [.runStarted "linux" 7 0])) =
      .ok (State.default.applyAll [.runStarted "linux" 7 0]) := by
  have hwritten : (State.codec epochRfc3339).write
      (State.default.applyAll [.runStarted "linux" 7 0]) = startedDocument := rfl
  have hjson := parse_oneText startedText startedDocument
  exact (state_file_faithful_iff epochRfc3339 (oneText startedText startedDocument)
    "/var/lib/gcit/state.json" [.runStarted "linux" 7 0] (hwritten ▸ hjson)).1

/-- The flow is entered twice, and the second entry knows nothing of its commit. -/
def repeatedText : String :=
  "\x7b\"schema\":1,\"flows\":\x7b\"linux\":\x7b\"last_sha\":" ++
    "\"1111111111111111111111111111111111111111\"\x7d,\"linux\":\x7b\x7d\x7d\x7d"

def repeatedDocument : Document :=
  .object [("schema", .number (.posInt 1)), ("flows", .object [
    ("linux", .object [("last_sha", .string "1111111111111111111111111111111111111111")]),
    ("linux", .object [])])]

theorem repeated_flow_forgotten :
    ¬ LoadsFaithfully epochRfc3339 (oneText repeatedText repeatedDocument)
      "/var/lib/gcit/state.json" (.content repeatedText.toUTF8) := by
  intro h
  have hdocument : FileRead.document (oneText repeatedText repeatedDocument)
      (.content repeatedText.toUTF8) = some repeatedDocument := by
    simp [FileRead.document, FileRead.text, Utf8.fromUTF8?_toByteArray, parse_oneText,
      Except.toOption]
  have hkeeps := loadsFaithfully_iff.mp h repeatedDocument hdocument ⟨rfl, rfl⟩
  obtain ⟨fields, hfields, hcarries⟩ := hkeeps _ rfl _ List.mem_cons_self (.object []) {} rfl rfl
  cases hfields
  rcases hcarries _ (List.mem_singleton_self _) with ⟨hnull, -⟩ | ⟨sha, hsha, -⟩
  · cases hnull
  · cases hsha

end Gcit
