import Gcit.Library.CappedRead
import Gcit.Library.Document
import Gcit.Poll.Fingerprint

/-! # The manifest of a mirror

From the connection to the map that a poll looks its repository up in. The body comes in
pieces, is inflated and is read as JSON, each against a limit of its own. What the HTTP
client, the inflater and `serde_json` do enters as a parameter.
-/

namespace Gcit.Git.Grokmirror

open Std Gcit Gcit.Git Gcit.Poll Gcit.Library Gcit.Library.CappedRead
  Gcit.Library.Document

def MAX_DECOMPRESSED_BYTES : Nat := 16 * 1024 * 1024

def MAX_COMPRESSED_BYTES : Nat := 64 * 1024 * 1024

def POLL_TIMEOUT : Duration := seconds 60

/-- A decoder hands out bytes until it ends or fails. -/
structure Inflated where
  bytes : List UInt8
  error : Option String

/-- `parse` is the syntax of `serde_json::from_slice`; the error text of a document of the
wrong shape is `shapeError`. -/
structure MirrorCrates where
  canonicalReason : Nat → Option String
  gzDecoder : List UInt8 → Inflated
  parse : List UInt8 → Except String Document
  shapeError : Document → String

structure Response where
  status : Nat
  contentLength : Option UInt64

/-- What the connection brings, each with the time since the fetch began. -/
structure Exchange where
  response : Duration × Except String Response
  body : List (Duration × Piece UInt8 String)

def isSuccess (status : Nat) : Bool := decide (200 ≤ status ∧ status ≤ 299)

def isServerError (status : Nat) : Bool := decide (500 ≤ status ∧ status ≤ 599)

namespace RepoEntry

def NAMES : List String := ["fingerprint", "modified"]

def deserialize (d : Document) : Option RepoEntry := do
  let fields ← d.knownFields NAMES
  return {
    fingerprint := ← Codec.string.required fields "fingerprint"
    modified := ← Codec.uint64.optional fields "modified" }

/-- A mirror writes these fields, and others. -/
def fields (entry : RepoEntry) : List (String × Option Document) :=
  [Codec.string.requiredField "fingerprint" entry.fingerprint,
    Codec.uint64.optionalField "modified" entry.modified]

theorem names_fields (entry : RepoEntry) : (fields entry).map Prod.fst = NAMES := rfl

theorem deserialize_record (entry : RepoEntry) : deserialize (.record (fields entry)) = some entry := by
  have hnodup : ((fields entry).map Prod.fst).Nodup := by
    rw [names_fields]
    decide
  rw [deserialize, Document.knownFields_record hnodup (names_fields entry),
    Option.bind_eq_bind, Option.bind_some,
    Codec.required_present hnodup (a := entry.fingerprint) (by simp [fields]),
    Codec.optional_present hnodup (a := entry.modified) (by simp [fields])]
  rfl

def codec : Codec RepoEntry where
  write entry := .record (fields entry)
  read := deserialize
  read_write := deserialize_record
  write_ne_null _ := nofun

end RepoEntry

def readManifest : Document → Option Manifest := RepoEntry.codec.treeMap.read

def trimEndSlashes (s : String) : String :=
  String.ofList (s.toList.rdropWhile (· = '/'))

def buildManifestUrl (baseUrl : String) : String := trimEndSlashes baseUrl ++ "/manifest.js.gz"

def checkContentLengthCap (declared : Option UInt64) : Except GrokmirrorError Unit :=
  match declared with
  | some len =>
    if len.toNat > MAX_COMPRESSED_BYTES then
      .error (.permanent s!"manifest Content-Length {len} exceeds cap of {MAX_COMPRESSED_BYTES}")
    else .ok ()
  | none => .ok ()

/-- `take(limit).read_to_end`: the decoder is not asked for more than the limit. -/
def readToEnd (limit : Nat) (decoder : Inflated) : Except String (List UInt8) :=
  if limit ≤ decoder.bytes.length then .ok (decoder.bytes.take limit)
  else match decoder.error with
    | some e => .error e
    | none => .ok decoder.bytes

variable (crates : MirrorCrates)

def statusText (status : Nat) : String :=
  s!"manifest fetch returned {status} " ++ (crates.canonicalReason status).getD ""

def readCapped (pieces : List (Piece UInt8 String)) : Option (Except GrokmirrorError (List UInt8)) :=
  (CappedRead.read (2 ^ 64 - 1) MAX_COMPRESSED_BYTES pieces).map fun
    | .whole bytes => .ok bytes
    | .overLimit => .error (.permanent
      s!"manifest body exceeded cap of {MAX_COMPRESSED_BYTES} bytes during stream read")
    | .broken e => .error (.transient s!"read manifest body chunk: {e}")

def parseManifestBytes (bytes : List UInt8) : Except GrokmirrorError Manifest :=
  match readToEnd (MAX_DECOMPRESSED_BYTES + 1) (crates.gzDecoder bytes) with
  | .error e => .error (.permanent s!"manifest decompression failed: {e}")
  | .ok buf =>
    if buf.length > MAX_DECOMPRESSED_BYTES then
      .error (.permanent (s!"manifest decompressed to over {MAX_DECOMPRESSED_BYTES} bytes; " ++
        "rejecting as potentially hostile"))
    else match crates.parse buf with
      | .error e => .error (.permanent s!"manifest JSON parse: {e}")
      | .ok d => match readManifest d with
        | none => .error (.permanent ("manifest JSON parse: " ++ crates.shapeError d))
        | some manifest => .ok manifest

/-- `none` while the body still comes. -/
def fetchManifestInner (url : String) (response : Except String Response)
    (pieces : List (Piece UInt8 String)) : Option (Except GrokmirrorError Manifest) :=
  match response with
  | .error e => some (.error (.transient s!"HTTP request to {url}: {e}"))
  | .ok response =>
    if !isSuccess response.status then
      if isServerError response.status then
        some (.error (.transient (statusText crates response.status)))
      else some (.error (.permanent (statusText crates response.status)))
    else match checkContentLengthCap response.contentLength with
      | .error e => some (.error e)
      | .ok () => (readCapped pieces).map fun
        | .error e => .error e
        | .ok bytes => parseManifestBytes crates bytes

/-- The pieces that are there when the time is up. -/
def Exchange.arrived (x : Exchange) : List (Piece UInt8 String) :=
  (x.body.takeWhile fun piece => decide (piece.1 ≤ POLL_TIMEOUT)).map Prod.snd

def timedOut (url : String) : GrokmirrorError :=
  .transient s!"manifest fetch timed out after 60s: {url}"

def fetchManifest (baseUrl : String) (x : Exchange) : Except GrokmirrorError Manifest :=
  let url := buildManifestUrl baseUrl
  if x.response.1 ≤ POLL_TIMEOUT then
    (fetchManifestInner crates url x.response.2 x.arrived).getD (.error (timedOut url))
  else .error (timedOut url)

/-! ## What is accepted -/

/-- What an entry says. Names that are not known are let be, and an entry may be an array. -/
inductive Says : Document → RepoEntry → Prop
  | undated {members fingerprint} (hfingerprint : named "fingerprint" members = [.string fingerprint])
    (hmodified : named "modified" members = [] ∨ named "modified" members = [.null]) :
    Says (.object members) ⟨fingerprint, none⟩
  | dated {members fingerprint modified}
    (hfingerprint : named "fingerprint" members = [.string fingerprint])
    (hmodified : named "modified" members = [.number (.posInt modified)]) :
    Says (.object members) ⟨fingerprint, some modified⟩
  | single {fingerprint} : Says (.array [.string fingerprint]) ⟨fingerprint, none⟩
  | pairNull {fingerprint} : Says (.array [.string fingerprint, .null]) ⟨fingerprint, none⟩
  | pair {fingerprint modified} :
    Says (.array [.string fingerprint, .number (.posInt modified)]) ⟨fingerprint, some modified⟩

/-- Every entry is one, and of a repository that is listed twice the last one counts. -/
def Lists (d : Document) (manifest : Manifest) : Prop :=
  ∃ members, d = .object members ∧ (∀ member ∈ members, ∃ e, Says member.2 e) ∧
    ∀ key e, manifest[key]? = some e ↔ ∃ before entry after,
      members = before ++ (key, entry) :: after ∧ (∀ member ∈ after, member.1 ≠ key) ∧ Says entry e

/-- The body is the compressed text of the document, and no text too long. -/
structure Unpacks (body : List UInt8) (d : Document) : Prop where
  inflates : (crates.gzDecoder body).error = none
  small : (crates.gzDecoder body).bytes.length ≤ MAX_DECOMPRESSED_BYTES
  parses : crates.parse (crates.gzDecoder body).bytes = .ok d

/-- An answer with success and no longer than it may be, by what it declares. -/
structure Exchange.Granted (x : Exchange) : Prop where
  inTime : x.response.1 ≤ POLL_TIMEOUT
  accepted : ∃ r, x.response.2 = .ok r ∧ isSuccess r.status = true ∧
    ∀ len ∈ r.contentLength, len.toNat ≤ MAX_COMPRESSED_BYTES

/-- The whole body comes in time, in whatever pieces. -/
structure Exchange.Arrives (x : Exchange) (body : List UInt8) : Prop where
  granted : x.Granted
  whole : ∃ chunks rest, x.arrived = chunked chunks ++ .ended :: rest ∧ chunks.flatten = body
  small : body.length ≤ MAX_COMPRESSED_BYTES

/-- The server or the way to it is at fault, and may be better next time. -/
inductive Exchange.Interrupted (x : Exchange) : Prop
  | late (hlate : POLL_TIMEOUT < x.response.1)
  | unanswered {e} (hintime : x.response.1 ≤ POLL_TIMEOUT) (herror : x.response.2 = .error e)
  | serverError {r} (hintime : x.response.1 ≤ POLL_TIMEOUT) (hr : x.response.2 = .ok r)
    (hstatus : isServerError r.status = true)
  | stalled {chunks} (hgranted : x.Granted) (hpieces : x.arrived = chunked chunks)
    (hsmall : chunks.flatten.length ≤ MAX_COMPRESSED_BYTES)
  | broken {chunks e rest} (hgranted : x.Granted)
    (hpieces : x.arrived = chunked chunks ++ .failed e :: rest)
    (hsmall : chunks.flatten.length ≤ MAX_COMPRESSED_BYTES)

theorem lt_top : MAX_COMPRESSED_BYTES < 2 ^ 64 - 1 := by decide

theorem readCapped_eq_ok {pieces : List (Piece UInt8 String)} {body : List UInt8} :
    readCapped pieces = some (.ok body) ↔
      (∃ chunks rest, pieces = chunked chunks ++ .ended :: rest ∧ chunks.flatten = body) ∧
        body.length ≤ MAX_COMPRESSED_BYTES := by
  constructor
  · intro h
    obtain ⟨outcome, houtcome, heq⟩ := Option.map_eq_some_iff.mp h
    cases outcome with
    | whole bytes =>
      cases heq
      obtain ⟨chunks, rest, hpieces, hbody, hsmall⟩ := (read_whole_iff lt_top).mp houtcome
      exact ⟨⟨chunks, rest, hpieces, hbody⟩, hsmall⟩
    | overLimit => cases heq
    | broken e => cases heq
  · rintro ⟨⟨chunks, rest, hpieces, hbody⟩, hsmall⟩
    rw [readCapped, (read_whole_iff lt_top).mpr ⟨chunks, rest, hpieces, hbody, hsmall⟩]
    rfl

theorem readCapped_eq_transient {pieces : List (Piece UInt8 String)} :
    (∃ message, readCapped pieces = some (.error (.transient message))) ↔
      ∃ chunks e rest, pieces = chunked chunks ++ .failed e :: rest ∧
        chunks.flatten.length ≤ MAX_COMPRESSED_BYTES := by
  constructor
  · rintro ⟨message, h⟩
    obtain ⟨outcome, houtcome, heq⟩ := Option.map_eq_some_iff.mp h
    cases outcome with
    | whole bytes => cases heq
    | overLimit => cases heq
    | broken e =>
      obtain ⟨chunks, rest, hpieces, hsmall⟩ := (read_broken_iff lt_top).mp houtcome
      exact ⟨chunks, e, rest, hpieces, hsmall⟩
  · rintro ⟨chunks, e, rest, hpieces, hsmall⟩
    refine ⟨s!"read manifest body chunk: {e}", ?_⟩
    rw [readCapped, (read_broken_iff lt_top).mpr ⟨chunks, rest, hpieces, hsmall⟩]
    rfl

theorem readCapped_eq_none {pieces : List (Piece UInt8 String)} :
    readCapped pieces = none ↔ ∃ chunks, pieces = chunked chunks ∧
      chunks.flatten.length ≤ MAX_COMPRESSED_BYTES := by
  rw [readCapped, Option.map_eq_none_iff, read_none_iff lt_top]

theorem readCapped_ne_notInManifest {pieces : List (Piece UInt8 String)} {path : String} :
    readCapped pieces ≠ some (.error (.repoNotInManifest path)) := by
  intro h
  obtain ⟨outcome, -, heq⟩ := Option.map_eq_some_iff.mp h
  cases outcome <;> cases heq

theorem string_read {d : Document} {s : String} : Codec.string.read d = some s ↔ d = .string s := by
  cases d <;> simp [Codec.string]

theorem uint64_read {d : Document} {n : UInt64} :
    Codec.uint64.read d = some n ↔ d = .number (.posInt n) := by
  cases d with
  | number m => cases m <;> simp [Codec.uint64]
  | null | bool | string | array | object => simp [Codec.uint64]

theorem deserialize_object {members : List (String × Document)} {e : RepoEntry} :
    RepoEntry.deserialize (.object members) = some e ↔ Says (.object members) e := by
  have hfp : "fingerprint" ∈ RepoEntry.NAMES := by decide
  have hmod : "modified" ∈ RepoEntry.NAMES := by decide
  constructor
  · intro h
    obtain ⟨known, hknown, h⟩ := Option.bind_eq_some_iff.mp h
    obtain ⟨rfl, hone⟩ := knownFields_object_eq_some.mp hknown
    obtain ⟨fingerprint, hfingerprint, h⟩ := Option.bind_eq_some_iff.mp h
    obtain ⟨modified, hmodified, h⟩ := Option.bind_eq_some_iff.mp h
    obtain rfl := Option.some.inj h
    obtain ⟨d, hnamed, hd⟩ := (Codec.required_known hfp (hone _ hfp)).mp hfingerprint
    obtain rfl := string_read.mp hd
    obtain ⟨rfl, hnone⟩ | ⟨n, d, rfl, hsome, hd⟩ :=
      (Codec.optional_known hmod (hone _ hmod) rfl).mp hmodified
    · exact .undated hnamed hnone
    · obtain rfl := uint64_read.mp hd
      exact .dated hnamed hsome
  · intro h
    have hone (hlength : (named "modified" members).length ≤ 1)
        {fingerprint : Document} (hfingerprint : named "fingerprint" members = [fingerprint]) :
        ∀ name ∈ RepoEntry.NAMES, (named name members).length ≤ 1 := by
      intro name hname
      rcases List.mem_cons.mp hname with rfl | hname
      · rw [hfingerprint]
        exact Nat.le_refl 1
      · rw [List.mem_singleton.mp hname]
        exact hlength
    cases h with
    | undated hfingerprint hmodified =>
      have hlength : (named "modified" members).length ≤ 1 := by
        rcases hmodified with hmodified | hmodified <;> simp [hmodified]
      have hone := hone hlength hfingerprint
      rw [RepoEntry.deserialize, knownFields_object_eq_some.mpr ⟨rfl, hone⟩]
      simp only [Option.bind_eq_bind, Option.bind_some,
        (Codec.required_known hfp (hone _ hfp)).mpr ⟨_, hfingerprint, string_read.mpr rfl⟩,
        (Codec.optional_known (c := Codec.uint64) hmod (hone _ hmod) rfl).mpr (.inl ⟨rfl, hmodified⟩),
        Option.pure_def]
    | @dated _ _ modified hfingerprint hmodified =>
      have hlength : (named "modified" members).length ≤ 1 := by simp [hmodified]
      have hone := hone hlength hfingerprint
      rw [RepoEntry.deserialize, knownFields_object_eq_some.mpr ⟨rfl, hone⟩]
      simp only [Option.bind_eq_bind, Option.bind_some,
        (Codec.required_known hfp (hone _ hfp)).mpr ⟨_, hfingerprint, string_read.mpr rfl⟩,
        (Codec.optional_known (c := Codec.uint64) hmod (hone _ hmod) rfl).mpr
          (.inr ⟨modified, _, rfl, hmodified, uint64_read.mpr rfl⟩), Option.pure_def]

/-- An array is read as the members that its places stand for. -/
theorem deserialize_array {items : List Document} {e : RepoEntry} :
    RepoEntry.deserialize (.array items) = some e ↔ Says (.array items) e := by
  match items with
  | [] => exact iff_of_false (fun h => by cases h) fun h => by cases h
  | [first] =>
    have hread : RepoEntry.deserialize (.array [first]) =
        RepoEntry.deserialize (.object [("fingerprint", first)]) := rfl
    have hfp : named "fingerprint" [("fingerprint", first)] = [first] := rfl
    have hmod : named "modified" [("fingerprint", first)] = [] := rfl
    rw [hread, deserialize_object]
    constructor
    · rintro (⟨hfirst, -⟩ | ⟨-, hmodified⟩)
      · obtain ⟨rfl, -⟩ := List.cons.inj (hfp.symm.trans hfirst)
        exact .single
      · cases hmod.symm.trans hmodified
    · rintro ⟨⟩
      exact .undated rfl (.inl rfl)
  | [first, second] =>
    have hread : RepoEntry.deserialize (.array [first, second]) =
        RepoEntry.deserialize (.object [("fingerprint", first), ("modified", second)]) := rfl
    have hfp : named "fingerprint" [("fingerprint", first), ("modified", second)] = [first] := rfl
    have hmod : named "modified" [("fingerprint", first), ("modified", second)] = [second] := rfl
    rw [hread, deserialize_object]
    constructor
    · rintro (⟨hfirst, hnone⟩ | ⟨hfirst, hmodified⟩)
      · obtain ⟨rfl, -⟩ := List.cons.inj (hfp.symm.trans hfirst)
        rw [hmod] at hnone
        rcases hnone with hnone | hnone
        · cases hnone
        · obtain ⟨rfl, -⟩ := List.cons.inj hnone
          exact .pairNull
      · obtain ⟨rfl, -⟩ := List.cons.inj (hfp.symm.trans hfirst)
        obtain ⟨rfl, -⟩ := List.cons.inj (hmod.symm.trans hmodified)
        exact .pair
    · rintro ⟨⟩
      · exact .undated rfl (.inr rfl)
      · exact .dated rfl rfl
  | first :: second :: third :: rest =>
    exact iff_of_false (fun h => by simp [RepoEntry.deserialize, knownFields, RepoEntry.NAMES] at h)
      fun h => by cases h

/-- An entry is read exactly as what it says. -/
theorem deserialize_eq_some {d : Document} {e : RepoEntry} :
    RepoEntry.deserialize d = some e ↔ Says d e := by
  cases d with
  | object members => exact deserialize_object
  | array items => exact deserialize_array
  | null | bool | number | string =>
    refine iff_of_false ?_ ?_
    · intro h
      cases h
    · intro h
      cases h

theorem lookup_reverse_eq_some {members : List (String × Document)} {key : String} {d : Document} :
    members.reverse.lookup key = some d ↔ ∃ before after,
      members = before ++ (key, d) :: after ∧ ∀ member ∈ after, member.1 ≠ key := by
  rw [List.lookup_eq_some_iff]
  constructor
  · rintro ⟨after, before, heq, hafter⟩
    have hmembers := congrArg List.reverse heq
    rw [List.reverse_reverse, List.reverse_append, List.reverse_cons, List.append_assoc,
      List.singleton_append] at hmembers
    refine ⟨before.reverse, after.reverse, hmembers, fun member hmem => ?_⟩
    exact fun hkey => bne_iff_ne.mp (hafter member (List.mem_reverse.mp hmem)) hkey.symm
  · rintro ⟨before, after, rfl, hafter⟩
    refine ⟨after.reverse, before.reverse, by simp, fun member hmem => bne_iff_ne.mpr ?_⟩
    exact (hafter member (List.mem_reverse.mp hmem)).symm

theorem lists_of_readManifest {d : Document} {manifest : Manifest}
    (h : readManifest d = some manifest) : Lists d manifest := by
  cases d with
  | null | bool | number | string | array => cases h
  | object members =>
    refine ⟨members, rfl, fun member hmem => ?_, fun key e => ?_⟩
    · obtain ⟨e, he⟩ := Codec.read_of_treeMap h hmem
      exact ⟨e, deserialize_eq_some.mp he⟩
    · rw [Codec.lookup_treeMap h, Option.bind_eq_some_iff]
      constructor
      · rintro ⟨entry, hentry, he⟩
        obtain ⟨before, after, hmembers, hafter⟩ := lookup_reverse_eq_some.mp hentry
        exact ⟨before, entry, after, hmembers, hafter, deserialize_eq_some.mp he⟩
      · rintro ⟨before, entry, after, hmembers, hafter, he⟩
        exact ⟨entry, lookup_reverse_eq_some.mpr ⟨before, after, hmembers, hafter⟩,
          deserialize_eq_some.mpr he⟩

theorem readManifest_eq_some {d : Document} {manifest : Manifest} :
    readManifest d = some manifest ↔ Lists d manifest := by
  constructor
  · exact lists_of_readManifest
  · rintro ⟨members, rfl, hall, hlookup⟩
    obtain ⟨read, hread⟩ := Codec.exists_treeMap (c := RepoEntry.codec) fun member hmem => by
      obtain ⟨e, he⟩ := hall member hmem
      exact ⟨e, deserialize_eq_some.mpr he⟩
    obtain ⟨_, ⟨⟩, -, hagain⟩ := lists_of_readManifest hread
    rw [readManifest, hread, Option.some.injEq]
    refine ExtTreeMap.ext_getElem? fun key => Option.ext fun e => ?_
    rw [hlookup, hagain]

theorem readToEnd_eq_ok {limit : Nat} {decoder : Inflated} {buf : List UInt8} :
    readToEnd (limit + 1) decoder = .ok buf ∧ buf.length ≤ limit ↔
      decoder.error = none ∧ decoder.bytes = buf ∧ buf.length ≤ limit := by
  unfold readToEnd
  rcases Nat.lt_or_ge limit decoder.bytes.length with hlong | hshort
  · rw [if_pos (Nat.succ_le_of_lt hlong)]
    constructor
    · rintro ⟨h, hle⟩
      cases h
      rw [List.length_take] at hle
      omega
    · rintro ⟨-, rfl, hle⟩
      omega
  · rw [if_neg (Nat.not_le.mpr (Nat.lt_succ_of_le hshort))]
    cases decoder.error with
    | some e => simp
    | none => simp

variable {crates}

theorem parseManifestBytes_eq_ok {body : List UInt8} {manifest : Manifest} :
    parseManifestBytes crates body = .ok manifest ↔
      ∃ d, Unpacks crates body d ∧ Lists d manifest := by
  unfold parseManifestBytes
  constructor
  · intro h
    split at h
    · cases h
    · next buf hbuf =>
      split at h
      · cases h
      · next hsmall =>
        obtain ⟨herror, hbytes, hle⟩ := readToEnd_eq_ok.mp ⟨hbuf, Nat.not_lt.mp hsmall⟩
        split at h
        · cases h
        · next d hd =>
          split at h
          · cases h
          · next read hread =>
            cases h
            exact ⟨d, ⟨herror, hbytes ▸ hle, hbytes ▸ hd⟩, readManifest_eq_some.mp hread⟩
  · rintro ⟨d, ⟨hinflates, hsmall, hparses⟩, hlists⟩
    obtain ⟨hbuf, hle⟩ := readToEnd_eq_ok.mpr ⟨hinflates, rfl, hsmall⟩
    rw [hbuf]
    simp only [if_neg (Nat.not_lt.mpr hle), hparses, readManifest_eq_some.mpr hlists]

theorem parseManifestBytes_permanent {body : List UInt8} {e : GrokmirrorError}
    (h : parseManifestBytes crates body = .error e) : ∃ message, e = .permanent message := by
  unfold parseManifestBytes at h
  repeat' split at h
  all_goals
    cases h
    try exact ⟨_, rfl⟩

theorem checkContentLengthCap_eq_ok {declared : Option UInt64} :
    checkContentLengthCap declared = .ok () ↔
      ∀ len ∈ declared, len.toNat ≤ MAX_COMPRESSED_BYTES := by
  cases declared with
  | none => simp [checkContentLengthCap]
  | some len =>
    simp only [checkContentLengthCap, Option.mem_some_iff, forall_eq']
    split
    case isTrue hlong => exact iff_of_false (by simp) (Nat.not_le.mpr hlong)
    case isFalse hshort => exact iff_of_true rfl (Nat.not_lt.mp hshort)

theorem checkContentLengthCap_permanent {declared : Option UInt64} {e : GrokmirrorError}
    (h : checkContentLengthCap declared = .error e) : ∃ message, e = .permanent message := by
  unfold checkContentLengthCap at h
  repeat' split at h
  all_goals
    cases h
    try exact ⟨_, rfl⟩

theorem isSuccess_of_isServerError {status : Nat} (h : isServerError status = true) :
    isSuccess status = false := by
  simp only [isServerError, isSuccess, decide_eq_true_eq, decide_eq_false_iff_not] at h ⊢
  omega

variable {baseUrl : String} {x : Exchange}

theorem fetchManifest_of_granted (h : x.Granted) :
    fetchManifest crates baseUrl x = match readCapped x.arrived with
      | none => .error (timedOut (buildManifestUrl baseUrl))
      | some (.error e) => .error e
      | some (.ok body) => parseManifestBytes crates body := by
  obtain ⟨hintime, r, hr, hsuccess, hlength⟩ := h
  simp only [fetchManifest, fetchManifestInner, if_pos hintime, hr, hsuccess, Bool.not_true,
    Bool.false_eq_true, if_false, checkContentLengthCap_eq_ok.mpr hlength]
  match readCapped x.arrived with
  | none => rfl
  | some (.error e) => rfl
  | some (.ok body) => rfl

variable (crates baseUrl) in
/-- Without a body to read, it is an error, for now or for good. -/
theorem fetchManifest_of_not_granted (h : ¬x.Granted) :
    ∃ message, fetchManifest crates baseUrl x = .error (.transient message) ∧ x.Interrupted ∨
      fetchManifest crates baseUrl x = .error (.permanent message) ∧ ¬x.Interrupted := by
  rcases Nat.lt_or_ge POLL_TIMEOUT x.response.1 with hlate | hintime
  · exact ⟨_, .inl ⟨if_neg (Nat.not_le.mpr hlate), .late hlate⟩⟩
  have hfetch : fetchManifest crates baseUrl x =
      (fetchManifestInner crates (buildManifestUrl baseUrl) x.response.2 x.arrived).getD
        (.error (timedOut (buildManifestUrl baseUrl))) := if_pos hintime
  rw [hfetch]
  cases hr : x.response.2 with
  | error e => exact ⟨_, .inl ⟨rfl, .unanswered hintime hr⟩⟩
  | ok r =>
    have hnot (hserver : isServerError r.status = false) : ¬x.Interrupted := by
      rintro (hlate | ⟨_, herror⟩ | ⟨_, hsame, hstatus⟩ | ⟨hgranted, -⟩ | ⟨hgranted, -⟩)
      · exact absurd hintime (Nat.not_le.mpr hlate)
      · cases hr.symm.trans herror
      · cases hr.symm.trans hsame
        exact absurd hstatus (Bool.eq_false_iff.mp hserver)
      · exact h hgranted
      · exact h hgranted
    cases hsuccess : isSuccess r.status with
    | false =>
      cases hserver : isServerError r.status with
      | true =>
        refine ⟨statusText crates r.status, .inl ⟨?_, .serverError hintime hr hserver⟩⟩
        simp only [fetchManifestInner, hsuccess, hserver, Bool.not_false, if_true, Option.getD_some]
      | false =>
        refine ⟨statusText crates r.status, .inr ⟨?_, hnot hserver⟩⟩
        simp only [fetchManifestInner, hsuccess, hserver, Bool.not_false, if_true,
          Bool.false_eq_true, if_false, Option.getD_some]
    | true =>
      cases hlength : checkContentLengthCap r.contentLength with
      | ok =>
        exact absurd ⟨hintime, r, hr, hsuccess, checkContentLengthCap_eq_ok.mp hlength⟩ h
      | error e =>
        obtain ⟨message, rfl⟩ := checkContentLengthCap_permanent hlength
        refine ⟨message, .inr ⟨?_, hnot (Bool.eq_false_iff.mpr fun hserver => ?_)⟩⟩
        · simp only [fetchManifestInner, hsuccess, hlength, Bool.not_true, Bool.false_eq_true,
            if_false, Option.getD_some]
        · exact Bool.false_ne_true ((isSuccess_of_isServerError hserver).symm.trans hsuccess)

theorem fetchManifest_eq_ok {manifest : Manifest} :
    fetchManifest crates baseUrl x = .ok manifest ↔
      ∃ body d, x.Arrives body ∧ Unpacks crates body d ∧ Lists d manifest := by
  constructor
  · intro h
    by_cases hgranted : x.Granted
    · rw [fetchManifest_of_granted hgranted] at h
      split at h
      · cases h
      · cases h
      · next body hbody =>
        obtain ⟨hwhole, hsmall⟩ := readCapped_eq_ok.mp hbody
        obtain ⟨d, hunpacks, hlists⟩ := parseManifestBytes_eq_ok.mp h
        exact ⟨body, d, ⟨hgranted, hwhole, hsmall⟩, hunpacks, hlists⟩
    · obtain ⟨message, ⟨herror, -⟩ | ⟨herror, -⟩⟩ :=
        fetchManifest_of_not_granted crates baseUrl hgranted <;>
        cases h.symm.trans herror
  · rintro ⟨body, d, ⟨hgranted, hwhole, hsmall⟩, hunpacks, hlists⟩
    rw [fetchManifest_of_granted hgranted, readCapped_eq_ok.mpr ⟨hwhole, hsmall⟩]
    exact parseManifestBytes_eq_ok.mpr ⟨d, hunpacks, hlists⟩

theorem interrupted_of_granted (h : x.Granted) : x.Interrupted ↔
    readCapped x.arrived = none ∨
      ∃ message, readCapped x.arrived = some (.error (.transient message)) := by
  obtain ⟨hintime, r, hr, hsuccess, -⟩ := id h
  constructor
  · rintro (hlate | ⟨_, herror⟩ | ⟨_, hsame, hstatus⟩ | ⟨-, hpieces, hsmall⟩ | ⟨-, hpieces, hsmall⟩)
    · exact absurd hintime (Nat.not_le.mpr hlate)
    · cases hr.symm.trans herror
    · cases hr.symm.trans hsame
      exact absurd hsuccess (Bool.eq_false_iff.mp (isSuccess_of_isServerError hstatus))
    · exact .inl (readCapped_eq_none.mpr ⟨_, hpieces, hsmall⟩)
    · exact .inr (readCapped_eq_transient.mpr ⟨_, _, _, hpieces, hsmall⟩)
  · rintro (hnone | htransient)
    · obtain ⟨chunks, hpieces, hsmall⟩ := readCapped_eq_none.mp hnone
      exact .stalled h hpieces hsmall
    · obtain ⟨chunks, e, rest, hpieces, hsmall⟩ := readCapped_eq_transient.mp htransient
      exact .broken h hpieces hsmall

theorem fetchManifest_eq_transient :
    (∃ message, fetchManifest crates baseUrl x = .error (.transient message)) ↔
      x.Interrupted := by
  by_cases hgranted : x.Granted
  · rw [interrupted_of_granted hgranted, fetchManifest_of_granted hgranted]
    match hread : readCapped x.arrived with
    | none => exact iff_of_true ⟨_, rfl⟩ (.inl rfl)
    | some (.error e) => simp
    | some (.ok body) =>
      refine iff_of_false ?_ (by simp)
      rintro ⟨message, h⟩
      obtain ⟨_, ⟨⟩⟩ := parseManifestBytes_permanent h
  · obtain ⟨message, ⟨herror, hinterrupted⟩ | ⟨herror, hnot⟩⟩ :=
      fetchManifest_of_not_granted crates baseUrl hgranted
    · exact iff_of_true ⟨message, herror⟩ hinterrupted
    · refine iff_of_false ?_ hnot
      rintro ⟨_, h⟩
      cases h.symm.trans herror

theorem fetchManifest_ne_notInManifest {path : String} :
    fetchManifest crates baseUrl x ≠ .error (.repoNotInManifest path) := by
  intro h
  by_cases hgranted : x.Granted
  · rw [fetchManifest_of_granted hgranted] at h
    split at h
    · cases h
    · next e he =>
      cases h
      exact readCapped_ne_notInManifest he
    · obtain ⟨_, ⟨⟩⟩ := parseManifestBytes_permanent h
  · obtain ⟨message, ⟨herror, -⟩ | ⟨herror, -⟩⟩ :=
      fetchManifest_of_not_granted crates baseUrl hgranted <;>
      cases h.symm.trans herror

theorem length_readToEnd_le {limit : Nat} {decoder : Inflated} {buf : List UInt8}
    (h : readToEnd limit decoder = .ok buf) : buf.length ≤ limit := by
  unfold readToEnd at h
  split at h
  · cases h
    exact List.length_take_le limit decoder.bytes
  · next hshort =>
    split at h
    · cases h
    · cases h
      exact Nat.le_of_lt (Nat.not_le.mp hshort)

variable (crates baseUrl x) in
structure FetchSound : Prop where
  accepted : ∀ manifest, fetchManifest crates baseUrl x = .ok manifest ↔
    ∃ body d, x.Arrives body ∧ Unpacks crates body d ∧ Lists d manifest
  transient : (∃ message, fetchManifest crates baseUrl x = .error (.transient message)) ↔
    x.Interrupted
  named : ∀ path, fetchManifest crates baseUrl x ≠ .error (.repoNotInManifest path)
  recut : ∀ y body, x.Arrives body → y.Arrives body →
    fetchManifest crates baseUrl y = fetchManifest crates baseUrl x
  received : ∀ pre rest buffer, x.arrived = pre ++ rest →
    Tape.goesOn (round (2 ^ 64 - 1) MAX_COMPRESSED_BYTES) (.holding []) pre = some buffer →
      buffer.data.length ≤ MAX_COMPRESSED_BYTES
  inflated : ∀ body buf, readToEnd (MAX_DECOMPRESSED_BYTES + 1) (crates.gzDecoder body) = .ok buf →
    buf.length ≤ MAX_DECOMPRESSED_BYTES + 1

/-- Whatever a mirror sends, and however it is cut up and delayed: the manifest is fetched
exactly if all of it came in time and is one, the error is for now exactly if the server
or the connection failed, and neither buffer outgrows its limit. -/
theorem manifest_fetch (crates : MirrorCrates) (baseUrl : String) (x : Exchange) :
    FetchSound crates baseUrl x where
  accepted _ := fetchManifest_eq_ok
  transient := fetchManifest_eq_transient
  named _ := fetchManifest_ne_notInManifest
  recut y body hx hy := by
    rw [fetchManifest_of_granted hx.granted, fetchManifest_of_granted hy.granted,
      readCapped_eq_ok.mpr ⟨hx.whole, hx.small⟩, readCapped_eq_ok.mpr ⟨hy.whole, hy.small⟩]
  received pre rest buffer _ hgoes := by
    obtain ⟨chunks, -, rfl, hle⟩ := (goesOn_read_iff lt_top).mp hgoes
    exact hle
  inflated _ _ := length_readToEnd_le

end Gcit.Git.Grokmirror
