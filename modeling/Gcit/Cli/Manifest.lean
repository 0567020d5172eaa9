import Mathlib.Data.List.Nodup
import Gcit.Library.Document

/-! # The install manifest

What an installation leaves on the host: three files, and the manifest that lists them
with their digests. The text of a document is the business of `serde_json`, and the
digest that of `sha2`; a file is what it contains and its mode.
-/

namespace Gcit.Cli

open Gcit.Library

abbrev Path := String

structure File where
  contents : List UInt8
  mode : UInt32
  deriving DecidableEq

abbrev Disk := Path → Option File

structure ManifestEntry where
  path : Path
  sha256 : String
  mode : UInt32
  deriving DecidableEq

structure Manifest where
  schemaVersion : UInt32
  files : List ManifestEntry
  userRequired : Option String
  userCreatedByInstall : Bool
  deriving DecidableEq

def MANIFEST_SCHEMA_VERSION : UInt32 := 1

def STATIC_USER : String := "gcit"

namespace ManifestEntry

def NAMES : List String := ["path", "sha256", "mode"]

def fields (entry : ManifestEntry) : List (String × Option Document) :=
  [Codec.string.requiredField "path" entry.path, Codec.string.requiredField "sha256" entry.sha256,
    Codec.uint32.requiredField "mode" entry.mode]

def deserialize (d : Document) : Option ManifestEntry := do
  let fields ← d.knownFields NAMES
  return {
    path := ← Codec.string.required fields "path"
    sha256 := ← Codec.string.required fields "sha256"
    mode := ← Codec.uint32.required fields "mode" }

theorem names_fields (entry : ManifestEntry) : entry.fields.map Prod.fst = NAMES := rfl

theorem deserialize_record (entry : ManifestEntry) :
    deserialize (.record entry.fields) = some entry := by
  have hnodup : (entry.fields.map Prod.fst).Nodup := by
    rw [names_fields]
    decide
  rw [deserialize, Document.knownFields_record hnodup (names_fields entry),
    Option.bind_eq_bind, Option.bind_some,
    Codec.required_present hnodup (a := entry.path) (by simp [fields]),
    Codec.required_present hnodup (a := entry.sha256) (by simp [fields]),
    Codec.required_present hnodup (a := entry.mode) (by simp [fields])]
  rfl

def codec : Codec ManifestEntry where
  write entry := .record entry.fields
  read := deserialize
  read_write := deserialize_record
  write_ne_null _ := nofun

end ManifestEntry

namespace Manifest

def NAMES : List String := ["schema_version", "files", "user_required", "user_created_by_install"]

def fields (m : Manifest) : List (String × Option Document) :=
  [Codec.uint32.requiredField "schema_version" m.schemaVersion,
    ManifestEntry.codec.list.requiredField "files" m.files,
    Codec.string.optionalField "user_required" m.userRequired,
    Codec.flagField "user_created_by_install" m.userCreatedByInstall]

def deserialize (d : Document) : Option Manifest := do
  let fields ← d.knownFields NAMES
  return {
    schemaVersion := ← Codec.uint32.required fields "schema_version"
    files := ← ManifestEntry.codec.list.required fields "files"
    userRequired := ← Codec.string.optional fields "user_required"
    userCreatedByInstall := ← Codec.flag fields "user_created_by_install" }

theorem names_fields (m : Manifest) : m.fields.map Prod.fst = NAMES := rfl

theorem deserialize_record (m : Manifest) : deserialize (.record m.fields) = some m := by
  have hnodup : (m.fields.map Prod.fst).Nodup := by
    rw [names_fields]
    decide
  rw [deserialize, Document.knownFields_record hnodup (names_fields m),
    Option.bind_eq_bind, Option.bind_some,
    Codec.required_present hnodup (a := m.schemaVersion) (by simp [fields]),
    Codec.required_present hnodup (a := m.files) (by simp [fields]),
    Codec.optional_present hnodup (a := m.userRequired) (by simp [fields]),
    Codec.flag_present hnodup (b := m.userCreatedByInstall) (by simp [fields])]
  rfl

def codec : Codec Manifest where
  write m := .record m.fields
  read := deserialize
  read_write := deserialize_record
  write_ne_null _ := nofun

end Manifest

/-- `serde_json` on the bytes of a file; what it writes for a manifest it reads back. -/
structure ManifestJson where
  toVecPretty : Document → List UInt8
  parse : List UInt8 → Option Document
  parse_toVecPretty : ∀ m,
    parse (toVecPretty (Manifest.codec.write m)) = some (Manifest.codec.write m)

def readManifest (json : ManifestJson) (disk : Disk) (path : Path) : Option Manifest := do
  let file ← disk path
  let d ← json.parse file.contents
  Manifest.codec.read d

theorem readManifest_written {json : ManifestJson} {disk : Disk} {path : Path} {m : Manifest}
    {mode : UInt32} (h : disk path = some ⟨json.toVecPretty (Manifest.codec.write m), mode⟩) :
    readManifest json disk path = some m := by
  simp only [readManifest, h, Option.bind_eq_bind, Option.bind_some, json.parse_toVecPretty]
  exact Manifest.codec.read_write m

inductive InstallScope where
  | user
  | system
  deriving DecidableEq

/-- `home_dir` is set and not empty here. -/
structure Environment where
  home : Path
  xdgConfigHome : Option Path
  xdgStateHome : Option Path
  deriving DecidableEq

/-- The directory of the credentials is not written to. -/
structure InstallPaths where
  serviceUnit : Path
  socketUnit : Path
  config : Path
  manifest : Path
  deriving DecidableEq

def join (base name : Path) : Path :=
  let last := base.toList.getLast?
  if last = none ∨ last = some '/' then base ++ name else base ++ "/" ++ name

def installPaths (scope : InstallScope) (env : Environment) : InstallPaths :=
  match scope with
  | .user =>
    let xdgConfig := env.xdgConfigHome.getD (join env.home ".config")
    let xdgState := env.xdgStateHome.getD (join (join env.home ".local") "state")
    let configDir := join xdgConfig "gcit"
    let unitsDir := join (join xdgConfig "systemd") "user"
    let stateDir := join xdgState "gcit"
    ⟨join unitsDir "gcit.service", join unitsDir "gcit.socket", join configDir "config.toml",
      join stateDir ".install-manifest.json"⟩
  | .system => ⟨"/etc/systemd/system/gcit.service", "/etc/systemd/system/gcit.socket",
      "/etc/gcit/config.toml", "/var/lib/gcit/.install-manifest.json"⟩

namespace InstallPaths

def managed (paths : InstallPaths) : List Path :=
  [paths.serviceUnit, paths.socketUnit, paths.config]

def lastChar (path : Path) : Option Char := path.toList.getLast?

theorem lastChar_join (base name : Path) (h : lastChar name ≠ none) :
    lastChar (join base name) = lastChar name := by
  unfold lastChar at h ⊢
  unfold join
  obtain ⟨c, hc⟩ := Option.ne_none_iff_exists'.mp h
  simp only
  split <;> simp [String.toList_append, List.getLast?_append, List.getLast?_cons, hc]

/-- The four paths of an installation end differently, whatever the environment. -/
theorem map_lastChar (scope : InstallScope) (env : Environment) :
    (installPaths scope env).managed.map lastChar = [some 'e', some 't', some 'l'] ∧
      lastChar (installPaths scope env).manifest = some 'n' := by
  cases scope with
  | system =>
    have hpaths : installPaths .system env = installPaths .system ⟨"", none, none⟩ := rfl
    rw [hpaths]
    decide
  | user =>
    refine ⟨?_, lastChar_join _ ".install-manifest.json" (by decide)⟩
    have hservice (base : Path) := lastChar_join base "gcit.service" (by decide)
    have hsocket (base : Path) := lastChar_join base "gcit.socket" (by decide)
    have hconfig (base : Path) := lastChar_join base "config.toml" (by decide)
    simp only [installPaths, managed, List.map_cons, List.map_nil, hservice, hsocket, hconfig]
    decide

theorem managed_nodup (scope : InstallScope) (env : Environment) :
    (installPaths scope env).managed.Nodup := by
  have hlast : ((installPaths scope env).managed.map lastChar).Nodup := by
    rw [(map_lastChar scope env).1]
    decide
  exact hlast.of_map lastChar

theorem manifest_notMem_managed (scope scope' : InstallScope) (env env' : Environment) :
    (installPaths scope env).manifest ∉ (installPaths scope' env').managed := by
  intro hmem
  have hlast := List.mem_map_of_mem (f := lastChar) hmem
  rw [(map_lastChar scope' env').1, (map_lastChar scope env).2] at hlast
  exact absurd hlast (by decide)

end InstallPaths

end Gcit.Cli
