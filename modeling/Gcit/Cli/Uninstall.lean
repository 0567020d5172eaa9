import Gcit.Cli.Install

/-! # Uninstalling

`gcit uninstall` removes what the manifest lists and the manifest last. What it asks of
the file system besides (where the links of a path lead, what can be read and what can be
removed) is given to the run.
-/

namespace Gcit.Cli

open Gcit.Library

structure UninstallRun where
  scope : InstallScope
  env : Environment
  homeKnown : Bool
  force : Bool
  /-- `validate_manifest_path`. -/
  valid : Path → Bool
  readable : Path → Bool
  removable : Path → Bool

inductive UserNote where
  | createdByInstall (user : String)
  | preExisted (user : String)
  deriving DecidableEq

structure Modified where
  path : Path
  manifestSha : String
  onDiskSha : String
  deriving DecidableEq

inductive UninstallEnd where
  | noHome
  | noManifest
  | otherSchema (version : UInt32)
  | rejected (path : Path)
  | cannotHash (path : Path)
  | modified (files : List Modified)
  | removalErrors (paths : List Path)
  | manifestStuck
  | done (note : Option UserNote)
  deriving DecidableEq

def userNote (m : Manifest) : Option UserNote :=
  m.userRequired.map fun user =>
    if m.userCreatedByInstall then .createdByInstall user else .preExisted user

namespace UninstallRun

variable (json : ManifestJson) (sha256 : List UInt8 → String) (u : UninstallRun)

def paths : InstallPaths := installPaths u.scope u.env

/-- The entries whose file is there with another digest; an error is the first file that
cannot be hashed. -/
def modifiedFiles (disk : Disk) : List ManifestEntry → Except Path (List Modified)
  | [] => .ok []
  | entry :: rest => match disk entry.path with
    | none => modifiedFiles disk rest
    | some file =>
      if u.readable entry.path then
        if sha256 file.contents = entry.sha256 then modifiedFiles disk rest
        else (modifiedFiles disk rest).map
          (⟨entry.path, entry.sha256, sha256 file.contents⟩ :: ·)
      else .error entry.path

/-- One turn of the removal loop, with the errors so far. -/
def removeEntry (s : Disk × List Path) (entry : ManifestEntry) : Disk × List Path :=
  if (s.1 entry.path).isSome then
    if u.removable entry.path then (Function.update s.1 entry.path none, s.2)
    else (s.1, s.2 ++ [entry.path])
  else s

def removeEntries (disk : Disk) (entries : List ManifestEntry) : Disk × List Path :=
  entries.foldl u.removeEntry (disk, [])

def removeAll (disk : Disk) (m : Manifest) : Disk × UninstallEnd :=
  let (disk, errors) := u.removeEntries disk m.files
  if errors ≠ [] then (disk, .removalErrors errors)
  else if (disk u.paths.manifest).isSome && !u.removable u.paths.manifest then
    (disk, .manifestStuck)
  else (Function.update disk u.paths.manifest none, .done (userNote m))

def uninstall (disk : Disk) : Disk × UninstallEnd :=
  if u.homeKnown then
    match readManifest json disk u.paths.manifest with
    | none => (disk, .noManifest)
    | some m =>
      if m.schemaVersion ≠ MANIFEST_SCHEMA_VERSION then (disk, .otherSchema m.schemaVersion)
      else match m.files.find? fun entry => !u.valid entry.path with
        | some entry => (disk, .rejected entry.path)
        | none => match u.modifiedFiles sha256 disk m.files with
          | .error path => (disk, .cannotHash path)
          | .ok files =>
            if files ≠ [] ∧ u.force = false then (disk, .modified files) else u.removeAll disk m
  else (disk, .noHome)

variable {json sha256 u} {disk : Disk}

theorem removeEntries_of_notMem {entries : List ManifestEntry} {path : Path}
    (h : path ∉ entries.map (·.path)) : (u.removeEntries disk entries).1 path = disk path := by
  have hkeep (s : Disk × List Path) : (entries.foldl u.removeEntry s).1 path = s.1 path := by
    induction entries generalizing s with
    | nil => rfl
    | cons entry entries ih =>
      rw [List.map_cons, List.mem_cons, not_or] at h
      rw [List.foldl_cons, ih h.2]
      unfold removeEntry
      split
      · split
        · exact Function.update_of_ne h.1 _ _
        · rfl
      · rfl
  exact hkeep (disk, [])

theorem removeEntries_of_removable (disk : Disk) {entries : List ManifestEntry}
    (h : ∀ entry ∈ entries, u.removable entry.path = true) :
    (u.removeEntries disk entries).2 = [] ∧
      ∀ entry ∈ entries, (u.removeEntries disk entries).1 entry.path = none := by
  have hgone (s : Disk × List Path) : (entries.foldl u.removeEntry s).2 = s.2 ∧
      (∀ path, s.1 path = none → (entries.foldl u.removeEntry s).1 path = none) ∧
      ∀ entry ∈ entries, (entries.foldl u.removeEntry s).1 entry.path = none := by
    induction entries generalizing s with
    | nil => exact ⟨rfl, fun _ hnone => hnone, nofun⟩
    | cons entry entries ih =>
      obtain ⟨herrors, hstays, hentries⟩ :=
        ih (fun e he => h e (List.mem_cons_of_mem _ he)) (u.removeEntry s entry)
      have hremovable := h entry List.mem_cons_self
      have hfirst : (u.removeEntry s entry).2 = s.2 ∧
          (∀ path, s.1 path = none → (u.removeEntry s entry).1 path = none) ∧
          (u.removeEntry s entry).1 entry.path = none := by
        unfold removeEntry
        by_cases hsome : (s.1 entry.path).isSome = true
        · rw [if_pos hsome, if_pos hremovable]
          refine ⟨rfl, fun path hnone => ?_, Function.update_self _ _ _⟩
          by_cases hpath : path = entry.path
          · exact hpath ▸ Function.update_self _ _ _
          · exact (Function.update_of_ne hpath _ _).trans hnone
        · rw [if_neg hsome]
          exact ⟨rfl, fun _ hnone => hnone, Option.not_isSome_iff_eq_none.mp hsome⟩
      refine ⟨herrors.trans hfirst.1, fun path hnone => hstays path (hfirst.2.1 path hnone), ?_⟩
      intro e he
      obtain rfl | he := List.mem_cons.mp he
      · exact hstays _ hfirst.2.2
      · exact hentries e he
  obtain ⟨herrors, -, hentries⟩ := hgone (disk, [])
  exact ⟨herrors, hentries⟩

theorem modifiedFiles_of_lists {entries : List ManifestEntry}
    (h : ∀ entry ∈ entries, u.readable entry.path = true ∧
      ∀ file ∈ disk entry.path, sha256 file.contents = entry.sha256) :
    u.modifiedFiles sha256 disk entries = .ok [] := by
  induction entries with
  | nil => rfl
  | cons entry entries ih =>
    have hrest := ih fun e he => h e (List.mem_cons_of_mem _ he)
    obtain ⟨hreadable, hsha⟩ := h entry List.mem_cons_self
    rw [modifiedFiles]
    cases hfile : disk entry.path with
    | none => exact hrest
    | some file =>
      simp only [if_pos hreadable, if_pos (hsha file hfile)]
      exact hrest

/-- What a run does to the manifest, if the manifest does not list itself: a run that
completes removes it, and any other leaves it. -/
theorem uninstall_manifest (sha256 : List UInt8 → String)
    (h : ∀ m ∈ readManifest json disk u.paths.manifest, u.paths.manifest ∉ m.files.map (·.path)) :
    (∃ m note, readManifest json disk u.paths.manifest = some m ∧ note = userNote m ∧
        (u.uninstall json sha256 disk).2 = .done note ∧
        (u.uninstall json sha256 disk).1 u.paths.manifest = none) ∨
      ((∀ note, (u.uninstall json sha256 disk).2 ≠ .done note) ∧
        (u.uninstall json sha256 disk).1 u.paths.manifest = disk u.paths.manifest) := by
  unfold uninstall
  split
  case isFalse => exact .inr ⟨nofun, rfl⟩
  case isTrue =>
    cases hm : readManifest json disk u.paths.manifest with
    | none => exact .inr ⟨nofun, rfl⟩
    | some m =>
      have hself := h m hm
      simp only
      split
      · exact .inr ⟨nofun, rfl⟩
      · split
        · exact .inr ⟨nofun, rfl⟩
        · split
          · exact .inr ⟨nofun, rfl⟩
          · split
            · exact .inr ⟨nofun, rfl⟩
            · have hstays : (u.removeEntries disk m.files).1 u.paths.manifest = disk u.paths.manifest :=
                removeEntries_of_notMem hself
              unfold removeAll
              simp only
              split
              · exact .inr ⟨nofun, hstays⟩
              · split
                · exact .inr ⟨nofun, hstays⟩
                · exact .inl ⟨m, userNote m, rfl, rfl, rfl, Function.update_self _ _ _⟩

def Permits (u : UninstallRun) (path : Path) : Prop :=
  u.valid path = true ∧ u.readable path = true ∧ u.removable path = true

/-- An uninstall takes back an install that came to its manifest, with or without force,
and nothing else. -/
theorem uninstall_install {r : InstallRun} {host : Host} (hhome : u.homeKnown = true)
    (hpaths : u.paths = r.paths)
    (hpermits : ∀ path ∈ r.paths.manifest :: r.paths.managed, u.Permits path)
    (hlt : r.outputs.length < r.renames json sha256 host.disk) :
    (∃ note, (u.uninstall json sha256 (r.install json sha256 host).disk).2 = .done note) ∧
      ∀ path, (u.uninstall json sha256 (r.install json sha256 host).disk).1 path =
        if path ∈ r.paths.manifest :: r.paths.managed then none else host.disk path := by
  obtain ⟨created, -, hmanifest⟩ := InstallRun.readManifest_install_of_lt hlt
  obtain ⟨m, hm, hread⟩ : ∃ m, m = manifestOf sha256 r.outputs r.hasLocalMail created ∧
      readManifest json (r.install json sha256 host).disk r.paths.manifest = some m :=
    ⟨_, rfl, hmanifest⟩
  have hreplaced := InstallRun.replaced_of_lt hlt
  have hentries : m.files.map (·.path) = r.paths.managed := by
    rw [hm, ← InstallRun.map_path_outputs]
    exact List.map_map
  have hmem {entry : ManifestEntry} (hentry : entry ∈ m.files) :
      entry.path ∈ r.paths.manifest :: r.paths.managed :=
    List.mem_cons_of_mem _ (hentries ▸ List.mem_map_of_mem hentry)
  have hvalid : m.files.find? (fun entry => !u.valid entry.path) = none := by
    refine List.find?_eq_none.mpr fun entry hentry => ?_
    simp [(hpermits _ (hmem hentry)).1]
  have hmodified : u.modifiedFiles sha256 (r.install json sha256 host).disk m.files = .ok [] := by
    refine modifiedFiles_of_lists fun entry hentry => ⟨(hpermits _ (hmem hentry)).2.1, ?_⟩
    rw [hm] at hentry
    obtain ⟨o, ho, rfl⟩ := List.mem_map.mp hentry
    intro file hfile
    rw [InstallRun.install_of_mem_replaced (hreplaced ▸ ho)] at hfile
    obtain rfl := Option.some.inj hfile
    rfl
  obtain ⟨hnoError, hgone⟩ := removeEntries_of_removable (r.install json sha256 host).disk
    fun entry hentry => (hpermits _ (hmem hentry)).2.2
  have hrun : u.uninstall json sha256 (r.install json sha256 host).disk =
      (Function.update (u.removeEntries (r.install json sha256 host).disk m.files).1
        r.paths.manifest none, .done (userNote m)) := by
    have hschema : m.schemaVersion = MANIFEST_SCHEMA_VERSION := hm ▸ rfl
    have hremovable := (hpermits _ List.mem_cons_self).2.2
    rw [uninstall, if_pos hhome, hpaths, hread]
    simp only [hschema, ne_eq, not_true_eq_false, ↓reduceIte, hvalid, hmodified, false_and,
      removeAll, hnoError, hpaths, hremovable, Bool.not_true, Bool.and_false, Bool.false_eq_true]
  rw [hrun]
  refine ⟨⟨_, rfl⟩, fun path => ?_⟩
  by_cases hpath : path = r.paths.manifest
  · rw [hpath, if_pos List.mem_cons_self]
    exact Function.update_self _ _ _
  · apply (Function.update_of_ne hpath _ _).trans
    by_cases hmanaged : path ∈ r.paths.managed
    · rw [if_pos (List.mem_cons_of_mem _ hmanaged)]
      obtain ⟨entry, hentry, rfl⟩ := List.mem_map.mp (hentries ▸ hmanaged)
      exact hgone entry hentry
    · rw [if_neg fun h => (List.mem_cons.mp h).elim hpath hmanaged,
        removeEntries_of_notMem (hentries ▸ hmanaged)]
      refine InstallRun.install_of_notMem_replaced hpath fun h => hmanaged ?_
      exact InstallRun.mem_managed_of_replaced h

end UninstallRun

end Gcit.Cli
