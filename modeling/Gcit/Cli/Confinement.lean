import Gcit.Library.Paths
import Gcit.Cli.Uninstall

/-! # What an uninstall can reach

The run of `gcit uninstall` on a file system with directories and links: what
`validate_manifest_path` accepts, and what the three passes over the manifest do. Nobody
else changes the file system meanwhile, and a path that is not found is missing.
-/

namespace Gcit.Cli

open Gcit.Library Gcit.Library.Paths

abbrev FileTree := Tree String File

def segment (name : String) : Segment String :=
  if name = "" ∨ name = "." then .here else if name = ".." then .up else .name name

/-- No file has an empty path or one with a NUL. -/
def route (path : Path) : Option (Route String) :=
  if path = "" ∨ Char.ofNat 0 ∈ path.toList then none
  else some ⟨path.toList.head? = some '/',
    (path.toList.splitOn '/').map fun name => segment (String.ofList name)⟩

/-- `Path::parent`, of a path that ends with a name. -/
def parent (path : Path) : Option Path :=
  let dir := path.toList.reverse.dropWhile (· ≠ '/')
  let trimmed := (dir.dropWhile (· = '/')).reverse
  if dir ≠ [] ∧ trimmed = [] then some "/" else some (String.ofList trimmed)

def expectedRoots (paths : InstallPaths) : List Path :=
  [paths.serviceUnit, paths.socketUnit, paths.config].filterMap parent

theorem parent_join {base name : Path} {last : Char}
    (hlast : InstallPaths.lastChar base = some last) (hslash : last ≠ '/')
    (hname : '/' ∉ name.toList) : parent (join base name) = some base := by
  obtain ⟨front, hbase⟩ := List.getLast?_eq_some_iff.mp hlast
  have hlast' : base.toList.getLast? = some last := hlast
  have hjoin : (join base name).toList = base.toList ++ '/' :: name.toList := by
    have hne : ¬ (base.toList.getLast? = none ∨ base.toList.getLast? = some '/') := by
      rw [hlast']
      simp [hslash]
    rw [join, if_neg hne, String.toList_append, String.toList_append]
    simp
  have hname' : ∀ c ∈ name.toList.reverse, decide (c ≠ '/') = true := by
    intro c hc
    simp only [ne_eq, decide_eq_true_eq]
    rintro rfl
    exact hname (List.mem_reverse.mp hc)
  have hdir : (join base name).toList.reverse.dropWhile (fun c => decide (c ≠ '/')) =
      '/' :: base.toList.reverse := by
    rw [hjoin, List.reverse_append, List.reverse_cons, List.append_assoc,
      List.dropWhile_append_of_pos hname']
    simp
  have htrimmed : (('/' :: base.toList.reverse).dropWhile (fun c => decide (c = '/'))).reverse =
      base.toList := by
    rw [hbase]
    simp [hslash]
  rw [parent]
  simp only [hdir, htrimmed]
  rw [if_neg (by simp [hbase]), String.ofList_toList]

theorem expectedRoots_installPaths (scope : InstallScope) (env : Environment) :
    expectedRoots (installPaths scope env) = match scope with
      | .user =>
        let xdgConfig := env.xdgConfigHome.getD (join env.home ".config")
        let unitsDir := join (join xdgConfig "systemd") "user"
        [unitsDir, unitsDir, join xdgConfig "gcit"]
      | .system => ["/etc/systemd/system", "/etc/systemd/system", "/etc/gcit"] := by
  cases scope with
  | system =>
    have hroots : expectedRoots (installPaths .system ⟨"", none, none⟩) =
        ["/etc/systemd/system", "/etc/systemd/system", "/etc/gcit"] := by decide +kernel
    exact hroots
  | user =>
    have hunits (base : Path) : InstallPaths.lastChar (join base "user") = some 'r' :=
      InstallPaths.lastChar_join base "user" (by decide)
    have hconfig (base : Path) : InstallPaths.lastChar (join base "gcit") = some 't' :=
      InstallPaths.lastChar_join base "gcit" (by decide)
    simp only [expectedRoots, installPaths, List.filterMap_cons, List.filterMap_nil,
      parent_join (hunits _) (by decide) (show '/' ∉ "gcit.service".toList by decide),
      parent_join (hunits _) (by decide) (show '/' ∉ "gcit.socket".toList by decide),
      parent_join (hconfig _) (by decide) (show '/' ∉ "config.toml".toList by decide)]

inductive Rejection where
  | symlink
  | canonicalizeFailed
  | outside (allowRoots : List Path)
  deriving DecidableEq

/-- A run and the host that it meets; `nameable` is whether `realpath` can write down where
a path leads. -/
structure LinkedRun where
  scope : InstallScope
  env : Environment
  homeKnown : Bool
  force : Bool
  cwd : Location String
  linkLimit : Nat
  nameable : Path → Bool
  readable : Location String → Bool
  removable : Location String → Bool

namespace LinkedRun

section Run

variable (json : ManifestJson) (sha256 : List UInt8 → String) (u : LinkedRun) (tree : FileTree)

def paths : InstallPaths := installPaths u.scope u.env

def locate (follow : Bool) (path : Path) : Option (Location String) := do
  let r ← route path
  resolve tree follow u.linkLimit u.cwd r

def symlinkMetadata (path : Path) : Option (Node String File) := do
  let l ← u.locate tree false path
  tree l

def pathExists (path : Path) : Bool := (u.locate tree true path).isSome

def canonicalize (path : Path) : Option (Location String) :=
  if u.nameable path then u.locate tree true path else none

/-- A directory can be opened but not read. -/
def readFile (path : Path) : Option File := do
  let l ← u.locate tree true path
  match tree l with
  | some (.file file) => if u.readable l then some file else none
  | _ => none

def fileSha256 (path : Path) : Option String :=
  (u.readFile tree path).map fun file => sha256 file.contents

/-- `fs::remove_file`: what lies at the path itself goes, be it a link. -/
def removeFile (path : Path) : Option FileTree := do
  let l ← u.locate tree false path
  match tree l with
  | none | some .directory => none
  | some _ => if u.removable l then some (remove tree l) else none

def validateManifestPath (path : Path) (allowRoots : List Path) : Except Rejection Unit :=
  match u.symlinkMetadata tree path with
  | some (.link _) => .error .symlink
  | _ => match u.canonicalize tree path with
    | none => if u.pathExists tree path then .error .canonicalizeFailed else .ok ()
    | some canonPath =>
      if ∃ root ∈ allowRoots, ∃ canonRoot ∈ u.canonicalize tree root, canonRoot <+: canonPath then
        .ok ()
      else .error (.outside allowRoots)

def modifiedFiles : List ManifestEntry → Except Path (List Modified)
  | [] => .ok []
  | entry :: rest =>
    if u.pathExists tree entry.path then match u.fileSha256 sha256 tree entry.path with
      | none => .error entry.path
      | some sha =>
        if sha = entry.sha256 then modifiedFiles rest
        else (modifiedFiles rest).map (⟨entry.path, entry.sha256, sha⟩ :: ·)
    else modifiedFiles rest

def removeEntry (s : FileTree × List Path) (entry : ManifestEntry) : FileTree × List Path :=
  if u.pathExists s.1 entry.path then match u.removeFile s.1 entry.path with
    | none => (s.1, s.2 ++ [entry.path])
    | some tree => (tree, s.2)
  else s

def removeEntries (entries : List ManifestEntry) : FileTree × List Path :=
  entries.foldl u.removeEntry (tree, [])

def removeAll (m : Manifest) : FileTree × UninstallEnd :=
  let (tree, errors) := u.removeEntries tree m.files
  if errors ≠ [] then (tree, .removalErrors errors)
  else if u.pathExists tree u.paths.manifest then match u.removeFile tree u.paths.manifest with
    | none => (tree, .manifestStuck)
    | some tree => (tree, .done (userNote m))
  else (tree, .done (userNote m))

def manifest : Option Manifest := readManifest json (u.readFile tree) u.paths.manifest

def accepts (entry : ManifestEntry) : Bool :=
  (u.validateManifestPath tree entry.path (expectedRoots u.paths)).isOk

def uninstall : FileTree × UninstallEnd :=
  if u.homeKnown then
    match u.manifest json tree with
    | none => (tree, .noManifest)
    | some m =>
      if m.schemaVersion ≠ MANIFEST_SCHEMA_VERSION then (tree, .otherSchema m.schemaVersion)
      else match m.files.find? fun entry => !u.accepts tree entry with
        | some entry => (tree, .rejected entry.path)
        | none => match u.modifiedFiles sha256 tree m.files with
          | .error path => (tree, .cannotHash path)
          | .ok files =>
            if files ≠ [] ∧ u.force = false then (tree, .modified files) else u.removeAll tree m
  else (tree, .noHome)

/-- What speaks against an entry: it is rejected, or its file cannot be read or, without
`--force`, is not the one that was installed. -/
def Refused (entry : ManifestEntry) : Prop :=
  u.accepts tree entry = false ∨ u.pathExists tree entry.path = true ∧
    (u.fileSha256 sha256 tree entry.path = none ∨
      u.force = false ∧ u.fileSha256 sha256 tree entry.path ≠ some entry.sha256)

structure Goes (m : Manifest) : Prop where
  home : u.homeKnown = true
  manifest : u.manifest json tree = some m
  schema : m.schemaVersion = MANIFEST_SCHEMA_VERSION
  entries : ∀ entry ∈ m.files, ¬ u.Refused sha256 tree entry

end Run

variable {json : ManifestJson} {sha256 : List UInt8 → String} {u : LinkedRun} {tree : FileTree}

section Located

variable {path : Path} {l : Location String}

theorem locate_eq {follow : Bool} (h : u.locate tree follow path = some l) :
    ∃ r, route path = some r ∧ resolve tree follow u.linkLimit u.cwd r = some l :=
  Option.bind_eq_some_iff.mp h

theorem locate_of_route {follow : Bool} {r : Route String} (hr : route path = some r) :
    u.locate tree follow path = resolve tree follow u.linkLimit u.cwd r := by
  rw [locate, hr]
  rfl

theorem pathExists_iff : u.pathExists tree path = true ↔ ∃ l, u.locate tree true path = some l :=
  Option.isSome_iff_exists

theorem symlinkMetadata_of_locate (hl : u.locate tree false path = some l) :
    u.symlinkMetadata tree path = tree l :=
  congrArg (Option.bind · tree) hl

theorem locate_of_canonicalize (h : u.canonicalize tree path = some l) :
    u.locate tree true path = some l :=
  (Option.ite_none_right_eq_some.mp h).2

theorem locate_cleared {tree' : FileTree} {gone : Set (Location String)}
    (h : Cleared tree tree' gone) (follow : Bool) :
    u.locate tree' follow path = some l ↔ u.locate tree follow path = some l ∧ l ∉ gone := by
  cases hr : route path with
  | none => simp [locate, hr]
  | some r =>
    rw [locate_of_route hr, locate_of_route hr]
    exact h.resolve_iff follow u.linkLimit u.cwd r l

/-- A path that exists is also found without following a link in its last place. -/
theorem exists_locate_false (h : u.locate tree true path = some l) :
    ∃ l', u.locate tree false path = some l' := by
  obtain ⟨r, hr, hl⟩ := locate_eq h
  obtain ⟨l', hl'⟩ := resolve_unfollowed hl
  exact ⟨l', (locate_of_route hr).trans hl'⟩

theorem locate_true_of_not_link (h : u.locate tree false path = some l)
    (hlink : ∀ target, tree l ≠ some (.link target)) : u.locate tree true path = some l := by
  obtain ⟨r, hr, hl⟩ := locate_eq h
  exact (locate_of_route hr).trans (resolve_followed hlink hl)

theorem removeFile_of_file {file : File} (hl : u.locate tree false path = some l)
    (hfile : tree l = some (.file file)) :
    u.removeFile tree path = if u.removable l then some (remove tree l) else none := by
  rw [removeFile, hl]
  simp only [Option.bind_eq_bind, Option.bind_some, hfile]

theorem exists_file_of_readFile {file : File} (h : u.readFile tree path = some file) :
    ∃ l, u.locate tree true path = some l ∧ tree l = some (.file file) := by
  obtain ⟨l, hl, hnode⟩ := Option.bind_eq_some_iff.mp h
  refine ⟨l, hl, ?_⟩
  split at hnode
  · rename_i hfile
    split at hnode
    · exact hfile.trans (congrArg (Option.map Node.file) hnode)
    · cases hnode
  · cases hnode

end Located

section Entry

variable {entry : ManifestEntry} {l : Location String}

/-- What passes `validate_manifest_path`: no link, and missing or under one of the roots. -/
theorem accepts_iff : u.accepts tree entry = true ↔
    (∀ target, u.symlinkMetadata tree entry.path ≠ some (.link target)) ∧
      (u.canonicalize tree entry.path = none ∧ u.pathExists tree entry.path = false ∨
        ∃ canonPath ∈ u.canonicalize tree entry.path, ∃ root ∈ expectedRoots u.paths,
          ∃ canonRoot ∈ u.canonicalize tree root, canonRoot <+: canonPath) := by
  rw [accepts, validateManifestPath]
  split
  · rename_i target htarget
    exact iff_of_false Bool.false_ne_true fun h => h.1 target htarget
  · rename_i hlink
    rw [and_iff_right hlink]
    cases u.canonicalize tree entry.path with
    | none =>
      cases u.pathExists tree entry.path with
      | true => exact iff_of_false Bool.false_ne_true (by simp)
      | false => exact iff_of_true rfl (.inl ⟨rfl, rfl⟩)
    | some canonPath =>
      by_cases hroot : ∃ root ∈ expectedRoots u.paths, ∃ canonRoot ∈ u.canonicalize tree root,
          canonRoot <+: canonPath
      · simp only [if_pos hroot]
        exact iff_of_true rfl (.inr ⟨canonPath, rfl, hroot⟩)
      · simp only [if_neg hroot]
        apply iff_of_false Bool.false_ne_true
        rintro (⟨hnone, -⟩ | ⟨canonPath', hpath, hroot'⟩)
        · cases hnone
        · cases hpath
          exact hroot hroot'

theorem not_link_of_accepts (h : u.accepts tree entry = true)
    (hl : u.locate tree false entry.path = some l) : ∀ target, tree l ≠ some (.link target) := by
  rw [accepts_iff, symlinkMetadata_of_locate hl] at h
  exact h.1

theorem locate_false_of_accepts (h : u.accepts tree entry = true)
    (hl : u.locate tree true entry.path = some l) : u.locate tree false entry.path = some l := by
  obtain ⟨l', hl'⟩ := exists_locate_false hl
  have hsame := locate_true_of_not_link hl' (not_link_of_accepts h hl')
  rw [hl', ← hsame, hl]

theorem under_root_of_accepts (h : u.accepts tree entry = true)
    (hl : u.locate tree true entry.path = some l) :
    u.canonicalize tree entry.path = some l ∧ ∃ root ∈ expectedRoots u.paths,
      ∃ canonRoot ∈ u.canonicalize tree root, canonRoot <+: l := by
  rw [accepts_iff] at h
  obtain ⟨-, ⟨-, hmissing⟩ | ⟨canonPath, hcanon, hroot⟩⟩ := h
  · rw [pathExists, hl] at hmissing
    cases hmissing
  · have hpath := locate_of_canonicalize (Option.mem_def.mp hcanon)
    obtain rfl := Option.some.inj (hl.symm.trans hpath)
    exact ⟨hcanon, hroot⟩

theorem exists_file_of_fileSha256 {sha : String} (hl : u.locate tree true entry.path = some l)
    (h : u.fileSha256 sha256 tree entry.path = some sha) : ∃ file, tree l = some (.file file) := by
  obtain ⟨file, hread, -⟩ := Option.map_eq_some_iff.mp h
  obtain ⟨l', hl', hfile⟩ := exists_file_of_readFile hread
  obtain rfl := Option.some.inj (hl.symm.trans hl')
  exact ⟨file, hfile⟩

/-- An entry that nothing speaks against, where its file is there. -/
structure Sound (u : LinkedRun) (tree : FileTree) (entry : ManifestEntry)
    (l : Location String) : Prop where
  unfollowed : u.locate tree false entry.path = some l
  file : ∃ file, tree l = some (.file file)
  canonical : u.canonicalize tree entry.path = some l
  root : ∃ root ∈ expectedRoots u.paths, ∃ canonRoot ∈ u.canonicalize tree root, canonRoot <+: l

theorem accepts_of_not_refused (h : ¬ u.Refused sha256 tree entry) : u.accepts tree entry = true :=
  Bool.of_not_eq_false fun haccepts => h (.inl haccepts)

theorem sound_of_not_refused (h : ¬ u.Refused sha256 tree entry)
    (hl : u.locate tree true entry.path = some l) : Sound u tree entry l := by
  have haccepts := accepts_of_not_refused h
  obtain ⟨hcanonical, hroot⟩ := under_root_of_accepts haccepts hl
  obtain ⟨sha, hsha⟩ : ∃ sha, u.fileSha256 sha256 tree entry.path = some sha :=
    Option.ne_none_iff_exists'.mp fun hnone =>
      h (.inr ⟨pathExists_iff.mpr ⟨l, hl⟩, .inl hnone⟩)
  exact ⟨locate_false_of_accepts haccepts hl, exists_file_of_fileSha256 hl hsha, hcanonical, hroot⟩

end Entry

section Removal

variable {entry : ManifestEntry} {entries : List ManifestEntry} {s : FileTree × List Path}
  {gone : Set (Location String)}

theorem removeEntry_cases (hclear : Cleared tree s.1 gone) (h : ¬ u.Refused sha256 tree entry) :
    ((∀ l, u.locate tree true entry.path = some l → l ∈ gone) ∧ u.removeEntry s entry = s) ∨
      ∃ l, u.locate tree true entry.path = some l ∧ l ∉ gone ∧
        (∃ file, tree l = some (.file file)) ∧ ((u.removable l = true ∧
          u.removeEntry s entry = (remove s.1 l, s.2)) ∨ u.removable l = false ∧
          u.removeEntry s entry = (s.1, s.2 ++ [entry.path])) := by
  by_cases hexists : u.pathExists s.1 entry.path = true
  · obtain ⟨l, hl⟩ := pathExists_iff.mp hexists
    obtain ⟨hl, hgone⟩ := (locate_cleared hclear true).mp hl
    have hsound := sound_of_not_refused h hl
    have hunfollowed := (locate_cleared hclear false).mpr ⟨hsound.unfollowed, hgone⟩
    obtain ⟨file, hfile⟩ := hsound.file
    refine .inr ⟨l, hl, hgone, ⟨file, hfile⟩, ?_⟩
    rw [removeEntry, if_pos hexists,
      removeFile_of_file hunfollowed ((hclear.kept l hgone).trans hfile)]
    cases hremovable : u.removable l with
    | true => exact .inl ⟨rfl, rfl⟩
    | false => exact .inr ⟨rfl, rfl⟩
  · refine .inl ⟨fun l hl => ?_, by rw [removeEntry, if_neg hexists]⟩
    by_contra hgone
    exact hexists (pathExists_iff.mpr ⟨l, (locate_cleared hclear true).mpr ⟨hl, hgone⟩⟩)

def removedBy (u : LinkedRun) (tree : FileTree) (entries : List ManifestEntry) :
    Set (Location String) :=
  {l | ∃ entry ∈ entries, u.locate tree true entry.path = some l ∧ u.removable l = true}

def Stuck (u : LinkedRun) (tree : FileTree) (entry : ManifestEntry) : Prop :=
  ∃ l, u.locate tree true entry.path = some l ∧ u.removable l = false

/-- What holds between the turns: the tree lacks what the entries so far let it remove, and
there is an error for each of them that is stuck. -/
structure Progress (u : LinkedRun) (tree : FileTree) (entries : List ManifestEntry)
    (s : FileTree × List Path) : Prop where
  cleared : Cleared tree s.1 (u.removedBy tree entries)
  errors : s.2 = [] ↔ ∀ entry ∈ entries, ¬ u.Stuck tree entry

theorem Progress.start (u : LinkedRun) (tree : FileTree) : Progress u tree [] (tree, []) where
  cleared := by
    have hempty : u.removedBy tree [] = ∅ :=
      Set.eq_empty_iff_forall_notMem.mpr fun _ ⟨_, hentry, _⟩ => absurd hentry List.not_mem_nil
    exact hempty ▸ Cleared.refl tree
  errors := iff_of_true rfl (List.forall_mem_nil _)

theorem mem_removedBy_concat {l : Location String} :
    l ∈ u.removedBy tree (entries ++ [entry]) ↔ l ∈ u.removedBy tree entries ∨
      u.locate tree true entry.path = some l ∧ u.removable l = true := by
  simp [removedBy, or_and_right, exists_or]

theorem Progress.step (hs : Progress u tree entries s) (h : ¬ u.Refused sha256 tree entry) :
    Progress u tree (entries ++ [entry]) (u.removeEntry s entry) := by
  obtain ⟨hgone, hturn⟩ | ⟨l, hl, hkept, ⟨file, hfile⟩, ⟨hremovable, hturn⟩ | ⟨hstays, hturn⟩⟩ :=
    removeEntry_cases hs.cleared h
  · have hstuck : ¬ u.Stuck tree entry := by
      rintro ⟨l, hl, hstays⟩
      obtain ⟨-, -, -, hremovable⟩ := hgone l hl
      exact Bool.false_ne_true (hstays.symm.trans hremovable)
    have hsame : u.removedBy tree (entries ++ [entry]) = u.removedBy tree entries := by
      ext l
      rw [mem_removedBy_concat]
      exact or_iff_left_of_imp fun hentry => hgone l hentry.1
    rw [hturn]
    exact ⟨hsame ▸ hs.cleared, by simp [hs.errors, or_imp, forall_and, hstuck]⟩
  · have hstuck : ¬ u.Stuck tree entry := by
      rintro ⟨l', hl', hstays⟩
      obtain rfl := Option.some.inj (hl.symm.trans hl')
      exact Bool.false_ne_true (hstays.symm.trans hremovable)
    have hmore : u.removedBy tree (entries ++ [entry]) = insert l (u.removedBy tree entries) := by
      ext l'
      rw [mem_removedBy_concat, Set.mem_insert_iff, or_comm, hl, Option.some.injEq]
      exact or_congr_left ⟨fun hentry => hentry.1.symm, fun hl' => ⟨hl'.symm, hl' ▸ hremovable⟩⟩
    rw [hturn]
    exact ⟨hmore ▸ hs.cleared.remove hfile, by simp [hs.errors, or_imp, forall_and, hstuck]⟩
  · have hsame : u.removedBy tree (entries ++ [entry]) = u.removedBy tree entries := by
      ext l'
      rw [mem_removedBy_concat, hl, Option.some.injEq]
      apply or_iff_left_of_imp
      intro hentry
      exact absurd (hstays.symm.trans (hentry.1 ▸ hentry.2)) Bool.false_ne_true
    rw [hturn]
    refine ⟨hsame ▸ hs.cleared, iff_of_false (by simp) fun hall => ?_⟩
    exact hall entry (by simp) ⟨l, hl, hstays⟩

theorem Progress.run {before : List ManifestEntry} (hs : Progress u tree before s)
    (h : ∀ entry ∈ entries, ¬ u.Refused sha256 tree entry) :
    Progress u tree (before ++ entries) (entries.foldl u.removeEntry s) := by
  induction entries generalizing s before with
  | nil => exact (List.append_nil before).symm ▸ hs
  | cons entry entries ih =>
    have hrest := ih (hs.step (h entry List.mem_cons_self))
      fun entry' hentry' => h entry' (List.mem_cons_of_mem _ hentry')
    rwa [List.append_assoc, List.singleton_append] at hrest

theorem progress_removeEntries (h : ∀ entry ∈ entries, ¬ u.Refused sha256 tree entry) :
    Progress u tree entries (u.removeEntries tree entries) :=
  (Progress.start u tree).run h

end Removal

section Passes

variable {entries : List ManifestEntry} {m : Manifest}

/-- The second pass fails at a file that cannot be read, and otherwise finds every file that
is not the one recorded. -/
theorem modifiedFiles_spec (sha256 : List UInt8 → String) (u : LinkedRun) (tree : FileTree)
    (entries : List ManifestEntry) :
    (∃ path, u.modifiedFiles sha256 tree entries = .error path ∧ ∃ entry ∈ entries,
        u.pathExists tree entry.path = true ∧ u.fileSha256 sha256 tree entry.path = none) ∨
      ∃ files, u.modifiedFiles sha256 tree entries = .ok files ∧
        (∀ entry ∈ entries, u.pathExists tree entry.path = true →
          u.fileSha256 sha256 tree entry.path ≠ none) ∧
        (files = [] ↔ ∀ entry ∈ entries, u.pathExists tree entry.path = true →
          u.fileSha256 sha256 tree entry.path = some entry.sha256) := by
  induction entries with
  | nil => exact .inr ⟨[], rfl, List.forall_mem_nil _, iff_of_true rfl (List.forall_mem_nil _)⟩
  | cons entry rest ih =>
    by_cases hexists : u.pathExists tree entry.path = true
    · cases hsha : u.fileSha256 sha256 tree entry.path with
      | none =>
        refine .inl ⟨entry.path, ?_, entry, List.mem_cons_self, hexists, hsha⟩
        rw [modifiedFiles, if_pos hexists, hsha]
      | some sha =>
        have hpass : u.modifiedFiles sha256 tree (entry :: rest) =
            if sha = entry.sha256 then u.modifiedFiles sha256 tree rest
            else (u.modifiedFiles sha256 tree rest).map (⟨entry.path, entry.sha256, sha⟩ :: ·) := by
          rw [modifiedFiles, if_pos hexists, hsha]
        rw [hpass]
        obtain ⟨path, hrest, entry', hentry', hnone⟩ | ⟨files, hrest, hreadable, hnil⟩ := ih
        · refine .inl ⟨path, ?_, entry', List.mem_cons_of_mem _ hentry', hnone⟩
          rw [hrest]
          split <;> rfl
        · have hreadable' := List.forall_mem_cons.mpr
            ⟨fun _ => hsha ▸ Option.some_ne_none sha, hreadable⟩
          by_cases hsame : sha = entry.sha256
          · refine .inr ⟨files, by rw [if_pos hsame, hrest], hreadable', ?_⟩
            rw [hnil, List.forall_mem_cons, hsha, hsame]
            exact (and_iff_right fun _ => rfl).symm
          · refine .inr ⟨⟨entry.path, entry.sha256, sha⟩ :: files, ?_, hreadable',
              iff_of_false (List.cons_ne_nil _ _) fun hall => ?_⟩
            · rw [if_neg hsame, hrest]
              rfl
            · have hsha' := hall entry List.mem_cons_self hexists
              exact hsame (Option.some.inj (hsha.symm.trans hsha'))
    · have hpass : u.modifiedFiles sha256 tree (entry :: rest) =
          u.modifiedFiles sha256 tree rest := by
        rw [modifiedFiles, if_neg hexists]
      rw [hpass]
      obtain ⟨path, hrest, entry', hentry', hnone⟩ | ⟨files, hrest, hreadable, hnil⟩ := ih
      · exact .inl ⟨path, hrest, entry', List.mem_cons_of_mem _ hentry', hnone⟩
      · refine .inr ⟨files, hrest, ?_, ?_⟩
        · exact List.forall_mem_cons.mpr ⟨fun h => absurd h hexists, hreadable⟩
        · rw [hnil, List.forall_mem_cons]
          exact (and_iff_right fun h => absurd h hexists).symm

theorem uninstall_of_goes (h : u.Goes json sha256 tree m) :
    u.uninstall json sha256 tree = u.removeAll tree m := by
  have hvalid : m.files.find? (fun entry => !u.accepts tree entry) = none := by
    refine List.find?_eq_none.mpr fun entry hentry => ?_
    simp [accepts_of_not_refused (h.entries entry hentry)]
  rw [uninstall, if_pos h.home, h.manifest]
  simp only [h.schema, ne_eq, not_true_eq_false, ↓reduceIte, hvalid]
  obtain ⟨-, -, entry, hentry, hnone⟩ | ⟨files, hfiles, -, hnil⟩ :=
    modifiedFiles_spec sha256 u tree m.files
  · exact absurd (.inr ⟨hnone.1, .inl hnone.2⟩) (h.entries entry hentry)
  · rw [hfiles]
    refine if_neg fun hmodified => hmodified.1 (hnil.mpr fun entry hentry hexists => ?_)
    by_contra hsha
    exact h.entries entry hentry (.inr ⟨hexists, .inr ⟨hmodified.2, hsha⟩⟩)

theorem goes_of_passes {files : List Modified} (hhome : u.homeKnown = true)
    (hm : u.manifest json tree = some m) (hschema : m.schemaVersion = MANIFEST_SCHEMA_VERSION)
    (hvalid : m.files.find? (fun entry => !u.accepts tree entry) = none)
    (hfiles : u.modifiedFiles sha256 tree m.files = .ok files)
    (hgo : ¬ (files ≠ [] ∧ u.force = false)) : u.Goes json sha256 tree m := by
  have haccepts : ∀ entry ∈ m.files, u.accepts tree entry = true := by simpa using hvalid
  obtain ⟨path, hpath, -⟩ | ⟨files', hfiles', hreadable, hnil⟩ :=
    modifiedFiles_spec sha256 u tree m.files
  · cases hfiles.symm.trans hpath
  · obtain rfl := Except.ok.inj (hfiles.symm.trans hfiles')
    refine ⟨hhome, hm, hschema, fun entry hentry => ?_⟩
    rintro (hrejected | ⟨hexists, hnone | ⟨hforce, hsha⟩⟩)
    · exact Bool.false_ne_true (hrejected.symm.trans (haccepts entry hentry))
    · exact hreadable entry hentry hexists hnone
    · have hfilesNil : files = [] := by
        by_contra hne
        exact hgo ⟨hne, hforce⟩
      exact hsha (hnil.mp hfilesNil entry hentry hexists)

/-- The last step of a run takes no more than what lies at the path of the manifest. -/
theorem removeAll_cases (u : LinkedRun) (tree : FileTree) (m : Manifest) :
    ((u.removeAll tree m).1 = (u.removeEntries tree m.files).1 ∨
      (u.removeEntries tree m.files).2 = [] ∧ ∃ l,
        u.locate (u.removeEntries tree m.files).1 false u.paths.manifest = some l ∧
          (u.removeAll tree m).1 = remove (u.removeEntries tree m.files).1 l) := by
  unfold removeAll
  simp only
  split
  · exact .inl rfl
  · rename_i herrors
    split
    · cases hremove : u.removeFile (u.removeEntries tree m.files).1 u.paths.manifest with
      | none => exact .inl rfl
      | some tree' =>
        obtain ⟨l, hl, hnode⟩ := Option.bind_eq_some_iff.mp hremove
        refine .inr ⟨not_not.mp herrors, l, hl, ?_⟩
        split at hnode
        · cases hnode
        · cases hnode
        · split at hnode
          · exact (Option.some.inj hnode).symm
          · cases hnode
    · exact .inl rfl

end Passes

section Confinement

variable (json sha256 u tree)

variable {json sha256 u tree} {m : Manifest}

theorem Goes.progress (h : u.Goes json sha256 tree m) :
    Progress u tree m.files (u.removeEntries tree m.files) :=
  progress_removeEntries h.entries

theorem Goes.unique {m' : Manifest} (h : u.Goes json sha256 tree m)
    (hm : m' ∈ u.manifest json tree) : m' = m :=
  Option.some.inj ((Option.mem_def.mp hm).symm.trans h.manifest)

theorem Goes.within (h : u.Goes json sha256 tree m) :
    Within (u.uninstall json sha256 tree).1 (u.removeEntries tree m.files).1 := by
  rw [uninstall_of_goes h]
  obtain hsame | ⟨-, l, -, hremove⟩ := removeAll_cases u tree m
  · exact hsame ▸ fun _ _ => id
  · exact hremove ▸ within_remove _ l

end Confinement

end LinkedRun

end Gcit.Cli
