import Gcit.Cli.Confinement

/-! # Uninstalling path by path

Where the paths of a run lead to different files, and the manifest is no link, the file
system is no more to it than what lies at each path: the run on the tree ends as the run
on a disk does, and with the same at its paths.
-/

namespace Gcit.Cli

open Gcit.Library Gcit.Library.Paths

namespace LinkedRun

section Flat

variable (u : LinkedRun) (tree : FileTree)

/-- What lies at each path; a directory is there, and is nothing to read. -/
def disk : Disk := fun path => (u.locate tree true path).map fun l =>
  match tree l with
  | some (.file file) => file
  | _ => ⟨[], 0⟩

def flat : UninstallRun where
  scope := u.scope
  env := u.env
  homeKnown := u.homeKnown
  force := u.force
  valid path := (u.validateManifestPath tree path (expectedRoots u.paths)).isOk
  readable path := (u.readFile tree path).isSome
  removable path := (u.locate tree true path).all u.removable

def Apart (paths : List Path) : Prop :=
  ∀ path ∈ paths, ∀ path' ∈ paths, ∀ l, u.locate tree true path = some l →
    u.locate tree true path' = some l → path = path'

def runPaths (m : Manifest) : List Path := u.paths.manifest :: m.files.map (·.path)

/-- What the run on a disk asks for: the manifest is a file that can be read, if it is there. -/
structure Plain (json : ManifestJson) : Prop where
  readable : u.readFile tree u.paths.manifest = u.disk tree u.paths.manifest
  unfollowed : ∀ l, u.locate tree true u.paths.manifest = some l →
    u.locate tree false u.paths.manifest = some l
  apart : ∀ m ∈ u.manifest json tree, u.Apart tree (u.runPaths m)

end Flat

variable {json : ManifestJson} {sha256 : List UInt8 → String} {u : LinkedRun}
  {tree tree' tree'' : FileTree} {path : Path} {l : Location String}
  {gone gone' : Set (Location String)}

theorem disk_eq_none_iff : u.disk tree path = none ↔ u.pathExists tree path = false := by
  rw [disk, Option.map_eq_none_iff, pathExists, Option.isSome_eq_false_iff,
    Option.isNone_iff_eq_none]

theorem disk_of_file {file : File} (hl : u.locate tree true path = some l)
    (hfile : tree l = some (.file file)) : u.disk tree path = some file := by
  simp only [disk, hl, Option.map_some, hfile]

theorem disk_of_readFile {file : File} (h : u.readFile tree path = some file) :
    u.disk tree path = some file := by
  obtain ⟨l, hl, hfile⟩ := exists_file_of_readFile h
  exact disk_of_file hl hfile

theorem disk_congr (h : Cleared tree tree' gone) (h' : Cleared tree tree'' gone')
    (hsame : ∀ l, u.locate tree true path = some l → (l ∈ gone ↔ l ∈ gone')) :
    u.disk tree' path = u.disk tree'' path := by
  have hlocate (l : Location String) :
      u.locate tree' true path = some l ↔ u.locate tree'' true path = some l := by
    rw [locate_cleared h, locate_cleared h']
    exact and_congr_right fun hl => not_congr (hsame l hl)
  rw [disk, disk, Option.ext hlocate]
  cases hl : u.locate tree'' true path with
  | none => rfl
  | some l =>
    obtain ⟨hl, hkept'⟩ := (locate_cleared h' true).mp hl
    have hkept := (not_congr (hsame l hl)).mpr hkept'
    simp only [Option.map_some, h.kept l hkept, h'.kept l hkept']

theorem modifiedFiles_flat (entries : List ManifestEntry) :
    (u.flat tree).modifiedFiles sha256 (u.disk tree) entries =
      u.modifiedFiles sha256 tree entries := by
  induction entries with
  | nil => rfl
  | cons entry rest ih =>
    rw [UninstallRun.modifiedFiles, modifiedFiles, ih]
    cases hfile : u.disk tree entry.path with
    | none =>
      have hexists := disk_eq_none_iff.mp hfile
      simp [hexists]
    | some file =>
      have hexists : u.pathExists tree entry.path = true := by
        by_contra hnot
        cases hfile.symm.trans (disk_eq_none_iff.mpr (Bool.of_not_eq_true hnot))
      rw [if_pos hexists]
      cases hread : u.readFile tree entry.path with
      | none => simp [flat, fileSha256, hread]
      | some file' =>
        obtain rfl := Option.some.inj (hfile.symm.trans (disk_of_readFile hread))
        simp [flat, fileSha256, hread]

section Loop

variable {paths : List Path} {entry : ManifestEntry} {entries : List ManifestEntry}
  {s : Disk × List Path} {t : FileTree × List Path}

/-- The two loops have come as far: the disk holds at the paths what the tree does. -/
structure Matches (u : LinkedRun) (tree : FileTree) (paths : List Path)
    (s : Disk × List Path) (t : FileTree × List Path) (gone : Set (Location String)) : Prop where
  cleared : Cleared tree t.1 gone
  disk : ∀ path ∈ paths, s.1 path = u.disk t.1 path
  errors : s.2 = t.2

/-- A removal from the tree is one from the disk, at the path that leads there. -/
theorem disk_remove (hcleared : Cleared tree tree' gone) {file : File}
    (hfile : tree l = some (.file file)) (hl : u.locate tree true path = some l)
    (hapart : ∀ path' ∈ paths, u.locate tree true path' = some l → path = path') :
    ∀ path' ∈ paths, u.disk (remove tree' l) path' =
      Function.update (u.disk tree') path none path' := by
  have hremoved := hcleared.remove hfile
  intro path' hpath'
  rcases eq_or_ne path' path with rfl | hsame
  · rw [Function.update_self, disk_eq_none_iff]
    apply Bool.eq_false_iff.mpr
    intro hexists
    obtain ⟨x, hx⟩ := pathExists_iff.mp hexists
    obtain ⟨hx, hkept⟩ := (locate_cleared hremoved true).mp hx
    obtain rfl := Option.some.inj (hl.symm.trans hx)
    exact hkept (Set.mem_insert l gone)
  · rw [Function.update_of_ne hsame]
    apply disk_congr hremoved hcleared
    intro x hx
    rw [Set.mem_insert_iff]
    refine or_iff_right fun hxl => hsame ?_
    exact (hapart path' hpath' (hxl ▸ hx)).symm

theorem Matches.isNone (hs : Matches u tree paths s t gone) (hpath : path ∈ paths)
    (h : u.locate t.1 true path = none) : s.1 path = none := by
  rw [hs.disk path hpath, LinkedRun.disk, h]
  rfl

theorem Matches.isFile {file : File} (hs : Matches u tree paths s t gone) (hpath : path ∈ paths)
    (hl : u.locate t.1 true path = some l) (hfile : t.1 l = some (.file file)) :
    s.1 path = some file :=
  (hs.disk path hpath).trans (disk_of_file hl hfile)

/-- One path less on both sides. -/
theorem Matches.remove (hs : Matches u tree paths s t gone) {file : File}
    (hfile : tree l = some (.file file)) (hpath : path ∈ paths)
    (hl : u.locate tree true path = some l) (hapart : u.Apart tree paths) :
    Matches u tree paths (Function.update s.1 path none, s.2) (Paths.remove t.1 l, t.2)
      (insert l gone) := by
  refine ⟨hs.cleared.remove hfile, fun path' hpath' => ?_, hs.errors⟩
  have htree := disk_remove hs.cleared hfile hl
    (fun other hother => hapart path hpath other hother l hl) path' hpath'
  simp only [htree, Function.update_apply]
  split
  · rfl
  · exact hs.disk path' hpath'

theorem removable_flat (hl : u.locate tree true path = some l) :
    (u.flat tree).removable path = u.removable l := by
  simp only [flat, hl, Option.all_some]

theorem Matches.step (hs : Matches u tree paths s t gone) (h : ¬ u.Refused sha256 tree entry)
    (hentry : entry.path ∈ paths) (hapart : u.Apart tree paths) :
    ∃ gone', Matches u tree paths ((u.flat tree).removeEntry s entry) (u.removeEntry t entry)
      gone' := by
  obtain ⟨hgone, hturn⟩ | ⟨l, hl, hkept, ⟨file, hfile⟩, hturn⟩ := removeEntry_cases hs.cleared h
  · have hmissing : u.locate t.1 true entry.path = none := by
      by_contra hsome
      obtain ⟨l, hl⟩ := Option.ne_none_iff_exists'.mp hsome
      obtain ⟨hl, hkept⟩ := (locate_cleared hs.cleared true).mp hl
      exact hkept (hgone l hl)
    refine ⟨gone, ?_⟩
    rw [hturn, UninstallRun.removeEntry, hs.isNone hentry hmissing]
    exact hs
  · have hthere := hs.isFile hentry ((locate_cleared hs.cleared true).mpr ⟨hl, hkept⟩)
      ((hs.cleared.kept l hkept).trans hfile)
    rw [UninstallRun.removeEntry, if_pos (hthere ▸ Option.isSome_some), removable_flat hl]
    obtain ⟨hcan, hturn⟩ | ⟨hcannot, hturn⟩ := hturn
    · refine ⟨insert l gone, ?_⟩
      rw [hturn, if_pos hcan]
      exact hs.remove hfile hentry hl hapart
    · refine ⟨gone, ?_⟩
      rw [hturn, hcannot, if_neg Bool.false_ne_true]
      exact ⟨hs.cleared, hs.disk, congrArg (· ++ [entry.path]) hs.errors⟩

theorem Matches.run (hs : Matches u tree paths s t gone)
    (h : ∀ entry ∈ entries, ¬ u.Refused sha256 tree entry)
    (hentries : ∀ entry ∈ entries, entry.path ∈ paths)
    (hapart : u.Apart tree paths) :
    ∃ gone', Matches u tree paths (entries.foldl (u.flat tree).removeEntry s)
      (entries.foldl u.removeEntry t) gone' := by
  induction entries generalizing s t gone with
  | nil => exact ⟨gone, hs⟩
  | cons entry entries ih =>
    rw [List.forall_mem_cons] at h hentries
    obtain ⟨gone', hs'⟩ := hs.step h.1 hentries.1 hapart
    exact ih hs' h.2 hentries.2

end Loop

section Runs

variable {m : Manifest}

theorem Plain.manifest_eq (h : u.Plain tree json) :
    readManifest json (u.disk tree) u.paths.manifest = u.manifest json tree := by
  rw [manifest, readManifest, readManifest, h.readable]

theorem exists_file_of_manifest (h : u.manifest json tree = some m)
    (hl : u.locate tree true u.paths.manifest = some l) : ∃ file, tree l = some (.file file) := by
  obtain ⟨file, hfile, -⟩ := Option.bind_eq_some_iff.mp h
  obtain ⟨l', hl', hnode⟩ := Option.bind_eq_some_iff.mp hfile
  obtain rfl := Option.some.inj (hl.symm.trans hl')
  split at hnode
  · exact ⟨_, by assumption⟩
  · cases hnode

theorem removeAll_flat (hplain : u.Plain tree json) (h : u.Goes json sha256 tree m) :
    ((u.flat tree).removeAll (u.disk tree) m).2 = (u.removeAll tree m).2 ∧
      ∀ path ∈ u.runPaths m, ((u.flat tree).removeAll (u.disk tree) m).1 path =
        u.disk (u.removeAll tree m).1 path := by
  have hapart := hplain.apart m h.manifest
  have hself : u.paths.manifest ∈ u.runPaths m := List.mem_cons_self
  have hentries : ∀ entry ∈ m.files, entry.path ∈ u.runPaths m :=
    fun entry hentry => List.mem_cons_of_mem _ (List.mem_map_of_mem hentry)
  have hstart : Matches u tree (u.runPaths m) (u.disk tree, []) (tree, []) ∅ :=
    ⟨Cleared.refl tree, fun _ _ => rfl, rfl⟩
  obtain ⟨gone, hloop⟩ := hstart.run h.entries hentries hapart
  change Matches u tree (u.runPaths m) ((u.flat tree).removeEntries (u.disk tree) m.files)
    (u.removeEntries tree m.files) gone at hloop
  have hpath : (u.flat tree).paths.manifest = u.paths.manifest := rfl
  rw [UninstallRun.removeAll, removeAll, hpath]
  generalize (u.flat tree).removeEntries (u.disk tree) m.files = s at hloop ⊢
  generalize u.removeEntries tree m.files = t at hloop ⊢
  simp only [hloop.errors]
  by_cases herrors : t.2 = []
  · rw [if_neg (not_not.mpr herrors), if_neg (not_not.mpr herrors)]
    cases hlocate : u.locate t.1 true u.paths.manifest with
    | none =>
      have hnone := hloop.isNone hself hlocate
      have hexists : u.pathExists t.1 u.paths.manifest = false := by rw [pathExists, hlocate]; rfl
      rw [hexists, if_neg Bool.false_ne_true, if_neg (by simp [hnone]), ← hnone,
        Function.update_eq_self]
      exact ⟨rfl, hloop.disk⟩
    | some l =>
      obtain ⟨hl, hkept⟩ := (locate_cleared hloop.cleared true).mp hlocate
      obtain ⟨file, hfile⟩ := exists_file_of_manifest h.manifest hl
      have hnode := (hloop.cleared.kept l hkept).trans hfile
      have hunfollowed := (locate_cleared hloop.cleared false).mpr
        ⟨hplain.unfollowed l hl, hkept⟩
      rw [if_pos (pathExists_iff.mpr ⟨l, hlocate⟩), removeFile_of_file hunfollowed hnode,
        removable_flat hl, hloop.isFile hself hlocate hnode]
      cases hcan : u.removable l with
      | false => exact ⟨rfl, hloop.disk⟩
      | true => exact ⟨rfl, (hloop.remove hfile hself hl hapart).disk⟩
  · rw [if_pos herrors, if_pos herrors]
    exact ⟨rfl, hloop.disk⟩

theorem uninstall_flat (sha256 : List UInt8 → String) (hplain : u.Plain tree json) :
    ((u.flat tree).uninstall json sha256 (u.disk tree)).2 = (u.uninstall json sha256 tree).2 ∧
      ∀ m ∈ u.manifest json tree, ∀ path ∈ u.runPaths m,
        ((u.flat tree).uninstall json sha256 (u.disk tree)).1 path =
          u.disk (u.uninstall json sha256 tree).1 path := by
  have hread : readManifest json (u.disk tree) (u.flat tree).paths.manifest =
      u.manifest json tree := hplain.manifest_eq
  rw [UninstallRun.uninstall, uninstall, hread]
  by_cases hhome : u.homeKnown = true
  · rw [if_pos hhome, if_pos (show (u.flat tree).homeKnown = true from hhome)]
    cases hm : u.manifest json tree with
    | none => exact ⟨rfl, fun m hm => absurd hm (Option.not_mem_none m)⟩
    | some m =>
      simp only [modifiedFiles_flat]
      by_cases hschema : m.schemaVersion = MANIFEST_SCHEMA_VERSION
      · rw [if_neg (not_not.mpr hschema), if_neg (not_not.mpr hschema)]
        have hfind : m.files.find? (fun entry => !(u.flat tree).valid entry.path) =
            m.files.find? fun entry => !u.accepts tree entry := rfl
        rw [hfind]
        cases hvalid : m.files.find? fun entry => !u.accepts tree entry with
        | some entry => exact ⟨rfl, fun _ _ _ _ => rfl⟩
        | none =>
          cases hfiles : u.modifiedFiles sha256 tree m.files with
          | error path => exact ⟨rfl, fun _ _ _ _ => rfl⟩
          | ok files =>
            simp only
            by_cases hgo : files ≠ [] ∧ u.force = false
            · rw [if_pos hgo, if_pos (show files ≠ [] ∧ (u.flat tree).force = false from hgo)]
              exact ⟨rfl, fun _ _ _ _ => rfl⟩
            · rw [if_neg hgo, if_neg (show ¬ (files ≠ [] ∧ (u.flat tree).force = false) from hgo)]
              have hall := removeAll_flat hplain (goes_of_passes hhome hm hschema hvalid hfiles hgo)
              refine ⟨hall.1, fun m' hm' => ?_⟩
              obtain rfl := Option.some.inj hm'
              exact hall.2
      · rw [if_pos hschema, if_pos hschema]
        exact ⟨rfl, fun _ _ _ _ => rfl⟩
  · rw [if_neg hhome, if_neg (show ¬ (u.flat tree).homeKnown = true from hhome)]
    exact ⟨rfl, fun _ _ _ _ => rfl⟩

end Runs

end LinkedRun

end Gcit.Cli
