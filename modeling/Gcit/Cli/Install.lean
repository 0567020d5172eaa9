import Mathlib.Logic.Function.Basic
import Mathlib.Data.List.Nodup
import Gcit.Library.Commits
import Gcit.Cli.Manifest

/-! # Installing

`gcit install` replaces its files one by one and the manifest after them. Each file is
one transaction whose commit is the rename, and a step that fails ends the run where
it is. What the units and the config say is left to the run.
-/

namespace Gcit.Cli

open Gcit.Library Gcit.Library.Commits

/-- The label of the preview is left out. -/
structure OutputFile where
  path : Path
  contents : List UInt8
  mode : UInt32
  deriving DecidableEq

def OutputFile.file (o : OutputFile) : File := ⟨o.contents, o.mode⟩

/-- The steps of `ensure_parent` and `atomic_write`; the parent is that of the path. -/
inductive FsStep where
  | ensureParent (path : Path)
  | tempfileIn (path : Path)
  | writeAll (contents : List UInt8)
  | setTempPermissions (mode : UInt32)
  | syncTemp
  | persist (path : Path) (file : File)
  | setPermissions (path : Path) (mode : UInt32)
  | openParent (path : Path)
  | syncParent (path : Path)
  deriving DecidableEq

namespace FsStep

def play (disk : Disk) : FsStep → Disk
  | .persist path file => Function.update disk path (some file)
  | .setPermissions path mode =>
    Function.update disk path ((disk path).map fun file => { file with mode := mode })
  | _ => disk

def renames : FsStep → Bool
  | .persist .. => true
  | _ => false

end FsStep

def atomicWrite (o : OutputFile) : Transaction FsStep where
  before := [.ensureParent o.path, .tempfileIn o.path, .writeAll o.contents,
    .setTempPermissions o.mode, .syncTemp]
  commit := .persist o.path o.file
  after := [.setPermissions o.path o.mode, .openParent o.path, .syncParent o.path]

theorem sound_atomicWrite (o : OutputFile) : (atomicWrite o).Sound FsStep.play FsStep.renames where
  before e he := by
    simp only [atomicWrite, List.mem_cons, List.not_mem_nil, or_false] at he
    obtain rfl | rfl | rfl | rfl | rfl := he <;> exact ⟨rfl, fun _ => rfl⟩
  commit := rfl
  after e he := by
    simp only [atomicWrite, List.mem_cons, List.not_mem_nil, or_false] at he
    obtain rfl | rfl | rfl := he
    · refine ⟨rfl, fun disk => ?_⟩
      simp [FsStep.play, atomicWrite, OutputFile.file]
    · exact ⟨rfl, fun _ => rfl⟩
    · exact ⟨rfl, fun _ => rfl⟩

structure Rendered where
  service : List UInt8
  socket : List UInt8
  config : List UInt8
  deriving DecidableEq

def buildOutputs (paths : InstallPaths) (rendered : Rendered) : List OutputFile :=
  [⟨paths.serviceUnit, rendered.service, 0o644⟩, ⟨paths.socketUnit, rendered.socket, 0o644⟩,
    ⟨paths.config, rendered.config, 0o640⟩]

variable (json : ManifestJson) (sha256 : List UInt8 → String)

def manifestOf (outputs : List OutputFile) (hasLocalMail userCreatedByInstall : Bool) :
    Manifest where
  schemaVersion := MANIFEST_SCHEMA_VERSION
  files := outputs.map fun o => ⟨o.path, sha256 o.contents, o.mode⟩
  userRequired := if hasLocalMail then some STATIC_USER else none
  userCreatedByInstall := userCreatedByInstall

def manifestFile (outputs : List OutputFile) (manifestPath : Path)
    (hasLocalMail userCreatedByInstall : Bool) : OutputFile :=
  ⟨manifestPath, json.toVecPretty
    (Manifest.codec.write (manifestOf sha256 outputs hasLocalMail userCreatedByInstall)), 0o600⟩

def filesToWrite (outputs : List OutputFile) (manifestPath : Path)
    (hasLocalMail userCreatedByInstall : Bool) : List OutputFile :=
  outputs ++ [manifestFile json sha256 outputs manifestPath hasLocalMail userCreatedByInstall]

def writeOutputs (outputs : List OutputFile) (manifestPath : Path)
    (hasLocalMail userCreatedByInstall : Bool) : List FsStep :=
  ((filesToWrite json sha256 outputs manifestPath hasLocalMail userCreatedByInstall).map
    atomicWrite).flatMap Transaction.effects

/-- What one run of `gcit install` meets. `prepared` is that the config is valid, the
paths are known and it is no dry run; `useradd` is the exit code, if there is one; and
`succeeding` counts the steps of `write_outputs` before the one that fails. -/
structure InstallRun where
  scope : InstallScope
  env : Environment
  force : Bool
  hasLocalMail : Bool
  rendered : Rendered
  prepared : Bool
  confirmed : Bool
  mailGroupExists : Bool
  useradd : Option Int
  succeeding : Nat
  deriving DecidableEq

structure Host where
  account : Bool
  disk : Disk

def classifyUseraddExit (code : Option Int) : Option Bool :=
  if code = some 0 then some true else if code = some 9 then some false else none

namespace InstallRun

variable (r : InstallRun)

def paths : InstallPaths := installPaths r.scope r.env

def outputs : List OutputFile := buildOutputs r.paths r.rendered

def accepted (disk : Disk) : Bool :=
  r.prepared && !(decide (r.scope = .user) && r.hasLocalMail) &&
    (r.force || r.outputs.all fun o => (disk o.path).isNone) && r.confirmed

/-- Whether this run created the user, unless it failed at that. -/
def ensureStaticUserIfLocalMail : Option Bool :=
  if r.hasLocalMail && decide (r.scope = .system) then
    if r.mailGroupExists then classifyUseraddExit r.useradd else none
  else some false

def writes (disk : Disk) : Option Bool :=
  if r.accepted disk then r.ensureStaticUserIfLocalMail else none

def install (host : Host) : Host :=
  match r.writes host.disk with
  | none => host
  | some created =>
    { account := host.account || created
      disk := played FsStep.play r.succeeding
        (writeOutputs json sha256 r.outputs r.paths.manifest r.hasLocalMail created) host.disk }

/-- The renames that the run gets to: three files and then the manifest. -/
def renames (disk : Disk) : Nat :=
  match r.writes disk with
  | none => 0
  | some created =>
    ((writeOutputs json sha256 r.outputs r.paths.manifest r.hasLocalMail created).take
      r.succeeding).countP FsStep.renames

end InstallRun

def replace (disk : Disk) (files : List OutputFile) : Disk :=
  files.foldl (fun disk o => Function.update disk o.path (some o.file)) disk

section Replace

variable {disk : Disk} {files : List OutputFile}

theorem replace_of_notMem {path : Path} (h : path ∉ files.map (·.path)) :
    replace disk files path = disk path := by
  induction files generalizing disk with
  | nil => rfl
  | cons o files ih =>
    rw [List.map_cons, List.mem_cons, not_or] at h
    exact (ih h.2).trans (Function.update_of_ne h.1 _ _)

theorem replace_of_mem (hnodup : (files.map (·.path)).Nodup) {o : OutputFile} (h : o ∈ files) :
    replace disk files o.path = some o.file := by
  induction files generalizing disk with
  | nil => cases h
  | cons first files ih =>
    rw [List.map_cons, List.nodup_cons] at hnodup
    obtain rfl | hmem := List.mem_cons.mp h
    · exact (replace_of_notMem hnodup.1).trans (Function.update_self _ _ _)
    · exact ih hnodup.2 hmem

end Replace

variable {json sha256}

namespace InstallRun

variable {r : InstallRun} {host : Host}

theorem map_path_outputs (r : InstallRun) : r.outputs.map (·.path) = r.paths.managed := rfl

def files (json : ManifestJson) (sha256 : List UInt8 → String) (r : InstallRun) (created : Bool) :
    List OutputFile :=
  filesToWrite json sha256 r.outputs r.paths.manifest r.hasLocalMail created

theorem files_eq (r : InstallRun) (created : Bool) : r.files json sha256 created = r.outputs ++
    [manifestFile json sha256 r.outputs r.paths.manifest r.hasLocalMail created] :=
  rfl

theorem nodup_files (r : InstallRun) (created : Bool) :
    ((r.files json sha256 created).map (·.path)).Nodup := by
  have hmanifest : (manifestFile json sha256 r.outputs r.paths.manifest r.hasLocalMail
      created).path = r.paths.manifest := rfl
  rw [files_eq, List.map_append, map_path_outputs, List.map_singleton, hmanifest,
    ← List.concat_eq_append]
  apply (InstallPaths.managed_nodup r.scope r.env).concat
  exact InstallPaths.manifest_notMem_managed r.scope r.scope r.env r.env

theorem install_of_stopped (h : r.writes host.disk = none) : r.install json sha256 host = host := by
  rw [install, h]

theorem renames_of_stopped (h : r.writes host.disk = none) :
    r.renames json sha256 host.disk = 0 := by rw [renames, h]

/-- A run that writes has replaced as many files as it has got to. -/
theorem disk_install {created : Bool} (h : r.writes host.disk = some created) :
    (r.install json sha256 host).disk =
      replace host.disk ((r.files json sha256 created).take (r.renames json sha256 host.disk)) := by
  have hsound : ∀ t ∈ (r.files json sha256 created).map atomicWrite,
      t.Sound FsStep.play FsStep.renames := by
    intro t ht
    obtain ⟨o, -, rfl⟩ := List.mem_map.mp ht
    exact sound_atomicWrite o
  rw [install, renames, h]
  apply (played_transactions hsound r.succeeding host.disk).trans
  rw [← List.map_take, List.foldl_map]
  rfl

def replaced (json : ManifestJson) (sha256 : List UInt8 → String) (r : InstallRun) (disk : Disk) :
    List OutputFile :=
  r.outputs.take (r.renames json sha256 disk)

theorem map_path_replaced (r : InstallRun) (disk : Disk) :
    (r.replaced json sha256 disk).map (·.path) =
      r.paths.managed.take (r.renames json sha256 disk) :=
  List.map_take

theorem nodup_replaced (r : InstallRun) (disk : Disk) :
    ((r.replaced json sha256 disk).map (·.path)).Nodup := by
  rw [map_path_replaced]
  exact (InstallPaths.managed_nodup r.scope r.env).sublist (List.take_sublist _ _)

theorem disk_install_of_le (hle : r.renames json sha256 host.disk ≤ r.outputs.length) :
    (r.install json sha256 host).disk = replace host.disk (r.replaced json sha256 host.disk) := by
  cases hwrites : r.writes host.disk with
  | none =>
    rw [install_of_stopped hwrites, replaced, renames_of_stopped hwrites]
    rfl
  | some created =>
    rw [disk_install hwrites, files_eq, List.take_append_of_le_length hle]
    rfl

theorem disk_install_of_lt (hlt : r.outputs.length < r.renames json sha256 host.disk) :
    ∃ created, r.writes host.disk = some created ∧
      (r.install json sha256 host).disk = replace host.disk (r.files json sha256 created) := by
  cases hwrites : r.writes host.disk with
  | none =>
    rw [renames_of_stopped hwrites] at hlt
    exact absurd hlt (Nat.not_lt_zero _)
  | some created =>
    refine ⟨created, rfl, ?_⟩
    rw [disk_install hwrites, List.take_of_length_le]
    rw [files_eq, List.length_append]
    exact hlt

end InstallRun

/-- The files that earlier installs in this scope have written. -/
structure EarlierInstalls (scope : InstallScope) where
  written : List Path
  managed : ∀ path ∈ written, ∃ env, path ∈ (installPaths scope env).managed

def Manifest.Lists (sha256 : List UInt8 → String) (m : Manifest) (path : Path) (file : File) :
    Prop :=
  ∃ entry ∈ m.files, entry.path = path ∧ entry.sha256 = sha256 file.contents

/-- The manifest on disk lists each of the files, as far as they are there. -/
def Covers (json : ManifestJson) (sha256 : List UInt8 → String) (disk : Disk) (manifestPath : Path)
    (written : List Path) : Prop :=
  ∀ path ∈ written, ∀ file ∈ disk path,
    ∃ m ∈ readManifest json disk manifestPath, m.Lists sha256 path file

namespace InstallRun

variable (json sha256) (r : InstallRun) (host : Host) (earlier : EarlierInstalls r.scope)

/-- After the run, whatever was written by it or before it is covered; or nothing managed
has changed. -/
def ManifestCovers : Prop :=
  Covers json sha256 (r.install json sha256 host).disk r.paths.manifest
      ((r.replaced json sha256 host.disk).map (·.path) ++ earlier.written) ∨
    ∀ path ∈ r.paths.managed ++ earlier.written,
      (r.install json sha256 host).disk path = host.disk path

def Rewrites : Prop := ∀ o ∈ r.replaced json sha256 host.disk, host.disk o.path = some o.file

/-- The run replaces the manifest too, and nothing else is on disk of earlier installs. -/
def ReplacesAll : Prop :=
  r.outputs.length < r.renames json sha256 host.disk ∧
    ∀ path ∈ earlier.written, path ∉ r.paths.managed → host.disk path = none

/-- The run does not replace the manifest, but the one on disk lists what it replaces and
the rest of what earlier installs left. -/
def AlreadyListed : Prop :=
  r.renames json sha256 host.disk ≤ r.outputs.length ∧
    (∀ o ∈ r.replaced json sha256 host.disk,
      ∃ m ∈ readManifest json host.disk r.paths.manifest, m.Lists sha256 o.path o.file) ∧
    ∀ path ∈ earlier.written, path ∉ (r.replaced json sha256 host.disk).map (·.path) →
      ∀ file ∈ host.disk path,
        ∃ m ∈ readManifest json host.disk r.paths.manifest, m.Lists sha256 path file

variable {json sha256 r host earlier}

theorem manifest_notMem_written : r.paths.manifest ∉ earlier.written := by
  intro hmem
  obtain ⟨env, hmanaged⟩ := earlier.managed _ hmem
  exact InstallPaths.manifest_notMem_managed r.scope r.scope r.env env hmanaged

theorem mem_managed_of_replaced {path : Path}
    (h : path ∈ (r.replaced json sha256 host.disk).map (·.path)) : path ∈ r.paths.managed := by
  rw [map_path_replaced] at h
  exact List.mem_of_mem_take h

theorem replaced_of_lt (hlt : r.outputs.length < r.renames json sha256 host.disk) :
    r.replaced json sha256 host.disk = r.outputs := List.take_of_length_le (Nat.le_of_lt hlt)

/-- Apart from the manifest a run changes what it has replaced and nothing else. -/
theorem install_apply {path : Path} (hne : path ≠ r.paths.manifest) :
    (r.install json sha256 host).disk path =
      replace host.disk (r.replaced json sha256 host.disk) path := by
  obtain hlt | hle := Nat.lt_or_ge r.outputs.length (r.renames json sha256 host.disk)
  · obtain ⟨created, -, hdisk⟩ := disk_install_of_lt hlt
    rw [hdisk, replaced_of_lt hlt, files_eq, replace, List.foldl_append]
    exact Function.update_of_ne hne _ _
  · rw [disk_install_of_le hle]

theorem install_of_mem_replaced {o : OutputFile} (h : o ∈ r.replaced json sha256 host.disk) :
    (r.install json sha256 host).disk o.path = some o.file := by
  have hne : o.path ≠ r.paths.manifest := by
    intro heq
    have hmem : o.path ∈ r.paths.managed := mem_managed_of_replaced (List.mem_map_of_mem h)
    exact InstallPaths.manifest_notMem_managed r.scope r.scope r.env r.env (heq ▸ hmem)
  rw [install_apply hne]
  exact replace_of_mem (nodup_replaced r host.disk) h

theorem install_of_notMem_replaced {path : Path} (hne : path ≠ r.paths.manifest)
    (h : path ∉ (r.replaced json sha256 host.disk).map (·.path)) :
    (r.install json sha256 host).disk path = host.disk path := by
  rw [install_apply hne]
  exact replace_of_notMem h

theorem readManifest_install_of_le
    (hle : r.renames json sha256 host.disk ≤ r.outputs.length) :
    readManifest json (r.install json sha256 host).disk r.paths.manifest =
      readManifest json host.disk r.paths.manifest := by
  have hsame : (r.install json sha256 host).disk r.paths.manifest =
      host.disk r.paths.manifest := by
    rw [disk_install_of_le hle]
    apply replace_of_notMem
    intro hmem
    exact InstallPaths.manifest_notMem_managed r.scope r.scope r.env r.env
      (mem_managed_of_replaced hmem)
  rw [readManifest, hsame, readManifest]

theorem readManifest_install_of_lt
    (hlt : r.outputs.length < r.renames json sha256 host.disk) :
    ∃ created, r.writes host.disk = some created ∧
      readManifest json (r.install json sha256 host).disk r.paths.manifest =
        some (manifestOf sha256 r.outputs r.hasLocalMail created) := by
  obtain ⟨created, hwrites, hdisk⟩ := disk_install_of_lt hlt
  refine ⟨created, hwrites, ?_⟩
  have hmem : manifestFile json sha256 r.outputs r.paths.manifest r.hasLocalMail created ∈
      r.files json sha256 created := List.mem_append_right _ List.mem_cons_self
  rw [hdisk]
  exact readManifest_written (replace_of_mem (nodup_files r created) hmem)

theorem lists_manifestOf_iff {outputs : List OutputFile} {hasLocalMail created : Bool} {path : Path}
    {file : File} :
    (manifestOf sha256 outputs hasLocalMail created).Lists sha256 path file ↔
      ∃ o ∈ outputs, o.path = path ∧ sha256 o.contents = sha256 file.contents := by
  constructor
  · rintro ⟨entry, hmem, hpath, hsha⟩
    obtain ⟨o, ho, rfl⟩ := List.mem_map.mp hmem
    exact ⟨o, ho, hpath, hsha⟩
  · rintro ⟨o, ho, hpath, hsha⟩
    exact ⟨_, List.mem_map_of_mem ho, hpath, hsha⟩

theorem unchanged_iff :
    (∀ path ∈ r.paths.managed ++ earlier.written,
      (r.install json sha256 host).disk path = host.disk path) ↔ r.Rewrites json sha256 host := by
  constructor
  · intro h o ho
    have hmem : o.path ∈ r.paths.managed := mem_managed_of_replaced (List.mem_map_of_mem ho)
    rw [← h o.path (List.mem_append_left _ hmem)]
    exact install_of_mem_replaced ho
  · intro h path hpath
    have hne : path ≠ r.paths.manifest := by
      rintro rfl
      obtain hmem | hmem := List.mem_append.mp hpath
      · exact InstallPaths.manifest_notMem_managed r.scope r.scope r.env r.env hmem
      · exact manifest_notMem_written hmem
    by_cases hreplaced : path ∈ (r.replaced json sha256 host.disk).map (·.path)
    · obtain ⟨o, ho, rfl⟩ := List.mem_map.mp hreplaced
      exact (install_of_mem_replaced ho).trans (h o ho).symm
    · exact install_of_notMem_replaced hne hreplaced

theorem covers_iff_of_le (hle : r.renames json sha256 host.disk ≤ r.outputs.length) :
    Covers json sha256 (r.install json sha256 host).disk r.paths.manifest
        ((r.replaced json sha256 host.disk).map (·.path) ++ earlier.written) ↔
      r.AlreadyListed json sha256 host earlier := by
  rw [Covers, readManifest_install_of_le hle]
  constructor
  · intro h
    refine ⟨hle, fun o ho => ?_, fun path hpath hreplaced file hfile => ?_⟩
    · apply h o.path (List.mem_append_left _ (List.mem_map_of_mem ho)) o.file
      exact install_of_mem_replaced ho
    · have hne : path ≠ r.paths.manifest := fun heq => manifest_notMem_written (heq ▸ hpath)
      apply h path (List.mem_append_right _ hpath) file
      rw [install_of_notMem_replaced hne hreplaced]
      exact hfile
  · rintro ⟨-, hreplaced, hrest⟩ path hpath file hfile
    by_cases hmem : path ∈ (r.replaced json sha256 host.disk).map (·.path)
    · obtain ⟨o, ho, rfl⟩ := List.mem_map.mp hmem
      rw [install_of_mem_replaced ho] at hfile
      obtain rfl := Option.some.inj hfile
      exact hreplaced o ho
    · have hwritten := (List.mem_append.mp hpath).resolve_left hmem
      have hne : path ≠ r.paths.manifest := fun heq => manifest_notMem_written (heq ▸ hwritten)
      rw [install_of_notMem_replaced hne hmem] at hfile
      exact hrest path hwritten hmem file hfile

theorem covers_iff_of_lt (hlt : r.outputs.length < r.renames json sha256 host.disk) :
    Covers json sha256 (r.install json sha256 host).disk r.paths.manifest
        ((r.replaced json sha256 host.disk).map (·.path) ++ earlier.written) ↔
      r.ReplacesAll json sha256 host earlier := by
  obtain ⟨created, -, hmanifest⟩ := readManifest_install_of_lt hlt
  have hreplaced := replaced_of_lt hlt
  have hpaths : (r.replaced json sha256 host.disk).map (·.path) = r.paths.managed := by
    rw [hreplaced, map_path_outputs]
  constructor
  · intro h
    refine ⟨hlt, fun path hpath hother => ?_⟩
    have hne : path ≠ r.paths.manifest := fun heq => manifest_notMem_written (heq ▸ hpath)
    apply Option.eq_none_iff_forall_not_mem.mpr
    intro file hfile
    have hsame : (r.install json sha256 host).disk path = host.disk path :=
      install_of_notMem_replaced hne (hpaths ▸ hother)
    rw [← hsame] at hfile
    obtain ⟨m, hm, hlists⟩ := h path (List.mem_append_right _ hpath) file hfile
    rw [hmanifest] at hm
    obtain rfl := Option.some.inj hm
    obtain ⟨o, ho, rfl, -⟩ := lists_manifestOf_iff.1 hlists
    exact hother (map_path_outputs r ▸ List.mem_map_of_mem ho)
  · rintro ⟨-, hrest⟩ path hpath file hfile
    refine ⟨_, hmanifest, lists_manifestOf_iff.2 ?_⟩
    by_cases hmem : path ∈ (r.replaced json sha256 host.disk).map (·.path)
    · obtain ⟨o, ho, rfl⟩ := List.mem_map.mp hmem
      rw [install_of_mem_replaced ho] at hfile
      obtain rfl := Option.some.inj hfile
      exact ⟨o, hreplaced ▸ ho, rfl, rfl⟩
    · have hwritten := (List.mem_append.mp hpath).resolve_left hmem
      have hne : path ≠ r.paths.manifest := fun heq => manifest_notMem_written (heq ▸ hwritten)
      rw [install_of_notMem_replaced hne hmem, hrest path hwritten (hpaths ▸ hmem)] at hfile
      cases hfile

end InstallRun

/-- For every host, every run and every step at which it fails, and whatever earlier
installs have written: the manifest covers what was written, or nothing has changed, if
and only if what the run replaces was there before, or it comes to the manifest and
nothing else is left of earlier installs, or the old manifest lists all of it already. -/
theorem manifest_covers_iff (json : ManifestJson) (sha256 : List UInt8 → String) (r : InstallRun)
    (host : Host) (earlier : EarlierInstalls r.scope) :
    r.ManifestCovers json sha256 host earlier ↔
      r.Rewrites json sha256 host ∨ r.ReplacesAll json sha256 host earlier ∨
        r.AlreadyListed json sha256 host earlier := by
  rw [InstallRun.ManifestCovers, InstallRun.unchanged_iff, or_comm]
  apply or_congr_right
  obtain hlt | hle := Nat.lt_or_ge r.outputs.length (r.renames json sha256 host.disk)
  · rw [InstallRun.covers_iff_of_lt hlt, or_iff_left fun h => Nat.not_lt.mpr h.1 hlt]
  · rw [InstallRun.covers_iff_of_le hle, or_iff_right fun h => Nat.not_lt.mpr hle h.1]

def systemRun : InstallRun where
  scope := .system
  env := ⟨"/root", none, none⟩
  force := false
  hasLocalMail := false
  rendered := ⟨[], [], []⟩
  prepared := true
  confirmed := true
  mailGroupExists := true
  useradd := none
  succeeding := 6

/-- A first install fails right after it renamed the service unit: the unit stays, and no
manifest lists it. -/
theorem unit_without_manifest :
    ¬ ∃ (json : ManifestJson) (sha256 : List UInt8 → String),
      systemRun.ManifestCovers json sha256 ⟨false, fun _ => none⟩ ⟨[], nofun⟩ := by
  rintro ⟨json, sha256, h⟩
  have hunit : (systemRun.install json sha256 ⟨false, fun _ => none⟩).disk
      "/etc/systemd/system/gcit.service" = some ⟨[], 0o644⟩ := rfl
  obtain hcovers | hsame := h
  · obtain ⟨m, hm, -⟩ := hcovers "/etc/systemd/system/gcit.service" List.mem_cons_self _ hunit
    cases hm
  · have hnone := hsame "/etc/systemd/system/gcit.service" List.mem_cons_self
    rw [hunit] at hnone
    cases hnone

end Gcit.Cli
