import Gcit.Library.Transition
import Gcit.Cli.Uninstall

/-! # The static user over the life of a host

Installs and uninstalls of the system scope, in any order and however far each gets.
The host is given an account by `useradd` alone, and what the manifest says of it is held
against whether an install since the last completed uninstall created it.
-/

namespace Gcit.Cli

open Gcit.Library

/-- `created` is that an install since the last completed uninstall created the user. -/
structure Installation where
  host : Host
  created : Bool

inductive HostAction where
  | install (r : InstallRun)
  | uninstall (u : UninstallRun)
  /-- The operator changes or removes a file, but not the manifest. -/
  | edit (path : Path) (file : Option File)

def SYSTEM_MANIFEST : Path := "/var/lib/gcit/.install-manifest.json"

/-- A `useradd` that exits says by its code whether the account was there. -/
def UseraddHonest (r : InstallRun) (account : Bool) : Prop :=
  ∀ code ∈ r.useradd, code = 9 ↔ account = true

instance decidableUseraddHonest (r : InstallRun) (account : Bool) :
    Decidable (UseraddHonest r account) := inferInstanceAs (Decidable (∀ code ∈ r.useradd, _))

namespace Installation

variable (json : ManifestJson) (sha256 : List UInt8 → String)

def start (account : Bool) (disk : Disk) : Installation :=
  ⟨⟨account, Function.update disk SYSTEM_MANIFEST none⟩, false⟩

def step (s : Installation) : HostAction → Option Installation
  | .install r =>
    if r.scope = .system ∧ UseraddHonest r s.host.account then
      some ⟨r.install json sha256 s.host, s.created || decide (r.writes s.host.disk = some true)⟩
    else none
  | .uninstall u =>
    if u.scope = .system then
      let (disk, ending) := u.uninstall json sha256 s.host.disk
      match ending with
      | .done _ => some ⟨{ s.host with disk := disk }, false⟩
      | _ => some { s with host := { s.host with disk := disk } }
    else none
  | .edit path file =>
    if path ≠ SYSTEM_MANIFEST then
      some { s with host := { s.host with disk := Function.update s.host.disk path file } }
    else none

def manifest (s : Installation) : Option Manifest := readManifest json s.host.disk SYSTEM_MANIFEST

def Truthful (s : Installation) : Prop :=
  (∃ m ∈ s.manifest json, m.userCreatedByInstall = true) ↔ s.created = true

/-- An install that replaces the manifest does so before any other created the user, and
one that creates the user replaces the manifest. -/
def KeepsRecord (s : Installation) : HostAction → Prop
  | .install r =>
    if r.outputs.length < r.renames json sha256 s.host.disk then s.created = false
    else r.writes s.host.disk ≠ some true
  | .uninstall _ | .edit .. => True

/-- Whoever created the user left an account, and the manifest does not list itself. -/
structure Sane (s : Installation) : Prop where
  account : s.created = true → s.host.account = true
  files : ∀ m ∈ s.manifest json, SYSTEM_MANIFEST ∉ m.files.map (·.path)

variable {json sha256} {s t : Installation}

theorem manifest_start (account : Bool) (disk : Disk) :
    (start account disk).manifest json = none := by
  simp [manifest, start, readManifest]

theorem sane_start (account : Bool) (disk : Disk) : Sane json (start account disk) := by
  refine ⟨nofun, fun m hm => ?_⟩
  rw [manifest_start] at hm
  cases hm

theorem truthful_start (account : Bool) (disk : Disk) : Truthful json (start account disk) := by
  refine iff_of_false ?_ nofun
  rw [manifest_start]
  rintro ⟨m, hm, -⟩
  cases hm

theorem paths_of_system {r : InstallRun} (h : r.scope = .system) :
    r.paths = installPaths .system r.env := by rw [InstallRun.paths, h]

theorem manifest_path_of_system {r : InstallRun} (h : r.scope = .system) :
    r.paths.manifest = SYSTEM_MANIFEST := by
  rw [paths_of_system h]
  rfl

theorem account_of_created {r : InstallRun} {disk : Disk} {account : Bool}
    (honest : UseraddHonest r account) (h : r.writes disk = some true) : account = false := by
  have hcode : r.useradd = some 0 := by
    unfold InstallRun.writes InstallRun.ensureStaticUserIfLocalMail classifyUseraddExit at h
    repeat' split at h
    all_goals first | assumption | cases h
  cases haccount : account with
  | false => rfl
  | true => exact absurd ((honest 0 hcode).mpr haccount) (by decide)

theorem manifest_install (json : ManifestJson) (sha256 : List UInt8 → String) (s : Installation)
    {r : InstallRun} (hscope : r.scope = .system) (created : Bool) :
    (r.outputs.length < r.renames json sha256 s.host.disk ∧
      ∃ createdNow, r.writes s.host.disk = some createdNow ∧
        manifest json ⟨r.install json sha256 s.host, created⟩ =
          some (manifestOf sha256 r.outputs r.hasLocalMail createdNow)) ∨
    (¬ r.outputs.length < r.renames json sha256 s.host.disk ∧
      manifest json ⟨r.install json sha256 s.host, created⟩ = s.manifest json) := by
  rw [manifest, manifest, ← manifest_path_of_system hscope]
  obtain hlt | hle := Nat.lt_or_ge r.outputs.length (r.renames json sha256 s.host.disk)
  · exact .inl ⟨hlt, InstallRun.readManifest_install_of_lt hlt⟩
  · exact .inr ⟨Nat.not_lt.mpr hle, InstallRun.readManifest_install_of_le hle⟩

theorem files_manifestOf {r : InstallRun} (hscope : r.scope = .system) (created : Bool) :
    SYSTEM_MANIFEST ∉ (manifestOf sha256 r.outputs r.hasLocalMail created).files.map (·.path) := by
  have hpaths : (manifestOf sha256 r.outputs r.hasLocalMail created).files.map (·.path) =
      r.paths.managed := List.map_map
  rw [hpaths, ← manifest_path_of_system hscope]
  exact InstallPaths.manifest_notMem_managed r.scope r.scope r.env r.env

theorem step_uninstall {u : UninstallRun} (hs : Sane json s)
    (h : step json sha256 s (.uninstall u) = some t) : t.host.account = s.host.account ∧
      (t.manifest json = none ∧ t.created = false ∨
        t.manifest json = s.manifest json ∧ t.created = s.created) := by
  rw [step] at h
  split at h
  case isFalse => cases h
  case isTrue hscope =>
    have hpath : u.paths.manifest = SYSTEM_MANIFEST := by
      rw [UninstallRun.paths, hscope]
      rfl
    have hfiles : ∀ m ∈ readManifest json s.host.disk u.paths.manifest,
        u.paths.manifest ∉ m.files.map (·.path) := by
      rw [hpath]
      exact hs.files
    obtain ⟨m, note, -, -, hdone, hgone⟩ | ⟨hnotDone, hsame⟩ :=
      UninstallRun.uninstall_manifest sha256 hfiles
    · rw [hpath] at hgone
      simp only [hdone] at h
      cases h
      refine ⟨rfl, .inl ⟨?_, rfl⟩⟩
      simp [manifest, readManifest, hgone]
    · rw [hpath] at hsame
      have ht : t = { s with host := { s.host with
          disk := (u.uninstall json sha256 s.host.disk).1 } } := by
        simp only at h
        exact (Option.some.inj h).symm
      subst ht
      refine ⟨rfl, .inr ⟨?_, rfl⟩⟩
      simp only [manifest, readManifest, hsame]

theorem sane_step {a : HostAction} (hs : Sane json s) (h : step json sha256 s a = some t) :
    Sane json t := by
  cases a with
  | install r =>
    obtain ⟨⟨hscope, -⟩, rfl⟩ := Transition.guard_eq_some.mp h
    constructor
    · intro hcreated
      rw [InstallRun.install]
      cases hwrites : r.writes s.host.disk with
      | none => exact hs.account (by simpa [hwrites] using hcreated)
      | some createdNow =>
        have hcases : s.created = true ∨ createdNow = true := by simpa [hwrites] using hcreated
        obtain hbefore | hnow := hcases
        · simp [hs.account hbefore]
        · simp [hnow]
    · intro m hm
      obtain ⟨-, createdNow, -, hmanifest⟩ | ⟨-, hmanifest⟩ :=
        manifest_install json sha256 s hscope
          (s.created || decide (r.writes s.host.disk = some true))
      · rw [hmanifest] at hm
        obtain rfl := Option.some.inj hm
        exact files_manifestOf hscope createdNow
      · rw [hmanifest] at hm
        exact hs.files m hm
  | uninstall u =>
    obtain ⟨haccount, ⟨hnone, hcreated⟩ | ⟨hsame, hcreated⟩⟩ := step_uninstall hs h
    · constructor
      · intro h
        rw [hcreated] at h
        cases h
      · intro m hm
        rw [hnone] at hm
        cases hm
    · refine ⟨fun h => ?_, fun m hm => hs.files m (hsame ▸ hm)⟩
      rw [haccount]
      exact hs.account (hcreated ▸ h)
  | edit path file =>
    obtain ⟨hne, rfl⟩ := Transition.guard_eq_some.mp h
    refine ⟨hs.account, fun m hm => hs.files m ?_⟩
    simpa [manifest, readManifest, Function.update_of_ne (Ne.symm hne)] using hm

theorem truthful_step {a : HostAction} (hs : Sane json s) (htrue : Truthful json s)
    (h : step json sha256 s a = some t) : Truthful json t ↔ KeepsRecord json sha256 s a := by
  cases a with
  | install r =>
    obtain ⟨⟨hscope, honest⟩, rfl⟩ := Transition.guard_eq_some.mp h
    have hnew (hwrites : r.writes s.host.disk = some true) : s.created = false := by
      have hnone := account_of_created honest hwrites
      cases hcreated : s.created with
      | false => rfl
      | true => exact absurd (hs.account hcreated) (by simp [hnone])
    obtain ⟨hlt, createdNow, hwrites, hmanifest⟩ | ⟨hle, hmanifest⟩ :=
      manifest_install json sha256 s hscope
        (s.created || decide (r.writes s.host.disk = some true))
    · -- the flag is that of this run alone
      have hflag : (∃ m ∈ some (manifestOf sha256 r.outputs r.hasLocalMail createdNow),
          m.userCreatedByInstall = true) ↔ createdNow = true := by simp [manifestOf]
      rw [Truthful, hmanifest, hflag, KeepsRecord, if_pos hlt, hwrites]
      cases createdNow with
      | true => simp [hnew hwrites]
      | false => simp
    · -- the flag is still that of the manifest before
      have hbefore : (∃ m ∈ s.manifest json, m.userCreatedByInstall = true) ↔ s.created = true :=
        htrue
      rw [Truthful, hmanifest, hbefore, KeepsRecord, if_neg hle]
      by_cases hwrites : r.writes s.host.disk = some true
      · simp [hwrites, hnew hwrites]
      · simp [hwrites]
  | uninstall u =>
    refine iff_of_true ?_ trivial
    obtain ⟨-, ⟨hnone, hcreated⟩ | ⟨hsame, hcreated⟩⟩ := step_uninstall hs h
    · rw [Truthful, hnone, hcreated]
      simp
    · rw [Truthful, hsame, hcreated]
      exact htrue
  | edit path file =>
    obtain ⟨hne, rfl⟩ := Transition.guard_eq_some.mp h
    refine iff_of_true ?_ trivial
    have hsame : readManifest json (Function.update s.host.disk path file) SYSTEM_MANIFEST =
        s.manifest json := by
      simp only [manifest, readManifest, Function.update_of_ne (Ne.symm hne)]
    rw [Truthful, manifest, hsame]
    exact htrue

end Installation

structure History (json : ManifestJson) (sha256 : List UInt8 → String) where
  account : Bool
  disk : Disk
  actions : List HostAction
  final : Installation
  reached :
    Transition.run (Installation.step json sha256) (.start account disk) actions = some final

/-- For every sequence of system-scope installs and uninstalls, however each ends: the flag
on disk tells the truth after each of them if and only if no install replaces the manifest
after another created the user, and none creates the user without replacing it. -/
theorem History.truthful_iff {json : ManifestJson} {sha256 : List UInt8 → String}
    (h : History json sha256) :
    (∀ pre t, pre <+: h.actions →
        Transition.run (Installation.step json sha256) (.start h.account h.disk) pre = some t →
          t.Truthful json) ↔
      Transition.Along (Installation.step json sha256) (Installation.KeepsRecord json sha256)
        (.start h.account h.disk) h.actions :=
  Transition.always_iff_along (I := Installation.Sane json)
    (fun _ _ _ hs hstep => Installation.sane_step hs hstep)
    (fun _ _ _ hs htrue hstep => Installation.truthful_step hs htrue hstep)
    (Installation.sane_start h.account h.disk) (Installation.truthful_start h.account h.disk)
    h.reached

def mailRun (force : Bool) (useraddExit : Int) : InstallRun :=
  { systemRun with
    force := force
    hasLocalMail := true
    useradd := some useraddExit
    succeeding := 36 }

/-- An install creates the user, and another with force finds it there: the manifest now
says that no install created it. -/
theorem flag_lost :
    ¬ ∃ (json : ManifestJson) (sha256 : List UInt8 → String), ∀ pre t,
      pre <+: [.install (mailRun false 0), .install (mailRun true 9)] →
        Transition.run (Installation.step json sha256) (.start false fun _ => none) pre = some t →
          t.Truthful json := by
  rintro ⟨json, sha256, h⟩
  let fresh := Installation.start false fun _ => none
  let first : Installation := ⟨(mailRun false 0).install json sha256 fresh.host, true⟩
  have hrun : Transition.run (Installation.step json sha256) fresh
      [.install (mailRun false 0), .install (mailRun true 9)] =
        some ⟨(mailRun true 9).install json sha256 first.host, true⟩ := rfl
  have htrue := h _ _ List.prefix_rfl hrun
  obtain ⟨-, created, hwrites, hmanifest⟩ | ⟨hle, -⟩ :=
    Installation.manifest_install json sha256 first (r := mailRun true 9) rfl true
  · obtain rfl : false = created := Option.some.inj hwrites
    obtain ⟨m, hm, hflag⟩ := htrue.mpr rfl
    rw [hmanifest] at hm
    obtain rfl := Option.some.inj hm
    cases hflag
  · have hlt : 3 < 4 := by decide
    exact hle hlt

end Gcit.Cli
