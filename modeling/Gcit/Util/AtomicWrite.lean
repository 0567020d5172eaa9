import Mathlib.Tactic.IntervalCases
import Gcit.Cli.Install
import Gcit.State.Writer

/-! # Replacing a file

`atomic_write` fills a temporary file and renames it over the destination. Each of its
steps may fail and ends the call there; the temporary file goes with it.
-/

namespace Gcit.Util

open Gcit.Library Gcit.Library.Commits Gcit.Cli

inductive WriteStep where
  | tempfileIn
  | writeAll
  | setTempPermissions
  | syncAll
  | persist
  | setPermissions
  | openParent
  | syncParent
  deriving DecidableEq, Repr

structure WriteTarget where
  dest : Option File
  temp : Option File
  deriving DecidableEq

def WriteStep.play (contents : List UInt8) (mode : UInt32) (t : WriteTarget) :
    WriteStep → WriteTarget
  | .tempfileIn => { t with temp := some ⟨[], 0o600⟩ }
  | .writeAll => { t with temp := t.temp.map fun file => { file with contents := contents } }
  | .setTempPermissions => { t with temp := t.temp.map fun file => { file with mode := mode } }
  | .syncAll => t
  | .persist => ⟨t.temp, none⟩
  | .setPermissions => { t with dest := t.dest.map fun file => { file with mode := mode } }
  | .openParent | .syncParent => t

namespace WriteStep

def filling : List WriteStep := [tempfileIn, writeAll, setTempPermissions, syncAll]

def afterRename : List WriteStep := [setPermissions, openParent, syncParent]

def all : List WriteStep := filling ++ persist :: afterRename

end WriteStep

inductive WriteError where
  | failed (step : WriteStep)
  | serialize (message : String)
  deriving DecidableEq

/-- What the call returns, and the destination afterwards. -/
def atomicWrite (fails : WriteStep → Bool) (contents : List UInt8) (mode : UInt32)
    (dest : Option File) : Except WriteError Unit × Option File :=
  let (failed, t) := attempt (WriteStep.play contents mode) fails WriteStep.all ⟨dest, none⟩
  (match failed with
    | none => .ok ()
    | some step => .error (.failed step), t.dest)

def atomicWriteJson {α : Type} (toVecPretty : α → Except String (List UInt8))
    (fails : WriteStep → Bool) (value : α) (mode : UInt32) (dest : Option File) :
    Except WriteError Unit × Option File :=
  match toVecPretty value with
  | .error e => (.error (.serialize e), dest)
  | .ok bytes => atomicWrite fails bytes mode dest

/-- An error leaves the contents of the destination, and otherwise it has the new ones. -/
structure AtomicOnError (dest : Option File) (contents : List UInt8)
    (result : Except WriteError Unit × Option File) : Prop where
  error : ∀ e, result.1 = .error e → result.2.map (·.contents) = dest.map (·.contents)
  ok : result.1 = .ok () → result.2.map (·.contents) = some contents

/-- Some step fails before the destination is replaced, the rename itself included. -/
def StopsBeforeRename (fails : WriteStep → Bool) : Prop :=
  ∃ step ∈ WriteStep.filling ++ [.persist], fails step = true

def FailsAfterRename (fails : WriteStep → Bool) : Prop :=
  ∃ step ∈ WriteStep.afterRename, fails step = true

section

variable {fails : WriteStep → Bool} (contents : List UInt8) (mode : UInt32) (dest : Option File)

theorem dest_play_filling {step : WriteStep} (h : step ∈ WriteStep.filling) (t : WriteTarget) :
    (step.play contents mode t).dest = t.dest := by
  simp only [WriteStep.filling, List.mem_cons, List.not_mem_nil, or_false] at h
  obtain rfl | rfl | rfl | rfl := h <;> rfl

theorem contents_play_afterRename {step : WriteStep} (h : step ∈ WriteStep.afterRename)
    (t : WriteTarget) :
    (step.play contents mode t).dest.map (·.contents) = t.dest.map (·.contents) := by
  simp only [WriteStep.afterRename, List.mem_cons, List.not_mem_nil, or_false] at h
  obtain rfl | rfl | rfl := h
  · cases hdest : t.dest <;> simp [WriteStep.play, hdest]
  · rfl
  · rfl

theorem atomicWrite_of_stops (h : StopsBeforeRename fails) :
    (∃ e, (atomicWrite fails contents mode dest).1 = .error e) ∧
      (atomicWrite fails contents mode dest).2 = dest := by
  have hall : attempt (WriteStep.play contents mode) fails WriteStep.all ⟨dest, none⟩ =
      attempt (WriteStep.play contents mode) fails (WriteStep.filling ++ [.persist])
        ⟨dest, none⟩ := attempt_append_of_failing h WriteStep.afterRename _
  obtain ⟨step, hstep⟩ := Option.isSome_iff_exists.mp (List.find?_isSome.mpr h)
  have hfst : (attempt (WriteStep.play contents mode) fails (WriteStep.filling ++ [.persist])
      ⟨dest, none⟩).1 = some step := (attempt_fst _ _).trans hstep
  simp only [atomicWrite, hall, hfst]
  refine ⟨⟨.failed step, rfl⟩, ?_⟩
  by_cases hfilling : ∃ step ∈ WriteStep.filling, fails step = true
  · rw [attempt_append_of_failing hfilling]
    exact attempt_invariant (I := fun t => t.dest = dest) (s := ⟨dest, none⟩)
      (fun _ he t ht => (dest_play_filling contents mode he t).trans ht) rfl
  · have hfilled : ∀ step ∈ WriteStep.filling, fails step = false := by simpa using hfilling
    have hpersist : fails .persist = true := by
      obtain ⟨step, hmem, hfails⟩ := h
      obtain hmem | hmem := List.mem_append.mp hmem
      · exact absurd ⟨step, hmem, hfails⟩ hfilling
      · exact List.mem_singleton.mp hmem ▸ hfails
    rw [attempt_append hfilled, attempt_cons, if_pos hpersist]
    rfl

theorem atomicWrite_of_renamed (h : ¬ StopsBeforeRename fails) :
    ((atomicWrite fails contents mode dest).1 = .ok () ↔ ¬ FailsAfterRename fails) ∧
      (atomicWrite fails contents mode dest).2.map (·.contents) = some contents := by
  have hrenamed : ∀ step ∈ WriteStep.filling ++ [.persist], fails step = false := by
    intro step hmem
    exact Bool.eq_false_iff.mpr fun hfails => h ⟨step, hmem, hfails⟩
  have hall : attempt (WriteStep.play contents mode) fails WriteStep.all ⟨dest, none⟩ =
      attempt (WriteStep.play contents mode) fails WriteStep.afterRename
        ⟨some ⟨contents, mode⟩, none⟩ := attempt_append hrenamed WriteStep.afterRename _
  have hfst : (attempt (WriteStep.play contents mode) fails WriteStep.afterRename
      ⟨some ⟨contents, mode⟩, none⟩).1 = WriteStep.afterRename.find? fails := attempt_fst _ _
  simp only [atomicWrite, hall, hfst]
  constructor
  · cases hfind : WriteStep.afterRename.find? fails with
    | none =>
      refine ⟨fun _ => ?_, fun _ => rfl⟩
      rintro ⟨step, hmem, hfails⟩
      exact absurd hfails (List.find?_eq_none.mp hfind step hmem)
    | some step =>
      refine ⟨nofun, fun hnone => absurd ?_ hnone⟩
      exact ⟨step, List.mem_of_find?_eq_some hfind, List.find?_some hfind⟩
  · exact attempt_invariant (I := fun t => t.dest.map (·.contents) = some contents)
      (s := ⟨some ⟨contents, mode⟩, none⟩)
      (fun _ he t ht => (contents_play_afterRename contents mode he t).trans ht) rfl

theorem atomicWrite_atomic_iff :
    AtomicOnError dest contents (atomicWrite fails contents mode dest) ↔
      StopsBeforeRename fails ∨ ¬ FailsAfterRename fails ∨
        dest.map (·.contents) = some contents := by
  by_cases hstops : StopsBeforeRename fails
  · obtain ⟨⟨e, he⟩, hdest⟩ := atomicWrite_of_stops contents mode dest hstops
    refine ⟨fun _ => .inl hstops, fun _ => ⟨fun _ _ => by rw [hdest], fun hok => ?_⟩⟩
    rw [he] at hok
    cases hok
  · obtain ⟨hok, hnew⟩ := atomicWrite_of_renamed contents mode dest hstops
    constructor
    · intro h
      by_cases hfails : FailsAfterRename fails
      · refine .inr (.inr ?_)
        cases hresult : (atomicWrite fails contents mode dest).1 with
        | ok => exact absurd hfails (hok.mp hresult)
        | error e => exact (h.error e hresult).symm.trans hnew
      · exact .inr (.inl hfails)
    · rintro (hstop | hnone | hsame)
      · exact absurd hstop hstops
      · refine ⟨fun e he => ?_, fun _ => hnew⟩
        rw [hok.mpr hnone] at he
        cases he
      · exact ⟨fun _ _ => hnew.trans hsame.symm, fun _ => hnew⟩

theorem atomicWriteJson_atomic_iff {α : Type} {toVecPretty : α → Except String (List UInt8)}
    {value : α} {bytes : List UInt8} (hbytes : toVecPretty value = .ok bytes) :
    AtomicOnError dest bytes (atomicWriteJson toVecPretty fails value mode dest) ↔
      StopsBeforeRename fails ∨ ¬ FailsAfterRename fails ∨
        dest.map (·.contents) = some bytes := by
  rw [atomicWriteJson, hbytes]
  exact atomicWrite_atomic_iff bytes mode dest

end

/-- For every destination, every new contents and every step that fails: the call is
atomic if and only if it stops before the rename, nothing fails after it, or the
destination had these contents before. -/
theorem atomic_on_error_iff (fails : WriteStep → Bool) (contents : List UInt8) (mode : UInt32)
    (dest : Option File) :
    AtomicOnError dest contents (atomicWrite fails contents mode dest) ↔
      StopsBeforeRename fails ∨ ¬ FailsAfterRename fails ∨
        dest.map (·.contents) = some contents :=
  atomicWrite_atomic_iff contents mode dest

/-- The parent directory cannot be synced: the call fails and the new contents are there. -/
theorem error_after_rename :
    ¬ ∀ (fails : WriteStep → Bool) (contents : List UInt8) (mode : UInt32) (dest : Option File),
      AtomicOnError dest contents (atomicWrite fails contents mode dest) := by
  intro h
  have hkept := (h (fun step => step = .syncParent) [2] 0o600 (some ⟨[1], 0o600⟩)).error
    (.failed .syncParent) rfl
  exact absurd hkept (by decide)

/-- A run of `gcit install` that ends within a file leaves what the call leaves. -/
theorem played_atomicWrite (o : OutputFile) (disk : Disk) (n : Nat)
    (h : n ≤ WriteStep.all.length) :
    played FsStep.play (n + 1) (Cli.atomicWrite o).effects disk o.path =
      (atomicWrite (fun step => WriteStep.all[n]? = some step) o.contents o.mode
        (disk o.path)).2 := by
  have hn : n ≤ 8 := h
  interval_cases n <;>
    simp [played, Cli.atomicWrite, Transaction.effects, FsStep.play, OutputFile.file, atomicWrite,
      attempt, WriteStep.all, WriteStep.filling, WriteStep.afterRename, WriteStep.play]

instance decidableStopsBeforeRename (fails : WriteStep → Bool) :
    Decidable (StopsBeforeRename fails) :=
  inferInstanceAs (Decidable (∃ step ∈ WriteStep.filling ++ [.persist], fails step = true))

instance decidableFailsAfterRename (fails : WriteStep → Bool) :
    Decidable (FailsAfterRename fails) :=
  inferInstanceAs (Decidable (∃ step ∈ WriteStep.afterRename, fails step = true))

def persistResult (fails : WriteStep → Bool) : Writer.PersistResult :=
  if StopsBeforeRename fails then .err false
  else if FailsAfterRename fails then .err true
  else .ok

/-- The state writer's file holds what its own model of a write says. -/
theorem contents_atomicWriteJson (bytes : State → List UInt8) (fails : WriteStep → Bool)
    (value : State) (mode : UInt32) (disk : Option State) :
    (atomicWriteJson (.ok ∘ bytes) fails value mode
        (disk.map fun s => ⟨bytes s, mode⟩)).2.map (·.contents) =
      (Writer.atomicWriteJson disk value (persistResult fails)).map bytes := by
  have hcall : atomicWriteJson (.ok ∘ bytes) fails value mode (disk.map fun s => ⟨bytes s, mode⟩) =
      atomicWrite fails (bytes value) mode (disk.map fun s => ⟨bytes s, mode⟩) := rfl
  rw [hcall, persistResult]
  split
  case isTrue hstops =>
    rw [(atomicWrite_of_stops (bytes value) mode _ hstops).2]
    cases disk <;> rfl
  case isFalse hrenamed =>
    rw [(atomicWrite_of_renamed (bytes value) mode _ hrenamed).2]
    split <;> rfl

end Gcit.Util
