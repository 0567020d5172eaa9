import Gcit.Supervisor.Reload

/-! # What the reload plan does to the handles

The walk over the actions moves every handle either back into the registry or
among the cancelled tokens. These are the facts about it that the later
arguments use; none of them looks inside the walk again.
-/

namespace Gcit.Supervisor

open Std Gcit Gcit.Library.OrderedMap

/-- `w` is a walk over the handles of `r`, part way through. -/
structure Walk.Sound (r : Runtime) (w : Walk) : Prop where
  joinSet : w.runtime.joinSet = r.joinSet
  nextToken : w.runtime.nextToken = r.nextToken
  pendingExits : w.runtime.pendingExits = r.pendingExits
  drained : ∀ (f : String) (h : FlowHandle), w.drained[f]? = some h → r.handles[f]? = some h
  kept : ∀ (f : String) (h : FlowHandle), w.runtime.handles[f]? = some h →
    r.handles[f]? = some h ∧ f ∈ w.plan.toKeep ∧ w.drained[f]? = none
  conserved : ∀ (f : String) (h : FlowHandle), r.handles[f]? = some h → w.drained[f]? = some h ∨
    w.runtime.handles[f]? = some h ∨ h.cancel ∈ w.runtime.cancelled
  grown : ∀ k ∈ r.cancelled, k ∈ w.runtime.cancelled
  cancelled : ∀ k ∈ w.runtime.cancelled, k ∈ r.cancelled ∨
    ∃ (f : String) (h : FlowHandle), r.handles[f]? = some h ∧
      h.cancel = k ∧ w.drained[f]? = none ∧ w.runtime.handles[f]? = none
  respawning : ∀ f ∈ w.runtime.respawningFlows, f ∈ r.respawningFlows

namespace Walk

variable {r : Runtime} {w : Walk}

theorem start_sound (r : Runtime) : (Walk.start r).Sound r where
  joinSet := rfl
  nextToken := rfl
  pendingExits := rfl
  drained _ _ h := h
  kept f h hf := by simp [start] at hf
  conserved _ _ h := .inl h
  grown _ h := h
  cancelled _ h := .inl h
  respawning _ h := h

theorem Sound.cancelDrained (hw : w.Sound r) (name : String) : (w.cancelDrained name).Sound r := by
  unfold Walk.cancelDrained
  split
  · exact hw
  · next handle hname =>
    have hold := hw.drained name handle hname
    have hgone : w.runtime.handles[name]? = none := by
      cases hh : w.runtime.handles[name]? with
      | none => rfl
      | some h => simp [(hw.kept name h hh).2.2] at hname
    refine ⟨hw.joinSet, hw.nextToken, hw.pendingExits, ?_, ?_, ?_, ?_, ?_, hw.respawning⟩
    · intro f h hf
      rw [lookup_erase] at hf
      split at hf
      · cases hf
      · exact hw.drained f h hf
    · intro f h hf
      obtain ⟨h1, h2, h3⟩ := hw.kept f h hf
      refine ⟨h1, h2, ?_⟩
      rw [lookup_erase, h3, ite_self]
    · intro f h hf
      rcases eq_or_ne name f with rfl | hfn
      · rw [hold] at hf
        cases hf
        exact .inr (.inr List.mem_cons_self)
      · rw [lookup_erase, if_neg hfn]
        obtain h1 | h1 | h1 := hw.conserved f h hf
        · exact .inl h1
        · exact .inr (.inl h1)
        · exact .inr (.inr (List.mem_cons_of_mem _ h1))
    · exact fun k hk => List.mem_cons_of_mem _ (hw.grown k hk)
    · intro k hk
      obtain rfl | hk := List.mem_cons.mp hk
      · exact .inr ⟨name, handle, hold, rfl, by simp, hgone⟩
      · obtain h1 | ⟨f, h, h1, h2, h3, h4⟩ := hw.cancelled k hk
        · exact .inl h1
        · exact .inr ⟨f, h, h1, h2, by rw [lookup_erase, h3, ite_self], h4⟩

theorem Sound.keepDrained (hw : w.Sound r) {name : String} (hkeep : name ∈ w.plan.toKeep) :
    (w.keepDrained name).Sound r := by
  unfold Walk.keepDrained
  split
  · exact hw
  · next handle hname =>
    have hold := hw.drained name handle hname
    refine ⟨hw.joinSet, hw.nextToken, hw.pendingExits, ?_, ?_, ?_, hw.grown, ?_, hw.respawning⟩
    · intro f h hf
      rw [lookup_erase] at hf
      split at hf
      · cases hf
      · exact hw.drained f h hf
    · intro f h hf
      rw [lookup_insert] at hf
      rw [lookup_erase]
      split at hf
      · next hfn =>
        subst hfn
        cases hf
        exact ⟨hold, hkeep, if_pos rfl⟩
      · next hfn =>
        obtain ⟨h1, h2, h3⟩ := hw.kept f h hf
        exact ⟨h1, h2, by rw [if_neg hfn, h3]⟩
    · intro f h hf
      rw [lookup_erase, lookup_insert]
      rcases eq_or_ne name f with rfl | hfn
      · rw [hold] at hf
        cases hf
        exact .inr (.inl (if_pos rfl))
      · rw [if_neg hfn, if_neg hfn]
        exact hw.conserved f h hf
    · intro k hk
      obtain h1 | ⟨f, h, h1, h2, h3, h4⟩ := hw.cancelled k hk
      · exact .inl h1
      · have hfn : name ≠ f := by
          rintro rfl
          rw [hname] at h3
          cases h3
        exact .inr ⟨f, h, h1, h2, by rw [lookup_erase, if_neg hfn, h3],
          by rw [lookup_insert, if_neg hfn, h4]⟩

theorem Sound.releaseRespawn (hw : w.Sound r) (name : String) : (w.releaseRespawn name).Sound r :=
  { hw with
    respawning := fun f hf => hw.respawning f (ExtTreeSet.mem_of_mem_erase hf) }

theorem Sound.addKeep (hw : w.Sound r) (name : String) : (w.addKeep name).Sound r :=
  { hw with
    kept := fun f h hf => by
      obtain ⟨h1, h2, h3⟩ := hw.kept f h hf
      exact ⟨h1, ExtTreeSet.mem_insert.mpr (.inr h2), h3⟩ }

theorem Sound.addRemoved (hw : w.Sound r) (name : String) : (w.addRemoved name).Sound r :=
  ⟨hw.joinSet, hw.nextToken, hw.pendingExits, hw.drained, hw.kept, hw.conserved, hw.grown,
    hw.cancelled, hw.respawning⟩

theorem Sound.addReset (hw : w.Sound r) (name : String) (urlChanged : Bool) :
    (w.addReset name urlChanged).Sound r := by
  unfold Walk.addReset
  split
  · exact ⟨hw.joinSet, hw.nextToken, hw.pendingExits, hw.drained, hw.kept, hw.conserved, hw.grown,
      hw.cancelled, hw.respawning⟩
  · exact hw

theorem Sound.step (hw : w.Sound r) (a : ReloadAction) : (w.step a).Sound r := by
  cases a with
  | keep name =>
    exact (hw.addKeep name).keepDrained (ExtTreeSet.mem_insert_self)
  | remove name live =>
    cases live with
    | true => exact ((hw.cancelDrained name).addRemoved name).releaseRespawn name
    | false => exact (hw.addRemoved name).releaseRespawn name
  | disable name urlChanged =>
    exact ((hw.cancelDrained name).addReset name urlChanged).releaseRespawn name
  | restart name urlChanged =>
    exact ((hw.cancelDrained name).addReset name urlChanged).releaseRespawn name
  | spawn name => exact hw

theorem Sound.foldl (hw : w.Sound r) (actions : List ReloadAction) :
    (actions.foldl Walk.step w).Sound r := by
  induction actions generalizing w with
  | nil => exact hw
  | cons a actions ih => exact ih (hw.step a)

theorem step_of_ne (w : Walk) {a : ReloadAction} {f : String} (h : a.name ≠ f) :
    (w.step a).drained[f]? = w.drained[f]? ∧
      (w.step a).runtime.handles[f]? = w.runtime.handles[f]? := by
  have hcancel : ∀ name, name ≠ f → (w.cancelDrained name).drained[f]? = w.drained[f]? ∧
      (w.cancelDrained name).runtime.handles[f]? = w.runtime.handles[f]? := by
    intro name hne
    unfold cancelDrained
    split
    · exact ⟨rfl, rfl⟩
    · exact ⟨by rw [lookup_erase, if_neg hne], rfl⟩
  cases a with
  | keep name =>
    have hne : name ≠ f := h
    simp only [step, keepDrained]
    split
    · exact ⟨rfl, rfl⟩
    · exact ⟨by rw [lookup_erase, if_neg hne]; rfl, by rw [lookup_insert, if_neg hne]; rfl⟩
  | remove name live =>
    cases live with
    | true => exact hcancel name h
    | false => exact ⟨rfl, rfl⟩
  | disable name urlChanged | restart name urlChanged =>
    cases urlChanged <;> exact hcancel name h
  | spawn name => exact ⟨rfl, rfl⟩

theorem step_keep (w : Walk) {f : String} {h : FlowHandle}
    (hw : w.drained[f]? = some h ∨ w.drained[f]? = none ∧ w.runtime.handles[f]? = some h) :
    (w.step (.keep f)).drained[f]? = none ∧
      (w.step (.keep f)).runtime.handles[f]? = some h := by
  have hstep : w.step (.keep f) = (w.addKeep f).keepDrained f := rfl
  rw [hstep]
  unfold keepDrained
  obtain hw | ⟨hnone, hw⟩ := hw
  · rw [show (w.addKeep f).drained[f]? = some h from hw]
    exact ⟨by rw [lookup_erase, if_pos rfl], by rw [lookup_insert, if_pos rfl]⟩
  · rw [show (w.addKeep f).drained[f]? = none from hnone]
    exact ⟨hnone, hw⟩

theorem foldl_keep {f : String} {h : FlowHandle} (actions : List ReloadAction)
    (honly : ∀ a ∈ actions, a.name = f → a = .keep f)
    (hw : w.drained[f]? = some h ∨ w.drained[f]? = none ∧ w.runtime.handles[f]? = some h)
    (hkeep : .keep f ∈ actions ∨ w.runtime.handles[f]? = some h) :
    (actions.foldl Walk.step w).runtime.handles[f]? = some h := by
  induction actions generalizing w with
  | nil =>
    obtain hk | hk := hkeep
    · cases hk
    · exact hk
  | cons a actions ih =>
    have hrest : ∀ b ∈ actions, b.name = f → b = .keep f :=
      fun b hb => honly b (List.mem_cons_of_mem a hb)
    by_cases ha : a.name = f
    · obtain rfl := honly a List.mem_cons_self ha
      exact ih hrest (.inr (step_keep w hw)) (.inr (step_keep w hw).2)
    · obtain ⟨hd, hh⟩ := step_of_ne w ha
      apply ih hrest (by rw [hd, hh]; exact hw)
      obtain hk | hk := hkeep
      · refine .inl ((List.mem_cons.mp hk).resolve_left ?_)
        rintro rfl
        exact ha rfl
      · exact .inr (hh ▸ hk)

def keepName : ReloadAction → Option String
  | .keep name => some name
  | _ => none

def removedName : ReloadAction → Option String
  | .remove name _ => some name
  | _ => none

def resetName : ReloadAction → Option String
  | .disable name true | .restart name true => some name
  | _ => none

@[simp] theorem cancelDrained_plan (w : Walk) (name : String) :
    (w.cancelDrained name).plan = w.plan := by
  unfold cancelDrained
  split <;> rfl

@[simp] theorem keepDrained_plan (w : Walk) (name : String) :
    (w.keepDrained name).plan = w.plan := by
  unfold keepDrained
  split <;> rfl

theorem step_plan (w : Walk) (a : ReloadAction) :
    (∀ f, f ∈ (w.step a).plan.toKeep ↔ f ∈ w.plan.toKeep ∨ keepName a = some f) ∧
    (w.step a).plan.removedFlows = w.plan.removedFlows ++ (removedName a).toList ∧
    (w.step a).plan.urlResets = w.plan.urlResets ++ (resetName a).toList := by
  cases a with
  | keep name =>
    simp [step, addKeep, keepName, removedName, resetName, ExtTreeSet.mem_insert, or_comm]
  | remove name live =>
    cases live <;> simp [step, addRemoved, releaseRespawn, keepName, removedName, resetName]
  | disable name urlChanged | restart name urlChanged =>
    cases urlChanged <;> simp [step, addReset, releaseRespawn, keepName, removedName, resetName]
  | spawn name => simp [step, keepName, removedName, resetName]

theorem foldl_plan (w : Walk) (actions : List ReloadAction) :
    (∀ f, f ∈ (actions.foldl Walk.step w).plan.toKeep ↔
      f ∈ w.plan.toKeep ∨ .keep f ∈ actions) ∧
    (actions.foldl Walk.step w).plan.removedFlows =
      w.plan.removedFlows ++ actions.filterMap removedName ∧
    (actions.foldl Walk.step w).plan.urlResets =
      w.plan.urlResets ++ actions.filterMap resetName := by
  induction actions generalizing w with
  | nil => simp
  | cons a actions ih =>
    obtain ⟨hk, hr, hu⟩ := step_plan w a
    obtain ⟨ihk, ihr, ihu⟩ := ih (w.step a)
    refine ⟨fun f => ?_, ?_, ?_⟩
    · have hname : keepName a = some f ↔ ReloadAction.keep f = a := by
        cases a <;> simp [keepName, eq_comm]
      rw [List.foldl_cons, ihk, hk, hname, List.mem_cons, or_assoc]
    · rw [List.foldl_cons, ihr, hr, List.append_assoc]
      cases ha : removedName a <;> simp [ha]
    · rw [List.foldl_cons, ihu, hu, List.append_assoc]
      cases ha : resetName a <;> simp [ha]

end Walk

section Actions

variable {crates : Crates} {old new : Config} {handles : ExtTreeMap String FlowHandle}

theorem name_of_classify {of nf : Option FlowConfig} {live : Bool} {name : String}
    {a : ReloadAction} (h : classify crates of nf live name = some a) : a.name = name := by
  unfold classify at h
  repeat' split at h
  all_goals cases h
  all_goals rfl

theorem find?_isSome_iff {c : Config} {name : String} :
    (c.find? name).isSome ↔ name ∈ c.flow.map FlowConfig.name := by
  simp [Config.find?, List.find?_isSome]

theorem mem_reloadNames {name : String} :
    name ∈ reloadNames old new handles ↔
      (old.find? name).isSome ∨ (new.find? name).isSome ∨ (handles[name]?).isSome := by
  rw [find?_isSome_iff, find?_isSome_iff]
  simp [reloadNames, ExtTreeSet.mem_insertMany_list, or_assoc]

theorem mem_computeReloadActions {a : ReloadAction} :
    a ∈ computeReloadActions crates old new handles ↔
      classify crates (old.find? a.name) (new.find? a.name) (handles[a.name]?).isSome a.name =
        some a := by
  unfold computeReloadActions
  rw [List.mem_filterMap]
  constructor
  · rintro ⟨name, -, h⟩
    obtain rfl := name_of_classify h
    exact h
  · intro h
    refine ⟨a.name, mem_reloadNames.2 ?_, h⟩
    cases hold : old.find? a.name with
    | some of => exact .inl rfl
    | none => cases hnew : new.find? a.name with
      | some nf => exact .inr (.inl rfl)
      | none =>
        refine .inr (.inr ?_)
        rw [hold, hnew] at h
        cases hlive : (handles[a.name]?).isSome with
        | true => rfl
        | false => simp [hlive, classify] at h

theorem mem_filterMap_removedName {actions : List ReloadAction} {f : String} :
    f ∈ actions.filterMap Walk.removedName ↔ ∃ live, .remove f live ∈ actions := by
  rw [List.mem_filterMap]
  constructor
  · rintro ⟨a, ha, hf⟩
    cases a <;> cases hf
    exact ⟨_, ha⟩
  · rintro ⟨live, ha⟩
    exact ⟨_, ha, rfl⟩

theorem mem_filterMap_resetName {actions : List ReloadAction} {f : String} :
    f ∈ actions.filterMap Walk.resetName ↔ .disable f true ∈ actions ∨ .restart f true ∈ actions := by
  rw [List.mem_filterMap]
  constructor
  · rintro ⟨a, ha, hf⟩
    match a, hf with
    | .disable _ true, rfl => exact .inl ha
    | .restart _ true, rfl => exact .inr ha
  · rintro (ha | ha)
    · exact ⟨_, ha, rfl⟩
    · exact ⟨_, ha, rfl⟩

theorem keep_only {f : String} (h : .keep f ∈ computeReloadActions crates old new handles) :
    ∀ a ∈ computeReloadActions crates old new handles, a.name = f → a = .keep f := by
  intro a ha hname
  subst hname
  have hkeep := mem_computeReloadActions.1 h
  rw [ReloadAction.name, mem_computeReloadActions.1 ha] at hkeep
  exact Option.some.inj hkeep

theorem keep_mem_iff {f : String} :
    .keep f ∈ computeReloadActions crates old new handles ↔ (handles[f]?).isSome ∧
      ∃ of nf, old.find? f = some of ∧ new.find? f = some nf ∧ nf.enabled ∧
        flowConfigUnchanged crates of nf := by
  rw [mem_computeReloadActions, ReloadAction.name]
  unfold classify
  repeat' split
  all_goals simp_all

theorem removed_mem_iff {f : String} :
    (∃ live, .remove f live ∈ computeReloadActions crates old new handles) ↔
      new.find? f = none ∧ ((old.find? f).isSome ∨ (handles[f]?).isSome) := by
  simp only [mem_computeReloadActions, ReloadAction.name]
  unfold classify
  repeat' split
  all_goals simp_all

theorem reset_mem_iff {f : String} :
    (.disable f true ∈ computeReloadActions crates old new handles ∨
      .restart f true ∈ computeReloadActions crates old new handles) ↔
      (handles[f]?).isSome ∧ ∃ of nf, old.find? f = some of ∧ new.find? f = some nf ∧
        of.source.url ≠ nf.source.url := by
  simp only [mem_computeReloadActions, ReloadAction.name]
  unfold classify
  repeat' split
  all_goals simp_all
  next hsame => exact congrArg SourceConfig.url (source_eq_of_unchanged hsame)

end Actions

/-- What the plan of a reload did to the registry, and what it leaves to be done. -/
structure Planned (crates : Crates) (old new : Config) (r r' : Runtime) (plan : ReloadPlan) :
    Prop where
  joinSet : r'.joinSet = r.joinSet
  nextToken : r'.nextToken = r.nextToken
  pendingExits : r'.pendingExits = r.pendingExits
  handles : ∀ (f : String) (h : FlowHandle),
    r'.handles[f]? = some h ↔ r.handles[f]? = some h ∧ f ∈ plan.toKeep
  cancelled : ∀ k, k ∈ r'.cancelled ↔ k ∈ r.cancelled ∨
    ∃ (f : String) (h : FlowHandle), r.handles[f]? = some h ∧ h.cancel = k ∧ f ∉ plan.toKeep
  respawning : ∀ f ∈ r'.respawningFlows, f ∈ r.respawningFlows
  toKeep : ∀ f, f ∈ plan.toKeep ↔ (r.handles[f]?).isSome ∧
    ∃ of nf, old.find? f = some of ∧ new.find? f = some nf ∧ nf.enabled ∧
      flowConfigUnchanged crates of nf
  removedFlows : ∀ f, f ∈ plan.removedFlows ↔
    new.find? f = none ∧ ((old.find? f).isSome ∨ (r.handles[f]?).isSome)
  urlResets : ∀ f, f ∈ plan.urlResets ↔ (r.handles[f]?).isSome ∧
    ∃ of nf, old.find? f = some of ∧ new.find? f = some nf ∧ of.source.url ≠ nf.source.url

theorem planned (crates : Crates) (old new : Config) (r : Runtime) :
    Planned crates old new r
      (applyActionsToRegistry (computeReloadActions crates old new r.handles) r).1
      (applyActionsToRegistry (computeReloadActions crates old new r.handles) r).2 := by
  set actions := computeReloadActions crates old new r.handles with hactions
  set w := actions.foldl Walk.step (.start r) with hw
  have hsound : w.Sound r := (Walk.start_sound r).foldl actions
  obtain ⟨hkeep, hremoved, hresets⟩ := Walk.foldl_plan (.start r) actions
  rw [← hw] at hkeep hremoved hresets
  have hkeep : ∀ f, f ∈ w.plan.toKeep ↔ .keep f ∈ actions := by
    intro f
    rw [hkeep]
    simp [Walk.start]
  have hback : ∀ (f : String) (h : FlowHandle), r.handles[f]? = some h → f ∈ w.plan.toKeep →
      w.runtime.handles[f]? = some h := by
    intro f h hf hk
    have hmem := (hkeep f).mp hk
    exact Walk.foldl_keep actions (keep_only hmem) (.inl hf) (.inl hmem)
  refine ⟨hsound.joinSet, hsound.nextToken, hsound.pendingExits, ?_, ?_, hsound.respawning,
    ?_, ?_, ?_⟩
  · intro f h
    exact ⟨fun hf => ⟨(hsound.kept f h hf).1, (hsound.kept f h hf).2.1⟩,
      fun hf => hback f h hf.1 hf.2⟩
  · intro k
    have horphan : k ∈ (w.drained.toList.map fun entry => entry.2.cancel) ↔
        ∃ (f : String) (h : FlowHandle), w.drained[f]? = some h ∧ h.cancel = k := by
      simp [List.mem_map, ExtTreeMap.mem_toList_iff_getElem?_eq_some]
    change k ∈ _ ++ w.runtime.cancelled ↔ _
    rw [List.mem_append, horphan]
    constructor
    · rintro (⟨f, h, hf, hk⟩ | hk)
      · refine .inr ⟨f, h, hsound.drained f h hf, hk, fun hkept => ?_⟩
        have hgone := (hsound.kept f h (hback f h (hsound.drained f h hf) hkept)).2.2
        rw [hf] at hgone
        cases hgone
      · obtain hk | ⟨f, h, hf, hk, -, hgone⟩ := hsound.cancelled k hk
        · exact .inl hk
        · refine .inr ⟨f, h, hf, hk, fun hkept => ?_⟩
          rw [hback f h hf hkept] at hgone
          cases hgone
    · rintro (hk | ⟨f, h, hf, rfl, hkept⟩)
      · exact .inr (hsound.grown k hk)
      · obtain h1 | h1 | h1 := hsound.conserved f h hf
        · exact .inl ⟨f, h, h1, rfl⟩
        · exact absurd (hsound.kept f h h1).2.1 hkept
        · exact .inr h1
  · intro f
    exact (hkeep f).trans keep_mem_iff
  · intro f
    change f ∈ w.plan.removedFlows ↔ _
    rw [hremoved]
    exact Iff.trans mem_filterMap_removedName removed_mem_iff
  · intro f
    change f ∈ w.plan.urlResets ↔ _
    rw [hresets]
    exact Iff.trans mem_filterMap_resetName reset_mem_iff

end Gcit.Supervisor
