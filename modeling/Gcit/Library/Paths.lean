import Mathlib.Data.Set.Insert
import Mathlib.Logic.Function.Basic

/-! # Paths through a tree with links

A tree gives the node at each location, which is the names from the root down to it. A path
is walked one segment after the other, in directories only; a link that is met on the way
is replaced by its target, up to a number of links. What a tree loses, its paths lose, and
no path comes to lead elsewhere as long as only files go.
-/

namespace Gcit.Library.Paths

universe u

abbrev Location (ν : Type u) := List ν

inductive Segment (ν : Type u) where
  | here
  | up
  | name (n : ν)
  deriving DecidableEq

def Segment.apply {ν : Type u} (l : Location ν) : Segment ν → Location ν
  | .here => l
  | .up => l.dropLast
  | .name n => l ++ [n]

/-- A path as it is written. -/
structure Route (ν : Type u) where
  absolute : Bool
  segments : List (Segment ν)
  deriving DecidableEq

def Route.start {ν : Type u} (r : Route ν) (dir : Location ν) : Location ν :=
  if r.absolute then [] else dir

inductive Node (ν γ : Type u) where
  | file (contents : γ)
  | directory
  | link (target : Route ν)
  deriving DecidableEq

abbrev Tree (ν γ : Type u) := Location ν → Option (Node ν γ)

variable {ν γ : Type u}

/-- How far a walk comes before it has to follow a link. -/
inductive Halt (ν : Type u) where
  | missing
  | arrived (l : Location ν)
  | link (dir : Location ν) (target : Route ν) (rest : List (Segment ν))

section Resolve

variable (tree : Tree ν γ) (follow : Bool)

/-- `follow` is whether a link in the last place counts as one on the way. -/
def walk : Location ν → List (Segment ν) → Halt ν
  | l, [] => match tree l with
    | none | some (.link _) => .missing
    | some _ => .arrived l
  | l, segment :: rest => match tree l with
    | some .directory => match tree (segment.apply l) with
      | some (.link target) =>
        if rest.isEmpty && !follow then .arrived (segment.apply l) else .link l target rest
      | _ => walk (segment.apply l) rest
    | _ => .missing

/-- Where the segments lead from a directory, with so many links left to follow. -/
def resolveFrom : Nat → Location ν → List (Segment ν) → Option (Location ν)
  | 0, l, segments => match walk tree follow l segments with
    | .arrived l => some l
    | _ => none
  | links + 1, l, segments => match walk tree follow l segments with
    | .missing => none
    | .arrived l => some l
    | .link dir target rest => resolveFrom links (target.start dir) (target.segments ++ rest)

def resolve (links : Nat) (dir : Location ν) (r : Route ν) : Option (Location ν) :=
  resolveFrom tree follow links (r.start dir) r.segments

/-- What `resolveFrom` finds, as a derivation. -/
inductive Leads : Nat → Location ν → List (Segment ν) → Location ν → Prop where
  | arrived {links : Nat} {l : Location ν} {segments : List (Segment ν)} {x : Location ν}
      (hwalk : walk tree follow l segments = .arrived x) : Leads links l segments x
  | link {links : Nat} {l : Location ν} {segments : List (Segment ν)} {dir : Location ν}
      {target : Route ν} {rest : List (Segment ν)} {x : Location ν}
      (hwalk : walk tree follow l segments = .link dir target rest)
      (hrest : Leads links (target.start dir) (target.segments ++ rest) x) :
      Leads (links + 1) l segments x

end Resolve

/-- The one tree has no node that is not in the other. -/
def Within (tree' tree : Tree ν γ) : Prop := ∀ l node, tree' l = some node → tree l = some node

theorem Within.trans {tree'' tree' tree : Tree ν γ} (h : Within tree'' tree')
    (h' : Within tree' tree) : Within tree'' tree :=
  fun l node hnode => h' l node (h l node hnode)

section Walk

variable {tree tree' : Tree ν γ} {follow : Bool} {l : Location ν} {segments : List (Segment ν)}

theorem walk_nil : walk tree follow l [] =
    match tree l with
    | none | some (.link _) => .missing
    | some _ => .arrived l := rfl

theorem walk_cons (segment : Segment ν) (rest : List (Segment ν)) :
    walk tree follow l (segment :: rest) =
      match tree l with
      | some .directory => match tree (segment.apply l) with
        | some (.link target) =>
          if rest.isEmpty && !follow then .arrived (segment.apply l) else .link l target rest
        | _ => walk tree follow (segment.apply l) rest
      | _ => .missing := rfl

theorem walk_of_none (h : tree l = none) : walk tree follow l segments = .missing := by
  cases segments with
  | nil => rw [walk_nil, h]
  | cons segment rest => rw [walk_cons, h]

theorem walk_cons_link {segment : Segment ν} {target : Route ν} (hdir : tree l = some .directory)
    (htarget : tree (segment.apply l) = some (.link target)) (rest : List (Segment ν)) :
    walk tree follow l (segment :: rest) =
      if rest.isEmpty && !follow then .arrived (segment.apply l) else .link l target rest := by
  rw [walk_cons, hdir]
  simp only [htarget]

theorem walk_cons_next {segment : Segment ν} (hdir : tree l = some .directory)
    (hnext : ∀ target, tree (segment.apply l) ≠ some (.link target)) (rest : List (Segment ν)) :
    walk tree follow l (segment :: rest) = walk tree follow (segment.apply l) rest := by
  rw [walk_cons, hdir]
  cases hnode : tree (segment.apply l) with
  | none => rfl
  | some node =>
    cases node with
    | link target => exact absurd hnode (hnext target)
    | file | directory => rfl

theorem walk_cons_missing {segment : Segment ν} (hdir : tree l ≠ some .directory)
    (rest : List (Segment ν)) : walk tree follow l (segment :: rest) = .missing := by
  rw [walk_cons]
  cases hnode : tree l with
  | none => rfl
  | some node =>
    cases node with
    | directory => exact absurd hnode hdir
    | file | link => rfl

/-- The first segment stops the walk, leads to a link, or leads to where the walk goes on. -/
theorem walk_cons_cases (tree : Tree ν γ) (l : Location ν) (segment : Segment ν) :
    (∀ follow rest, walk tree follow l (segment :: rest) = .missing) ∨
      tree l = some .directory ∧ ((∃ target, tree (segment.apply l) = some (.link target)) ∨
        ∀ target, tree (segment.apply l) ≠ some (.link target)) := by
  by_cases hdir : tree l = some .directory
  · refine .inr ⟨hdir, ?_⟩
    by_cases hlink : ∃ target, tree (segment.apply l) = some (.link target)
    · exact .inl hlink
    · exact .inr (not_exists.mp hlink)
  · exact .inl fun _ rest => walk_cons_missing hdir rest

theorem exists_of_walk {x : Location ν} (h : walk tree follow l segments = .arrived x) :
    ∃ node, tree x = some node := by
  induction segments generalizing l with
  | nil =>
    rw [walk_nil] at h
    cases hnode : tree l with
    | none => simp [hnode] at h
    | some node =>
      cases node with
      | link target => simp [hnode] at h
      | directory => exact ⟨_, (Halt.arrived.inj (by simpa [hnode] using h)) ▸ hnode⟩
      | file c => exact ⟨_, (Halt.arrived.inj (by simpa [hnode] using h)) ▸ hnode⟩
  | cons segment rest ih =>
    obtain hmissing | ⟨hdir, ⟨target, htarget⟩ | hnext⟩ := walk_cons_cases tree l segment
    · exact absurd ((hmissing follow rest).symm.trans h) nofun
    · rw [walk_cons_link hdir htarget] at h
      split at h
      · exact ⟨_, Halt.arrived.inj h ▸ htarget⟩
      · cases h
    · rw [walk_cons_next hdir hnext] at h
      exact ih h

/-- A walk that does not follow the last link differs from one that does only if there is
such a link, and then it arrives at it. -/
theorem walk_follow (tree : Tree ν γ) (l : Location ν) (segments : List (Segment ν)) :
    walk tree true l segments = walk tree false l segments ∨
      ∃ x target, walk tree false l segments = .arrived x ∧ tree x = some (.link target) := by
  induction segments generalizing l with
  | nil => exact .inl rfl
  | cons segment rest ih =>
    obtain hmissing | ⟨hdir, ⟨target, htarget⟩ | hnext⟩ := walk_cons_cases tree l segment
    · exact .inl ((hmissing true rest).trans (hmissing false rest).symm)
    · cases rest with
      | nil => exact .inr ⟨_, target, walk_cons_link hdir htarget [], htarget⟩
      | cons next rest =>
        rw [walk_cons_link hdir htarget, walk_cons_link hdir htarget]
        exact .inl rfl
    · rw [walk_cons_next hdir hnext, walk_cons_next hdir hnext]
      exact ih _

/-- A tree with less in it has no walk of its own. -/
theorem walk_mono (hle : Within tree' tree)
    (h : walk tree' follow l segments ≠ .missing) :
    walk tree follow l segments = walk tree' follow l segments := by
  induction segments generalizing l with
  | nil =>
    cases hnode : tree' l with
    | none => exact absurd (walk_of_none hnode) h
    | some node => rw [walk_nil, walk_nil, hnode, hle l node hnode]
  | cons segment rest ih =>
    obtain hmissing | ⟨hdir, ⟨target, htarget⟩ | hnext⟩ := walk_cons_cases tree' l segment
    · exact absurd (hmissing follow rest) h
    · rw [walk_cons_link hdir htarget, walk_cons_link (hle _ _ hdir) (hle _ _ htarget)]
    · rw [walk_cons_next hdir hnext] at h ⊢
      have hnext' (target : Route ν) : tree (segment.apply l) ≠ some (.link target) := by
        intro htarget
        cases hnode : tree' (segment.apply l) with
        | none => exact h (walk_of_none hnode)
        | some node =>
          have hsame := (hle _ _ hnode).symm.trans htarget
          exact hnext target (hnode.trans hsame)
      rw [walk_cons_next (hle _ _ hdir) hnext']
      exact ih h

/-- Where only files go, a walk stays that does not end at one of them. -/
theorem walk_kept (hgone : ∀ l, tree' l = tree l ∨ tree' l = none ∧ ∃ c, tree l = some (.file c))
    (h : walk tree follow l segments ≠ .missing)
    (hend : ∀ x, walk tree follow l segments = .arrived x → tree' x = tree x) :
    walk tree' follow l segments = walk tree follow l segments := by
  have hkept {x : Location ν} {node : Node ν γ} (hnode : tree x = some node)
      (hfile : ∀ c, node ≠ .file c) : tree' x = some node := by
    obtain hsame | ⟨-, c, hc⟩ := hgone x
    · exact hsame.trans hnode
    · exact absurd (Option.some.inj (hnode.symm.trans hc)) (hfile c)
  induction segments generalizing l with
  | nil =>
    simp only [walk_nil] at h hend ⊢
    cases hnode : tree l with
    | none => simp [hnode] at h
    | some node =>
      cases node with
      | link target => simp [hnode] at h
      | directory => rw [hend l (by simp [hnode]), hnode]
      | file c => rw [hend l (by simp [hnode]), hnode]
  | cons segment rest ih =>
    obtain hmissing | ⟨hdir, ⟨target, htarget⟩ | hnext⟩ := walk_cons_cases tree l segment
    · exact absurd (hmissing follow rest) h
    · have hdir' := hkept hdir (fun _ => nofun)
      have htarget' := hkept htarget (fun _ => nofun)
      rw [walk_cons_link hdir htarget, walk_cons_link hdir' htarget']
    · have hdir' := hkept hdir (fun _ => nofun)
      have hnext' (target : Route ν) : tree' (segment.apply l) ≠ some (.link target) := by
        obtain hsame | ⟨hnone, -⟩ := hgone (segment.apply l)
        · exact hsame ▸ hnext target
        · exact hnone ▸ nofun
      rw [walk_cons_next hdir hnext] at h hend ⊢
      rw [walk_cons_next hdir' hnext']
      exact ih h hend

end Walk

section Resolve

variable {tree tree' : Tree ν γ} {follow : Bool} {links : Nat} {l x : Location ν}
  {segments : List (Segment ν)}

theorem resolveFrom_zero : resolveFrom tree follow 0 l segments =
    match walk tree follow l segments with
    | .arrived l => some l
    | _ => none := rfl

theorem resolveFrom_succ : resolveFrom tree follow (links + 1) l segments =
    match walk tree follow l segments with
    | .missing => none
    | .arrived l => some l
    | .link dir target rest =>
      resolveFrom tree follow links (target.start dir) (target.segments ++ rest) := rfl

theorem leads_iff :
    Leads tree follow links l segments x ↔ resolveFrom tree follow links l segments = some x := by
  constructor
  · intro h
    induction h with
    | @arrived links l segments x hwalk =>
      cases links with
      | zero => rw [resolveFrom_zero, hwalk]
      | succ links => rw [resolveFrom_succ, hwalk]
    | link hwalk _ ih =>
      rw [resolveFrom_succ, hwalk]
      exact ih
  · intro h
    induction links generalizing l segments with
    | zero =>
      rw [resolveFrom_zero] at h
      cases hwalk : walk tree follow l segments with
      | missing => simp [hwalk] at h
      | arrived y =>
        obtain rfl : y = x := by simpa [hwalk] using h
        exact .arrived hwalk
      | link dir target rest => simp [hwalk] at h
    | succ links ih =>
      rw [resolveFrom_succ] at h
      cases hwalk : walk tree follow l segments with
      | missing => simp [hwalk] at h
      | arrived y =>
        obtain rfl : y = x := by simpa [hwalk] using h
        exact .arrived hwalk
      | link dir target rest =>
        simp only [hwalk] at h
        exact .link hwalk (ih h)

namespace Leads

/-- A lookup stays one where its walks stay. -/
theorem congr {follow' : Bool} (h : Leads tree follow links l segments x)
    (hwalks : ∀ l segments, walk tree follow l segments ≠ .missing →
      (∀ y, walk tree follow l segments = .arrived y → y = x) →
      walk tree' follow' l segments = walk tree follow l segments) :
    Leads tree' follow' links l segments x := by
  induction h with
  | arrived hwalk =>
    refine .arrived ((hwalks _ _ (hwalk ▸ nofun) fun y hy => ?_).trans hwalk)
    exact Halt.arrived.inj (hy.symm.trans hwalk)
  | link hwalk _ ih =>
    exact .link ((hwalks _ _ (hwalk ▸ nofun) (hwalk ▸ nofun)).trans hwalk) (ih hwalks)

theorem exists_node (h : Leads tree follow links l segments x) : ∃ node, tree x = some node := by
  induction h with
  | arrived hwalk => exact exists_of_walk hwalk
  | link _ _ ih => exact ih

theorem mono (h : Leads tree' follow links l segments x) (hle : Within tree' tree) :
    Leads tree follow links l segments x :=
  h.congr fun _ _ hwalk _ => walk_mono hle hwalk

theorem kept (h : Leads tree follow links l segments x)
    (hgone : ∀ l, tree' l = tree l ∨ tree' l = none ∧ ∃ c, tree l = some (.file c))
    (hx : tree' x = tree x) : Leads tree' follow links l segments x :=
  h.congr fun _ _ hwalk harrived => walk_kept hgone hwalk fun y hy => harrived y hy ▸ hx

/-- Where the last place is no link, it does not matter whether one would be followed. -/
theorem followed (h : Leads tree false links l segments x)
    (hlink : ∀ target, tree x ≠ some (.link target)) : Leads tree true links l segments x := by
  apply h.congr
  intro l segments _ harrived
  obtain hsame | ⟨y, target, hy, htarget⟩ := walk_follow tree l segments
  · exact hsame
  · exact absurd (harrived y hy ▸ htarget) (hlink target)

theorem exists_unfollowed (h : Leads tree true links l segments x) :
    ∃ y, Leads tree false links l segments y := by
  induction h with
  | @arrived links l segments x hwalk =>
    obtain hsame | ⟨y, target, hy, -⟩ := walk_follow tree l segments
    · exact ⟨x, .arrived (hsame.symm.trans hwalk)⟩
    · exact ⟨y, .arrived hy⟩
  | @link links l segments dir target rest x hwalk _ ih =>
    obtain hsame | ⟨y, target, hy, -⟩ := walk_follow tree l segments
    · obtain ⟨y, hy⟩ := ih
      exact ⟨y, .link (hsame.symm.trans hwalk) hy⟩
    · exact ⟨y, .arrived hy⟩

end Leads

variable {dir : Location ν} {r : Route ν}

theorem exists_of_resolve (h : resolve tree follow links dir r = some x) :
    ∃ node, tree x = some node :=
  (leads_iff.mpr h).exists_node

theorem resolve_mono (hle : Within tree' tree) (h : resolve tree' follow links dir r = some x) :
    resolve tree follow links dir r = some x :=
  leads_iff.mp ((leads_iff.mpr h).mono hle)

theorem resolve_followed (hlink : ∀ target, tree x ≠ some (.link target))
    (h : resolve tree false links dir r = some x) : resolve tree true links dir r = some x :=
  leads_iff.mp ((leads_iff.mpr h).followed hlink)

theorem resolve_unfollowed (h : resolve tree true links dir r = some x) :
    ∃ y, resolve tree false links dir r = some y :=
  (leads_iff.mpr h).exists_unfollowed.imp fun _ hy => leads_iff.mp hy

end Resolve

section Remove

def remove [DecidableEq ν] (tree : Tree ν γ) (l : Location ν) : Tree ν γ :=
  Function.update tree l none

theorem within_remove [DecidableEq ν] (tree : Tree ν γ) (l : Location ν) :
    Within (remove tree l) tree := by
  intro x node hnode
  by_cases hx : x = l
  · rw [hx, remove, Function.update_self] at hnode
    cases hnode
  · rwa [remove, Function.update_of_ne hx] at hnode

/-- The second tree is the first without the files at some of its locations. -/
structure Cleared (tree tree' : Tree ν γ) (gone : Set (Location ν)) : Prop where
  none : ∀ l ∈ gone, tree' l = none
  kept : ∀ l ∉ gone, tree' l = tree l
  files : ∀ l ∈ gone, ∃ c, tree l = some (.file c)

namespace Cleared

variable {tree tree' : Tree ν γ} {gone : Set (Location ν)}

theorem refl (tree : Tree ν γ) : Cleared tree tree ∅ where
  none _ := nofun
  kept _ _ := rfl
  files _ := nofun

theorem remove [DecidableEq ν] (h : Cleared tree tree' gone) {l : Location ν} {c : γ}
    (hfile : tree l = some (.file c)) : Cleared tree (remove tree' l) (insert l gone) where
  none x hx := by
    by_cases hxl : x = l
    · rw [hxl, Paths.remove, Function.update_self]
    · rw [Paths.remove, Function.update_of_ne hxl]
      exact h.none x (Set.mem_of_mem_insert_of_ne hx hxl)
  kept x hx := by
    rw [Set.mem_insert_iff, not_or] at hx
    exact (Function.update_of_ne hx.1 _ _).trans (h.kept x hx.2)
  files x hx := by
    obtain rfl | hx := hx
    · exact ⟨c, hfile⟩
    · exact h.files x hx

theorem within (h : Cleared tree tree' gone) : Within tree' tree := by
  intro l node hnode
  by_cases hl : l ∈ gone
  · cases (h.none l hl).symm.trans hnode
  · exact (h.kept l hl).symm.trans hnode

/-- What led to a file that is gone leads nowhere, and nothing else changes. -/
theorem resolve_iff (h : Cleared tree tree' gone) (follow : Bool) (links : Nat)
    (dir : Location ν) (r : Route ν) (x : Location ν) :
    resolve tree' follow links dir r = some x ↔
      resolve tree follow links dir r = some x ∧ x ∉ gone := by
  constructor
  · intro hx
    refine ⟨resolve_mono h.within hx, fun hgone => ?_⟩
    obtain ⟨node, hnode⟩ := exists_of_resolve hx
    cases (h.none x hgone).symm.trans hnode
  · rintro ⟨hx, hkept⟩
    refine leads_iff.mp ((leads_iff.mpr hx).kept (fun l => ?_) (h.kept x hkept))
    by_cases hl : l ∈ gone
    · exact .inr ⟨h.none l hl, h.files l hl⟩
    · exact .inl (h.kept l hl)

end Cleared

end Remove

end Gcit.Library.Paths
