import Gcit.Mail.Spool

/-! # What the calls leave in their spool

A call that does not fail, or die, between the first and the last byte of its message
leaves all of it or nothing. As long as there is none that does, the spool is read back
as one record for each call that wrote, in the order of the lock.
-/

namespace Gcit.Mail

open Gcit Gcit.Git Gcit.Flow Gcit.Library Gcit.Library.Handlebars Gcit.Library.Lines Gcit.Notify

def Spool.messageAt (s : Spool) (i : Nat) : Option Message := (s.calls i).bind (·.message)

def Spool.writtenAt (s : Spool) (i : Nat) : List UInt8 := ((s.calls i).map (·.written)).getD []

/-- What the call that holds the lock has written so far. -/
def Spool.unfinished (s : Spool) : List UInt8 :=
  match s.file.holder with
  | some (.task i) => s.writtenAt i
  | _ => []

/-- No call between its first and its last byte is cut short by this action. -/
def Untorn (s : Spool) : SpoolAction → Prop
  | .task i (.fail _) => ∀ c, s.calls i = some c → c.written = []
  | .crash => ∀ i c, s.file.holder = some (.task i) → s.calls i = some c →
      c.written = [] ∨ c.rest = []
  | _ => True

def Spool.Whole (s : Spool) : Prop :=
  ∀ i c, s.calls i = some c → s.file.holder ≠ some (.task i) → c.written = [] ∨ c.rest = []

/-- Behind what was there before, the spool has the messages of the calls in this order,
and then what is being written. -/
structure Spool.Delivered (formats : DateFormats) (start : List UInt8) (s : Spool)
    (order : List Nat) : Prop where
  nodup : order.Nodup
  mem : ∀ i, i ∈ order ↔ s.writtenAt i ≠ [] ∧ s.file.holder ≠ some (.task i)
  contents : s.file.contents =
    start ++ (order.filterMap s.messageAt).flatMap (messageBytes formats) ++ s.unfinished

/-- While no call holds the lock, a reader finds the mail that was there before and then
one record for each message. -/
def Spool.ReadsBack (formats : DateFormats) (before : Text) (s : Spool)
    (order : List Nat) : Prop :=
  (∀ i, s.file.holder ≠ some (.task i)) → ∃ rs,
    readSpool s.file.contents = some (records before ++ rs) ∧
      List.Forall₂ (IsRecordOf formats) (order.filterMap s.messageAt) rs

/-- Messages behind ended lines are records of their own. -/
theorem exists_records_append {formats : DateFormats} {before : Text}
    (hdate : ∀ t, '\n' ∉ formats.formatFromLineDate t) (hend : before.getLast?.getD '\n' = '\n')
    (messages : List Message) :
    ∃ rs, records (before ++ messages.flatMap (formatMessage formats)) = records before ++ rs ∧
      List.Forall₂ (IsRecordOf formats) messages rs := by
  obtain ⟨ls, hls, rfl⟩ : ∃ ls, (∀ l ∈ ls, '\n' ∉ l) ∧ before = unlines '\n' ls := by
    obtain ⟨ls, last, hls, hlast, rfl⟩ := exists_lines '\n' before
    rcases last.eq_nil_or_concat with rfl | ⟨l, c, rfl⟩
    · exact ⟨ls, hls, by simp⟩
    · obtain rfl : c = '\n' := by simpa [← List.append_assoc] using hend
      simp at hlast
  obtain ⟨rs, htext, hrs, hlines, hstarts⟩ : ∃ rs,
      messages.flatMap (formatMessage formats) = unlines '\n' rs.flatten ∧
      List.Forall₂ (IsRecordOf formats) messages rs ∧ (∀ l ∈ rs.flatten, '\n' ∉ l) ∧
      ∀ r ∈ rs, ∃ line rest, r = line :: rest ∧ isFromLine line = true ∧
        ∀ l ∈ rest, isFromLine l = false := by
    induction messages with
    | nil => exact ⟨[], rfl, .nil, by simp, by simp⟩
    | cons m messages ih =>
      obtain ⟨rs, htext, hrs, hlines, hstarts⟩ := ih
      obtain ⟨r, hr, hrecord, hline, hstart⟩ := exists_record hdate m
      refine ⟨r :: rs, ?_, .cons hrecord hrs, ?_, List.forall_mem_cons.mpr ⟨hstart, hstarts⟩⟩
      · rw [List.flatMap_cons, hr, htext, List.flatten_cons, unlines_append]
      · rw [List.flatten_cons, List.forall_mem_append]
        exact ⟨hline, hlines⟩
  refine ⟨rs, ?_, hrs⟩
  rw [records, records, htext, ← unlines_append,
    terminatedLines_unlines (List.forall_mem_append.mpr ⟨hls, hlines⟩), terminatedLines_unlines hls,
    List.splitBy_append, splitBy_flatten_of_starts hstarts]
  intro x _ y hy
  cases rs with
  | nil => simp at hy
  | cons r rs =>
    obtain ⟨line, rest, rfl, hfrom, -⟩ := hstarts r List.mem_cons_self
    obtain rfl : line = y := by simpa using hy
    simp [hfrom]

theorem length_flatMap_le {ι α : Type} {f g : ι → List α} {l : List ι}
    (h : ∀ i ∈ l, (f i).length ≤ (g i).length) : (l.flatMap f).length ≤ (l.flatMap g).length := by
  induction l with
  | nil => exact Nat.le_refl 0
  | cons i l ih =>
    obtain ⟨hi, hl⟩ := List.forall_mem_cons.mp h
    simpa using Nat.add_le_add hi (ih hl)

theorem length_flatMap_lt {ι α : Type} {f g : ι → List α} {l : List ι} {i : ι} (hi : i ∈ l)
    (hlt : (f i).length < (g i).length) (h : ∀ i ∈ l, (f i).length ≤ (g i).length) :
    (l.flatMap f).length < (l.flatMap g).length := by
  obtain ⟨before, after, rfl⟩ := List.append_of_mem hi
  have hbefore := length_flatMap_le fun j hj => h j (List.mem_append_left _ hj)
  have hafter := length_flatMap_le (l := after) fun j hj =>
    h j (List.mem_append_right _ (List.mem_cons_of_mem i hj))
  simp only [List.flatMap_append, List.flatMap_cons, List.length_append]
  omega

theorem foldl_append_eq {α : Type} (chunks : List (List α)) (start : List α) :
    chunks.foldl (· ++ ·) start = start ++ chunks.flatten := by
  induction chunks generalizing start with
  | nil => simp
  | cons chunk chunks ih => simp [ih]

theorem flatMap_filter_ne_nil {ι α : Type} [DecidableEq α] (g : ι → List α) (l : List ι) :
    (l.filter fun i => g i ≠ []).flatMap g = l.flatMap g := by
  induction l with
  | nil => rfl
  | cons i l ih =>
    rcases eq_or_ne (g i) [] with hi | hi
    · rw [List.filter_cons_of_neg (by simp [hi]), ih, List.flatMap_cons, hi, List.nil_append]
    · rw [List.filter_cons_of_pos (by simp [hi]), List.flatMap_cons, List.flatMap_cons, ih]

theorem flatMap_filterMap_eq {ι α β : Type} (f : ι → Option α) (g : α → List β) (l : List ι) :
    (l.filterMap f).flatMap g = l.flatMap fun i => ((f i).map g).getD [] := by
  induction l with
  | nil => rfl
  | cons i l ih =>
    cases hi : f i with
    | none => simp [hi, ih]
    | some a => simp [hi, ih]

section

variable {formats : DateFormats} {start : List UInt8} {s : Spool} {l : Ledger}

theorem writtenAt_of_eq_some {i : Nat} {c : Call} (hc : s.calls i = some c) :
    s.writtenAt i = c.written := by
  simp [Spool.writtenAt, hc]

/-- The ledger by calls: those that are done, and then the one that holds the lock. -/
theorem Spool.Explained.accounts (h : s.Explained formats start l) :
    ∃ done : List Nat, done.Nodup ∧
      (∀ i, i ∈ done ↔ (∃ c, s.calls i = some c ∧ c.signalled = true) ∧
        s.file.holder ≠ some (.task i)) ∧
      s.file.contents = start ++ done.flatMap s.writtenAt ++ s.unfinished := by
  have hwritten : ∀ sections : List (Nat × List (List UInt8)), (∀ p ∈ sections, p ∈ l.sections) →
      (sections.flatMap Prod.snd).flatten = (sections.map Prod.fst).flatMap s.writtenAt := by
    intro sections hmem
    induction sections with
    | nil => rfl
    | cons p sections ih =>
      obtain ⟨hp, hrest⟩ := List.forall_mem_cons.mp hmem
      obtain ⟨c, hc, -, hes⟩ := h.sections p.1 p.2 hp
      rw [List.flatMap_cons, List.flatten_append, ih hrest, List.map_cons, List.flatMap_cons, hes,
        writtenAt_of_eq_some hc]
  have hids : ∀ i, i ∈ l.sections.map Prod.fst ↔ ∃ c, s.calls i = some c ∧ c.signalled = true := by
    intro i
    constructor
    · intro hi
      obtain ⟨⟨j, es⟩, hmem, rfl⟩ := List.mem_map.mp hi
      obtain ⟨c, hc, hsig, -⟩ := h.sections j es hmem
      exact ⟨c, hc, hsig⟩
    · rintro ⟨c, hc, hsig⟩
      exact h.signalled i c hc hsig
  have hcontents : s.file.contents = start ++ (l.sections.map Prod.fst).flatMap s.writtenAt := by
    rw [h.resource, h.serial.resource, foldl_append_eq, hwritten l.sections fun p hp => hp]
  cases hheld : l.holder with
  | none =>
    have hfree : ∀ i, s.file.holder ≠ some (.task i) := by
      intro i hi
      rw [h.holder, hheld] at hi
      cases hi
    have hunfinished : s.unfinished = [] := by
      unfold Spool.unfinished
      split
      · next i hi => exact absurd hi (hfree i)
      · rfl
    refine ⟨l.sections.map Prod.fst, h.nodup, fun i => ?_, ?_⟩
    · rw [hids, and_iff_left (hfree i)]
    · rw [hcontents, hunfinished, List.append_nil]
  | some i =>
    have hholder : s.file.holder = some (.task i) := (h.holder i).mpr hheld
    obtain ⟨before, es, hsections⟩ := h.serial.last i hheld
    have hnodup := h.nodup
    rw [hsections, List.map_append, List.nodup_append] at hnodup
    refine ⟨before.map Prod.fst, hnodup.1, fun j => ?_, ?_⟩
    · rw [← hids, hsections, List.map_append, List.mem_append, hholder]
      simp only [List.map_cons, List.map_nil, List.mem_singleton, ne_eq, Option.some.injEq,
        Holder.task.injEq]
      constructor
      · intro hj
        exact ⟨.inl hj, fun hij => hnodup.2.2 j hj i (by simp) hij.symm⟩
      · rintro ⟨hj | hij, hne⟩
        · exact hj
        · exact absurd hij.symm hne
    · rw [hcontents, hsections, Spool.unfinished, hholder]
      simp

/-- The calls that wrote, among those that are done, wrote their messages whole. -/
theorem flatMap_writtenAt {ids : List Nat}
    (h : ∀ i ∈ ids, ∃ c, s.calls i = some c ∧ c.Sound formats ∧ c.signalled = true ∧
      (c.written = [] ∨ c.rest = [])) :
    ids.flatMap s.writtenAt =
      ((ids.filter fun i => s.writtenAt i ≠ []).filterMap s.messageAt).flatMap
        (messageBytes formats) := by
  induction ids with
  | nil => rfl
  | cons i ids ih =>
    obtain ⟨⟨c, hc, hsound, hsig, hwhole⟩, hrest⟩ := List.forall_mem_cons.mp h
    obtain ⟨m, hm⟩ := hsound.spawned (hsound.signalled hsig).1
    have hbytes : c.written ++ c.rest = messageBytes formats m := hsound.message m hm
    rw [List.flatMap_cons, ih hrest, writtenAt_of_eq_some hc]
    rcases eq_or_ne c.written [] with hnil | hne
    · rw [List.filter_cons_of_neg (by simp [writtenAt_of_eq_some hc, hnil]), hnil, List.nil_append]
    · have hmessage : s.messageAt i = some m := by simp [Spool.messageAt, hc, hm]
      rw [hwhole.resolve_left hne, List.append_nil] at hbytes
      rw [List.filter_cons_of_pos (by simp [writtenAt_of_eq_some hc, hne]),
        List.filterMap_cons_some hmessage, List.flatMap_cons, hbytes]

theorem signalled_of_written {i : Nat} (h : s.Explained formats start l)
    (hi : s.writtenAt i ≠ []) :
    ∃ c, s.calls i = some c ∧ c.signalled = true ∧ c.written ≠ [] := by
  cases hc : s.calls i with
  | none => simp [Spool.writtenAt, hc] at hi
  | some c =>
    rw [writtenAt_of_eq_some hc] at hi
    refine ⟨c, rfl, ?_, hi⟩
    cases hsig : c.signalled with
    | true => rfl
    | false => exact absurd ((h.sound i c hc).unsignalled hsig).1 hi

/-- What the calls wrote is no longer than their messages, and shorter if one is torn. -/
theorem written_lt_messages (h : s.Explained formats start l) {order : List Nat} {i : Nat} {c : Call}
    (horder : ∀ j ∈ order, s.writtenAt j ≠ []) (hi : i ∈ order) (hc : s.calls i = some c)
    (hrest : c.rest ≠ []) : (order.flatMap s.writtenAt).length <
      ((order.filterMap s.messageAt).flatMap (messageBytes formats)).length := by
  have hbytes : ∀ j ∈ order, ∃ c, s.calls j = some c ∧
      ((s.messageAt j).map (messageBytes formats)).getD [] = c.written ++ c.rest := by
    intro j hj
    obtain ⟨c, hc, hsig, -⟩ := signalled_of_written h (horder j hj)
    have hsound := h.sound j c hc
    obtain ⟨m, hm⟩ := hsound.spawned (hsound.signalled hsig).1
    refine ⟨c, hc, ?_⟩
    simp [Spool.messageAt, hc, hm, hsound.message m hm]
  rw [flatMap_filterMap_eq]
  refine length_flatMap_lt hi ?_ fun j hj => ?_
  · obtain ⟨c', hc', hbytes⟩ := hbytes i hi
    obtain rfl := Option.some.inj (hc.symm.trans hc')
    rw [hbytes, writtenAt_of_eq_some hc, List.length_append]
    exact Nat.lt_add_of_pos_right (List.length_pos_iff.mpr hrest)
  · obtain ⟨c', hc', hbytes⟩ := hbytes j hj
    rw [hbytes, writtenAt_of_eq_some hc', List.length_append]
    exact Nat.le_add_right _ _

/-- Torn messages are what keeps a spool from holding messages only. -/
theorem whole_iff_delivered (h : s.Explained formats start l) :
    s.Whole ↔ ∃ order, s.Delivered formats start order := by
  obtain ⟨done, hnodup, hdone, hcontents⟩ := h.accounts
  have hmem : ∀ i, i ∈ done.filter (fun i => s.writtenAt i ≠ []) ↔
      s.writtenAt i ≠ [] ∧ s.file.holder ≠ some (.task i) := by
    intro i
    rw [List.mem_filter, hdone i, decide_eq_true_eq]
    constructor
    · rintro ⟨⟨-, hfree⟩, hne⟩
      exact ⟨hne, hfree⟩
    · rintro ⟨hne, hfree⟩
      obtain ⟨c, hc, hsig, -⟩ := signalled_of_written h hne
      exact ⟨⟨⟨c, hc, hsig⟩, hfree⟩, hne⟩
  constructor
  · intro hwhole
    have hcalls : ∀ i ∈ done, ∃ c, s.calls i = some c ∧ c.Sound formats ∧ c.signalled = true ∧
        (c.written = [] ∨ c.rest = []) := by
      intro i hi
      obtain ⟨⟨c, hc, hsig⟩, hfree⟩ := (hdone i).mp hi
      exact ⟨c, hc, h.sound i c hc, hsig, hwhole i c hc hfree⟩
    refine ⟨done.filter fun i => s.writtenAt i ≠ [], hnodup.filter _, hmem, ?_⟩
    rw [hcontents, flatMap_writtenAt hcalls]
  · rintro ⟨order, hdelivered⟩ i c hc hfree
    refine Classical.byContradiction fun htorn => ?_
    obtain ⟨hwritten, hrest⟩ := not_or.mp htorn
    have hi : i ∈ order := (hdelivered.mem i).mpr ⟨by rwa [writtenAt_of_eq_some hc], hfree⟩
    have hperm : (done.filter fun i => s.writtenAt i ≠ []).Perm order := by
      rw [List.perm_ext_iff_of_nodup (hnodup.filter _) hdelivered.nodup]
      exact fun j => (hmem j).trans (hdelivered.mem j).symm
    -- Each call wrote at most its message, and this one less; but the sums agree.
    have hlt := written_lt_messages h (fun j hj => ((hdelivered.mem j).mp hj).1) hi hc hrest
    have heq := hcontents.symm.trans hdelivered.contents
    rw [List.append_left_inj, List.append_right_inj, ← flatMap_filter_ne_nil] at heq
    have hlength := (hperm.flatMap_right s.writtenAt).length_eq
    rw [heq] at hlength
    exact absurd hlength (Nat.ne_of_gt hlt)

theorem Spool.Delivered.readsBack {before : Text} {order : List Nat}
    (h : s.Delivered formats (before.flatMap String.utf8EncodeChar) order)
    (hdate : ∀ t, '\n' ∉ formats.formatFromLineDate t) (hend : before.getLast?.getD '\n' = '\n') :
    s.ReadsBack formats before order := by
  intro hfree
  have hunfinished : s.unfinished = [] := by
    unfold Spool.unfinished
    split
    · next i hi => exact absurd hi (hfree i)
    · rfl
  obtain ⟨rs, hrecords, hrs⟩ := exists_records_append hdate hend (order.filterMap s.messageAt)
  refine ⟨rs, ?_, hrs⟩
  rw [h.contents, hunfinished, List.append_nil, ← hrecords, ← readSpool_utf8, List.flatMap_append,
    List.flatMap_assoc]
  rfl

end

section

variable {hb : Registry} {rfc3339 : DateTime → String} {formats : DateFormats}
  {start : List UInt8} {s t : Spool}

theorem untorn_task {i : Nat} {a : TaskAction} (h : ∀ e, a ≠ .fail e) : Untorn s (.task i a) := by
  cases a with
  | fail e => exact absurd rfl (h e)
  | openSpool | lock | write | sync | abort => trivial

theorem whole_put {i : Nat} {c : Call} {f : SpoolFile} (hwhole : s.Whole)
    (hothers : ∀ j, j ≠ i → f.holder ≠ some (.task j) → s.file.holder ≠ some (.task j))
    (hc : f.holder ≠ some (.task i) → c.written = [] ∨ c.rest = []) :
    { s with file := f, calls := s.put i c }.Whole := by
  intro j c₀ hj hfree
  rcases put_eq_some.mp hj with ⟨rfl, rfl⟩ | ⟨hne, hj⟩
  · exact hc hfree
  · exact hwhole j c₀ hj (hothers j hne.symm hfree)

theorem whole_step {a : SpoolAction} (h : ∃ l, s.Explained formats start l) (hwhole : s.Whole)
    (hstep : s.step hb rfc3339 formats a = some t) : t.Whole ↔ Untorn s a := by
  obtain ⟨l, h⟩ := h
  cases a with
  | begin i n ctx summary isCancelled now =>
    obtain ⟨-, rfl⟩ := Transition.guard_eq_some.mp hstep
    obtain ⟨hsound, hsignalled, -⟩ :=
      sound_start hb rfc3339 formats n ctx summary isCancelled now
    refine iff_of_true (whole_put (f := s.file) hwhole (fun _ _ hj => hj) fun _ => ?_) trivial
    exact .inl (hsound.unsignalled hsignalled).1
  | task i a =>
    obtain ⟨c, hc, hstep⟩ := Option.bind_eq_some_iff.mp hstep
    obtain ⟨⟨c', f'⟩, htask, rfl⟩ := Option.map_eq_some_iff.mp hstep
    have hsound : c.Sound formats := h.sound i c hc
    cases stepTask_cases htask with
    | quiet _ task hearly hlate ha =>
      refine iff_of_true (whole_put (f := s.file) hwhole (fun _ _ hj => hj) fun _ => ?_)
        (untorn_task ha)
      exact .inl (hsound.unsignalled (hsound.unsignalled_of_early hearly)).1
    | lock hlocking hfree =>
      refine iff_of_true (whole_put hwhole (fun j _ _ hj => ?_) fun hne => absurd rfl hne) trivial
      rw [hfree] at hj
      cases hj
    | write n hwriting hpos hle =>
      have hheld : s.file.holder = some (.task i) := (h.writing i).mpr ⟨c, hc, hwriting⟩
      exact iff_of_true (whole_put hwhole (fun j _ hj => hj) fun hne => absurd hheld hne) trivial
    | finish _ r hwriting hr ha =>
      have hheld : s.file.holder = some (.task i) := (h.writing i).mpr ⟨c, hc, hwriting⟩
      constructor
      · intro hw
        have hcut : c.written = [] ∨ c.rest = [] :=
          hw i { c with task := .closed r } (put_eq_some.mpr (.inl ⟨rfl, rfl⟩))
            fun hj => by cases hj
        cases a with
        | fail e =>
          intro c₀ hc₀
          obtain rfl := Option.some.inj (hc.symm.trans hc₀)
          exact hcut.resolve_right (ha.mp ⟨e, rfl⟩)
        | openSpool | lock | write | sync | abort => trivial
      · intro huntorn
        refine whole_put hwhole (fun j hne _ hj => ?_) fun _ => ?_
        · rw [hheld] at hj
          cases hj
          exact hne rfl
        · rcases eq_or_ne c.rest [] with hrest | hrest
          · exact .inr hrest
          · obtain ⟨e, rfl⟩ := ha.mpr hrest
            exact .inl (huntorn c hc)
  | call i a =>
    obtain ⟨c, hc, hstep⟩ := Option.bind_eq_some_iff.mp hstep
    obtain ⟨c', hcall, rfl⟩ := Option.map_eq_some_iff.mp hstep
    obtain ⟨pc, isCancelled, rfl⟩ := stepCall_frame hcall
    exact iff_of_true (whole_put (f := s.file) hwhole (fun _ _ hj => hj) (hwhole i c hc))
      trivial
  | lockElsewhere =>
    obtain ⟨hfree, rfl⟩ := Transition.guard_eq_some.mp hstep
    refine iff_of_true (fun j c hc _ => hwhole j c hc fun hj => ?_) trivial
    rw [hfree] at hj
    cases hj
  | unlockElsewhere =>
    obtain ⟨hheld, rfl⟩ := Transition.guard_eq_some.mp hstep
    refine iff_of_true (fun j c hc _ => hwhole j c hc fun hj => ?_) trivial
    rw [hheld] at hj
    cases hj
  | crash =>
    cases hstep
    have hfree : ∀ j, s.file.crashed.holder ≠ some (.task j) := by
      intro j
      simp only [SpoolFile.crashed]
      split <;> simp
    constructor
    · intro hw i c hheld hc
      exact hw i c.crashed (by simp [hc]) (hfree i)
    · intro huntorn i c' hc' _
      obtain ⟨c, hc, rfl⟩ := Option.map_eq_some_iff.mp hc'
      rcases eq_or_ne s.file.holder (some (.task i)) with hheld | hheld
      · exact huntorn i c hheld hc
      · exact hwhole i c hc hheld

def opsNotifier : LocalMailNotifier :=
  ⟨"mail-ops", "ops", "host", [.runComplete], ⟨some "", some ""⟩, "/var/mail", rfl⟩

/-- Every template renders to nothing. -/
def blankTemplates : Registry where
  compile _ := .ok []
  named _ e := e
  render _ _ := .ok ""

def opsCall : List SpoolAction :=
  [.begin 0 opsNotifier blankContext ⟨emptyRunSummary 0, []⟩ false 0, .task 0 (.openSpool none)]

def opsRun (as : List SpoolAction) : Option Spool :=
  Transition.run (Spool.step blankTemplates toString epochFormats)
    (Spool.initial "/var/mail/ops" (([] : Text).flatMap String.utf8EncodeChar)) (opsCall ++ as)

/-- Along every run, whatever calls and other programs do at the same time, the spool keeps
to whole messages, each readable and in the order of the lock, exactly if no call is cut
short between its first and its last byte. -/
theorem spool_whole_iff {path : String} {before : Text} {as : List SpoolAction}
    (hdate : ∀ t, '\n' ∉ formats.formatFromLineDate t) (hend : before.getLast?.getD '\n' = '\n')
    (hrun : Transition.run (Spool.step hb rfc3339 formats)
      (Spool.initial path (before.flatMap String.utf8EncodeChar)) as = some t) :
    (∀ pre m, pre <+: as → Transition.run (Spool.step hb rfc3339 formats)
        (Spool.initial path (before.flatMap String.utf8EncodeChar)) pre = some m →
      ∃ order, m.Delivered formats (before.flatMap String.utf8EncodeChar) order ∧
        m.ReadsBack formats before order) ↔
    Transition.Along (Spool.step hb rfc3339 formats) Untorn
      (Spool.initial path (before.flatMap String.utf8EncodeChar)) as := by
  have hwhole : (Spool.initial path (before.flatMap String.utf8EncodeChar)).Whole := by
    intro i c hc
    cases hc
  rw [← Transition.always_iff_along (P := Spool.Whole) (fun _ _ _ h hs => explained_step h hs)
    (fun _ _ _ h hw hs => whole_step h hw hs) ⟨_, explained_initial path _⟩ hwhole hrun]
  refine forall_congr' fun pre => forall_congr' fun m => imp_congr_right fun _ =>
    imp_congr_right fun hm => ?_
  obtain ⟨l, h⟩ := explained_run hm
  rw [whole_iff_delivered h]
  constructor
  · rintro ⟨order, hdelivered, -⟩
    exact ⟨order, hdelivered⟩
  · rintro ⟨order, hdelivered⟩
    exact ⟨order, hdelivered, hdelivered.readsBack hdate hend⟩

def opsDelivery : List SpoolAction :=
  [.task 0 (.lock none), .task 0 (.write 100), .task 0 (.write 72), .task 0 (.sync none)]

/-- One mail, written in two pieces into an empty spool. -/
theorem ops_mail_delivered : ∃ t order, opsRun opsDelivery = some t ∧
    t.Delivered epochFormats [] order ∧ t.ReadsBack epochFormats [] order := by
  have hdate : '\n' ∉ "Thu Jan  1 00:00:00 1970".toList := by decide
  obtain ⟨t, ht⟩ := Option.isSome_iff_exists.mp
    (show (opsRun opsDelivery).isSome = true by decide +kernel)
  have huntorn : Transition.Along (Spool.step blankTemplates toString epochFormats) Untorn
      (Spool.initial "/var/mail/ops" (([] : Text).flatMap String.utf8EncodeChar))
      (opsCall ++ opsDelivery) := by
    refine Transition.along_of_forall ?_
    simp [opsCall, opsDelivery, Untorn]
  obtain ⟨order, hdelivered, hreads⟩ := (spool_whole_iff (fun _ => hdate) rfl ht).mpr huntorn
    (opsCall ++ opsDelivery) t List.prefix_rfl ht
  exact ⟨t, order, ht, hdelivered, hreads⟩

/-! ## What an outcome promises -/

def Call.Live (c : Call) : Prop := c.task = .opening ∨ c.task = .locking ∨ c.task = .writing

end

end Gcit.Mail
