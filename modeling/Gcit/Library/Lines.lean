import Mathlib.Data.List.SplitBy

/-! # Texts made of terminated lines

A text is a list over any alphabet with one letter that ends a line. A text whose
last line is not ended has that rest behind its lines. Splitting a list of lines
at those with a property gives the lists that were put together, if each began
with such a line and went on without one.
-/

namespace Gcit.Library.Lines

universe u

variable {α : Type u}

def unlines (sep : α) (ls : List (List α)) : List α := ls.flatMap fun l => l ++ [sep]

@[simp] theorem unlines_nil (sep : α) : unlines sep [] = [] := rfl

@[simp] theorem unlines_cons (sep : α) (l : List α) (ls : List (List α)) :
    unlines sep (l :: ls) = l ++ sep :: unlines sep ls := by
  simp [unlines]

theorem unlines_append (sep : α) (ls ms : List (List α)) :
    unlines sep (ls ++ ms) = unlines sep ls ++ unlines sep ms := List.flatMap_append

theorem intercalate_concat (sep : α) (ls : List (List α)) (last : List α) :
    [sep].intercalate (ls ++ [last]) = unlines sep ls ++ last := by
  induction ls with
  | nil => simp [List.intercalate]
  | cons l ls ih =>
    obtain ⟨m, ms, hms⟩ := List.exists_cons_of_ne_nil (l := ls ++ [last]) (by simp)
    rw [hms] at ih
    have hstep : [sep].intercalate (l :: m :: ms) = l ++ sep :: [sep].intercalate (m :: ms) := by
      simp [List.intercalate]
    rw [List.cons_append, hms, hstep, ih, unlines_cons, List.append_assoc, List.cons_append]

variable [DecidableEq α] {sep : α}

def terminatedLines (sep : α) (text : List α) : List (List α) := (text.splitOn sep).dropLast

def withNewline (sep : α) (text : List α) : List α :=
  if text.getLast?.getD sep = sep then text else text ++ [sep]

theorem withNewline_of_ne_nil {text : List α} (h : text ≠ []) :
    (if text.getLast? = some sep then text else text ++ [sep]) = withNewline sep text := by
  obtain ⟨l, c, rfl⟩ := text.eq_nil_or_concat.resolve_left h
  simp [withNewline]

theorem splitOn_of_not_mem {l : List α} (h : sep ∉ l) : l.splitOn sep = [l] := by
  rw [List.splitOn_eq_splitOnP]
  apply List.splitOnP_eq_singleton
  intro x hx
  simp only [beq_eq_false_iff_ne]
  rintro rfl
  exact h hx

theorem splitOn_append_cons {l : List α} (h : sep ∉ l) (text : List α) :
    (l ++ sep :: text).splitOn sep = l :: text.splitOn sep := by
  have hsep : (sep == sep) = true := beq_self_eq_true sep
  have hsplit := List.splitOnP_append_cons (p := (· == sep)) l text hsep
  rw [← List.splitOn_eq_splitOnP, ← List.splitOn_eq_splitOnP, ← List.splitOn_eq_splitOnP,
    splitOn_of_not_mem h] at hsplit
  exact hsplit

theorem splitOn_eq_pair_iff {text a b : List α} :
    text.splitOn sep = [a, b] ↔ text = a ++ sep :: b ∧ sep ∉ a ∧ sep ∉ b := by
  constructor
  · intro h
    by_cases hmem : sep ∈ text
    · obtain ⟨l, rest, rfl, hl⟩ := List.eq_append_cons_of_mem hmem
      rw [splitOn_append_cons hl] at h
      obtain ⟨rfl, hrest⟩ := List.cons.inj h
      by_cases hmem' : sep ∈ rest
      · obtain ⟨m, rest', rfl, hm⟩ := List.eq_append_cons_of_mem hmem'
        rw [splitOn_append_cons hm] at hrest
        have hne : rest'.splitOn sep ≠ [] := by
          rw [List.splitOn_eq_splitOnP]
          exact List.splitOnP_ne_nil _ rest'
        exact absurd (List.cons.inj hrest).2 hne
      · rw [splitOn_of_not_mem hmem'] at hrest
        obtain rfl := (List.cons.inj hrest).1
        exact ⟨rfl, hl, hmem'⟩
    · rw [splitOn_of_not_mem hmem] at h
      cases (List.cons.inj h).2
  · rintro ⟨rfl, ha, hb⟩
    rw [splitOn_append_cons ha, splitOn_of_not_mem hb]

theorem splitOn_unlines_append {ls : List (List α)} (h : ∀ l ∈ ls, sep ∉ l) (text : List α) :
    (unlines sep ls ++ text).splitOn sep = ls ++ text.splitOn sep := by
  induction ls with
  | nil => rfl
  | cons l ls ih =>
    obtain ⟨hl, hls⟩ := List.forall_mem_cons.mp h
    rw [unlines_cons, List.append_assoc, List.cons_append, splitOn_append_cons hl, ih hls]
    rfl

theorem terminatedLines_unlines {ls : List (List α)} (h : ∀ l ∈ ls, sep ∉ l) :
    terminatedLines sep (unlines sep ls) = ls := by
  have hsplit := splitOn_unlines_append h []
  rw [List.append_nil] at hsplit
  rw [terminatedLines, hsplit, List.splitOn_nil, List.dropLast_concat]

theorem exists_lines (sep : α) (text : List α) :
    ∃ ls last, (∀ l ∈ ls, sep ∉ l) ∧ sep ∉ last ∧ text = unlines sep ls ++ last := by
  induction text with
  | nil => exact ⟨[], [], by simp⟩
  | cons c text ih =>
    obtain ⟨ls, last, hls, hlast, rfl⟩ := ih
    by_cases hc : c = sep
    · subst hc
      exact ⟨[] :: ls, last, by simpa using hls, hlast, by simp⟩
    · cases ls with
      | nil => exact ⟨[], c :: last, by simp, by simp [hlast, Ne.symm hc], by simp⟩
      | cons l ls =>
        refine ⟨(c :: l) :: ls, last, ?_, hlast, by simp⟩
        obtain ⟨hl, hls⟩ := List.forall_mem_cons.mp hls
        exact List.forall_mem_cons.mpr ⟨by simp [hl, Ne.symm hc], hls⟩

theorem splitOn_lines {ls : List (List α)} {last : List α} (hls : ∀ l ∈ ls, sep ∉ l)
    (hlast : sep ∉ last) : (unlines sep ls ++ last).splitOn sep = ls ++ [last] := by
  rw [splitOn_unlines_append hls, splitOn_of_not_mem hlast]

theorem withNewline_lines {ls : List (List α)} {last : List α} (hlast : sep ∉ last) :
    withNewline sep (unlines sep ls ++ last) =
      unlines sep (ls ++ if last = [] then [] else [last]) := by
  unfold withNewline
  rcases last.eq_nil_or_concat with rfl | ⟨l, c, rfl⟩
  · have hends : (unlines sep ls).getLast?.getD sep = sep := by
      rcases ls.eq_nil_or_concat with rfl | ⟨ms, l, rfl⟩
      · rfl
      · simp [unlines_append]
    simp [hends]
  · have hc : c ≠ sep := by
      rintro rfl
      simp at hlast
    simp [hc, unlines_append]

theorem isChain_of_forall_mem {β : Type u} {p : β → Bool} {bs : List β}
    (h : ∀ c ∈ bs, p c = false) (b : β) : (b :: bs).IsChain fun _ c => !p c := by
  induction bs generalizing b with
  | nil => exact List.isChain_singleton b
  | cons c bs ih =>
    obtain ⟨hc, hbs⟩ := List.forall_mem_cons.mp h
    exact List.isChain_cons_cons.mpr ⟨by simp [hc], ih hbs c⟩

/-- Lists that begin with their only `p` are what their concatenation is split into
at each `p`. -/
theorem splitBy_flatten_of_starts {β : Type u} {p : β → Bool} {chunks : List (List β)}
    (h : ∀ chunk ∈ chunks, ∃ b bs, chunk = b :: bs ∧ p b = true ∧ ∀ c ∈ bs, p c = false) :
    chunks.flatten.splitBy (fun _ b => !p b) = chunks := by
  induction chunks with
  | nil => rfl
  | cons chunk chunks ih =>
    obtain ⟨⟨b, bs, rfl, hb, hbs⟩, hrest⟩ := List.forall_mem_cons.mp h
    rw [List.flatten_cons, List.splitBy_append, ih hrest,
      List.splitBy_of_isChain (by simp) (isChain_of_forall_mem hbs b), List.singleton_append]
    intro x _ y hy
    cases chunks with
    | nil => simp at hy
    | cons next chunks =>
      obtain ⟨⟨c, cs, rfl, hc, -⟩, -⟩ := List.forall_mem_cons.mp hrest
      obtain rfl : c = y := by simpa using hy
      simp [hc]

end Gcit.Library.Lines
