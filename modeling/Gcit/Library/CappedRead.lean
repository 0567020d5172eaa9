import Mathlib.Data.List.Induction
import Gcit.Library.Tape

/-! # Reading a stream up to a limit

A stream comes in pieces, and how it is cut up is not the reader's choice. The reader
counts what it took, and gives up at the piece that takes the count past the limit. The
counter stops at a top above the limit, so a piece of any length is counted.
-/

namespace Gcit.Library.CappedRead

open Gcit.Library

universe u v

variable {α : Type u} {ε : Type v}

inductive Piece (α : Type u) (ε : Type v) where
  | chunk (data : List α)
  | failed (e : ε)
  | ended

inductive Outcome (α : Type u) (ε : Type v) where
  | whole (data : List α)
  | overLimit
  | broken (e : ε)

structure Buffer (α : Type u) where
  data : List α
  total : Nat

/-- A buffer whose count is right. -/
def Buffer.holding (data : List α) : Buffer α := ⟨data, data.length⟩

def chunked (chunks : List (List α)) : List (Piece α ε) := chunks.map .chunk

def round (top limit : Nat) (s : Buffer α) : Piece α ε → Outcome α ε ⊕ Buffer α
  | .ended => .inl (.whole s.data)
  | .failed e => .inl (.broken e)
  | .chunk data =>
    let total := min (s.total + data.length) top
    if limit < total then .inl .overLimit else .inr ⟨s.data ++ data, total⟩

def read (top limit : Nat) (pieces : List (Piece α ε)) : Option (Outcome α ε) :=
  Tape.play (round top limit) (.holding []) pieces

variable {top limit : Nat} {pieces : List (Piece α ε)} {held data : List α} {t : Buffer α}
  (htop : limit < top)

include htop

theorem round_chunk : round top limit (.holding held) (.chunk data : Piece α ε) =
    if limit < (held ++ data).length then .inl .overLimit else .inr (.holding (held ++ data)) := by
  have hlength : (held ++ data).length = held.length + data.length := List.length_append
  rcases Nat.lt_or_ge limit (held.length + data.length) with hlt | hge
  · have hmin : limit < min (held.length + data.length) top := by omega
    rw [if_pos (hlength ▸ hlt)]
    exact if_pos hmin
  · have hmin : min (held.length + data.length) top = (held ++ data).length := by omega
    have hfits : ¬limit < min (held.length + data.length) top := by omega
    rw [if_neg (hlength ▸ Nat.not_lt.mpr hge), Buffer.holding, Buffer.holding, ← hmin]
    exact if_neg hfits

/-- While the loop goes on, it holds what it took, whole and within the limit. -/
theorem goesOn_iff (hheld : held.length ≤ limit) :
    Tape.goesOn (round top limit) (.holding held) pieces = some t ↔ ∃ chunks,
      pieces = chunked chunks ∧ t = .holding (held ++ chunks.flatten) ∧
        (held ++ chunks.flatten).length ≤ limit := by
  induction pieces generalizing held with
  | nil =>
    constructor
    · intro h
      obtain rfl := Option.some.inj h
      refine ⟨[], rfl, ?_⟩
      rw [List.flatten_nil, List.append_nil]
      exact ⟨rfl, hheld⟩
    · rintro ⟨chunks, hchunks, rfl, -⟩
      obtain rfl := List.map_eq_nil_iff.mp hchunks.symm
      rw [List.flatten_nil, List.append_nil]
      rfl
  | cons piece pieces ih =>
    rw [Tape.goesOn_cons_eq_some]
    constructor
    · rintro ⟨m, hround, hrest⟩
      cases piece with
      | ended => cases hround
      | failed e => cases hround
      | chunk data =>
        rw [round_chunk htop] at hround
        split at hround
        case isTrue => cases hround
        case isFalse hge =>
          obtain rfl := Sum.inr.inj hround
          obtain ⟨chunks, rfl, ht, hle⟩ := (ih (Nat.not_lt.mp hge)).mp hrest
          rw [List.append_assoc] at ht hle
          exact ⟨data :: chunks, rfl, ht, hle⟩
    · rintro ⟨chunks, hchunks, ht, hle⟩
      obtain ⟨data, chunks, rfl, rfl, rfl⟩ := List.map_eq_cons_iff.mp hchunks.symm
      rw [List.flatten_cons, ← List.append_assoc] at ht hle
      have hdata : (held ++ data).length ≤ limit := by
        rw [List.length_append] at hle
        omega
      refine ⟨.holding (held ++ data), ?_, (ih hdata).mpr ⟨chunks, rfl, ht, hle⟩⟩
      rw [round_chunk htop, if_neg (Nat.not_lt.mpr hdata)]

theorem goesOn_read_iff :
    Tape.goesOn (round top limit) (.holding []) pieces = some t ↔ ∃ chunks,
      pieces = chunked chunks ∧ t = .holding chunks.flatten ∧ chunks.flatten.length ≤ limit := by
  have hempty : ([] : List α).length ≤ limit := Nat.zero_le limit
  simpa using goesOn_iff htop hempty

/-! What comes of a stream depends on what the pieces join up to, and where they end. -/

theorem read_eq_some {outcome : Outcome α ε} :
    read top limit pieces = some outcome ↔ ∃ chunks piece rest,
      pieces = chunked chunks ++ piece :: rest ∧ chunks.flatten.length ≤ limit ∧
        round top limit (.holding chunks.flatten) piece = .inl outcome := by
  rw [read, Tape.play_eq_some]
  constructor
  · rintro ⟨pre, piece, rest, t, rfl, hpre, hstop⟩
    obtain ⟨chunks, rfl, rfl, hle⟩ := (goesOn_read_iff htop).mp hpre
    exact ⟨chunks, piece, rest, rfl, hle, hstop⟩
  · rintro ⟨chunks, piece, rest, rfl, hle, hstop⟩
    exact ⟨_, piece, rest, _, rfl, (goesOn_read_iff htop).mpr ⟨chunks, rfl, rfl, hle⟩, hstop⟩

theorem read_whole_iff :
    read top limit pieces = some (.whole data) ↔ ∃ chunks rest,
      pieces = chunked chunks ++ .ended :: rest ∧ chunks.flatten = data ∧ data.length ≤ limit := by
  rw [read_eq_some htop]
  constructor
  · rintro ⟨chunks, piece, rest, rfl, hle, hstop⟩
    cases piece with
    | ended =>
      cases hstop
      exact ⟨chunks, rest, rfl, rfl, hle⟩
    | failed e => cases hstop
    | chunk more =>
      rw [round_chunk htop] at hstop
      split at hstop <;> cases hstop
  · rintro ⟨chunks, rest, rfl, rfl, hle⟩
    exact ⟨chunks, .ended, rest, rfl, hle, rfl⟩

theorem read_broken_iff {e : ε} :
    read top limit pieces = some (.broken e) ↔ ∃ chunks rest,
      pieces = chunked chunks ++ .failed e :: rest ∧ chunks.flatten.length ≤ limit := by
  rw [read_eq_some htop]
  constructor
  · rintro ⟨chunks, piece, rest, rfl, hle, hstop⟩
    cases piece with
    | ended => cases hstop
    | failed e =>
      cases hstop
      exact ⟨chunks, rest, rfl, hle⟩
    | chunk more =>
      rw [round_chunk htop] at hstop
      split at hstop <;> cases hstop
  · rintro ⟨chunks, rest, rfl, hle⟩
    exact ⟨chunks, .failed e, rest, rfl, hle, rfl⟩

theorem read_none_iff :
    read top limit pieces = none ↔ ∃ chunks, pieces = chunked chunks ∧
      chunks.flatten.length ≤ limit := by
  rw [read, Tape.play_eq_none]
  constructor
  · rintro ⟨t, hgoes⟩
    obtain ⟨chunks, hchunks, -, hle⟩ := (goesOn_read_iff htop).mp hgoes
    exact ⟨chunks, hchunks, hle⟩
  · rintro ⟨chunks, hchunks, hle⟩
    exact ⟨_, (goesOn_read_iff htop).mpr ⟨chunks, hchunks, rfl, hle⟩⟩

end Gcit.Library.CappedRead
