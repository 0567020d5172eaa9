import Mathlib.Data.List.Basic

/-! # Bounded multi-producer channels

The buffer never exceeds the capacity because the bound is a field. A send is
refused while the buffer is full (the sender then waits) and fails once the
receiver is gone; receiving takes the oldest message.
-/

namespace Gcit.Library.Channel

universe u

variable {α : Type u} {cap : Nat}

structure Mpsc (α : Type u) (cap : Nat) where
  queue : List α
  open_ : Bool
  bounded : queue.length ≤ cap
  deriving DecidableEq

namespace Mpsc

def empty (α : Type u) (cap : Nat) : Mpsc α cap := ⟨[], true, Nat.zero_le _⟩

def send? (c : Mpsc α cap) (m : α) : Option (Mpsc α cap) :=
  if h : c.open_ = true ∧ c.queue.length < cap then
    some ⟨c.queue ++ [m], true, by simpa using Nat.succ_le_of_lt h.2⟩
  else none

def takeMany (c : Mpsc α cap) (n : Nat) : List α × Mpsc α cap :=
  (c.queue.take n, ⟨c.queue.drop n, c.open_, by
    have := c.bounded
    simp only [List.length_drop]
    omega⟩)

def recv? (c : Mpsc α cap) : Option (α × Mpsc α cap) :=
  match h : c.queue with
  | [] => none
  | m :: rest => some (m, ⟨rest, c.open_, by
      have := c.bounded
      rw [h, List.length_cons] at this
      omega⟩)

/-- Dropping the receiver discards what is still buffered. -/
def dropReceiver (_ : Mpsc α cap) : Mpsc α cap := ⟨[], false, Nat.zero_le _⟩

@[simp] theorem dropReceiver_queue (c : Mpsc α cap) : c.dropReceiver.queue = [] := rfl
@[simp] theorem dropReceiver_open (c : Mpsc α cap) : c.dropReceiver.open_ = false := rfl

theorem send?_eq_some {c d : Mpsc α cap} {m : α} (h : c.send? m = some d) :
    c.open_ = true ∧ d.open_ = true ∧ d.queue = c.queue ++ [m] := by
  unfold send? at h
  split at h
  · rename_i hc
    cases h
    exact ⟨hc.1, rfl, rfl⟩
  · cases h

theorem recv?_eq_some {c d : Mpsc α cap} {m : α} (h : c.recv? = some (m, d)) :
    c.queue = m :: d.queue ∧ d.open_ = c.open_ := by
  unfold recv? at h
  split at h
  · cases h
  · rename_i hq
    cases h
    exact ⟨hq, rfl⟩

theorem takeMany_append (c : Mpsc α cap) (n : Nat) :
    (c.takeMany n).1 ++ (c.takeMany n).2.queue = c.queue :=
  List.take_append_drop n c.queue

end Mpsc

end Gcit.Library.Channel
