import Mathlib.Algebra.GroupWithZero.Nat
import Mathlib.Data.List.Basic

/-! # Git object ids and their hexadecimal text

The build enables only the SHA-1 kind, so an id is twenty bytes, kept here as
its forty half-bytes. The state file stores the text; the supervisor reads it
back when it seeds a poll loop, so decoding must undo encoding.
-/

namespace Gcit.Git

instance neZeroSixteen : NeZero 16 := ⟨by decide⟩

def hexDigit (n : Fin 16) : Char :=
  match n.val with
  | 0 => '0' | 1 => '1' | 2 => '2' | 3 => '3' | 4 => '4' | 5 => '5' | 6 => '6' | 7 => '7'
  | 8 => '8' | 9 => '9' | 10 => 'a' | 11 => 'b' | 12 => 'c' | 13 => 'd' | 14 => 'e' | _ => 'f'

/-- Both letter cases decode. -/
def hexValue (c : Char) : Option (Fin 16) :=
  if '0' ≤ c ∧ c ≤ '9' then some (Fin.ofNat 16 (c.toNat - '0'.toNat))
  else if 'a' ≤ c ∧ c ≤ 'f' then some (Fin.ofNat 16 (c.toNat - 'a'.toNat + 10))
  else if 'A' ≤ c ∧ c ≤ 'F' then some (Fin.ofNat 16 (c.toNat - 'A'.toNat + 10))
  else none

theorem hexValue_hexDigit (n : Fin 16) : hexValue (hexDigit n) = some n := by
  revert n
  decide

structure ObjectId where
  nibbles : List (Fin 16)
  size : nibbles.length = 40
  deriving DecidableEq

namespace ObjectId

def toHex (id : ObjectId) : String := String.ofList (id.nibbles.map hexDigit)

def fromHex (hex : String) : Option ObjectId :=
  match hex.toList.mapM hexValue with
  | none => none
  | some nibbles => if h : nibbles.length = 40 then some ⟨nibbles, h⟩ else none

theorem mapM_hexValue (ns : List (Fin 16)) : (ns.map hexDigit).mapM hexValue = some ns := by
  induction ns with
  | nil => rfl
  | cons n ns ih => simp [hexValue_hexDigit, ih]

theorem fromHex_toHex (id : ObjectId) : fromHex id.toHex = some id := by
  unfold fromHex toHex
  rw [String.toList_ofList, mapM_hexValue]
  exact dif_pos id.size

def repeated (n : Fin 16) : ObjectId := ⟨List.replicate 40 n, by simp⟩

end ObjectId

end Gcit.Git
