import Mathlib.Data.Rat.Defs

/-! # JSON values

The data model of a JSON document. Objects list their members by ascending key,
which is the order of the ordered maps that documents are built from.
-/

namespace Gcit.Library

inductive Json where
  | null
  | bool (b : Bool)
  | number (q : Rat)
  | string (s : String)
  | array (items : List Json)
  | object (fields : List (String × Json))

namespace Json

mutual

def decEq : (a b : Json) → Decidable (a = b)
  | .null, .null => isTrue rfl
  | .bool a, .bool b => decidable_of_iff (a = b) (by simp)
  | .number a, .number b => decidable_of_iff (a = b) (by simp)
  | .string a, .string b => decidable_of_iff (a = b) (by simp)
  | .array as, .array bs =>
    have := decEqItems as bs
    decidable_of_iff (as = bs) (by simp)
  | .object as, .object bs =>
    have := decEqFields as bs
    decidable_of_iff (as = bs) (by simp)
  | .null, .bool _ | .null, .number _ | .null, .string _ | .null, .array _ | .null, .object _
  | .bool _, .null | .bool _, .number _ | .bool _, .string _ | .bool _, .array _
  | .bool _, .object _ | .number _, .null | .number _, .bool _ | .number _, .string _
  | .number _, .array _ | .number _, .object _ | .string _, .null | .string _, .bool _
  | .string _, .number _ | .string _, .array _ | .string _, .object _ | .array _, .null
  | .array _, .bool _ | .array _, .number _ | .array _, .string _ | .array _, .object _
  | .object _, .null | .object _, .bool _ | .object _, .number _ | .object _, .string _
  | .object _, .array _ => isFalse (by simp)

def decEqItems : (as bs : List Json) → Decidable (as = bs)
  | [], [] => isTrue rfl
  | a :: as, b :: bs =>
    have := decEq a b
    have := decEqItems as bs
    decidable_of_iff (a = b ∧ as = bs) (by simp)
  | [], _ :: _ | _ :: _, [] => isFalse (by simp)

def decEqFields : (as bs : List (String × Json)) → Decidable (as = bs)
  | [], [] => isTrue rfl
  | (k, a) :: as, (l, b) :: bs =>
    have := decEq a b
    have := decEqFields as bs
    decidable_of_iff ((k = l ∧ a = b) ∧ as = bs) (by simp)
  | [], _ :: _ | _ :: _, [] => isFalse (by simp)

end

instance : DecidableEq Json := decEq

def ofOption {α : Type} (f : α → Json) : Option α → Json
  | none => .null
  | some a => f a

theorem ofOption_injective {α : Type} {f : α → Json} (hf : Function.Injective f)
    (hnull : ∀ a, f a ≠ .null) : Function.Injective (ofOption f) := by
  intro a b h
  cases a with
  | none =>
    cases b with
    | none => rfl
    | some b => exact absurd h.symm (hnull b)
  | some a =>
    cases b with
    | none => exact absurd h (hnull a)
    | some b => exact congrArg some (hf h)

end Json

end Gcit.Library
