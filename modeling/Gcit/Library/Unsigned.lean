import Mathlib.Data.List.Basic

/-! # Reading unsigned numerals

A numeral is read digit by digit into a type with a bound, and fails at the first character
that is no digit or takes the value over the bound, whichever comes first. A plus sign may
stand in front.
-/

namespace Gcit.Library.Unsigned

inductive IntErrorKind where
  | empty
  | invalidDigit
  | posOverflow
  deriving DecidableEq

def IntErrorKind.display : IntErrorKind → String
  | .empty => "cannot parse integer from empty string"
  | .invalidDigit => "invalid digit found in string"
  | .posOverflow => "number too large to fit in target type"

def readDigits (bound : Nat) : Nat → List Char → Except IntErrorKind Nat
  | value, [] => .ok value
  | value, c :: cs =>
    if c.isDigit then
      let value := 10 * value + (c.toNat - '0'.toNat)
      if value < bound then readDigits bound value cs else .error .posOverflow
    else .error .invalidDigit

def fromStr (bound : Nat) : List Char → Except IntErrorKind Nat
  | [] => .error .empty
  | ['+'] => .error .invalidDigit
  | '+' :: cs => readDigits bound 0 cs
  | cs => readDigits bound 0 cs

variable {bound value n : Nat} {cs : List Char}

theorem le_ofDigitChars (value : Nat) (cs : List Char) : value ≤ Nat.ofDigitChars 10 cs value := by
  induction cs generalizing value with
  | nil => exact Nat.le_of_eq Nat.ofDigitChars_nil.symm
  | cons c cs ih =>
    rw [Nat.ofDigitChars_cons]
    have hnext := ih (10 * value + (c.toNat - '0'.toNat))
    omega

theorem readDigits_eq_ok (hvalue : value < bound) :
    readDigits bound value cs = .ok n ↔
      (∀ c ∈ cs, c.isDigit) ∧ Nat.ofDigitChars 10 cs value = n ∧ n < bound := by
  induction cs generalizing value with
  | nil =>
    rw [readDigits, Nat.ofDigitChars_nil, Except.ok.injEq]
    constructor
    · rintro rfl
      exact ⟨fun c hc => absurd hc List.not_mem_nil, rfl, hvalue⟩
    · exact fun h => h.2.1
  | cons c cs ih =>
    rw [readDigits, Nat.ofDigitChars_cons, List.forall_mem_cons]
    cases hdigit : c.isDigit with
    | false => simp
    | true =>
      rcases Nat.lt_or_ge (10 * value + (c.toNat - '0'.toNat)) bound with hlt | hge
      · rw [if_pos rfl, if_pos hlt, ih hlt]
        exact and_congr_left fun _ => ⟨fun h => ⟨rfl, h⟩, fun h => h.2⟩
      · rw [if_pos rfl, if_neg (Nat.not_lt.mpr hge)]
        have hle := le_ofDigitChars (10 * value + (c.toNat - '0'.toNat)) cs
        refine iff_of_false (fun h => nomatch h) fun ⟨_, hn, hlt⟩ => ?_
        omega

/-- The numerals of `n`: its digits with any number of zeros, or a plus sign, before them. -/
def Numeral (cs : List Char) (n : Nat) : Prop :=
  ∃ digits, (cs = digits ∨ cs = '+' :: digits) ∧ digits ≠ [] ∧ (∀ c ∈ digits, c.isDigit) ∧
    Nat.ofDigitChars 10 digits 0 = n

theorem fromStr_digits (bound : Nat) (hcs : cs ≠ []) (hdigits : ∀ c ∈ cs, c.isDigit) :
    fromStr bound cs = readDigits bound 0 cs ∧ fromStr bound ('+' :: cs) = readDigits bound 0 cs := by
  obtain ⟨c, rest, rfl⟩ := List.exists_cons_of_ne_nil hcs
  have hc : c ≠ '+' := by
    rintro rfl
    exact absurd (hdigits '+' List.mem_cons_self) (by decide)
  constructor
  · rw [fromStr.eq_4]
    · exact List.cons_ne_nil c rest
    · exact fun h => hc (List.cons.inj h).1
    · exact fun cs h => hc (List.cons.inj h).1
  · rw [fromStr.eq_3]
    exact List.cons_ne_nil c rest

theorem fromStr_eq_ok (hbound : 0 < bound) :
    fromStr bound cs = .ok n ↔ Numeral cs n ∧ n < bound := by
  constructor
  · intro h
    unfold fromStr at h
    split at h
    case h_1 => cases h
    case h_2 => cases h
    case h_3 digits hne =>
      obtain ⟨hdigits, hn, hlt⟩ := (readDigits_eq_ok hbound).mp h
      exact ⟨⟨digits, .inr rfl, fun h => hne h, hdigits, hn⟩, hlt⟩
    case h_4 hne _ _ =>
      obtain ⟨hdigits, hn, hlt⟩ := (readDigits_eq_ok hbound).mp h
      exact ⟨⟨cs, .inl rfl, fun h => hne h, hdigits, hn⟩, hlt⟩
  · rintro ⟨⟨digits, hcs, hne, hdigits, hn⟩, hlt⟩
    obtain ⟨hplain, hplus⟩ := fromStr_digits bound hne hdigits
    have hread := (readDigits_eq_ok hbound).mpr ⟨hdigits, hn, hlt⟩
    obtain rfl | rfl := hcs
    · exact hplain.trans hread
    · exact hplus.trans hread

theorem numeral_toDigits (n : Nat) : Numeral (Nat.toDigits 10 n) n :=
  ⟨_, .inl rfl, Nat.toDigits_ne_nil, fun _ hc => Nat.isDigit_of_mem_toDigits (by decide) (by decide) hc,
    Nat.ofDigitChars_ten_toDigits⟩

end Gcit.Library.Unsigned
