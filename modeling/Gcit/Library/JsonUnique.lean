import Gcit.Library.JsonText

/-! # The value behind a JSON text

Two values of one compact text are equal, provided the texts of numbers can be told
apart. What is left of a text after a value starts with a comma or a closing bracket,
so the value's own text ends where it does.
-/

namespace Gcit.Library

def hexDigitValue (c : Char) : Nat := if c.isDigit then c.toNat - 48 else c.toNat - 87

/-- One character of a quoted string read back, with what follows it. -/
def unescape : List Char → Option (Char × List Char)
  | '"' :: _ => none
  | '\\' :: '"' :: rest => some ('"', rest)
  | '\\' :: '\\' :: rest => some ('\\', rest)
  | '\\' :: 'n' :: rest => some ('\n', rest)
  | '\\' :: 'r' :: rest => some ('\r', rest)
  | '\\' :: 't' :: rest => some ('\t', rest)
  | '\\' :: 'b' :: rest => some (Char.ofNat 8, rest)
  | '\\' :: 'f' :: rest => some (Char.ofNat 12, rest)
  | '\\' :: 'u' :: '0' :: '0' :: high :: low :: rest =>
    some (Char.ofNat (16 * hexDigitValue high + hexDigitValue low), rest)
  | '\\' :: _ => none
  | c :: rest => some (c, rest)
  | [] => none

theorem hexDigitValue_digitChar : ∀ d < 16, hexDigitValue (Nat.digitChar d) = d := by decide

theorem unescape_escapeChar (c : Char) (rest : List Char) :
    unescape (escapeChar c ++ rest) = some (c, rest) := by
  unfold escapeChar
  split
  · next h =>
    subst h
    rfl
  split
  · next h =>
    subst h
    rfl
  split
  · next h =>
    subst h
    rfl
  split
  · next h =>
    subst h
    rfl
  split
  · next h =>
    subst h
    rfl
  split
  · next h =>
    have hc : Char.ofNat 8 = c := h ▸ Char.ofNat_toNat c
    exact hc ▸ rfl
  split
  · next h =>
    have hc : Char.ofNat 12 = c := h ▸ Char.ofNat_toNat c
    exact hc ▸ rfl
  split
  · next h =>
    have hhigh := hexDigitValue_digitChar (c.toNat / 16) (by omega)
    have hlow := hexDigitValue_digitChar (c.toNat % 16) (by omega)
    have hc : 16 * (c.toNat / 16) + c.toNat % 16 = c.toNat := Nat.div_add_mod _ _
    simp [unescape, hhigh, hlow, hc, Char.ofNat_toNat]
  · next hquote hslash _ _ _ _ _ _ =>
    rw [List.singleton_append, unescape]
    all_goals simp_all

theorem flatMap_escapeChar_inj {cs ds r s : List Char}
    (h : cs.flatMap escapeChar ++ '"' :: r = ds.flatMap escapeChar ++ '"' :: s) :
    cs = ds ∧ r = s := by
  induction cs generalizing ds with
  | nil =>
    cases ds with
    | nil => exact ⟨rfl, List.cons.inj h |>.2⟩
    | cons d ds =>
      have hread := congrArg unescape h
      rw [List.flatMap_cons, List.append_assoc, unescape_escapeChar] at hread
      cases hread
  | cons c cs ih =>
    have hread := congrArg unescape h
    rw [List.flatMap_cons, List.append_assoc, unescape_escapeChar] at hread
    cases ds with
    | nil => cases hread
    | cons d ds =>
      rw [List.flatMap_cons, List.append_assoc, unescape_escapeChar] at hread
      obtain ⟨rfl, hrest⟩ := Prod.mk.inj (Option.some.inj hread)
      obtain ⟨rfl, rfl⟩ := ih hrest
      exact ⟨rfl, rfl⟩

theorem quoted_inj {a b : String} {r s : List Char} (h : quoted a ++ r = quoted b ++ s) :
    a = b ∧ r = s := by
  simp only [quoted, List.cons_append, List.append_assoc, List.nil_append] at h
  obtain ⟨hchars, hrest⟩ := flatMap_escapeChar_inj (List.cons.inj h).2
  exact ⟨String.toList_injective hchars, hrest⟩

namespace Json

/-- What may come afterItem a value: the end of the text or of an item. -/
def Ends (rest : List Char) : Prop := ∀ c ∈ rest.head?, c ∈ [',', ']', '}']

/-- Numbers are told apart by their texts, which no other value's text starts like and
which stop where the number ends. -/
structure Numerals (number : Rat → List Char) : Prop where
  injective : Function.Injective number
  starts : ∀ q, ∃ c cs, number q = c :: cs ∧ (c = '-' ∨ c.isDigit)
  clear : ∀ q, ∀ c ∈ number q, c ∉ [',', ']', '}']

/-- The first character of a value that is no number. -/
def opening : Json → Option Char
  | .null => some 'n'
  | .bool true => some 't'
  | .bool false => some 'f'
  | .number _ => none
  | .string _ => some '"'
  | .array _ => some '['
  | .object _ => some '{'

def lead (cs : List Char) : Option Char := cs.head?.filter fun c => c != '-' && !c.isDigit

variable {number : Rat → List Char}

theorem lead_text (hnumber : Numerals number) (v : Json) (rest : List Char) :
    lead (text number v ++ rest) = opening v := by
  cases v with
  | null => rfl
  | bool b => cases b <;> rfl
  | number q =>
    obtain ⟨c, cs, hq, hc⟩ := hnumber.starts q
    rw [text, hq]
    rcases hc with rfl | hc
    · rfl
    · simp [lead, opening, hc]
  | string s => rfl
  | array items => rfl
  | object members => rfl

theorem number_append_inj (hnumber : Numerals number) {p q : Rat} {r s : List Char} (hr : Ends r)
    (hs : Ends s) (h : number p ++ r = number q ++ s) : p = q ∧ r = s := by
  have htake : ∀ q r, Ends r → (number q ++ r).takeWhile (· ∉ [',', ']', '}']) = number q := by
    intro q r hr
    rw [List.takeWhile_append_of_pos fun c hc => by simpa using hnumber.clear q c hc]
    cases r with
    | nil => simp
    | cons c r =>
      have hc := hr c rfl
      rw [List.takeWhile_cons_of_neg (by simpa only [decide_eq_true_eq, not_not] using hc),
        List.append_nil]
  have htext : number p = number q := by rw [← htake p r hr, h, htake q s hs]
  rw [htext] at h
  exact ⟨hnumber.injective htext, List.append_cancel_left h⟩

theorem ends_cons {c : Char} (h : c ∈ [',', ']', '}']) (rest : List Char) : Ends (c :: rest) := by
  intro d hd
  obtain rfl := Option.some.inj hd
  exact h

theorem opening_ne_bracket (v : Json) : opening v ≠ some ']' := by
  cases v with
  | bool b => cases b <;> simp [opening]
  | _ => simp [opening]

/-- What follows an item: the closing bracket, or a comma and the items left. -/
def afterItem (bracket : Char) (last : Bool) (items rest : List Char) : List Char :=
  if last then bracket :: rest else ',' :: (items ++ bracket :: rest)

theorem ends_afterItem {bracket : Char} (h : bracket ∈ [']', '}']) (last : Bool)
    (items rest : List Char) : Ends (afterItem bracket last items rest) := by
  cases last with
  | true => exact ends_cons (List.mem_cons_of_mem _ h) rest
  | false => exact ends_cons List.mem_cons_self _

theorem textItems_cons (item : Json) (items : List Json) (rest : List Char) :
    textItems number (item :: items) ++ ']' :: rest =
      text number item ++ afterItem ']' items.isEmpty (textItems number items) rest := by
  cases items with
  | nil => rfl
  | cons next items => simp [textItems, afterItem]

theorem textMembers_cons (name : String) (value : Json) (members : List (String × Json))
    (rest : List Char) :
    textMembers number ((name, value) :: members) ++ '}' :: rest = quoted name ++ ':' ::
      (text number value ++ afterItem '}' members.isEmpty (textMembers number members) rest) := by
  cases members with
  | nil => simp [textMembers, afterItem]
  | cons next members => simp [textMembers, afterItem]

mutual

theorem text_append_inj (hnumber : Numerals number) : ∀ {a b : Json} {r s : List Char}, Ends r →
    Ends s → text number a ++ r = text number b ++ s → a = b ∧ r = s
  | a, b, r, s, hr, hs, h => by
    have hopening : opening a = opening b := by
      rw [← lead_text hnumber a r, h, lead_text hnumber]
    match a, b, hopening with
    | .null, .null, _ => exact ⟨rfl, List.append_cancel_left h⟩
    | .bool true, .bool true, _ => exact ⟨rfl, List.append_cancel_left h⟩
    | .bool false, .bool false, _ => exact ⟨rfl, List.append_cancel_left h⟩
    | .number p, .number q, _ =>
      obtain ⟨rfl, rfl⟩ := number_append_inj hnumber hr hs h
      exact ⟨rfl, rfl⟩
    | .string s, .string t, _ =>
      obtain ⟨rfl, rfl⟩ := quoted_inj h
      exact ⟨rfl, rfl⟩
    | .array as, .array bs, _ =>
      simp only [text, List.cons_append, List.append_assoc, List.nil_append, List.cons.injEq,
        true_and] at h
      obtain ⟨rfl, rfl⟩ := textItems_append_inj hnumber h
      exact ⟨rfl, rfl⟩
    | .object as, .object bs, _ =>
      simp only [text, List.cons_append, List.append_assoc, List.nil_append, List.cons.injEq,
        true_and] at h
      obtain ⟨rfl, rfl⟩ := textMembers_append_inj hnumber h
      exact ⟨rfl, rfl⟩

theorem textItems_append_inj (hnumber : Numerals number) : ∀ {as bs : List Json} {r s : List Char},
    textItems number as ++ ']' :: r = textItems number bs ++ ']' :: s → as = bs ∧ r = s
  | [], [], _, _, h => ⟨rfl, (List.cons.inj h).2⟩
  | [], b :: bs, r, s, h => by
    rw [textItems_cons] at h
    have hlead := congrArg lead h
    rw [lead_text hnumber] at hlead
    exact absurd hlead.symm (opening_ne_bracket b)
  | a :: as, [], r, s, h => by
    rw [textItems_cons] at h
    have hlead := congrArg lead h
    rw [lead_text hnumber] at hlead
    exact absurd hlead (opening_ne_bracket a)
  | a :: as, b :: bs, r, s, h => by
    rw [textItems_cons, textItems_cons] at h
    obtain ⟨rfl, hrest⟩ := text_append_inj hnumber (ends_afterItem (by decide) _ _ _)
      (ends_afterItem (by decide) _ _ _) h
    match as, bs, hrest with
    | [], [], hrest => exact ⟨rfl, (List.cons.inj hrest).2⟩
    | a' :: as, b' :: bs, hrest =>
      obtain ⟨hitems, rfl⟩ := textItems_append_inj hnumber (List.cons.inj hrest).2
      exact ⟨congrArg _ hitems, rfl⟩

theorem textMembers_append_inj (hnumber : Numerals number) :
    ∀ {as bs : List (String × Json)} {r s : List Char},
    textMembers number as ++ '}' :: r = textMembers number bs ++ '}' :: s → as = bs ∧ r = s
  | [], [], _, _, h => ⟨rfl, (List.cons.inj h).2⟩
  | [], (_, _) :: _, _, _, h => by
    rw [textMembers_cons] at h
    cases h
  | (_, _) :: _, [], _, _, h => by
    rw [textMembers_cons] at h
    cases h
  | (name, value) :: as, (name', value') :: bs, r, s, h => by
    rw [textMembers_cons, textMembers_cons] at h
    obtain ⟨rfl, hvalue⟩ := quoted_inj h
    obtain ⟨rfl, hrest⟩ := text_append_inj hnumber (ends_afterItem (by decide) _ _ _)
      (ends_afterItem (by decide) _ _ _) (List.cons.inj hvalue).2
    match as, bs, hrest with
    | [], [], hrest => exact ⟨rfl, (List.cons.inj hrest).2⟩
    | a' :: as, b' :: bs, hrest =>
      obtain ⟨hitems, rfl⟩ := textMembers_append_inj hnumber (List.cons.inj hrest).2
      exact ⟨congrArg _ hitems, rfl⟩

end

/-- The compact text determines the value. -/
theorem text_injective (hnumber : Numerals number) : Function.Injective (text number) := by
  intro a b h
  have hends : Ends [] := fun c hc => by cases hc
  have happend : text number a ++ [] = text number b ++ [] := congrArg (· ++ []) h
  exact (text_append_inj hnumber hends hends happend).1

/-! ## Numbers as fractions -/

def integer : Int → List Char
  | .ofNat n => Nat.toDigits 10 n
  | .negSucc n => '-' :: Nat.toDigits 10 (n + 1)

/-- An integer by its digits, another number as a fraction. -/
def numeral (q : Rat) : List Char :=
  integer q.num ++ if q.den = 1 then [] else '/' :: Nat.toDigits 10 q.den

theorem toDigits_injective : Function.Injective (Nat.toDigits 10) := by
  intro m n h
  rw [← Nat.ofDigitChars_ten_toDigits (n := m), h, Nat.ofDigitChars_ten_toDigits]

theorem isDigit_of_mem_digits {n : Nat} {c : Char} (h : c ∈ Nat.toDigits 10 n) : c.isDigit :=
  Nat.isDigit_of_mem_toDigits (by decide) (by decide) h

theorem minus_not_mem_digits (n : Nat) : '-' ∉ Nat.toDigits 10 n :=
  fun h => absurd (isDigit_of_mem_digits h) (by decide)

theorem mem_integer {i : Int} {c : Char} (h : c ∈ integer i) : c = '-' ∨ c.isDigit := by
  cases i with
  | ofNat n => exact .inr (isDigit_of_mem_digits h)
  | negSucc n => exact (List.mem_cons.mp h).imp id isDigit_of_mem_digits

theorem mem_numeral {q : Rat} {c : Char} (h : c ∈ numeral q) : c = '-' ∨ c = '/' ∨ c.isDigit := by
  rcases List.mem_append.mp h with h | h
  · exact (mem_integer h).imp id .inr
  · split at h
    · cases h
    · rcases List.mem_cons.mp h with rfl | h
      · exact .inr (.inl rfl)
      · exact .inr (.inr (isDigit_of_mem_digits h))

theorem integer_injective : Function.Injective integer := by
  intro i j h
  cases i with
  | ofNat m =>
    cases j with
    | ofNat n => exact congrArg Int.ofNat (toDigits_injective h)
    | negSucc n =>
      have hminus : '-' ∈ integer (.ofNat m) := h ▸ List.mem_cons_self
      exact absurd hminus (minus_not_mem_digits m)
  | negSucc m =>
    cases j with
    | ofNat n =>
      have hminus : '-' ∈ integer (.ofNat n) := h ▸ List.mem_cons_self
      exact absurd hminus (minus_not_mem_digits n)
    | negSucc n =>
      have hdigits := toDigits_injective (List.cons.inj h).2
      exact congrArg Int.negSucc (Nat.succ.inj hdigits)

theorem takeWhile_numeral (q : Rat) : (numeral q).takeWhile (· ≠ '/') = integer q.num := by
  have hinteger : ∀ c ∈ integer q.num, decide (c ≠ '/') = true := by
    intro c hc
    rcases mem_integer hc with rfl | hdigit
    · decide
    · apply decide_eq_true
      intro h
      rw [h] at hdigit
      cases hdigit
  rw [numeral, List.takeWhile_append_of_pos hinteger]
  split <;> simp

theorem numeral_injective : Function.Injective numeral := by
  intro p q h
  have hinteger : integer p.num = integer q.num := by
    rw [← takeWhile_numeral p, h, takeWhile_numeral]
  have hnum := integer_injective hinteger
  rw [numeral, numeral, hinteger] at h
  have hden := List.append_cancel_left h
  apply Rat.ext hnum
  split at hden <;> split at hden
  · next hp hq => rw [hp, hq]
  · cases hden
  · cases hden
  · exact toDigits_injective (List.cons.inj hden).2

theorem numerals_numeral : Numerals numeral where
  injective := numeral_injective
  starts q := by
    have hne : integer q.num ≠ [] := by
      cases q.num with
      | ofNat n => exact Nat.toDigits_ne_nil
      | negSucc n => exact List.cons_ne_nil _ _
    obtain ⟨c, cs, hcs⟩ := List.exists_cons_of_ne_nil hne
    refine ⟨c, _, by rw [numeral, hcs, List.cons_append], mem_integer (hcs ▸ List.mem_cons_self)⟩
  clear q c hc := by
    rcases mem_numeral hc with rfl | rfl | hdigit
    · decide
    · decide
    · simp only [List.mem_cons, List.not_mem_nil, or_false, not_or]
      refine ⟨?_, ?_, ?_⟩
      all_goals
        rintro rfl
        cases hdigit

end Json

end Gcit.Library
