import Gcit.Library.JsonUnique

/-! # Reading the compact text of a JSON value

The reader takes a value off the front of a text. A value's own text is read back as the
value, with what comes after it left over. Fuel bounds the depth of the recursion, and
the length of the text is enough of it.
-/

namespace Gcit.Library.Json

/-- The characters of a string up to its closing quote. -/
def readChars : Nat → List Char → Option (List Char × List Char)
  | 0, _ => none
  | _ + 1, '"' :: rest => some ([], rest)
  | n + 1, text => (unescape text).bind fun (c, rest) =>
    (readChars n rest).map fun (cs, rest) => (c :: cs, rest)

/-- Up to a comma or a closing bracket. -/
def inNumber (c : Char) : Bool := decide (c ∉ [',', ']', '}'])

variable (readNumber : List Char → Option Rat)

mutual

def readValue : Nat → List Char → Option (Json × List Char)
  | 0, _ => none
  | _ + 1, 'n' :: 'u' :: 'l' :: 'l' :: rest => some (.null, rest)
  | _ + 1, 't' :: 'r' :: 'u' :: 'e' :: rest => some (.bool true, rest)
  | _ + 1, 'f' :: 'a' :: 'l' :: 's' :: 'e' :: rest => some (.bool false, rest)
  | n + 1, '"' :: rest => (readChars n rest).map fun (cs, rest) =>
    (.string (String.ofList cs), rest)
  | _ + 1, '[' :: ']' :: rest => some (.array [], rest)
  | n + 1, '[' :: rest => (readItems n rest).map fun (items, rest) => (.array items, rest)
  | _ + 1, '{' :: '}' :: rest => some (.object [], rest)
  | n + 1, '{' :: rest => (readMembers n rest).map fun (members, rest) => (.object members, rest)
  | _ + 1, text => (readNumber (text.takeWhile inNumber)).map fun q =>
    (.number q, text.dropWhile inNumber)

/-- Items up to the closing bracket, at least one. -/
def readItems : Nat → List Char → Option (List Json × List Char)
  | 0, _ => none
  | n + 1, text => (readValue n text).bind fun (item, rest) => match rest with
    | ']' :: rest => some ([item], rest)
    | ',' :: rest => (readItems n rest).map fun (items, rest) => (item :: items, rest)
    | _ => none

def readMembers : Nat → List Char → Option (List (String × Json) × List Char)
  | 0, _ => none
  | n + 1, '"' :: text => (readChars n text).bind fun (name, rest) => match rest with
    | ':' :: rest => (readValue n rest).bind fun (value, rest) => match rest with
      | '}' :: rest => some ([(String.ofList name, value)], rest)
      | ',' :: rest => (readMembers n rest).map fun (members, rest) =>
        ((String.ofList name, value) :: members, rest)
      | _ => none
    | _ => none
  | _ + 1, _ => none

end

variable {readNumber} {number : Rat → List Char}

theorem readChars_of_unescape {n : Nat} {text rest : List Char} {c : Char}
    (h : unescape text = some (c, rest)) :
    readChars (n + 1) text = (readChars n rest).map fun (cs, rest) => (c :: cs, rest) := by
  rw [readChars.eq_def]
  split
  · next heq => cases heq
  · cases h
  · next heq _ =>
    cases heq
    rw [h]
    rfl

theorem readChars_flatMap (cs : List Char) (rest : List Char) :
    ∀ n, (cs.flatMap escapeChar).length < n →
      readChars n (cs.flatMap escapeChar ++ '"' :: rest) = some (cs, rest) := by
  induction cs with
  | nil =>
    intro n hn
    obtain ⟨n, rfl⟩ := Nat.exists_eq_add_one_of_ne_zero (Nat.ne_of_gt hn)
    rfl
  | cons c cs ih =>
    intro n hn
    obtain ⟨n, rfl⟩ := Nat.exists_eq_add_one_of_ne_zero (Nat.ne_of_gt (Nat.zero_lt_of_lt hn))
    have hone : 1 ≤ (escapeChar c).length := by simpa using length_le_flatMap_escapeChar [c]
    rw [List.flatMap_cons, List.length_append] at hn
    rw [List.flatMap_cons, List.append_assoc, readChars_of_unescape (unescape_escapeChar c _),
      ih n (by omega)]
    rfl

theorem readValue_number {n : Nat} {c : Char} {text : List Char} (hc : c = '-' ∨ c.isDigit) :
    readValue readNumber (n + 1) (c :: text) =
      (readNumber ((c :: text).takeWhile inNumber)).map fun q =>
        (.number q, (c :: text).dropWhile inNumber) := by
  rw [readValue.eq_def]
  split
  case h_10 heq _ _ _ _ _ _ _ _ =>
    cases heq
    rfl
  all_goals
    next heq =>
    cases heq
    try simp at hc

theorem number_span (hnumber : Numerals number) {q : Rat} {rest : List Char} (hrest : Ends rest) :
    (number q ++ rest).takeWhile inNumber = number q ∧
      (number q ++ rest).dropWhile inNumber = rest := by
  have hall : ∀ c ∈ number q, inNumber c = true := by
    intro c hc
    exact decide_eq_true (hnumber.clear q c hc)
  rw [List.takeWhile_append_of_pos hall, List.dropWhile_append_of_pos hall]
  cases rest with
  | nil => simp
  | cons c rest =>
    have hc : ¬inNumber c = true := by
      rw [inNumber, decide_eq_true_eq, not_not]
      exact hrest c rfl
    rw [List.takeWhile_cons_of_neg hc, List.dropWhile_cons_of_neg hc, List.append_nil]
    exact ⟨rfl, rfl⟩

theorem head_text (hnumber : Numerals number) (v : Json) (rest : List Char) :
    (text number v ++ rest).head? ≠ some ']' := by
  intro h
  have hlead := lead_text hnumber v rest
  rw [lead, h] at hlead
  exact opening_ne_bracket v hlead.symm

theorem readValue_array {n : Nat} {text : List Char} (h : text.head? ≠ some ']') :
    readValue readNumber (n + 1) ('[' :: text) =
      (readItems readNumber n text).map fun (items, rest) => (.array items, rest) := by
  rw [readValue]
  rintro rest rfl
  exact h rfl

/-- A quoted string is its characters up to the closing quote. -/
theorem readChars_quoted {n : Nat} {name : String} (rest : List Char)
    (h : (quoted name).length ≤ n) :
    ∃ body, quoted name ++ rest = '"' :: body ∧
      readChars n body = some (name.toList, rest) := by
  refine ⟨name.toList.flatMap escapeChar ++ '"' :: rest, by simp [quoted], ?_⟩
  refine readChars_flatMap name.toList rest n ?_
  simp only [quoted, List.cons_append, List.length_append, List.length_cons, List.length_nil] at h
  omega

mutual

theorem readValue_text (hnumber : Numerals number)
    (hread : ∀ q, readNumber (number q) = some q) : ∀ (v : Json) (n : Nat) (rest : List Char),
    Ends rest → (text number v).length < n →
      readValue readNumber n (text number v ++ rest) = some (v, rest)
  | v, 0, rest, _, hn => absurd hn (Nat.not_lt_zero _)
  | .null, n + 1, rest, _, _ => rfl
  | .bool true, n + 1, rest, _, _ => rfl
  | .bool false, n + 1, rest, _, _ => rfl
  | .number q, n + 1, rest, hrest, _ => by
    obtain ⟨c, cs, hq, hc⟩ := hnumber.starts q
    obtain ⟨htake, hdrop⟩ := number_span hnumber (q := q) hrest
    rw [hq, List.cons_append] at htake hdrop
    rw [text, hq, List.cons_append, readValue_number hc, htake, hdrop, ← hq, hread]
    rfl
  | .string s, n + 1, rest, _, hn => by
    rw [text] at hn ⊢
    obtain ⟨body, hbody, hchars⟩ := readChars_quoted rest (Nat.le_of_lt_succ hn)
    rw [hbody, readValue, hchars, Option.map_some]
    simp only [String.ofList_toList]
  | .array [], n + 1, rest, _, _ => rfl
  | .array (item :: items), n + 1, rest, _, hn => by
    have hlength : (textItems number (item :: items)).length + 1 < n := by
      simp only [text, List.length_append, List.length_cons, List.length_nil] at hn
      omega
    have hitems := readItems_text hnumber hread item items n rest hlength
    have hhead : (textItems number (item :: items) ++ ']' :: rest).head? ≠ some ']' := by
      rw [textItems_cons]
      exact head_text hnumber item _
    rw [text, List.cons_append, List.cons_append, List.append_assoc, List.singleton_append,
      readValue_array hhead, hitems]
    rfl
  | .object [], n + 1, rest, _, _ => rfl
  | .object ((name, value) :: members), n + 1, rest, _, hn => by
    have hlength : (textMembers number ((name, value) :: members)).length + 1 < n := by
      simp only [text, List.length_append, List.length_cons, List.length_nil] at hn
      omega
    have hmembers := readMembers_text hnumber hread name value members n rest hlength
    obtain ⟨body, hbody⟩ : ∃ body,
        textMembers number ((name, value) :: members) ++ '}' :: rest = '"' :: body := by
      rw [textMembers_cons]
      exact ⟨_, rfl⟩
    rw [hbody] at hmembers
    rw [text, List.cons_append, List.cons_append, List.append_assoc, List.singleton_append, hbody,
      readValue, hmembers]
    · rfl
    · intro later heq
      cases heq

theorem readItems_text (hnumber : Numerals number)
    (hread : ∀ q, readNumber (number q) = some q) :
    ∀ (item : Json) (items : List Json) (n : Nat) (rest : List Char),
    (textItems number (item :: items)).length + 1 < n →
      readItems readNumber n (textItems number (item :: items) ++ ']' :: rest) =
        some (item :: items, rest)
  | item, items, 0, rest, hn => absurd hn (Nat.not_lt_zero _)
  | item, [], n + 1, rest, hn => by
    have hitem := readValue_text hnumber hread item n (']' :: rest) (ends_cons (by decide) rest)
      (Nat.lt_of_succ_lt_succ hn)
    rw [textItems, readItems, hitem]
    rfl
  | item, next :: items, n + 1, rest, hn => by
    simp only [textItems, List.length_append, List.length_cons] at hn
    have hitem := readValue_text hnumber hread item n
      (',' :: (textItems number (next :: items) ++ ']' :: rest)) (ends_cons (by decide) _) (by omega)
    have hitems := readItems_text hnumber hread next items n rest (by omega)
    rw [textItems, List.append_assoc, List.cons_append, readItems, hitem, Option.bind_some]
    · simp only
      rw [hitems]
      rfl
    · simp

theorem readMembers_text (hnumber : Numerals number)
    (hread : ∀ q, readNumber (number q) = some q) :
    ∀ (name : String) (value : Json) (members : List (String × Json)) (n : Nat) (rest : List Char),
    (textMembers number ((name, value) :: members)).length + 1 < n →
      readMembers readNumber n (textMembers number ((name, value) :: members) ++ '}' :: rest) =
        some ((name, value) :: members, rest)
  | name, value, members, 0, rest, hn => absurd hn (Nat.not_lt_zero _)
  | name, value, [], n + 1, rest, hn => by
    simp only [textMembers, List.length_append, List.length_cons] at hn
    have hvalue := readValue_text hnumber hread value n ('}' :: rest) (ends_cons (by decide) rest)
      (by omega)
    obtain ⟨body, hbody, hname⟩ := readChars_quoted
      (':' :: (text number value ++ '}' :: rest)) (by omega : (quoted name).length ≤ n)
    rw [textMembers, List.append_assoc, List.cons_append, hbody, readMembers, hname,
      Option.bind_some]
    simp only
    rw [hvalue, Option.bind_some]
    simp only [String.ofList_toList]
  | name, value, (name', value') :: members, n + 1, rest, hn => by
    simp only [textMembers, List.length_append, List.length_cons] at hn
    have hvalue := readValue_text hnumber hread value n
      (',' :: (textMembers number ((name', value') :: members) ++ '}' :: rest))
      (ends_cons (by decide) _) (by omega)
    have hmembers := readMembers_text hnumber hread name' value' members n rest (by omega)
    obtain ⟨body, hbody, hname⟩ := readChars_quoted
      (':' :: (text number value ++
        ',' :: (textMembers number ((name', value') :: members) ++ '}' :: rest)))
      (by omega : (quoted name).length ≤ n)
    rw [textMembers, List.append_assoc, List.append_assoc, List.cons_append, List.cons_append, hbody,
      readMembers, hname, Option.bind_some]
    · simp only
      rw [hvalue, Option.bind_some]
      simp only
      rw [hmembers]
      simp only [Option.map_some, String.ofList_toList]
    · simp

end

def read (readNumber : List Char → Option Rat) (text : List Char) : Option Json :=
  match readValue readNumber (text.length + 1) text with
  | some (v, []) => some v
  | _ => none

def readInteger : List Char → Int
  | '-' :: digits => .negSucc (Nat.ofDigitChars 10 digits 0 - 1)
  | digits => .ofNat (Nat.ofDigitChars 10 digits 0)

def readNumeral (text : List Char) : Option Rat :=
  let num := readInteger (text.takeWhile (· ≠ '/'))
  match text.dropWhile (· ≠ '/') with
  | [] => some num
  | _ :: digits => some (mkRat num (Nat.ofDigitChars 10 digits 0))

end Gcit.Library.Json
