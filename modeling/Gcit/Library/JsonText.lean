import Mathlib.Algebra.GroupWithZero.Nat
import Mathlib.Algebra.Order.BigOperators.Group.List
import Gcit.Library.Json

/-! # The text of a JSON value

The compact text: no blanks, control characters and quotes escaped. How a number is
written is a parameter. A value is never longer than what it is a part of.
-/

namespace Gcit.Library

def escapeChar (c : Char) : List Char :=
  if c = '"' then ['\\', '"']
  else if c = '\\' then ['\\', '\\']
  else if c = '\n' then ['\\', 'n']
  else if c = '\r' then ['\\', 'r']
  else if c = '\t' then ['\\', 't']
  else if c.toNat = 8 then ['\\', 'b']
  else if c.toNat = 12 then ['\\', 'f']
  else if c.toNat < 32 then
    ['\\', 'u', '0', '0', Nat.digitChar (c.toNat / 16), Nat.digitChar (c.toNat % 16)]
  else [c]

def quoted (s : String) : List Char := '"' :: s.toList.flatMap escapeChar ++ ['"']

namespace Json

variable (number : Rat → List Char)

mutual

def text : Json → List Char
  | .null => ['n', 'u', 'l', 'l']
  | .bool true => ['t', 'r', 'u', 'e']
  | .bool false => ['f', 'a', 'l', 's', 'e']
  | .number q => number q
  | .string s => quoted s
  | .array items => '[' :: textItems items ++ [']']
  | .object members => '{' :: textMembers members ++ ['}']

def textItems : List Json → List Char
  | [] => []
  | [item] => text item
  | item :: items => text item ++ ',' :: textItems items

def textMembers : List (String × Json) → List Char
  | [] => []
  | [(name, value)] => quoted name ++ ':' :: text value
  | (name, value) :: members => quoted name ++ ':' :: text value ++ ',' :: textMembers members

end

variable {number}

theorem length_le_flatMap_escapeChar (cs : List Char) :
    cs.length ≤ (cs.flatMap escapeChar).length := by
  induction cs with
  | nil => exact Nat.le_refl 0
  | cons c cs ih =>
    have hone : 1 ≤ (escapeChar c).length := by
      unfold escapeChar
      repeat' split
      all_goals simp
    rw [List.flatMap_cons, List.length_append, List.length_cons]
    omega

theorem length_le_text_string (s : String) : s.length ≤ (text number (.string s)).length := by
  have hescaped := length_le_flatMap_escapeChar s.toList
  rw [String.length_toList] at hescaped
  simp only [text, quoted, List.length_append, List.length_cons]
  omega

theorem length_le_textMembers {name : String} {value : Json} {members : List (String × Json)}
    (h : (name, value) ∈ members) :
    (text number value).length ≤ (textMembers number members).length := by
  induction members with
  | nil => cases h
  | cons member members ih =>
    obtain ⟨name', value'⟩ := member
    cases members with
    | nil =>
      obtain ⟨⟩ := List.mem_singleton.mp h
      simp only [textMembers, List.length_append, List.length_cons]
      omega
    | cons next members =>
      simp only [textMembers, List.length_append, List.length_cons]
      rcases List.mem_cons.mp h with heq | h
      · cases heq
        omega
      · have hle := ih h
        omega

theorem length_le_text_object (name : String) {value : Json} {members : List (String × Json)}
    (h : (name, value) ∈ members) :
    (text number value).length ≤ (text number (.object members)).length := by
  have hle : (text number value).length ≤ (textMembers number members).length :=
    length_le_textMembers h
  simp only [text, List.length_append, List.length_cons]
  omega

end Json

def utf8Length (cs : List Char) : Nat := (cs.map Char.utf8Size).sum

theorem length_le_utf8Length (cs : List Char) : cs.length ≤ utf8Length cs := by
  have hone : ∀ size ∈ cs.map Char.utf8Size, 1 ≤ size := by
    intro size hsize
    obtain ⟨c, -, rfl⟩ := List.mem_map.mp hsize
    exact c.utf8Size_pos
  have hle := List.length_le_sum_of_one_le (cs.map Char.utf8Size) hone
  rwa [List.length_map] at hle

end Gcit.Library
