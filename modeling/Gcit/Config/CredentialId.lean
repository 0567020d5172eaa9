import Gcit.Config.Types
import Mathlib.Data.List.Infix

/-! # Credential ids

`CredentialId::new` is the only way from a text to an id. What it lets through is
said once, without the order in which it looks for faults.
-/

namespace Gcit

/-- `str::contains`. -/
def textContains (s pat : String) : Bool := s.toList.tails.any fun t => pat.toList.isPrefixOf t

def startsWith (s pat : String) : Bool := pat.toList.isPrefixOf s.toList

theorem mem_of_textContains {s pat : String} {c : Char} (h : textContains s pat = true)
    (hc : c ∈ pat.toList) : c ∈ s.toList := by
  obtain ⟨t, ht, hpat⟩ := List.any_eq_true.mp h
  have hsuffix : t <:+ s.toList := (List.mem_tails t s.toList).mp ht
  exact hsuffix.subset ((List.isPrefixOf_iff_prefix.mp hpat).subset hc)

def nameChar (ch : Char) : Bool := ch.isAlphanum || ch == '_' || ch == '-'

def MAX_LEN : Nat := 64

inductive IdError where
  | empty
  | tooLong (len : Nat)
  | invalidChar (ch : Char)
  | leadingHyphen
  | pathTraversal

def IdError.message (charDebug : Char → String) : IdError → String
  | .empty => "credential_id must be non-empty"
  | .tooLong len => s!"credential_id is {len} chars; max is {MAX_LEN}"
  | .invalidChar ch => "credential_id contains invalid character " ++ charDebug ch ++
      "; allowed: A-Z a-z 0-9 _ -"
  | .leadingHyphen => "credential_id must not start with '-' (conflicts with CLI flags)"
  | .pathTraversal => "credential_id must not contain '..', '/', '\\', '~', or NUL"

def IdError.suggestion : IdError → String
  | .empty | .leadingHyphen => "use a non-empty id like 'github_pat' or 'discord-ci-webhook'"
  | .tooLong _ => s!"shorten the id to {MAX_LEN} characters or fewer"
  | .invalidChar _ | .pathTraversal => "use only A-Z, a-z, 0-9, '_', and '-'"

def validateIdStr (s : String) : Except IdError Unit :=
  if s = "" then .error .empty
  else if s.utf8ByteSize > MAX_LEN then .error (.tooLong s.utf8ByteSize)
  else if textContains s ".." || textContains s "/" || textContains s "\\" || textContains s "~" ||
      textContains s "\x00" then .error .pathTraversal
  else if startsWith s "-" then .error .leadingHyphen
  else match s.toList.find? fun ch => !nameChar ch with
    | some ch => .error (.invalidChar ch)
    | none => .ok ()

def CredentialId.new (s : String) : Except IdError CredentialId := (validateIdStr s).map fun _ => s

/-- The upper-case of ASCII letters, with underscores for hyphens. -/
def idToEnv (id : String) : String :=
  "GCIT_CREDENTIAL_" ++ id.map fun c => if c = '-' then '_' else c.toUpper

def toEnvVar (id : CredentialId) : String := idToEnv id

structure IdOk (s : String) : Prop where
  nonempty : s ≠ ""
  short : s.utf8ByteSize ≤ MAX_LEN
  hyphen : startsWith s "-" = false
  chars : ∀ ch ∈ s.toList, nameChar ch = true

/-- The look for path traversal only makes the message sharper. -/
theorem IdOk.textContains_eq_false {s : String} (h : IdOk s) (pat : String) (ch : Char)
    (hch : ch ∈ pat.toList) (hno : nameChar ch = false) : textContains s pat = false := by
  by_contra hc
  rw [Bool.not_eq_false] at hc
  have hyes := h.chars ch (mem_of_textContains hc hch)
  rw [hno] at hyes
  cases hyes

theorem validateIdStr_eq_ok_iff {s : String} : validateIdStr s = .ok () ↔ IdOk s := by
  constructor
  · intro h
    unfold validateIdStr at h
    split at h
    case isTrue => cases h
    rename_i hne
    split at h
    case isTrue => cases h
    rename_i hlen
    split at h
    case isTrue => cases h
    split at h
    case isTrue => cases h
    rename_i hyphen
    split at h
    case h_1 => cases h
    rename_i hfind
    refine ⟨hne, by omega, by simpa using hyphen, fun ch hch => ?_⟩
    simpa using List.find?_eq_none.mp hfind ch hch
  · intro h
    have hfind : (s.toList.find? fun ch => !nameChar ch) = none :=
      List.find?_eq_none.mpr fun ch hch => by simp [h.chars ch hch]
    have hlen : ¬s.utf8ByteSize > MAX_LEN := Nat.not_lt.mpr h.short
    rw [validateIdStr, if_neg h.nonempty, if_neg hlen,
      h.textContains_eq_false ".." '.' (by decide) (by decide),
      h.textContains_eq_false "/" '/' (by decide) (by decide),
      h.textContains_eq_false "\\" '\\' (by decide) (by decide),
      h.textContains_eq_false "~" '~' (by decide) (by decide),
      h.textContains_eq_false "\x00" '\x00' (by decide) (by decide), h.hyphen, hfind]
    rfl

theorem CredentialId.new_eq_ok_iff {s : String} {id : CredentialId} :
    CredentialId.new s = .ok id ↔ IdOk s ∧ id = s := by
  rw [← validateIdStr_eq_ok_iff, CredentialId.new]
  cases validateIdStr s with
  | error e => simp [Except.map]
  | ok u => simp [Except.map, eq_comm]

end Gcit
