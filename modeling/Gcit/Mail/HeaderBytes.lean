import Gcit.Library.Utf8
import Gcit.Mail.Mbox

/-! # The byte loop of `sanitize_header`

The loop walks the bytes of a string and copies one code point at a time. On every
string it is the map of the mailbox format over the characters.
-/

namespace Gcit.Mail

open Gcit Gcit.Library.Utf8

/-- The first position from `stop` on that holds no continuation byte. -/
def codePointEnd (bytes : ByteArray) (stop : Nat) : Nat :=
  if h : stop < bytes.size then
    if bytes[stop] &&& 0b11000000 = 0b10000000 then codePointEnd bytes (stop + 1) else stop
  else stop
termination_by bytes.size - stop

theorem le_codePointEnd (bytes : ByteArray) (stop : Nat) : stop ≤ codePointEnd bytes stop := by
  fun_induction codePointEnd bytes stop with
  | case1 stop h hcont ih => omega
  | case2 stop h hcont => exact Nat.le_refl stop
  | case3 stop h => exact Nat.le_refl stop

/-- `none` is the panic on a slice that is no UTF-8. -/
def sanitizeHeaderLoop (bytes : ByteArray) (i : Nat) (out : String) : Option String :=
  if h : i < bytes.size then
    let b := bytes[i]
    if b < 0x20 && b != ' '.toUInt8 then sanitizeHeaderLoop bytes (i + 1) (out.push ' ')
    else
      let stop := codePointEnd bytes (i + 1)
      match String.fromUTF8? (bytes.extract i stop) with
      | none => none
      | some s => sanitizeHeaderLoop bytes stop (out ++ s)
  else some out
termination_by bytes.size - i
decreasing_by
  · omega
  · have hle := le_codePointEnd bytes (i + 1)
    omega

def sanitizeHeaderBytes (input : String) : Option String :=
  sanitizeHeaderLoop input.toByteArray 0 ""

/-- The scan passes a run of continuation bytes and stops at its end. -/
theorem codePointEnd_of_remaining {bytes : ByteArray} {stop : Nat} {run rest : List UInt8}
    (hrun : ∀ b ∈ run, IsContinuation b) (hrest : ∀ b ∈ rest.head?, ¬IsContinuation b)
    (h : remaining bytes stop = run ++ rest) : codePointEnd bytes stop = stop + run.length := by
  induction run generalizing stop with
  | nil =>
    unfold codePointEnd
    split
    · next hstop =>
      rw [List.nil_append, remaining_of_lt hstop] at h
      exact if_neg (hrest _ (h ▸ rfl))
    · rfl
  | cons b run ih =>
    obtain ⟨hb, hbs⟩ := List.forall_mem_cons.mp hrun
    obtain ⟨hstop, rfl, htail⟩ := remaining_eq_cons h
    rw [codePointEnd, dif_pos hstop, if_pos hb, ih hbs htail, List.length_cons]
    omega

/-- No encoded text starts within a code point. -/
theorem head?_not_continuation (cs : List Char) :
    ∀ b ∈ (cs.flatMap String.utf8EncodeChar).head?, ¬IsContinuation b := by
  intro b hb
  cases cs with
  | nil => cases hb
  | cons c cs =>
    obtain ⟨first, rest, hc, hfirst, -⟩ := utf8EncodeChar_cases c
    rw [List.flatMap_cons, hc] at hb
    cases hb
    exact hfirst

theorem controlByte_eq (b : UInt8) :
    (decide (b < 0x20) && b != ' '.toUInt8) = decide (b.toNat < 0x20) := by
  apply Bool.eq_iff_iff.mpr
  rw [Bool.and_eq_true, decide_eq_true_eq, decide_eq_true_eq, UInt8.lt_iff_toNat_lt]
  apply and_iff_left_of_imp
  intro hlt
  apply bne_iff_ne.mpr
  rintro rfl
  exact absurd hlt (by decide)

/-- One turn of the loop: a control character becomes a space, another code point is
copied, and the loop goes on behind it. -/
theorem sanitizeHeaderLoop_cons {bytes : ByteArray} {c : Char} {cs : List Char} {i : Nat}
    (h : remaining bytes i = String.utf8EncodeChar c ++ cs.flatMap String.utf8EncodeChar)
    (out : String) :
    sanitizeHeaderLoop bytes i out =
      sanitizeHeaderLoop bytes (i + (String.utf8EncodeChar c).length)
        (out.push (if c.toNat < 0x20 then ' ' else c)) := by
  obtain ⟨first, rest, hc, -, hcont, hvalue⟩ := utf8EncodeChar_cases c
  have hcons := h
  rw [hc, List.cons_append] at hcons
  obtain ⟨hi, hfirst, htail⟩ := remaining_eq_cons hcons
  rw [sanitizeHeaderLoop, dif_pos hi]
  simp only [hfirst, controlByte_eq, decide_eq_true_eq]
  rcases Nat.lt_or_ge c.toNat 0x20 with hcontrol | hprint
  · obtain ⟨rfl, hbyte⟩ : rest = [] ∧ first.toNat = c.toNat := by
      rcases hvalue with hsmall | ⟨-, hlarge⟩
      · exact hsmall
      · omega
    rw [if_pos (hbyte ▸ hcontrol), if_pos hcontrol, hc, List.length_singleton]
  · have hbyte : 0x20 ≤ first.toNat := by
      rcases hvalue with ⟨-, hsmall⟩ | ⟨hlarge, -⟩ <;> omega
    have hstop : codePointEnd bytes (i + 1) = i + (String.utf8EncodeChar c).length := by
      rw [codePointEnd_of_remaining hcont (head?_not_continuation cs) htail, hc, List.length_cons]
      omega
    rw [if_neg (by omega), if_neg (by omega), hstop, extract_of_remaining h, fromUTF8?_utf8EncodeChar]
    exact congrArg _ String.append_singleton

theorem sanitizeHeaderLoop_eq {bytes : ByteArray} {cs : List Char} {i : Nat} {out : String}
    (h : remaining bytes i = cs.flatMap String.utf8EncodeChar) :
    sanitizeHeaderLoop bytes i out = some (out ++ String.ofList (sanitizeHeader cs)) := by
  induction cs generalizing i out with
  | nil =>
    rw [sanitizeHeaderLoop, dif_neg (remaining_eq_nil h)]
    simp [sanitizeHeader]
  | cons c cs ih =>
    rw [List.flatMap_cons] at h
    rw [sanitizeHeaderLoop_cons h, ih (remaining_add h), Option.some_inj, ← String.toList_inj]
    simp [sanitizeHeader]

theorem sanitizeHeaderBytes_eq (input : String) :
    sanitizeHeaderBytes input = some (String.ofList (sanitizeHeader input.toList)) := by
  rw [sanitizeHeaderBytes, sanitizeHeaderLoop_eq (remaining_toByteArray input), String.empty_append]

theorem sanitizeHeader_idem (input : Text) :
    sanitizeHeader (sanitizeHeader input) = sanitizeHeader input := by
  rw [sanitizeHeader, sanitizeHeader, List.map_map]
  apply List.map_congr_left
  intro c _
  rcases Nat.lt_or_ge c.toNat 0x20 with hc | hc
  · simp [hc]
  · simp [Nat.not_lt.mpr hc]

/-- The byte loop panics on no string: it is the map over the characters, keeps their
number, and changes nothing on its own output. -/
theorem sanitizeHeaderBytes_refines_map (input : String) :
    ∃ out, sanitizeHeaderBytes input = some out ∧
      out.toList = input.toList.map (fun c => if c.toNat < 0x20 then ' ' else c) ∧
      out.length = input.length ∧ sanitizeHeaderBytes out = some out := by
  refine ⟨String.ofList (sanitizeHeader input.toList), sanitizeHeaderBytes_eq input, ?_, ?_, ?_⟩
  · exact String.toList_ofList
  · rw [String.length_ofList, sanitizeHeader, List.length_map, String.length_toList]
  · rw [sanitizeHeaderBytes_eq, String.toList_ofList, sanitizeHeader_idem]

/-- A line break behind a code point of two bytes. -/
example : sanitizeHeaderBytes "caf\u00e9\r\nBcc" = some "caf\u00e9  Bcc" := by
  rw [sanitizeHeaderBytes_eq]
  decide

end Gcit.Mail
