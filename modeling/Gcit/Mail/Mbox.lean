import Gcit.Library.Lines
import Gcit.State.Apply

/-! # Messages of the mbox spool

`format_message` puts a separator line, six headers and a blank line before the
quoted body. A string is the list of its code points; a byte below 0x20 is a code
point of its own, so the byte-wise walk of `sanitize_header` is a map. How the two
dates print is the date crate's.
-/

namespace Gcit.Mail

open Gcit Gcit.Library.Lines

abbrev Text := List Char

structure DateFormats where
  formatFromLineDate : DateTime → Text
  formatRfc5322Date : DateTime → Text

structure Message where
  now : DateTime
  user : Text
  hostname : Text
  subject : Text
  body : Text

def sanitizeHeader (input : Text) : Text := input.map fun c => if c.toNat < 0x20 then ' ' else c

def needsMboxrdQuote (line : Text) : Bool :=
  "From ".toList.isPrefixOf (line.dropWhile (· == '>'))

def quoteLine (line : Text) : Text := if needsMboxrdQuote line then '>' :: line else line

def escapeMboxrd (body : Text) : Text := "\n".toList.intercalate ((body.splitOn '\n').map quoteLine)

variable (formats : DateFormats)

def formatMessage (m : Message) : Text :=
  let out :=
    "From gcit ".toList ++ formats.formatFromLineDate m.now ++ "\n".toList ++
    "Date: ".toList ++ sanitizeHeader (formats.formatRfc5322Date m.now) ++ "\n".toList ++
    "From: gcit@".toList ++ sanitizeHeader m.hostname ++ "\n".toList ++
    "To: ".toList ++ sanitizeHeader m.user ++ "@".toList ++ sanitizeHeader m.hostname ++
    "\n".toList ++
    "Subject: ".toList ++ sanitizeHeader m.subject ++ "\n".toList ++
    "Content-Type: text/plain; charset=utf-8\n".toList ++
    "MIME-Version: 1.0\n".toList ++
    "\n".toList ++
    escapeMboxrd m.body
  let out := if out.getLast? = some '\n' then out else out ++ "\n".toList
  out ++ "\n".toList

/-! ## Reading a spool -/

def isFromLine (line : Text) : Bool := "From ".toList.isPrefixOf line

/-- The lines of each record; a line that starts with `From ` begins one. -/
def records (spool : Text) : List (List Text) :=
  (terminatedLines '\n' spool).splitBy fun _ line => !isFromLine line

/-- One `>` less in front of a quoted line. -/
def unquoteLine : Text → Text
  | '>' :: rest => if needsMboxrdQuote rest then rest else '>' :: rest
  | line => line

def headLines (m : Message) : List Text :=
  ["From gcit ".toList ++ formats.formatFromLineDate m.now,
    "Date: ".toList ++ sanitizeHeader (formats.formatRfc5322Date m.now),
    "From: gcit@".toList ++ sanitizeHeader m.hostname,
    "To: ".toList ++ sanitizeHeader m.user ++ "@".toList ++ sanitizeHeader m.hostname,
    "Subject: ".toList ++ sanitizeHeader m.subject,
    "Content-Type: text/plain; charset=utf-8".toList,
    "MIME-Version: 1.0".toList]

/-- The record is the head of the message, a blank line, and lines that unquoted are
the body, its last line ended, and a closing blank line. -/
def IsRecordOf (m : Message) (record : List Text) : Prop :=
  ∃ body, record = headLines formats m ++ [] :: body ∧
    unlines '\n' (body.map unquoteLine) = withNewline '\n' m.body ++ ['\n']

variable {formats}

theorem newline_not_mem_sanitizeHeader (input : Text) : '\n' ∉ sanitizeHeader input := by
  intro h
  obtain ⟨c, -, hc⟩ := List.mem_map.mp h
  split at hc
  · cases hc
  · next hlow =>
    subst hc
    exact hlow (by decide)

theorem needsMboxrdQuote_cons (line : Text) :
    needsMboxrdQuote ('>' :: line) = needsMboxrdQuote line := by
  simp [needsMboxrdQuote]

theorem unquoteLine_quoteLine (line : Text) : unquoteLine (quoteLine line) = line := by
  unfold quoteLine
  split
  · next h => simp [unquoteLine, h]
  · next h =>
    unfold unquoteLine
    split
    · next rest =>
      rw [needsMboxrdQuote_cons] at h
      simp [h]
    · rfl

theorem quoteLine_eq_nil {line : Text} : quoteLine line = [] ↔ line = [] := by
  unfold quoteLine
  split
  · next h =>
    constructor
    · intro hnil
      cases hnil
    · rintro rfl
      cases h
  · rfl

theorem newline_not_mem_quoteLine {line : Text} (h : '\n' ∉ line) : '\n' ∉ quoteLine line := by
  unfold quoteLine
  split
  · simpa using h
  · exact h

theorem isFromLine_quoteLine (line : Text) : isFromLine (quoteLine line) = false := by
  unfold quoteLine
  split
  · rfl
  · next h =>
    cases line with
    | nil => rfl
    | cons c line =>
      rcases eq_or_ne c '>' with rfl | hc
      · rfl
      · rw [Bool.not_eq_true, needsMboxrdQuote,
          List.dropWhile_cons_of_neg (by simpa using hc)] at h
        exact h

theorem escapeMboxrd_lines {ls : List Text} {last : Text} (hls : ∀ l ∈ ls, '\n' ∉ l)
    (hlast : '\n' ∉ last) :
    escapeMboxrd (unlines '\n' ls ++ last) = unlines '\n' (ls.map quoteLine) ++ quoteLine last := by
  rw [escapeMboxrd, splitOn_lines hls hlast, List.map_append]
  exact intercalate_concat '\n' (ls.map quoteLine) (quoteLine last)

theorem formatMessage_lines {m : Message} {ls : List Text} {last : Text} (hls : ∀ l ∈ ls, '\n' ∉ l)
    (hlast : '\n' ∉ last) (hbody : m.body = unlines '\n' ls ++ last) :
    formatMessage formats m = unlines '\n' (headLines formats m ++ [] ::
      ((ls ++ if last = [] then [] else [last]).map quoteLine ++ [[]])) := by
  have hquoted : '\n' ∉ quoteLine last := newline_not_mem_quoteLine hlast
  have hout : unlines '\n' (headLines formats m ++ [[]]) ++ escapeMboxrd m.body =
      unlines '\n' (headLines formats m ++ [] :: ls.map quoteLine) ++ quoteLine last := by
    rw [hbody, escapeMboxrd_lines hls hlast, ← List.append_assoc, ← unlines_append]
    simp
  have hne : unlines '\n' (headLines formats m ++ [[]]) ++ escapeMboxrd m.body ≠ [] := by
    simp [headLines]
  calc formatMessage formats m
      = withNewline '\n' (unlines '\n' (headLines formats m ++ [[]]) ++ escapeMboxrd m.body) ++
          ['\n'] := by
        rw [← withNewline_of_ne_nil hne]
        simp [formatMessage, headLines]
    _ = unlines '\n' ((headLines formats m ++ [] :: ls.map quoteLine) ++
          if quoteLine last = [] then [] else [quoteLine last]) ++ ['\n'] := by
        rw [hout, withNewline_lines hquoted]
    _ = unlines '\n' (headLines formats m ++ [] ::
          ((ls ++ if last = [] then [] else [last]).map quoteLine ++ [[]])) := by
        simp only [quoteLine_eq_nil]
        split <;> simp [unlines_append]

theorem newline_not_mem_headLines (h : ∀ t, '\n' ∉ formats.formatFromLineDate t) (m : Message) :
    ∀ l ∈ headLines formats m, '\n' ∉ l := by
  have hsanitized := newline_not_mem_sanitizeHeader
  simp [headLines, h, hsanitized]

theorem isFromLine_of_mem_body {ls : List Text} :
    ∀ l ∈ ([] : Text) :: (ls.map quoteLine ++ [[]]), isFromLine l = false := by
  simp only [List.mem_cons, List.mem_append, List.mem_map, List.not_mem_nil, or_false]
  rintro l (rfl | ⟨line, -, rfl⟩ | rfl)
  · rfl
  · exact isFromLine_quoteLine line
  · rfl

theorem exists_record (h : ∀ t, '\n' ∉ formats.formatFromLineDate t) (m : Message) :
    ∃ record, formatMessage formats m = unlines '\n' record ∧ IsRecordOf formats m record ∧
      (∀ l ∈ record, '\n' ∉ l) ∧
      ∃ line rest, record = line :: rest ∧ isFromLine line = true ∧
        ∀ l ∈ rest, isFromLine l = false := by
  obtain ⟨ls, last, hls, hlast, hbody⟩ := exists_lines '\n' m.body
  refine ⟨_, formatMessage_lines hls hlast hbody, ⟨_, rfl, ?_⟩, ?_, ?_⟩
  · rw [hbody, withNewline_lines hlast, List.map_append, List.map_map, unlines_append]
    have hid : unquoteLine ∘ quoteLine = id := funext unquoteLine_quoteLine
    rw [hid, List.map_id]
    rfl
  · have hlines : ∀ l ∈ ls ++ (if last = [] then [] else [last]), '\n' ∉ l := by
      split
      · simpa using hls
      · simpa [or_imp, forall_and] using ⟨hls, hlast⟩
    intro l hl
    rcases List.mem_append.mp hl with hhead | hbody
    · exact newline_not_mem_headLines h m l hhead
    · simp only [List.mem_cons, List.mem_append, List.mem_map, List.not_mem_nil, or_false] at hbody
      rcases hbody with rfl | ⟨line, hline, rfl⟩ | rfl
      · exact List.not_mem_nil
      · exact newline_not_mem_quoteLine (hlines line (List.mem_append.mpr hline))
      · exact List.not_mem_nil
  · refine ⟨_, (headLines formats m).tail ++ [] :: _, rfl, rfl, ?_⟩
    simp only [headLines, List.tail_cons, List.cons_append, List.nil_append, List.forall_mem_cons]
    refine ⟨rfl, rfl, rfl, rfl, rfl, rfl, ?_⟩
    exact List.forall_mem_cons.mp isFromLine_of_mem_body

/-- A spool of messages is read back as one record for each, in order. -/
theorem mbox_spool_round_trip (formats : DateFormats)
    (hdate : ∀ t, '\n' ∉ formats.formatFromLineDate t) (messages : List Message) :
    List.Forall₂ (IsRecordOf formats) messages
      (records (messages.flatMap (formatMessage formats))) := by
  have hrecords : ∃ rs, messages.flatMap (formatMessage formats) = unlines '\n' rs.flatten ∧
      List.Forall₂ (IsRecordOf formats) messages rs ∧ (∀ r ∈ rs, ∀ l ∈ r, '\n' ∉ l) ∧
      ∀ r ∈ rs, ∃ line rest, r = line :: rest ∧ isFromLine line = true ∧
        ∀ l ∈ rest, isFromLine l = false := by
    induction messages with
    | nil => exact ⟨[], rfl, .nil, by simp, by simp⟩
    | cons m messages ih =>
      obtain ⟨rs, htext, hrs, hlines, hstarts⟩ := ih
      obtain ⟨r, hr, hrecord, hline, hstart⟩ := exists_record hdate m
      refine ⟨r :: rs, ?_, .cons hrecord hrs, List.forall_mem_cons.mpr ⟨hline, hlines⟩,
        List.forall_mem_cons.mpr ⟨hstart, hstarts⟩⟩
      rw [List.flatMap_cons, hr, htext, List.flatten_cons, unlines_append]
  obtain ⟨rs, htext, hrs, hlines, hstarts⟩ := hrecords
  have hflat : ∀ l ∈ rs.flatten, '\n' ∉ l := by
    intro l hl
    obtain ⟨r, hr, hlr⟩ := List.mem_flatten.mp hl
    exact hlines r hr l hlr
  rw [records, htext, terminatedLines_unlines hflat, splitBy_flatten_of_starts hstarts]
  exact hrs

/-- The dates of one instant, in UTC. -/
def epochFormats : DateFormats where
  formatFromLineDate _ := "Thu Jan  1 00:00:00 1970".toList
  formatRfc5322Date _ := "Thu, 01 Jan 1970 00:00:00 +0000".toList

/-- A subject that tries to add a header, and a body with From-lines and no final newline. -/
theorem hostile_message_read_back :
    let m : Message := ⟨0, "ops".toList, "host".toList, "done\r\nBcc: x@example.com".toList,
      "From me\n>From you".toList⟩
    List.Forall₂ (IsRecordOf epochFormats) [m, m]
        (records ([m, m].flatMap (formatMessage epochFormats))) ∧
      (records ([m, m].flatMap (formatMessage epochFormats))).length = 2 := by
  have hdate : '\n' ∉ "Thu Jan  1 00:00:00 1970".toList := by decide
  have h := fun m => mbox_spool_round_trip epochFormats (fun _ => hdate) [m, m]
  exact ⟨h _, (h _).length_eq.symm⟩

end Gcit.Mail
