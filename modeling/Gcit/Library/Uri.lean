import Gcit.Library.Lines
import Mathlib.Data.List.TakeWhile

/-! # References and what a server reads in them

A reference is cut at its delimiters into a path and a query, these at theirs into segments
and pairs, and each of the parts is decoded. What was put together without encoding is read
back as it was exactly if no part holds a delimiter that counts where it stands, or something
that decoding would change.
-/

namespace Gcit.Library.Uri

def hexDigit? (c : Char) : Option Nat :=
  if '0' ≤ c ∧ c ≤ '9' then some (c.toNat - '0'.toNat)
  else if 'a' ≤ c ∧ c ≤ 'f' then some (c.toNat - 'a'.toNat + 10)
  else if 'A' ≤ c ∧ c ≤ 'F' then some (c.toNat - 'A'.toNat + 10)
  else none

/-- The byte that the three characters stand for, if they are an escape. -/
def escaped? (c a b : Char) : Option UInt8 :=
  if c = '%' then
    (hexDigit? a).bind fun high => (hexDigit? b).map fun low => UInt8.ofNat (16 * high + low)
  else none

def encode (cs : List Char) : List UInt8 := cs.flatMap String.utf8EncodeChar

/-- A `%` that begins no escape is left as it is. -/
def percentDecode : List Char → List UInt8
  | c :: a :: b :: rest => match escaped? c a b with
    | some byte => byte :: percentDecode rest
    | none => String.utf8EncodeChar c ++ percentDecode (a :: b :: rest)
  | c :: rest => String.utf8EncodeChar c ++ percentDecode rest
  | [] => []

def hasEscape : List Char → Bool
  | c :: a :: b :: rest => (escaped? c a b).isSome || hasEscape (a :: b :: rest)
  | _ => false

def plusToSpace (cs : List Char) : List Char := cs.map fun c => if c = '+' then ' ' else c

def formDecode (cs : List Char) : List UInt8 := percentDecode (plusToSpace cs)

/-! ## Decoding -/

theorem encode_cons (c : Char) (cs : List Char) :
    encode (c :: cs) = String.utf8EncodeChar c ++ encode cs := List.flatMap_cons

theorem encode_append (as bs : List Char) : encode (as ++ bs) = encode as ++ encode bs :=
  List.flatMap_append

theorem length_encode_pos {cs : List Char} (h : cs ≠ []) : 0 < (encode cs).length := by
  obtain ⟨c, cs, rfl⟩ := List.exists_cons_of_ne_nil h
  rw [encode_cons, List.length_append, String.length_utf8EncodeChar]
  exact Nat.add_pos_left c.utf8Size_pos _

theorem length_percentDecode (cs : List Char) :
    (percentDecode cs).length ≤ (encode cs).length ∧
      (hasEscape cs = true → (percentDecode cs).length < (encode cs).length) := by
  fun_induction percentDecode cs with
  | case1 c a b rest byte hbyte ih =>
    have ha := a.utf8Size_pos
    have hb := b.utf8Size_pos
    have hc := c.utf8Size_pos
    simp only [encode_cons, List.length_append, List.length_cons, String.length_utf8EncodeChar]
    omega
  | case2 c a b rest hbyte ih =>
    rw [encode_cons, List.length_append, List.length_append]
    refine ⟨Nat.add_le_add_left ih.1 _, fun h => Nat.add_lt_add_left (ih.2 ?_) _⟩
    simpa only [hasEscape, hbyte, Option.isSome_none, Bool.false_or] using h
  | case3 c rest hshort ih =>
    rw [encode_cons, List.length_append, List.length_append]
    refine ⟨Nat.add_le_add_left ih.1 _, fun h => ?_⟩
    unfold hasEscape at h
    split at h
    case h_1 heq =>
      cases heq
      exact absurd rfl (hshort _ _ _)
    case h_2 => cases h
  | case4 => exact ⟨Nat.le_refl _, nofun⟩

theorem percentDecode_of_not_hasEscape {cs : List Char} (h : hasEscape cs = false) :
    percentDecode cs = encode cs := by
  fun_induction percentDecode cs with
  | case1 c a b rest byte hbyte => simp [hasEscape, hbyte] at h
  | case2 c a b rest hbyte ih =>
    rw [ih (by simpa only [hasEscape, hbyte, Option.isSome_none, Bool.false_or] using h), encode_cons c]
  | case3 c rest hshort ih =>
    have hrest : hasEscape rest = false := by
      unfold hasEscape
      split
      case h_1 => exact absurd rfl (hshort _ _ _)
      case h_2 => rfl
    rw [ih hrest, encode_cons]
  | case4 => rfl

theorem not_hasEscape_of_not_mem {cs : List Char} (h : '%' ∉ cs) : hasEscape cs = false := by
  fun_induction hasEscape cs with
  | case1 c a b rest ih =>
    obtain ⟨hc, hrest⟩ := not_or.mp (mt List.mem_cons.mpr h)
    rw [ih hrest, escaped?, if_neg (Ne.symm hc)]
    rfl
  | case2 => rfl

theorem percentDecode_eq_encode_iff {cs : List Char} :
    percentDecode cs = encode cs ↔ hasEscape cs = false := by
  refine ⟨fun h => Bool.eq_false_iff.mpr fun hescape => ?_, percentDecode_of_not_hasEscape⟩
  exact absurd (congrArg List.length h) (Nat.ne_of_lt ((length_percentDecode cs).2 hescape))

theorem hexDigit?_plusToSpace (c : Char) : hexDigit? (if c = '+' then ' ' else c) = hexDigit? c := by
  split
  case isTrue h => rw [h]; decide
  case isFalse => rfl

theorem escaped?_plusToSpace (c a b : Char) :
    escaped? (if c = '+' then ' ' else c) (if a = '+' then ' ' else a) (if b = '+' then ' ' else b) =
      escaped? c a b := by
  simp only [escaped?, hexDigit?_plusToSpace]
  split
  case isTrue h => rw [h]; rfl
  case isFalse => rfl

theorem hasEscape_plusToSpace (cs : List Char) : hasEscape (plusToSpace cs) = hasEscape cs := by
  fun_induction hasEscape cs with
  | case1 c a b rest ih =>
    rw [← ih]
    simp only [plusToSpace, List.map_cons, hasEscape, escaped?_plusToSpace]
  | case2 cs hshort =>
    unfold hasEscape
    split
    case h_1 heq =>
      obtain ⟨c, as, rfl, -, has⟩ := List.map_eq_cons_iff.mp heq
      obtain ⟨a, bs, rfl, -, hbs⟩ := List.map_eq_cons_iff.mp has
      obtain ⟨b, rest, rfl, -, -⟩ := List.map_eq_cons_iff.mp hbs
      exact absurd rfl (hshort c a b rest)
    case h_2 => rfl

theorem length_encode_plusToSpace (cs : List Char) :
    (encode (plusToSpace cs)).length = (encode cs).length := by
  induction cs with
  | nil => rfl
  | cons c cs ih =>
    rw [plusToSpace, List.map_cons, encode_cons, encode_cons, List.length_append, List.length_append,
      String.length_utf8EncodeChar, String.length_utf8EncodeChar]
    refine congrArg₂ (· + ·) ?_ ih
    split
    case isTrue h => rw [h]; decide
    case isFalse => rfl

theorem encode_plusToSpace_eq_iff {cs : List Char} :
    encode (plusToSpace cs) = encode cs ↔ '+' ∉ cs := by
  induction cs with
  | nil => simp [plusToSpace]
  | cons c cs ih =>
    rw [plusToSpace, List.map_cons, encode_cons, encode_cons, List.mem_cons, not_or, ← ih]
    by_cases hplus : c = '+'
    · rw [if_pos hplus]
      refine iff_of_false (fun h => ?_) fun h => h.1 hplus.symm
      have hlength : (String.utf8EncodeChar ' ').length = (String.utf8EncodeChar c).length := by
        rw [hplus]; decide
      have hbyte := (List.append_inj h hlength).1
      rw [hplus] at hbyte
      exact absurd hbyte (by decide)
    · rw [if_neg hplus, List.append_cancel_left_eq]
      exact (and_iff_right (Ne.symm hplus)).symm

theorem length_formDecode_le (cs : List Char) : (formDecode cs).length ≤ (encode cs).length :=
  length_encode_plusToSpace cs ▸ (length_percentDecode (plusToSpace cs)).1

theorem formDecode_eq_encode_iff {cs : List Char} :
    formDecode cs = encode cs ↔ '+' ∉ cs ∧ hasEscape cs = false := by
  rw [formDecode, ← encode_plusToSpace_eq_iff, ← hasEscape_plusToSpace]
  constructor
  · intro h
    have hescape : hasEscape (plusToSpace cs) = false := by
      apply Bool.eq_false_iff.mpr
      intro hescape
      have hlt := (length_percentDecode (plusToSpace cs)).2 hescape
      rw [h, length_encode_plusToSpace] at hlt
      exact Nat.lt_irrefl _ hlt
    exact ⟨percentDecode_of_not_hasEscape hescape ▸ h, hescape⟩
  · rintro ⟨hplus, hescape⟩
    rw [percentDecode_of_not_hasEscape hescape, hplus]

theorem not_mem_intercalate {c sep : Char} {parts : List (List Char)} (hsep : c ≠ sep)
    (h : ∀ part ∈ parts, c ∉ part) : c ∉ [sep].intercalate parts := by
  induction parts with
  | nil => exact List.not_mem_nil
  | cons part parts ih =>
    obtain ⟨hpart, hparts⟩ := List.forall_mem_cons.mp h
    cases parts with
    | nil => rwa [List.intercalate_singleton]
    | cons next parts =>
      rw [List.intercalate_cons_cons, List.mem_append, List.mem_append, List.mem_singleton]
      exact not_or.mpr ⟨not_or.mpr ⟨hpart, hsep⟩, ih hparts⟩

/-! ## Cutting -/

/-- The parts before the first end mark. -/
def scan (sep : Char) (stop : Char → Bool) (text : List Char) : List (List Char) :=
  (text.takeWhile fun c => !stop c).splitOn sep

/-- No character of the part ends it. -/
def Clean (sep : Char) (stop : Char → Bool) (part : List Char) : Prop :=
  ∀ c ∈ part, c ≠ sep ∧ stop c = false

section Scan

variable {sep : Char} {stop : Char → Bool} {part : List Char}

theorem Clean.takeWhile_append (h : Clean sep stop part) (text : List Char) :
    (part ++ text).takeWhile (fun c => !stop c) = part ++ text.takeWhile fun c => !stop c :=
  List.takeWhile_append_of_pos fun c hc => by rw [(h c hc).2]; rfl

theorem Clean.not_mem (h : Clean sep stop part) : sep ∉ part := fun hmem => (h sep hmem).1 rfl

theorem scan_append_cons (hsep : stop sep = false) (h : Clean sep stop part) (text : List Char) :
    scan sep stop (part ++ sep :: text) = part :: scan sep stop text := by
  rw [scan, h.takeWhile_append, List.takeWhile_cons_of_pos (by rw [hsep]; rfl),
    Lines.splitOn_append_cons h.not_mem, scan]

theorem scan_append_stop (h : Clean sep stop part) {tail : List Char}
    (htail : ∀ c ∈ tail.head?, stop c = true) : scan sep stop (part ++ tail) = [part] := by
  have hnil : tail.takeWhile (fun c => !stop c) = [] := by
    cases tail with
    | nil => rfl
    | cons c tail => exact List.takeWhile_cons_of_neg (by simp [htail c rfl])
  rw [scan, h.takeWhile_append, hnil, List.append_nil, Lines.splitOn_of_not_mem h.not_mem]

theorem exists_cut (h : ¬ Clean sep stop part) :
    ∃ q c r, part = q ++ c :: r ∧ Clean sep stop q ∧ (c = sep ∨ stop c = true) := by
  induction part with
  | nil => exact absurd (List.forall_mem_nil _) h
  | cons c part ih =>
    by_cases hc : c = sep ∨ stop c = true
    · exact ⟨[], c, part, rfl, List.forall_mem_nil _, hc⟩
    · rw [not_or, Bool.not_eq_true] at hc
      obtain ⟨q, c', r, rfl, hq, hc'⟩ := ih fun hpart => h (List.forall_mem_cons.mpr ⟨hc, hpart⟩)
      exact ⟨c :: q, c', r, rfl, List.forall_mem_cons.mpr ⟨hc, hq⟩, hc'⟩

theorem scan_cut (hsep : stop sep = false) (h : Clean sep stop part) {c : Char}
    (hc : c = sep ∨ stop c = true) (text : List Char) :
    ∃ rest, scan sep stop (part ++ c :: text) = part :: rest := by
  by_cases hstop : stop c = true
  · refine ⟨[], scan_append_stop h fun x hx => ?_⟩
    obtain rfl : c = x := by simpa using hx
    exact hstop
  · obtain rfl := hc.resolve_right hstop
    exact ⟨_, scan_append_cons hsep h text⟩

variable {β : Type} {dec : List Char → Option β} {enc : List Char → β}

/-- How a part is read: it is never skipped, and what is left of it where it is cut is taken
for something else. -/
structure Reads (sep : Char) (stop : Char → Bool) (dec : List Char → Option β)
    (enc : List Char → β) (part : List Char) : Prop where
  keep : (dec part).isSome
  cut : ∀ q c r, part = q ++ c :: r → Clean sep stop q → (c = sep ∨ stop c = true) →
    ∃ b, dec q = some b ∧ b ≠ enc part

theorem Reads.not_of_cut (h : Reads sep stop dec enc part) (hsep : stop sep = false)
    (hpart : ¬ Clean sep stop part) (text : List Char) (bs : List β) :
    (scan sep stop (part ++ text)).filterMap dec ≠ enc part :: bs := by
  obtain ⟨q, c, r, heq, hq, hc⟩ := exists_cut hpart
  obtain ⟨b, hdec, hne⟩ := h.cut q c r heq hq hc
  obtain ⟨rest, hscan⟩ := scan_cut hsep hq hc (r ++ text)
  rw [heq, List.append_assoc, List.cons_append, hscan, List.filterMap_cons_some hdec, ← heq]
  exact fun h => hne (List.cons.inj h).1

theorem Reads.cons_iff (h : Reads sep stop dec enc part) {parts : List (List Char)} {bs : List β} :
    (part :: parts).filterMap dec = enc part :: bs ↔
      dec part = some (enc part) ∧ parts.filterMap dec = bs := by
  obtain ⟨b, hb⟩ := Option.isSome_iff_exists.mp h.keep
  rw [List.filterMap_cons_some hb, hb, List.cons.injEq, Option.some.injEq]

/-- Parts put together with separators, and an end mark behind them or nothing, are read back
exactly if each is clean and read as what it stands for. -/
theorem filterMap_scan_eq_iff {parts : List (List Char)} {tail : List Char} (hparts : parts ≠ [])
    (hsep : stop sep = false) (htail : ∀ c ∈ tail.head?, stop c = true)
    (hreads : ∀ part ∈ parts, Reads sep stop dec enc part) :
    (scan sep stop ([sep].intercalate parts ++ tail)).filterMap dec = parts.map enc ↔
      ∀ part ∈ parts, Clean sep stop part ∧ dec part = some (enc part) := by
  induction parts with
  | nil => exact absurd rfl hparts
  | cons part parts ih =>
    obtain ⟨hread, hreads⟩ := List.forall_mem_cons.mp hreads
    rw [List.forall_mem_cons, List.map_cons]
    by_cases hclean : Clean sep stop part
    · cases parts with
      | nil =>
        rw [List.intercalate_singleton, scan_append_stop hclean htail, hread.cons_iff]
        simp [hclean]
      | cons next parts =>
        rw [List.intercalate_cons_cons, List.append_assoc, List.append_assoc, List.singleton_append,
          scan_append_cons hsep hclean, hread.cons_iff, ih (List.cons_ne_nil next parts) hreads]
        exact and_congr_left fun _ => (and_iff_right hclean).symm
    · refine iff_of_false ?_ fun h => hclean h.1.1
      cases parts with
      | nil =>
        rw [List.intercalate_singleton]
        exact hread.not_of_cut hsep hclean _ _
      | cons next parts =>
        rw [List.intercalate_cons_cons, List.append_assoc, List.append_assoc]
        exact hread.not_of_cut hsep hclean _ _

end Scan

/-! ## Paths and queries -/

def path (uri : List Char) : List Char := uri.takeWhile fun c => !(c == '?' || c == '#')

def segments (uri : List Char) : List (List UInt8) :=
  (((path uri).drop 1).splitOn '/').map percentDecode

def query (uri : List Char) : List Char :=
  ((uri.takeWhile fun c => !(c == '#')).dropWhile (· != '?')).drop 1

/-- A name and a value; nothing between two separators is no pair. -/
def pair? (part : List Char) : Option (List UInt8 × List UInt8) :=
  if part = [] then none
  else some (formDecode (part.takeWhile (· != '=')), formDecode ((part.dropWhile (· != '=')).drop 1))

def queryPairs (uri : List Char) : List (List UInt8 × List UInt8) :=
  ((query uri).splitOn '&').filterMap pair?

def PlainSegment (part : List Char) : Prop := '?' ∉ part ∧ '#' ∉ part ∧ hasEscape part = false

def PlainValue (part : List Char) : Prop :=
  '&' ∉ part ∧ '#' ∉ part ∧ '+' ∉ part ∧ hasEscape part = false

instance decidablePlainSegment (part : List Char) : Decidable (PlainSegment part) :=
  inferInstanceAs (Decidable (_ ∧ _))

instance decidablePlainValue (part : List Char) : Decidable (PlainValue part) :=
  inferInstanceAs (Decidable (_ ∧ _))

theorem segments_cons (text : List Char) : segments ('/' :: text) =
    (scan '/' (fun c => c == '?' || c == '#') text).filterMap fun part =>
      some (percentDecode part) := by
  rw [segments, path, List.takeWhile_cons_of_pos (by decide), List.drop_succ_cons, List.drop_zero, scan]
  exact (congrFun (List.filterMap_eq_map (f := percentDecode)) _).symm

theorem reads_segment (part : List Char) : Reads '/' (fun c => c == '?' || c == '#')
    (fun part => some (percentDecode part)) encode part where
  keep := rfl
  cut := by
    rintro q c r rfl - -
    refine ⟨_, rfl, fun h => ?_⟩
    have hle := (length_percentDecode q).1
    have hpos := length_encode_pos (List.cons_ne_nil c r)
    rw [h, encode_append, List.length_append] at hle
    omega

theorem segments_eq_iff {names : List (List Char)} {tail : List Char} (hne : names ≠ [])
    (hslash : ∀ name ∈ names, '/' ∉ name) (htail : ∀ c ∈ tail.head?, c = '?') :
    segments ('/' :: (['/'].intercalate names ++ tail)) = names.map encode ↔
      ∀ name ∈ names, PlainSegment name := by
  rw [segments_cons, filterMap_scan_eq_iff hne (by decide) (fun c hc => by rw [htail c hc]; decide)
    fun name _ => reads_segment name]
  apply forall₂_congr
  intro name hname
  rw [Option.some.injEq, percentDecode_eq_encode_iff, PlainSegment, ← and_assoc]
  refine and_congr_left fun _ => ⟨fun h => ?_, fun h c hc => ⟨?_, ?_⟩⟩
  · exact ⟨fun hmem => absurd (h _ hmem).2 (by decide), fun hmem => absurd (h _ hmem).2 (by decide)⟩
  · rintro rfl
    exact hslash name hname hc
  · refine Bool.or_eq_false_iff.mpr ⟨beq_false_of_ne ?_, beq_false_of_ne ?_⟩
    · rintro rfl
      exact h.1 hc
    · rintro rfl
      exact h.2 hc

def pairText (pair : List Char × List Char) : List Char := pair.1 ++ '=' :: pair.2

def pairBytes (pair : List Char × List Char) : List UInt8 × List UInt8 :=
  (encode pair.1, encode pair.2)

/-- The name and the value of a text that has both. -/
def pairOf (part : List Char) : List Char × List Char :=
  (part.takeWhile (· != '='), (part.dropWhile (· != '=')).drop 1)

theorem pairOf_pairText {pair : List Char × List Char} (h : '=' ∉ pair.1) :
    pairOf (pairText pair) = pair := by
  have hname : ∀ c ∈ pair.1, (c != '=') = true := by
    intro c hc
    rw [bne_iff_ne]
    rintro rfl
    exact h hc
  rw [pairOf, pairText, List.takeWhile_append_of_pos hname, List.dropWhile_append_of_pos hname]
  simp

theorem pair?_pairText {pair : List Char × List Char} (h : '=' ∉ pair.1) :
    pair? (pairText pair) = some (formDecode pair.1, formDecode pair.2) := by
  have hne : pairText pair ≠ [] := List.append_ne_nil_of_right_ne_nil _ (List.cons_ne_nil _ _)
  rw [pair?, if_neg hne]
  change some (formDecode (pairOf _).1, formDecode (pairOf _).2) = _
  rw [pairOf_pairText h]

theorem pairText_eq_append {pair : List Char × List Char} {q r : List Char} {c : Char}
    (hname : Clean '&' (· == '#') pair.1) (hc : c = '&' ∨ (c == '#') = true)
    (h : pairText pair = q ++ c :: r) :
    ∃ value, q = pairText (pair.1, value) ∧ pair.2 = value ++ c :: r := by
  have hequals : c ≠ '=' := by rintro rfl; revert hc; decide
  obtain ⟨as, hq, hvalue⟩ | ⟨bs, hname', hrest⟩ := List.append_eq_append_iff.mp h
  · cases as with
    | nil => exact absurd (List.cons.inj hvalue).1 hequals.symm
    | cons x as =>
      obtain ⟨hx, hrest⟩ := List.cons.inj hvalue
      subst hx
      exact ⟨as, hq, hrest⟩
  · cases bs with
    | nil => exact absurd (List.cons.inj hrest).1 hequals
    | cons x bs =>
      obtain ⟨rfl, -⟩ := List.cons.inj hrest
      have hclean := hname c (hname' ▸ List.mem_append_right q List.mem_cons_self)
      exact absurd hc (not_or.mpr ⟨hclean.1, Bool.not_eq_true _ ▸ hclean.2⟩)

theorem reads_pairText {pair : List Char × List Char} (hequals : '=' ∉ pair.1)
    (hname : Clean '&' (· == '#') pair.1) :
    Reads '&' (· == '#') pair? (pairBytes ∘ pairOf) (pairText pair) where
  keep := by rw [pair?_pairText hequals]; rfl
  cut q c r h _ hc := by
    obtain ⟨value, rfl, hvalue⟩ := pairText_eq_append hname hc h
    refine ⟨_, pair?_pairText hequals, fun heq => ?_⟩
    rw [Function.comp_apply, pairOf_pairText hequals] at heq
    have hle := length_formDecode_le value
    have hpos := length_encode_pos (List.cons_ne_nil c r)
    rw [show formDecode value = encode pair.2 from congrArg Prod.snd heq, hvalue, encode_append,
      List.length_append] at hle
    omega

theorem query_append {before : List Char} (hquestion : '?' ∉ before) (hhash : '#' ∉ before)
    (text : List Char) :
    query (before ++ '?' :: text) = text.takeWhile fun c => !(c == '#') := by
  have htake : ∀ c ∈ before, (!(c == '#')) = true := by
    intro c hc
    rw [Bool.not_eq_true', beq_eq_false_iff_ne]
    rintro rfl
    exact hhash hc
  have hdrop : ∀ c ∈ before, (c != '?') = true := by
    intro c hc
    rw [bne_iff_ne]
    rintro rfl
    exact hquestion hc
  rw [query, List.takeWhile_append_of_pos htake, List.dropWhile_append_of_pos hdrop,
    List.takeWhile_cons_of_pos (by decide), List.dropWhile_cons_of_neg (by decide), List.drop_succ_cons,
    List.drop_zero]

theorem queryPairs_of_not_mem {uri : List Char} (h : '?' ∉ uri) : queryPairs uri = [] := by
  have hquery : query uri = [] := by
    have hdrop : (uri.takeWhile fun c => !(c == '#')).dropWhile (· != '?') = [] := by
      refine List.dropWhile_eq_nil_iff.mpr fun c hc => bne_iff_ne.mpr ?_
      rintro rfl
      exact h ((List.takeWhile_prefix _).mem hc)
    rw [query, hdrop, List.drop_nil]
  rw [queryPairs, hquery, Lines.splitOn_of_not_mem List.not_mem_nil]
  rfl

theorem plainValue_iff {part : List Char} :
    PlainValue part ↔ Clean '&' (· == '#') part ∧ formDecode part = encode part := by
  rw [formDecode_eq_encode_iff, PlainValue, ← and_assoc]
  refine and_congr_left fun _ => ⟨fun h c hc => ⟨?_, beq_false_of_ne ?_⟩, fun h => ⟨?_, ?_⟩⟩
  · rintro rfl
    exact h.1 hc
  · rintro rfl
    exact h.2 hc
  · exact fun hmem => (h _ hmem).1 rfl
  · exact fun hmem => absurd (h _ hmem).2 (by decide)

theorem plainValue_of_hex {part : List Char} (h : ∀ c ∈ part, (hexDigit? c).isSome) :
    PlainValue part := by
  refine ⟨fun hc => ?_, fun hc => ?_, fun hc => ?_, not_hasEscape_of_not_mem fun hc => ?_⟩
  · exact absurd (h _ hc) (by decide)
  · exact absurd (h _ hc) (by decide)
  · exact absurd (h _ hc) (by decide)
  · exact absurd (h _ hc) (by decide)

theorem queryPairs_eq_iff {before : List Char} {pairs : List (List Char × List Char)}
    (hquestion : '?' ∉ before) (hhash : '#' ∉ before) (hne : pairs ≠ [])
    (hnames : ∀ pair ∈ pairs, '=' ∉ pair.1 ∧ PlainValue pair.1) :
    queryPairs (before ++ '?' :: ['&'].intercalate (pairs.map pairText)) = pairs.map pairBytes ↔
      ∀ pair ∈ pairs, PlainValue pair.2 := by
  have hbytes : pairs.map pairBytes = (pairs.map pairText).map (pairBytes ∘ pairOf) := by
    rw [List.map_map]
    apply List.map_congr_left
    intro pair hpair
    rw [Function.comp_apply, Function.comp_apply, pairOf_pairText (hnames pair hpair).1]
  have hreads : ∀ part ∈ pairs.map pairText,
      Reads '&' (· == '#') pair? (pairBytes ∘ pairOf) part := by
    rintro _ hpart
    obtain ⟨pair, hpair, rfl⟩ := List.mem_map.mp hpart
    exact reads_pairText (hnames pair hpair).1 (plainValue_iff.mp (hnames pair hpair).2).1
  have hend : ∀ c ∈ ([] : List Char).head?, (c == '#') = true := fun c hc => by cases hc
  have hscan := filterMap_scan_eq_iff (mt List.map_eq_nil_iff.mp hne) (by decide) hend hreads
  rw [List.append_nil] at hscan
  rw [queryPairs, query_append hquestion hhash, hbytes]
  apply hscan.trans
  rw [List.forall_mem_map]
  apply forall₂_congr
  intro pair hpair
  obtain ⟨hequals, hname⟩ := hnames pair hpair
  obtain ⟨hclean, hdecode⟩ := plainValue_iff.mp hname
  rw [plainValue_iff, pair?_pairText hequals, Function.comp_apply, pairOf_pairText hequals, pairBytes,
    Option.some.injEq, Prod.mk.injEq, and_iff_right hdecode]
  refine and_congr_left fun _ => ⟨fun h c hc => ?_, fun h => ?_⟩
  · exact h c (List.mem_append_right _ (List.mem_cons_of_mem _ hc))
  · refine List.forall_mem_append.mpr ⟨hclean, List.forall_mem_cons.mpr ⟨by decide, h⟩⟩

end Gcit.Library.Uri
