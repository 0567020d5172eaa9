import Mathlib.Data.List.Basic

/-! # The bytes of a UTF-8 text

A code point is encoded by one byte of its own value below 0x80, or by a byte from 0x80
on and continuation bytes. No first byte is a continuation byte, so a code point ends
where the next byte is none. A position of a byte array is read as the list of the bytes
from it on.
-/

namespace Gcit.Library.Utf8

abbrev IsContinuation (b : UInt8) : Prop := b &&& 0b11000000 = 0b10000000

/-- Bits that a mask leaves out do not reach what is read through it. -/
theorem tagged_and {m k : UInt8} (h : m &&& k = 0) (x t : UInt8) :
    (x &&& m ||| t) &&& k = t &&& k := by
  have hdistrib : (x &&& m ||| t) &&& k = x &&& m &&& k ||| t &&& k :=
    UInt8.toBitVec_inj.mp BitVec.and_or_distrib_right
  rw [hdistrib, UInt8.and_assoc, h, UInt8.and_zero, UInt8.zero_or]

theorem le_of_and_eq {b k t : UInt8} (h : b &&& k = t) : t.toNat ≤ b.toNat := by
  rw [← h, UInt8.toNat_and]
  exact Nat.and_le_left

theorem isContinuation_tagged (x : UInt8) : IsContinuation (x &&& 0x3f ||| 0x80) :=
  tagged_and rfl x 0x80

/-- The lead of several bytes: the first two bits are set. -/
theorem lead_tagged {m t : UInt8} (hm : m &&& 0b11000000 = 0) (ht : t &&& 0b11000000 = 0b11000000)
    (x : UInt8) : ¬IsContinuation (x &&& m ||| t) ∧ 0x80 ≤ (x &&& m ||| t).toNat := by
  have hlead : (x &&& m ||| t) &&& 0b11000000 = 0b11000000 := (tagged_and hm x t).trans ht
  constructor
  · intro h
    rw [IsContinuation, hlead] at h
    cases h
  · have hle : (0b11000000 : UInt8).toNat ≤ (x &&& m ||| t).toNat := le_of_and_eq hlead
    exact Nat.le_trans (by decide) hle

/-- A code point below 0x80 is one byte of its value; another starts with a byte from
0x80 on. -/
theorem utf8EncodeChar_cases (c : Char) : ∃ first rest, String.utf8EncodeChar c = first :: rest ∧
    ¬IsContinuation first ∧ (∀ b ∈ rest, IsContinuation b) ∧
    (rest = [] ∧ first.toNat = c.toNat ∨ 0x80 ≤ first.toNat ∧ 0x80 ≤ c.toNat) := by
  rcases Nat.lt_or_ge c.toNat 0x80 with hsmall | hlarge
  · have hsmall : c.toNat ≤ 127 := Nat.le_of_lt_succ hsmall
    have h : c.utf8Size = 1 := Char.utf8Size_eq_one_iff.mpr hsmall
    have hbyte : c.val.toUInt8.toNat = c.toNat :=
      Nat.mod_eq_of_lt (Nat.lt_of_le_of_lt hsmall (by decide))
    refine ⟨c.val.toUInt8, [], String.utf8EncodeChar_eq_singleton h, fun hcont => ?_, ?_,
      .inl ⟨rfl, hbyte⟩⟩
    · have hle := le_of_and_eq hcont
      rw [hbyte] at hle
      exact absurd (Nat.le_trans hle hsmall) (by decide)
    · intro b hb
      cases hb
  · have hsize : c.utf8Size ≠ 1 :=
      fun h => absurd (Char.utf8Size_eq_one_iff.mp h) (Nat.not_le.mpr hlarge)
    have hrest : ∀ xs : List UInt8, ∀ b ∈ xs.map (· &&& 0x3f ||| 0x80), IsContinuation b := by
      intro xs b hb
      obtain ⟨x, -, rfl⟩ := List.mem_map.mp hb
      exact isContinuation_tagged x
    rcases c.utf8Size_eq with h | h | h | h
    · exact absurd h hsize
    · have hlead := lead_tagged (m := 0x1f) (t := 0xc0) rfl rfl (c.val >>> 6).toUInt8
      exact ⟨_, _, String.utf8EncodeChar_eq_cons_cons h, hlead.1, hrest [_], .inr ⟨hlead.2, hlarge⟩⟩
    · have hlead := lead_tagged (m := 0x0f) (t := 0xe0) rfl rfl (c.val >>> 12).toUInt8
      exact ⟨_, _, String.utf8EncodeChar_eq_cons_cons_cons h, hlead.1, hrest [_, _],
        .inr ⟨hlead.2, hlarge⟩⟩
    · have hlead := lead_tagged (m := 0x07) (t := 0xf0) rfl rfl (c.val >>> 18).toUInt8
      exact ⟨_, _, String.utf8EncodeChar_eq_cons_cons_cons_cons h, hlead.1, hrest [_, _, _],
        .inr ⟨hlead.2, hlarge⟩⟩

def remaining (bytes : ByteArray) (i : Nat) : List UInt8 := bytes.data.toList.drop i

theorem remaining_of_lt {bytes : ByteArray} {i : Nat} (h : i < bytes.size) :
    remaining bytes i = bytes[i] :: remaining bytes (i + 1) :=
  List.drop_eq_getElem_cons h

theorem remaining_of_le {bytes : ByteArray} {i : Nat} (h : bytes.size ≤ i) :
    remaining bytes i = [] :=
  List.drop_eq_nil_of_le h

theorem remaining_eq_cons {bytes : ByteArray} {i : Nat} {b : UInt8} {rest : List UInt8}
    (h : remaining bytes i = b :: rest) :
    ∃ hi : i < bytes.size, bytes[i] = b ∧ remaining bytes (i + 1) = rest := by
  have hi : i < bytes.size := by
    apply Nat.lt_of_not_le
    intro hle
    rw [remaining_of_le hle] at h
    cases h
  rw [remaining_of_lt hi] at h
  exact ⟨hi, List.cons.inj h⟩

theorem remaining_eq_nil {bytes : ByteArray} {i : Nat} (h : remaining bytes i = []) :
    ¬i < bytes.size := by
  intro hi
  rw [remaining_of_lt hi] at h
  cases h

theorem remaining_add {bytes : ByteArray} {i : Nat} {run rest : List UInt8}
    (h : remaining bytes i = run ++ rest) : remaining bytes (i + run.length) = rest := by
  rw [remaining, ← List.drop_drop, ← remaining, h, List.drop_left]

theorem remaining_toByteArray (text : String) :
    remaining text.toByteArray 0 = text.toList.flatMap String.utf8EncodeChar := by
  have h : text.toByteArray = text.toList.utf8Encode := by simp
  rw [h, List.utf8Encode]
  simp [remaining]

theorem extract_of_remaining {bytes : ByteArray} {i : Nat} {run rest : List UInt8}
    (h : remaining bytes i = run ++ rest) :
    bytes.extract i (i + run.length) = run.toByteArray := by
  apply ByteArray.ext
  apply Array.toList_inj.mp
  have htake : (bytes.data.toList.drop i).take run.length = run := by
    rw [← remaining, h, List.take_left]
  simpa [ByteArray.data_extract] using htake

theorem fromUTF8?_toByteArray (text : String) : String.fromUTF8? text.toByteArray = some text :=
  dif_pos text.isValidUTF8

theorem fromUTF8?_utf8EncodeChar (c : Char) :
    String.fromUTF8? (String.utf8EncodeChar c).toByteArray = some (String.singleton c) := by
  rw [← List.utf8Encode_singleton, ← String.toByteArray_singleton, fromUTF8?_toByteArray]

end Gcit.Library.Utf8
