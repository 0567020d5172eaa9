import Mathlib.Algebra.GroupWithZero.Nat
import Mathlib.Data.List.Basic

/-! # Messages in a stream

A decoder looks at what has arrived of a stream: a whole message with what follows it, the
beginning of one, or something no encoder wrote. What it takes out of a stream that is a
sequence of messages is these messages, wherever the stream was cut on its way.
-/

namespace Gcit.Library.Frames

universe u v w

inductive Decoded (α : Type u) (β : Type v) (ε : Type w) where
  | incomplete
  | frame (body : β) (rest : List α)
  | invalid (e : ε)

/-- The encoder may refuse a message. -/
structure Codec (α : Type u) (β : Type v) (ε : Type w) where
  encode : β → Option (List α)
  decode : List α → Decoded α β ε

variable {α : Type u} {β : Type v} {ε : Type w} {c : Codec α β ε}

structure Codec.Lawful (c : Codec α β ε) : Prop where
  decode_nil : c.decode [] = .incomplete
  decode_encode : ∀ body bytes rest, c.encode body = some bytes →
    c.decode (bytes ++ rest) = .frame body rest
  decode_prefix : ∀ body bytes pre post, c.encode body = some bytes → pre ++ post = bytes →
    post ≠ [] → c.decode pre = .incomplete

/-- Messages in another form, which the old one can be turned into and back. -/
def Codec.map {γ δ : Type*} (c : Codec α β ε) (f : γ → β) (g : β → γ) (k : ε → δ) :
    Codec α γ δ where
  encode body := c.encode (f body)
  decode stream := match c.decode stream with
    | .incomplete => .incomplete
    | .frame body rest => .frame (g body) rest
    | .invalid e => .invalid (k e)

theorem Codec.Lawful.map {γ δ : Type*} {f : γ → β} {g : β → γ} (k : ε → δ) (hc : c.Lawful)
    (hfg : ∀ body, g (f body) = body) : (c.map f g k).Lawful where
  decode_nil := by simp only [Codec.map, hc.decode_nil]
  decode_encode body bytes rest h := by
    simp only [Codec.map, hc.decode_encode (f body) bytes rest h, hfg]
  decode_prefix body bytes pre post h hsplit hpost := by
    simp only [Codec.map, hc.decode_prefix (f body) bytes pre post h hsplit hpost]

/-- The stream that carries these messages. -/
inductive Carries (c : Codec α β ε) : List β → List α → Prop where
  | nil : Carries c [] []
  | cons {body : β} {bytes : List α} {bodies : List β} {stream : List α}
      (encoded : c.encode body = some bytes) (rest : Carries c bodies stream) :
      Carries c (body :: bodies) (bytes ++ stream)

namespace Carries

theorem concat {body : β} {bytes : List α} {bodies : List β} {stream : List α}
    (h : Carries c bodies stream) (hbody : c.encode body = some bytes) :
    Carries c (bodies ++ [body]) (stream ++ bytes) := by
  induction h with
  | nil => simpa using Carries.cons hbody .nil
  | cons encoded _ ih =>
    rw [List.append_assoc]
    exact .cons encoded ih

/-- Of a stream in part arrived, a decoder takes the next message or waits. -/
theorem decode (hc : c.Lawful) {bodies : List β} {got later : List α}
    (h : Carries c bodies (got ++ later)) :
    c.decode got = .incomplete ∨ ∃ body bodies' got', bodies = body :: bodies' ∧
      c.decode got = .frame body got' ∧ Carries c bodies' (got' ++ later) := by
  generalize hstream : got ++ later = stream at h
  cases h with
  | nil =>
    obtain ⟨rfl, -⟩ := List.append_eq_nil_iff.mp hstream
    exact .inl hc.decode_nil
  | @cons body bytes bodies stream encoded hrest =>
    rcases List.append_eq_append_iff.mp hstream with ⟨post, rfl, hlater⟩ | ⟨got', rfl, hlater⟩
    · -- What has arrived ends in this message, or with it.
      rcases eq_or_ne post [] with rfl | hpost
      · refine .inr ⟨body, bodies, [], rfl, ?_, ?_⟩
        · simpa using hc.decode_encode body _ [] encoded
        · simpa [hlater] using hrest
      · exact .inl (hc.decode_prefix body _ got post encoded rfl hpost)
    · exact .inr ⟨body, bodies, got', rfl, hc.decode_encode body bytes got' encoded,
        hlater ▸ hrest⟩

/-- Only a message that the stream carries is ever taken out of it. -/
theorem of_frame (hc : c.Lawful) {bodies : List β} {got later rest : List α} {body : β}
    (h : Carries c bodies (got ++ later)) (hdecode : c.decode got = .frame body rest) :
    ∃ bodies', bodies = body :: bodies' ∧ Carries c bodies' (rest ++ later) := by
  rcases h.decode hc with hwait | ⟨body', bodies', got', rfl, hframe, hrest⟩
  · rw [hwait] at hdecode
    cases hdecode
  · rw [hframe] at hdecode
    cases hdecode
    exact ⟨bodies', rfl, hrest⟩

theorem not_invalid (hc : c.Lawful) {bodies : List β} {got later : List α}
    (h : Carries c bodies (got ++ later)) (e : ε) : c.decode got ≠ .invalid e := by
  intro hdecode
  rcases h.decode hc with hwait | ⟨body', bodies', got', rfl, hframe, -⟩
  · rw [hwait] at hdecode
    cases hdecode
  · rw [hframe] at hdecode
    cases hdecode

end Carries

/-! ## One direction of a connection -/

/-- Of the messages `sent`, `n` were taken out of the stream. A writer that has quit may have
left one unfinished and the last ones out. -/
def InFlight (c : Codec α β ε) (sent : List β) (n : Nat) (stream : List α) (writing : Prop) :
    Prop :=
  ∃ taken unread unsent lost, sent = taken ++ unread ++ unsent ∧ taken.length = n ∧
    Carries c unread (stream ++ lost) ∧ (writing → lost = [] ∧ unsent = [])

namespace InFlight

variable {sent : List β} {n : Nat} {stream : List α} {writing : Prop}

theorem start (c : Codec α β ε) (writing : Prop) : InFlight c [] 0 [] writing :=
  ⟨[], [], [], [], rfl, rfl, .nil, fun _ => ⟨rfl, rfl⟩⟩

theorem imp {writing' : Prop} (h : InFlight c sent n stream writing) (hw : writing' → writing) :
    InFlight c sent n stream writing' := by
  obtain ⟨taken, unread, unsent, lost, hsent, hn, hcarries, hwhole⟩ := h
  exact ⟨taken, unread, unsent, lost, hsent, hn, hcarries, hwhole ∘ hw⟩

theorem send {body : β} {bytes : List α} (h : InFlight c sent n stream writing) (hw : writing)
    (hbody : c.encode body = some bytes) : InFlight c (sent ++ [body]) n (stream ++ bytes) writing := by
  obtain ⟨taken, unread, unsent, lost, rfl, hn, hcarries, hwhole⟩ := h
  obtain ⟨rfl, rfl⟩ := hwhole hw
  refine ⟨taken, unread ++ [body], [], [], by simp, hn, ?_, fun _ => ⟨rfl, rfl⟩⟩
  simpa using hcarries.concat hbody

theorem refused {writing' : Prop} (body : β) (h : InFlight c sent n stream writing)
    (hquit : ¬writing') : InFlight c (sent ++ [body]) n stream writing' := by
  obtain ⟨taken, unread, unsent, lost, rfl, hn, hcarries, -⟩ := h
  exact ⟨taken, unread, unsent ++ [body], lost, by simp, hn, hcarries, fun hw => absurd hw hquit⟩

theorem quit {writing' : Prop} {left : List α} (h : InFlight c sent n (stream ++ left) writing)
    (hquit : ¬writing') : InFlight c sent n stream writing' := by
  obtain ⟨taken, unread, unsent, lost, hsent, hn, hcarries, -⟩ := h
  refine ⟨taken, unread, unsent, left ++ lost, hsent, hn, ?_, fun hw => absurd hw hquit⟩
  rwa [← List.append_assoc]

theorem take (hc : c.Lawful) {got later rest : List α} {body : β}
    (h : InFlight c sent n (got ++ later) writing) (hdecode : c.decode got = .frame body rest) :
    sent[n]? = some body ∧ InFlight c sent (n + 1) (rest ++ later) writing := by
  obtain ⟨taken, unread, unsent, lost, rfl, rfl, hcarries, hwhole⟩ := h
  rw [List.append_assoc] at hcarries
  obtain ⟨unread, rfl, hrest⟩ := hcarries.of_frame hc hdecode
  refine ⟨by simp, taken ++ [body], unread, unsent, lost, by simp, by simp, ?_, hwhole⟩
  rwa [List.append_assoc]

theorem not_invalid (hc : c.Lawful) {got later : List α}
    (h : InFlight c sent n (got ++ later) writing) (e : ε) : c.decode got ≠ .invalid e := by
  obtain ⟨taken, unread, unsent, lost, -, -, hcarries, -⟩ := h
  rw [List.append_assoc] at hcarries
  exact hcarries.not_invalid hc e

end InFlight

/-! ## A length before each message -/

/-- Four bytes, the most significant one first. -/
def bigEndian (n : Nat) : List UInt8 :=
  [.ofNat (n / 2 ^ 24), .ofNat (n / 2 ^ 16), .ofNat (n / 2 ^ 8), .ofNat n]

def ofBigEndian (a b c d : UInt8) : Nat :=
  a.toNat * 2 ^ 24 + b.toNat * 2 ^ 16 + c.toNat * 2 ^ 8 + d.toNat

def lengthDelimited (cap : Nat) : Codec UInt8 (List UInt8) Nat where
  encode body := if body.length ≤ cap then some (bigEndian body.length ++ body) else none
  decode
    | a :: b :: c :: d :: rest =>
      let n := ofBigEndian a b c d
      if cap < n then .invalid n
      else if rest.length < n then .incomplete
      else .frame (rest.take n) (rest.drop n)
    | _ => .incomplete

end Gcit.Library.Frames
