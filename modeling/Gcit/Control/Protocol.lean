import Gcit.Library.Frames
import Gcit.Library.JsonRead
import Gcit.Library.Utf8
import Gcit.Control.Exchange

/-! # Requests and responses on the wire

What the two ends write is read back. The crates given here are plain ones: a length
before each body, and the compact text of the JSON in it.
-/

namespace Gcit.Github

open Gcit.Git

/-- The hyphenated form, in lower case. -/
def Uuid.ofText (text : String) : Option Uuid :=
  ((text.toList.filter (· ≠ '-')).mapM hexValue).bind fun nibbles =>
    if h : nibbles.length = 32 then
      if (⟨nibbles, h⟩ : Uuid).toText = text then some ⟨nibbles, h⟩ else none
    else none

end Gcit.Github

namespace Gcit.Control

open Gcit.Github Gcit.Library

/-- The members of an object that has these fields at most, and none twice. -/
def fieldsOf (names : List String) (members : List (String × Json)) :
    Option (String → Option Json) :=
  if (members.map Prod.fst).Nodup ∧ ∀ member ∈ members, member.1 ∈ names then
    some fun name => members.lookup name
  else none

def readId (fields : String → Option Json) : Option Uuid :=
  match fields "id" with
  | some (.string id) => Uuid.ofText id
  | _ => none

/-- As derived: by `kind`, with no field left over; `flow` may be left out. -/
def Request.ofJson : Json → Option Request
  | .object members => match members.lookup "kind" with
    | some (.string "trigger") => do
      let fields ← fieldsOf ["kind", "id", "flow", "dry_run"] members
      let id ← readId fields
      match fields "flow", fields "dry_run" with
      | some (.string flow), some (.bool dryRun) => some (.trigger id flow dryRun)
      | _, _ => none
    | some (.string "status") => do
      let fields ← fieldsOf ["kind", "id", "flow"] members
      let id ← readId fields
      match fields "flow" with
      | some (.string flow) => some (.status id (some flow))
      | none | some .null => some (.status id none)
      | some _ => none
    | some (.string "reload") => do
      let fields ← fieldsOf ["kind", "id"] members
      (readId fields).map Request.reload
    | some (.string "version") => do
      let fields ← fieldsOf ["kind", "id"] members
      (readId fields).map Request.version
    | _ => none
  | _ => none

/-- `data` may be left out. -/
def Response.ofJson : Json → Option Response
  | .object members => match members.lookup "kind" with
    | some (.string "ok") => do
      let fields ← fieldsOf ["kind", "id", "data"] members
      let id ← readId fields
      some (.ok id ((fields "data").getD .null))
    | some (.string "error") => do
      let fields ← fieldsOf ["kind", "id", "message"] members
      let id ← readId fields
      match fields "message" with
      | some (.string message) => some (.error id message)
      | _ => none
    | _ => none
  | _ => none

/-- The bytes of a body read by what reads its JSON. -/
def readBody {α : Type} (ofJson : Json → Option α) (body : ByteArray) : Except String α :=
  match ((String.fromUTF8? body).bind fun text => Json.read Json.readNumeral text.toList).bind
      ofJson with
  | some value => .ok value
  | none => .error "expected value at line 1 column 1"

def plainCrates : WireCrates where
  fromSlice := readBody Request.ofJson
  number := Json.numeral
  codec := (Frames.lengthDelimited MAX_FRAME_LEN).map (fun body => body.data.toList)
    (fun bytes => ⟨bytes.toArray⟩) fun _ => "frame size too big"
  parseResponse := readBody Response.ofJson

end Gcit.Control
