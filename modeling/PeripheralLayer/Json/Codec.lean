import PeripheralLayer.Enumerated
import PeripheralLayer.Json.Skipping

/-!
Codecs: a type's way into and out of JSON. Each kind of value is read in every form JSON offers for it,
and written in one: numbers in decimal, words of a vocabulary by their names, records as objects with
their fields in order, all without blanks.
-/
namespace PeripheralLayer.Json

/-- Behind the name of a member that is no field's, `readWith` reads on with the reader it is given. -/
structure Codec (α : Type) where
  readWith : (foreign : Reader Unit) → Reader α
  write : α → List Char

def passOver : Reader Unit := do
  Reader.expect ':' .colonMissing
  skipValue

namespace Codec

variable {α β : Type}

abbrev read (codec : Codec α) : Reader α := codec.readWith passOver

def map (codec : Codec α) (make : α → β) (split : β → α) : Codec β where
  readWith foreign := do pure (make (← codec.readWith foreign))
  write b := codec.write (split b)

end Codec

/-- Reads on to find out what a value is. Of a sequence or a map the bracket is enough. -/
def found : Reader Found := do
  let c ← Reader.peek
  if c = '-' || c.isDigit then
    match ← number with
    | .integer value => pure (.integer value)
    | .floating bits => pure (.floating bits)
  else
    let _ ← Reader.next
    match c with
    | 'n' =>
      Reader.word ['u', 'l', 'l']
      pure .null
    | 't' =>
      Reader.word ['r', 'u', 'e']
      pure (.boolean true)
    | 'f' =>
      Reader.word ['a', 'l', 's', 'e']
      pure (.boolean false)
    | '"' => pure (.text (← quotedText))
    | '[' => pure .sequence
    | '{' => pure .map
    | _ => Reader.fail (.malformed .valueMissing)

def mismatch {α : Type} (expected : String) : Reader α := do
  let value ← found
  Reader.fail (.data (.wrongType value expected))

/-! Numbers and flags. -/

def wordName (bits : Nat) : String := s!"u{bits}"

def readWord (bits : Nat) : Reader Nat := do
  let c ← Reader.peek
  if c = '-' || c.isDigit then
    match ← number with
    | .integer value =>
      if 0 ≤ value && value < Nat.pow 2 bits then pure value.toNat
      else Reader.fail (.data (.outOfRange value (wordName bits)))
    | .floating value => Reader.fail (.data (.wrongType (.floating value) (wordName bits)))
  else mismatch (wordName bits)

def wordCodec (bits : Nat) : Codec Nat := ⟨fun _ => readWord bits, Nat.toDigits 10⟩

def byte : Codec UInt8 := (wordCodec 8).map UInt8.ofNat UInt8.toNat
def halfWord : Codec UInt16 := (wordCodec 16).map UInt16.ofNat UInt16.toNat
def fullWord : Codec UInt32 := (wordCodec 32).map UInt32.ofNat UInt32.toNat

def readFlag : Reader Bool := do
  match ← Reader.peek with
  | 't' =>
    Reader.word ['t', 'r', 'u', 'e']
    pure true
  | 'f' =>
    Reader.word ['f', 'a', 'l', 's', 'e']
    pure false
  | _ => mismatch "a boolean"

def flag : Codec Bool := ⟨fun _ => readFlag, fun b => (if b then "true" else "false").toList⟩

/-! Words of a vocabulary, as a text or as an object that has the name for its only key and null for
its value. -/

def writeName (name : String) : List Char := '"' :: name.toList ++ ['"']

def readUnit : Reader Unit := do
  match ← Reader.peek with
  | 'n' => Reader.word ['n', 'u', 'l', 'l']
  | _ => mismatch "unit"

def readVariant (α : Type) [Enumerated α] : Reader α := do
  let name ← quotedText
  match Enumerated.ofName? name with
  | some a => pure a
  | none => Reader.fail (.data (.unknownVariant name ((Enumerated.all : List α).map Enumerated.name)))

/-- The key of an object must be a text before it is looked up: in its place every other value, finished or
not, breaks the grammar and is not told to be of the wrong type. -/
def readChoice (α : Type) [Enumerated α] : Reader α := do
  match ← Reader.token with
  | '"' => readVariant α
  | '{' =>
    Reader.expect '"' .nameUnquoted
    let a ← readVariant α
    Reader.expect ':' .colonMissing
    readUnit
    Reader.expect '}' .valueMissing
    pure a
  | _ => Reader.fail (.malformed .valueMissing)

def choice (α : Type) [Enumerated α] : Codec α := ⟨fun _ => readChoice α, fun a => writeName (Enumerated.name a)⟩

/-! Records, as an object with the fields in any order or as a sequence of the fields in theirs. -/

structure Field where
  name : String
  Value : Type
  codec : Codec Value

def Values : List Field → Type
  | [] => Unit
  | field :: fields => field.Value × Values fields

def Slots : List Field → Type
  | [] => Unit
  | field :: fields => Option field.Value × Slots fields

namespace Slots

def empty : (fields : List Field) → Slots fields
  | [] => ()
  | _ :: fields => (none, empty fields)

/-- Reads a member whose name has just been read. A second value for a field is reported before it is
looked at. -/
def member (foreign : Reader Unit) : (fields : List Field) → Slots fields → String → Reader (Slots fields)
  | [], (), _ => foreign
  | field :: fields, (slot, slots), name =>
    if name = field.name then
      match slot with
      | some _ => Reader.fail (.data (.duplicateField field.name))
      | none => do
        Reader.expect ':' .colonMissing
        let value ← field.codec.readWith foreign
        pure (some value, slots)
    else do
      let slots ← member foreign fields slots name
      pure (slot, slots)

def values : (fields : List Field) → Slots fields → Except Mismatch (Values fields)
  | [], () => .ok ()
  | field :: fields, (slot, slots) =>
    match slot with
    | none => .error (.missingField field.name)
    | some value =>
      match values fields slots with
      | .error mismatch => .error mismatch
      | .ok rest => .ok (value, rest)

end Slots

def openName : Reader Unit := do
  match ← Reader.token with
  | '"' => pure ()
  | '}' => Reader.fail (.malformed .commaLast)
  | _ => Reader.fail (.malformed .nameUnquoted)

def members (foreign : Reader Unit) (fields : List Field) : Nat → Bool → Slots fields → Reader (Slots fields)
  | 0, _, _ => Reader.fail .truncated
  | fuel + 1, first, slots => do
    let c ← Reader.peek
    if c = '}' then
      let _ ← Reader.next
      pure slots
    else
      comma first .membersUnseparated
      openName
      let name ← quotedText
      let slots ← slots.member foreign fields name
      members foreign fields fuel false slots

/-- Each member takes more than one character, so the length of the text is fuel enough. -/
def readMembers (foreign : Reader Unit) (fields : List Field) : Reader (Values fields) := fun text =>
  match members foreign fields text.length true (Slots.empty fields) text with
  | .error problem => .error problem
  | .ok (slots, rest) =>
    match slots.values fields with
    | .error mismatch => .error (.data mismatch)
    | .ok values => .ok (values, rest)

/-- What a comma behind the last item comes to. This is the only place where a reader looks further than it
has to in order to know that there is a problem. -/
def surplusComma (rest : List Char) : Flaw :=
  match rest.dropWhile Reader.isBlank with
  | [] => .commaOpen
  | c :: _ => if c = ']' then .commaLast else .textLeft

def closeItems : Reader Unit := do
  match ← Reader.token with
  | ']' => pure ()
  | ',' => fun rest => .error (.malformed (surplusComma rest))
  | _ => Reader.fail (.malformed .textLeft)

def readItems (foreign : Reader Unit) (record : String) (size : Nat) :
    Nat → (fields : List Field) → Reader (Values fields)
  | _, [] => closeItems
  | index, field :: fields => do
    let c ← Reader.peek
    if c = ']' then Reader.fail (.data (.tooShort index record size))
    else
      comma (index = 0) .itemsUnseparated
      let d ← Reader.peek
      if d = ']' then Reader.fail (.malformed .commaLast)
      else
        let value ← field.codec.readWith foreign
        let values ← readItems foreign record size (index + 1) fields
        pure (value, values)

def readRecord (foreign : Reader Unit) (record : String) (fields : List Field) : Reader (Values fields) := do
  match ← Reader.peek with
  | '{' =>
    let _ ← Reader.next
    readMembers foreign fields
  | '[' =>
    let _ ← Reader.next
    readItems foreign record fields.length 0 fields
  | _ => mismatch s!"struct {record}"

def writeMembers : (fields : List Field) → Values fields → List (List Char)
  | [], () => []
  | field :: fields, (value, values) =>
    (writeName field.name ++ ':' :: field.codec.write value) :: writeMembers fields values

def record (name : String) (fields : List Field) : Codec (Values fields) where
  readWith foreign := readRecord foreign name fields
  write values := '{' :: [','].intercalate (writeMembers fields values) ++ ['}']

structure RecordFormat (α : Type) where
  name : String
  fields : List Field
  make : Values fields → α
  split : α → Values fields

def RecordFormat.codec {α : Type} (format : RecordFormat α) : Codec α :=
  (record format.name format.fields).map format.make format.split

namespace Codec

variable {α : Type}

def decode (codec : Codec α) (text : String) : Except Problem α := codec.read.run text.toList

def encode (codec : Codec α) (a : α) : String := String.ofList (codec.write a)

def normalize (codec : Codec α) (text : String) : Except Problem String :=
  match codec.decode text with
  | .error problem => .error problem
  | .ok a => .ok (codec.encode a)

end Codec

end PeripheralLayer.Json
