import PeripheralLayer.Json.Numeral
import PeripheralLayer.Json.QuotedText

/-!
Skipping of values nobody asked for. They must be well-formed, to any depth. Numbers are held to the
grammar alone, and here a number that lacks a digit is malformed even where the text ends.
-/
namespace PeripheralLayer.Json

inductive Skipped where
  | value
  | items (first : Bool)
  | members (first : Bool)
  deriving DecidableEq, Repr

def comma (first : Bool) (otherwise : Flaw) : Reader Unit := if first then pure () else Reader.expect ',' otherwise

def skipWithin : Nat → Skipped → Reader Unit
  | 0, _ => Reader.fail .truncated
  | fuel + 1, .value => do
    let c ← Reader.peek
    if c = '-' || c.isDigit then
      let _ ← numeral (.malformed .badNumber)
    else
      let _ ← Reader.next
      match c with
      | 'n' => Reader.word ['u', 'l', 'l']
      | 't' => Reader.word ['r', 'u', 'e']
      | 'f' => Reader.word ['a', 'l', 's', 'e']
      | '"' => skipQuoted
      | '[' => skipWithin fuel (.items true)
      | '{' => skipWithin fuel (.members true)
      | _ => Reader.fail (.malformed .valueMissing)
  | fuel + 1, .items first => do
    let c ← Reader.peek
    if c = ']' then
      let _ ← Reader.next
    else
      comma first .itemsUnseparated
      skipWithin fuel .value
      skipWithin fuel (.items false)
  | fuel + 1, .members first => do
    let c ← Reader.peek
    if c = '}' then
      let _ ← Reader.next
    else
      comma first .membersUnseparated
      Reader.expect '"' .nameUnquoted
      skipQuoted
      Reader.expect ':' .colonMissing
      skipWithin fuel .value
      skipWithin fuel (.members false)

/-- Skips one value. A value takes at least one character, and so does what separates two of them, so
twice the length of the text is fuel enough. -/
def skipValue : Reader Unit := fun text => skipWithin (2 * text.length) .value text

end PeripheralLayer.Json
