import PeripheralLayer.Decimal.Shortest
import PeripheralLayer.Text.Quoted

/-!
What can be wrong with a JSON text that should describe a value of a given type. A text can end too
early, break the grammar, or be well-formed so far and yet not describe such a value. Problems of the last
two kinds have a message.
-/
namespace PeripheralLayer.Json

/-- What a text holds in a place where something else was expected. Of a number with a point or an
exponent the bits of its double are kept. -/
inductive Found where
  | null
  | boolean (value : Bool)
  | integer (value : Int)
  | floating (bits : UInt64)
  | text (value : String)
  | sequence
  | map
  deriving DecidableEq, Repr

inductive Mismatch where
  | missingField (name : String)
  | duplicateField (name : String)
  | tooShort (length : Nat) (record : String) (size : Nat)
  | unknownVariant (name : String) (variants : List String)
  | wrongType (found : Found) (expected : String)
  | outOfRange (value : Int) (expected : String)
  deriving DecidableEq, Repr

/-- The ways in which a text breaks the grammar. A comma behind the last item of a sequence that is already
full is `commaOpen` as long as nothing follows it, `commaLast` before the closing bracket, and otherwise it is
text that is left over, as is anything else in its place. -/
inductive Flaw where
  | valueMissing
  | literalMisspelt
  | colonMissing
  | itemsUnseparated
  | membersUnseparated
  | nameUnquoted
  | commaLast
  | commaOpen
  | textLeft
  | badNumber
  | numberTooLarge
  | controlCharacter
  | badEscape
  | unitUnpaired
  | partnerMissing
  deriving DecidableEq, Repr

inductive Problem where
  | data (mismatch : Mismatch)
  | malformed (flaw : Flaw)
  | truncated
  deriving DecidableEq, Repr

inductive Problem.Kind where
  | data
  | grammar
  | ending
  deriving DecidableEq, Repr

def Found.describe : Found → String
  | .null => "null"
  | .boolean value => s!"boolean `{value}`"
  | .integer value => s!"integer `{value}`"
  | .floating bits => "floating point `" ++ Decimal.inMessage.text bits ++ "`"
  | .text value => "string " ++ Text.quoted value
  | .sequence => "sequence"
  | .map => "map"

def quoteNames (names : List String) : List String := names.map fun name => s!"`{name}`"

def describeChoices (names : List String) : String :=
  match quoteNames names with
  | [] => "there are no variants"
  | [a] => s!"expected {a}"
  | [a, b] => s!"expected {a} or {b}"
  | several => "expected one of " ++ ", ".intercalate several

def Mismatch.message : Mismatch → String
  | .missingField name => s!"missing field `{name}`"
  | .duplicateField name => s!"duplicate field `{name}`"
  | .tooShort length record size =>
    s!"invalid length {length}, expected struct {record} with {size} elements"
  | .unknownVariant name variants => s!"unknown variant `{name}`, " ++ describeChoices variants
  | .wrongType found expected => "invalid type: " ++ found.describe ++ s!", expected {expected}"
  | .outOfRange value expected => s!"invalid value: integer `{value}`, expected {expected}"

def Flaw.message : Flaw → String
  | .valueMissing => "expected value"
  | .literalMisspelt => "expected ident"
  | .colonMissing => "expected `:`"
  | .itemsUnseparated => "expected `,` or `]`"
  | .membersUnseparated => "expected `,` or `\x7d`"
  | .nameUnquoted => "key must be a string"
  | .commaLast => "trailing comma"
  | .commaOpen | .textLeft => "trailing characters"
  | .badNumber => "invalid number"
  | .numberTooLarge => "number out of range"
  | .controlCharacter => "control character (\\u0000-\\u001F) found while parsing a string"
  | .badEscape => "invalid escape"
  | .unitUnpaired => "lone leading surrogate in hex escape"
  | .partnerMissing => "unexpected end of hex escape"

namespace Problem

def kind : Problem → Kind
  | data _ => .data
  | malformed _ => .grammar
  | truncated => .ending

def message? : Problem → Option String
  | data mismatch => some mismatch.message
  | malformed flaw => some flaw.message
  | truncated => none

end Problem

end PeripheralLayer.Json
