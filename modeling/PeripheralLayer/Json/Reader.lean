import PeripheralLayer.Json.Problem

/-!
Readers of JSON texts. A reader takes what it needs from the front of a text and leaves the rest. It
looks at the text from left to right, so the first problem it meets is the one it reports, and a text
that ends while more is needed is truncated.
-/
namespace PeripheralLayer.Json

abbrev Reader := StateT (List Char) (Except Problem)

namespace Reader

variable {α : Type}

def fail (problem : Problem) : Reader α := fun _ => .error problem

def isBlank (c : Char) : Bool := c = ' ' || c = '\n' || c = '\t' || c = '\r'

def next : Reader Char
  | [] => .error .truncated
  | c :: rest => .ok (c, rest)

def token : Reader Char := fun text => next (text.dropWhile isBlank)

def peek : Reader Char := fun text =>
  match text.dropWhile isBlank with
  | [] => .error .truncated
  | c :: rest => .ok (c, c :: rest)

def expect (c : Char) (otherwise : Flaw) : Reader Unit := do
  let d ← token
  if d = c then pure () else fail (.malformed otherwise)

def word : List Char → Reader Unit
  | [] => pure ()
  | c :: rest => do
    let d ← next
    if d = c then word rest else fail (.malformed .literalMisspelt)

def digits : Reader (List Char) := fun text => .ok (text.takeWhile Char.isDigit, text.dropWhile Char.isDigit)

/-- `atEnd` is the problem of a text that ends where a digit must be. -/
def someDigits (atEnd : Problem) : Reader (List Char) := fun text =>
  match text with
  | [] => .error atEnd
  | c :: _ => if c.isDigit then digits text else .error (.malformed .badNumber)

def oneOf? (choices : List Char) : Reader (Option Char) := fun text =>
  match text with
  | [] => .ok (none, [])
  | c :: rest => if choices.contains c then .ok (some c, rest) else .ok (none, c :: rest)

end Reader

def Reader.run {α : Type} (reader : Reader α) (text : List Char) : Except Problem α :=
  match reader text with
  | .error problem => .error problem
  | .ok (value, rest) => if rest.all Reader.isBlank then .ok value else .error (.malformed .textLeft)

end PeripheralLayer.Json
