import PeripheralLayer.Json.Reader

/-!
Quoted JSON texts, from behind the opening quotation mark. An escape `\u` stands for one UTF-16 unit; it
is judged once the four bytes that should be its digits are there, whatever they are, so a text that ends
before them is truncated. A leading unit must be followed by the escape of a trailing one.

A text that is only skipped is held to the same grammar, except that its units need not be paired.
-/
namespace PeripheralLayer.Json

/-- Where a reader stands inside a quoted text. `digits` has seen some bytes of an escape, and knows its
value as long as all of them are hexadecimal digits; `lead` is a leading unit that waits for its partner. -/
inductive QuotedState where
  | plain
  | escape
  | digits (lead : Option Nat) (seen : Nat) (value : Option Nat)
  | lead (unit : Nat)
  | leadEscape (unit : Nat)
  deriving DecidableEq, Repr

inductive QuotedTurn where
  | close
  | go (state : QuotedState) (out : Option Char)
  deriving DecidableEq, Repr

def hexValue? (c : Char) : Option Nat :=
  if c.isDigit then some (c.toNat - '0'.toNat)
  else if 'a' ≤ c && c ≤ 'f' then some (c.toNat - 'a'.toNat + 10)
  else if 'A' ≤ c && c ≤ 'F' then some (c.toNat - 'A'.toNat + 10)
  else none

def escaped? (c : Char) : Option Char :=
  match c with
  | '"' => some '"'
  | '\\' => some '\\'
  | '/' => some '/'
  | 'b' => some '\x08'
  | 'f' => some '\x0c'
  | 'n' => some '\n'
  | 'r' => some '\r'
  | 't' => some '\t'
  | _ => none

def isLeading (unit : Nat) : Bool := 0xd800 ≤ unit && unit ≤ 0xdbff
def isTrailing (unit : Nat) : Bool := 0xdc00 ≤ unit && unit ≤ 0xdfff

def pairedChar (leading trailing : Nat) : Char :=
  Char.ofNat (0x10000 + (leading - 0xd800) * 0x400 + (trailing - 0xdc00))

def unitTurn (waiting : Option Nat) (unit : Nat) : Except Flaw QuotedTurn :=
  match waiting with
  | some leading =>
    if isTrailing unit then .ok (.go .plain (some (pairedChar leading unit))) else .error .unitUnpaired
  | none =>
    if isLeading unit then .ok (.go (.lead unit) none)
    else if isTrailing unit then .error .unitUnpaired
    else .ok (.go .plain (some (Char.ofNat unit)))

def digitsTurn (paired : Bool) (waiting : Option Nat) (seen : Nat) (value : Option Nat) (c : Char) :
    Except Flaw QuotedTurn :=
  let seen := seen + c.utf8Size
  let value := match value, hexValue? c with
    | some high, some low => some (16 * high + low)
    | _, _ => none
  if seen < 4 then .ok (.go (.digits waiting seen value) none)
  else
    match value with
    | none => .error .badEscape
    | some unit => if paired then unitTurn waiting unit else .ok (.go .plain none)

def QuotedState.turn (paired : Bool) (state : QuotedState) (c : Char) : Except Flaw QuotedTurn :=
  match state with
  | .plain =>
    if c = '"' then .ok .close
    else if c = '\\' then .ok (.go .escape none)
    else if c < ' ' then .error .controlCharacter
    else .ok (.go .plain (some c))
  | .escape =>
    if c = 'u' then .ok (.go (.digits none 0 (some 0)) none)
    else
      match escaped? c with
      | some d => .ok (.go .plain (some d))
      | none => .error .badEscape
  | .digits waiting seen value => digitsTurn paired waiting seen value c
  | .lead unit => if c = '\\' then .ok (.go (.leadEscape unit) none) else .error .partnerMissing
  | .leadEscape unit =>
    if c = 'u' then .ok (.go (.digits (some unit) 0 (some 0)) none) else .error .partnerMissing

def quotedFrom (paired : Bool) : QuotedState → List Char → Except Problem (List Char × List Char)
  | _, [] => .error .truncated
  | state, c :: rest =>
    match state.turn paired c with
    | .error flaw => .error (.malformed flaw)
    | .ok .close => .ok ([], rest)
    | .ok (.go state out) =>
      match quotedFrom paired state rest with
      | .error problem => .error problem
      | .ok (text, rest) => .ok (out.toList ++ text, rest)

def quotedText : Reader String := fun text =>
  match quotedFrom true .plain text with
  | .error problem => .error problem
  | .ok (chars, rest) => .ok (String.ofList chars, rest)

def skipQuoted : Reader Unit := fun text =>
  match quotedFrom false .plain text with
  | .error problem => .error problem
  | .ok (_, rest) => .ok ((), rest)

end PeripheralLayer.Json
