import PeripheralLayer.Decimal.Digits
import PeripheralLayer.Json.Reader

/-!
JSON numbers. A numeral is first read by the grammar and then valued. Whole numbers of 64 bits are exact;
every other numeral is a double, and so is minus zero. A double keeps as many leading digits as fit into
64 bits and is scaled by a power of ten, each operation rounded by itself; one that overflows is no number.
-/
namespace PeripheralLayer.Json

structure Numeral where
  negative : Bool
  whole : List Char
  fraction : Option (List Char)
  exponent : Option (Bool × List Char)
  deriving DecidableEq, Repr

def fractionPart (atEnd : Problem) : Reader (Option (List Char)) := do
  match ← Reader.oneOf? ['.'] with
  | none => pure none
  | some _ => pure (some (← Reader.someDigits atEnd))

def exponentPart (atEnd : Problem) : Reader (Option (Bool × List Char)) := do
  match ← Reader.oneOf? ['e', 'E'] with
  | none => pure none
  | some _ =>
    let sign ← Reader.oneOf? ['+', '-']
    let digits ← Reader.someDigits atEnd
    pure (some (sign = some '-', digits))

def numeral (atEnd : Problem) : Reader Numeral := do
  let sign ← Reader.oneOf? ['-']
  let whole ← Reader.someDigits atEnd
  if whole.head? = some '0' && 1 < whole.length then Reader.fail (.malformed .badNumber)
  else
    let fraction ← fractionPart atEnd
    let exponent ← exponentPart atEnd
    pure ⟨sign.isSome, whole, fraction, exponent⟩

inductive Number where
  | integer (value : Int)
  | floating (bits : UInt64)
  deriving DecidableEq, Repr

def significandLimit : Nat := Nat.pow 2 64 - 1

/-- The number of leading digits that fit behind a significand, and the significand with them. -/
def absorb (significand : Nat) : List Char → Nat × Nat
  | [] => (0, significand)
  | c :: rest =>
    let longer := 10 * significand + Decimal.digitValue c
    if longer ≤ significandLimit then
      match absorb longer rest with
      | (taken, significand) => (taken + 1, significand)
    else (0, significand)

def powerOfTen (n : Nat) : Float := Float.ofScientific 1 false n

/-- Scales by a power of ten: none if the result is out of range. Large negative powers are taken in
parts, each as large as a double can hold. -/
def scale (value : Float) (exponent : Int) : Option Float :=
  if exponent.natAbs ≤ 308 then
    if 0 ≤ exponent then
      let scaled := value * powerOfTen exponent.natAbs
      if scaled.isInf then none else some scaled
    else some (value / powerOfTen exponent.natAbs)
  else if value == 0.0 then some value
  else if 0 ≤ exponent then none
  else scale (value / powerOfTen 308) (exponent + 308)
termination_by exponent.natAbs
decreasing_by omega

def exponentLimit : Nat := Nat.pow 2 31 - 1

namespace Numeral

def signed (n : Numeral) (value : Float) : Number := .floating (if n.negative then -value else value).toBits

def floating (n : Numeral) (significand : Nat) (places : Int) : Option Number :=
  let scaled (exponent : Int) : Option Number := (scale (Float.ofNat significand) exponent).map n.signed
  match n.exponent with
  | none => scaled places
  | some (negative, digits) =>
    let exponent := Decimal.digitsValue digits
    if exponentLimit < exponent then
      if significand ≠ 0 && !negative then none else some (n.signed 0.0)
    else scaled (if negative then places - exponent else places + exponent)

def wholeNumber (n : Numeral) (significand : Nat) : Number :=
  if !n.negative then .integer significand
  else if significand = 0 || Nat.pow 2 63 < significand then n.signed (Float.ofNat significand)
  else .integer (-significand)

def value (n : Numeral) : Option Number :=
  match absorb 0 n.whole with
  | (taken, significand) =>
    let dropped := n.whole.length - taken
    match n.fraction with
    | none =>
      if dropped = 0 && n.exponent.isNone then some (n.wholeNumber significand)
      else n.floating significand dropped
    | some digits =>
      match absorb significand digits with
      | (taken, significand) => n.floating significand ((dropped : Int) - taken)

end Numeral

def number : Reader Number := do
  let n ← numeral .truncated
  match n.value with
  | some value => pure value
  | none => Reader.fail (.malformed .numberTooLarge)

end PeripheralLayer.Json
