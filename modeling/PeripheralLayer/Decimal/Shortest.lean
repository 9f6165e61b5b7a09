/-!
Decimal texts of binary floating-point numbers. A number is written with the fewest digits that still
tell it from its neighbours, and with the nearest such decimal where there are two; a layout then says
where the point goes. All arithmetic on the way is exact.
-/
namespace PeripheralLayer.Decimal

structure Scientific where
  significand : Nat
  exponent : Int
  deriving DecidableEq, Repr

/-- A positive quotient with the bounds between which every number rounds to the same double. The three
share one denominator, and `closed` says whether the bounds themselves belong to the interval. -/
structure Interval where
  lower : Nat
  value : Nat
  upper : Nat
  denominator : Nat
  closed : Bool
  deriving DecidableEq, Repr

/-- The interval of `m · 2 ^ e`. Below a power of two the neighbour is only half as far away, unless the
numbers are as fine as they get; ties go to the even significand. -/
def Interval.ofBinary (m : Nat) (e : Int) (narrowBelow : Bool) : Interval :=
  let scale := Nat.pow 2 (e - 2).toNat
  { lower := (4 * m - (if narrowBelow then 1 else 2)) * scale
    value := 4 * m * scale
    upper := (4 * m + 2) * scale
    denominator := Nat.pow 2 (2 - e).toNat
    closed := m % 2 = 0 }

namespace Interval

def holds (i : Interval) (d : Nat) (k : Int) : Bool :=
  let point := d * Nat.pow 10 k.toNat * i.denominator
  let shift := Nat.pow 10 (-k).toNat
  if i.closed then i.lower * shift ≤ point && point ≤ i.upper * shift
  else i.lower * shift < point && point < i.upper * shift

/-- The multiple of `10 ^ k` inside the interval that is nearest to the value, an even one of two equally
near. Any multiple inside is one of the two around the value, or there is none between it and the value. -/
def nearest? (i : Interval) (k : Int) : Option Nat :=
  let numerator := i.value * Nat.pow 10 (-k).toNat
  let denominator := i.denominator * Nat.pow 10 k.toNat
  let below := numerator / denominator
  let rest := numerator % denominator
  match i.holds below k, i.holds (below + 1) k with
  | true, true =>
    some (if 2 * rest < denominator || (2 * rest = denominator && below % 2 = 0) then below else below + 1)
  | true, false => some below
  | false, true => some (below + 1)
  | false, false => none

def search (i : Interval) : Nat → Int → Scientific
  | 0, k => ⟨0, k⟩
  | fuel + 1, k =>
    match i.nearest? k with
    | some d => ⟨d, k⟩
    | none => i.search fuel (k - 1)

def coarsest (i : Interval) : Nat := (Nat.toDigits 10 (i.value / i.denominator)).length

/-- The finest double needs the grid of 10 ^ -324, so the search ends before its fuel does. -/
def shortest (i : Interval) : Scientific := i.search (i.coarsest + 345) i.coarsest

end Interval

inductive Double where
  | nan
  | infinite (negative : Bool)
  | zero (negative : Bool)
  | finite (negative : Bool) (digits : Scientific)
  deriving DecidableEq, Repr

def Double.ofBits (bits : UInt64) : Double :=
  let negative := bits >>> 63 = 1
  let exponent := ((bits >>> 52) &&& 0x7ff).toNat
  let fraction := (bits &&& 0xfffffffffffff).toNat
  if exponent = 0x7ff then if fraction = 0 then .infinite negative else .nan
  else if exponent = 0 then
    if fraction = 0 then .zero negative
    else .finite negative (Interval.ofBinary fraction (-1074) false).shortest
  else
    .finite negative
      (Interval.ofBinary (Nat.pow 2 52 + fraction) ((exponent : Int) - 1075) (fraction = 0 && exponent ≠ 1)).shortest

structure Layout where
  first : Int
  last : Int
  keepPoint : Bool
  nan : String
  infinite : String
  deriving DecidableEq, Repr

def zeros (n : Nat) : String := String.ofList (List.replicate n '0')

def exponentText (n : Int) : String :=
  "e" ++ (if n < 0 then "-" else "+") ++ String.ofList (Nat.toDigits 10 n.natAbs)

def Layout.magnitude (l : Layout) (s : Scientific) : String :=
  let digits := Nat.toDigits 10 s.significand
  let point : Int := digits.length + s.exponent
  let written := String.ofList digits
  if l.first < point && point ≤ l.last then
    if 0 ≤ s.exponent then written ++ zeros s.exponent.toNat ++ (if l.keepPoint then ".0" else "")
    else if 0 < point then
      String.ofList (digits.take point.toNat) ++ "." ++ String.ofList (digits.drop point.toNat)
    else "0." ++ zeros (-point).toNat ++ written
  else
    let tail := if digits.length = 1 then "" else "." ++ String.ofList (digits.drop 1)
    String.ofList (digits.take 1) ++ tail ++ exponentText (point - 1)

def Layout.text (l : Layout) (bits : UInt64) : String :=
  let signed := fun (negative : Bool) (text : String) => if negative then "-" ++ text else text
  match Double.ofBits bits with
  | .nan => l.nan
  | .infinite negative => signed negative l.infinite
  | .zero negative => signed negative (if l.keepPoint then "0.0" else "0")
  | .finite negative digits => signed negative (l.magnitude digits)

def inMessage : Layout := ⟨-5, 16, true, "NaN", "inf"⟩

def inTrace : Layout := ⟨-400, 400, false, "nan", "inf"⟩

end PeripheralLayer.Decimal
