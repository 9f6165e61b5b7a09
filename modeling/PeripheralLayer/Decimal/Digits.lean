/-!
Decimal digits and the numbers they stand for.
-/
namespace PeripheralLayer.Decimal

def digitValue (c : Char) : Nat := c.toNat - '0'.toNat

def digitsValue (digits : List Char) : Nat :=
  digits.foldl (fun value digit => 10 * value + digitValue digit) 0

end PeripheralLayer.Decimal
