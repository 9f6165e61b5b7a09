import PeripheralLayer.Decimal.Digits

/-!
Reading of decimal texts: digits with an optional sign and an optional point, and the names of the
numbers that have no digits. The result is the double nearest to what is written.
-/
namespace PeripheralLayer.Decimal

def readUnsigned? (text : List Char) : Option Float :=
  let whole := text.takeWhile Char.isDigit
  match text.dropWhile Char.isDigit with
  | [] => if whole.isEmpty then none else some (Float.ofScientific (digitsValue whole) false 0)
  | point :: fraction =>
    if point = '.' && !(whole ++ fraction).isEmpty && fraction.all Char.isDigit then
      some (Float.ofScientific (digitsValue (whole ++ fraction)) true fraction.length)
    else none

def read? (text : String) : Option Float :=
  match text with
  | "nan" => some (0.0 / 0.0)
  | "inf" => some (1.0 / 0.0)
  | "-inf" => some (-1.0 / 0.0)
  | _ =>
    match text.toList with
    | '-' :: rest => (readUnsigned? rest).map fun value => -value
    | rest => readUnsigned? rest

end PeripheralLayer.Decimal
