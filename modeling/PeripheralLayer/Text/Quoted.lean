import PeripheralLayer.Text.Imageless

/-!
Texts quoted in messages. Quotation marks and backslashes are escaped, and a character that would not be
seen is written by name or by number, so different texts are never shown alike.
-/
namespace PeripheralLayer.Text

def escapeByNumber (c : Char) : String := "\\u\x7b" ++ String.ofList (Nat.toDigits 16 c.toNat) ++ "\x7d"

def escape (c : Char) : String :=
  match c with
  | '\x00' => "\\0"
  | '\t' => "\\t"
  | '\r' => "\\r"
  | '\n' => "\\n"
  | '\\' => "\\\\"
  | '"' => "\\\""
  | c => if isImageless c then escapeByNumber c else c.toString

def quoted (text : String) : String := "\"" ++ String.join (text.toList.map escape) ++ "\""

end PeripheralLayer.Text
