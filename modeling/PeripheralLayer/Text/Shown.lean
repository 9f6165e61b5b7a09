/-!
Values shown to a person, on one line or one field a line. In the tall form each level is indented by
four spaces and every field and every wrapped value is followed by a comma.
-/
namespace PeripheralLayer.Text

structure Shown where
  flat : String
  tall : List String

namespace Shown

def atom (text : String) : Shown := ⟨text, [text]⟩

def addComma : List String → List String
  | [] => []
  | [last] => [last ++ ","]
  | line :: lines => line :: addComma lines

def indent (lines : List String) : List String := lines.map ("    " ++ ·)

def wrapped (name : String) (inner : Shown) : Shown :=
  ⟨name ++ "(" ++ inner.flat ++ ")", (name ++ "(") :: indent (addComma inner.tall) ++ [")"]⟩

def labelled (label : String) (value : Shown) : List String :=
  match value.tall with
  | [] => []
  | line :: lines => addComma ((label ++ ": " ++ line) :: lines)

def record (name : String) (fields : List (String × Shown)) : Shown :=
  let inside := ", ".intercalate (fields.map fun f => f.1 ++ ": " ++ f.2.flat)
  ⟨name ++ " \x7b " ++ inside ++ " \x7d",
    (name ++ " \x7b") :: indent (fields.flatMap fun f => labelled f.1 f.2) ++ ["\x7d"]⟩

def pretty (s : Shown) : String := "\n".intercalate s.tall

end Shown

end PeripheralLayer.Text
