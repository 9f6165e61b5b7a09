import PeripheralLayer.Json.Codec

/-!
The grammar of JSON texts, told by what may be written and not by how it is read. Nothing here knows of
readers, of fuel or of what comes after a text. A numeral is the only thing that does not end with a mark
of its own, so whoever reads one has to see in the next character that it cannot go on.
-/
namespace PeripheralLayer.Json

def Padding (text : List Char) : Prop := ∀ c ∈ text, Reader.isBlank c = true

theorem Padding.nil : Padding [] := by simp [Padding]

def continuesNumeral (c : Char) : Bool := c.isDigit || c = '.' || c = 'e' || c = 'E'

def Avoids (p : Char → Bool) : List Char → Prop
  | [] => True
  | c :: _ => p c = false

/-- What follows does not prolong a numeral that ends before it. -/
def Delimited (rest : List Char) : Prop := Avoids continuesNumeral rest

def startsValue (c : Char) : Bool := !Reader.isBlank c && c ≠ ',' && c ≠ ']' && c ≠ '}'

def Opens (text : List Char) : Prop := ∃ c tail, text = c :: tail ∧ startsValue c = true

/-! Quoted texts, without their quotation marks. -/

def hexUnit? (a b c d : Char) : Option Nat := do
  let a ← hexValue? a
  let b ← hexValue? b
  let c ← hexValue? c
  let d ← hexValue? d
  pure (16 * (16 * (16 * a + b) + c) + d)

def isPlain (c : Char) : Bool := c ≠ '"' && c ≠ '\\' && ' ' ≤ c

/-- The second text, written between quotation marks, stands for the first. Every character has an escape,
those beyond the first plane as a pair. -/
inductive Spells : List Char → List Char → Prop where
  | nil : Spells [] []
  | plain {c : Char} {body text : List Char} (itself : isPlain c = true) (tail : Spells body text) :
      Spells (c :: body) (c :: text)
  | letter {c d : Char} {body text : List Char} (named : escaped? c = some d) (tail : Spells body text) :
      Spells (d :: body) ('\\' :: c :: text)
  | unit {a b c d : Char} {unit : Nat} {body text : List Char} (spelt : hexUnit? a b c d = some unit)
      (lone : isLeading unit = false ∧ isTrailing unit = false) (tail : Spells body text) :
      Spells (Char.ofNat unit :: body) ('\\' :: 'u' :: a :: b :: c :: d :: text)
  | pair {a b c d a' b' c' d' : Char} {leading trailing : Nat} {body text : List Char}
      (first : hexUnit? a b c d = some leading) (leads : isLeading leading = true)
      (second : hexUnit? a' b' c' d' = some trailing) (trails : isTrailing trailing = true)
      (tail : Spells body text) :
      Spells (pairedChar leading trailing :: body)
        ('\\' :: 'u' :: a :: b :: c :: d :: '\\' :: 'u' :: a' :: b' :: c' :: d' :: text)

theorem Spells.itself (text : List Char) (plain : text.all isPlain = true) : Spells text text := by
  induction text with
  | nil => exact .nil
  | cons c text ih =>
    obtain ⟨first, others⟩ := Bool.and_eq_true_iff.mp plain
    exact .plain first (ih others)

/-- A text that may stand between quotation marks, although it need not stand for any characters: its units
need not be paired. -/
inductive Quotable : List Char → Prop where
  | nil : Quotable []
  | plain {c : Char} {text : List Char} (itself : isPlain c = true) (tail : Quotable text) : Quotable (c :: text)
  | letter {c : Char} {text : List Char} (named : (escaped? c).isSome) (tail : Quotable text) :
      Quotable ('\\' :: c :: text)
  | unit {a b c d : Char} {text : List Char} (spelt : (hexUnit? a b c d).isSome) (tail : Quotable text) :
      Quotable ('\\' :: 'u' :: a :: b :: c :: d :: text)

/-! Numerals. -/

structure Figures (text : List Char) : Prop where
  some_digit : text ≠ []
  digits : ∀ c ∈ text, c.isDigit = true

structure Whole (text : List Char) : Prop extends Figures text where
  leading : text.head? = some '0' → text = ['0']

inductive FractionText : Option (List Char) → List Char → Prop where
  | none : FractionText none []
  | some {digits : List Char} (figures : Figures digits) : FractionText (some digits) ('.' :: digits)

inductive ExponentText : Option (Bool × List Char) → List Char → Prop where
  | none : ExponentText none []
  | unsigned {mark : Char} {digits : List Char} (marks : mark = 'e' ∨ mark = 'E') (figures : Figures digits) :
      ExponentText (some (false, digits)) (mark :: digits)
  | positive {mark : Char} {digits : List Char} (marks : mark = 'e' ∨ mark = 'E') (figures : Figures digits) :
      ExponentText (some (false, digits)) (mark :: '+' :: digits)
  | negative {mark : Char} {digits : List Char} (marks : mark = 'e' ∨ mark = 'E') (figures : Figures digits) :
      ExponentText (some (true, digits)) (mark :: '-' :: digits)

def minus (negative : Bool) : List Char := if negative then ['-'] else []

inductive NumeralText : Numeral → List Char → Prop where
  | parts (negative : Bool) {whole : List Char} {fraction : Option (List Char)}
      {exponent : Option (Bool × List Char)} {behindPoint behindMark : List Char} (shape : Whole whole)
      (fractional : FractionText fraction behindPoint) (exponential : ExponentText exponent behindMark) :
      NumeralText ⟨negative, whole, fraction, exponent⟩
        (minus negative ++ (whole ++ (behindPoint ++ behindMark)))

/-! Values of any kind. -/

/-- What comes before an item: blanks, and a comma among them unless it is the first item. -/
inductive Lead : Bool → List Char → Prop where
  | first {pad : List Char} (padding : Padding pad) : Lead true pad
  | later {before after : List Char} (padding : Padding before) (padding' : Padding after) :
      Lead false (before ++ ',' :: after)

def naming (key before after : List Char) : List Char := '"' :: (key ++ '"' :: (before ++ ':' :: after))

/-- The text is a value, or the rest of a sequence or a map up to and with its closing bracket. -/
inductive WellFormed : Skipped → List Char → Prop where
  | null : WellFormed .value ['n', 'u', 'l', 'l']
  | isTrue : WellFormed .value ['t', 'r', 'u', 'e']
  | isFalse : WellFormed .value ['f', 'a', 'l', 's', 'e']
  | numeral {n : Numeral} {text : List Char} (shape : NumeralText n text) : WellFormed .value text
  | quoted {text : List Char} (quotable : Quotable text) : WellFormed .value ('"' :: (text ++ ['"']))
  | sequence {items : List Char} (inside : WellFormed (.items true) items) : WellFormed .value ('[' :: items)
  | map {members : List Char} (inside : WellFormed (.members true) members) : WellFormed .value ('{' :: members)
  | noItem {first : Bool} {pad : List Char} (padding : Padding pad) : WellFormed (.items first) (pad ++ [']'])
  | item {first : Bool} {lead value later : List Char} (leads : Lead first lead)
      (item : WellFormed .value value) (tail : WellFormed (.items false) later) :
      WellFormed (.items first) (lead ++ (value ++ later))
  | noMember {first : Bool} {pad : List Char} (padding : Padding pad) : WellFormed (.members first) (pad ++ ['}'])
  | member {first : Bool} {lead key before after value later : List Char} (leads : Lead first lead)
      (quotable : Quotable key) (padding : Padding before) (padding' : Padding after)
      (member : WellFormed .value value) (tail : WellFormed (.members false) later) :
      WellFormed (.members first) (lead ++ (naming key before after ++ (value ++ later)))

/-! What texts begin with. -/

section Beginnings

variable {c : Char} {text rest pad lead : List Char}

theorem naming_append (key before after rest : List Char) :
    naming key before after ++ rest = '"' :: (key ++ '"' :: (before ++ ':' :: (after ++ rest))) := by
  simp [naming]

theorem naming_opens (key before after : List Char) : Opens (naming key before after ++ rest) := ⟨'"', _, rfl, rfl⟩

theorem delimited_of_blank (blank : Reader.isBlank c = true) : continuesNumeral c = false := by
  simp only [Reader.isBlank, Bool.or_eq_true, decide_eq_true_eq] at blank
  rcases blank with ((rfl | rfl) | rfl) | rfl <;> decide

theorem Avoids.weaken {p q : Char → Bool} (avoids : Avoids q text) (weaker : ∀ c, p c = true → q c = true) :
    Avoids p text := by
  cases text with
  | nil => trivial
  | cons c text =>
    have no : q c = false := avoids
    cases yes : p c with
    | false => exact yes
    | true => simp [weaker c yes] at no

theorem Padding.delimited (padding : Padding pad) (delimited : Delimited rest) : Delimited (pad ++ rest) := by
  cases pad with
  | nil => exact delimited
  | cons c pad => exact delimited_of_blank (padding c List.mem_cons_self)

theorem Lead.delimited (leads : Lead false lead) : Delimited (lead ++ rest) := by
  cases leads with
  | later padding padding' =>
    rw [List.append_assoc]
    exact padding.delimited rfl

theorem startsValue_of_isDigit (digit : c.isDigit = true) : startsValue c = true := by
  have other : ∀ d : Char, d.isDigit = false → c ≠ d := by
    rintro d noDigit rfl
    cases digit.symm.trans noDigit
  simp only [startsValue, Reader.isBlank, ne_eq, Bool.and_eq_true, Bool.not_eq_true', Bool.or_eq_false_iff,
    decide_eq_false_iff_not, decide_not]
  exact ⟨⟨⟨⟨⟨⟨other _ rfl, other _ rfl⟩, other _ rfl⟩, other _ rfl⟩, other _ rfl⟩, other _ rfl⟩, other _ rfl⟩

theorem Figures.avoids {p : Char → Bool} (figures : Figures text) (noDigit : ∀ c, p c = true → c.isDigit = false) :
    Avoids p (text ++ rest) := by
  cases text with
  | nil => exact absurd rfl figures.some_digit
  | cons c text =>
    cases yes : p c with
    | false => exact yes
    | true => cases (noDigit c yes).symm.trans (figures.digits c List.mem_cons_self)

theorem FractionText.avoids {p : Char → Bool} {fraction : Option (List Char)} (shape : FractionText fraction text)
    (point : p '.' = false) (avoids : Avoids p rest) : Avoids p (text ++ rest) := by
  cases shape with
  | none => exact avoids
  | some figures => exact point

theorem ExponentText.avoids {p : Char → Bool} {exponent : Option (Bool × List Char)}
    (shape : ExponentText exponent text) (lower : p 'e' = false) (upper : p 'E' = false) (avoids : Avoids p rest) :
    Avoids p (text ++ rest) := by
  cases shape with
  | none => exact avoids
  | unsigned marks | positive marks | negative marks =>
    rcases marks with rfl | rfl
    · exact lower
    · exact upper

def startsNumeral (c : Char) : Bool := c = '-' || c.isDigit

theorem NumeralText.begins {n : Numeral} (shape : NumeralText n text) :
    ∃ c tail, text = c :: tail ∧ startsNumeral c = true := by
  cases shape with
  | @parts negative whole fraction exponent behindPoint behindMark shape fractional exponential =>
    cases negative with
    | true => exact ⟨'-', _, rfl, rfl⟩
    | false =>
      cases whole with
      | nil => exact absurd rfl shape.some_digit
      | cons c whole =>
        have digit := shape.digits c List.mem_cons_self
        exact ⟨c, _, rfl, by simp [startsNumeral, digit]⟩

theorem startsValue_of_startsNumeral (starts : startsNumeral c = true) : startsValue c = true := by
  simp only [startsNumeral, Bool.or_eq_true, decide_eq_true_eq] at starts
  rcases starts with rfl | digit
  · rfl
  · exact startsValue_of_isDigit digit

theorem WellFormed.opens (shape : WellFormed .value text) : Opens (text ++ rest) := by
  cases shape with
  | numeral shape =>
    obtain ⟨c, tail, rfl, starts⟩ := shape.begins
    exact ⟨c, tail ++ rest, rfl, startsValue_of_startsNumeral starts⟩
  | null | isTrue | isFalse | quoted | sequence | map => exact ⟨_, _, rfl, rfl⟩

theorem WellFormed.delimited {what : Skipped} (shape : WellFormed what text)
    (inside : what = .items false ∨ what = .members false) : Delimited (text ++ rest) := by
  cases shape with
  | noItem padding | noMember padding =>
    rw [List.append_assoc]
    exact padding.delimited rfl
  | item leads | member leads =>
    obtain rfl : _ = false := by simpa using inside
    rw [List.append_assoc]
    exact leads.delimited
  | null | isTrue | isFalse | numeral | quoted | sequence | map => simp at inside

theorem WellFormed.length_pos {what : Skipped} (shape : WellFormed what text) : 1 ≤ text.length := by
  induction shape with
  | numeral shape =>
    cases shape with
    | parts negative shape =>
      have some_digit := List.length_pos_iff.mpr shape.some_digit
      simp only [List.length_append]
      omega
  | item leads item tail long | member leads quotable padding padding' item tail long =>
    simp only [List.length_append]
    omega
  | null | isTrue | isFalse | quoted | sequence | map | noItem | noMember => simp

end Beginnings

end PeripheralLayer.Json
