import PeripheralLayer.Proofs.Json.Scan

/-!
The ways in which a value may be written. JSON leaves a writer free to choose: blanks between the tokens,
escapes inside a name, two forms for a word of a vocabulary. A spelling says which texts are ways of writing
which value, and carries the proof that the codec reads each of them as that value, whatever follows.
-/
namespace PeripheralLayer.Json

structure Spelling {α : Type} (codec : Codec α) where
  Writes : α → List Char → Prop
  opens : ∀ {a : α} {text rest : List Char}, Writes a text → Opens (text ++ rest)
  skips : ∀ {pad text : List Char}, Padding pad → codec.read (pad ++ text) = codec.read text
  reads : ∀ {a : α} {text rest : List Char}, Writes a text → Delimited rest →
    codec.read (text ++ rest) = .ok (a, rest)

namespace Spelling

variable {α β : Type} {codec : Codec α}

def map (spelling : Spelling codec) (make : α → β) (split : β → α) (undo : ∀ b, make (split b) = b) :
    Spelling (codec.map make split) where
  Writes b text := spelling.Writes (split b) text
  opens writes := spelling.opens writes
  skips padding := Reader.bind_congr (spelling.skips padding)
  reads {b text rest} writes delimited := by
    have taken := spelling.reads writes delimited
    change (codec.read >>= fun a => pure (make a)) (text ++ rest) = .ok (b, rest)
    rw [Reader.bind_of_ok taken, undo]
    rfl

end Spelling

/-! Numbers and flags. -/

section Words

variable {bits n : Nat} {text rest pad digits : List Char}

theorem foldl_digits_ge (digits : List Char) (significand : Nat) :
    significand ≤ digits.foldl (fun value digit => 10 * value + Decimal.digitValue digit) significand := by
  induction digits generalizing significand with
  | nil => exact Nat.le_refl significand
  | cons c digits ih =>
    have more := ih (10 * significand + Decimal.digitValue c)
    rw [List.foldl_cons]
    omega

theorem absorb_of_fits (digits : List Char) (significand : Nat)
    (fits : digits.foldl (fun value digit => 10 * value + Decimal.digitValue digit) significand ≤ significandLimit) :
    absorb significand digits =
      (digits.length, digits.foldl (fun value digit => 10 * value + Decimal.digitValue digit) significand) := by
  induction digits generalizing significand with
  | nil => rfl
  | cons c digits ih =>
    rw [List.foldl_cons] at fits ⊢
    have longer := foldl_digits_ge digits (10 * significand + Decimal.digitValue c)
    simp only [absorb, if_pos (Nat.le_trans longer fits), ih _ fits, List.length_cons]

theorem value_of_whole (fits : Decimal.digitsValue digits ≤ significandLimit) :
    (⟨false, digits, none, none⟩ : Numeral).value = some (.integer (Decimal.digitsValue digits)) := by
  have absorbed : absorb 0 digits = (digits.length, Decimal.digitsValue digits) := absorb_of_fits digits 0 fits
  simp [Numeral.value, absorbed, Numeral.wholeNumber]

/-- The digits of a number that has so many bits. -/
structure WordText (bits n : Nat) (text : List Char) : Prop extends Whole text where
  value : Decimal.digitsValue text = n
  fits : n < Nat.pow 2 bits

theorem WordText.numeral (shape : WordText bits n text) : NumeralText ⟨false, text, none, none⟩ text := by
  have parts := NumeralText.parts false shape.toWhole .none .none
  simpa [minus] using parts

theorem number_of_word (shape : WordText bits n text) (narrow : bits ≤ 64) (delimited : Delimited rest) :
    number (text ++ rest) = .ok (.integer n, rest) := by
  have limit : Nat.pow 2 bits ≤ Nat.pow 2 64 := Nat.pow_le_pow_right (by decide) narrow
  have fits : Decimal.digitsValue text ≤ significandLimit := by
    have below := shape.fits
    have value := shape.value
    have bound : significandLimit + 1 = Nat.pow 2 64 := rfl
    omega
  rw [number, Reader.bind_of_ok (numeral_of_text .truncated shape.numeral delimited), value_of_whole fits, shape.value]
  rfl

def inWord (bits : Nat) : Number → Reader Nat
  | .integer value =>
    if 0 ≤ value && value < Nat.pow 2 bits then pure value.toNat
    else Reader.fail (.data (.outOfRange value (wordName bits)))
  | .floating value => Reader.fail (.data (.wrongType (.floating value) (wordName bits)))

theorem readWord_eq (bits : Nat) :
    readWord bits = Reader.peek >>= fun c =>
      if c = '-' || c.isDigit then number >>= inWord bits else mismatch (wordName bits) := by
  unfold readWord
  congr 1

theorem readWord_of_numeral {n : Numeral} (shape : NumeralText n text) :
    readWord bits (text ++ rest) = (number >>= inWord bits) (text ++ rest) := by
  obtain ⟨c, tail, rfl, starts⟩ := shape.begins
  have mark := Reader.isBlank_of_startsValue (startsValue_of_startsNumeral starts)
  rw [readWord_eq, List.cons_append, Reader.bind_of_ok (Reader.peek_mark mark),
    if_pos (by simpa [startsNumeral] using starts)]

theorem inWord_of_text (shape : WordText bits n text) (narrow : bits ≤ 64) (delimited : Delimited rest) :
    (number >>= inWord bits) (text ++ rest) = .ok (n, rest) := by
  have inRange : (decide (0 ≤ (n : Int)) && decide ((n : Int) < (Nat.pow 2 bits : Nat))) = true := by
    simpa using Int.ofNat_lt.mpr shape.fits
  rw [Reader.bind_of_ok (number_of_word shape narrow delimited), inWord, if_pos inRange]
  rfl

theorem readWord_of_text (shape : WordText bits n text) (narrow : bits ≤ 64) (delimited : Delimited rest) :
    readWord bits (text ++ rest) = .ok (n, rest) :=
  (readWord_of_numeral shape.numeral).trans (inWord_of_text shape narrow delimited)

def Spelling.word (bits : Nat) (narrow : bits ≤ 64) : Spelling (wordCodec bits) where
  Writes n text := WordText bits n text
  opens shape := by
    obtain ⟨c, tail, rfl, starts⟩ := shape.numeral.begins
    exact ⟨c, _, rfl, startsValue_of_startsNumeral starts⟩
  skips padding := Reader.bind_congr (Reader.peek_padding padding)
  reads shape delimited := readWord_of_text shape narrow delimited

def Spelling.byte : Spelling byte := (word 8 (by decide)).map UInt8.ofNat UInt8.toNat fun _ => UInt8.ofNat_toNat

def Spelling.halfWord : Spelling halfWord :=
  (word 16 (by decide)).map UInt16.ofNat UInt16.toNat fun _ => UInt16.ofNat_toNat

def Spelling.fullWord : Spelling fullWord :=
  (word 32 (by decide)).map UInt32.ofNat UInt32.toNat fun _ => UInt32.ofNat_toNat

def Spelling.flag : Spelling flag where
  Writes b text := text = Json.flag.write b
  opens {b} _ _ writes := by
    subst writes
    cases b <;> exact ⟨_, _, rfl, rfl⟩
  skips padding := Reader.bind_congr (Reader.peek_padding padding)
  reads {b} _ _ writes _ := by
    subst writes
    cases b <;> rfl

end Words

/-! Words of a vocabulary. -/

/-- A word by its name alone, or as the name of a member that is null. -/
inductive ChoiceText (name : List Char) : List Char → Prop where
  | alone {key : List Char} (spells : Spells name key) : ChoiceText name ('"' :: (key ++ ['"']))
  | member {pad key before after behind : List Char} (padding : Padding pad) (spells : Spells name key)
      (before_colon : Padding before) (behind_colon : Padding after) (behind_null : Padding behind) :
      ChoiceText name ('{' :: (pad ++ (naming key before after ++ (['n', 'u', 'l', 'l'] ++ (behind ++ ['}'])))))

section Choice

variable {α : Type} [Enumerated α] {a : α} {key text rest pad : List Char}

theorem readVariant_of_spells (spells : Spells (Enumerated.name a).toList key) :
    readVariant α (key ++ '"' :: rest) = .ok (a, rest) := by
  rw [readVariant, Reader.bind_of_ok (quotedText_of_spells spells), String.ofList_toList, Enumerated.ofName?_name]
  rfl

theorem readUnit_of_padding (padding : Padding pad) :
    readUnit (pad ++ ('n' :: 'u' :: 'l' :: 'l' :: rest)) = .ok ((), rest) := by
  rw [readUnit, Reader.bind_of_ok (Reader.peek_of_padding padding rfl)]
  exact Reader.word_of_append ['n', 'u', 'l', 'l']

theorem readChoice_member (left : List Char) :
    readChoice α ('{' :: left) =
      (do
        Reader.expect '"' .nameUnquoted
        let a ← readVariant α
        Reader.expect ':' .colonMissing
        readUnit
        Reader.expect '}' .valueMissing
        pure a : Reader α) left := rfl

theorem readChoice_of_text (shape : ChoiceText (Enumerated.name a).toList text) :
    readChoice α (text ++ rest) = .ok (a, rest) := by
  cases shape with
  | alone spells =>
    simp only [List.cons_append, List.append_assoc, List.nil_append]
    exact readVariant_of_spells spells
  | member padding spells before_colon behind_colon behind_null =>
    simp only [naming, List.cons_append, List.append_assoc, List.nil_append]
    rw [readChoice_member, Reader.bind_of_ok (Reader.expect_of_padding padding rfl),
      Reader.bind_of_ok (readVariant_of_spells spells),
      Reader.bind_of_ok (Reader.expect_of_padding before_colon rfl),
      Reader.bind_of_ok (readUnit_of_padding behind_colon),
      Reader.bind_of_ok (Reader.expect_of_padding behind_null rfl)]
    rfl

def Spelling.choice (α : Type) [Enumerated α] : Spelling (choice α) where
  Writes a text := ChoiceText (Enumerated.name a).toList text
  opens shape := by cases shape <;> exact ⟨_, _, rfl, rfl⟩
  skips padding := Reader.bind_congr (Reader.token_padding padding)
  reads shape _ := readChoice_of_text shape

end Choice

end PeripheralLayer.Json
