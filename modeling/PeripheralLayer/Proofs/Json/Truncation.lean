import Mathlib.Control.Monad.Basic
import PeripheralLayer.Proofs.Json.FirstProblem
import PeripheralLayer.Proofs.Json.Spelling

/-!
Texts that are cut short. Whoever reads only the beginning of a description finds nothing wrong with it but that it
ends. This is a matter of patience: no reader comes to a conclusion before it has seen the end of its value. Numerals
are the exception, since they have no end of their own, but a record has to go on behind them. Values that are skipped
are excepted too, so the texts here are those whose members are all known.
-/
namespace PeripheralLayer.Json

namespace Reader

variable {α β : Type} {x y : Reader α} {f g : α → Reader β}

theorem ok_of_bind {text rest : List Char} {b : β} (taken : (x >>= f) text = .ok (b, rest)) :
    ∃ a left, x text = .ok (a, left) ∧ f a left = .ok (b, rest) := by
  cases first : x text with
  | error problem =>
    rw [bind_of_error first] at taken
    cases taken
  | ok pair =>
    obtain ⟨a, left⟩ := pair
    rw [bind_of_ok first] at taken
    exact ⟨a, left, rfl, taken⟩

/-- What `y` takes from a text, `x` takes from every beginning of the text that holds it. A shorter beginning is too
short. -/
def Patient (x y : Reader α) : Prop :=
  ∀ text more a rest, y (text ++ more) = .ok (a, rest) →
    x text = .error .truncated ∨ ∃ left, x text = .ok (a, left) ∧ rest = left ++ more

/-- Like a patient reader, but one that may also be content with all of a beginning. -/
def Eager (x y : Reader α) : Prop :=
  ∀ text more a rest, y (text ++ more) = .ok (a, rest) →
    x text = .error .truncated ∨ (∃ left, x text = .ok (a, left) ∧ rest = left ++ more) ∨ ∃ a', x text = .ok (a', [])

/-- What `y` does not refuse with this problem it reads as `x` does. -/
def Refuses (problem : Problem) (x y : Reader α) : Prop := ∀ text, y text = x text ∨ y text = .error problem

theorem Refuses.refl {problem : Problem} (x : Reader α) : Refuses problem x x := fun _ => .inl rfl

theorem Refuses.bind {problem : Problem} (first : Refuses problem x y) (then' : ∀ a, Refuses problem (f a) (g a)) :
    Refuses problem (x >>= f) (y >>= g) := by
  intro text
  rcases first text with same | refused
  · cases taken : x text with
    | error problem => exact .inl ((bind_of_error (same.trans taken)).trans (bind_of_error taken).symm)
    | ok pair =>
      obtain ⟨a, rest⟩ := pair
      rw [bind_of_ok (same.trans taken), bind_of_ok taken]
      exact then' a rest
  · exact .inr (bind_of_error refused)

def Hungry (x : Reader α) : Prop := x [] = .error .truncated

theorem Patient.eager (patient : Patient x y) : Eager x y :=
  fun text more a rest taken => (patient text more a rest taken).imp_right .inl

section Steps

variable {text more rest : List Char} {b : β}

theorem Patient.step (first : Patient x y) (taken : (y >>= g) (text ++ more) = .ok (b, rest)) :
    (x >>= f) text = .error .truncated ∨
      ∃ a left, (x >>= f) text = f a left ∧ g a (left ++ more) = .ok (b, rest) := by
  obtain ⟨a, middle, taken, others⟩ := ok_of_bind taken
  rcases first text more a middle taken with short | ⟨left, same, rfl⟩
  · exact .inl (bind_of_error short)
  · exact .inr ⟨a, left, bind_of_ok same, others⟩

theorem Eager.step (first : Eager x y) (taken : (y >>= g) (text ++ more) = .ok (b, rest)) :
    (x >>= f) text = .error .truncated ∨
      (∃ a left, (x >>= f) text = f a left ∧ g a (left ++ more) = .ok (b, rest)) ∨ ∃ a, (x >>= f) text = f a [] := by
  obtain ⟨a, middle, taken, others⟩ := ok_of_bind taken
  rcases first text more a middle taken with short | ⟨left, same, rfl⟩ | ⟨a', all⟩
  · exact .inl (bind_of_error short)
  · exact .inr (.inl ⟨a, left, bind_of_ok same, others⟩)
  · exact .inr (.inr ⟨a', bind_of_ok all⟩)

end Steps

theorem Patient.bind (first : Patient x y) (then' : ∀ a, Patient (f a) (g a)) : Patient (x >>= f) (y >>= g) := by
  intro text more b rest taken
  rcases first.step taken with short | ⟨a, left, same, others⟩
  · exact .inl short
  · rw [same]
    exact then' a left more b rest others

theorem Patient.bind_eager (first : Patient x y) (then' : ∀ a, Eager (f a) (g a)) : Eager (x >>= f) (y >>= g) := by
  intro text more b rest taken
  rcases first.step taken with short | ⟨a, left, same, others⟩
  · exact .inl short
  · rw [same]
    exact then' a left more b rest others

/-- Whoever needs more text finds out that an eager reader has stopped too early. -/
theorem Eager.bind (first : Eager x y) (then' : ∀ a, Patient (f a) (g a)) (hungry : ∀ a, Hungry (f a)) :
    Patient (x >>= f) (y >>= g) := by
  intro text more b rest taken
  rcases first.step taken with short | ⟨a, left, same, others⟩ | ⟨a, all⟩
  · exact .inl short
  · rw [same]
    exact then' a left more b rest others
  · exact .inl (all.trans (hungry a))

theorem Eager.map (eager : Eager x y) (h : α → β) : Eager (x >>= fun a => pure (h a)) (y >>= fun a => pure (h a)) := by
  intro text more b rest taken
  rcases eager.step taken with short | ⟨a, left, same, made⟩ | ⟨a, all⟩
  · exact .inl short
  · cases made
    exact .inr (.inl ⟨left, same, rfl⟩)
  · exact .inr (.inr ⟨h a, all⟩)

theorem patient_pure (a : α) : Patient (pure a) (pure a) := by
  rintro text more b rest ⟨⟩
  exact .inr ⟨text, rfl, rfl⟩

theorem patient_of_never (never : ∀ text a rest, y text ≠ .ok (a, rest)) : Patient x y :=
  fun _ _ a rest taken => absurd taken (never _ a rest)

theorem patient_fail (problem : Problem) : Patient x (fail problem) :=
  patient_of_never fun _ _ _ taken => by cases taken

theorem patient_next : Patient next next := by
  intro text more c rest taken
  cases text with
  | nil => exact .inl rfl
  | cons d text =>
    cases taken
    exact .inr ⟨text, rfl, rfl⟩

theorem patient_token : Patient token token := by
  intro text more c rest taken
  cases found : text.dropWhile isBlank with
  | nil => exact .inl (token_of_blanks found)
  | cons d left =>
    rw [token_of_dropWhile (dropWhile_append_of_cons found)] at taken
    cases taken
    exact .inr ⟨left, token_of_dropWhile found, rfl⟩

theorem patient_peek : Patient peek peek := by
  intro text more c rest taken
  cases found : text.dropWhile isBlank with
  | nil => exact .inl (by simp only [peek, found])
  | cons d left =>
    simp only [peek, dropWhile_append_of_cons found] at taken
    cases taken
    exact .inr ⟨c :: left, by simp only [peek, found], rfl⟩

theorem patient_expect (c : Char) (flaw : Flaw) : Patient (expect c flaw) (expect c flaw) := by
  refine patient_token.bind fun d => ?_
  split
  · exact patient_pure ()
  · exact patient_fail _

theorem patient_word (chars : List Char) : Patient (word chars) (word chars) := by
  induction chars with
  | nil => exact patient_pure ()
  | cons c chars ih =>
    refine patient_next.bind fun d => ?_
    split
    · exact ih
    · exact patient_fail _

end Reader

open Reader

theorem patient_quotedFrom (paired : Bool) (state : QuotedState) :
    Patient (quotedFrom paired state) (quotedFrom paired state) := by
  intro text more body rest taken
  induction text generalizing state body with
  | nil => exact .inl rfl
  | cons c text ih =>
    simp only [List.cons_append, quotedFrom] at taken ⊢
    cases turn : state.turn paired c with
    | error problem =>
      rw [turn] at taken
      cases taken
    | ok done =>
      rw [turn] at taken
      cases done with
      | close =>
        cases taken
        exact .inr ⟨text, rfl, rfl⟩
      | go next out =>
        simp only at taken ⊢
        cases later : quotedFrom paired next (text ++ more) with
        | error problem =>
          rw [later] at taken
          cases taken
        | ok pair =>
          rw [later] at taken
          cases taken
          rcases ih next _ later with short | ⟨left, same, shape⟩
          · rw [short]
            exact .inl rfl
          · rw [same]
            exact .inr ⟨left, rfl, shape⟩

theorem patient_quotedText : Patient quotedText quotedText := by
  rw [quotedText_eq]
  exact (patient_quotedFrom true .plain).bind fun chars => patient_pure _

/-! Numerals that are integers without a sign. -/

section Numerals

variable {choices text rest digits : List Char} {atEnd : Problem} {c : Char} {n : Numeral} {v : Int}

theorem of_oneOf?_none (taken : oneOf? choices text = .ok (none, rest)) :
    text = rest ∧ Avoids choices.contains rest := by
  cases text with
  | nil =>
    cases taken
    exact ⟨rfl, trivial⟩
  | cons c text =>
    simp only [oneOf?] at taken
    split at taken
    · cases taken
    · rename_i avoids
      cases taken
      exact ⟨rfl, Bool.eq_false_iff.mpr avoids⟩

theorem of_someDigits (taken : someDigits atEnd text = .ok (digits, rest)) :
    Figures digits ∧ text = digits ++ rest ∧ Avoids Char.isDigit rest := by
  cases text with
  | nil => cases taken
  | cons c text =>
    simp only [someDigits] at taken
    split at taken
    · rename_i digit
      simp only [Reader.digits, Except.ok.injEq, Prod.mk.injEq] at taken
      obtain ⟨rfl, rfl⟩ := taken
      refine ⟨⟨by simp [digit], fun d mem => ?_⟩, (List.takeWhile_append_dropWhile ..).symm, ?_⟩
      · exact List.all_eq_true.mp List.all_takeWhile d mem
      · cases left : (c :: text).dropWhile Char.isDigit with
        | nil => trivial
        | cons d left =>
          have stopped := List.head?_dropWhile_not Char.isDigit (c :: text)
          rw [left] at stopped
          exact stopped
    · cases taken

theorem of_fractionPart_none (taken : fractionPart atEnd text = .ok (none, rest)) :
    text = rest ∧ Avoids ['.'].contains rest := by
  obtain ⟨point, behind, pointed, taken⟩ := ok_of_bind taken
  cases point with
  | none =>
    cases taken
    exact of_oneOf?_none pointed
  | some c =>
    obtain ⟨digits, left, -, made⟩ := ok_of_bind taken
    cases made

theorem of_exponentPart_none (taken : exponentPart atEnd text = .ok (none, rest)) :
    text = rest ∧ Avoids ['e', 'E'].contains rest := by
  obtain ⟨mark, behind, marked, taken⟩ := ok_of_bind taken
  cases mark with
  | none =>
    cases taken
    exact of_oneOf?_none marked
  | some c =>
    obtain ⟨sign, behind, -, taken⟩ := ok_of_bind taken
    obtain ⟨digits, left, -, made⟩ := ok_of_bind taken
    cases made

theorem of_numeral_whole (taken : numeral atEnd text = .ok (⟨false, digits, none, none⟩, rest)) :
    Whole digits ∧ text = digits ++ rest ∧ Delimited rest := by
  obtain ⟨sign, unsigned, signed, taken⟩ := ok_of_bind taken
  obtain ⟨whole, behind, figures, taken⟩ := ok_of_bind taken
  split at taken
  · cases taken
  · rename_i allowed
    obtain ⟨fraction, behind', fractional, taken⟩ := ok_of_bind taken
    obtain ⟨exponent, behind'', exponential, made⟩ := ok_of_bind taken
    obtain ⟨parts, rfl⟩ := Prod.mk.inj (Except.ok.inj made)
    simp only [Numeral.mk.injEq, Option.isSome_eq_false_iff, Option.isNone_iff_eq_none] at parts
    obtain ⟨rfl, rfl, rfl, rfl⟩ := parts
    obtain ⟨rfl, -⟩ := of_oneOf?_none signed
    obtain ⟨shape, rfl, undigited⟩ := of_someDigits figures
    obtain ⟨rfl, pointless⟩ := of_fractionPart_none fractional
    obtain ⟨rfl, markless⟩ := of_exponentPart_none exponential
    refine ⟨⟨shape, fun zero => ?_⟩, rfl, ?_⟩
    · cases whole with
      | nil => cases zero
      | cons c whole =>
        obtain rfl : c = '0' := by simpa using zero
        have alone : whole = [] := by simpa using allowed
        rw [alone]
    · cases behind with
      | nil => trivial
      | cons c behind =>
        have noDigit : c.isDigit = false := undigited
        have noPoint : ['.'].contains c = false := pointless
        have noMark : ['e', 'E'].contains c = false := markless
        simp only [List.contains_cons, List.contains_nil, Bool.or_false, Bool.or_eq_false_iff, beq_eq_false_iff_ne]
          at noPoint noMark
        simp [Delimited, Avoids, continuesNumeral, noDigit, noPoint, noMark]

theorem floating_ne_integer (significand : Nat) (places : Int) : n.floating significand places ≠ some (.integer v) := by
  unfold Numeral.floating
  dsimp only
  split
  · simp [Numeral.signed]
  · split
    · split <;> simp [Numeral.signed]
    · simp [Numeral.signed]

theorem of_wholeNumber {significand : Nat} (whole : n.wholeNumber significand = .integer v) (positive : 0 ≤ v) :
    n.negative = false ∧ v = significand := by
  unfold Numeral.wholeNumber at whole
  split at whole
  · rename_i unsigned
    cases whole
    exact ⟨by simpa using unsigned, rfl⟩
  · split at whole
    · cases whole
    · rename_i fits
      cases whole
      simp only [Bool.or_eq_true, decide_eq_true_eq, not_or] at fits
      omega

theorem of_absorb_all (digits : List Char) (significand : Nat) (all : digits.length ≤ (absorb significand digits).1) :
    (absorb significand digits).2 =
      digits.foldl (fun value digit => 10 * value + Decimal.digitValue digit) significand := by
  induction digits generalizing significand with
  | nil => rfl
  | cons c digits ih =>
    simp only [absorb, List.length_cons] at all ⊢
    split at all
    · rename_i fits
      rw [if_pos fits]
      exact ih _ (Nat.le_of_succ_le_succ all)
    · omega

theorem of_value_integer (valued : n.value = some (.integer v)) (positive : 0 ≤ v) :
    n = ⟨false, n.whole, none, none⟩ ∧ v = Decimal.digitsValue n.whole := by
  obtain ⟨negative, whole, fraction, exponent⟩ := n
  simp only [Numeral.value] at valued
  cases fraction with
  | some digits => exact absurd valued (floating_ne_integer _ _)
  | none =>
    simp only at valued
    split at valued
    · rename_i undropped
      simp only [Bool.and_eq_true, decide_eq_true_eq, Option.isNone_iff_eq_none] at undropped
      obtain ⟨all, rfl⟩ := undropped
      obtain ⟨unsigned, rfl⟩ := of_wholeNumber (Option.some.inj valued) positive
      obtain rfl : negative = false := unsigned
      exact ⟨rfl, congrArg Int.ofNat (of_absorb_all whole 0 (by omega))⟩
    · exact absurd valued (floating_ne_integer _ _)

theorem of_number_integer (taken : number text = .ok (.integer v, rest)) (positive : 0 ≤ v) :
    ∃ digits, Whole digits ∧ text = digits ++ rest ∧ Delimited rest ∧ v = Decimal.digitsValue digits := by
  obtain ⟨n, left, scanned, valued⟩ := ok_of_bind taken
  cases value : n.value with
  | none =>
    rw [value] at valued
    cases valued
  | some m =>
    rw [value] at valued
    cases valued
    obtain ⟨shape, same⟩ := of_value_integer value positive
    rw [shape] at scanned
    obtain ⟨whole, cut, delimited⟩ := of_numeral_whole scanned
    exact ⟨n.whole, whole, cut, delimited, same⟩

theorem digitsValue_append_le (digits more : List Char) :
    Decimal.digitsValue digits ≤ Decimal.digitsValue (digits ++ more) := by
  simp only [Decimal.digitsValue, List.foldl_append]
  exact foldl_digits_ge more _

theorem Whole.of_append {more : List Char} (whole : Whole (text ++ more)) (some_digit : text ≠ []) : Whole text where
  some_digit := some_digit
  digits c mem := whole.digits c (List.mem_append_left more mem)
  leading zero := by
    have single := whole.leading (by rw [List.head?_append, zero]; rfl)
    rcases List.append_eq_singleton_iff.mp single with ⟨none, -⟩ | ⟨same, -⟩
    · exact absurd none some_digit
    · exact same

theorem eager_inWord (bits : Nat) (narrow : bits ≤ 64) : Eager (number >>= inWord bits) (number >>= inWord bits) := by
  intro text more w rest taken
  obtain ⟨m, left, numbered, made⟩ := ok_of_bind taken
  cases m with
  | floating value => cases made
  | integer value =>
    rw [inWord] at made
    split at made
    · rename_i inRange
      simp only [Bool.and_eq_true, decide_eq_true_eq] at inRange
      obtain ⟨rfl, rfl⟩ : value.toNat = w ∧ left = rest := by simpa using Except.ok.inj made
      obtain ⟨digits, whole, cut, delimited, rfl⟩ := of_number_integer numbered inRange.1
      have fits : Decimal.digitsValue digits < Nat.pow 2 bits := Int.ofNat_lt.mp inRange.2
      -- The text ends within the digits, which leaves a smaller word or none, or behind them.
      rcases List.append_eq_append_iff.mp cut with ⟨behind, rfl, -⟩ | ⟨behind, rfl, rfl⟩
      · by_cases none : text = []
        · exact .inl (by rw [none]; rfl)
        · have smaller : WordText bits (Decimal.digitsValue text) text :=
            ⟨whole.of_append none, rfl, Nat.lt_of_le_of_lt (digitsValue_append_le text behind) fits⟩
          have all := inWord_of_text smaller narrow (show Delimited [] from trivial)
          rw [List.append_nil] at all
          exact .inr (.inr ⟨_, all⟩)
      · have shorter : Delimited behind := by
          cases behind with
          | nil => trivial
          | cons c behind => exact delimited
        exact .inr (.inl ⟨behind, inWord_of_text ⟨whole, rfl, fits⟩ narrow shorter, rfl⟩)
    · cases made

theorem patient_mismatch {α : Type} {x : Reader α} (expected : String) : Patient x (mismatch expected) := by
  refine patient_of_never fun text a rest taken => ?_
  obtain ⟨what, left, -, made⟩ := ok_of_bind taken
  cases made

theorem eager_readWord (bits : Nat) (narrow : bits ≤ 64) : Eager (readWord bits) (readWord bits) := by
  rw [readWord_eq]
  refine patient_peek.bind_eager fun c => ?_
  split
  · exact eager_inWord bits narrow
  · exact (patient_mismatch _).eager

end Numerals

/-! Flags and words of a vocabulary. -/

theorem patient_readFlag : Patient readFlag readFlag := by
  refine patient_peek.bind fun c => ?_
  split
  · exact (patient_word _).bind fun _ => patient_pure _
  · exact (patient_word _).bind fun _ => patient_pure _
  · exact patient_mismatch _

theorem patient_readUnit : Patient readUnit readUnit := by
  refine patient_peek.bind fun c => ?_
  split
  · exact patient_word _
  · exact patient_mismatch _

theorem patient_readVariant {α : Type} [Enumerated α] : Patient (readVariant α) (readVariant α) := by
  refine patient_quotedText.bind fun name => ?_
  split
  · exact patient_pure _
  · exact patient_fail _

theorem patient_readChoice {α : Type} [Enumerated α] : Patient (readChoice α) (readChoice α) := by
  refine patient_token.bind fun c => ?_
  split
  · exact patient_readVariant
  · refine (patient_expect '"' _).bind fun _ => ?_
    refine patient_readVariant.bind fun a => ?_
    refine (patient_expect ':' _).bind fun _ => ?_
    refine patient_readUnit.bind fun _ => ?_
    exact (patient_expect '}' _).bind fun _ => patient_pure a
  · exact patient_fail _

/-! Records whose members are all known. -/

/-- Whoever refuses foreign members reads all else as anyone would, and gets no further with a part of it. -/
structure Codec.Discerning {α : Type} (codec : Codec α) : Prop where
  eager : ∀ foreign problem, Eager (codec.readWith foreign) (codec.readWith (fail problem))
  refuses : ∀ foreign problem, Refuses problem (codec.readWith foreign) (codec.readWith (fail problem))

section Records

variable {fuel fuel' : Nat} {fields : List Field} (foreign : Reader Unit) (problem : Problem)

def DiscerningFields (fields : List Field) : Prop := ∀ field ∈ fields, field.codec.Discerning

theorem DiscerningFields.tail {field : Field} (discerning : DiscerningFields (field :: fields)) :
    DiscerningFields fields :=
  fun other mem => discerning other (List.mem_cons_of_mem field mem)

theorem patient_comma (first : Bool) (flaw : Flaw) : Patient (comma first flaw) (comma first flaw) := by
  cases first with
  | true => exact patient_pure ()
  | false => exact patient_expect ',' flaw

theorem eager_member (name : String) : (fields : List Field) → (slots : Slots fields) → DiscerningFields fields →
    Eager (slots.member foreign fields name) (slots.member (fail problem) fields name)
  | [], (), _ => (patient_fail problem).eager
  | field :: fields, (slot, slots), discerning => by
    have first := (discerning field List.mem_cons_self).eager foreign problem
    simp only [Slots.member]
    split
    · cases slot with
      | some value => exact (patient_fail _).eager
      | none => exact (patient_expect ':' _).bind_eager fun _ => first.map fun value => (some value, slots)
    · exact (eager_member name fields slots discerning.tail).map fun slots => (slot, slots)

theorem patient_openName : Patient openName openName := by
  refine patient_token.bind fun c => ?_
  split
  · exact patient_pure ()
  · exact patient_fail _
  · exact patient_fail _

theorem hungry_members (first : Bool) (slots : Slots fields) : Hungry (members foreign fields fuel first slots) := by
  cases fuel with
  | zero => rfl
  | succ fuel => exact bind_of_error rfl

theorem patient_members (discerning : DiscerningFields fields) (first : Bool) (slots : Slots fields) :
    Patient (members foreign fields fuel first slots) (members (fail problem) fields fuel' first slots) := by
  induction fuel generalizing fuel' first slots with
  | zero => exact fun text more a rest _ => .inl rfl
  | succ fuel ih =>
    cases fuel' with
    | zero => exact patient_fail _
    | succ fuel' =>
      refine patient_peek.bind fun c => ?_
      split
      · exact patient_next.bind fun _ => patient_pure slots
      · refine (patient_comma first _).bind fun _ => ?_
        refine patient_openName.bind fun _ => ?_
        refine patient_quotedText.bind fun name => ?_
        exact (eager_member foreign problem name fields slots discerning).bind (fun slots => ih false slots)
          fun slots => hungry_members foreign false slots

theorem patient_conclude (slots : Slots fields) : Patient (conclude fields slots) (conclude fields slots) := by
  unfold conclude
  split
  · exact patient_fail _
  · exact patient_pure _

theorem patient_readMembers (discerning : DiscerningFields fields) :
    Patient (readMembers foreign fields) (readMembers (fail problem) fields) := by
  intro text more values rest taken
  rw [readMembers_eq] at taken ⊢
  exact (patient_members foreign problem discerning true _).bind patient_conclude text more values rest taken

theorem patient_closeItems : Patient closeItems closeItems := by
  refine patient_token.bind fun c => ?_
  split
  · exact patient_pure ()
  · exact patient_of_never fun text a rest taken => by cases taken
  · exact patient_fail _

theorem hungry_readItems (record : String) (size index : Nat) (fields : List Field) :
    Hungry (readItems foreign record size index fields) := by
  cases fields <;> exact bind_of_error rfl

theorem patient_readItems (record : String) (size : Nat) : (index : Nat) → (fields : List Field) →
    DiscerningFields fields →
    Patient (readItems foreign record size index fields) (readItems (fail problem) record size index fields)
  | _, [], _ => patient_closeItems
  | index, field :: fields, discerning => by
    have first := (discerning field List.mem_cons_self).eager foreign problem
    refine patient_peek.bind fun c => ?_
    split
    · exact patient_fail _
    · refine (patient_comma _ _).bind fun _ => ?_
      refine patient_peek.bind fun d => ?_
      split
      · exact patient_fail _
      · refine first.bind (fun value => ?_) fun value => bind_of_error (hungry_readItems foreign record size _ fields)
        exact (patient_readItems record size (index + 1) fields discerning.tail).bind fun values => patient_pure _

theorem patient_readRecord (record : String) (discerning : DiscerningFields fields) :
    Patient (readRecord foreign record fields) (readRecord (fail problem) record fields) := by
  refine patient_peek.bind fun c => ?_
  split
  · exact patient_next.bind fun _ => patient_readMembers foreign problem discerning
  · exact patient_next.bind fun _ => patient_readItems foreign problem record _ 0 fields discerning
  · exact patient_mismatch _

/-! What is not refused is read as by everyone else. -/

theorem refuses_member (name : String) : (fields : List Field) → (slots : Slots fields) → DiscerningFields fields →
    Refuses problem (slots.member foreign fields name) (slots.member (fail problem) fields name)
  | [], (), _ => fun _ => .inr rfl
  | field :: fields, (slot, slots), discerning => by
    have first := (discerning field List.mem_cons_self).refuses foreign problem
    simp only [Slots.member]
    split
    · cases slot with
      | some value => exact .refl _
      | none => exact (Refuses.refl _).bind fun _ => first.bind fun _ => .refl _
    · exact (refuses_member name fields slots discerning.tail).bind fun _ => .refl _

theorem refuses_members (discerning : DiscerningFields fields) (first : Bool) (slots : Slots fields) :
    Refuses problem (members foreign fields fuel first slots) (members (fail problem) fields fuel first slots) := by
  induction fuel generalizing first slots with
  | zero => exact .refl _
  | succ fuel ih =>
    refine (Refuses.refl _).bind fun c => ?_
    split
    · exact .refl _
    · refine (Refuses.refl _).bind fun _ => ?_
      refine (Refuses.refl _).bind fun _ => ?_
      refine (Refuses.refl _).bind fun name => ?_
      exact (refuses_member foreign problem name fields slots discerning).bind fun slots => ih false slots

theorem refuses_readItems (record : String) (size : Nat) : (index : Nat) → (fields : List Field) →
    DiscerningFields fields →
    Refuses problem (readItems foreign record size index fields) (readItems (fail problem) record size index fields)
  | _, [], _ => .refl _
  | index, field :: fields, discerning => by
    have first := (discerning field List.mem_cons_self).refuses foreign problem
    refine (Refuses.refl _).bind fun c => ?_
    split
    · exact .refl _
    · refine (Refuses.refl _).bind fun _ => ?_
      refine (Refuses.refl _).bind fun d => ?_
      split
      · exact .refl _
      · refine first.bind fun value => ?_
        exact (refuses_readItems record size (index + 1) fields discerning.tail).bind fun _ => .refl _

theorem refuses_readRecord (record : String) (discerning : DiscerningFields fields) :
    Refuses problem (readRecord foreign record fields) (readRecord (fail problem) record fields) := by
  refine (Refuses.refl _).bind fun c => ?_
  split
  · refine (Refuses.refl _).bind fun _ text => ?_
    rw [readMembers_eq, readMembers_eq]
    exact (refuses_members foreign problem discerning true _).bind (fun _ => .refl _) text
  · exact (Refuses.refl _).bind fun _ => refuses_readItems foreign problem record _ 0 fields discerning
  · exact .refl _

variable {α : Type} (format : RecordFormat α)

theorem RecordFormat.patient (discerning : DiscerningFields format.fields) :
    Patient (format.codec.readWith foreign) (format.codec.readWith (fail problem)) :=
  (patient_readRecord foreign problem format.name discerning).bind fun _ => patient_pure _

theorem RecordFormat.refuses (discerning : DiscerningFields format.fields) :
    Refuses problem (format.codec.readWith foreign) (format.codec.readWith (fail problem)) :=
  (refuses_readRecord foreign problem format.name discerning).bind fun _ => .refl _

theorem RecordFormat.discerning (discerning : DiscerningFields format.fields) : format.codec.Discerning where
  eager foreign problem := (format.patient foreign problem discerning).eager
  refuses foreign problem := format.refuses foreign problem discerning

end Records

/-! The codecs that fields have. -/

theorem discerning_word {α : Type} (bits : Nat) (narrow : bits ≤ 64) (make : Nat → α) (split : α → Nat) :
    ((wordCodec bits).map make split).Discerning :=
  ⟨fun _ _ => (eager_readWord bits narrow).map make, fun _ _ => .refl _⟩

theorem discerning_byte : byte.Discerning := discerning_word 8 (by decide) _ _

theorem discerning_halfWord : halfWord.Discerning := discerning_word 16 (by decide) _ _

theorem discerning_fullWord : fullWord.Discerning := discerning_word 32 (by decide) _ _

theorem discerning_flag : flag.Discerning := ⟨fun _ _ => patient_readFlag.eager, fun _ _ => .refl _⟩

theorem discerning_choice (α : Type) [Enumerated α] : (choice α).Discerning :=
  ⟨fun _ _ => patient_readChoice.eager, fun _ _ => .refl _⟩

/-! Texts as a whole. -/

theorem of_run {α : Type} {x : Reader α} {text : List Char} {a : α} (accepted : x.run text = .ok a) :
    ∃ rest, x text = .ok (a, rest) ∧ Padding rest := by
  unfold Reader.run at accepted
  split at accepted
  · cases accepted
  · rename_i taken
    split at accepted
    · rename_i blank
      cases accepted
      exact ⟨_, taken, List.all_eq_true.mp blank⟩
    · cases accepted

theorem Reader.Refuses.run {α : Type} {x y : Reader α} {problem : Problem} (refuses : Refuses problem x y)
    (text : List Char) : y.run text = x.run text ∨ y.run text = .error problem := by
  rcases refuses text with same | refused
  · exact .inl (by rw [Reader.run, same, Reader.run])
  · exact .inr (by rw [Reader.run, refused])

theorem run_of_cut {α : Type} {x y : Reader α} (patient : Patient x y) {start more : List Char} {a : α}
    (accepted : y.run (start ++ more) = .ok a) (proper : more ≠ [])
    (ends : ∀ c ∈ (start ++ more).getLast?, isBlank c = false) : x.run start = .error .truncated := by
  obtain ⟨rest, taken, padding⟩ := of_run accepted
  rcases patient start more a rest taken with short | ⟨left, -, rfl⟩
  · rw [Reader.run, short]
  · have last := ends (more.getLast proper)
      (by rw [List.getLast?_append, List.getLast?_eq_some_getLast proper]; rfl)
    have blank := padding _ (List.mem_append_right left (List.getLast_mem proper))
    cases last.symm.trans blank

end PeripheralLayer.Json

namespace PeripheralLayer

open Json Json.Reader

theorem Pin.discerning : DiscerningFields Pin.format.fields := by
  simp [DiscerningFields, Pin.format, discerning_byte]

theorem BusPins.discerning : DiscerningFields BusPins.format.fields := by
  have pin : Pin.codec.Discerning := Pin.format.discerning Pin.discerning
  simp [DiscerningFields, BusPins.format, pin]

theorem Bus.BlockConfig.discerning : DiscerningFields Bus.BlockConfig.format.fields := by
  simp [DiscerningFields, Bus.BlockConfig.format, Bus.Role.codec, discerning_choice, discerning_byte,
    discerning_fullWord]

theorem Bus.Config.discerning : DiscerningFields Bus.Config.format.fields := by
  simp [DiscerningFields, Bus.Config.format, Bus.ReinitPolicy.codec, Bus.DispatchMode.codec, discerning_choice,
    discerning_byte, discerning_halfWord]

theorem Clock.CounterConfig.discerning : DiscerningFields Clock.CounterConfig.format.fields := by
  simp [DiscerningFields, Clock.CounterConfig.format, Clock.CountDirection.codec, discerning_choice, discerning_flag,
    discerning_fullWord]

namespace Subject

theorem patient (subject : Subject) (foreign : Reader Unit) (problem : Problem) :
    Patient (subject.codec.readWith foreign) (subject.codec.readWith (fail problem)) := by
  cases subject with
  | status => exact patient_readChoice (α := Status)
  | event => exact patient_readChoice (α := Event)
  | role => exact patient_readChoice (α := Bus.Role)
  | countDirection => exact patient_readChoice (α := Clock.CountDirection)
  | reinitPolicy => exact patient_readChoice (α := Bus.ReinitPolicy)
  | dispatchMode => exact patient_readChoice (α := Bus.DispatchMode)
  | pin => exact Pin.format.patient foreign problem Pin.discerning
  | busPins => exact BusPins.format.patient foreign problem BusPins.discerning
  | blockConfig => exact Bus.BlockConfig.format.patient foreign problem Bus.BlockConfig.discerning
  | counterConfig => exact Clock.CounterConfig.format.patient foreign problem Clock.CounterConfig.discerning
  | mediatorConfig => exact Bus.Config.format.patient foreign problem Bus.Config.discerning

theorem refuses (subject : Subject) (foreign : Reader Unit) (problem : Problem) :
    Refuses problem (subject.codec.readWith foreign) (subject.codec.readWith (fail problem)) := by
  cases subject with
  | status | event | role | countDirection | reinitPolicy | dispatchMode => exact .refl _
  | pin => exact Pin.format.refuses foreign problem Pin.discerning
  | busPins => exact BusPins.format.refuses foreign problem BusPins.discerning
  | blockConfig => exact Bus.BlockConfig.format.refuses foreign problem Bus.BlockConfig.discerning
  | counterConfig => exact Clock.CounterConfig.format.refuses foreign problem Clock.CounterConfig.discerning
  | mediatorConfig => exact Bus.Config.format.refuses foreign problem Bus.Config.discerning

/-- No name in the text is foreign: there is a problem that is not found by whoever finds it at every such name. -/
def Familiar (subject : Subject) (text : String) : Prop :=
  ∃ problem, (subject.codec.readWith (fail problem)).run text.toList ≠ .error problem

/-- Of the accepted texts the familiar ones are those that mean the same to everyone, whatever is done about foreign
names. -/
theorem familiar_iff {subject : Subject} {text : String} {value : subject.Value}
    (accepted : subject.codec.decode text = .ok value) :
    subject.Familiar text ↔ ∀ foreign, (subject.codec.readWith foreign).run text.toList = .ok value := by
  constructor
  · rintro ⟨problem, passed⟩ foreign
    have same := ((subject.refuses passOver problem).run text.toList).resolve_right passed
    have same' := ((subject.refuses foreign problem).run text.toList).resolve_right passed
    exact same'.symm.trans (same.trans accepted)
  · intro read
    refine ⟨.truncated, ?_⟩
    simp [read]

end Subject

/-- Whoever gets only a part of a description is told just that, wherever the description was cut: in a name, an escape,
a number or a literal, or between the tokens. The description may come in any form, as long as it holds nothing but its
fields and ends where its value does. -/
theorem cut_description_truncated (subject : Subject) {text : String} {value : subject.Value}
    (accepted : subject.codec.decode text = .ok value) (familiar : subject.Familiar text)
    (ends : ∀ c ∈ text.toList.getLast?, isBlank c = false) {start more : String} (cut : text = start ++ more)
    (proper : more ≠ "") : subject.codec.decode start = .error .truncated := by
  have strictly := (Subject.familiar_iff accepted).mp familiar (fail .truncated)
  have some_more : more.toList ≠ [] := fun none => proper (String.toList_eq_nil_iff.mp none)
  rw [cut, String.toList_append] at strictly ends
  exact run_of_cut (subject.patient passOver .truncated) strictly some_more ends

-- A value that is skipped and cut behind its sign is not told from one that is malformed.
example : Pin.codec.decode "\x7b\"x\":-1,\"port\":1,\"pin\":2\x7d" = .ok ⟨1, 2⟩ ∧
    Pin.codec.decode "\x7b\"x\":-" = .error (.malformed .badNumber) := by decide +kernel

/-- A configuration with its fields turned around, an escape in a name, blanks, and the role as a member. -/
def scatteredBlock : String :=
  "\x7b \"frequency_hz\" : 400000,\"\\u0072ole\":\x7b\"Slave\" :null\x7d,\n\"address\":16 \x7d"

/-- Cut at once, in the number, in the escape, and in the literal. -/
theorem scattered_block_truncated :
    Bus.BlockConfig.codec.decode scatteredBlock = .ok ⟨.slave, 16, 400000⟩ ∧
      Bus.BlockConfig.codec.decode "" = .error .truncated ∧
      Bus.BlockConfig.codec.decode "\x7b \"frequency_hz\" : 40" = .error .truncated ∧
      Bus.BlockConfig.codec.decode "\x7b \"frequency_hz\" : 400000,\"\\u00" = .error .truncated ∧
      Bus.BlockConfig.codec.decode "\x7b \"frequency_hz\" : 400000,\"\\u0072ole\":\x7b\"Slave\" :nul" =
        .error .truncated := by
  have accepted : Bus.BlockConfig.codec.decode scatteredBlock = .ok ⟨.slave, 16, 400000⟩ := by decide +kernel
  have strictly : (Bus.BlockConfig.codec.readWith (fail .truncated)).run scatteredBlock.toList ≠ .error .truncated := by
    decide +kernel
  have familiar : Subject.blockConfig.Familiar scatteredBlock := ⟨.truncated, strictly⟩
  have last : scatteredBlock.toList.getLast? = some '\x7d' := by decide +kernel
  have ends : ∀ c ∈ scatteredBlock.toList.getLast?, isBlank c = false := by
    rw [last]
    rintro c ⟨⟩
    rfl
  have truncated (start more : String) (cut : scatteredBlock = start ++ more) (proper : more ≠ "") :=
    cut_description_truncated .blockConfig accepted familiar ends cut proper
  refine ⟨accepted, truncated _ scatteredBlock ?_ ?_, truncated _
    "0000,\"\\u0072ole\":\x7b\"Slave\" :null\x7d,\n\"address\":16 \x7d" ?_ ?_, truncated _
    "72ole\":\x7b\"Slave\" :null\x7d,\n\"address\":16 \x7d" ?_ ?_, truncated _ "l\x7d,\n\"address\":16 \x7d" ?_ ?_⟩
  all_goals decide +kernel

end PeripheralLayer
