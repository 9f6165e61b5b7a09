import PeripheralLayer.Proofs.Json.Grammar

/-!
Readers against the grammar. Whatever the grammar allows, a reader takes to its very end and no further,
provided that what follows does not prolong a numeral. The fuel of a skipped value covers all of its text,
so a value of any depth is skipped.
-/
namespace PeripheralLayer.Json

namespace Reader

variable {α β : Type} {x : Reader α} {f : α → Reader β} {a : α} {c : Char} {flaw : Flaw} {text rest pad : List Char}

theorem bind_of_ok (taken : x text = .ok (a, rest)) : (x >>= f) text = f a rest := by
  change (x text >>= fun pair => f pair.1 pair.2) = f a rest
  rw [taken]
  rfl

theorem bind_of_error {problem : Problem} (failed : x text = .error problem) : (x >>= f) text = .error problem := by
  change (x text >>= fun pair => f pair.1 pair.2) = .error problem
  rw [failed]
  rfl

theorem bind_congr {y : Reader α} {text' : List Char} (same : x text = y text') : (x >>= f) text = (y >>= f) text' := by
  change (x text >>= fun pair => f pair.1 pair.2) = (y text' >>= fun pair => f pair.1 pair.2)
  rw [same]

theorem dropWhile_padding (padding : Padding pad) : (pad ++ text).dropWhile isBlank = text.dropWhile isBlank :=
  List.dropWhile_append_of_pos padding

theorem isBlank_of_startsValue (starts : startsValue c = true) : isBlank c = false := by
  simp only [startsValue, Bool.and_eq_true, Bool.not_eq_true'] at starts
  exact starts.1.1.1

theorem peek_padding (padding : Padding pad) : peek (pad ++ text) = peek text := by
  simp only [peek, dropWhile_padding padding]

theorem token_padding (padding : Padding pad) : token (pad ++ text) = token text := by
  simp only [token, dropWhile_padding padding]

theorem peek_of_padding (padding : Padding pad) (mark : isBlank c = false) :
    peek (pad ++ c :: rest) = .ok (c, c :: rest) := by
  simp only [peek, dropWhile_padding padding, List.dropWhile_cons, mark, Bool.false_eq_true, if_false]

theorem token_of_padding (padding : Padding pad) (mark : isBlank c = false) :
    token (pad ++ c :: rest) = .ok (c, rest) := by
  simp only [token, dropWhile_padding padding, List.dropWhile_cons, mark, Bool.false_eq_true, if_false, next]

theorem expect_of_padding (padding : Padding pad) (mark : isBlank c = false) :
    expect c flaw (pad ++ c :: rest) = .ok ((), rest) := by
  rw [expect, bind_of_ok (token_of_padding padding mark), if_pos rfl]
  rfl

theorem peek_mark (mark : isBlank c = false) : peek (c :: rest) = .ok (c, c :: rest) := peek_of_padding .nil mark

theorem expect_mark (mark : isBlank c = false) : expect c flaw (c :: rest) = .ok ((), rest) :=
  expect_of_padding .nil mark

theorem next_cons : next (c :: rest) = .ok (c, rest) := rfl

theorem word_of_append (text : List Char) : word text (text ++ rest) = .ok ((), rest) := by
  induction text with
  | nil => rfl
  | cons c text ih =>
    rw [word, List.cons_append, bind_of_ok next_cons, if_pos rfl]
    exact ih

end Reader

/-! Quoted texts. -/

section Quoted

variable {paired : Bool} {state next : QuotedState} {out : Option Char} {a b c d : Char} {unit : Nat}
  {body text rest : List Char}

theorem utf8Size_of_hexValue? {value : Nat} (hex : hexValue? c = some value) : c.utf8Size = 1 := by
  rw [Char.utf8Size_eq_one_iff]
  unfold hexValue? at hex
  split at hex
  · rename_i digit
    simp only [Char.isDigit, Bool.and_eq_true, decide_eq_true_eq] at digit
    exact UInt32.le_trans digit.2 (by decide)
  · split at hex
    · rename_i lower
      simp only [Bool.and_eq_true, decide_eq_true_eq, Char.le_def] at lower
      exact UInt32.le_trans lower.2 (by decide)
    · split at hex
      · rename_i upper
        simp only [Bool.and_eq_true, decide_eq_true_eq, Char.le_def] at upper
        exact UInt32.le_trans upper.2 (by decide)
      · cases hex

theorem quotedFrom_of_silent (turn : state.turn paired c = .ok (.go next none)) :
    quotedFrom paired state (c :: text) = quotedFrom paired next text := by
  simp only [quotedFrom, turn]
  cases quotedFrom paired next text <;> rfl

theorem quotedFrom_of_loud (turn : state.turn paired c = .ok (.go next (some d)))
    (later : quotedFrom paired next text = .ok (body, rest)) :
    quotedFrom paired state (c :: text) = .ok (d :: body, rest) := by
  simp only [quotedFrom, turn, later]
  rfl

theorem quotedFrom_of_plain (itself : isPlain c = true) (later : quotedFrom paired .plain text = .ok (body, rest)) :
    quotedFrom paired .plain (c :: text) = .ok (c :: body, rest) := by
  simp only [isPlain, ne_eq, decide_not, Bool.and_eq_true, Bool.not_eq_true', decide_eq_false_iff_not,
    decide_eq_true_eq] at itself
  obtain ⟨⟨quote, slash⟩, control⟩ := itself
  have turn : QuotedState.turn paired .plain c = .ok (.go .plain (some c)) := by
    simp only [QuotedState.turn, quote, slash, Char.not_lt.mpr control, if_false]
  exact quotedFrom_of_loud turn later

theorem quotedFrom_escape : quotedFrom paired .plain ('\\' :: text) = quotedFrom paired .escape text :=
  quotedFrom_of_silent rfl

theorem quotedFrom_escape_unit :
    quotedFrom paired .plain ('\\' :: 'u' :: text) = quotedFrom paired (.digits none 0 (some 0)) text :=
  quotedFrom_escape.trans (quotedFrom_of_silent rfl)

theorem quotedFrom_escape_partner :
    quotedFrom paired (.lead unit) ('\\' :: 'u' :: text) = quotedFrom paired (.digits (some unit) 0 (some 0)) text :=
  Eq.trans (quotedFrom_of_silent rfl) (quotedFrom_of_silent rfl)

theorem quotedFrom_of_letter (named : escaped? c = some d)
    (later : quotedFrom paired .plain text = .ok (body, rest)) :
    quotedFrom paired .plain ('\\' :: c :: text) = .ok (d :: body, rest) := by
  have noUnit : c ≠ 'u' := by
    rintro rfl
    cases named
  have turn : QuotedState.turn paired .escape c = .ok (.go .plain (some d)) := by
    simp only [QuotedState.turn, noUnit, named, if_false]
  exact quotedFrom_escape.trans (quotedFrom_of_loud turn later)

theorem quotedFrom_of_early {waiting : Option Nat} {seen high low : Nat} (hex : hexValue? c = some low)
    (early : seen < 3) :
    quotedFrom paired (.digits waiting seen (some high)) (c :: text) =
      quotedFrom paired (.digits waiting (seen + 1) (some (16 * high + low))) text := by
  have turn : QuotedState.turn paired (.digits waiting seen (some high)) c =
      .ok (.go (.digits waiting (seen + 1) (some (16 * high + low))) none) := by
    simp only [QuotedState.turn, digitsTurn, utf8Size_of_hexValue? hex, hex, if_pos (show seen + 1 < 4 by omega)]
  exact quotedFrom_of_silent turn

theorem quotedFrom_of_unit (paired : Bool) (waiting : Option Nat) (text : List Char)
    (spelt : hexUnit? a b c d = some unit) :
    ∃ high, quotedFrom paired (.digits waiting 0 (some 0)) (a :: b :: c :: d :: text) =
        quotedFrom paired (.digits waiting 3 (some high)) (d :: text) ∧
      QuotedState.turn paired (.digits waiting 3 (some high)) d =
        if paired then unitTurn waiting unit else .ok (.go .plain none) := by
  simp only [hexUnit?, Option.bind_eq_bind, Option.bind_eq_some_iff, Option.pure_def, Option.some.injEq] at spelt
  obtain ⟨first, hexA, second, hexB, third, hexC, fourth, hexD, rfl⟩ := spelt
  refine ⟨16 * (16 * first + second) + third, ?_, ?_⟩
  · rw [quotedFrom_of_early hexA (by omega), quotedFrom_of_early hexB (by omega), quotedFrom_of_early hexC (by omega)]
    simp only [Nat.mul_zero, Nat.zero_add]
  · simp only [QuotedState.turn, digitsTurn, utf8Size_of_hexValue? hexD, hexD, if_neg (show ¬ 3 + 1 < 4 by omega)]

theorem quotedFrom_of_spells (spells : Spells body text) :
    quotedFrom true .plain (text ++ '"' :: rest) = .ok (body, rest) := by
  induction spells with
  | nil => rfl
  | plain itself tail later => exact quotedFrom_of_plain itself later
  | letter named tail later => exact quotedFrom_of_letter named later
  | @unit a b c d unit body text spelt lone tail later =>
    obtain ⟨high, taken, turn⟩ := quotedFrom_of_unit true none (text ++ '"' :: rest) spelt
    simp only [unitTurn, lone, Bool.false_eq_true, if_true, if_false] at turn
    exact (quotedFrom_escape_unit.trans taken).trans (quotedFrom_of_loud turn later)
  | @pair a b c d a' b' c' d' leading trailing body text first leads second trails tail later =>
    obtain ⟨high, taken, turn⟩ := quotedFrom_of_unit true none
      ('\\' :: 'u' :: a' :: b' :: c' :: d' :: (text ++ '"' :: rest)) first
    simp only [unitTurn, leads, if_true] at turn
    obtain ⟨high', taken', turn'⟩ := quotedFrom_of_unit true (some leading) (text ++ '"' :: rest) second
    simp only [unitTurn, trails, if_true] at turn'
    have opened := (quotedFrom_escape_unit.trans taken).trans (quotedFrom_of_silent turn)
    exact (opened.trans (quotedFrom_escape_partner.trans taken')).trans (quotedFrom_of_loud turn' later)

theorem quotedText_of_spells (spells : Spells body text) :
    quotedText (text ++ '"' :: rest) = .ok (String.ofList body, rest) := by
  simp only [quotedText, quotedFrom_of_spells spells]

theorem quotedFrom_of_quotable (quotable : Quotable text) (rest : List Char) :
    ∃ body, quotedFrom false .plain (text ++ '"' :: rest) = .ok (body, rest) := by
  induction quotable with
  | nil => exact ⟨[], rfl⟩
  | plain itself tail later =>
    obtain ⟨body, later⟩ := later
    exact ⟨_, quotedFrom_of_plain itself later⟩
  | letter named tail later =>
    obtain ⟨body, later⟩ := later
    obtain ⟨d, named⟩ := Option.isSome_iff_exists.mp named
    exact ⟨_, quotedFrom_of_letter named later⟩
  | @unit a b c d text spelt tail later =>
    obtain ⟨body, later⟩ := later
    obtain ⟨unit, spelt⟩ := Option.isSome_iff_exists.mp spelt
    obtain ⟨high, taken, turn⟩ := quotedFrom_of_unit false none (text ++ '"' :: rest) spelt
    exact ⟨body, ((quotedFrom_escape_unit.trans taken).trans (quotedFrom_of_silent turn)).trans later⟩

theorem skipQuoted_of_quotable (quotable : Quotable text) : skipQuoted (text ++ '"' :: rest) = .ok ((), rest) := by
  obtain ⟨body, taken⟩ := quotedFrom_of_quotable quotable rest
  simp only [skipQuoted, taken]

end Quoted

/-! Numerals. -/

section Numerals

variable {atEnd : Problem} {n : Numeral} {c : Char} {text rest digits choices : List Char}

theorem oneOf?_of_mem (mem : choices.contains c = true) :
    Reader.oneOf? choices (c :: rest) = .ok (some c, rest) := by
  simp only [Reader.oneOf?, mem, if_true]

theorem oneOf?_of_avoids (avoids : Avoids choices.contains rest) :
    Reader.oneOf? choices rest = .ok (none, rest) := by
  cases rest with
  | nil => rfl
  | cons c rest =>
    simp only [Reader.oneOf?, show choices.contains c = false from avoids, Bool.false_eq_true, if_false]

theorem someDigits_of_figures (figures : Figures digits) (ended : Avoids Char.isDigit rest) :
    Reader.someDigits atEnd (digits ++ rest) = .ok (digits, rest) := by
  have taken : (digits ++ rest).takeWhile Char.isDigit = digits := by
    rw [List.takeWhile_append_of_pos figures.digits]
    cases rest with
    | nil => simp
    | cons c rest => simp [show c.isDigit = false from ended]
  have left : (digits ++ rest).dropWhile Char.isDigit = rest := by
    rw [List.dropWhile_append_of_pos figures.digits]
    cases rest with
    | nil => rfl
    | cons c rest => simp [show c.isDigit = false from ended]
  cases digits with
  | nil => exact absurd rfl figures.some_digit
  | cons c digits =>
    rw [List.cons_append] at taken left ⊢
    simp only [Reader.someDigits, figures.digits c List.mem_cons_self, if_true, Reader.digits, taken, left]

theorem Delimited.undigited (delimited : Delimited rest) : Avoids Char.isDigit rest :=
  delimited.weaken fun c digit => by simp [continuesNumeral, digit]

theorem Delimited.pointless (delimited : Delimited rest) : Avoids ['.'].contains rest :=
  delimited.weaken fun c point => by simp_all [continuesNumeral]

theorem Delimited.markless (delimited : Delimited rest) : Avoids ['e', 'E'].contains rest :=
  delimited.weaken fun c mark => by
    simp only [List.contains_cons, List.contains_nil, Bool.or_false, Bool.or_eq_true, beq_iff_eq] at mark
    rcases mark with rfl | rfl <;> rfl

theorem contains_mark (marks : c = 'e' ∨ c = 'E') : ['e', 'E'].contains c = true := by
  rcases marks with rfl | rfl <;> rfl

theorem Figures.unsigned (figures : Figures digits) : Avoids ['+', '-'].contains (digits ++ rest) :=
  figures.avoids fun c sign => by
    simp only [List.contains_cons, List.contains_nil, Bool.or_false, Bool.or_eq_true, beq_iff_eq] at sign
    rcases sign with rfl | rfl <;> rfl

theorem fractionPart_of_text {fraction : Option (List Char)} (shape : FractionText fraction text)
    (ended : Avoids Char.isDigit rest) (pointless : Avoids ['.'].contains rest) :
    fractionPart atEnd (text ++ rest) = .ok (fraction, rest) := by
  cases shape with
  | none =>
    rw [fractionPart, List.nil_append, Reader.bind_of_ok (oneOf?_of_avoids pointless)]
    rfl
  | some figures =>
    rw [fractionPart, List.cons_append, Reader.bind_of_ok (oneOf?_of_mem rfl)]
    dsimp only
    rw [Reader.bind_of_ok (someDigits_of_figures figures ended)]
    rfl

theorem exponentPart_of_text {exponent : Option (Bool × List Char)} (shape : ExponentText exponent text)
    (delimited : Delimited rest) : exponentPart atEnd (text ++ rest) = .ok (exponent, rest) := by
  have ended := delimited.undigited
  cases shape with
  | none =>
    rw [exponentPart, List.nil_append, Reader.bind_of_ok (oneOf?_of_avoids delimited.markless)]
    rfl
  | unsigned marks figures =>
    rw [exponentPart, List.cons_append, Reader.bind_of_ok (oneOf?_of_mem (contains_mark marks))]
    dsimp only
    rw [Reader.bind_of_ok (oneOf?_of_avoids figures.unsigned),
      Reader.bind_of_ok (someDigits_of_figures figures ended)]
    rfl
  | positive marks figures | negative marks figures =>
    rw [exponentPart, List.cons_append, Reader.bind_of_ok (oneOf?_of_mem (contains_mark marks))]
    dsimp only
    rw [List.cons_append, Reader.bind_of_ok (oneOf?_of_mem rfl),
      Reader.bind_of_ok (someDigits_of_figures figures ended)]
    rfl

theorem sign_of_text (negative : Bool) (figures : Figures digits) :
    Reader.oneOf? ['-'] (minus negative ++ (digits ++ rest)) =
      .ok (if negative then some '-' else none, digits ++ rest) := by
  cases negative with
  | true => exact oneOf?_of_mem rfl
  | false => exact oneOf?_of_avoids (figures.unsigned.weaken fun c sign => by simp_all)

theorem Whole.allowed (shape : Whole text) : (text.head? = some '0' && 1 < text.length) = false := by
  by_cases zero : text.head? = some '0'
  · rw [shape.leading zero]
    rfl
  · simp [zero]

theorem numeral_of_text (atEnd : Problem) (shape : NumeralText n text) (delimited : Delimited rest) :
    numeral atEnd (text ++ rest) = .ok (n, rest) := by
  cases shape with
  | @parts negative whole fraction exponent behindPoint behindMark shape fractional exponential =>
    have ended : Avoids Char.isDigit (behindMark ++ rest) := exponential.avoids rfl rfl delimited.undigited
    have pointless : Avoids ['.'].contains (behindMark ++ rest) := exponential.avoids rfl rfl delimited.pointless
    have taken : Reader.someDigits atEnd (whole ++ (behindPoint ++ (behindMark ++ rest))) =
        .ok (whole, behindPoint ++ (behindMark ++ rest)) :=
      someDigits_of_figures shape.toFigures (fractional.avoids rfl ended)
    simp only [List.append_assoc]
    rw [numeral, Reader.bind_of_ok (sign_of_text negative shape.toFigures), Reader.bind_of_ok taken, shape.allowed,
      if_neg Bool.false_ne_true, Reader.bind_of_ok (fractionPart_of_text fractional ended pointless),
      Reader.bind_of_ok (exponentPart_of_text exponential delimited)]
    cases negative <;> rfl

end Numerals

/-! Values. -/

section Values

variable {first : Bool} {lead text rest pad : List Char} {fuel : Nat} {what : Skipped}

theorem Lead.taken (leads : Lead first lead) (flaw : Flaw) (opens : Opens text) :
    ∃ d left pad, Reader.peek (lead ++ text) = .ok (d, left) ∧ d ≠ ']' ∧ d ≠ '}' ∧
      comma first flaw left = .ok ((), pad ++ text) ∧ Padding pad := by
  obtain ⟨c, tail, rfl, starts⟩ := opens
  cases leads with
  | first padding =>
    have mark := Reader.isBlank_of_startsValue starts
    refine ⟨c, c :: tail, [], Reader.peek_of_padding padding mark, ?_, ?_, rfl, .nil⟩
    all_goals
      rintro rfl
      cases starts
  | @later before after padding padding' =>
    have peeked : Reader.peek (before ++ ',' :: (after ++ c :: tail)) = .ok (',', ',' :: (after ++ c :: tail)) :=
      Reader.peek_of_padding padding rfl
    refine ⟨',', ',' :: (after ++ c :: tail), after, ?_, by decide, by decide, Reader.expect_mark rfl, padding'⟩
    rwa [List.append_assoc]

theorem skipWithin_padding (padding : Padding pad) :
    skipWithin fuel what (pad ++ text) = skipWithin fuel what text := by
  cases fuel with
  | zero => rfl
  | succ fuel => cases what <;> exact Reader.bind_congr (Reader.peek_padding padding)

theorem skipWithin_item (leads : Lead first lead) (opens : Opens text) :
    skipWithin (fuel + 1) (.items first) (lead ++ text) =
      (do skipWithin fuel .value; skipWithin fuel (.items false) : Reader Unit) text := by
  obtain ⟨d, left, pad, peeked, notClosed, -, separated, padding⟩ := leads.taken .itemsUnseparated opens
  rw [skipWithin, Reader.bind_of_ok peeked, if_neg notClosed, Reader.bind_of_ok separated]
  exact Reader.bind_congr (skipWithin_padding padding)

theorem skipWithin_member {key before after : List Char} (leads : Lead first lead) (quotable : Quotable key)
    (padding : Padding before) :
    skipWithin (fuel + 1) (.members first) (lead ++ (naming key before after ++ text)) =
      (do skipWithin fuel .value; skipWithin fuel (.members false) : Reader Unit) (after ++ text) := by
  obtain ⟨d, left, pad, peeked, -, notClosed, separated, padding'⟩ :=
    leads.taken .membersUnseparated (naming_opens key before after)
  rw [skipWithin, Reader.bind_of_ok peeked, if_neg notClosed, Reader.bind_of_ok separated, naming_append,
    Reader.bind_of_ok (Reader.expect_of_padding padding' rfl), Reader.bind_of_ok (skipQuoted_of_quotable quotable),
    Reader.bind_of_ok (Reader.expect_of_padding padding rfl)]

theorem skipWithin_numeral {n : Numeral} (shape : NumeralText n text) (delimited : Delimited rest) :
    skipWithin (fuel + 1) .value (text ++ rest) = .ok ((), rest) := by
  have taken := numeral_of_text (.malformed .badNumber) shape delimited
  obtain ⟨c, tail, rfl, starts⟩ := shape.begins
  have mark := Reader.isBlank_of_startsValue (startsValue_of_startsNumeral starts)
  rw [List.cons_append] at taken ⊢
  rw [skipWithin, Reader.bind_of_ok (Reader.peek_mark mark), if_pos (by simpa [startsNumeral] using starts)]
  exact Reader.bind_of_ok taken

theorem skipWithin_quoted (quotable : Quotable text) :
    skipWithin (fuel + 1) .value ('"' :: (text ++ ['"']) ++ rest) = .ok ((), rest) := by
  change skipQuoted (text ++ ['"'] ++ rest) = .ok ((), rest)
  rw [List.append_assoc, List.singleton_append]
  exact skipQuoted_of_quotable quotable

theorem skipWithin_noItem (padding : Padding pad) :
    skipWithin (fuel + 1) (.items first) (pad ++ [']'] ++ rest) = .ok ((), rest) := by
  rw [List.append_assoc, skipWithin_padding padding]
  rfl

theorem skipWithin_noMember (padding : Padding pad) :
    skipWithin (fuel + 1) (.members first) (pad ++ ['}'] ++ rest) = .ok ((), rest) := by
  rw [List.append_assoc, skipWithin_padding padding]
  rfl

/-- With fuel for twice its length, a text that is well-formed is skipped to its end. The induction is on the
text's derivation: each part leaves enough fuel for the parts inside it and behind it. -/
theorem skipWithin_of_wellFormed (shape : WellFormed what text) (enough : 2 * text.length ≤ fuel)
    (delimited : what = .value → Delimited rest) : skipWithin fuel what (text ++ rest) = .ok ((), rest) := by
  induction shape generalizing fuel rest with
  | null | isTrue | isFalse =>
    obtain ⟨fuel, rfl⟩ := Nat.exists_eq_add_of_le' (show 1 ≤ fuel by simp at enough; omega)
    rfl
  | numeral shape =>
    have some_length := (WellFormed.numeral shape).length_pos
    obtain ⟨fuel, rfl⟩ := Nat.exists_eq_add_of_le' (show 1 ≤ fuel by omega)
    exact skipWithin_numeral shape (delimited rfl)
  | quoted quotable =>
    obtain ⟨fuel, rfl⟩ := Nat.exists_eq_add_of_le' (show 1 ≤ fuel by simp at enough; omega)
    exact skipWithin_quoted quotable
  | sequence inside ih | map inside ih =>
    rw [List.length_cons] at enough
    obtain ⟨fuel, rfl⟩ := Nat.exists_eq_add_of_le' (show 1 ≤ fuel by omega)
    exact ih (by omega) (by simp)
  | noItem padding =>
    obtain ⟨fuel, rfl⟩ := Nat.exists_eq_add_of_le' (show 1 ≤ fuel by simp at enough; omega)
    exact skipWithin_noItem padding
  | noMember padding =>
    obtain ⟨fuel, rfl⟩ := Nat.exists_eq_add_of_le' (show 1 ≤ fuel by simp at enough; omega)
    exact skipWithin_noMember padding
  | @item first lead value later leads item tail ihItem ihTail =>
    have someItem := item.length_pos
    have someTail := tail.length_pos
    simp only [List.length_append] at enough
    obtain ⟨fuel, rfl⟩ := Nat.exists_eq_add_of_le' (show 1 ≤ fuel by omega)
    have skipped : skipWithin fuel .value (value ++ (later ++ rest)) = .ok ((), later ++ rest) :=
      ihItem (by omega) fun _ => tail.delimited (Or.inl rfl)
    rw [List.append_assoc, List.append_assoc, skipWithin_item leads item.opens, Reader.bind_of_ok skipped]
    exact ihTail (by omega) (by simp)
  | @member first lead key before after value later leads quotable padding padding' member tail ihMember ihTail =>
    have someMember := member.length_pos
    have someTail := tail.length_pos
    simp only [List.length_append] at enough
    obtain ⟨fuel, rfl⟩ := Nat.exists_eq_add_of_le' (show 1 ≤ fuel by omega)
    have skipped : skipWithin fuel .value (after ++ (value ++ (later ++ rest))) = .ok ((), later ++ rest) :=
      (skipWithin_padding padding').trans (ihMember (by omega) fun _ => tail.delimited (Or.inr rfl))
    rw [List.append_assoc, List.append_assoc, List.append_assoc, skipWithin_member leads quotable padding,
      Reader.bind_of_ok skipped]
    exact ihTail (by omega) (by simp)

theorem skipValue_of_wellFormed (shape : WellFormed .value text) (padding : Padding pad) (delimited : Delimited rest) :
    skipValue (pad ++ (text ++ rest)) = .ok ((), rest) := by
  rw [skipValue, skipWithin_padding padding]
  refine skipWithin_of_wellFormed shape ?_ fun _ => delimited
  simp only [List.length_append]
  omega

end Values

end PeripheralLayer.Json
