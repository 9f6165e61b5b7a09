import Mathlib.Algebra.Group.Int.Defs
import Mathlib.Algebra.Group.Nat.Defs
import PeripheralLayer.Proofs.Json.Gaps
import PeripheralLayer.Proofs.Json.RoundTrip

/-!
Integers where a description wants a word. An integer of up to 64 bits is read exactly, sign and all, before it is
held against the width of its field. So each field of each record takes the integers that it can hold, as they are, and
turns away all others by name, wherever in the description it stands.
-/
namespace PeripheralLayer

namespace Json

def decimal (n : Int) : List Char := minus (n < 0) ++ Nat.toDigits 10 n.natAbs

theorem natCast_two_pow (bits : Nat) : ((Nat.pow 2 bits : Nat) : Int) = 2 ^ bits := Int.natCast_pow 2 bits

section Decimal

variable {n : Int} {bits : Nat} {rest : List Char}

theorem numeralText_decimal (n : Int) : NumeralText ⟨n < 0, Nat.toDigits 10 n.natAbs, none, none⟩ (decimal n) := by
  have parts := NumeralText.parts (n < 0) (whole_toDigits n.natAbs) .none .none
  simpa only [List.append_nil, decimal] using parts

theorem opens_decimal (n : Int) : Opens (decimal n ++ rest) := by
  obtain ⟨c, tail, shape, starts⟩ := (numeralText_decimal n).begins
  exact ⟨c, tail ++ rest, by rw [shape, List.cons_append], startsValue_of_startsNumeral starts⟩

theorem value_of_decimal (low : -2 ^ 63 ≤ n) (high : n < 2 ^ 64) :
    (⟨n < 0, Nat.toDigits 10 n.natAbs, none, none⟩ : Numeral).value = some (.integer n) := by
  have fits : Decimal.digitsValue (Nat.toDigits 10 n.natAbs) ≤ significandLimit := by
    have bound : significandLimit + 1 = 2 ^ 64 := rfl
    rw [digitsValue_toDigits]
    omega
  have absorbed : absorb 0 (Nat.toDigits 10 n.natAbs) = ((Nat.toDigits 10 n.natAbs).length, n.natAbs) := by
    rw [absorb_of_fits _ 0 fits]
    exact congrArg (Prod.mk _) (digitsValue_toDigits n.natAbs)
  simp only [Numeral.value, absorbed, Nat.sub_self, Option.isNone_none, decide_true, Bool.and_self, if_true]
  by_cases negative : n < 0
  · have in_range : (n.natAbs = 0 || Nat.pow 2 63 < n.natAbs : Bool) = false := by
      simp only [Bool.or_eq_false_iff, decide_eq_false_iff_not]
      exact ⟨by omega, by change ¬ 2 ^ 63 < n.natAbs; omega⟩
    simp only [Numeral.wholeNumber, negative, decide_true, Bool.not_true, Bool.false_eq_true, if_false, in_range]
    rw [show -(n.natAbs : Int) = n by omega]
  · simp only [Numeral.wholeNumber, negative, decide_false, Bool.not_false, if_true]
    rw [show (n.natAbs : Int) = n by omega]

theorem number_of_decimal (low : -2 ^ 63 ≤ n) (high : n < 2 ^ 64) (delimited : Delimited rest) :
    number (decimal n ++ rest) = .ok (.integer n, rest) := by
  rw [number, Reader.bind_of_ok (numeral_of_text .truncated (numeralText_decimal n) delimited),
    value_of_decimal low high]
  rfl

theorem readWord_of_decimal (low : -2 ^ 63 ≤ n) (high : n < 2 ^ 64) (outside : ¬ (0 ≤ n ∧ n < 2 ^ bits))
    (delimited : Delimited rest) :
    readWord bits (decimal n ++ rest) = .error (.data (.outOfRange n (wordName bits))) := by
  have refused : (decide (0 ≤ n) && decide (n < (Nat.pow 2 bits : Nat))) = false := by
    rw [natCast_two_pow]
    simpa using outside
  rw [readWord_of_numeral (numeralText_decimal n), Reader.bind_of_ok (number_of_decimal low high delimited), inWord,
    refused]
  rfl

end Decimal

theorem message_outOfRange (n : Int) (bits : Nat) :
    (Mismatch.outOfRange n (wordName bits)).message = s!"invalid value: integer `{n}`, expected u{bits}" := by
  have joined : ("`, expected u" : String) = "`, expected " ++ "u" := by simp
  calc (Mismatch.outOfRange n (wordName bits)).message
    _ = s!"invalid value: integer `{n}`, expected {wordName bits}" := rfl
    _ = s!"invalid value: integer `{n}`, expected u{bits}" := by
      rw [joined, wordName]
      simp only [String.append_assoc, toString]

/-! Words inside of records. -/

/-- Between the two texts a word of so many bits is due. What is written there is put into the value, and a problem with
it is the problem of the whole. -/
structure Hole {α : Type} {codec : Codec α} (spelling : Spelling codec) (bits : Nat) (put : Nat → α)
    (front back : List Char) : Prop where
  filled : ∀ {n text}, WordText bits n text → spelling.Writes (put n) (front ++ (text ++ back))
  flawed : ∀ {text problem}, Opens text → readWord bits text = .error problem →
    codec.read (front ++ text) = .error problem
  opens : ∀ {text}, Opens text → Opens (front ++ text)
  closes : ∀ {rest}, Delimited rest → Delimited (back ++ rest)

namespace Hole

theorem word (bits : Nat) (narrow : bits ≤ 64) : Hole (Spelling.word bits narrow) bits id [] [] where
  filled {n text} word := by
    rw [List.nil_append, List.append_nil]
    exact word
  flawed _ failed := failed
  opens opens := opens
  closes delimited := delimited

variable {α β : Type} {bits : Nat} {front back front' back' : List Char}

theorem map {codec : Codec α} {spelling : Spelling codec} {put : Nat → α} (hole : Hole spelling bits put front back)
    (make : α → β) {split : β → α} (undo : ∀ b, make (split b) = b) {put' : Nat → β}
    (splits : ∀ n, n < Nat.pow 2 bits → split (put' n) = put n) :
    Hole (spelling.map make split undo) bits put' front back where
  filled {n text} word := by
    have writes := hole.filled word
    rw [← splits n word.fits] at writes
    exact writes
  flawed opens failed := Reader.bind_of_error (hole.flawed opens failed)
  opens := hole.opens
  closes := hole.closes

theorem byte : Hole Spelling.byte 8 UInt8.ofNat [] [] :=
  (word 8 (by decide)).map UInt8.ofNat _ fun _ fits => UInt8.toNat_ofNat_of_lt' fits

theorem halfWord : Hole Spelling.halfWord 16 UInt16.ofNat [] [] :=
  (word 16 (by decide)).map UInt16.ofNat _ fun _ fits => UInt16.toNat_ofNat_of_lt' fits

theorem fullWord : Hole Spelling.fullWord 32 UInt32.ofNat [] [] :=
  (word 32 (by decide)).map UInt32.ofNat _ fun _ fits => UInt32.toNat_ofNat_of_lt' fits

theorem record {fields : List Field} {spellings : Spellings fields} {values : Values fields}
    {place : Fin fields.length} (name : String) (distinct : (fields.map Field.name).Nodup)
    (gap : RecordGap spellings values place front back) {inner : Nat → (fields.get place).Value}
    (hole : Hole (spellings.get fields place) bits inner front' back') :
    Hole (Spelling.record name fields spellings distinct) bits (fun n => values.put fields place (inner n))
      (front ++ front') (back' ++ back) where
  filled word := by
    have whole := gap.filled (hole.filled word)
    simp only [List.append_assoc] at whole ⊢
    exact whole
  flawed opens failed := by
    rw [List.append_assoc]
    exact gap.flawed distinct name (hole.opens opens) (hole.flawed opens failed)
  opens _ := by
    rw [List.append_assoc]
    exact gap.opens
  closes _ := by
    rw [List.append_assoc]
    exact hole.closes gap.closes

variable {layout : Layout α} {values : Values layout.fields} {place : Fin layout.fields.length}
  {inner : Nat → (layout.fields.get place).Value} {put : Nat → α}

theorem inside (gap : RecordGap layout.spellings values place front back)
    (hole : Hole (layout.spellings.get layout.fields place) bits inner front' back')
    (splits : ∀ n, layout.split (put n) = values.put layout.fields place (inner n)) :
    Hole layout.spelling bits put (front ++ front') (back' ++ back) :=
  (record layout.name layout.distinct gap hole).map layout.make layout.undo fun n _ => splits n

theorem here (gap : RecordGap layout.spellings values place front back)
    (hole : Hole (layout.spellings.get layout.fields place) bits inner [] [])
    (splits : ∀ n, layout.split (put n) = values.put layout.fields place (inner n)) :
    Hole layout.spelling bits put front back := by
  simpa using inside gap hole splits

variable {codec : Codec α} {spelling : Spelling codec} {n : Int} {before after : List Char}

theorem decode_of_fits (hole : Hole spelling bits put front back) (padding : Padding before)
    (padding' : Padding after) (positive : 0 ≤ n) (fits : n < 2 ^ bits) :
    codec.decode (String.ofList (before ++ (front ++ (decimal n ++ (back ++ after))))) = .ok (put n.toNat) := by
  have small : n.natAbs < Nat.pow 2 bits := by
    have power := natCast_two_pow bits
    omega
  have digits : decimal n = Nat.toDigits 10 n.natAbs := by
    have unsigned : ¬ n < 0 := by omega
    simp [decimal, minus, unsigned]
  have writes := hole.filled (wordText_toDigits small)
  rw [← digits, show n.natAbs = n.toNat by omega] at writes
  simpa only [List.append_assoc] using spelling.decode_of_writes padding writes padding'

theorem decode_of_outside (hole : Hole spelling bits put front back) (padding : Padding before)
    (low : -2 ^ 63 ≤ n) (high : n < 2 ^ 64) (outside : ¬ (0 ≤ n ∧ n < 2 ^ bits)) {later : List Char}
    (delimited : Delimited later) :
    codec.decode (String.ofList (before ++ (front ++ (decimal n ++ later)))) =
      .error (.data (.outOfRange n (wordName bits))) := by
  have failed := hole.flawed (opens_decimal n) (readWord_of_decimal low high outside delimited)
  exact Codec.decode_of_problem ((spelling.skips padding).trans failed)

end Hole

end Json

open Json

/-- The fields that hold an integer. Those of a pin occur twice more in a pair of pins. -/
inductive IntegerField : Subject → Type where
  | port : IntegerField .pin
  | pin : IntegerField .pin
  | address : IntegerField .blockConfig
  | frequency : IntegerField .blockConfig
  | compareValue : IntegerField .counterConfig
  | period : IntegerField .counterConfig
  | value : IntegerField .counterConfig
  | ceiling : IntegerField .mediatorConfig
  | priority : IntegerField .mediatorConfig
  | sda (field : IntegerField .pin) : IntegerField .busPins
  | scl (field : IntegerField .pin) : IntegerField .busPins
  deriving DecidableEq, Repr

namespace IntegerField

def bits : {subject : Subject} → IntegerField subject → Nat
  | _, port | _, pin | _, address | _, priority => 8
  | _, ceiling => 16
  | _, frequency | _, compareValue | _, period | _, value => 32
  | _, sda field | _, scl field => field.bits

def get : {subject : Subject} → IntegerField subject → subject.Value → Nat
  | _, port, p => (Pin.port p).toNat
  | _, pin, p => (Pin.pin p).toNat
  | _, address, c => (Bus.BlockConfig.address c).toNat
  | _, frequency, c => (Bus.BlockConfig.frequency c).toNat
  | _, compareValue, c => (Clock.CounterConfig.compareValue c).toNat
  | _, period, c => (Clock.CounterConfig.period c).toNat
  | _, value, c => (Clock.CounterConfig.value c).toNat
  | _, ceiling, c => (Bus.Config.ceiling c).toNat
  | _, priority, c => (Bus.Config.priority c).toNat
  | _, sda field, p => field.get (BusPins.sda p)
  | _, scl field, p => field.get (BusPins.scl p)

def put : {subject : Subject} → IntegerField subject → subject.Value → Nat → subject.Value
  | _, port, p, n => ({ p with port := .ofNat n } : Pin)
  | _, pin, p, n => ({ p with pin := .ofNat n } : Pin)
  | _, address, c, n => ({ c with address := .ofNat n } : Bus.BlockConfig)
  | _, frequency, c, n => ({ c with frequency := .ofNat n } : Bus.BlockConfig)
  | _, compareValue, c, n => ({ c with compareValue := .ofNat n } : Clock.CounterConfig)
  | _, period, c, n => ({ c with period := .ofNat n } : Clock.CounterConfig)
  | _, value, c, n => ({ c with value := .ofNat n } : Clock.CounterConfig)
  | _, ceiling, c, n => ({ c with ceiling := .ofNat n } : Bus.Config)
  | _, priority, c, n => ({ c with priority := .ofNat n } : Bus.Config)
  | _, sda field, p, n => ({ p with sda := field.put (BusPins.sda p) n } : BusPins)
  | _, scl field, p, n => ({ p with scl := field.put (BusPins.scl p) n } : BusPins)

/-- A description of this value, around the integer in this field. -/
def Gap : {subject : Subject} → IntegerField subject → subject.Value → List Char → List Char → Prop
  | _, port, p, front, back => RecordGap Pin.layout.spellings (Pin.layout.split p) ⟨0, by decide⟩ front back
  | _, pin, p, front, back => RecordGap Pin.layout.spellings (Pin.layout.split p) ⟨1, by decide⟩ front back
  | _, address, c, front, back =>
    RecordGap Bus.BlockConfig.layout.spellings (Bus.BlockConfig.layout.split c) ⟨1, by decide⟩ front back
  | _, frequency, c, front, back =>
    RecordGap Bus.BlockConfig.layout.spellings (Bus.BlockConfig.layout.split c) ⟨2, by decide⟩ front back
  | _, compareValue, c, front, back =>
    RecordGap Clock.CounterConfig.layout.spellings (Clock.CounterConfig.layout.split c) ⟨0, by decide⟩ front back
  | _, period, c, front, back =>
    RecordGap Clock.CounterConfig.layout.spellings (Clock.CounterConfig.layout.split c) ⟨1, by decide⟩ front back
  | _, value, c, front, back =>
    RecordGap Clock.CounterConfig.layout.spellings (Clock.CounterConfig.layout.split c) ⟨5, by decide⟩ front back
  | _, ceiling, c, front, back =>
    RecordGap Bus.Config.layout.spellings (Bus.Config.layout.split c) ⟨0, by decide⟩ front back
  | _, priority, c, front, back =>
    RecordGap Bus.Config.layout.spellings (Bus.Config.layout.split c) ⟨1, by decide⟩ front back
  | _, sda field, p, front, back =>
    ∃ outer inner inner' outer',
      RecordGap BusPins.layout.spellings (BusPins.layout.split p) ⟨0, by decide⟩ outer outer' ∧
      field.Gap (BusPins.sda p) inner inner' ∧ front = outer ++ inner ∧ back = inner' ++ outer'
  | _, scl field, p, front, back =>
    ∃ outer inner inner' outer',
      RecordGap BusPins.layout.spellings (BusPins.layout.split p) ⟨1, by decide⟩ outer outer' ∧
      field.Gap (BusPins.scl p) inner inner' ∧ front = outer ++ inner ∧ back = inner' ++ outer'

theorem hole : {subject : Subject} → (field : IntegerField subject) → {v : subject.Value} → {front back : List Char} →
    field.Gap v front back → Hole subject.spelling field.bits (field.put v) front back
  | _, port, _, _, _, gap => .here gap .byte fun _ => rfl
  | _, pin, _, _, _, gap => .here gap .byte fun _ => rfl
  | _, address, _, _, _, gap => .here gap .byte fun _ => rfl
  | _, frequency, _, _, _, gap => .here gap .fullWord fun _ => rfl
  | _, compareValue, _, _, _, gap => .here gap .fullWord fun _ => rfl
  | _, period, _, _, _, gap => .here gap .fullWord fun _ => rfl
  | _, value, _, _, _, gap => .here gap .fullWord fun _ => rfl
  | _, ceiling, _, _, _, gap => .here gap .halfWord fun _ => rfl
  | _, priority, _, _, _, gap => .here gap .byte fun _ => rfl
  | _, sda field, _, _, _, ⟨_, _, _, _, outer, inner, rfl, rfl⟩ => .inside outer (field.hole inner) fun _ => rfl
  | _, scl field, _, _, _, ⟨_, _, _, _, outer, inner, rfl, rfl⟩ => .inside outer (field.hole inner) fun _ => rfl

theorem get_put : {subject : Subject} → (field : IntegerField subject) → (v : subject.Value) → {n : Nat} →
    n < 2 ^ field.bits → field.get (field.put v n) = n
  | _, port, _, _, fits => UInt8.toNat_ofNat_of_lt' fits
  | _, pin, _, _, fits => UInt8.toNat_ofNat_of_lt' fits
  | _, address, _, _, fits => UInt8.toNat_ofNat_of_lt' fits
  | _, frequency, _, _, fits => UInt32.toNat_ofNat_of_lt' fits
  | _, compareValue, _, _, fits => UInt32.toNat_ofNat_of_lt' fits
  | _, period, _, _, fits => UInt32.toNat_ofNat_of_lt' fits
  | _, value, _, _, fits => UInt32.toNat_ofNat_of_lt' fits
  | _, ceiling, _, _, fits => UInt16.toNat_ofNat_of_lt' fits
  | _, priority, _, _, fits => UInt8.toNat_ofNat_of_lt' fits
  | _, sda field, p, _, fits => field.get_put (BusPins.sda p) fits
  | _, scl field, p, _, fits => field.get_put (BusPins.scl p) fits

end IntegerField

/-- A description with any integer of up to 64 bits in one of its fields is accepted if and only if the field can hold
the integer. Then the field holds just that, and the rest of the description is as written. Otherwise the problem is the
integer, named in full, whatever follows it as long as it does not prolong it. -/
theorem integer_held_or_refused {subject : Subject} (field : IntegerField subject) {v : subject.Value}
    {front back : List Char} (gap : field.Gap v front back) {before after : List Char} (padding : Padding before)
    (padding' : Padding after) {n : Int} (low : -2 ^ 63 ≤ n) (high : n < 2 ^ 64) :
    ((∃ w, subject.codec.decode (String.ofList (before ++ (front ++ (decimal n ++ (back ++ after))))) = .ok w) ↔
      0 ≤ n ∧ n < 2 ^ field.bits) ∧
    (0 ≤ n ∧ n < 2 ^ field.bits →
      subject.codec.decode (String.ofList (before ++ (front ++ (decimal n ++ (back ++ after))))) =
        .ok (field.put v n.toNat) ∧
      (field.get (field.put v n.toNat) : Int) = n) ∧
    (¬ (0 ≤ n ∧ n < 2 ^ field.bits) → ∀ later, Delimited later → ∃ mismatch,
      subject.codec.decode (String.ofList (before ++ (front ++ (decimal n ++ later)))) = .error (.data mismatch) ∧
      mismatch.message = s!"invalid value: integer `{n}`, expected u{field.bits}") := by
  have hole := field.hole gap
  have delimited : Delimited (back ++ after) :=
    hole.closes (by simpa using padding'.delimited (show Delimited [] from trivial))
  have held (within : 0 ≤ n ∧ n < 2 ^ field.bits) := hole.decode_of_fits padding padding' within.1 within.2
  have refused (outside : ¬ (0 ≤ n ∧ n < 2 ^ field.bits)) {later : List Char} (delimited : Delimited later) :=
    hole.decode_of_outside padding low high outside delimited
  refine ⟨⟨?_, fun within => ⟨_, held within⟩⟩, fun within => ⟨held within, ?_⟩,
    fun outside later delimited => ⟨_, refused outside delimited, message_outOfRange n field.bits⟩⟩
  · rintro ⟨w, accepted⟩
    by_cases within : 0 ≤ n ∧ n < 2 ^ field.bits
    · exact within
    · rw [refused within delimited] at accepted
      cases accepted
  · have fits : n.toNat < 2 ^ field.bits := by
      have power := natCast_two_pow field.bits
      change n.toNat < Nat.pow 2 field.bits
      omega
    rw [field.get_put v fits]
    exact Int.toNat_of_nonneg within.1

/-- A pin inside a pair of pins, with the greatest number that it can have, and with the least of 64 bits and no good
end. -/
theorem inner_pin_held_or_refused :
    BusPins.codec.decode "\x7b\"scl\":\x7b\"port\":1,\"pin\":7\x7d, \"sda\":[0,255]\x7d" = .ok ⟨⟨0, 255⟩, ⟨1, 7⟩⟩ ∧
      ∃ mismatch,
        BusPins.codec.decode "\x7b\"scl\":\x7b\"port\":1,\"pin\":7\x7d, \"sda\":[0,-9223372036854775808 tru" =
          .error (.data mismatch) ∧
        mismatch.message = "invalid value: integer `-9223372036854775808`, expected u8" := by
  let other : Json.Entry BusPins.layout.fields := ⟨⟨1, by decide⟩, (⟨1, 7⟩ : Pin)⟩
  let stand_in : Json.Entry BusPins.layout.fields := ⟨⟨0, by decide⟩, (⟨0, 0⟩ : Pin)⟩
  have space : Padding [' '] := by simp [Padding, Reader.isBlank]
  have start : MembersStart BusPins.layout.spellings true false [other] _ :=
    .known other (.first .nil) (.itself _ (by decide)) .nil .nil (Pin.canonical ⟨1, 7⟩) (.none false)
  have described : Describes [other, stand_in] (.ok (⟨0, 0⟩, ⟨1, 7⟩, ())) :=
    .complete (by decide) (by decide) (List.forall_mem_cons.mpr ⟨rfl, List.forall_mem_singleton.mpr rfl⟩)
  have outer : RecordGap BusPins.layout.spellings (BusPins.layout.split ⟨⟨0, 0⟩, ⟨1, 7⟩⟩) ⟨0, by decide⟩ _ ['\x7d'] :=
    .object start (.later .nil space) (.itself _ (by decide)) .nil .nil (.close .nil) described
  have inner : RecordGap Pin.layout.spellings (Pin.layout.split ⟨0, 0⟩) ⟨1, by decide⟩ _ [']'] :=
    .sequence ⟨_, _, _, .first .nil, canonical_byte 0, ⟨.later .nil .nil, [], .nil, rfl⟩, rfl⟩
  have gap : (IntegerField.sda .pin).Gap ⟨⟨0, 0⟩, ⟨1, 7⟩⟩ _ _ := ⟨_, _, _, _, outer, inner, rfl, rfl⟩
  obtain ⟨-, held, -⟩ :=
    integer_held_or_refused (.sda .pin) gap .nil .nil (show (-2 ^ 63 : Int) ≤ 255 by decide) (by decide)
  obtain ⟨-, -, refused⟩ :=
    integer_held_or_refused (.sda .pin) gap .nil .nil (show (-2 ^ 63 : Int) ≤ -9223372036854775808 by decide) (by decide)
  obtain ⟨mismatch, failed, message⟩ := refused (by decide) [' ', 't', 'r', 'u'] rfl
  refine ⟨?_, mismatch, ?_, ?_⟩
  · refine (congrArg BusPins.codec.decode (String.toList_inj.mp ?_)).trans (held (by decide)).1
    rw [String.toList_ofList]
    decide
  · refine (congrArg BusPins.codec.decode (String.toList_inj.mp ?_)).trans failed
    rw [String.toList_ofList]
    decide
  · rw [message]
    decide +kernel

end PeripheralLayer
