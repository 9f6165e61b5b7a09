import PeripheralLayer.Proofs.Json.Descriptions

/-!
Writing a description and reading it back. Each codec writes one text for a value, and that text is among those
that its spelling allows for the value. So nothing new has to be said of readers: whatever a codec writes is read
as the value it was written for, and a text that was accepted, once it is written anew, has come to rest.
-/
namespace PeripheralLayer

namespace Json

def Spelling.Canonical {α : Type} {codec : Codec α} (spelling : Spelling codec) : Prop :=
  ∀ a, spelling.Writes a (codec.write a)

theorem Spelling.Canonical.map {α β : Type} {codec : Codec α} {spelling : Spelling codec}
    (canonical : spelling.Canonical) (make : α → β) (split : β → α) (undo : ∀ b, make (split b) = b) :
    (spelling.map make split undo).Canonical :=
  fun b => canonical (split b)

theorem Spelling.decode_of_writes {α : Type} {codec : Codec α} (spelling : Spelling codec) {a : α}
    {before text after : List Char} (padding : Padding before) (writes : spelling.Writes a text)
    (padding' : Padding after) : codec.decode (String.ofList (before ++ (text ++ after))) = .ok a := by
  have delimited : Delimited after := by simpa using padding'.delimited (show Delimited [] from trivial)
  have read : codec.read (before ++ (text ++ after)) = .ok (a, after) :=
    (spelling.skips padding).trans (spelling.reads writes delimited)
  exact Codec.decode_of_read padding' read

/-! Numbers and flags. -/

theorem digitsValue_toDigits (n : Nat) : Decimal.digitsValue (Nat.toDigits 10 n) = n := by
  calc Decimal.digitsValue (Nat.toDigits 10 n)
    _ = Nat.ofDigitChars 10 (Nat.toDigits 10 n) 0 := Nat.ofDigitChars_eq_foldl.symm
    _ = n := Nat.ofDigitChars_ten_toDigits

theorem head?_toDigits_of_pos (n : Nat) (positive : 0 < n) : (Nat.toDigits 10 n).head? ≠ some '0' := by
  induction n using Nat.strongRecOn with
  | ind n ih =>
    rw [Nat.toDigits_eq_if (by decide)]
    split
    · rename_i single
      intro zero
      have digits : Nat.toDigits 10 n = ['0'] := by
        rw [Nat.toDigits_of_lt_base single]
        simpa using zero
      have value := digitsValue_toDigits n
      rw [digits] at value
      have none : n = 0 := value.symm
      omega
    · rename_i several
      have shorter := ih (n / 10) (by omega) (by omega)
      cases digits : Nat.toDigits 10 (n / 10) with
      | nil => exact absurd digits Nat.toDigits_ne_nil
      | cons c others =>
        rw [digits] at shorter
        exact shorter

theorem whole_toDigits (n : Nat) : Whole (Nat.toDigits 10 n) where
  some_digit := Nat.toDigits_ne_nil
  digits _ mem := Nat.isDigit_of_mem_toDigits (by decide) (by decide) mem
  leading zero := by
    cases n with
    | zero => exact Nat.toDigits_zero 10
    | succ n => exact absurd zero (head?_toDigits_of_pos (n + 1) n.succ_pos)

theorem wordText_toDigits {bits n : Nat} (fits : n < Nat.pow 2 bits) : WordText bits n (Nat.toDigits 10 n) :=
  ⟨whole_toDigits n, digitsValue_toDigits n, fits⟩

theorem canonical_byte : Spelling.byte.Canonical := fun n => wordText_toDigits n.toNat_lt

theorem canonical_halfWord : Spelling.halfWord.Canonical := fun n => wordText_toDigits n.toNat_lt

theorem canonical_fullWord : Spelling.fullWord.Canonical := fun n => wordText_toDigits n.toNat_lt

theorem canonical_flag : Spelling.flag.Canonical := fun _ => rfl

/-! Words of a vocabulary. -/

theorem canonical_choice {α : Type} [Enumerated α]
    (plain : ∀ a ∈ (Enumerated.all : List α), (Enumerated.name a).toList.all isPlain) :
    (Spelling.choice α).Canonical :=
  fun a => .alone (.itself _ (plain a (Enumerated.mem_all a)))

/-! Records. -/

def Spellings.Canonical : (fields : List Field) → Spellings fields → Prop
  | [], () => True
  | _ :: fields, (spelling, spellings) => spelling.Canonical ∧ Canonical fields spellings

theorem Spellings.Canonical.get : {fields : List Field} → {spellings : Spellings fields} →
    Canonical fields spellings → (place : Fin fields.length) → (spellings.get fields place).Canonical
  | _ :: _, (_, _), canonical, ⟨0, _⟩ => canonical.1
  | _ :: _, (_, _), canonical, ⟨place + 1, below⟩ => get canonical.2 ⟨place, Nat.lt_of_succ_lt_succ below⟩

def Values.entries (fields : List Field) (values : Values fields) : List (Entry fields) :=
  (List.finRange fields.length).map fun place => ⟨place, values.get fields place⟩

def Entry.written {fields : List Field} (e : Entry fields) : List Char :=
  writeName e.name ++ ':' :: (fields.get e.place).codec.write e.value

theorem writeMembers_eq : (fields : List Field) → (values : Values fields) →
    writeMembers fields values = (Values.entries fields values).map Entry.written
  | [], () => rfl
  | field :: fields, (value, values) => by
    simp only [writeMembers, writeMembers_eq fields values, Values.entries, List.length_cons, List.finRange_succ,
      List.map_cons, List.map_map]
    rfl

theorem intercalate_cons_eq {α : Type} (separator first : List α) (others : List (List α)) :
    separator.intercalate (first :: others) = first ++ others.flatMap (separator ++ ·) := by
  induction others generalizing first with
  | nil => simp [List.intercalate]
  | cons second others ih => rw [List.intercalate_cons_cons, ih, List.flatMap_cons, List.append_assoc, List.append_assoc]

section Records

variable {fields : List Field} {spellings : Spellings fields}

theorem membersText_of_entry (canonical : Spellings.Canonical fields spellings)
    (plain : ∀ field ∈ fields, field.name.toList.all isPlain) {first : Bool} {lead later : List Char}
    {entries : List (Entry fields)} (e : Entry fields) (leads : Lead first lead)
    (tail : MembersText spellings false entries later) :
    MembersText spellings first (e :: entries) (lead ++ (e.written ++ later)) := by
  have spells : Spells e.name.toList e.name.toList := .itself _ (plain _ (fields.get_mem e.place))
  have shape := MembersText.known e leads spells .nil .nil (canonical.get e.place e.value) tail
  simpa [naming, Entry.written, writeName] using shape

theorem membersText_of_entries (canonical : Spellings.Canonical fields spellings)
    (plain : ∀ field ∈ fields, field.name.toList.all isPlain) (entries : List (Entry fields)) :
    MembersText spellings false entries ((entries.map Entry.written).flatMap ([','] ++ ·) ++ ['}']) := by
  induction entries with
  | nil => exact .close .nil
  | cons e entries ih =>
    have comma : Lead false [','] := .later .nil .nil
    simpa using membersText_of_entry canonical plain e comma ih

theorem membersText_written (canonical : Spellings.Canonical fields spellings)
    (plain : ∀ field ∈ fields, field.name.toList.all isPlain) (entries : List (Entry fields)) :
    MembersText spellings true entries ([','].intercalate (entries.map Entry.written) ++ ['}']) := by
  cases entries with
  | nil => exact .close .nil
  | cons e entries =>
    rw [List.map_cons, intercalate_cons_eq, List.append_assoc]
    exact membersText_of_entry canonical plain e (.first .nil) (membersText_of_entries canonical plain entries)

theorem describes_entries (values : Values fields) : Describes (Values.entries fields values) (.ok values) := by
  have places : (Values.entries fields values).map Entry.place = List.finRange fields.length := by
    simp [Values.entries, Function.comp_def]
  refine .complete ?_ ?_ ?_
  · rw [places]
    exact List.nodup_finRange _
  · intro place
    rw [places]
    exact List.mem_finRange place
  · intro e mem
    obtain ⟨place, -, rfl⟩ := List.mem_map.mp mem
    rfl

theorem canonical_record (name : String) (canonical : Spellings.Canonical fields spellings)
    (plain : ∀ field ∈ fields, field.name.toList.all isPlain) (distinct : (fields.map Field.name).Nodup) :
    (Spelling.record name fields spellings distinct).Canonical := by
  intro values
  have members := membersText_written canonical plain (Values.entries fields values)
  rw [← writeMembers_eq] at members
  exact .object members (describes_entries values)

end Records

theorem Layout.canonical {α : Type} (layout : Layout α)
    (canonical : Spellings.Canonical layout.fields layout.spellings)
    (plain : ∀ field ∈ layout.fields, field.name.toList.all isPlain) : layout.spelling.Canonical :=
  (canonical_record layout.name canonical plain layout.distinct).map layout.make layout.split layout.undo

end Json

open Json

theorem Pin.canonical : Pin.spelling.Canonical :=
  Pin.layout.canonical ⟨canonical_byte, canonical_byte, trivial⟩ (by decide)

namespace Subject

def spelling : (subject : Subject) → Spelling subject.codec
  | status => .choice Status
  | event => .choice Event
  | pin => Pin.spelling
  | busPins => BusPins.layout.spelling
  | role => .choice Bus.Role
  | blockConfig => Bus.BlockConfig.layout.spelling
  | countDirection => .choice Clock.CountDirection
  | counterConfig => Clock.CounterConfig.layout.spelling
  | reinitPolicy => .choice Bus.ReinitPolicy
  | dispatchMode => .choice Bus.DispatchMode
  | mediatorConfig => Bus.Config.layout.spelling

theorem canonical (subject : Subject) : subject.spelling.Canonical := by
  cases subject with
  | status => exact canonical_choice (α := Status) (by decide)
  | event => exact canonical_choice (α := Event) (by decide)
  | role => exact canonical_choice (α := Bus.Role) (by decide)
  | countDirection => exact canonical_choice (α := Clock.CountDirection) (by decide)
  | reinitPolicy => exact canonical_choice (α := Bus.ReinitPolicy) (by decide)
  | dispatchMode => exact canonical_choice (α := Bus.DispatchMode) (by decide)
  | pin => exact Pin.canonical
  | busPins => exact BusPins.layout.canonical ⟨Pin.canonical, Pin.canonical, trivial⟩ (by decide)
  | blockConfig =>
    exact Bus.BlockConfig.layout.canonical ⟨canonical_choice (by decide), canonical_byte, canonical_fullWord, trivial⟩
      (by decide)
  | counterConfig =>
    exact Clock.CounterConfig.layout.canonical
      ⟨canonical_fullWord, canonical_fullWord, canonical_choice (by decide), canonical_flag, canonical_flag,
        canonical_fullWord, trivial⟩ (by decide)
  | mediatorConfig =>
    exact Bus.Config.layout.canonical
      ⟨canonical_halfWord, canonical_byte, canonical_choice (by decide), canonical_choice (by decide), trivial⟩
      (by decide)

end Subject

theorem decode_written (subject : Subject) (value : subject.Value) {before after : List Char}
    (padding : Padding before) (padding' : Padding after) :
    subject.codec.decode (String.ofList before ++ subject.codec.encode value ++ String.ofList after) = .ok value := by
  have decoded := subject.spelling.decode_of_writes padding (subject.canonical value) padding'
  rwa [String.ofList_append, String.ofList_append, ← String.append_assoc] at decoded

/-- Every value of every kind is read back from its written text, with any blanks around it. So a text that was
accepted is accepted again once it is written anew, as the same value and without any further change. -/
theorem written_description_read_back (subject : Subject) :
    (∀ (value : subject.Value) (before after : List Char), Padding before → Padding after →
      subject.codec.decode (String.ofList before ++ subject.codec.encode value ++ String.ofList after) = .ok value) ∧
    ∀ (text : String) (value : subject.Value), subject.codec.decode text = .ok value →
      subject.codec.normalize text = .ok (subject.codec.encode value) ∧
        subject.codec.decode (subject.codec.encode value) = .ok value ∧
        subject.codec.normalize (subject.codec.encode value) = .ok (subject.codec.encode value) := by
  constructor
  · intro value before after padding padding'
    exact decode_written subject value padding padding'
  · intro text value accepted
    have again : subject.codec.decode (subject.codec.encode value) = .ok value := by
      simpa using decode_written subject value .nil .nil
    refine ⟨?_, again, ?_⟩
    · rw [Codec.normalize, accepted]
    · rw [Codec.normalize, again]

def fullCounter : Clock.CounterConfig := ⟨4294967295, 0, .up, true, false, 1000000⟩

theorem full_counter_read_back :
    Clock.CounterConfig.codec.encode fullCounter =
        "\x7b\"compare_value\":4294967295,\"period\":0,\"direction\":\"Up\",\"is_compare\":true," ++
          "\"is_continuous\":false,\"value\":1000000\x7d" ∧
      Clock.CounterConfig.codec.decode ("\n" ++ Clock.CounterConfig.codec.encode fullCounter ++ "\t") =
        .ok fullCounter ∧
      Bus.DispatchMode.codec.normalize "\x7b \"Deferred\" : null\x7d" = .ok "\"Deferred\"" ∧
      Bus.DispatchMode.codec.normalize "\"Deferred\"" = .ok "\"Deferred\"" := by
  have blank : ∀ c, Reader.isBlank c = true → Padding [c] := by
    intro c blank d mem
    rwa [List.mem_singleton.mp mem]
  refine ⟨by rfl, ?_, ?_⟩
  · exact (written_description_read_back .counterConfig).1 fullCounter ['\n'] ['\t'] (blank _ rfl) (blank _ rfl)
  · have space : Padding [' '] := blank ' ' rfl
    have spelled : ChoiceText (Enumerated.name Bus.DispatchMode.deferred).toList _ :=
      .member space (.itself _ (by decide)) space space .nil
    have accepted : Bus.DispatchMode.codec.decode "\x7b \"Deferred\" : null\x7d" = .ok .deferred := by
      have decoded := (Spelling.choice Bus.DispatchMode).decode_of_writes .nil spelled .nil
      refine (congrArg Bus.DispatchMode.codec.decode (String.toList_inj.mp ?_)).trans decoded
      rw [String.toList_ofList]
      decide
    obtain ⟨written, -, again⟩ := (written_description_read_back .dispatchMode).2 _ .deferred accepted
    exact ⟨written, again⟩

end PeripheralLayer
