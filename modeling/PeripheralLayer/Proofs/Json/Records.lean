import PeripheralLayer.Proofs.Json.Spelling

/-!
Records in either form. An object may list its members in any order and among members nobody asked for; what
it means depends only on which fields it names and with which values. That is proved in two steps: reading
the members is gathering their values, and what was gathered is complete, or lacks a field, or ends with the
first field that is named again.
-/
namespace PeripheralLayer.Json

/-! Values by place. -/

namespace Values

def get : (fields : List Field) → Values fields → (place : Fin fields.length) → (fields.get place).Value
  | _ :: _, (value, _), ⟨0, _⟩ => value
  | _ :: fields, (_, values), ⟨place + 1, below⟩ => get fields values ⟨place, Nat.lt_of_succ_lt_succ below⟩

def put : (fields : List Field) → Values fields → (place : Fin fields.length) → (fields.get place).Value → Values fields
  | _ :: _, (_, values), ⟨0, _⟩, value => (value, values)
  | _ :: fields, (other, values), ⟨place + 1, below⟩, value =>
    (other, put fields values ⟨place, Nat.lt_of_succ_lt_succ below⟩ value)

theorem get_put_same : (fields : List Field) → (values : Values fields) → (place : Fin fields.length) →
    (value : (fields.get place).Value) → get fields (put fields values place value) place = value
  | _ :: _, (_, _), ⟨0, _⟩, _ => rfl
  | _ :: fields, (_, values), ⟨place + 1, below⟩, value =>
    get_put_same fields values ⟨place, Nat.lt_of_succ_lt_succ below⟩ value

theorem get_put_other : (fields : List Field) → (values : Values fields) → (place other : Fin fields.length) →
    (value : (fields.get place).Value) → other ≠ place →
    get fields (put fields values place value) other = get fields values other
  | _ :: _, (_, _), ⟨0, _⟩, ⟨0, _⟩, _, different => absurd rfl different
  | _ :: _, (_, _), ⟨0, _⟩, ⟨_ + 1, _⟩, _, _ => rfl
  | _ :: _, (_, _), ⟨_ + 1, _⟩, ⟨0, _⟩, _, _ => rfl
  | _ :: fields, (_, values), ⟨place + 1, below⟩, ⟨other + 1, below'⟩, value, different =>
    get_put_other fields values ⟨place, Nat.lt_of_succ_lt_succ below⟩ ⟨other, Nat.lt_of_succ_lt_succ below'⟩ value
      (by simpa using different)

end Values

namespace Slots

def get : (fields : List Field) → Slots fields → (place : Fin fields.length) → Option (fields.get place).Value
  | _ :: _, (slot, _), ⟨0, _⟩ => slot
  | _ :: fields, (_, slots), ⟨place + 1, below⟩ => get fields slots ⟨place, Nat.lt_of_succ_lt_succ below⟩

def put : (fields : List Field) → Slots fields → (place : Fin fields.length) → (fields.get place).Value → Slots fields
  | _ :: _, (_, slots), ⟨0, _⟩, value => (some value, slots)
  | _ :: fields, (slot, slots), ⟨place + 1, below⟩, value =>
    (slot, put fields slots ⟨place, Nat.lt_of_succ_lt_succ below⟩ value)

theorem get_empty : (fields : List Field) → (place : Fin fields.length) → get fields (empty fields) place = none
  | _ :: _, ⟨0, _⟩ => rfl
  | _ :: fields, ⟨place + 1, below⟩ => get_empty fields ⟨place, Nat.lt_of_succ_lt_succ below⟩

theorem get_put_same : (fields : List Field) → (slots : Slots fields) → (place : Fin fields.length) →
    (value : (fields.get place).Value) → get fields (put fields slots place value) place = some value
  | _ :: _, (_, _), ⟨0, _⟩, _ => rfl
  | _ :: fields, (_, slots), ⟨place + 1, below⟩, value =>
    get_put_same fields slots ⟨place, Nat.lt_of_succ_lt_succ below⟩ value

theorem get_put_other : (fields : List Field) → (slots : Slots fields) → (place other : Fin fields.length) →
    (value : (fields.get place).Value) → other ≠ place →
    get fields (put fields slots place value) other = get fields slots other
  | _ :: _, (_, _), ⟨0, _⟩, ⟨0, _⟩, _, different => absurd rfl different
  | _ :: _, (_, _), ⟨0, _⟩, ⟨_ + 1, _⟩, _, _ => rfl
  | _ :: _, (_, _), ⟨_ + 1, _⟩, ⟨0, _⟩, _, _ => rfl
  | _ :: fields, (_, slots), ⟨place + 1, below⟩, ⟨other + 1, below'⟩, value, different =>
    get_put_other fields slots ⟨place, Nat.lt_of_succ_lt_succ below⟩ ⟨other, Nat.lt_of_succ_lt_succ below'⟩ value
      (by simpa using different)

theorem values_of_full : (fields : List Field) → (slots : Slots fields) →
    (∀ place, (get fields slots place).isSome) →
    ∃ values, slots.values fields = .ok values ∧ ∀ place, get fields slots place = some (Values.get fields values place)
  | [], (), _ => ⟨(), rfl, fun place => place.elim0⟩
  | field :: fields, (none, slots), full => by
    have first := full ⟨0, Nat.succ_pos _⟩
    cases first
  | field :: fields, (some value, slots), full => by
    obtain ⟨values, gathered, agree⟩ := values_of_full fields slots fun place =>
      full ⟨place.val + 1, Nat.succ_lt_succ place.isLt⟩
    refine ⟨(value, values), by simp only [Slots.values, gathered], ?_⟩
    rintro ⟨_ | place, below⟩
    · rfl
    · exact agree ⟨place, Nat.lt_of_succ_lt_succ below⟩

theorem values_of_lacking : (fields : List Field) → (slots : Slots fields) → (place : Fin fields.length) →
    get fields slots place = none → (∀ earlier, earlier < place → (get fields slots earlier).isSome) →
    slots.values fields = .error (.missingField (fields.get place).name)
  | field :: fields, (none, slots), ⟨0, _⟩, _, _ => rfl
  | field :: fields, (none, slots), ⟨place + 1, below⟩, _, filled => by
    have first := filled ⟨0, Nat.succ_pos _⟩ (Nat.succ_pos place)
    cases first
  | field :: fields, (some value, slots), ⟨place + 1, below⟩, lacking, filled => by
    have rest := values_of_lacking fields slots ⟨place, Nat.lt_of_succ_lt_succ below⟩ lacking fun earlier before =>
      filled ⟨earlier.val + 1, Nat.succ_lt_succ earlier.isLt⟩ (Nat.succ_lt_succ before)
    simp only [Slots.values, rest]
    rfl

end Slots

/-! Gathering. -/

structure Entry (fields : List Field) where
  place : Fin fields.length
  value : (fields.get place).Value

def Entry.name {fields : List Field} (e : Entry fields) : String := (fields.get e.place).name

/-- The slots after these entries. A field named again is reported. -/
def gather (fields : List Field) : Slots fields → List (Entry fields) → Except Mismatch (Slots fields)
  | slots, [] => .ok slots
  | slots, e :: later =>
    match slots.get fields e.place with
    | some _ => .error (.duplicateField e.name)
    | none => gather fields (slots.put fields e.place e.value) later

section Gathering

variable {fields : List Field} {slots : Slots fields} {before later entries : List (Entry fields)}
  {e : Entry fields}

theorem gather_append {gathered : Slots fields} (first : gather fields slots before = .ok gathered) :
    gather fields slots (before ++ later) = gather fields gathered later := by
  induction before generalizing slots with
  | nil =>
    cases first
    rfl
  | cons e before ih =>
    rw [gather] at first
    rw [List.cons_append, gather]
    cases slot : slots.get fields e.place with
    | some value =>
      rw [slot] at first
      cases first
    | none =>
      rw [slot] at first
      exact ih first

theorem gather_of_nodup (entries : List (Entry fields)) (slots : Slots fields)
    (once : (entries.map Entry.place).Nodup) (empty : ∀ e ∈ entries, slots.get fields e.place = none) :
    ∃ gathered, gather fields slots entries = .ok gathered ∧
      (∀ e ∈ entries, gathered.get fields e.place = some e.value) ∧
      ∀ place, place ∉ entries.map Entry.place → gathered.get fields place = slots.get fields place := by
  induction entries generalizing slots with
  | nil => exact ⟨slots, rfl, by simp, fun _ _ => rfl⟩
  | cons e later ih =>
    obtain ⟨fresh, once⟩ := List.nodup_cons.mp once
    have apart : ∀ e' ∈ later, e'.place ≠ e.place := fun e' mem same => fresh (same ▸ List.mem_map_of_mem mem)
    obtain ⟨gathered, made, held, kept⟩ := ih (slots.put fields e.place e.value) once fun e' mem => by
      rw [Slots.get_put_other fields slots e.place e'.place e.value (apart e' mem)]
      exact empty e' (List.mem_cons_of_mem e mem)
    refine ⟨gathered, ?_, ?_, ?_⟩
    · rw [gather, empty e List.mem_cons_self]
      exact made
    · intro e' mem
      rcases List.mem_cons.mp mem with rfl | mem
      · rw [kept _ fresh]
        exact Slots.get_put_same fields slots _ _
      · exact held e' mem
    · intro place absent
      simp only [List.map_cons, List.mem_cons, not_or] at absent
      rw [kept place absent.2]
      exact Slots.get_put_other fields slots e.place place e.value absent.1

def settle (fields : List Field) (entries : List (Entry fields)) : Except Mismatch (Values fields) :=
  match gather fields (Slots.empty fields) entries with
  | .error mismatch => .error mismatch
  | .ok slots => slots.values fields

/-- What entries describe: the first field to be named again is a problem, without such a field the first that
is not named is one, and otherwise there are values, those that the entries give. -/
inductive Describes (entries : List (Entry fields)) : Except Mismatch (Values fields) → Prop where
  | repeated {before later : List (Entry fields)} {e : Entry fields} (cut : entries = before ++ e :: later)
      (once : (before.map Entry.place).Nodup) (again : e.place ∈ before.map Entry.place) :
      Describes entries (.error (.duplicateField e.name))
  | missing {place : Fin fields.length} (once : (entries.map Entry.place).Nodup)
      (absent : place ∉ entries.map Entry.place)
      (earlier : ∀ other, other < place → other ∈ entries.map Entry.place) :
      Describes entries (.error (.missingField (fields.get place).name))
  | complete {values : Values fields} (once : (entries.map Entry.place).Nodup)
      (all : ∀ place, place ∈ entries.map Entry.place)
      (agree : ∀ e ∈ entries, Values.get fields values e.place = e.value) : Describes entries (.ok values)

theorem Values.ext : (fields : List Field) → (values values' : Values fields) →
    (∀ place, values.get fields place = values'.get fields place) → values = values'
  | [], (), (), _ => rfl
  | _ :: fields, (value, values), (value', values'), same => by
    have first : value = value' := same ⟨0, Nat.succ_pos _⟩
    have others : values = values' := Values.ext fields values values' fun place =>
      same ⟨place.val + 1, Nat.succ_lt_succ place.isLt⟩
    rw [first, others]

theorem values_of_entries {gathered : Slots fields} (all : ∀ place, place ∈ entries.map Entry.place)
    (held : ∀ e ∈ entries, gathered.get fields e.place = some e.value) :
    ∃ values, gathered.values fields = .ok values ∧ ∀ e ∈ entries, Values.get fields values e.place = e.value := by
  obtain ⟨values, made, agree⟩ := Slots.values_of_full fields gathered fun place => by
    obtain ⟨e, mem, same⟩ := List.mem_map.mp (all place)
    rw [← same, held e mem]
    rfl
  refine ⟨values, made, fun e mem => ?_⟩
  have same := (agree e.place).symm.trans (held e mem)
  exact Option.some.inj same

theorem Describes.settles {outcome : Except Mismatch (Values fields)} (describes : Describes entries outcome) :
    settle fields entries = outcome := by
  have gathers (entries : List (Entry fields)) (once : (entries.map Entry.place).Nodup) :=
    gather_of_nodup entries (Slots.empty fields) once fun e _ => Slots.get_empty fields e.place
  cases describes with
  | @repeated before later e cut once again =>
    obtain ⟨gathered, made, held, -⟩ := gathers before once
    obtain ⟨first, mem, same⟩ := List.mem_map.mp again
    have taken : gathered.get fields e.place ≠ none := by
      rw [← same, held first mem]
      exact Option.some_ne_none _
    obtain ⟨value, taken⟩ := Option.ne_none_iff_exists'.mp taken
    rw [settle, cut, gather_append made, gather, taken]
  | @missing place once absent earlier =>
    obtain ⟨gathered, made, held, kept⟩ := gathers entries once
    rw [settle, made]
    refine Slots.values_of_lacking fields gathered place ?_ ?_
    · rw [kept place absent, Slots.get_empty]
    · intro other before
      obtain ⟨e, mem, same⟩ := List.mem_map.mp (earlier other before)
      rw [← same, held e mem]
      rfl
  | @complete values once all agree =>
    obtain ⟨gathered, made, held, -⟩ := gathers entries once
    obtain ⟨settled, complete, given⟩ := values_of_entries all held
    have same : settled = values := Values.ext fields settled values fun place => by
      obtain ⟨e, mem, named⟩ := List.mem_map.mp (all place)
      rw [← named, given e mem, agree e mem]
    rw [settle, made, ← same]
    exact complete

theorem nodup_or_repeat (later before : List (Entry fields)) (once : (before.map Entry.place).Nodup) :
    ((before ++ later).map Entry.place).Nodup ∨
      ∃ outcome, Describes (before ++ later) (.error outcome) := by
  -- every new entry joins the start, so the induction is over what follows it, for every start
  induction later generalizing before with
  | nil => exact Or.inl (by rwa [List.append_nil])
  | cons e later ih =>
    by_cases again : e.place ∈ before.map Entry.place
    · exact Or.inr ⟨_, .repeated rfl once again⟩
    · have longer : ((before ++ [e]).map Entry.place).Nodup := by
        rw [List.map_append]
        refine List.nodup_append.mpr ⟨once, by simp, ?_⟩
        intro place mem other single same
        rw [same, List.mem_singleton.mp single] at mem
        exact again mem
      simpa using ih (before ++ [e]) longer

theorem exists_first_absent (place : Fin fields.length) (absent : place ∉ entries.map Entry.place) :
    ∃ first : Fin fields.length, first ∉ entries.map Entry.place ∧
      ∀ other, other < first → other ∈ entries.map Entry.place := by
  by_cases earlier : ∀ other, other < place → other ∈ entries.map Entry.place
  · exact ⟨place, absent, earlier⟩
  · obtain ⟨other, less⟩ := Classical.not_forall.mp earlier
    obtain ⟨before, absent'⟩ := Classical.not_imp.mp less
    exact exists_first_absent other absent'
termination_by place.val

theorem exists_describes (entries : List (Entry fields)) : ∃ outcome, Describes entries outcome := by
  rcases nodup_or_repeat entries [] List.nodup_nil with once | ⟨mismatch, described⟩
  · by_cases all : ∀ place, place ∈ entries.map Entry.place
    · obtain ⟨gathered, -, held, -⟩ :=
        gather_of_nodup entries (Slots.empty fields) once fun e _ => Slots.get_empty fields e.place
      obtain ⟨values, -, agree⟩ := values_of_entries all held
      exact ⟨_, .complete once all agree⟩
    · obtain ⟨place, absent⟩ := Classical.not_forall.mp all
      obtain ⟨first, absent, earlier⟩ := exists_first_absent place absent
      exact ⟨_, .missing once absent earlier⟩
  · exact ⟨_, described⟩

end Gathering

/-! Objects. -/

def Spellings : List Field → Type
  | [] => Unit
  | field :: fields => Spelling field.codec × Spellings fields

def Spellings.get : (fields : List Field) → Spellings fields → (place : Fin fields.length) →
    Spelling (fields.get place).codec
  | _ :: _, (spelling, _), ⟨0, _⟩ => spelling
  | _ :: fields, (_, spellings), ⟨place + 1, below⟩ => get fields spellings ⟨place, Nat.lt_of_succ_lt_succ below⟩

/-- The members of an object up to and with its closing brace, and the entries among them. Any value may
stand behind a name that is no field's. -/
inductive MembersText {fields : List Field} (spellings : Spellings fields) :
    Bool → List (Entry fields) → List Char → Prop where
  | close {first : Bool} {pad : List Char} (padding : Padding pad) : MembersText spellings first [] (pad ++ ['}'])
  | known {first : Bool} {lead key before after value later : List Char} {entries : List (Entry fields)}
      (e : Entry fields) (leads : Lead first lead) (spells : Spells e.name.toList key) (padding : Padding before)
      (padding' : Padding after) (writes : (spellings.get fields e.place).Writes e.value value)
      (tail : MembersText spellings false entries later) :
      MembersText spellings first (e :: entries) (lead ++ (naming key before after ++ (value ++ later)))
  | unknown {first : Bool} {lead key before after value later : List Char} {entries : List (Entry fields)}
      (name : String) (foreign : ∀ field ∈ fields, name ≠ field.name) (leads : Lead first lead)
      (spells : Spells name.toList key) (padding : Padding before) (padding' : Padding after)
      (shape : WellFormed .value value) (tail : MembersText spellings false entries later) :
      MembersText spellings first entries (lead ++ (naming key before after ++ (value ++ later)))

section Members

variable {fields : List Field} {spellings : Spellings fields} {first : Bool} {entries : List (Entry fields)}
  {lead text rest : List Char}

theorem MembersText.delimited (shape : MembersText spellings false entries text) : Delimited (text ++ rest) := by
  cases shape with
  | close padding =>
    rw [List.append_assoc]
    exact padding.delimited rfl
  | known e leads | unknown name foreign leads =>
    rw [List.append_assoc]
    exact leads.delimited

theorem name_mem (fields : List Field) (place : Fin fields.length) :
    (fields.get place).name ∈ fields.map Field.name :=
  List.mem_map_of_mem (fields.get_mem place)

namespace Slots

theorem member_there {field : Field} {name : String} (other : name ≠ field.name) (slot : Option field.Value)
    (slots : Slots fields) :
    member passOver (field :: fields) (slot, slots) name =
      member passOver fields slots name >>= fun slots => pure (slot, slots) := by
  simp only [member, if_neg other]
  rfl

theorem name_ne_of_nodup {field : Field} (distinct : ((field :: fields).map Field.name).Nodup)
    (place : Fin fields.length) : (fields.get place).name ≠ field.name :=
  fun same => (List.nodup_cons.mp distinct).1 (same ▸ name_mem fields place)

theorem member_of_taken : (fields : List Field) → (slots : Slots fields) → (place : Fin fields.length) →
    (fields.map Field.name).Nodup → (slots.get fields place).isSome →
    member passOver fields slots (fields.get place).name text = .error (.data (.duplicateField (fields.get place).name))
  | _ :: _, (none, _), ⟨0, _⟩, _, taken => by cases taken
  | field :: fields, (some value, slots), ⟨0, _⟩, _, _ => by
    change member passOver (field :: fields) (some value, slots) field.name text = _
    simp only [member, if_true]
    rfl
  | field :: fields, (slot, slots), ⟨place + 1, below⟩, distinct, taken => by
    let place : Fin fields.length := ⟨place, Nat.lt_of_succ_lt_succ below⟩
    change member passOver (field :: fields) (slot, slots) (fields.get place).name text = _
    rw [member_there (name_ne_of_nodup distinct place)]
    exact Reader.bind_of_error (member_of_taken fields slots place (List.nodup_cons.mp distinct).2 taken)

theorem member_of_free {middle : List Char} (colon : Reader.expect ':' .colonMissing text = .ok ((), middle)) :
    (fields : List Field) → (slots : Slots fields) → (place : Fin fields.length) → (fields.map Field.name).Nodup →
    slots.get fields place = none →
    member passOver fields slots (fields.get place).name text =
      ((fields.get place).codec.read >>= fun value => pure (put fields slots place value)) middle
  | field :: fields, (none, slots), ⟨0, _⟩, _, _ => by
    change member passOver (field :: fields) (none, slots) field.name text = _
    simp only [member, if_true]
    rw [Reader.bind_of_ok colon]
    rfl
  | field :: fields, (slot, slots), ⟨place + 1, below⟩, distinct, free => by
    let place : Fin fields.length := ⟨place, Nat.lt_of_succ_lt_succ below⟩
    change member passOver (field :: fields) (slot, slots) (fields.get place).name text = _
    rw [member_there (name_ne_of_nodup distinct place),
      Reader.bind_congr (member_of_free colon fields slots place (List.nodup_cons.mp distinct).2 free), bind_assoc]
    simp only [pure_bind]
    rfl

theorem member_of_foreign (passed : passOver text = .ok ((), rest)) {name : String} :
    (fields : List Field) → (slots : Slots fields) → (∀ field ∈ fields, name ≠ field.name) →
    member passOver fields slots name text = .ok (slots, rest)
  | [], (), _ => passed
  | field :: fields, (slot, slots), foreign => by
    rw [member_there (foreign field List.mem_cons_self)]
    exact Reader.bind_of_ok (member_of_foreign passed fields slots
      fun other mem => foreign other (List.mem_cons_of_mem field mem))

end Slots

theorem openName_of_padding {pad : List Char} (padding : Padding pad) :
    openName (pad ++ '"' :: rest) = .ok ((), rest) := by
  rw [openName, Reader.bind_of_ok (Reader.token_of_padding padding rfl)]
  rfl

theorem members_named {fuel : Nat} {slots : Slots fields} {key before after : List Char} {name : String}
    (leads : Lead first lead) (spells : Spells name.toList key) :
    members passOver fields (fuel + 1) first slots (lead ++ (naming key before after ++ rest)) =
      (do
        let slots ← slots.member passOver fields name
        members passOver fields fuel false slots : Reader (Slots fields)) (before ++ ':' :: (after ++ rest)) := by
  obtain ⟨d, left, pad, peeked, -, notClosed, separated, padding⟩ :=
    leads.taken .membersUnseparated (naming_opens key before after)
  rw [members, Reader.bind_of_ok peeked, if_neg notClosed, Reader.bind_of_ok separated, naming_append,
    Reader.bind_of_ok (openName_of_padding padding), Reader.bind_of_ok (quotedText_of_spells spells),
    String.ofList_toList]

section Named

variable {fuel : Nat} {slots : Slots fields} {key before after value : List Char}

theorem members_entered {e : Entry fields} (leads : Lead first lead) (spells : Spells e.name.toList key)
    (padding : Padding before) (padding' : Padding after)
    (writes : (spellings.get fields e.place).Writes e.value value) (delimited : Delimited rest)
    (distinct : (fields.map Field.name).Nodup) (free : slots.get fields e.place = none) :
    members passOver fields (fuel + 1) first slots (lead ++ (naming key before after ++ (value ++ rest))) =
      members passOver fields fuel false (slots.put fields e.place e.value) rest := by
  have read : (fields.get e.place).codec.read (after ++ (value ++ rest)) = .ok (e.value, rest) :=
    ((spellings.get fields e.place).skips padding').trans ((spellings.get fields e.place).reads writes delimited)
  have taken : slots.member passOver fields e.name (before ++ ':' :: (after ++ (value ++ rest))) =
      .ok (slots.put fields e.place e.value, rest) :=
    (Slots.member_of_free (Reader.expect_of_padding padding rfl) fields slots e.place distinct free).trans
      (Reader.bind_of_ok read)
  rw [members_named leads spells, Reader.bind_of_ok taken]

theorem members_passed {name : String} (foreign : ∀ field ∈ fields, name ≠ field.name) (leads : Lead first lead)
    (spells : Spells name.toList key) (padding : Padding before) (padding' : Padding after)
    (shape : WellFormed .value value) (delimited : Delimited rest) :
    members passOver fields (fuel + 1) first slots (lead ++ (naming key before after ++ (value ++ rest))) =
      members passOver fields fuel false slots rest := by
  have passed : passOver (before ++ ':' :: (after ++ (value ++ rest))) = .ok ((), rest) := by
    rw [passOver, Reader.bind_of_ok (Reader.expect_of_padding padding rfl)]
    exact skipValue_of_wellFormed shape padding' delimited
  rw [members_named leads spells, Reader.bind_of_ok (Slots.member_of_foreign passed fields slots foreign)]

end Named

theorem members_of_text (shape : MembersText spellings first entries text) (distinct : (fields.map Field.name).Nodup)
    {fuel : Nat} (enough : text.length ≤ fuel) (slots : Slots fields) :
    members passOver fields fuel first slots (text ++ rest) =
      match gather fields slots entries with
      | .error mismatch => .error (.data mismatch)
      | .ok gathered => .ok (gathered, rest) := by
  induction shape generalizing fuel slots with
  | @close first pad padding =>
    obtain ⟨fuel, rfl⟩ := Nat.exists_eq_add_of_le' (show 1 ≤ fuel by simp at enough; omega)
    rw [List.append_assoc, List.singleton_append, members, Reader.bind_of_ok (Reader.peek_of_padding padding rfl)]
    rfl
  | @known first lead key before after value later entries e leads spells padding padding' writes tail ih =>
    simp only [List.length_append, naming, List.length_cons] at enough
    obtain ⟨fuel, rfl⟩ := Nat.exists_eq_add_of_le' (show 1 ≤ fuel by omega)
    rw [List.append_assoc, List.append_assoc, List.append_assoc, gather]
    cases slot : slots.get fields e.place with
    | some earlier =>
      have reported : slots.member passOver fields e.name (before ++ ':' :: (after ++ (value ++ (later ++ rest)))) =
          .error (.data (.duplicateField e.name)) :=
        Slots.member_of_taken fields slots e.place distinct (by rw [slot]; rfl)
      rw [members_named leads spells]
      exact Reader.bind_of_error reported
    | none =>
      rw [members_entered leads spells padding padding' writes tail.delimited distinct slot]
      exact ih (by omega) _
  | @unknown first lead key before after value later entries name foreign leads spells padding padding' shape tail ih =>
    simp only [List.length_append, naming, List.length_cons] at enough
    obtain ⟨fuel, rfl⟩ := Nat.exists_eq_add_of_le' (show 1 ≤ fuel by omega)
    rw [List.append_assoc, List.append_assoc, List.append_assoc,
      members_passed foreign leads spells padding padding' shape tail.delimited]
    exact ih (by omega) slots

theorem readMembers_of_text (shape : MembersText spellings true entries text)
    (distinct : (fields.map Field.name).Nodup) (rest : List Char) :
    readMembers passOver fields (text ++ rest) =
      match settle fields entries with
      | .error mismatch => .error (.data mismatch)
      | .ok values => .ok (values, rest) := by
  have enough : text.length ≤ (text ++ rest).length := by simp
  rw [readMembers, members_of_text shape distinct enough, settle]
  cases gather fields (Slots.empty fields) entries with
  | error mismatch => rfl
  | ok slots => cases made : slots.values fields <;> simp only [made]

end Members

/-! Sequences, and records in either form. -/

/-- The values of the fields in their order, up to and with the closing bracket. -/
def ItemsText : (fields : List Field) → Spellings fields → Bool → Values fields → List Char → Prop
  | [], (), _, (), text => ∃ pad, Padding pad ∧ text = pad ++ [']']
  | _ :: fields, (spelling, spellings), first, (value, values), text =>
    ∃ lead item later, Lead first lead ∧ spelling.Writes value item ∧
      ItemsText fields spellings false values later ∧ text = lead ++ (item ++ later)

def ItemsGap : (fields : List Field) → Spellings fields → Bool → Values fields → Fin fields.length → List Char →
    List Char → Prop
  | _ :: fields, (_, spellings), first, (_, values), ⟨0, _⟩, front, back =>
    Lead first front ∧ ItemsText fields spellings false values back
  | _ :: fields, (spelling, spellings), first, (value, values), ⟨place + 1, below⟩, front, back =>
    ∃ lead item later, Lead first lead ∧ spelling.Writes value item ∧
      ItemsGap fields spellings false values ⟨place, Nat.lt_of_succ_lt_succ below⟩ later back ∧
      front = lead ++ (item ++ later)

/-- An object that names every field once, or a sequence of all the values. -/
inductive RecordText {fields : List Field} (spellings : Spellings fields) (values : Values fields) :
    List Char → Prop where
  | object {entries : List (Entry fields)} {text : List Char} (members : MembersText spellings true entries text)
      (described : Describes entries (.ok values)) : RecordText spellings values ('{' :: text)
  | sequence {text : List Char} (items : ItemsText fields spellings true values text) :
      RecordText spellings values ('[' :: text)

section Records

variable {fields : List Field} {spellings : Spellings fields} {values : Values fields} {text rest : List Char}

theorem ItemsText.delimited : {fields : List Field} → {spellings : Spellings fields} → {values : Values fields} →
    ItemsText fields spellings false values text → Delimited (text ++ rest)
  | [], _, _, ⟨pad, padding, shape⟩ => by
    rw [shape, List.append_assoc]
    exact padding.delimited rfl
  | _ :: _, (_, _), (_, _), ⟨lead, item, later, leads, _, _, shape⟩ => by
    rw [shape, List.append_assoc]
    exact leads.delimited

theorem readItems_lead {field : Field} {fields : List Field} (record : String) (size index : Nat) {lead : List Char}
    (leads : Lead (index = 0) lead) (opens : Opens text) :
    readItems passOver record size index (field :: fields) (lead ++ text) =
      (do
        let value ← field.codec.read
        let values ← readItems passOver record size (index + 1) fields
        pure (value, values) : Reader (Values (field :: fields))) text := by
  obtain ⟨d, left, pad, peeked, notClosed, -, separated, padding⟩ := leads.taken .itemsUnseparated opens
  obtain ⟨c, behind, rfl, starts⟩ := opens
  have notClosed' : c ≠ ']' := by
    rintro rfl
    cases starts
  rw [readItems, Reader.bind_of_ok peeked, if_neg notClosed, Reader.bind_of_ok separated,
    Reader.bind_of_ok (Reader.peek_of_padding padding (Reader.isBlank_of_startsValue starts)), if_neg notClosed']

theorem readItems_of_text (record : String) (size : Nat) : (index : Nat) → (fields : List Field) →
    (spellings : Spellings fields) → (values : Values fields) → {text : List Char} →
    ItemsText fields spellings (index = 0) values text →
    readItems passOver record size index fields (text ++ rest) = .ok (values, rest)
  | index, [], _, (), _, ⟨pad, padding, shape⟩ => by
    rw [shape, List.append_assoc, List.singleton_append, readItems, closeItems,
      Reader.bind_of_ok (Reader.token_of_padding padding rfl)]
    rfl
  | index, field :: fields, (spelling, spellings), (value, values), _,
      ⟨lead, item, later, leads, writes, tail, shape⟩ => by
    have read : field.codec.read (item ++ (later ++ rest)) = .ok (value, later ++ rest) :=
      spelling.reads writes tail.delimited
    have others : readItems passOver record size (index + 1) fields (later ++ rest) = .ok (values, rest) :=
      readItems_of_text record size (index + 1) fields spellings values (by simpa using tail)
    rw [shape, List.append_assoc, List.append_assoc, readItems_lead record size index leads (spelling.opens writes),
      Reader.bind_of_ok read, Reader.bind_of_ok others]
    rfl

theorem readRecord_object (record : String) (fields : List Field) (text : List Char) :
    readRecord passOver record fields ('{' :: text) = readMembers passOver fields text := rfl

theorem readRecord_sequence (record : String) (fields : List Field) (text : List Char) :
    readRecord passOver record fields ('[' :: text) = readItems passOver record fields.length 0 fields text := rfl

theorem readRecord_of_text (record : String) (shape : RecordText spellings values text)
    (distinct : (fields.map Field.name).Nodup) :
    readRecord passOver record fields (text ++ rest) = .ok (values, rest) := by
  cases shape with
  | object members described =>
    rw [List.cons_append, readRecord_object, readMembers_of_text members distinct rest, described.settles]
  | sequence items =>
    rw [List.cons_append, readRecord_sequence]
    exact readItems_of_text record fields.length 0 fields spellings values items

def Spelling.record (name : String) (fields : List Field) (spellings : Spellings fields)
    (distinct : (fields.map Field.name).Nodup) : Spelling (record name fields) where
  Writes values text := RecordText spellings values text
  opens shape := by cases shape <;> exact ⟨_, _, rfl, rfl⟩
  skips padding := Reader.bind_congr (Reader.peek_padding padding)
  reads shape _ := readRecord_of_text name shape distinct

end Records

end PeripheralLayer.Json
