import PeripheralLayer.Proofs.Json.Records

/-!
Records with one value left open. The text of such a record falls apart into what stands before the value and what
stands behind it. Whichever way of writing a value is put between the two, the whole is a record with this value. And
whatever else stands behind the first part, a problem that the field's codec has with it is the record's problem.
-/
namespace PeripheralLayer.Json

variable {fields : List Field} {spellings : Spellings fields} {values : Values fields} {place : Fin fields.length}
  {first last : Bool} {entries earlier later : List (Entry fields)} {text rest front back : List Char}

theorem Describes.exchange (value : (fields.get place).Value)
    (described : Describes (earlier ++ ⟨place, values.get fields place⟩ :: later) (.ok values)) :
    Describes (earlier ++ ⟨place, value⟩ :: later) (.ok (values.put fields place value)) := by
  cases described with
  | complete once all agree =>
    simp only [List.map_append, List.map_cons] at once all
    obtain ⟨-, apart, others⟩ := List.nodup_append.mp once
    have other {e : Entry fields} (mem : e ∈ earlier ∨ e ∈ later) :
        Values.get fields (values.put fields place value) e.place = e.value := by
      have different : e.place ≠ place := by
        rcases mem with mem | mem
        · exact others _ (List.mem_map_of_mem mem) _ List.mem_cons_self
        · exact fun same => (List.nodup_cons.mp apart).1 (same ▸ List.mem_map_of_mem mem)
      rw [Values.get_put_other fields values place e.place value different]
      refine agree e (List.mem_append.mpr (mem.imp_right (List.mem_cons_of_mem _)))
    refine .complete (by simpa using once) (by simpa using all) fun e mem => ?_
    rcases List.mem_append.mp mem with mem | mem
    · exact other (.inl mem)
    · rcases List.mem_cons.mp mem with rfl | mem
      · exact Values.get_put_same fields values place value
      · exact other (.inr mem)

/-! Objects. -/

/-- Some members of an object, and the entries among them. The first flag says whether they are the first ones, the
last whether a member behind them would be. -/
inductive MembersStart {fields : List Field} (spellings : Spellings fields) :
    Bool → Bool → List (Entry fields) → List Char → Prop where
  | none (first : Bool) : MembersStart spellings first first [] []
  | known {first last : Bool} {lead key before after value later : List Char} {entries : List (Entry fields)}
      (e : Entry fields) (leads : Lead first lead) (spells : Spells e.name.toList key) (padding : Padding before)
      (padding' : Padding after) (writes : (spellings.get fields e.place).Writes e.value value)
      (tail : MembersStart spellings false last entries later) :
      MembersStart spellings first last (e :: entries) (lead ++ (naming key before after ++ (value ++ later)))
  | unknown {first last : Bool} {lead key before after value later : List Char} {entries : List (Entry fields)}
      (name : String) (foreign : ∀ field ∈ fields, name ≠ field.name) (leads : Lead first lead)
      (spells : Spells name.toList key) (padding : Padding before) (padding' : Padding after)
      (shape : WellFormed .value value) (tail : MembersStart spellings false last entries later) :
      MembersStart spellings first last entries (lead ++ (naming key before after ++ (value ++ later)))

namespace MembersStart

theorem finish (start : MembersStart spellings first last earlier front)
    (members : MembersText spellings last later text) :
    MembersText spellings first (earlier ++ later) (front ++ text) := by
  induction start with
  | none => exact members
  | known e leads spells padding padding' writes tail ih =>
    simpa only [List.append_assoc, List.cons_append] using
      MembersText.known e leads spells padding padding' writes (ih members)
  | unknown name foreign leads spells padding padding' shape tail ih =>
    simpa only [List.append_assoc] using
      MembersText.unknown name foreign leads spells padding padding' shape (ih members)

theorem delimited (start : MembersStart spellings false last entries text) (ends : last = false → Delimited rest) :
    Delimited (text ++ rest) := by
  cases start with
  | none => exact ends rfl
  | known e leads | unknown name foreign leads =>
    rw [List.append_assoc]
    exact leads.delimited

theorem members_start (start : MembersStart spellings first last entries text)
    (distinct : (fields.map Field.name).Nodup) (ends : last = false → Delimited rest) {fuel : Nat}
    (enough : (text ++ rest).length ≤ fuel) (slots : Slots fields) {gathered : Slots fields}
    (made : gather fields slots entries = .ok gathered) :
    ∃ fuel', rest.length ≤ fuel' ∧
      members passOver fields fuel first slots (text ++ rest) = members passOver fields fuel' last gathered rest := by
  induction start generalizing fuel slots with
  | none =>
    cases made
    exact ⟨fuel, enough, rfl⟩
  | @known first last lead key before after value later entries e leads spells padding padding' writes tail ih =>
    simp only [List.append_assoc, List.length_append, naming, List.length_cons] at enough ih
    obtain ⟨fuel, rfl⟩ := Nat.exists_eq_add_of_le' (show 1 ≤ fuel by omega)
    rw [gather] at made
    cases free : slots.get fields e.place with
    | some earlier =>
      rw [free] at made
      cases made
    | none =>
      rw [free] at made
      rw [List.append_assoc, List.append_assoc, List.append_assoc,
        members_entered leads spells padding padding' writes (tail.delimited ends) distinct free]
      exact ih ends (by omega) _ made
  | @unknown first last lead key before after value later entries name foreign leads spells padding padding' shape tail
      ih =>
    simp only [List.append_assoc, List.length_append, naming, List.length_cons] at enough ih
    obtain ⟨fuel, rfl⟩ := Nat.exists_eq_add_of_le' (show 1 ≤ fuel by omega)
    rw [List.append_assoc, List.append_assoc, List.append_assoc,
      members_passed foreign leads spells padding padding' shape (tail.delimited ends)]
    exact ih ends (by omega) slots made

end MembersStart

theorem members_flawed (spellings : Spellings fields) {fuel : Nat} {slots : Slots fields}
    {lead key before after bad : List Char} {problem : Problem} (leads : Lead first lead)
    (spells : Spells (fields.get place).name.toList key) (padding : Padding before) (padding' : Padding after)
    (distinct : (fields.map Field.name).Nodup) (free : slots.get fields place = none)
    (flawed : (fields.get place).codec.read bad = .error problem) :
    members passOver fields (fuel + 1) first slots (lead ++ (naming key before after ++ bad)) = .error problem := by
  have failed : slots.member passOver fields (fields.get place).name (before ++ ':' :: (after ++ bad)) =
      .error problem := by
    rw [Slots.member_of_free (Reader.expect_of_padding padding rfl) fields slots place distinct free]
    exact Reader.bind_of_error (((spellings.get fields place).skips padding').trans flawed)
  rw [members_named leads spells]
  exact Reader.bind_of_error failed

/-! Sequences, and records in either form. -/

namespace ItemsGap

theorem filled : {fields : List Field} → {spellings : Spellings fields} → {first : Bool} → {values : Values fields} →
    {place : Fin fields.length} → {front back : List Char} → ItemsGap fields spellings first values place front back →
    {value : (fields.get place).Value} → (spellings.get fields place).Writes value text →
    ItemsText fields spellings first (values.put fields place value) (front ++ (text ++ back))
  | _ :: _, (_, _), _, (_, _), ⟨0, _⟩, front, back, ⟨leads, tail⟩, _, writes =>
    ⟨front, text, back, leads, writes, tail, rfl⟩
  | _ :: _, (_, _), _, (_, _), ⟨_ + 1, _⟩, _, _, ⟨lead, item, later, leads, other, tail, shape⟩, _, writes =>
    ⟨lead, item, _, leads, other, tail.filled writes, by simp only [shape, List.append_assoc]⟩

theorem delimited : {fields : List Field} → {spellings : Spellings fields} → {values : Values fields} →
    {place : Fin fields.length} → {front back : List Char} → ItemsGap fields spellings false values place front back →
    Delimited (front ++ rest)
  | _ :: _, (_, _), (_, _), ⟨0, _⟩, _, _, ⟨leads, _⟩ => leads.delimited
  | _ :: _, (_, _), (_, _), ⟨_ + 1, _⟩, _, _, ⟨_, _, _, leads, _, _, shape⟩ => by
    rw [shape, List.append_assoc]
    exact leads.delimited

theorem closes : {fields : List Field} → {spellings : Spellings fields} → {first : Bool} → {values : Values fields} →
    {place : Fin fields.length} → {front back : List Char} → ItemsGap fields spellings first values place front back →
    Delimited (back ++ rest)
  | _ :: _, (_, _), _, (_, _), ⟨0, _⟩, _, _, ⟨_, tail⟩ => tail.delimited
  | _ :: _, (_, _), _, (_, _), ⟨_ + 1, _⟩, _, _, ⟨_, _, _, _, _, tail, _⟩ => tail.closes

end ItemsGap

theorem readItems_flawed (record : String) (size : Nat) {problem : Problem} (opens : Opens text) : (index : Nat) →
    {fields : List Field} → {spellings : Spellings fields} → {values : Values fields} → {place : Fin fields.length} →
    {front back : List Char} → ItemsGap fields spellings (index = 0) values place front back →
    (fields.get place).codec.read text = .error problem →
    readItems passOver record size index fields (front ++ text) = .error problem
  | index, _ :: _, (_, _), (_, _), ⟨0, _⟩, _, _, ⟨leads, _⟩, flawed => by
    rw [readItems_lead record size index leads opens]
    exact Reader.bind_of_error flawed
  | index, field :: fields, (spelling, spellings), (value, values), ⟨place + 1, below⟩, _, _,
      ⟨lead, item, later, leads, writes, tail, shape⟩, flawed => by
    have read : field.codec.read (item ++ (later ++ text)) = .ok (value, later ++ text) :=
      spelling.reads writes tail.delimited
    have failed : readItems passOver record size (index + 1) fields (later ++ text) = .error problem :=
      readItems_flawed record size opens (index + 1) (by simpa using tail) flawed
    rw [shape, List.append_assoc, List.append_assoc, readItems_lead record size index leads (spelling.opens writes),
      Reader.bind_of_ok read]
    exact Reader.bind_of_error failed

/-- The text of a record around the value of the field at this place. What stands there says nothing of that value, so
any may be named for it. -/
inductive RecordGap {fields : List Field} (spellings : Spellings fields) (values : Values fields)
    (place : Fin fields.length) : List Char → List Char → Prop where
  | object {last : Bool} {earlier later : List (Entry fields)} {start lead key before after back : List Char}
      (begins : MembersStart spellings true last earlier start) (leads : Lead last lead)
      (spells : Spells (fields.get place).name.toList key) (padding : Padding before) (padding' : Padding after)
      (ends : MembersText spellings false later back)
      (described : Describes (earlier ++ ⟨place, values.get fields place⟩ :: later) (.ok values)) :
      RecordGap spellings values place ('{' :: (start ++ (lead ++ naming key before after))) back
  | sequence {front back : List Char} (items : ItemsGap fields spellings true values place front back) :
      RecordGap spellings values place ('[' :: front) back

namespace RecordGap

theorem opens (gap : RecordGap spellings values place front back) : Opens (front ++ rest) := by
  cases gap <;> exact ⟨_, _, rfl, rfl⟩

theorem closes (gap : RecordGap spellings values place front back) : Delimited (back ++ rest) := by
  cases gap with
  | object begins leads spells padding padding' ends => exact ends.delimited
  | sequence items => exact items.closes

theorem filled (gap : RecordGap spellings values place front back) {value : (fields.get place).Value}
    (writes : (spellings.get fields place).Writes value text) :
    RecordText spellings (values.put fields place value) (front ++ (text ++ back)) := by
  cases gap with
  | object begins leads spells padding padding' ends described =>
    have members := begins.finish (.known ⟨place, value⟩ leads spells padding padding' writes ends)
    simpa only [List.cons_append, List.append_assoc] using RecordText.object members (described.exchange value)
  | sequence items => exact .sequence (items.filled writes)

theorem flawed (gap : RecordGap spellings values place front back) (distinct : (fields.map Field.name).Nodup)
    (record : String) (opens : Opens text) {problem : Problem}
    (problematic : (fields.get place).codec.read text = .error problem) :
    readRecord passOver record fields (front ++ text) = .error problem := by
  cases gap with
  | @object last earlier later start lead key before after back begins leads spells padding padding' ends described =>
    have named (rest : List Char) (later : last = false) : Delimited (lead ++ rest) := by
      subst later
      exact leads.delimited
    cases described with
    | complete once all agree =>
      simp only [List.map_append, List.map_cons] at once
      obtain ⟨once', -, apart⟩ := List.nodup_append.mp once
      have absent : place ∉ earlier.map Entry.place := fun mem => apart place mem place List.mem_cons_self rfl
      obtain ⟨gathered, made, -, kept⟩ :=
        gather_of_nodup earlier (Slots.empty fields) once' fun e _ => Slots.get_empty fields e.place
      have free : gathered.get fields place = none := by rw [kept place absent, Slots.get_empty]
      obtain ⟨fuel, enough, read⟩ := begins.members_start distinct (named (naming key before after ++ text))
        (Nat.le_refl _) (Slots.empty fields) made
      simp only [List.length_append, naming, List.length_cons] at enough
      obtain ⟨fuel, rfl⟩ := Nat.exists_eq_add_of_le' (show 1 ≤ fuel by omega)
      have failed : members passOver fields (fuel + 1) last gathered (lead ++ (naming key before after ++ text)) =
          .error problem :=
        members_flawed spellings leads spells padding padding' distinct free problematic
      rw [List.cons_append, readRecord_object, List.append_assoc, List.append_assoc, readMembers, read, failed]
  | sequence items =>
    rw [List.cons_append, readRecord_sequence]
    exact readItems_flawed record fields.length opens 0 items problematic

end RecordGap

end PeripheralLayer.Json
