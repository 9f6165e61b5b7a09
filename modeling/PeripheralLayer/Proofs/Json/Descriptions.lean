import PeripheralLayer.Descriptions
import PeripheralLayer.Proofs.Json.Records

/-!
The descriptions of the five records. A layout is the format of a record with a spelling for each field. A text
that describes a record is decoded by what its layout says, however it is presented.
-/
namespace PeripheralLayer

namespace Json

namespace Codec

variable {α : Type} {codec : Codec α} {text after : List Char}

theorem decode_of_read {a : α} (padding : Padding after) (taken : codec.read text = .ok (a, after)) :
    codec.decode (String.ofList text) = .ok a := by
  rw [decode, String.toList_ofList, Reader.run, taken]
  exact if_pos (List.all_eq_true.mpr padding)

theorem decode_of_problem {problem : Problem} (failed : codec.read text = .error problem) :
    codec.decode (String.ofList text) = .error problem := by
  rw [decode, String.toList_ofList, Reader.run, failed]

end Codec

structure Layout (α : Type) extends RecordFormat α where
  undo : ∀ a, make (split a) = a
  spellings : Spellings fields
  distinct : (fields.map Field.name).Nodup

namespace Layout

variable {α : Type} (layout : Layout α)

def spelling : Spelling layout.codec :=
  (Spelling.record layout.name layout.fields layout.spellings layout.distinct).map layout.make layout.split layout.undo

def answer : Except Mismatch (Values layout.fields) → Except Problem α
  | .error mismatch => .error (.data mismatch)
  | .ok values => .ok (layout.make values)

variable {layout} {entries : List (Entry layout.fields)} {values : Values layout.fields} {text before after : List Char}

theorem read_of_record (padding : Padding before)
    (taken : readRecord passOver layout.name layout.fields text = .ok (values, after)) :
    layout.codec.read (before ++ text) = .ok (layout.make values, after) := by
  rw [layout.spelling.skips padding]
  exact Reader.bind_of_ok taken

theorem read_of_problem {problem : Problem} (padding : Padding before)
    (failed : readRecord passOver layout.name layout.fields text = .error problem) :
    layout.codec.read (before ++ text) = .error problem := by
  rw [layout.spelling.skips padding]
  exact Reader.bind_of_error failed

theorem decode_of_members (shape : MembersText layout.spellings true entries text) (padding : Padding before)
    (padding' : Padding after) :
    layout.codec.decode (String.ofList (before ++ ('{' :: (text ++ after)))) =
      layout.answer (settle layout.fields entries) := by
  have read := readMembers_of_text shape layout.distinct after
  cases settled : settle layout.fields entries with
  | error mismatch =>
    rw [settled] at read
    exact Codec.decode_of_problem (read_of_problem padding read)
  | ok values =>
    rw [settled] at read
    exact Codec.decode_of_read padding' (read_of_record padding read)

theorem decode_of_items (items : ItemsText layout.fields layout.spellings true values text)
    (padding : Padding before) (padding' : Padding after) :
    layout.codec.decode (String.ofList (before ++ ('[' :: (text ++ after)))) = layout.answer (.ok values) := by
  have shape : RecordText layout.spellings values ('[' :: text) := .sequence items
  have read : readRecord passOver layout.name layout.fields ('[' :: text ++ after) = .ok (values, after) :=
    readRecord_of_text layout.name shape layout.distinct
  exact Codec.decode_of_read padding' (read_of_record padding read)

end Layout

end Json

open Json

def Pin.layout : Layout Pin :=
  { Pin.format with
    undo := fun _ => rfl
    spellings := (.byte, .byte, ())
    distinct := by decide }

def Pin.spelling : Spelling Pin.codec := Pin.layout.spelling

def BusPins.layout : Layout BusPins :=
  { BusPins.format with
    undo := fun _ => rfl
    spellings := (Pin.spelling, Pin.spelling, ())
    distinct := by decide }

def Bus.BlockConfig.layout : Layout Bus.BlockConfig :=
  { Bus.BlockConfig.format with
    undo := fun _ => rfl
    spellings := (.choice Bus.Role, .byte, .fullWord, ())
    distinct := by decide }

def Bus.Config.layout : Layout Bus.Config :=
  { Bus.Config.format with
    undo := fun _ => rfl
    spellings := (.halfWord, .byte, .choice Bus.ReinitPolicy, .choice Bus.DispatchMode, ())
    distinct := by decide }

def Clock.CounterConfig.layout : Layout Clock.CounterConfig :=
  { Clock.CounterConfig.format with
    undo := fun _ => rfl
    spellings := (.fullWord, .fullWord, .choice Clock.CountDirection, .flag, .flag, .fullWord, ())
    distinct := by decide }

namespace Subject

def layout? : (subject : Subject) → Option (Layout subject.Value)
  | pin => some Pin.layout
  | busPins => some BusPins.layout
  | blockConfig => some Bus.BlockConfig.layout
  | counterConfig => some Clock.CounterConfig.layout
  | mediatorConfig => some Bus.Config.layout
  | status | event | role | countDirection | reinitPolicy | dispatchMode => none

theorem codec_of_layout? {subject : Subject} {layout : Layout subject.Value}
    (described : subject.layout? = some layout) : layout.codec = subject.codec := by
  cases subject <;> cases described <;> rfl

end Subject

/-- A text that describes a record is decoded by what it says and not by how it is presented. An object may
list its members in any order, with any blanks and escapes, and among members of other names whose values are
well-formed: what its entries describe is what it is decoded to. A sequence of all the values, with any
blanks, is the record with these values. -/
theorem record_decoded_by_content {subject : Subject} {layout : Layout subject.Value}
    (described : subject.layout? = some layout) {before after : List Char} (padding : Padding before)
    (padding' : Padding after) :
    (∀ entries text, MembersText layout.spellings true entries text →
      (∃ outcome, Describes entries outcome) ∧ ∀ outcome, Describes entries outcome →
        subject.codec.decode (String.ofList (before ++ ('{' :: (text ++ after)))) = layout.answer outcome) ∧
    (∀ values text, ItemsText layout.fields layout.spellings true values text →
      subject.codec.decode (String.ofList (before ++ ('[' :: (text ++ after)))) = layout.answer (.ok values)) := by
  rw [← Subject.codec_of_layout? described]
  constructor
  · intro entries text shape
    refine ⟨exists_describes entries, fun outcome describes => ?_⟩
    rw [Layout.decode_of_members shape padding padding', describes.settles]
  · intro values text items
    exact Layout.decode_of_items items padding padding'

/-- A pair of pins with its fields turned around, one of them a sequence, an escape in a name, blanks, and a
member nobody asked for. -/
def scatteredPins : String :=
  "\x7b \"scl\":[1,7],\"x\" :[null],\"\\u0073da\":\x7b\"pin\":5,\"port\":0\x7d\x7d\n"

theorem scattered_pins_decoded : BusPins.codec.decode scatteredPins = .ok ⟨⟨0, 5⟩, ⟨1, 7⟩⟩ := by
  have digit (n : UInt8) (c : Char) (figure : c.isDigit = true) (value : Decimal.digitValue c = n.toNat) :
      Spelling.byte.Writes n [c] := by
    have word : WordText 8 n.toNat [c] :=
      ⟨⟨⟨by simp, by simpa using figure⟩, by simp⟩, by simp [Decimal.digitsValue, value], n.toNat_lt⟩
    exact word
  have zero := digit 0 '0' rfl rfl
  have one := digit 1 '1' rfl rfl
  have five := digit 5 '5' rfl rfl
  have seven := digit 7 '7' rfl rfl
  have blank : Padding [' '] := by simp [Padding, Reader.isBlank]
  have scl : Pin.spelling.Writes ⟨1, 7⟩ _ :=
    .sequence ⟨_, _, _, .first .nil, one, ⟨_, _, _, .later .nil .nil, seven, ⟨_, .nil, rfl⟩, rfl⟩, rfl⟩
  let pin : Json.Entry Pin.layout.fields := ⟨⟨1, by decide⟩, (5 : UInt8)⟩
  let port : Json.Entry Pin.layout.fields := ⟨⟨0, by decide⟩, (0 : UInt8)⟩
  have members : MembersText Pin.layout.spellings true [pin, port] _ :=
    .known pin (.first .nil) (.itself _ (by decide)) .nil .nil five
      (.known port (.later .nil .nil) (.itself _ (by decide)) .nil .nil zero (.close .nil))
  have sda : Pin.spelling.Writes ⟨0, 5⟩ _ := .object members
    (.complete (by decide) (by decide) (List.forall_mem_cons.mpr ⟨rfl, List.forall_mem_singleton.mpr rfl⟩))
  let first : Json.Entry BusPins.layout.fields := ⟨⟨1, by decide⟩, (⟨1, 7⟩ : Pin)⟩
  let last : Json.Entry BusPins.layout.fields := ⟨⟨0, by decide⟩, (⟨0, 5⟩ : Pin)⟩
  have escaped : Spells last.name.toList ['\\', 'u', '0', '0', '7', '3', 'd', 'a'] := by
    have unit : hexUnit? '0' '0' '7' '3' = some 0x73 := by decide
    have letters : last.name.toList = [Char.ofNat 0x73, 'd', 'a'] := by decide
    rw [letters]
    exact .unit unit (by decide) (.itself ['d', 'a'] (by decide))
  have unasked : WellFormed .value ['[', 'n', 'u', 'l', 'l', ']'] :=
    .sequence (.item (.first .nil) .null (.noItem .nil))
  have shape : MembersText BusPins.layout.spellings true [first, last] _ :=
    .known first (.first blank) (.itself _ (by decide)) .nil .nil scl
      (.unknown "x" (by decide) (.later .nil .nil) (.itself ['x'] (by decide)) blank .nil unasked
        (.known last (.later .nil .nil) escaped .nil .nil sda (.close .nil)))
  have described : Describes [first, last] (.ok (⟨0, 5⟩, ⟨1, 7⟩, ())) :=
    .complete (by decide) (by decide) (List.forall_mem_cons.mpr ⟨rfl, List.forall_mem_singleton.mpr rfl⟩)
  have decoded := ((record_decoded_by_content (rfl : Subject.busPins.layout? = some BusPins.layout) .nil
    (show Padding ['\n'] by simp [Padding, Reader.isBlank])).1 [first, last] _ shape).2 _ described
  refine (congrArg BusPins.codec.decode (String.toList_inj.mp ?_)).trans decoded
  rw [String.toList_ofList]
  decide

end PeripheralLayer
