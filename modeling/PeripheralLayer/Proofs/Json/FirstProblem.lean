import Mathlib.Data.List.TakeWhile
import PeripheralLayer.Descriptions
import PeripheralLayer.Proofs.Json.Scan

/-!
The first problem of a text is the one that is reported. A reader goes from left to right and does not look ahead, so
what it made of a text stays as it is when more follows, unless the text was too short for it. The only thing that a
text's end alone decides is where a numeral ends, so what follows must not prolong one. The only problem that is judged
by what follows is a comma behind the last item of a sequence that is full. `Reader.Keeps` says this of two readers,
since the budgets of the recursive ones grow with the text.
-/
namespace PeripheralLayer.Json

def prolongsNumeral (c : Char) : Bool := continuesNumeral c || c = '+' || c = '-'

/-- What follows a text does not prolong a numeral at its end. -/
def Detached (more : List Char) : Prop := Avoids prolongsNumeral more

def EndsInComma (text : List Char) : Prop := ∃ pad, Padding pad ∧ ',' :: pad <:+ text

namespace Reader

variable {α β : Type} {more text rest : List Char}

/-- What came of a text, and what comes of it with more behind it. -/
inductive Kept {α : Type} (more text : List Char) :
    Except Problem (α × List Char) → Except Problem (α × List Char) → Prop where
  | short {later : Except Problem (α × List Char)} : Kept more text (.error .truncated) later
  | taken {rest : List Char} (a : α) (left : rest <:+ text) : Kept more text (.ok (a, rest)) (.ok (a, rest ++ more))
  | stands {problem : Problem} (closed : problem ≠ .malformed .commaOpen) :
      Kept more text (.error problem) (.error problem)
  | judgedAgain (ends : EndsInComma text) :
      Kept more text (.error (.malformed .commaOpen)) (.error (.malformed (surplusComma more)))

theorem Kept.behind {before after : Except Problem (α × List Char)} (kept : Kept more rest before after)
    (left : rest <:+ text) : Kept more text before after := by
  cases kept with
  | short => exact .short
  | taken a left' => exact .taken a (left'.trans left)
  | stands closed => exact .stands closed
  | judgedAgain ends =>
    obtain ⟨pad, padding, ends⟩ := ends
    exact .judgedAgain ⟨pad, padding, ends.trans left⟩

/-- What `x` makes of a text, `y` makes of it with more behind it, unless the text is too short for `x`. -/
def Keeps (more : List Char) (x y : Reader α) : Prop := ∀ text, Kept more text (x text) (y (text ++ more))

abbrev Steady (more : List Char) (x : Reader α) : Prop := Keeps more x x

theorem Keeps.bind {x y : Reader α} {f g : α → Reader β} (first : Keeps more x y)
    (then' : ∀ a, Keeps more (f a) (g a)) : Keeps more (x >>= f) (y >>= g) := by
  intro text
  have kept := first text
  generalize before : x text = outcome, after : y (text ++ more) = outcome' at kept
  cases kept with
  | short =>
    rw [bind_of_error before]
    exact .short
  | @taken rest a left =>
    rw [bind_of_ok before, bind_of_ok after]
    exact (then' a rest).behind left
  | stands closed =>
    rw [bind_of_error before, bind_of_error after]
    exact .stands closed
  | judgedAgain ends =>
    rw [bind_of_error before, bind_of_error after]
    exact .judgedAgain ends

theorem steady_pure (a : α) : Steady more (pure a : Reader α) := fun text => .taken a text.suffix_refl

theorem steady_fail {problem : Problem} (closed : problem ≠ .malformed .commaOpen) :
    Steady more (fail problem : Reader α) := fun _ => .stands closed

theorem steady_next : Steady more next := by
  intro text
  cases text with
  | nil => exact .short
  | cons c rest => exact .taken c (rest.suffix_cons c)

section Blanks

variable {p : Char → Bool} {c : Char}

theorem dropWhile_append_of_cons (found : text.dropWhile p = c :: rest) :
    (text ++ more).dropWhile p = c :: (rest ++ more) := by
  rw [List.dropWhile_append, found]
  rfl

theorem suffix_of_dropWhile (found : text.dropWhile p = c :: rest) : c :: rest <:+ text :=
  found ▸ List.dropWhile_suffix p

theorem token_of_dropWhile (found : text.dropWhile isBlank = c :: rest) : token text = .ok (c, rest) := by
  rw [token, found, next]

theorem token_of_blanks (blanks : text.dropWhile isBlank = []) : token text = .error .truncated := by
  rw [token, blanks, next]

theorem steady_token : Steady more token := by
  intro text
  cases found : text.dropWhile isBlank with
  | nil =>
    rw [token_of_blanks found]
    exact .short
  | cons c rest =>
    rw [token_of_dropWhile found, token_of_dropWhile (dropWhile_append_of_cons found)]
    exact .taken c ((rest.suffix_cons c).trans (suffix_of_dropWhile found))

theorem steady_peek : Steady more peek := by
  intro text
  cases found : text.dropWhile isBlank with
  | nil =>
    simp only [peek, found]
    exact .short
  | cons c rest =>
    simp only [peek, found, dropWhile_append_of_cons found]
    exact .taken c (suffix_of_dropWhile found)

end Blanks

theorem steady_expect (c : Char) {flaw : Flaw} (closed : flaw ≠ .commaOpen) : Steady more (expect c flaw) := by
  refine steady_token.bind fun d => ?_
  split
  · exact steady_pure ()
  · exact steady_fail (by simpa using closed)

theorem steady_word (chars : List Char) : Steady more (word chars) := by
  induction chars with
  | nil => exact steady_pure ()
  | cons c chars ih =>
    refine steady_next.bind fun d => ?_
    split
    · exact ih
    · exact steady_fail (by simp)

end Reader

open Reader

/-! Numerals. -/

section Numerals

variable {more choices : List Char} {atEnd : Problem}

theorem steady_oneOf? (avoids : Avoids choices.contains more) : Steady more (oneOf? choices) := by
  intro text
  cases text with
  | nil =>
    rw [List.nil_append, oneOf?_of_avoids avoids]
    exact .taken none List.nil_suffix
  | cons c text =>
    simp only [List.cons_append, oneOf?]
    split
    · exact .taken (some c) (text.suffix_cons c)
    · exact .taken none (List.suffix_refl _)

theorem Detached.delimited (detached : Detached more) : Delimited more :=
  detached.weaken fun c continues => by simp [prolongsNumeral, continues]

theorem Detached.unsigned (detached : Detached more) : Avoids ['+', '-'].contains more :=
  detached.weaken fun c sign => by simp_all [prolongsNumeral, or_assoc]

theorem span_of_avoids {p : Char → Bool} (avoids : Avoids p more) (text : List Char) :
    (text ++ more).takeWhile p = text.takeWhile p ∧ (text ++ more).dropWhile p = text.dropWhile p ++ more := by
  induction text with
  | nil =>
    cases more with
    | nil => exact ⟨rfl, rfl⟩
    | cons c more => simp [show p c = false from avoids]
  | cons c text ih =>
    cases yes : p c with
    | false => simp [yes]
    | true => simpa [yes] using ih

theorem steady_someDigits (ends : atEnd = .truncated ∨ atEnd = .malformed .badNumber)
    (avoids : Avoids Char.isDigit more) : Steady more (someDigits atEnd) := by
  intro text
  cases text with
  | nil =>
    rcases ends with rfl | rfl
    · exact .short
    · have same : someDigits (.malformed .badNumber) more = .error (.malformed .badNumber) := by
        cases more with
        | nil => rfl
        | cons c more => simp [someDigits, show c.isDigit = false from avoids]
      rw [List.nil_append, same]
      exact .stands (by simp)
  | cons c text =>
    obtain ⟨digits, behind⟩ := span_of_avoids avoids (c :: text)
    rw [List.cons_append] at digits behind ⊢
    simp only [someDigits, Reader.digits, digits, behind]
    split
    · exact .taken _ (List.dropWhile_suffix _)
    · exact .stands (by simp)

theorem steady_fractionPart (ends : atEnd = .truncated ∨ atEnd = .malformed .badNumber) (detached : Detached more) :
    Steady more (fractionPart atEnd) := by
  refine (steady_oneOf? detached.delimited.pointless).bind fun point => ?_
  cases point with
  | none => exact steady_pure none
  | some c => exact (steady_someDigits ends detached.delimited.undigited).bind fun digits => steady_pure _

theorem steady_exponentPart (ends : atEnd = .truncated ∨ atEnd = .malformed .badNumber) (detached : Detached more) :
    Steady more (exponentPart atEnd) := by
  refine (steady_oneOf? detached.delimited.markless).bind fun mark => ?_
  cases mark with
  | none => exact steady_pure none
  | some c =>
    refine (steady_oneOf? detached.unsigned).bind fun sign => ?_
    exact (steady_someDigits ends detached.delimited.undigited).bind fun digits => steady_pure _

theorem Detached.signless (detached : Detached more) : Avoids ['-'].contains more :=
  detached.weaken fun c sign => by simp_all [prolongsNumeral]

theorem steady_numeral (ends : atEnd = .truncated ∨ atEnd = .malformed .badNumber) (detached : Detached more) :
    Steady more (numeral atEnd) := by
  refine (steady_oneOf? detached.signless).bind fun sign => ?_
  refine (steady_someDigits ends detached.delimited.undigited).bind fun whole => ?_
  split
  · exact steady_fail (by simp)
  · refine (steady_fractionPart ends detached).bind fun fraction => ?_
    exact (steady_exponentPart ends detached).bind fun exponent => steady_pure _

theorem steady_number (detached : Detached more) : Steady more number := by
  refine (steady_numeral (.inl rfl) detached).bind fun n => ?_
  split
  · exact steady_pure _
  · exact steady_fail (by simp)

end Numerals

/-! Quoted texts. -/

section Quoted

variable {more : List Char}

theorem unitTurn_ne_commaOpen (waiting : Option Nat) (unit : Nat) : unitTurn waiting unit ≠ .error .commaOpen := by
  fun_cases unitTurn waiting unit <;> simp

theorem digitsTurn_ne_commaOpen (paired : Bool) (waiting : Option Nat) (seen : Nat) (value : Option Nat) (c : Char) :
    digitsTurn paired waiting seen value c ≠ .error .commaOpen := by
  fun_cases digitsTurn paired waiting seen value c <;> simp [unitTurn_ne_commaOpen]

theorem turn_ne_commaOpen (paired : Bool) (state : QuotedState) (c : Char) :
    state.turn paired c ≠ .error .commaOpen := by
  fun_cases QuotedState.turn paired state c <;> simp [digitsTurn_ne_commaOpen]

theorem steady_quotedFrom (paired : Bool) (state : QuotedState) : Steady more (quotedFrom paired state) := by
  intro text
  induction text generalizing state with
  | nil => exact .short
  | cons c text ih =>
    simp only [List.cons_append, quotedFrom]
    cases turn : state.turn paired c with
    | error flaw =>
      refine .stands ?_
      rintro ⟨⟩
      exact turn_ne_commaOpen paired state c turn
    | ok done =>
      cases done with
      | close => exact .taken [] (text.suffix_cons c)
      | go next out =>
        have kept := (ih next).behind (text.suffix_cons c)
        dsimp only
        generalize quotedFrom paired next text = outcome, quotedFrom paired next (text ++ more) = outcome' at kept ⊢
        cases kept with
        | short => exact .short
        | taken chars left => exact .taken _ left
        | stands closed => exact .stands closed
        | judgedAgain ends => exact .judgedAgain ends

theorem quotedText_eq :
    quotedText = (do pure (String.ofList (← (quotedFrom true .plain : Reader (List Char))))) := by
  funext text
  change quotedText text = (quotedFrom true .plain text >>= fun pair => .ok (String.ofList pair.1, pair.2))
  unfold quotedText
  split <;> rename_i taken <;> rw [taken] <;> rfl

theorem skipQuoted_eq : skipQuoted = (do let _ ← (quotedFrom false .plain : Reader (List Char)); pure ()) := by
  funext text
  change skipQuoted text = (quotedFrom false .plain text >>= fun pair => .ok ((), pair.2))
  unfold skipQuoted
  split <;> rename_i taken <;> rw [taken] <;> rfl

theorem steady_quotedText : Steady more quotedText := by
  rw [quotedText_eq]
  exact (steady_quotedFrom true .plain).bind fun chars => steady_pure _

theorem steady_skipQuoted : Steady more skipQuoted := by
  rw [skipQuoted_eq]
  exact (steady_quotedFrom false .plain).bind fun chars => steady_pure ()

end Quoted

/-! Values that are skipped. -/

section Skipping

variable {more : List Char} {fuel fuel' : Nat} {what : Skipped}

theorem steady_comma (first : Bool) {flaw : Flaw} (closed : flaw ≠ .commaOpen) : Steady more (comma first flaw) := by
  cases first with
  | true => exact steady_pure ()
  | false => exact steady_expect ',' closed

theorem skipWithin_keeps (detached : Detached more) (enough : fuel ≤ fuel') :
    Keeps more (skipWithin fuel what) (skipWithin fuel' what) := by
  induction fuel generalizing fuel' what with
  | zero => exact fun text => .short
  | succ fuel ih =>
    -- The larger budget is for the longer text, and the two go down together.
    obtain ⟨fuel', rfl⟩ := Nat.exists_eq_add_of_le' (show 1 ≤ fuel' by omega)
    have inner (what : Skipped) : Keeps more (skipWithin fuel what) (skipWithin fuel' what) := ih (by omega)
    cases what with
    | value =>
      refine steady_peek.bind fun c => ?_
      split
      · exact (steady_numeral (.inr rfl) detached).bind fun _ => steady_pure ()
      · refine steady_next.bind fun _ => ?_
        split
        · exact steady_word _
        · exact steady_word _
        · exact steady_word _
        · exact steady_skipQuoted
        · exact inner _
        · exact inner _
        · exact steady_fail (by simp)
    | items first =>
      refine steady_peek.bind fun c => ?_
      split
      · exact steady_next.bind fun _ => steady_pure ()
      · refine (steady_comma first (by decide)).bind fun _ => ?_
        exact (inner .value).bind fun _ => inner (.items false)
    | members first =>
      refine steady_peek.bind fun c => ?_
      split
      · exact steady_next.bind fun _ => steady_pure ()
      · refine (steady_comma first (by decide)).bind fun _ => ?_
        refine (steady_expect '"' (by decide)).bind fun _ => ?_
        refine steady_skipQuoted.bind fun _ => ?_
        refine (steady_expect ':' (by decide)).bind fun _ => ?_
        exact (inner .value).bind fun _ => inner (.members false)

theorem steady_passOver (detached : Detached more) : Steady more passOver := by
  refine (steady_expect ':' (by decide)).bind fun _ text => skipWithin_keeps detached ?_ text
  simp only [List.length_append]
  omega

end Skipping

/-! Values that are read. -/

section Values

variable {more : List Char} {α : Type}

theorem steady_found (detached : Detached more) : Steady more found := by
  refine steady_peek.bind fun c => ?_
  split
  · refine (steady_number detached).bind fun n => ?_
    cases n <;> exact steady_pure _
  · refine steady_next.bind fun _ => ?_
    split
    · exact (steady_word _).bind fun _ => steady_pure _
    · exact (steady_word _).bind fun _ => steady_pure _
    · exact (steady_word _).bind fun _ => steady_pure _
    · exact steady_quotedText.bind fun _ => steady_pure _
    · exact steady_pure _
    · exact steady_pure _
    · exact steady_fail (by simp)

theorem steady_mismatch (detached : Detached more) (expected : String) :
    Steady more (mismatch expected : Reader α) :=
  (steady_found detached).bind fun _ => steady_fail (by simp)

theorem steady_readWord (detached : Detached more) (bits : Nat) : Steady more (readWord bits) := by
  refine steady_peek.bind fun c => ?_
  split
  · refine (steady_number detached).bind fun n => ?_
    cases n with
    | integer value =>
      dsimp only
      split
      · exact steady_pure _
      · exact steady_fail (by simp)
    | floating value => exact steady_fail (by simp)
  · exact steady_mismatch detached _

theorem steady_readFlag (detached : Detached more) : Steady more readFlag := by
  refine steady_peek.bind fun c => ?_
  split
  · exact (steady_word _).bind fun _ => steady_pure _
  · exact (steady_word _).bind fun _ => steady_pure _
  · exact steady_mismatch detached _

theorem steady_readUnit (detached : Detached more) : Steady more readUnit := by
  refine steady_peek.bind fun c => ?_
  split
  · exact steady_word _
  · exact steady_mismatch detached _

theorem steady_readVariant [Enumerated α] : Steady more (readVariant α) := by
  refine steady_quotedText.bind fun name => ?_
  split
  · exact steady_pure _
  · exact steady_fail (by simp)

theorem steady_readChoice [Enumerated α] (detached : Detached more) : Steady more (readChoice α) := by
  refine steady_token.bind fun c => ?_
  split
  · exact steady_readVariant
  · refine (steady_expect '"' (by decide)).bind fun _ => ?_
    refine steady_readVariant.bind fun a => ?_
    refine (steady_expect ':' (by decide)).bind fun _ => ?_
    refine (steady_readUnit detached).bind fun _ => ?_
    exact (steady_expect '}' (by decide)).bind fun _ => steady_pure a
  · exact steady_fail (by simp)

end Values

/-! Records. -/

section Records

variable {more : List Char} {fuel fuel' : Nat}

def SteadyFields (more : List Char) (fields : List Field) : Prop := ∀ field ∈ fields, Steady more field.codec.read

theorem steady_member (detached : Detached more) (name : String) : (fields : List Field) → (slots : Slots fields) →
    SteadyFields more fields → Steady more (slots.member passOver fields name)
  | [], (), _ => steady_passOver detached
  | field :: fields, (slot, slots), steady => by
    have first : Steady more field.codec.read := steady field List.mem_cons_self
    have others : SteadyFields more fields := fun other mem => steady other (List.mem_cons_of_mem field mem)
    simp only [Slots.member]
    split
    · cases slot with
      | some value => exact steady_fail (by simp)
      | none =>
        refine (steady_expect ':' (by decide)).bind fun _ => ?_
        exact first.bind fun value => steady_pure _
    · exact (steady_member detached name fields slots others).bind fun slots => steady_pure _

theorem steady_openName : Steady more openName := by
  refine steady_token.bind fun c => ?_
  split
  · exact steady_pure ()
  · exact steady_fail (by simp)
  · exact steady_fail (by simp)

theorem members_keeps (detached : Detached more) {fields : List Field} (steady : SteadyFields more fields)
    (enough : fuel ≤ fuel') (first : Bool) (slots : Slots fields) :
    Keeps more (members passOver fields fuel first slots) (members passOver fields fuel' first slots) := by
  induction fuel generalizing fuel' first slots with
  | zero => exact fun text => .short
  | succ fuel ih =>
    obtain ⟨fuel', rfl⟩ := Nat.exists_eq_add_of_le' (show 1 ≤ fuel' by omega)
    refine steady_peek.bind fun c => ?_
    split
    · exact steady_next.bind fun _ => steady_pure slots
    · refine (steady_comma first (by decide)).bind fun _ => ?_
      refine steady_openName.bind fun _ => ?_
      refine steady_quotedText.bind fun name => ?_
      refine (steady_member detached name fields slots steady).bind fun slots => ?_
      exact ih (by omega) false slots

def conclude (fields : List Field) (slots : Slots fields) : Reader (Values fields) :=
  match slots.values fields with
  | .error mismatch => Reader.fail (.data mismatch)
  | .ok values => pure values

theorem readMembers_eq (foreign : Reader Unit) (fields : List Field) (text : List Char) :
    readMembers foreign fields text =
      (members foreign fields text.length true (Slots.empty fields) >>= conclude fields) text := by
  simp only [readMembers]
  cases taken : members foreign fields text.length true (Slots.empty fields) text with
  | error problem => rw [bind_of_error taken]
  | ok pair =>
    obtain ⟨slots, rest⟩ := pair
    rw [bind_of_ok taken, conclude]
    dsimp only
    cases slots.values fields <;> rfl

theorem steady_readMembers (detached : Detached more) {fields : List Field} (steady : SteadyFields more fields) :
    Steady more (readMembers passOver fields) := by
  intro text
  have enough : text.length ≤ (text ++ more).length := by simp
  rw [readMembers_eq, readMembers_eq]
  refine Keeps.bind (members_keeps detached steady enough true _) (fun slots => ?_) text
  unfold conclude
  split
  · exact steady_fail (by simp)
  · exact steady_pure _

theorem kept_surplusComma {α : Type} {text rest : List Char} (left : ',' :: rest <:+ text) :
    Kept more text (.error (.malformed (surplusComma rest)) : Except Problem (α × List Char))
      (.error (.malformed (surplusComma (rest ++ more)))) := by
  cases found : rest.dropWhile isBlank with
  | nil =>
    -- Only blanks follow the comma, so whatever comes behind them decides.
    have padding : Padding rest := List.dropWhile_eq_nil_iff.mp found
    have open' : surplusComma rest = .commaOpen := by rw [surplusComma, found]
    have later : surplusComma (rest ++ more) = surplusComma more := by
      simp only [surplusComma, dropWhile_padding padding]
    rw [open', later]
    exact .judgedAgain ⟨rest, padding, left⟩
  | cons d behind =>
    have same : surplusComma (rest ++ more) = surplusComma rest := by
      simp only [surplusComma, found, dropWhile_append_of_cons found]
    have closed : surplusComma rest ≠ .commaOpen := by
      simp only [surplusComma, found]
      split <;> simp
    rw [same]
    exact .stands (by simpa using closed)

theorem steady_closeItems : Steady more closeItems := by
  intro text
  cases found : text.dropWhile isBlank with
  | nil =>
    rw [closeItems, bind_of_error (token_of_blanks found)]
    exact .short
  | cons c rest =>
    rw [closeItems, bind_of_ok (token_of_dropWhile found),
      bind_of_ok (token_of_dropWhile (dropWhile_append_of_cons found))]
    have left := suffix_of_dropWhile found
    split
    · exact .taken () ((rest.suffix_cons _).trans left)
    · exact kept_surplusComma left
    · exact .stands (by simp)

theorem steady_readItems (record : String) (size : Nat) : (index : Nat) → (fields : List Field) →
    SteadyFields more fields → Steady more (readItems passOver record size index fields)
  | _, [], _ => steady_closeItems
  | index, field :: fields, steady => by
    have first : Steady more field.codec.read := steady field List.mem_cons_self
    have others : SteadyFields more fields := fun other mem => steady other (List.mem_cons_of_mem field mem)
    refine steady_peek.bind fun c => ?_
    split
    · exact steady_fail (by simp)
    · refine (steady_comma _ (by decide)).bind fun _ => ?_
      refine steady_peek.bind fun d => ?_
      split
      · exact steady_fail (by simp)
      · refine first.bind fun value => ?_
        exact (steady_readItems record size (index + 1) fields others).bind fun values => steady_pure _

theorem steady_readRecord (detached : Detached more) (record : String) {fields : List Field}
    (steady : SteadyFields more fields) : Steady more (readRecord passOver record fields) := by
  refine steady_peek.bind fun c => ?_
  split
  · exact steady_next.bind fun _ => steady_readMembers detached steady
  · exact steady_next.bind fun _ => steady_readItems record _ 0 fields steady
  · exact steady_mismatch detached _

end Records

/-! Descriptions. -/

section Descriptions

variable {more : List Char} {α β : Type}

theorem steady_map {codec : Codec α} (steady : Steady more codec.read) (make : α → β) (split : β → α) :
    Steady more (codec.map make split).read :=
  steady.bind fun _ => steady_pure _

theorem RecordFormat.steady (detached : Detached more) (format : RecordFormat α)
    (steady : SteadyFields more format.fields) : Steady more format.codec.read :=
  steady_map (steady_readRecord detached format.name steady) format.make format.split

theorem steady_byte (detached : Detached more) : Steady more byte.read := steady_map (steady_readWord detached 8) _ _

theorem steady_halfWord (detached : Detached more) : Steady more halfWord.read :=
  steady_map (steady_readWord detached 16) _ _

theorem steady_fullWord (detached : Detached more) : Steady more fullWord.read :=
  steady_map (steady_readWord detached 32) _ _

end Descriptions

end PeripheralLayer.Json

namespace PeripheralLayer

open Json Json.Reader

variable {more : List Char}

theorem Pin.steady (detached : Detached more) : Steady more Pin.codec.read :=
  Pin.format.steady detached (by simp [SteadyFields, Pin.format, steady_byte detached])

theorem Subject.steady (detached : Detached more) (subject : Subject) : Steady more subject.codec.read := by
  have choice (α : Type) [Enumerated α] : Steady more (choice α).read := steady_readChoice detached
  have flag : Steady more flag.read := steady_readFlag detached
  cases subject with
  | status => exact choice Status
  | event => exact choice Event
  | role => exact choice Bus.Role
  | countDirection => exact choice Clock.CountDirection
  | reinitPolicy => exact choice Bus.ReinitPolicy
  | dispatchMode => exact choice Bus.DispatchMode
  | pin => exact Pin.steady detached
  | busPins => exact BusPins.format.steady detached (by simp [SteadyFields, BusPins.format, Pin.steady detached])
  | blockConfig =>
    refine Bus.BlockConfig.format.steady detached ?_
    simp [SteadyFields, Bus.BlockConfig.format, steady_byte detached, steady_fullWord detached, Bus.Role.codec, choice]
  | counterConfig =>
    refine Clock.CounterConfig.format.steady detached ?_
    simp [SteadyFields, Clock.CounterConfig.format, steady_fullWord detached, flag, Clock.CountDirection.codec, choice]
  | mediatorConfig =>
    refine Bus.Config.format.steady detached ?_
    simp [SteadyFields, Bus.Config.format, steady_byte detached, steady_halfWord detached, Bus.ReinitPolicy.codec,
      Bus.DispatchMode.codec, choice]

theorem run_append_of_error {α : Type} {reader : Reader α} {text : List Char} {problem : Problem}
    (steady : Steady more reader) (told : problem ≠ .truncated) (found : reader.run text = .error problem) :
    problem ≠ .malformed .commaOpen ∧ reader.run (text ++ more) = .error problem ∨
      problem = .malformed .commaOpen ∧ EndsInComma text ∧
        reader.run (text ++ more) = .error (.malformed (surplusComma more)) := by
  have kept := steady text
  simp only [Reader.run] at found ⊢
  generalize reader text = outcome, reader (text ++ more) = outcome' at kept found ⊢
  cases kept with
  | short => exact absurd (Except.error.inj found).symm told
  | @taken rest value left =>
    -- The value was complete, so the problem is that something else than blanks follows it.
    cases blank : rest.all isBlank with
    | true => simp [blank] at found
    | false =>
      obtain rfl : .malformed .textLeft = problem := by simpa [blank] using found
      exact .inl ⟨by simp, by simp [blank]⟩
  | stands closed =>
    obtain rfl := Except.error.inj found
    exact .inl ⟨closed, rfl⟩
  | judgedAgain ends =>
    obtain rfl := Except.error.inj found
    exact .inr ⟨rfl, ends, rfl⟩

/-- The comma that was the problem of a text is followed by a closing bracket. -/
def CommaClosed (problem : Problem) (more : List Char) : Prop :=
  problem = .malformed .commaOpen ∧ (more.dropWhile isBlank).head? = some ']'

theorem message_surplusComma (more : List Char) :
    (surplusComma more).message =
      if (more.dropWhile isBlank).head? = some ']' then "trailing comma" else "trailing characters" := by
  unfold surplusComma
  cases more.dropWhile isBlank with
  | nil => rfl
  | cons c rest =>
    simp only [List.head?_cons, Option.some.injEq]
    split <;> rfl

/-- A text that has a problem other than its end has a problem of the same kind and with the same message whatever
follows, as long as that does not prolong a numeral: nothing behind the first problem is looked at. There is one
exception. A comma behind the last item of a sequence that is full is a trailing comma if the closing bracket comes
next, and any other surplus otherwise, so its message can change as long as nothing but blanks follows it. -/
theorem first_problem_stands (subject : Subject) {text more : String} {problem : Problem}
    (found : subject.codec.decode text = .error problem) (told : problem ≠ .truncated)
    (detached : Detached more.toList) :
    ∃ problem', subject.codec.decode (text ++ more) = .error problem' ∧ problem'.kind = problem.kind ∧
      (¬ CommaClosed problem more.toList → problem'.message? = problem.message?) ∧
      (CommaClosed problem more.toList → EndsInComma text.toList ∧
        problem.message? = some "trailing characters" ∧ problem'.message? = some "trailing comma") := by
  rw [Codec.decode, String.toList_append]
  rcases run_append_of_error (subject.steady detached) told found with
    ⟨closed, stands⟩ | ⟨rfl, ends, judged⟩
  · exact ⟨problem, stands, rfl, fun _ => rfl, fun ⟨same, _⟩ => absurd same closed⟩
  · refine ⟨_, judged, rfl, fun open' => ?_, fun ⟨_, bracket⟩ => ⟨ends, rfl, ?_⟩⟩
    · have noBracket : (more.toList.dropWhile isBlank).head? ≠ some ']' := fun bracket => open' ⟨rfl, bracket⟩
      rw [Problem.message?, message_surplusComma, if_neg noBracket]
      rfl
    · rw [Problem.message?, message_surplusComma, if_pos bracket]

/-- A pair of numbers with one comma too many: what is reported of it depends on whether the bracket is there. -/
theorem surplus_comma_judged_again :
    Pin.codec.decode "[1,2," = .error (.malformed .commaOpen) ∧ Detached "]".toList ∧
      Pin.codec.decode ("[1,2," ++ "]") = .error (.malformed .commaLast) ∧
      (Problem.malformed .commaOpen).message? = some "trailing characters" ∧
      (Problem.malformed .commaLast).message? = some "trailing comma" := by
  refine ⟨?_, rfl, ?_, rfl, rfl⟩ <;> decide +kernel

/-- The name is no direction, its value is no null, and after the value the text should end; and the comma of
a pair of numbers, closed behind a blank. -/
theorem unknown_direction_stands :
    Clock.CountDirection.codec.decode "\x7b\"Left\"" = .error (.data (.unknownVariant "Left" ["Up", "Down"])) ∧
      (∃ problem, Clock.CountDirection.codec.decode ("\x7b\"Left\"" ++ ":7,\"Up\"") = .error problem ∧
        problem.kind = .data ∧ problem.message? = some "unknown variant `Left`, expected `Up` or `Down`") ∧
      Pin.codec.decode "[1,2," = .error (.malformed .commaOpen) ∧
      ∃ problem, Pin.codec.decode ("[1,2," ++ " ]") = .error problem ∧
        problem.kind = .grammar ∧ problem.message? = some "trailing comma" := by
  have unknown : Clock.CountDirection.codec.decode "\x7b\"Left\"" =
      .error (.data (.unknownVariant "Left" ["Up", "Down"])) := by rfl
  have surplus : Pin.codec.decode "[1,2," = .error (.malformed .commaOpen) := by decide +kernel
  obtain ⟨problem, again, kind, stands, -⟩ :=
    first_problem_stands .countDirection unknown (by simp) (show Detached ":7,\"Up\"".toList from rfl)
  obtain ⟨problem', again', kind', -, closed⟩ :=
    first_problem_stands .pin surplus (by simp) (show Detached " ]".toList from rfl)
  have bracket : CommaClosed (.malformed .commaOpen) " ]".toList := ⟨rfl, by decide⟩
  refine ⟨unknown, ⟨problem, again, kind, (stands ?_).trans ?_⟩, surplus, problem', again', kind',
    (closed bracket).2.2⟩
  · rintro ⟨⟨⟩, -⟩
  · decide

end PeripheralLayer
