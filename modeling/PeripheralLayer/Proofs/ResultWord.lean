import PeripheralLayer.ResultWord

/-!
Result words as pairs. A word is two half-words side by side: driver and code make a word, and a word of a known driver
is made of nothing but its driver and its code. Whatever a word is asked for is answered from one half of it, the
driver from the high one, fault and status from the low one. Numbers are compared as integers, so that a number below
zero or above a half-word never passes for that of a driver, a fault, a status or an event.
-/
namespace PeripheralLayer

namespace Numbered

variable {α : Type} [Numbered α] {words : List α} {first : Nat}

/-- All the words of a vocabulary, in the order of their numbers, which go up from `first` without a gap. -/
structure InRow (words : List α) (first : Nat) : Prop where
  numbers : ∀ place (inside : place < words.length), number words[place] = first + place
  complete : ∀ a, a ∈ words

/-- An integer names the word that has it for its number; counted from `first`, that is the word at this place. -/
structure ReadInRow (words : List α) (first : Nat) : Prop where
  exact : ∀ (n : Int) (a : α), ofNumber? n = some a ↔ n = number a
  place : ∀ n : Int, (ofNumber? n : Option α) = if (first : Int) ≤ n then words[(n - first).toNat]? else none

namespace InRow

theorem getElem?_eq_some_iff (row : InRow words first) {place : Nat} {a : α} :
    words[place]? = some a ↔ number a = first + place := by
  obtain ⟨other, inside, rfl⟩ := List.getElem_of_mem (row.complete a)
  have here := row.numbers other inside
  constructor
  · intro found
    obtain ⟨within, same⟩ := List.getElem?_eq_some_iff.mp found
    rw [← same, row.numbers place within]
  · intro numbered
    obtain rfl : other = place := by omega
    exact List.getElem?_eq_getElem inside

theorem bounds (row : InRow words first) (a : α) : first ≤ number a ∧ number a < first + words.length := by
  obtain ⟨place, inside, rfl⟩ := List.getElem_of_mem (row.complete a)
  have here := row.numbers place inside
  omega

theorem readInRow (row : InRow words first) : ReadInRow words first where
  exact n a := ofNumber?_eq_some_iff.trans eq_comm
  place n := by
    apply Option.ext
    intro a
    rw [ofNumber?_eq_some_iff]
    split
    · rw [row.getElem?_eq_some_iff]
      omega
    · have bounds := row.bounds a
      simp only [reduceCtorEq, iff_false]
      omega

end InRow

theorem inRow_status : InRow [Status.success, .failure, .busy] 0 := ⟨by decide, Enumerated.mem_all⟩

theorem inRow_event : InRow [Event.success, .error, .busy] 0 := ⟨by decide, Enumerated.mem_all⟩

theorem inRow_origin : InRow [Origin.gpio, .i2c, .timer] 1 := ⟨by decide, Enumerated.mem_all⟩

theorem inRow_fault :
    InRow [BusFault.invalidPin, .rateOutOfReach, .addressSize, .buffersEmpty, .previousPending, .powerRefused] 0 :=
  ⟨by decide, Enumerated.mem_all⟩

end Numbered

namespace ResultWord

open Numbered

variable {v w : ResultWord} {origin : Origin} {fault : BusFault}

def high (w : ResultWord) : UInt16 := (w.bits >>> 16).toUInt16

theorem toNat_shifted (w : ResultWord) : (w.bits >>> 16).toNat = w.bits.toNat / 65536 := by
  rw [UInt32.toNat_shiftRight]
  exact Nat.shiftRight_eq_div_pow ..

theorem toNat_high (w : ResultWord) : w.high.toNat = w.bits.toNat / 65536 := by
  have bound := w.bits.toNat_lt
  rw [high, UInt32.toNat_toUInt16, toNat_shifted]
  omega

theorem toNat_code (w : ResultWord) : w.code.toNat = w.bits.toNat % 65536 := UInt32.toNat_toUInt16 w.bits

theorem eq_of_halves (high : v.high = w.high) (code : v.code = w.code) : v = w := by
  have high_toNat : v.bits.toNat / 65536 = w.bits.toNat / 65536 := by rw [← toNat_high, high, toNat_high]
  have code_toNat : v.bits.toNat % 65536 = w.bits.toNat % 65536 := by rw [← toNat_code, code, toNat_code]
  have bits : v.bits.toNat = w.bits.toNat := by omega
  exact congrArg ResultWord.mk (UInt32.toNat_inj.mp bits)

/-! Words of a driver and a code. -/

theorem toNat_ofCode (origin : Origin) (code : UInt16) :
    (ofCode origin code).bits.toNat = number origin * 65536 + code.toNat := by
  have driver : number origin < 4 := (inRow_origin.bounds origin).2
  have fits : code.toNat < 2 ^ 16 := code.toNat_lt
  have shifted : (UInt32.ofNat (number origin) <<< 16).toNat = number origin <<< 16 := by
    rw [UInt32.toNat_shiftLeft, UInt32.toNat_ofNat_of_lt' (Nat.lt_trans driver (by decide))]
    change number origin <<< 16 % 2 ^ 32 = number origin <<< 16
    rw [Nat.shiftLeft_eq]
    omega
  -- the code has no bit in common with the driver, so nothing is carried
  calc
    (ofCode origin code).bits.toNat = number origin <<< 16 ||| code.toNat := by
      rw [ofCode, UInt32.toNat_or, shifted, UInt16.toNat_toUInt32]
    _ = number origin <<< 16 + code.toNat := (Nat.shiftLeft_add_eq_or_of_lt fits _).symm
    _ = number origin * 65536 + code.toNat := by rw [Nat.shiftLeft_eq]

theorem toNat_high_ofCode (origin : Origin) (code : UInt16) : (ofCode origin code).high.toNat = number origin := by
  have fits := code.toNat_lt
  rw [toNat_high, toNat_ofCode]
  omega

theorem code_ofCode (origin : Origin) (code : UInt16) : (ofCode origin code).code = code := by
  have fits := code.toNat_lt
  rw [← UInt16.toNat_inj, toNat_code, toNat_ofCode]
  omega

/-! What is read of a word. -/

theorem origin?_eq (w : ResultWord) : w.origin? = ofNumber? (w.high.toNat : Int) := by
  rw [origin?, toNat_shifted, toNat_high]

theorem origin?_eq_some_iff (w : ResultWord) : w.origin? = some origin ↔ w.bits.toNat / 65536 = number origin := by
  rw [origin?_eq, ofNumber?_eq_some_iff, toNat_high]
  omega

theorem fault?_eq_some_iff (w : ResultWord) : w.fault? = some fault ↔ w.bits.toNat % 65536 = number fault := by
  rw [fault?, ofNumber?_eq_some_iff, toNat_code]
  omega

theorem origin?_ofCode (origin : Origin) (code : UInt16) : (ofCode origin code).origin? = some origin := by
  rw [origin?_eq, ofNumber?_eq_some_iff, toNat_high_ofCode]

theorem ofCode_of_origin? (known : w.origin? = some origin) : ofCode origin w.code = w := by
  have high : (ofCode origin w.code).high = w.high := by
    rw [← UInt16.toNat_inj, toNat_high_ofCode, toNat_high]
    exact (w.origin?_eq_some_iff.mp known).symm
  exact eq_of_halves high (code_ofCode ..)

theorem fault?_ofFault (fault : BusFault) : (ofFault fault).fault? = some fault := by
  have fits : number fault < 6 := (inRow_fault.bounds fault).2
  rw [fault?, ofFault, code_ofCode, ofNumber?_eq_some_iff,
    UInt16.toNat_ofNat_of_lt' (Nat.lt_trans fits (by decide))]

theorem status_of_code (same : v.code = w.code) : v.status = w.status := by
  rw [status, fault?, same, ← fault?, ← status]

theorem status_eq (word : ResultWord) :
    word.status = if word.bits.toNat % 65536 = 4 then .busy else .failure := by
  have pending : word.fault? = some .previousPending ↔ word.bits.toNat % 65536 = 4 := word.fault?_eq_some_iff
  unfold status
  split
  · rename_i found
    rw [if_pos (pending.mp found)]
  · rename_i other
    rw [if_neg fun four => other (pending.mpr four)]

theorem status_ne_success (word : ResultWord) : word.status ≠ .success := by
  rw [status_eq]
  split <;> decide

/-- A word as a pair: what its low half is, and what each reading makes of which half. -/
structure ReadByHalves (w : ResultWord) : Prop where
  code : w.code.toNat = w.bits.toNat % 65536
  rebuilt : ∀ origin, w.origin? = some origin → ofCode origin w.code = w
  origin : ∀ origin, w.origin? = some origin ↔ w.bits.toNat / 65536 = number origin
  fault : ∀ fault, w.fault? = some fault ↔ w.bits.toNat % 65536 = number fault
  alike : ∀ v : ResultWord, v.bits.toNat % 65536 = w.bits.toNat % 65536 → v.status = w.status
  busy : w.status = .busy ↔ w.bits.toNat % 65536 = 4

theorem readByHalves (w : ResultWord) : w.ReadByHalves where
  code := w.toNat_code
  rebuilt _ := ofCode_of_origin?
  origin _ := w.origin?_eq_some_iff
  fault _ := w.fault?_eq_some_iff
  alike v same := by
    apply status_of_code
    rw [← UInt16.toNat_inj, toNat_code, toNat_code, same]
  busy := by
    rw [status_eq]
    split <;> simp_all

end ResultWord

open Numbered

/-- A driver and a code make a word that gives both back; every word, of whatever bits, is read by its halves; a fault
makes one word, however it is turned into one, and is read off it again. An integer, of whatever size and sign, is read
as a status, an event, a driver or a fault by its place in the row of them and in no other way. -/
theorem word_is_faithful_pair :
    (∀ origin code, (ResultWord.ofCode origin code).origin? = some origin ∧
      (ResultWord.ofCode origin code).code = code) ∧
    (∀ w : ResultWord, w.ReadByHalves) ∧
    (∀ fault : BusFault, (Coe.coe fault : ResultWord) = ResultWord.ofFault fault ∧
      (ResultWord.ofFault fault).origin? = some .i2c ∧ (ResultWord.ofFault fault).fault? = some fault) ∧
    ReadInRow [Status.success, .failure, .busy] 0 ∧
    ReadInRow [Event.success, .error, .busy] 0 ∧
    ReadInRow [Origin.gpio, .i2c, .timer] 1 ∧
    ReadInRow [BusFault.invalidPin, .rateOutOfReach, .addressSize, .buffersEmpty, .previousPending, .powerRefused] 0 := by
  refine ⟨?_, ResultWord.readByHalves, ?_, inRow_status.readInRow, inRow_event.readInRow, inRow_origin.readInRow,
    inRow_fault.readInRow⟩
  · intro origin code
    exact ⟨ResultWord.origin?_ofCode origin code, ResultWord.code_ofCode origin code⟩
  · intro fault
    exact ⟨rfl, ResultWord.origin?_ofCode .i2c _, ResultWord.fault?_ofFault fault⟩

/-- A block's own word for a transfer that is still pending, and a word of no driver with the same code. Above the
half-words the code's low bits name no fault. -/
theorem pending_word_is_faithful_pair :
    (⟨0x00020004⟩ : ResultWord).origin? = some .i2c ∧
      ResultWord.ofCode .i2c (⟨0x00020004⟩ : ResultWord).code = ⟨0x00020004⟩ ∧
      (0x0abc0004 : UInt32).toNat % 65536 = (0x00020004 : UInt32).toNat % 65536 ∧
      (⟨0x0abc0004⟩ : ResultWord).status = (⟨0x00020004⟩ : ResultWord).status ∧
      (⟨0x0abc0004⟩ : ResultWord).status = .busy ∧
      (ofNumber? 0x00010004 : Option BusFault) = none := by
  obtain ⟨-, read, -, -, -, -, faults⟩ := word_is_faithful_pair
  have known : (⟨0x00020004⟩ : ResultWord).origin? = some .i2c := by decide
  have same : (0x0abc0004 : UInt32).toNat % 65536 = (0x00020004 : UInt32).toNat % 65536 := by decide
  exact ⟨known, (read _).rebuilt .i2c known, same, (read _).alike _ same, (read _).busy.mpr (by decide),
    faults.place 0x00010004⟩

end PeripheralLayer
