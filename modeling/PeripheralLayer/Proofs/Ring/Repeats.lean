import Mathlib.Data.List.Infix
import Mathlib.Data.List.ModifyLast
import PeripheralLayer.Proofs.Ring.Groups

/-!
A loop that is stuck records one thing over and over. Its records first fill up the newest entry, if that entry is
theirs, and every further entry takes as many of them as a count can tell. So a stuck loop needs a slot only once in
65535 records, and what was recorded before it stays in the ring. None of this is so of a payload that does not
compare equal to itself: each of its records takes a slot.
-/
namespace PeripheralLayer

namespace Group

variable {α : Type}

def room [BEq α] (groups : List (Group α)) (line : UInt16) (payload : α) : Nat :=
  match groups.getLast? with
  | none => 0
  | some g => if g.line == line && g.payload == payload then limit - g.count else 0

def plus (g : Group α) (more : Nat) : Group α := { g with count := g.count + more }

def topUp (groups : List (Group α)) (more : Nat) : List (Group α) := groups.modifyLast (plus · more)

/-- The groups of so many equal records that begin with a new group: full ones, and one for the rest. -/
def heaped (line : UInt16) (payload : α) (m : Nat) : List (Group α) :=
  List.replicate (m / limit) ⟨line, limit, payload⟩ ++ if m % limit = 0 then [] else [⟨line, m % limit, payload⟩]

variable {groups older : List (Group α)} {g : Group α} {line : UInt16} {payload : α} {m k : Nat}

theorem topUp_concat (older : List (Group α)) (g : Group α) (more : Nat) :
    topUp (older ++ [g]) more = older ++ [g.plus more] :=
  List.modifyLast_concat ..

theorem topUp_zero (groups : List (Group α)) : topUp groups 0 = groups := by
  rcases groups.eq_nil_or_concat with rfl | ⟨older, g, rfl⟩
  · rfl
  · rw [List.concat_eq_append, topUp_concat, plus, Nat.add_zero]

theorem length_topUp (groups : List (Group α)) (more : Nat) : (topUp groups more).length = groups.length := by
  rcases groups.eq_nil_or_concat with rfl | ⟨older, g, rfl⟩
  · rfl
  · simp [topUp_concat]

theorem heaped_zero : heaped line payload 0 = [] := by simp [heaped]

theorem length_heaped : (heaped line payload m).length = (m + (limit - 1)) / limit := by
  unfold heaped limit
  split <;> simp <;> omega

theorem heaped_of_full (full : m % limit = 0) :
    heaped line payload m = List.replicate (m / limit) ⟨line, limit, payload⟩ := by
  simp [heaped, full]

theorem heaped_of_rest (rest : m % limit ≠ 0) :
    heaped line payload m = List.replicate (m / limit) ⟨line, limit, payload⟩ ++ [⟨line, m % limit, payload⟩] := by
  simp [heaped, rest]

theorem heaped_succ (line : UInt16) (payload : α) (m : Nat) :
    heaped line payload (m + 1) =
      List.replicate (m / limit) ⟨line, limit, payload⟩ ++ [⟨line, m % limit + 1, payload⟩] := by
  by_cases filled : m % limit + 1 = limit
  · have none_left : (m + 1) % limit = 0 := by unfold limit at *; omega
    have whole : (m + 1) / limit = m / limit + 1 := by unfold limit at *; omega
    rw [heaped_of_full none_left, whole, filled, List.replicate_succ']
  · have some_left : (m + 1) % limit = m % limit + 1 := by unfold limit at *; omega
    have whole : (m + 1) / limit = m / limit := by unfold limit at *; omega
    rw [heaped_of_rest (by omega), whole, some_left]

theorem getLast?_heaped (some_record : 0 < m) :
    (heaped line payload m).getLast? = some ⟨line, (m - 1) % limit + 1, payload⟩ := by
  obtain ⟨m, rfl⟩ := Nat.exists_eq_add_of_le' (show 1 ≤ m by omega)
  rw [heaped_succ, List.getLast?_concat, Nat.add_sub_cancel]

section Repeats

variable [BEq α]

theorem room_concat (older : List (Group α)) (g : Group α) :
    room (older ++ [g]) line payload =
      if g.line == line && g.payload == payload then limit - g.count else 0 := by
  simp [room]

theorem takes_of_room (some_room : k < room (older ++ [g]) line payload) :
    (g.plus k).takes line payload = true := by
  rw [room_concat] at some_room
  split at some_room
  · rename_i same
    have small : g.count + k < limit := by omega
    simp only [Bool.and_eq_true] at same
    simp [takes, plus, same, small]
  · omega

theorem extend_of_no_room (none_left : room groups line payload = 0) :
    extend groups line payload = groups ++ [⟨line, 1, payload⟩] := by
  rcases groups.eq_nil_or_concat with rfl | ⟨older, g, rfl⟩
  · rfl
  · rw [List.concat_eq_append] at none_left ⊢
    have closed : g.takes line payload = false := by
      rw [room_concat] at none_left
      unfold takes
      split at none_left
      · rename_i same
        simp only [same, Bool.true_and, decide_eq_false_iff_not]
        omega
      · rename_i other
        simp only [other, Bool.false_and]
    rw [extend_concat, closed]
    rfl

theorem room_topUp (groups : List (Group α)) :
    room (topUp groups (room groups line payload)) line payload = 0 := by
  rcases groups.eq_nil_or_concat with rfl | ⟨older, g, rfl⟩
  · rfl
  · rw [List.concat_eq_append, topUp_concat, room_concat, room_concat]
    dsimp only [plus]
    split
    · omega
    · rfl

theorem extend_heaped (reflexive : (payload == payload) = true) (closed : room groups line payload = 0) (m : Nat) :
    extend (groups ++ heaped line payload m) line payload = groups ++ heaped line payload (m + 1) := by
  by_cases full : m % limit = 0
  · have none_left : room (groups ++ heaped line payload m) line payload = 0 := by
      rcases Nat.eq_zero_or_pos m with rfl | positive
      · rwa [heaped_zero, List.append_nil]
      · have newest : (heaped line payload m).getLast? = some ⟨line, (m - 1) % limit + 1, payload⟩ :=
          getLast?_heaped positive
        have count : (m - 1) % limit + 1 = limit := by unfold limit at *; omega
        rw [count] at newest
        simp [room, newest]
    rw [extend_of_no_room none_left, heaped_of_full full, heaped_succ, full, List.append_assoc]
  · have small : m % limit < limit := Nat.mod_lt m (by decide)
    have taken : Group.takes ⟨line, m % limit, payload⟩ line payload = true := by simp [takes, reflexive, small]
    rw [heaped_of_rest full, heaped_succ, ← List.append_assoc, extend_concat, taken, if_pos rfl,
      List.append_assoc]

/-- One more repeat either finds room in the newest group or goes on the heap behind it. -/
theorem extend_repeats (reflexive : (payload == payload) = true) (groups : List (Group α)) (k : Nat) :
    extend (topUp groups (min k (room groups line payload)) ++ heaped line payload (k - room groups line payload))
        line payload =
      topUp groups (min (k + 1) (room groups line payload)) ++
        heaped line payload (k + 1 - room groups line payload) := by
  by_cases some_room : k < room groups line payload
  · rcases groups.eq_nil_or_concat with rfl | ⟨older, g, rfl⟩
    · simp [room] at some_room
    · rw [List.concat_eq_append] at some_room ⊢
      have taken := takes_of_room some_room
      rw [Nat.min_eq_left (by omega), Nat.min_eq_left (by omega), Nat.sub_eq_zero_of_le (by omega),
        Nat.sub_eq_zero_of_le (by omega), heaped_zero, List.append_nil, List.append_nil, topUp_concat, topUp_concat,
        extend_concat, taken, if_pos rfl, plus, plus, Nat.add_assoc]
  · have further : k + 1 - room groups line payload = k - room groups line payload + 1 := by omega
    rw [Nat.min_eq_right (by omega), Nat.min_eq_right (by omega), further]
    exact extend_heaped reflexive (room_topUp groups) _

theorem ofRecords_concat (records : List (UInt16 × α)) (entry : UInt16 × α) :
    ofRecords (records ++ [entry]) = extend (ofRecords records) entry.1 entry.2 := by
  simp [ofRecords]

theorem ofRecords_repeats (reflexive : (payload == payload) = true) (records : List (UInt16 × α)) (line : UInt16)
    (k : Nat) :
    ofRecords (records ++ List.replicate k (line, payload)) =
      topUp (ofRecords records) (min k (room (ofRecords records) line payload)) ++
        heaped line payload (k - room (ofRecords records) line payload) := by
  induction k with
  | zero => simp [topUp_zero, heaped_zero]
  | succ k ih => rw [List.replicate_succ', ← List.append_assoc, ofRecords_concat, ih, extend_repeats reflexive]

theorem ofRecords_irreflexive (irreflexive : (payload == payload) = false) (records : List (UInt16 × α))
    (other : ∀ g, (ofRecords records).getLast? = some g → (g.payload == payload) = false) (k : Nat) :
    ofRecords (records ++ List.replicate k (line, payload)) =
      ofRecords records ++ List.replicate k ⟨line, 1, payload⟩ := by
  induction k with
  | zero => simp
  | succ k ih =>
    have none_left : room (ofRecords records ++ List.replicate k ⟨line, 1, payload⟩) line payload = 0 := by
      cases k with
      | zero =>
        rw [List.replicate_zero, List.append_nil]
        cases newest : (ofRecords records).getLast? with
        | none => simp [room, newest]
        | some g => simp [room, newest, other g newest]
      | succ k => rw [List.replicate_succ', ← List.append_assoc, room_concat, irreflexive]; simp
    rw [List.replicate_succ', ← List.append_assoc, ofRecords_concat, ih, extend_of_no_room none_left,
      List.replicate_succ', List.append_assoc]

end Repeats

end Group

def Entry.plus {α : Type} (e : Entry α) (more : Nat) : Entry α := { e with count := e.count + UInt16.ofNat more }

theorem Group.entry_plus {α : Type} (g : Group α) (n index more : Nat) :
    (g.plus more).entry n index = (g.entry n index).plus more := by
  simp [entry, plus, Entry.plus, UInt16.ofNat_add]

namespace Ring

variable {α : Type} {n : Nat} {r later : Ring α n} {groups groups' : List (Group α)} {line : UInt16} {payload : α}

theorem Holds.newest_cases (h : r.Holds groups) :
    (groups = [] ∧ r.newest? = none) ∨
      ∃ older g, groups = older ++ [g] ∧ r.newest? = some (g.entry n older.length) ∧
        (g.entry n older.length).count.toNat = g.count := by
  rcases groups.eq_nil_or_concat with rfl | ⟨older, g, rfl⟩
  · exact .inl ⟨rfl, by rw [h.newest?_eq]; rfl⟩
  · rw [List.concat_eq_append] at h ⊢
    obtain ⟨i, -, -, newest⟩ := h.newest_of_concat
    have small := (h.sizes g (by simp)).2
    refine .inr ⟨older, g, rfl, newest, ?_⟩
    unfold Group.limit at small
    rw [Group.entry, UInt16.toNat_ofNat']
    omega

theorem Holds.toList_concat (positive : 0 < n) {older : List (Group α)} {g : Group α} (h : r.Holds (older ++ [g])) :
    r.toList = (older.mapIdx (Group.entry n)).drop (older.length + 1 - n) ++ [g.entry n older.length] := by
  have few : older.length + 1 - n ≤ (older.mapIdx (Group.entry n)).length := by
    rw [List.length_mapIdx]
    omega
  rw [h.toList_eq, List.mapIdx_concat, List.rtake, List.length_append, List.length_mapIdx, List.length_singleton,
    List.drop_append_of_le_length few]

theorem Holds.entries_kept (positive : 0 < n) (h : r.Holds groups) {more : Nat} {behind : List (Group α)}
    (h' : later.Holds (Group.topUp groups more ++ behind)) :
    (r.toList.modifyLast (Entry.plus · more)).drop (r.size + behind.length - n) <+: later.toList := by
  rcases groups.eq_nil_or_concat with rfl | ⟨older, g, rfl⟩
  · have empty : r.toList = [] := by simp [h.toList_eq, List.rtake]
    rw [empty]
    simp [List.modifyLast, List.modifyLast.go]
  · rw [List.concat_eq_append] at h h'
    rw [Group.topUp_concat] at h'
    have few : older.length + 1 - n ≤ (older.mapIdx (Group.entry n)).length := by
      rw [List.length_mapIdx]
      omega
    have gone : older.length + 1 - n + (min n (older.length + 1) + behind.length - n) =
        (older ++ [g.plus more] ++ behind).length - n := by
      simp only [List.length_append, List.length_singleton]
      omega
    rw [h.toList_concat positive, List.modifyLast_concat, ← Group.entry_plus, ← List.drop_append_of_le_length few,
      h.size_eq, List.length_append, List.length_singleton, List.drop_drop, gone, h'.toList_eq, List.rtake,
      List.length_mapIdx, List.mapIdx_append, List.mapIdx_concat]
    exact (List.prefix_append ..).drop _

theorem Holds.newest_topped (h : r.Holds groups) {more : Nat} (h' : later.Holds (Group.topUp groups more))
    (some_group : groups ≠ []) :
    ∃ newest count, r.newest? = some newest ∧ count.toNat = newest.count.toNat + more ∧
      later.newest? = some { newest with count } := by
  rcases h.newest_cases with ⟨rfl, -⟩ | ⟨older, g, rfl, newest, count⟩
  · exact absurd rfl some_group
  · rw [Group.topUp_concat] at h'
    rcases h'.newest_cases with ⟨none_there, -⟩ | ⟨older', g', same, newest', count'⟩
    · simp at none_there
    · obtain ⟨rfl, one⟩ := List.append_inj' same rfl
      obtain rfl := List.singleton_inj.mp one
      refine ⟨_, _, newest, ?_, newest'⟩
      exact count'.trans (congrArg (· + more) count.symm)

theorem Holds.newest_heaped {m : Nat} (some_record : 0 < m)
    (h : later.Holds (groups ++ Group.heaped line payload m)) :
    ∃ generation count, count.toNat = (m - 1) % Group.limit + 1 ∧
      later.newest? = some ⟨line, generation, count, payload⟩ := by
  have last : (groups ++ Group.heaped line payload m).getLast? =
      some ⟨line, (m - 1) % Group.limit + 1, payload⟩ := by
    rw [List.getLast?_append, Group.getLast?_heaped some_record]
    rfl
  rcases h.newest_cases with ⟨none_there, -⟩ | ⟨older, g, same, newest, count⟩
  · simp [none_there] at last
  · rw [same, List.getLast?_concat, Option.some.injEq] at last
    subst last
    exact ⟨_, _, count, newest⟩

section Repeats

variable [BEq α]

def room (r : Ring α n) (line : UInt16) (payload : α) : Nat :=
  match r.newest? with
  | none => 0
  | some e => if e.line == line && e.payload == payload then fullCount.toNat - e.count.toNat else 0

theorem Holds.room_eq (h : r.Holds groups) (line : UInt16) (payload : α) :
    r.room line payload = Group.room groups line payload := by
  rcases h.newest_cases with ⟨rfl, newest⟩ | ⟨older, g, rfl, newest, count⟩
  · simp [room, newest, Group.room]
  · rw [Group.room_concat, room, newest]
    dsimp only
    rw [count]
    rfl

theorem recordAll_append (r : Ring α n) (records more : List (UInt16 × α)) :
    r.recordAll (records ++ more) = (r.recordAll records).recordAll more := by
  simp [recordAll]

/-- A ring with any history, and what becomes of it when one thing is recorded over and over. If the thing compares
equal to itself, then the records fill up the newest entry where they repeat it, and what is left of them takes one
slot in 65535. The entries that keep their slots stay as they are, but for what the newest of them counts more. If
the thing compares equal neither to itself nor to the newest, every record opens a group. -/
theorem repeats_take_few_slots (positive : 0 < n) (init : α) (records : List (UInt16 × α)) (line : UInt16) (payload : α)
    {k : Nat} (some_record : 1 ≤ k) {r later : Ring α n} (reached : r = (blank init).recordAll records)
    (repeated : later = r.recordAll (List.replicate k (line, payload))) {groups groups' : List (Group α)}
    (before : groups = Group.ofRecords records)
    (after : groups' = Group.ofRecords (records ++ List.replicate k (line, payload))) :
    ((payload == payload) = true →
      groups'.length = groups.length + (k - r.room line payload + 65534) / 65535 ∧
      (r.toList.modifyLast (Entry.plus · (min k (r.room line payload)))).drop
        (r.size + (k - r.room line payload + 65534) / 65535 - n) <+: later.toList ∧
      (k ≤ r.room line payload → ∃ newest count, r.newest? = some newest ∧
        count.toNat = newest.count.toNat + k ∧ later.newest? = some { newest with count }) ∧
      (r.room line payload < k → ∃ generation count, count.toNat = (k - r.room line payload - 1) % 65535 + 1 ∧
        later.newest? = some ⟨line, generation, count, payload⟩)) ∧
    ((payload == payload) = false →
      (∀ newest, r.newest? = some newest → (newest.payload == payload) = false) →
      groups'.length = groups.length + k) := by
  have h : r.Holds groups := by
    rw [reached, before]
    exact holds_recordAll positive init records
  have h' : later.Holds groups' := by
    rw [repeated, after, reached, ← recordAll_append]
    exact holds_recordAll positive init _
  constructor
  · intro reflexive
    have room := h.room_eq line payload
    have made := Group.ofRecords_repeats reflexive records line k
    rw [← after, ← before, ← room] at made
    have opened : (Group.heaped line payload (k - r.room line payload)).length =
        (k - r.room line payload + 65534) / 65535 := Group.length_heaped
    refine ⟨?_, ?_, ?_, ?_⟩
    · rw [made, List.length_append, Group.length_topUp, opened]
    · rw [made] at h'
      rw [← opened]
      exact h.entries_kept positive h'
    · intro enough
      rw [Nat.min_eq_left enough, Nat.sub_eq_zero_of_le enough, Group.heaped_zero, List.append_nil] at made
      subst made
      refine h.newest_topped h' ?_
      rintro rfl
      rw [room] at enough
      exact absurd (Nat.le_trans some_record enough) (by simp [Group.room])
    · intro beyond
      rw [made] at h'
      exact h'.newest_heaped (by omega)
  · intro irreflexive other
    have unlike : ∀ g, (Group.ofRecords records).getLast? = some g → (g.payload == payload) = false := by
      intro g last
      rw [← before] at last
      rcases h.newest_cases with ⟨rfl, -⟩ | ⟨older, g', rfl, newest, -⟩
      · simp at last
      · rw [List.getLast?_concat, Option.some.injEq] at last
        subst last
        exact other _ newest
    rw [after, before, Group.ofRecords_irreflexive irreflexive records unlike, List.length_append,
      List.length_replicate]

end Repeats

/-- Readings of a sensor. One that failed compares equal to nothing. -/
inductive Reading where
  | level (value : Nat)
  | failed
  deriving DecidableEq, Repr

instance : BEq Reading where
  beq
    | .level a, .level b => a == b
    | _, _ => false

/-- A full ring of two slots whose newest entry takes 65533 records of 65540, and the same ring when the sensor fails
and goes on failing. -/
theorem steady_reading_takes_one_slot :
    (∃ r later : Ring Reading 2, ∃ generation count,
      r.toList = [⟨1, 0, 1, .level 5⟩, ⟨2, 0, 2, .level 6⟩] ∧
      later = r.recordAll (List.replicate 65540 (2, .level 6)) ∧ count.toNat = 7 ∧
      later.newest? = some ⟨2, generation, count, .level 6⟩ ∧
      (Group.ofRecords ([(1, .level 5), (2, .level 6), (2, .level 6)] ++
        List.replicate 65540 (2, Reading.level 6))).length = 3) ∧
    (Group.ofRecords ([(1, .level 5), (2, .level 6), (2, .level 6)] ++
      List.replicate 65540 (2, Reading.failed))).length = 65542 := by
  let records : List (UInt16 × Reading) := [(1, .level 5), (2, .level 6), (2, .level 6)]
  let r : Ring Reading 2 := (blank (.level 0)).recordAll records
  have two : (Group.ofRecords records).length = 2 := by decide
  have room : r.room 2 (.level 6) = 65533 := by decide
  obtain ⟨steady, -⟩ := repeats_take_few_slots (k := 65540) (by decide) (.level 0) records 2 (.level 6) (by decide)
    (rfl : r = _) rfl rfl rfl
  obtain ⟨-, failing⟩ := repeats_take_few_slots (k := 65540) (by decide) (.level 0) records 2 .failed (by decide)
    (rfl : r = _) rfl rfl rfl
  obtain ⟨grown, -, -, newest⟩ := steady rfl
  rw [room] at grown newest
  obtain ⟨generation, count, seven, last⟩ := newest (by decide)
  refine ⟨⟨r, _, generation, count, by decide, rfl, seven, last, ?_⟩, ?_⟩
  · rw [grown, two]
  · rw [failing rfl ?_, two]
    rintro newest found
    cases found
    rfl

end Ring

end PeripheralLayer
