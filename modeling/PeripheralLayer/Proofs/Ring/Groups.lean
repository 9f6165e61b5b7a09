import Mathlib.Data.List.DropRight
import PeripheralLayer.Ring

/-!
What a ring remembers of its history. The records of a history fall into groups of repeats, and a ring of
`n` slots holds the last `n` groups and nothing else. The groups are found by going through the history
alone, without places, wraps or sixteen-bit words, so the ring's own arithmetic is measured against them.
-/
namespace PeripheralLayer

/-- Repeats of one record. The payload is that of the first; later ones only had to compare equal to it. -/
structure Group (α : Type) where
  line : UInt16
  count : Nat
  payload : α
  deriving DecidableEq, Repr

namespace Group

variable {α : Type}

def limit : Nat := 65535

def takes [BEq α] (g : Group α) (line : UInt16) (payload : α) : Bool :=
  g.line == line && g.payload == payload && decide (g.count < limit)

def extend [BEq α] (groups : List (Group α)) (line : UInt16) (payload : α) : List (Group α) :=
  match groups.getLast? with
  | none => [⟨line, 1, payload⟩]
  | some g =>
    if g.takes line payload then groups.dropLast ++ [{ g with count := g.count + 1 }]
    else groups ++ [⟨line, 1, payload⟩]

def ofRecords [BEq α] (records : List (UInt16 × α)) : List (Group α) :=
  records.foldl (fun groups entry => extend groups entry.1 entry.2) []

/-- The slot of the group numbered `index` in a ring of `n` slots: every `n` groups begin a generation. -/
def entry (n index : Nat) (g : Group α) : Entry α :=
  ⟨g.line, UInt16.ofNat (index / n), UInt16.ofNat g.count, g.payload⟩

theorem extend_nil [BEq α] (line : UInt16) (payload : α) : extend [] line payload = [⟨line, 1, payload⟩] := rfl

theorem extend_concat [BEq α] (older : List (Group α)) (g : Group α) (line : UInt16) (payload : α) :
    extend (older ++ [g]) line payload =
      if g.takes line payload then older ++ [{ g with count := g.count + 1 }]
      else older ++ [g] ++ [⟨line, 1, payload⟩] := by
  simp [extend]

end Group

namespace Ring

variable {α : Type} {n : Nat}

/-- The slots agree with these groups: the newest `n` groups stand each at the place of its number, and a
place that no group has reached counts nothing. -/
structure Holds (r : Ring α n) (groups : List (Group α)) : Prop where
  newest : r.newest.map Fin.val = if groups = [] then none else some ((groups.length - 1) % n)
  kept : ∀ k (h : k < groups.length) (place : Fin n), groups.length ≤ k + n → place.val = k % n →
    r.slots[place] = (groups[k]).entry n k
  unused : ∀ place (h : place < n), groups.length ≤ place → r.slots[place].count = 0
  sizes : ∀ g ∈ groups, 1 ≤ g.count ∧ g.count ≤ Group.limit

theorem holds_blank (payload : α) : (blank payload : Ring α n).Holds [] := by
  refine ⟨rfl, by simp, fun place below _ => ?_, by simp⟩
  simp [blank]

theorem place_ne {k m : Nat} (before : k < m) (near : m < k + n) : k % n ≠ m % n := by
  intro same
  have apart : (m - k) % n = 0 := Nat.sub_mod_eq_zero_of_mod_eq same.symm
  rw [Nat.mod_eq_of_lt (by omega)] at apart
  omega

theorem holds_set {r : Ring α n} {older : List (Group α)} {g : Group α} {i : Fin n}
    (place : i.val = older.length % n)
    (kept : ∀ k (h : k < older.length) (place : Fin n), older.length < k + n → place.val = k % n →
      r.slots[place] = (older[k]).entry n k)
    (unused : ∀ place (h : place < n), older.length < place → r.slots[place].count = 0)
    (sizes : ∀ g ∈ older, 1 ≤ g.count ∧ g.count ≤ Group.limit) (size : 1 ≤ g.count ∧ g.count ≤ Group.limit) :
    (Ring.mk (some i) (r.slots.set i (g.entry n older.length))).Holds (older ++ [g]) := by
  constructor
  case newest => simp [place]
  case kept =>
    intro k h other near same
    simp only [List.length_append, List.length_singleton] at h near
    by_cases last : k = older.length
    · subst last
      have here : i.val = other.val := by omega
      simp [here]
    · have before : k < older.length := by omega
      have apart : i.val ≠ other.val := by
        have ne := place_ne before (n := n) (by omega)
        omega
      rw [List.getElem_append_left before, ← kept k before other (by omega) same]
      simp [apart]
  case unused =>
    intro other below beyond
    simp only [List.length_append, List.length_singleton] at beyond
    have less : older.length % n ≤ older.length := Nat.mod_le _ _
    have apart : i.val ≠ other := by omega
    rw [← unused other below (by omega)]
    simp [apart]
  case sizes => exact List.forall_mem_append.mpr ⟨sizes, List.forall_mem_singleton.mpr size⟩

section Record

variable {r : Ring α n} {older groups : List (Group α)} {g : Group α}

theorem Holds.newest_of_concat (h : r.Holds (older ++ [g])) :
    ∃ i, r.newest = some i ∧ i.val = older.length % n ∧ r.newest? = some (g.entry n older.length) := by
  have newest := h.newest
  simp only [List.append_eq_nil_iff, List.cons_ne_self, and_false, if_false, List.length_append,
    List.length_singleton, Nat.add_sub_cancel, Option.map_eq_some_iff] at newest
  obtain ⟨i, found, place⟩ := newest
  have here := h.kept older.length (by simp) i (by simp; have := i.isLt; omega) place
  exact ⟨i, found, place, by simpa [newest?, found] using here⟩

theorem folds_entry [BEq α] {g : Group α} (size : g.count ≤ Group.limit) (index : Nat) (line : UInt16)
    (payload : α) : folds (g.entry n index) line payload = g.takes line payload := by
  have full : (UInt16.ofNat g.count != fullCount) = decide (g.count < Group.limit) := by
    unfold Group.limit at size ⊢
    rw [bne, Bool.eq_iff_iff]
    simp only [Bool.not_eq_true', beq_eq_false_iff_ne, ne_eq, decide_eq_true_eq, ← UInt16.toNat_inj,
      UInt16.toNat_ofNat']
    simp only [fullCount, UInt16.reduceToNat]
    omega
  simp only [folds, Group.takes, Group.entry, full]

theorem Holds.fold (h : r.Holds (older ++ [g])) {i : Fin n} (place : i.val = older.length % n)
    (newest : r.newest = some i) (room : g.count < Group.limit) :
    ({ r with slots := r.slots.set i { g.entry n older.length with count := UInt16.ofNat g.count + 1 } } :
      Ring α n).Holds (older ++ [{ g with count := g.count + 1 }]) := by
  have sizes := List.forall_mem_append.mp h.sizes
  have counted : ({ g.entry n older.length with count := UInt16.ofNat g.count + 1 } : Entry α) =
      Group.entry n older.length { g with count := g.count + 1 } := by
    simp [Group.entry, UInt16.ofNat_add]
  rw [counted, newest]
  refine holds_set place (fun k before other near same => ?_) (fun other below beyond => ?_) sizes.1 ⟨by simp, room⟩
  · have kept := h.kept k (by simp; omega) other (by simp; omega) same
    rwa [List.getElem_append_left before] at kept
  · exact h.unused other below (by simp; omega)

theorem Holds.openSlot (h : r.Holds groups) {i : Fin n} (place : i.val = groups.length % n) (line : UInt16)
    (payload : α) :
    (r.openSlot i (UInt16.ofNat (groups.length / n)) line payload).Holds (groups ++ [⟨line, 1, payload⟩]) := by
  refine holds_set (g := ⟨line, 1, payload⟩) place (fun k before other near same => ?_)
    (fun other below beyond => ?_) h.sizes ⟨by simp, by simp [Group.limit]⟩
  · exact h.kept k before other (by omega) same
  · exact h.unused other below (by omega)

theorem following_place {i : Fin n} {m : Nat} (place : i.val = m % n) : (following i).val = (m + 1) % n := by
  simp [following, around, place]

theorem generation_succ {m : Nat} (positive : 0 < n) :
    (m + 1) / n = if m % n + 1 < n then m / n else m / n + 1 := by
  have small := Nat.mod_lt m positive
  have split_last : (m + 1) / n = m / n + (m % n + 1) / n := by
    rw [← Nat.mul_add_div positive, ← Nat.add_assoc, Nat.div_add_mod]
  rw [split_last]
  split
  · rename_i inside
    rw [Nat.div_eq_of_lt inside, Nat.add_zero]
  · have last : m % n + 1 = n := by omega
    rw [last, Nat.div_self positive]

theorem Holds.record [BEq α] (positive : 0 < n) (h : r.Holds groups) (line : UInt16) (payload : α) :
    (r.record line payload).Holds (Group.extend groups line payload) := by
  rcases groups.eq_nil_or_concat with rfl | ⟨older, g, rfl⟩
  · have nothing : r.newest = none := by simpa using h.newest
    have first := h.openSlot (i := ⟨0, positive⟩) (by simp) line payload
    simpa [Ring.record, nothing, positive, Group.extend_nil] using first
  · rw [List.concat_eq_append] at h ⊢
    obtain ⟨i, newest, place, latest⟩ := h.newest_of_concat
    have slot : r.slots[i] = g.entry n older.length := by simpa [newest?, newest] using latest
    have size := (h.sizes g (by simp)).2
    rw [Group.extend_concat]
    simp only [Ring.record, newest, slot, folds_entry size]
    split
    · rename_i taken
      have room : g.count < Group.limit := by
        simp only [Group.takes, Bool.and_eq_true, decide_eq_true_eq] at taken
        exact taken.2
      have folded := h.fold place newest room
      rwa [newest] at folded
    · have next := h.openSlot (i := following i) (by simp [following_place place]) line payload
      have generation := generation_succ (n := n) (m := older.length) positive
      rw [place]
      split
      · rename_i inside
        rw [if_pos inside] at generation
        simpa [generation, Group.entry] using next
      · rename_i wraps
        rw [if_neg wraps] at generation
        simpa [generation, Group.entry, UInt16.ofNat_add] using next

theorem holds_recordAll [BEq α] (positive : 0 < n) (payload : α) (records : List (UInt16 × α)) :
    ((blank payload : Ring α n).recordAll records).Holds (Group.ofRecords records) := by
  unfold recordAll Group.ofRecords
  induction records using List.reverseRecOn with
  | nil => exact holds_blank payload
  | append_singleton records entry ih =>
    simp only [List.foldl_append, List.foldl_cons, List.foldl_nil]
    exact ih.record positive entry.1 entry.2

theorem Holds.newest_eq_none_iff (h : r.Holds groups) : r.newest = none ↔ groups = [] := by
  have newest := h.newest
  constructor
  · intro nothing
    by_contra some_group
    simp [nothing, some_group] at newest
  · intro empty
    simpa [empty] using newest

theorem Group.entry_count_ne_zero {g : Group α} (size : 1 ≤ g.count ∧ g.count ≤ Group.limit) (n index : Nat) :
    (g.entry n index).count ≠ 0 := by
  have small := size.2
  unfold Group.limit at small
  rw [Group.entry, Ne, ← UInt16.toNat_inj, UInt16.toNat_ofNat']
  simp only [UInt16.toNat_zero]
  omega

theorem Holds.size_eq (h : r.Holds groups) : r.size = min n groups.length := by
  rcases groups.eq_nil_or_concat with rfl | ⟨older, g, rfl⟩
  · simp [Ring.size, h.newest_eq_none_iff.mpr rfl]
  · rw [List.concat_eq_append] at h ⊢
    obtain ⟨i, newest, place, -⟩ := h.newest_of_concat
    have next := following_place place
    simp only [Ring.size, newest, List.length_append, List.length_singleton]
    by_cases filling : older.length + 1 < n
    · -- no group has reached the next place yet
      rw [Nat.mod_eq_of_lt filling] at next
      have free : r.slots[following i].count = 0 := h.unused (following i) (following i).isLt (by simp [next])
      rw [if_pos free, place, Nat.mod_eq_of_lt (by omega)]
      omega
    · -- the next place is the oldest group's
      have oldest : older.length + 1 - n < (older ++ [g]).length := by simp; have := i.isLt; omega
      have same : (following i).val = (older.length + 1 - n) % n := by
        rw [next, Nat.mod_eq_sub_mod (by omega)]
      have slot := h.kept _ oldest (following i) (by simp; omega) same
      rw [if_neg]
      · omega
      · rw [slot]
        exact Group.entry_count_ne_zero (h.sizes _ (List.getElem_mem oldest)) n _

theorem Holds.newest?_eq (h : r.Holds groups) : r.newest? = (groups.mapIdx (Group.entry n)).getLast? := by
  rcases groups.eq_nil_or_concat with rfl | ⟨older, g, rfl⟩
  · simp [newest?, h.newest_eq_none_iff.mpr rfl]
  · rw [List.concat_eq_append] at h ⊢
    obtain ⟨i, newest, -, latest⟩ := h.newest_of_concat
    simpa using latest

theorem oldest_place {i : Fin n} {m : Nat} (place : i.val = m % n) (k : Nat) :
    (around i (i.val + 1 + n - min n (m + 1) + k)).val = (m + 1 - n + k) % n := by
  simp only [around, place]
  by_cases full : n ≤ m + 1
  · have shift : m % n + 1 + n - min n (m + 1) + k = m % n + (1 + k) := by omega
    have back : m + (1 + k) = m + 1 - n + k + n := by omega
    rw [shift, Nat.mod_add_mod, back, Nat.add_mod_right]
  · have shift : m % n + 1 + n - min n (m + 1) + k = n + k := by
      rw [Nat.mod_eq_of_lt (by omega)]
      omega
    rw [shift, Nat.add_mod_left, Nat.sub_eq_zero_of_le (by omega), Nat.zero_add]

theorem Holds.toList_eq (h : r.Holds groups) : r.toList = (groups.mapIdx (Group.entry n)).rtake n := by
  rcases groups.eq_nil_or_concat with rfl | ⟨older, g, rfl⟩
  · simp [toList, h.newest_eq_none_iff.mpr rfl]
  · rw [List.concat_eq_append] at h ⊢
    obtain ⟨i, newest, place, -⟩ := h.newest_of_concat
    have size := h.size_eq
    have inside := i.isLt
    simp only [List.length_append, List.length_singleton] at size
    simp only [toList, newest, List.rtake, size]
    apply List.ext_getElem
    · simp
      omega
    · intro k inList _
      simp only [List.length_map, List.length_range] at inList
      have number : older.length + 1 - n + k < (older ++ [g]).length := by simp; omega
      have slot := h.kept _ number _ (by simp; omega) (oldest_place place k)
      simpa only [List.getElem_map, List.getElem_range, List.getElem_drop, List.length_mapIdx,
        List.getElem_mapIdx, List.length_append, List.length_singleton] using slot

end Record

/-- A ring of any size, also of none, after any history: its list is the last groups of the history, each with
its line, its count, its first payload and the generation of its number, and size, emptiness and newest
slot are those of that list. The counts of the slots are the true ones, since no group outgrows them. Nothing
is assumed of the comparison of payloads. -/
theorem ring_keeps_newest_groups [BEq α] (payload : α) (records : List (UInt16 × α)) :
    ((blank payload : Ring α n).recordAll records).toList =
        ((Group.ofRecords records).mapIdx (Group.entry n)).rtake n ∧
      ((blank payload : Ring α n).recordAll records).size = min n (Group.ofRecords records).length ∧
      (((blank payload : Ring α n).recordAll records).isEmpty = true ↔ n = 0 ∨ Group.ofRecords records = []) ∧
      ((blank payload : Ring α n).recordAll records).newest? =
        (if n = 0 then none else ((Group.ofRecords records).mapIdx (Group.entry n)).getLast?) ∧
      ∀ g ∈ Group.ofRecords records, 1 ≤ g.count ∧ g.count ≤ Group.limit := by
  rcases Nat.eq_zero_or_pos n with rfl | positive
  · have nothing : ((blank payload : Ring α 0).recordAll records).newest = none := by
      cases found : ((blank payload : Ring α 0).recordAll records).newest with
      | none => rfl
      | some place => exact place.elim0
    -- the groups do not depend on the ring, so any ring that has slots knows their sizes
    refine ⟨?_, ?_, ?_, ?_, (holds_recordAll Nat.one_pos payload records).sizes⟩
    · simp [toList, nothing, List.rtake]
    · simp [Ring.size, nothing]
    · simp [isEmpty, nothing]
    · simp [newest?, nothing]
  · have holds := holds_recordAll positive payload records
    refine ⟨holds.toList_eq, holds.size_eq, ?_, ?_, holds.sizes⟩
    · rw [isEmpty, Option.isNone_iff_eq_none, holds.newest_eq_none_iff]
      simp [Nat.pos_iff_ne_zero.mp positive]
    · rw [holds.newest?_eq, if_neg (Nat.pos_iff_ne_zero.mp positive)]

/-- A ring of three slots that has wrapped once, and a newest group of two records. -/
example : ((blank 0 : Ring Nat 3).recordAll [(1, 5), (1, 6), (2, 6), (1, 7), (1, 8), (1, 8)]).toList =
    [⟨2, 0, 1, 6⟩, ⟨1, 1, 1, 7⟩, ⟨1, 1, 2, 8⟩] := by decide

end Ring

end PeripheralLayer
