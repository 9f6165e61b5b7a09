/-!
Trace rings: the last few records of a driver. A record that repeats the newest one, from the same line
and with an equal payload, is counted in its slot instead of taking a new one, so a stuck loop does not
push everything else out. Payloads are compared as their type compares them, which need not be
reflexive; a slot keeps the payload it was opened with.
-/
namespace PeripheralLayer

/-- One slot. `generation` tells how often the ring had wrapped when the slot was opened, and `count` how
many records it stands for; a slot not opened yet stands for none. -/
structure Entry (α : Type) where
  line : UInt16
  generation : UInt16
  count : UInt16
  payload : α
  deriving DecidableEq, Repr

/-- A ring of `n` slots, with the place of the newest. A ring without slots has no newest one, and drops
every record. -/
structure Ring (α : Type) (n : Nat) where
  newest : Option (Fin n)
  slots : Vector (Entry α) n
  deriving DecidableEq, Repr

namespace Ring

variable {α : Type} {n : Nat}

def blank (payload : α) : Ring α n := ⟨none, Vector.replicate n ⟨0, 0, 0, payload⟩⟩

def fullCount : UInt16 := 65535

def around (i : Fin n) (k : Nat) : Fin n := ⟨k % n, Nat.mod_lt _ (Nat.zero_lt_of_lt i.isLt)⟩

def following (i : Fin n) : Fin n := around i (i.val + 1)

def openSlot (r : Ring α n) (i : Fin n) (generation line : UInt16) (payload : α) : Ring α n :=
  ⟨some i, r.slots.set i ⟨line, generation, 1, payload⟩⟩

def folds [BEq α] (entry : Entry α) (line : UInt16) (payload : α) : Bool :=
  entry.line == line && entry.payload == payload && entry.count != fullCount

def record [BEq α] (r : Ring α n) (line : UInt16) (payload : α) : Ring α n :=
  match r.newest with
  | none => if h : 0 < n then r.openSlot ⟨0, h⟩ 0 line payload else r
  | some i =>
    let entry := r.slots[i]
    if folds entry line payload then
      { r with slots := r.slots.set i { entry with count := entry.count + 1 } }
    else if i.val + 1 < n then r.openSlot (following i) entry.generation line payload
    else r.openSlot (following i) (entry.generation + 1) line payload

def recordAll [BEq α] (r : Ring α n) (records : List (UInt16 × α)) : Ring α n :=
  records.foldl (fun r entry => r.record entry.1 entry.2) r

/-- The number of slots in use. While the ring has not wrapped, the slot after the newest stands for
nothing. -/
def size (r : Ring α n) : Nat :=
  match r.newest with
  | none => 0
  | some i => if r.slots[following i].count = 0 then i.val + 1 else n

def isEmpty (r : Ring α n) : Bool := r.newest.isNone

def newest? (r : Ring α n) : Option (Entry α) := r.newest.map fun i => r.slots[i]

def toList (r : Ring α n) : List (Entry α) :=
  match r.newest with
  | none => []
  | some i => (List.range r.size).map fun k => r.slots[around i (i.val + 1 + n - r.size + k)]

end Ring

end PeripheralLayer
