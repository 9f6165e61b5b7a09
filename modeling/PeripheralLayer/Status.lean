import PeripheralLayer.Enumerated

/-!
The answers of the layer. A status says whether an operation was issued; an event says how it ended.
The two are told apart because an accepted transfer ends long after it was issued.
-/
namespace PeripheralLayer

inductive Status where
  | success
  | failure
  | busy
  deriving DecidableEq, Repr

inductive Event where
  | success
  | error
  | busy
  deriving DecidableEq, Repr

/-- A bus is busy from the moment a transfer is handed to the hardware until its outcome is delivered. -/
inductive BusState where
  | free
  | busy
  deriving DecidableEq, Repr

instance : Inhabited BusState := ⟨.free⟩

instance : Numbered Status where
  all := [.success, .failure, .busy]
  name
    | .success => "Success"
    | .failure => "Failure"
    | .busy => "Busy"
  number
    | .success => 0
    | .failure => 1
    | .busy => 2
  mem_all := by intro a; cases a <;> decide
  name_injective := by intro a b; cases a <;> cases b <;> decide
  number_injective := by intro a b; cases a <;> cases b <;> decide

instance : Numbered Event where
  all := [.success, .error, .busy]
  name
    | .success => "Success"
    | .error => "Error"
    | .busy => "Busy"
  number
    | .success => 0
    | .error => 1
    | .busy => 2
  mem_all := by intro a; cases a <;> decide
  name_injective := by intro a b; cases a <;> cases b <;> decide
  number_injective := by intro a b; cases a <;> cases b <;> decide

instance : Enumerated BusState where
  all := [.free, .busy]
  name
    | .free => "Free"
    | .busy => "Busy"
  mem_all := by intro a; cases a <;> decide
  name_injective := by intro a b; cases a <;> cases b <;> decide

def Status.isSuccess (s : Status) : Bool := s = .success

def Status.toEvent : Status → Event
  | .success => .success
  | .failure => .error
  | .busy => .busy

theorem Status.number_toEvent (s : Status) : Numbered.number s.toEvent = Numbered.number s := by
  cases s <;> rfl

end PeripheralLayer
