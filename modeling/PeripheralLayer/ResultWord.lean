import PeripheralLayer.Status

/-!
Result words of the hardware drivers. The high half of a word names the driver it came from, the low
half carries that driver's own code. Only the low half decides how a refused transfer is reported.
-/
namespace PeripheralLayer

inductive Origin where
  | gpio
  | i2c
  | timer
  deriving DecidableEq, Repr

inductive BusFault where
  | invalidPin
  | rateOutOfReach
  | addressSize
  | buffersEmpty
  | previousPending
  | powerRefused
  deriving DecidableEq, Repr

instance : Numbered Origin where
  all := [.gpio, .i2c, .timer]
  name
    | .gpio => "Gpio"
    | .i2c => "I2c"
    | .timer => "Timer"
  number
    | .gpio => 1
    | .i2c => 2
    | .timer => 3
  mem_all := by intro a; cases a <;> decide
  name_injective := by intro a b; cases a <;> cases b <;> decide
  number_injective := by intro a b; cases a <;> cases b <;> decide

instance : Numbered BusFault where
  all := [.invalidPin, .rateOutOfReach, .addressSize, .buffersEmpty, .previousPending, .powerRefused]
  name
    | .invalidPin => "InvalidPin"
    | .rateOutOfReach => "CanNotReachDataRate"
    | .addressSize => "InvalidAddressSize"
    | .buffersEmpty => "TxRxBuffersEmpty"
    | .previousPending => "PreviousAsyncPending"
    | .powerRefused => "PmCallback"
  number
    | .invalidPin => 0
    | .rateOutOfReach => 1
    | .addressSize => 2
    | .buffersEmpty => 3
    | .previousPending => 4
    | .powerRefused => 5
  mem_all := by intro a; cases a <;> decide
  name_injective := by intro a b; cases a <;> cases b <;> decide
  number_injective := by intro a b; cases a <;> cases b <;> decide

structure ResultWord where
  bits : UInt32
  deriving DecidableEq, Repr

namespace ResultWord

def ofCode (origin : Origin) (code : UInt16) : ResultWord :=
  ⟨(UInt32.ofNat (Numbered.number origin) <<< 16) ||| code.toUInt32⟩

def ofFault (fault : BusFault) : ResultWord := ofCode .i2c (UInt16.ofNat (Numbered.number fault))

instance : Coe BusFault ResultWord := ⟨ofFault⟩

def code (w : ResultWord) : UInt16 := w.bits.toUInt16

def origin? (w : ResultWord) : Option Origin := Numbered.ofNumber? ((w.bits >>> 16).toNat : Int)

def fault? (w : ResultWord) : Option BusFault := Numbered.ofNumber? (w.code.toNat : Int)

/-- What a caller is told of a refused transfer. Only an earlier transfer still pending means that the
bus is busy; every other code, a code no driver defines included, is a failure. -/
def status (w : ResultWord) : Status :=
  match w.fault? with
  | some .previousPending => .busy
  | _ => .failure

def text (w : ResultWord) : String := s!"HalError({w.bits.toNat})"

end ResultWord

end PeripheralLayer
