import PeripheralLayer.Enumerated

/-!
Settings of one I2C bus: what the hardware block is configured to, and how the mediator behaves.
-/
namespace PeripheralLayer.Bus

inductive Role where
  | master
  | slave
  deriving DecidableEq, Repr

structure BlockConfig where
  role : Role
  address : UInt8
  frequency : UInt32
  deriving DecidableEq, Repr

inductive ReinitPolicy where
  | reject
  | accept
  deriving DecidableEq, Repr

/-- Where a handler runs when an interrupt ends a transfer: in the interrupt itself, or in the next
dispatch, until which the bus stays busy. -/
inductive DispatchMode where
  | direct
  | deferred
  deriving DecidableEq, Repr

instance : Enumerated Role where
  all := [.master, .slave]
  name
    | .master => "Master"
    | .slave => "Slave"
  mem_all := by intro a; cases a <;> decide
  name_injective := by intro a b; cases a <;> cases b <;> decide

instance : Enumerated ReinitPolicy where
  all := [.reject, .accept]
  name
    | .reject => "Reject"
    | .accept => "Accept"
  mem_all := by intro a; cases a <;> decide
  name_injective := by intro a b; cases a <;> cases b <;> decide

instance : Enumerated DispatchMode where
  all := [.direct, .deferred]
  name
    | .direct => "Direct"
    | .deferred => "Deferred"
  mem_all := by intro a; cases a <;> decide
  name_injective := by intro a b; cases a <;> cases b <;> decide

def defaultCeiling : UInt16 := 400
def defaultPriority : UInt8 := 3

structure Config where
  ceiling : UInt16 := defaultCeiling
  priority : UInt8 := defaultPriority
  reinit : ReinitPolicy := .reject
  dispatch : DispatchMode := .direct
  deriving DecidableEq, Repr

namespace Config

/-- A rate in hertz. Sixteen bits of kilohertz times a thousand fit into thirty-two bits. -/
def hertz (kilohertz : UInt16) : UInt32 := kilohertz.toUInt32 * 1000

def frequency (c : Config) : UInt32 := hertz c.ceiling

theorem toNat_hertz (k : UInt16) : (hertz k).toNat = k.toNat * 1000 := by
  have bound := k.toNat_lt
  simp only [hertz, UInt32.toNat_mul, UInt16.toNat_toUInt32, UInt32.toNat_ofNat]
  omega

end Config

end PeripheralLayer.Bus
