import PeripheralLayer.Pin
import PeripheralLayer.Text.Shown

/-!
The peer of a bus operation, as its caller describes it: the pins of the bus, the address of the
device, and the handler that is told how the operation ends. Pins or handler may be missing.
-/
namespace PeripheralLayer

/-- Handlers are known by their place among the handlers of a program. -/
abbrev HandlerId := Nat

structure Peer where
  pins : Option BusPins
  address : UInt8
  handler : Option HandlerId
  deriving DecidableEq, Repr

open Text

def Pin.shown (p : Pin) : Shown :=
  .record "PortPin" [("port", .atom (toString p.port.toNat)), ("pin", .atom (toString p.pin.toNat))]

def BusPins.shown (p : BusPins) : Shown :=
  .record "I2cInterface" [("sda", p.sda.shown), ("scl", p.scl.shown)]

def Peer.shown (p : Peer) : Shown :=
  let pins := match p.pins with
    | none => Shown.atom "None"
    | some pins => .wrapped "Some" pins.shown
  .record "I2cContext"
    [("hw", pins), ("slave_address", .atom (toString p.address.toNat)),
     ("upper_layer", .atom (toString p.handler.isSome))]

end PeripheralLayer
