/-!
Pins, named the way board schematics name them: `P6_1` is pin 1 of port 6.
-/
namespace PeripheralLayer

structure Pin where
  port : UInt8
  pin : UInt8
  deriving DecidableEq, Repr

def Pin.text (p : Pin) : String := s!"P{p.port.toNat}_{p.pin.toNat}"

structure BusPins where
  sda : Pin
  scl : Pin
  deriving DecidableEq, Repr

namespace Board

def sda : Pin := ⟨6, 1⟩
def scl : Pin := ⟨6, 0⟩

/-- Supply switch and reset line of the secure element. -/
def supply : Pin := ⟨6, 5⟩
def reset : Pin := ⟨9, 0⟩

def busPins : BusPins := ⟨sda, scl⟩

end Board

end PeripheralLayer
