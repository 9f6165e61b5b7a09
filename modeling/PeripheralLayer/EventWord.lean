/-!
Interrupt words of the I2C block. One interrupt entry may report several sources at once, and a word
may carry bits that no source has; those are kept, and play no part in any decision.
-/
namespace PeripheralLayer

structure EventWord where
  bits : UInt32
  deriving DecidableEq, Repr

namespace EventWord

def writeInFifo : EventWord := ⟨(1 : UInt32) <<< 17⟩
def writeComplete : EventWord := ⟨(1 : UInt32) <<< 18⟩
def readComplete : EventWord := ⟨(1 : UInt32) <<< 19⟩
def transferError : EventWord := ⟨(1 : UInt32) <<< 20⟩

def union (a b : EventWord) : EventWord := ⟨a.bits ||| b.bits⟩
def inter (a b : EventWord) : EventWord := ⟨a.bits &&& b.bits⟩

def isEmpty (w : EventWord) : Bool := w.bits = 0
def intersects (a b : EventWord) : Bool := !(a.inter b).isEmpty

def contains (a b : EventWord) : Bool := a.inter b = b

def sources : List (String × EventWord) :=
  [("MASTER_WR_IN_FIFO", writeInFifo), ("MASTER_WR_CMPLT", writeComplete),
   ("MASTER_RD_CMPLT", readComplete), ("MASTER_ERR", transferError)]

def all : EventWord := writeInFifo.union (writeComplete.union (readComplete.union transferError))

/-- The sources a mediator listens to: all that can end a transfer. -/
def mediated : EventWord := writeComplete.union (readComplete.union transferError)

def isError (w : EventWord) : Bool := w.contains transferError
def isComplete (w : EventWord) : Bool := w.intersects (writeComplete.union readComplete)

def ofBits? (bits : UInt32) : Option EventWord := if bits &&& all.bits = bits then some ⟨bits⟩ else none

def truncate (w : EventWord) : EventWord := w.inter all

def names (w : EventWord) : List String := (sources.filter fun s => w.contains s.2).map Prod.fst

def unnamed (w : EventWord) : UInt32 := w.bits &&& ~~~all.bits

def hexText (bits : UInt32) : String := "0x" ++ String.ofList (Nat.toDigits 16 bits.toNat)

def text (w : EventWord) : String :=
  let parts := w.names ++ (if w.unnamed = 0 then [] else [hexText w.unnamed])
  let inside := if parts.isEmpty then hexText 0 else " | ".intercalate parts
  s!"I2cEvents({inside})"

end EventWord

end PeripheralLayer
