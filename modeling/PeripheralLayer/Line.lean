import PeripheralLayer.Pin
import PeripheralLayer.Status

/-!
Output lines, such as a supply switch or a reset. A line drives its pin from a successful `init` until
the next `deinit`; outside that time levels are ignored. A board that does not wire a line leaves it
unconnected, and then nothing is ever written.

The pin below a line is simulated by its wiring, which says what writes fail. A write is attempted on
the pin whether or not it then fails.
-/
namespace PeripheralLayer

inductive Level where
  | low
  | high
  deriving DecidableEq, Repr

structure Wiring where
  lowFails : Bool := false
  highFails : Bool := false
  deriving DecidableEq, Repr

structure Attempt where
  level : Level
  failed : Bool
  deriving DecidableEq, Repr

def Attempt.text (a : Attempt) : String :=
  (match a.level with | .low => "low" | .high => "high") ++ (if a.failed then "!" else "")

def Wiring.write (w : Wiring) (level : Level) : Attempt :=
  ⟨level, match level with | .low => w.lowFails | .high => w.highFails⟩

structure Line where
  id : Pin
  connected : Bool
  driving : Bool := false
  deriving DecidableEq, Repr

namespace Line

def init (l : Line) (w : Wiring) : Line × Status × List Attempt :=
  if l.connected then
    let attempt := w.write .low
    if attempt.failed then (l, .failure, [attempt])
    else ({ l with driving := true }, .success, [attempt])
  else (l, .failure, [])

def deinit (l : Line) : Line × Status := ({ l with driving := false }, .success)

def drive (l : Line) (w : Wiring) (level : Level) : List Attempt :=
  if l.driving && l.connected then [w.write level] else []

end Line

/-! A bench for one line. It can take the pin out of the line and make a new line of it. -/

inductive LineUse where
  | init
  | deinit
  | drive (level : Level)
  | release
  deriving DecidableEq, Repr

inductive LineStep where
  | use (use : LineUse)
  | fail (low high : Bool)
  | rewrap (id : Pin)
  deriving DecidableEq, Repr

inductive LineReply where
  | nothing
  | status (status : Status)
  | pin (present : Bool)
  | released
  deriving DecidableEq, Repr

/-- `spare` says whether a pin taken out of a line is at hand. -/
structure LineBench where
  line : Option Line
  spare : Bool := false
  wiring : Wiring := {}
  deriving DecidableEq, Repr

structure LineMoment where
  reply : LineReply
  attempts : List Attempt
  after : LineBench
  deriving DecidableEq, Repr

namespace LineBench

def pinAtHand (b : LineBench) : Bool :=
  match b.line with
  | some line => line.connected
  | none => b.spare

def use (b : LineBench) (line : Line) : LineUse → LineMoment
  | .init =>
    match line.init b.wiring with
    | (line, status, attempts) => ⟨.status status, attempts, { b with line := some line }⟩
  | .deinit =>
    match line.deinit with
    | (line, status) => ⟨.status status, [], { b with line := some line }⟩
  | .drive level => ⟨.nothing, line.drive b.wiring level, b⟩
  | .release => ⟨.pin line.connected, [], { b with line := none, spare := line.connected }⟩

def perform (b : LineBench) : LineStep → LineMoment
  | .use u =>
    match b.line with
    | none => ⟨.released, [], b⟩
    | some line => b.use line u
  | .fail low high => ⟨.nothing, [], { b with wiring := ⟨low, high⟩ }⟩
  | .rewrap id => ⟨.nothing, [], { b with line := some { id, connected := b.pinAtHand }, spare := false }⟩

def run (b : LineBench) : List LineStep → List LineMoment
  | [] => []
  | step :: steps =>
    let moment := b.perform step
    moment :: moment.after.run steps

end LineBench

end PeripheralLayer
