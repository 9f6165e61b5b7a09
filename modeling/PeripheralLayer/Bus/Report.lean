import PeripheralLayer.Bus.Session

/-!
Reports: the moments of a session, arranged by the callbacks they were made in. A step's report holds
the reports of the reaction that ran inside it, and the mediator as it was when the step returned.
-/
namespace PeripheralLayer.Bus

/-- `settled` is the mediator after the step and all that ran inside it, and `cleared` says whether the
block's log was cleared meanwhile. -/
inductive Report where
  | mk (moment : Moment) (settled : Mediator) (cleared : Bool) (reaction : List Report)

namespace Report

def moment : Report → Moment
  | mk moment _ _ _ => moment

def settled : Report → Mediator
  | mk _ settled _ _ => settled

def cleared : Report → Bool
  | mk _ _ cleared _ => cleared

def reaction : Report → List Report
  | mk _ _ _ reaction => reaction

/-- The report of a step whose reaction has been reported. Nothing happens between the last step of a
reaction and the return, so what that step left is what the outer step leaves. -/
def around (moment : Moment) (reaction : List Report) : Report :=
  mk moment ((reaction.getLast?.map settled).getD moment.after)
    (moment.step = .clearLog || reaction.any cleared) reaction

def arrange : List Moment → List Report
  | [] => []
  | moment :: later =>
    let reports := arrange later
    let inside := fun (r : Report) => decide (moment.depth < r.moment.depth)
    around moment (reports.takeWhile inside) :: reports.dropWhile inside

def withCalls : Nat → List Report → List (Report × List Call)
  | _, [] => []
  | told, r :: later =>
    let log := r.settled.block.log
    (r, if r.cleared then log else log.drop told) :: withCalls log.length later

end Report

def Scenario.report (s : Scenario) : List (Report × List Call) :=
  Report.withCalls 0 (Report.arrange s.moments)

end PeripheralLayer.Bus
