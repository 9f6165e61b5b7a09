import PeripheralLayer.Proofs.Bus.Turn

/-!
Runs told in full. A deed is a step together with the client that made it, so what the step found, which
buffer it lent and what it left behind can be read off it. A chronicle lists the deeds of a run in order.
Every run has a chronicle, which tells the same moments.

A step either enters the mediator, and then does nothing else, or stays outside of it. What is said of all
chronicles is proved once for a fresh mediator and once for a deed, by `Chronicle.keeps`.
-/
namespace PeripheralLayer.Bus

inductive Entry where
  | start (peer : Peer)
  | stop (peer : Peer)
  | transfer (peer : Peer) (direction : Direction) (buffer : Buffer) (length : Nat)
  | setRate (peer : Peer) (kilohertz : UInt16)
  | interrupt (events : EventWord)
  | dispatch
  deriving DecidableEq, Repr

def Mediator.enter (m : Mediator) : Entry → Mediator × Option Completion
  | .start peer => ((m.start peer).mediator, (m.start peer).completion)
  | .stop peer => ((m.stop peer).mediator, (m.stop peer).completion)
  | .transfer peer direction buffer length =>
    ((m.transfer peer direction buffer length).mediator, (m.transfer peer direction buffer length).completion)
  | .setRate peer kilohertz => ((m.setRate peer kilohertz).mediator, (m.setRate peer kilohertz).completion)
  | .interrupt events => m.interrupt events
  | .dispatch => m.dispatch

/-- The entry by which a step reaches the mediator. A transfer without a buffer never does, nor does an
interrupt without a sink. -/
def Client.entry (c : Client) : Step → Option Entry
  | .start peer => some (.start peer)
  | .stop peer => some (.stop peer)
  | .transfer direction peer source length => (c.take source).2.map (.transfer peer direction · length)
  | .setRate peer kilohertz => some (.setRate peer kilohertz)
  | .interrupt events => some (.interrupt events)
  | .raise events => if c.mediator.block.sink then some (.interrupt events) else none
  | .raiseLatched events => if c.latched then some (.interrupt events) else none
  | .dispatch => some .dispatch
  | .latch | .save | .inject _ | .clearLog | .readLog | .countLog _ | .direct _ => none

inductive Client.Enters (c : Client) : Step → Entry → Prop where
  | start (peer : Peer) : c.Enters (.start peer) (.start peer)
  | stop (peer : Peer) : c.Enters (.stop peer) (.stop peer)
  | transfer {c' : Client} {direction : Direction} {peer : Peer} {source : BufferSource} {length : Nat} {buffer : Buffer}
      (taken : c.take source = (c', some buffer)) :
      c.Enters (.transfer direction peer source length) (.transfer peer direction buffer length)
  | setRate (peer : Peer) (kilohertz : UInt16) : c.Enters (.setRate peer kilohertz) (.setRate peer kilohertz)
  | interrupt (events : EventWord) : c.Enters (.interrupt events) (.interrupt events)
  | raise (events : EventWord) (reaches : c.mediator.block.sink = true) : c.Enters (.raise events) (.interrupt events)
  | raiseLatched (events : EventWord) (reaches : c.latched = true) :
      c.Enters (.raiseLatched events) (.interrupt events)
  | dispatch : c.Enters .dispatch .dispatch

def Step.mediated : Step → Bool
  | .direct _ => false
  | _ => true

def Step.sparesBuffers : Step → Bool
  | .direct (.transfer ..) | .direct .abort | .direct .release | .direct .reclaim => false
  | _ => true

namespace Client

variable {c : Client} {step : Step}

theorem enters_of_entry {entry : Entry} (enters : c.entry step = some entry) : c.Enters step entry := by
  cases step with
  | start peer =>
    cases enters
    exact .start peer
  | stop peer =>
    cases enters
    exact .stop peer
  | transfer direction peer source length =>
    obtain ⟨buffer, lent, rfl⟩ := Option.map_eq_some_iff.mp enters
    exact .transfer (Prod.ext rfl lent)
  | setRate peer kilohertz =>
    cases enters
    exact .setRate peer kilohertz
  | interrupt events =>
    cases enters
    exact .interrupt events
  | raise events =>
    obtain ⟨reaches, same⟩ := Option.ite_none_right_eq_some.mp enters
    cases same
    exact .raise events reaches
  | raiseLatched events =>
    obtain ⟨reaches, same⟩ := Option.ite_none_right_eq_some.mp enters
    cases same
    exact .raiseLatched events reaches
  | dispatch =>
    cases enters
    exact .dispatch
  | latch | save | inject | clearLog | readLog | countLog | direct => cases enters

theorem perform_of_entry {entry : Entry} (enters : c.entry step = some entry) :
    (c.perform step).client.mediator = (c.mediator.enter entry).1 ∧
      (c.perform step).completion = (c.mediator.enter entry).2 := by
  cases enters_of_entry enters with
  | transfer taken =>
    rw [perform_transfer_of_taken taken]
    exact ⟨rfl, rfl⟩
  | raise events reaches | raiseLatched events reaches =>
    simp only [perform, reaches, if_true, interrupt, Mediator.enter, and_self]
  | start | stop | setRate | interrupt | dispatch => exact ⟨rfl, rfl⟩

theorem perform_outside (outside : c.entry step = none) :
    (c.perform step).completion = none ∧
      ∃ block, (c.perform step).client.mediator = { c.mediator with block } := by
  cases step with
  | transfer direction peer source length =>
    have lacking : (c.take source).2 = none := by simpa [entry] using outside
    rw [perform_transfer_of_lacking lacking]
    exact ⟨rfl, c.mediator.block, c.mediator_take source⟩
  | raise events | raiseLatched events =>
    have lost := outside
    simp only [entry, ite_eq_right_iff, reduceCtorEq, imp_false] at lost
    simp only [perform, lost]
    exact ⟨rfl, c.mediator.block, rfl⟩
  | inject injection => exact c.inject_bench injection
  | direct call => exact c.direct_bench call
  | latch | save | clearLog | readLog | countLog => exact ⟨rfl, _, rfl⟩
  | start | stop | setRate | interrupt | dispatch => cases outside

end Client

structure Deed where
  client : Client
  depth : Nat
  step : Step
  deriving DecidableEq, Repr

namespace Deed

def moment (d : Deed) : Moment := d.client.moment d.depth d.step

def found (d : Deed) : Mediator := d.client.mediator

def left (d : Deed) : Mediator := (d.client.perform d.step).client.mediator

def told (d : Deed) : Option Completion := (d.client.perform d.step).completion

def entry (d : Deed) : Option Entry := d.client.entry d.step

def calls (d : Deed) : List Call := d.left.block.heard.drop d.found.block.heard.length

theorem left_of_entry {d : Deed} {entry : Entry} (enters : d.entry = some entry) :
    d.left = (d.found.enter entry).1 ∧ d.told = (d.found.enter entry).2 :=
  Client.perform_of_entry enters

theorem perform_of_interrupt {d : Deed} {events : EventWord} (enters : d.entry = some (.interrupt events)) :
    d.client.perform d.step = d.client.interrupt events := by
  obtain ⟨c, depth, step⟩ := d
  cases Client.enters_of_entry enters with
  | interrupt events => rfl
  | raise events reaches | raiseLatched events reaches => exact if_pos reaches

end Deed

def Session.deed (s : Session) : Option Deed := s.steps.head?.map (⟨s.client, s.outer.length, ·⟩)

inductive Chronicle (config : Config) : List Deed → Session → Prop where
  | fresh (steps : List Step) (reactions : List (List Reaction)) :
      Chronicle config [] (.fresh config steps reactions)
  | advance {past : List Deed} {s t : Session} {moment : Option Moment}
      (before : Chronicle config past s) (next : s.advance = some (t, moment)) :
      Chronicle config (past ++ s.deed.toList) t
  | replan {past : List Deed} {s : Session} (steps : List Step) (reactions : List (List Reaction))
      (before : Chronicle config past s) : Chronicle config past { s with steps, reactions }

theorem Session.advance_deed {s t : Session} {moment : Option Moment} (h : s.advance = some (t, moment)) :
    moment = s.deed.map Deed.moment ∧ t.client.mediator = (s.deed.map Deed.left).getD s.client.mediator := by
  unfold advance at h
  split at h
  · rename_i step steps eq
    simp only [Option.some.injEq, Prod.mk.injEq] at h
    obtain ⟨rfl, rfl⟩ := h
    have due : s.deed = some ⟨s.client, s.outer.length, step⟩ := by simp [deed, eq]
    rw [due]
    exact ⟨rfl, mediator_deliver _ _⟩
  · rename_i eq
    have none_due : s.deed = none := by simp [deed, eq]
    rw [none_due]
    split at h
    · exact absurd h (by simp)
    · simp only [Option.some.injEq, Prod.mk.injEq] at h
      obtain ⟨rfl, rfl⟩ := h
      exact ⟨rfl, rfl⟩

theorem Run.chronicle {config : Config} {past : List Moment} {s : Session} (run : Run config past s) :
    ∃ deeds, Chronicle config deeds s ∧ deeds.map Deed.moment = past := by
  induction run with
  | fresh steps reactions => exact ⟨[], .fresh steps reactions, rfl⟩
  | @advance past s t moment before next ih =>
    obtain ⟨deeds, told, same⟩ := ih
    obtain ⟨rfl, -⟩ := Session.advance_deed next
    refine ⟨_, told.advance next, ?_⟩
    cases s.deed <;> simp [same]
  | replan steps reactions before ih =>
    obtain ⟨deeds, told, same⟩ := ih
    exact ⟨deeds, told.replan steps reactions, same⟩

theorem Chronicle.run {config : Config} {past : List Deed} {s : Session} (told : Chronicle config past s) :
    Run config (past.map Deed.moment) s := by
  induction told with
  | fresh steps reactions => exact .fresh steps reactions
  | @advance past s t moment before next ih =>
    have whole := ih.advance next
    obtain ⟨rfl, -⟩ := Session.advance_deed next
    cases due : s.deed <;> simpa [due] using whole
  | replan steps reactions before ih => exact .replan steps reactions ih

/-- What holds of a fresh mediator and is kept by every deed holds at every point of every chronicle. A deed
finds a mediator in one of its phases and with the configuration it began with. -/
theorem Chronicle.keeps {config : Config} {past : List Deed} {s : Session} (told : Chronicle config past s)
    (allowed : Step → Prop) (Holds : List Deed → Phase → Mediator → Prop)
    (start : Holds [] .down { config })
    (keeps : ∀ past d p, allowed d.step → d.found.config = config → d.found.In p → Holds past p d.found →
      ∃ q, d.left.In q ∧ Holds (past ++ [d]) q d.left)
    (kind : ∀ d ∈ past, allowed d.step) :
    ∃ p, s.client.mediator.In p ∧ Holds past p s.client.mediator := by
  -- what a deed may do depends on the configuration, so the induction carries it along
  suffices whole : s.client.mediator.config = config ∧
      ∃ p, s.client.mediator.In p ∧ Holds past p s.client.mediator from whole.2
  induction told with
  | fresh steps reactions => exact ⟨rfl, .down, fresh_down config, start⟩
  | @advance past s t moment before next ih =>
    obtain ⟨same, p, inside, holds⟩ := ih fun d mem => kind d (List.mem_append_left _ mem)
    obtain ⟨-, left⟩ := Session.advance_deed next
    rw [left]
    cases due : s.deed with
    | none =>
      rw [Option.toList_none, List.append_nil]
      exact ⟨same, p, inside, holds⟩
    | some d =>
      have found : d.found = s.client.mediator := by
        obtain ⟨step, -, rfl⟩ := Option.map_eq_some_iff.mp due
        rfl
      rw [← found] at same inside holds
      have kept : d.left.config = config := (Client.config_perform d.client d.step).trans same
      exact ⟨kept, keeps past d p (kind d (by simp [due])) same inside holds⟩
  | replan steps reactions before ih => exact ih kind

def Session.deedsWithin : Nat → Session → List Deed
  | 0, _ => []
  | fuel + 1, s =>
    match s.advance with
    | none => []
    | some (next, _) => s.deed.toList ++ deedsWithin fuel next

def Scenario.deeds (s : Scenario) : List Deed := Session.deedsWithin s.session.work s.session

theorem Chronicle.onward {config : Config} {past : List Deed} {s : Session} (told : Chronicle config past s)
    (fuel : Nat) : ∃ t, Chronicle config (past ++ s.deedsWithin fuel) t := by
  induction fuel generalizing past s with
  | zero => exact ⟨s, by simpa [Session.deedsWithin] using told⟩
  | succ fuel ih =>
    cases next : s.advance with
    | none => exact ⟨s, by simpa [Session.deedsWithin, next] using told⟩
    | some pair =>
      obtain ⟨t, moment⟩ := pair
      obtain ⟨u, whole⟩ := ih (told.advance next)
      refine ⟨u, ?_⟩
      simpa only [Session.deedsWithin, next, List.append_assoc] using whole

theorem Scenario.chronicle (s : Scenario) : ∃ t, Chronicle s.config s.deeds t :=
  (Chronicle.fresh s.steps s.handlers).onward _

end PeripheralLayer.Bus
