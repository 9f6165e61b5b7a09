import PeripheralLayer.Proofs.Bus.Turn

/-!
What becomes of requests. Every request that names a handler is answered by exactly one event for that
handler: at once, or after the transfer it started has ended and its outcome has been handed out. The
balance of a run says so for all requests together. The fate of one accepted transfer says when its
outcome is decided, by which step, and that nothing alters it on the way to the handler.
-/
namespace PeripheralLayer.Bus

namespace Moment

def asks (handler : HandlerId) (m : Moment) : Bool := m.asked = some handler

def tells (handler : HandlerId) (m : Moment) : Bool := m.completion.any fun outcome => outcome.handler = handler

theorem quiet_of_asked {m : Moment} {handler : HandlerId} (h : m.asked = some handler) :
    m.verdict = none ∧ m.collects = false := by
  unfold asked at h
  split at h <;> simp_all [verdict, collects, stops, interruptWord]

end Moment

/-- One for the transfer in flight and one for the outcome that waits, if they are this handler's. -/
def Mediator.owed (handler : HandlerId) (m : Mediator) : Nat :=
  (if m.current.any fun transaction => transaction.handler = handler then 1 else 0) +
    if m.pending.any fun outcome => outcome.handler = handler then 1 else 0

def Phase.owed (handler : HandlerId) (p : Phase) : Nat :=
  (if p.current.any fun transaction => transaction.handler = handler then 1 else 0) +
    if p.pending.any fun outcome => outcome.handler = handler then 1 else 0

theorem Mediator.In.owed {m : Mediator} {p : Phase} (h : m.In p) (handler : HandlerId) :
    m.owed handler = p.owed handler := by
  simp only [Mediator.owed, Phase.owed, h.current, h.pending]

theorem Turn.balance {mode : DispatchMode} {held : Option Buffer} {moment : Moment} {p q : Phase}
    (turn : Turn mode held moment p q) (handler : HandlerId) :
    (if moment.tells handler then 1 else 0) + q.owed handler =
      p.owed handler + if moment.asks handler then 1 else 0 := by
  cases turn with
  | still p asked told verdict collects => simp [Moment.tells, Moment.asks, asked, told]
  | answered p answer asked told busy => simp [Moment.tells, Moment.asks, asked, told, Nat.add_comm]
  | started asked told | stopped asked told =>
    simp [Moment.tells, Moment.asks, asked, told, Phase.owed, Phase.current, Phase.pending]
  | accepted transaction asked told =>
    simp [Moment.tells, Moment.asks, asked, told, Phase.owed, Phase.current, Phase.pending]
  | resolved transaction event q asked verdict told prompt freed =>
    rcases freed with rfl | rfl <;>
      simp [Moment.tells, Moment.asks, asked, told, Phase.owed, Phase.current, Phase.pending]
  | recorded transaction event asked verdict told deferred stops =>
    simp [Moment.tells, Moment.asks, asked, told, Phase.owed, Phase.current, Phase.pending]
  | collected outcome q asked collects told freed =>
    rcases freed with rfl | rfl <;>
      simp [Moment.tells, Moment.asks, asked, told, Phase.owed, Phase.current, Phase.pending]

theorem Turns.balance {mode : DispatchMode} {m n : Mediator} {p q : Phase} {past : List Moment}
    (turns : Turns mode m p past n q) (handler : HandlerId) :
    past.countP (Moment.tells handler) + q.owed handler = p.owed handler + past.countP (Moment.asks handler) := by
  induction turns with
  | nil inside => simp
  | cons inside turn tail ih =>
    have one := turn.balance handler
    simp only [List.countP_cons]
    omega

/-- At every point of every run and for every handler, the events handed to it so far and those it is
still owed are as many as the requests made for it. -/
theorem every_request_told_once {config : Config} {past : List Moment} {s : Session} (run : Run config past s)
    (handler : HandlerId) :
    past.countP (Moment.tells handler) + s.client.mediator.owed handler =
      past.countP (Moment.asks handler) := by
  obtain ⟨p, turns⟩ := run.turns
  rw [turns.last.owed handler, turns.balance handler]
  simp [Phase.owed, Phase.current, Phase.pending]

theorem disturbed_write_told_once :
    ∃ s, Run disturbedWrite.config disturbedWrite.moments s ∧ 2 + s.client.mediator.owed 0 = 3 := by
  obtain ⟨s, run, -⟩ := disturbedWrite.run
  refine ⟨s, run, ?_⟩
  have balance := every_request_told_once run 0
  have told : disturbedWrite.moments.countP (Moment.tells 0) = 2 := by decide
  have asked : disturbedWrite.moments.countP (Moment.asks 0) = 3 := by decide
  rwa [told, asked] at balance

/-! The fate of one accepted transfer. -/

def Moment.TurnsAway (m : Moment) : Prop :=
  ∀ answer, m.completion = some answer → answer.event = .busy ∧ m.asked = some answer.handler

/-- The outcome waits, untouched, through all moments up to the first that collects it, which hands it out
as it stands. Without such a moment it waits in the end. -/
def Keeps (outcome : Completion) : List Moment → Mediator → Prop
  | [], final => final.pending = some outcome
  | moment :: later, final =>
    if moment.collects then moment.completion = some outcome
    else moment.TurnsAway ∧ moment.after.pending = some outcome ∧ Keeps outcome later final

/-- The transfer stays in flight up to the first moment with a verdict, and that moment alone decides the
event; the buffer is the one that the block still holds then. The moment hands the outcome to the handler
if the mode is direct or the bus is taken down, and records it otherwise. Without such a moment the
transfer is in flight in the end. -/
def Awaits (mode : DispatchMode) (transaction : Transaction) : Mediator → List Moment → Mediator → Prop
  | _, [], final => final.current = some transaction
  | found, moment :: later, final =>
    match moment.verdict with
    | none =>
      moment.TurnsAway ∧ moment.after.current = some transaction ∧
        Awaits mode transaction moment.after later final
    | some event =>
      let outcome : Completion := ⟨transaction.handler, event, found.block.held⟩
      if mode = .direct ∨ moment.stops then moment.completion = some outcome
      else moment.completion = none ∧ moment.after.pending = some outcome ∧ Keeps outcome later final

namespace Moment

variable {m : Moment}

theorem turnsAway_of_silent (told : m.completion = none) : m.TurnsAway := by
  intro answer found
  cases told.symm.trans found

theorem turnsAway_of_answered {answer : Completion} (asked : m.asked = some answer.handler)
    (told : m.completion = some answer) (busy : answer.event = .busy) : m.TurnsAway := by
  intro other found
  cases told.symm.trans found
  exact ⟨busy, asked⟩

end Moment

section Fate

variable {mode : DispatchMode} {m n : Mediator} {q : Phase} {later : List Moment}

theorem Turns.keeps {outcome : Completion} (turns : Turns mode m (.waiting outcome) later n q) :
    Keeps outcome later n := by
  induction later generalizing m with
  | nil => cases turns with | nil inside => exact inside.pending
  | cons moment later ih =>
    cases turns with
    | cons inside turn tail =>
      unfold Keeps
      cases turn with
      | still p asked told verdict collects =>
        rw [if_neg (by simp [collects outcome rfl])]
        exact ⟨Moment.turnsAway_of_silent told, tail.first.pending, ih tail⟩
      | answered p answer asked told busy =>
        rw [if_neg (by simp [(Moment.quiet_of_asked asked).2])]
        exact ⟨Moment.turnsAway_of_answered asked told (busy.mpr rfl), tail.first.pending, ih tail⟩
      | collected outcome q asked collects told freed =>
        rw [if_pos collects]
        exact told

theorem Turns.awaits {transaction : Transaction} (turns : Turns mode m (.inFlight transaction) later n q) :
    Awaits mode transaction m later n := by
  induction later generalizing m with
  | nil => cases turns with | nil inside => exact inside.current
  | cons moment later ih =>
    cases turns with
    | cons inside turn tail =>
      unfold Awaits
      cases turn with
      | still p asked told verdict collects =>
        rw [verdict transaction rfl]
        exact ⟨Moment.turnsAway_of_silent told, tail.first.current, ih tail⟩
      | answered p answer asked told busy =>
        rw [(Moment.quiet_of_asked asked).1]
        exact ⟨Moment.turnsAway_of_answered asked told (busy.mpr rfl), tail.first.current, ih tail⟩
      | resolved transaction event q asked verdict told prompt freed =>
        rw [verdict]
        dsimp only
        rw [if_pos prompt]
        exact told
      | recorded transaction event asked verdict told deferred stops =>
        rw [verdict]
        dsimp only
        rw [if_neg (by simp [deferred, stops])]
        exact ⟨told, tail.first.pending, tail.keeps⟩

end Fate

theorem Client.issued {c : Client} {p : Phase} (h : c.mediator.In p) {depth : Nat} {direction : Direction}
    {peer : Peer} {source : BufferSource} {length : Nat}
    (accepted : (c.moment depth (.transfer direction peer source length)).reply = .status .success) :
    ∃ handler, peer.handler = some handler ∧
      (c.moment depth (.transfer direction peer source length)).completion = none ∧
      (c.perform (.transfer direction peer source length)).client.mediator.In
        (.inFlight ⟨peer.address, handler⟩) := by
  obtain ⟨c', same, lacking | ⟨buffer, made⟩⟩ := c.perform_transfer direction peer source length
  · simp [moment, lacking] at accepted
  · simp only [moment, made, ofOutcome, Reply.status.injEq] at accepted ⊢
    cases listener : peer.listener with
    | none => simp [Mediator.transfer_of_unheard listener] at accepted
    | some handler =>
      obtain ⟨pins, -, named⟩ := Option.bind_eq_some_iff.mp listener
      rcases Mediator.transfer_phase h listener direction buffer length with
        ⟨-, other, -⟩ | ⟨-, taken, -, silent⟩
      · exact absurd accepted other
      · exact ⟨handler, named, silent, taken⟩

/-- A transfer that was reported as issued stays in flight until the first moment with a verdict, which
decides its event, and the outcome then reaches its handler as it was decided. -/
theorem accepted_transfer_fate {config : Config} {past later : List Moment} {issue : Moment} {s : Session}
    (run : Run config (past ++ issue :: later) s) {direction : Direction} {peer : Peer} {source : BufferSource}
    {length : Nat} (request : issue.step = .transfer direction peer source length)
    (accepted : issue.reply = .status .success) :
    ∃ handler, peer.handler = some handler ∧ issue.completion = none ∧
      Awaits config.dispatch ⟨peer.address, handler⟩ issue.after later s.client.mediator := by
  obtain ⟨found, first, second⟩ := run.passage.split
  obtain ⟨p, kept, turns⟩ := first.turns (fresh_down config)
  cases second with
  | cons c depth step tail =>
    change step = _ at request
    subst request
    obtain ⟨handler, named, silent, inside⟩ := Client.issued turns.last accepted
    obtain ⟨q, -, rest⟩ := tail.turns inside
    rw [c.config_perform, kept] at rest
    exact ⟨handler, named, silent, rest.awaits⟩

def disturbedIssue : Moment := disturbedWrite.moments.get ⟨1, by decide⟩

theorem disturbed_write_fate :
    ∃ s, Run disturbedWrite.config
        (disturbedWrite.moments.take 1 ++ disturbedIssue :: disturbedWrite.moments.drop 2) s ∧
      disturbedIssue.step = .transfer .write boardPeer (.fresh [1, 2]) 2 ∧
      disturbedIssue.reply = .status .success ∧
      (disturbedWrite.moments.drop 2).filterMap Moment.verdict = [.error, .success] ∧
      Awaits .deferred ⟨0x30, 0⟩ disturbedIssue.after (disturbedWrite.moments.drop 2) s.client.mediator := by
  obtain ⟨s, run, -⟩ := disturbedWrite.run
  have split : disturbedWrite.moments =
      disturbedWrite.moments.take 1 ++ disturbedIssue :: disturbedWrite.moments.drop 2 := by decide
  rw [split] at run
  have request : disturbedIssue.step = .transfer .write boardPeer (.fresh [1, 2]) 2 := by decide
  have accepted : disturbedIssue.reply = .status .success := by decide
  obtain ⟨handler, named, -, fate⟩ := accepted_transfer_fate run request accepted
  cases named
  exact ⟨s, run, request, accepted, by decide, fate⟩

end PeripheralLayer.Bus
