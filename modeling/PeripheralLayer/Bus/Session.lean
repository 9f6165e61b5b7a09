import PeripheralLayer.Bus.Scenario

/-!
Sessions: the course of a scenario. A session advances by one step of the innermost callback at a time.
When a step's section yields a completion, the callback begins at once, before anything else happens,
and the code that made the step waits until the callback is over. Each step leaves a moment behind; the
moments of a session, in order, are everything that happened in it.

A session comes to its end, since every reaction is used at most once: `Session.work` goes down with
each advance.
-/
namespace PeripheralLayer.Bus

/-- Client code in the middle of a scenario: the mediator it uses, and the buffers in its hands.
`returned` is the one the running callback was handed. -/
structure Client where
  mediator : Mediator
  returned : Option Buffer := none
  saved : Option Buffer := none
  latched : Bool := false
  nextTag : Nat := 0
  deriving DecidableEq, Repr

structure Effect where
  client : Client
  reply : Reply
  completion : Option Completion := none
  deriving DecidableEq, Repr

namespace Client

def take (c : Client) : BufferSource → Client × Option Buffer
  | .fresh bytes => ({ c with nextTag := c.nextTag + 1 }, some ⟨c.nextTag, bytes⟩)
  | .returned => ({ c with returned := none }, c.returned)
  | .saved => ({ c with saved := none }, c.saved)

def interrupt (c : Client) (events : EventWord) : Effect :=
  match c.mediator.interrupt events with
  | (mediator, completion) => ⟨{ c with mediator }, .nothing, completion⟩

def withBlock (c : Client) (block : Block) : Client := { c with mediator.block := block }

def inject (c : Client) : Injection → Effect
  | .fault stage word => ⟨c.withBlock (c.mediator.block.plant stage word), .nothing, none⟩
  | .topRate hertz => ⟨c.withBlock { c.mediator.block with topRate := hertz }, .nothing, none⟩
  | .response bytes =>
    match c.mediator.block.respond bytes with
    | (block, taken) => ⟨c.withBlock block, .flag taken, none⟩

def replyOfFault : Option ResultWord → Reply
  | none => .started
  | some word => .refused word []

def direct (c : Client) : DirectCall → Effect
  | .acquire pins =>
    match c.mediator.block.acquire pins with
    | (block, fault) => ⟨c.withBlock block, replyOfFault fault, none⟩
  | .configure config =>
    match c.mediator.block.configure config with
    | (block, fault) => ⟨c.withBlock block, replyOfFault fault, none⟩
  | .register => ⟨c.withBlock c.mediator.block.register, .nothing, none⟩
  | .enableEvents events priority on =>
    ⟨c.withBlock (c.mediator.block.enableEvents events priority on), .nothing, none⟩
  | .transfer address direction source length =>
    match c.take source with
    | (c, none) => ⟨c, .noBuffer, none⟩
    | (c, some buffer) =>
      match c.mediator.block.transfer address direction buffer length with
      | (block, none) => ⟨c.withBlock block, .started, none⟩
      | (block, some refusal) => ⟨c.withBlock block, .refused refusal.word refusal.buffer.bytes, none⟩
  | .abort => ⟨c.withBlock c.mediator.block.abort, .nothing, none⟩
  | .release => ⟨c.withBlock c.mediator.block.release, .nothing, none⟩
  | .reclaim =>
    match c.mediator.block.reclaim with
    | (block, buffer) => ⟨c.withBlock block, .bytes (buffer.map Buffer.bytes), none⟩
  | .setRate hertz =>
    match c.mediator.block.setRate hertz with
    | (block, reached) => ⟨c.withBlock block, .rate reached, none⟩

def ofOutcome (c : Client) (o : Outcome) : Effect :=
  ⟨{ c with mediator := o.mediator }, .status o.status, o.completion⟩

def perform (c : Client) : Step → Effect
  | .start peer => c.ofOutcome (c.mediator.start peer)
  | .stop peer => c.ofOutcome (c.mediator.stop peer)
  | .transfer direction peer source length =>
    match c.take source with
    | (c, none) => ⟨c, .noBuffer, none⟩
    | (c, some buffer) => c.ofOutcome (c.mediator.transfer peer direction buffer length)
  | .setRate peer kilohertz => c.ofOutcome (c.mediator.setRate peer kilohertz)
  | .interrupt events => c.interrupt events
  | .raise events => if c.mediator.block.sink then c.interrupt events else ⟨c, .noSink, none⟩
  | .latch => ⟨{ c with latched := c.mediator.block.sink }, .flag c.mediator.block.sink, none⟩
  | .raiseLatched events => if c.latched then c.interrupt events else ⟨c, .noSink, none⟩
  | .dispatch =>
    match c.mediator.dispatch with
    | (mediator, completion) => ⟨{ c with mediator }, .flag completion.isSome, completion⟩
  | .save => ⟨{ c with saved := c.returned, returned := none }, .flag c.returned.isSome, none⟩
  | .inject injection => c.inject injection
  | .clearLog => ⟨c.withBlock c.mediator.block.clearLog, .nothing, none⟩
  | .readLog => ⟨c, .calls c.mediator.block.log, none⟩
  | .countLog name => ⟨c, .count (c.mediator.block.count name), none⟩
  | .direct call => c.direct call

end Client

structure Frame where
  returned : Option Buffer
  steps : List Step
  deriving DecidableEq, Repr

/-- `steps` are those the innermost code has still to make, `outer` the code around it, innermost first,
and `reactions` what is left of every handler's script. -/
structure Session where
  client : Client
  steps : List Step
  outer : List Frame := []
  reactions : List (List Reaction)
  deriving DecidableEq, Repr

/-- One step and what it did. `depth` counts the callbacks it was made in, `completion` is the callback
that began right after it, and `after` is the mediator which that callback, or else the next step, found. -/
structure Moment where
  depth : Nat
  step : Step
  reply : Reply
  completion : Option Completion
  after : Mediator
  deriving DecidableEq, Repr

namespace Session

def takeReaction (reactions : List (List Reaction)) (handler : HandlerId) :
    Reaction × List (List Reaction) :=
  match reactions[handler]? with
  | some (reaction :: later) => (reaction, reactions.set handler later)
  | _ => ([], reactions)

def deliver (s : Session) : Option Completion → Session
  | none => s
  | some completion =>
    match takeReaction s.reactions completion.handler with
    | (reaction, reactions) =>
      { client := { s.client with returned := completion.buffer }
        steps := reaction
        outer := ⟨s.client.returned, s.steps⟩ :: s.outer
        reactions }

def advance (s : Session) : Option (Session × Option Moment) :=
  match s.steps with
  | step :: steps =>
    let effect := s.client.perform step
    some ({ s with client := effect.client, steps }.deliver effect.completion,
      some ⟨s.outer.length, step, effect.reply, effect.completion, effect.client.mediator⟩)
  | [] =>
    match s.outer with
    | [] => none
    -- The callback returns to the code around it.
    | frame :: outer =>
      some ({ s with client := { s.client with returned := frame.returned }, steps := frame.steps, outer }, none)

def scriptWork (reactions : List (List Reaction)) : Nat :=
  2 * reactions.flatten.flatten.length

/-- Bounds the advances still to come: two for each step, which may begin a callback, and one for each
return. -/
def work (s : Session) : Nat :=
  2 * s.steps.length + (2 * (s.outer.flatMap Frame.steps).length + s.outer.length) + scriptWork s.reactions

theorem scriptWork_set {reactions : List (List Reaction)} {handler : HandlerId} {reaction : Reaction}
    {later : List Reaction} (h : reactions[handler]? = some (reaction :: later)) :
    2 * reaction.length + scriptWork (reactions.set handler later) = scriptWork reactions := by
  induction reactions generalizing handler with
  | nil => simp at h
  | cons script scripts ih =>
    cases handler with
    | zero =>
      simp only [List.getElem?_cons_zero, Option.some.injEq] at h
      subst h
      simp [scriptWork]
      omega
    | succ handler =>
      simp only [List.getElem?_cons_succ] at h
      have tail := ih h
      simp only [scriptWork, List.set_cons_succ, List.flatten_cons, List.flatten_append, List.length_append] at tail ⊢
      omega

theorem scriptWork_takeReaction (reactions : List (List Reaction)) (handler : HandlerId) :
    2 * (takeReaction reactions handler).1.length + scriptWork (takeReaction reactions handler).2 =
      scriptWork reactions := by
  unfold takeReaction
  split
  · rename_i found
    exact scriptWork_set found
  · simp

theorem work_deliver_le (s : Session) (completion : Option Completion) :
    (s.deliver completion).work ≤ s.work + 1 := by
  cases completion with
  | none => exact Nat.le_succ _
  | some completion =>
    have balance := scriptWork_takeReaction s.reactions completion.handler
    simp only [deliver, work, List.flatMap_cons, List.length_append, List.length_cons]
    omega

theorem work_advance_lt {s t : Session} {moment : Option Moment} (h : s.advance = some (t, moment)) :
    t.work < s.work := by
  unfold advance at h
  split at h
  · rename_i step steps eq
    simp only [Option.some.injEq, Prod.mk.injEq] at h
    obtain ⟨rfl, -⟩ := h
    refine Nat.lt_of_le_of_lt (work_deliver_le _ _) ?_
    simp only [work, eq, List.length_cons]
    omega
  · rename_i eq
    split at h
    · exact absurd h (by simp)
    · rename_i frame outer eqOuter
      simp only [Option.some.injEq, Prod.mk.injEq] at h
      obtain ⟨rfl, -⟩ := h
      simp only [work, eq, eqOuter, List.length_nil, List.flatMap_cons, List.length_append, List.length_cons]
      omega

def momentsWithin : Nat → Session → List Moment
  | 0, _ => []
  | fuel + 1, s =>
    match s.advance with
    | none => []
    | some (next, moment) => moment.toList ++ momentsWithin fuel next

def moments (s : Session) : List Moment := momentsWithin s.work s

theorem momentsWithin_eq_moments {fuel : Nat} {s : Session} (enough : s.work ≤ fuel) :
    momentsWithin fuel s = s.moments := by
  have agree : ∀ (a b : Nat) (s : Session), s.work ≤ a → s.work ≤ b → momentsWithin a s = momentsWithin b s := by
    intro a
    induction a with
    | zero =>
      intro b s ha _
      cases b with
      | zero => rfl
      | succ b =>
        have ended : s.advance = none := by
          cases h : s.advance with
          | none => rfl
          | some next =>
            have less := work_advance_lt h
            omega
        simp [momentsWithin, ended]
    | succ a ih =>
      intro b s ha hb
      cases h : s.advance with
      | none => cases b <;> simp [momentsWithin, h]
      | some next =>
        have less := work_advance_lt h
        cases b with
        | zero => omega
        | succ b => simp only [momentsWithin, h, ih b next.1 (by omega) (by omega)]
  exact agree fuel s.work s enough (Nat.le_refl _)

end Session

def Scenario.session (s : Scenario) : Session :=
  { client := { mediator := { config := s.config } }, steps := s.steps, reactions := s.handlers }

def Scenario.moments (s : Scenario) : List Moment := s.session.moments

end PeripheralLayer.Bus
