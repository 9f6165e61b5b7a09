import PeripheralLayer.Proofs.Bus.Accord
import PeripheralLayer.Proofs.Past

/-!
Recovery. Taking the bus down and up again puts mediator and block into a state that is fit for a transfer,
whatever they were in before and whoever has called the block past the mediator: the way down empties both
records of what occupied the bus, and the block lets go of buffer and sink. What interrupts come after that
find nothing to end, until a transfer is accepted.
-/
namespace PeripheralLayer.Bus

/-! Deeds one after the other. -/

theorem Chronicle.go_on {config : Config} {past : List Deed} {s : Session} (told : Chronicle config past s)
    {step : Step} {rest : List Step} (due : s.steps = step :: rest)
    (passive : ∀ outcome, (s.client.perform step).completion = some outcome →
      (Session.takeReaction s.reactions outcome.handler).1 = []) :
    ∃ t, Chronicle config (past ++ [⟨s.client, s.outer.length, step⟩]) t ∧
      t.client = (s.client.perform step).client ∧ t.steps = rest ∧ t.outer = s.outer := by
  have deed : s.deed = some ⟨s.client, s.outer.length, step⟩ := by simp [Session.deed, due]
  cases completion : (s.client.perform step).completion with
  | none =>
    have next : ∃ moment, s.advance =
        some ({ s with client := (s.client.perform step).client, steps := rest }, moment) := by
      simp [Session.advance, due, completion, Session.deliver]
    obtain ⟨moment, next⟩ := next
    have made := told.advance next
    rw [deed] at made
    exact ⟨_, made, rfl, rfl, rfl⟩
  | some outcome =>
    have idle := passive outcome completion
    cases reaction : Session.takeReaction s.reactions outcome.handler with
    | mk steps reactions =>
      rw [reaction] at idle
      cases idle
      -- the callback begins and, having no step to make, is over with the next advance
      let inside : Session :=
        { client := { (s.client.perform step).client with returned := outcome.buffer }
          steps := []
          outer := ⟨(s.client.perform step).client.returned, rest⟩ :: s.outer
          reactions }
      have begun : ∃ moment, s.advance = some (inside, moment) := by
        simp [Session.advance, due, completion, Session.deliver, reaction, inside]
      obtain ⟨moment, begun⟩ := begun
      have finished : inside.advance = some
          ({ client := (s.client.perform step).client, steps := rest, outer := s.outer, reactions }, none) := rfl
      have made := (told.advance begun).advance finished
      have quiet : inside.deed = none := rfl
      rw [deed, quiet, Option.toList_none, List.append_nil] at made
      exact ⟨_, made, rfl, rfl, rfl⟩

theorem Chronicle.until {config : Config} {past : List Deed} {s : Session} (told : Chronicle config past s)
    {before later : List Deed} {d : Deed} (split : past = before ++ d :: later) :
    ∃ t, Chronicle config before t ∧ t.client = d.client := by
  induction told generalizing later with
  | fresh steps reactions => simp at split
  | @advance past s t moment earlier next ih =>
    cases due : s.deed with
    | none =>
      rw [due, Option.toList_none, List.append_nil] at split
      exact ih split
    | some last =>
      rw [due, Option.toList_some] at split
      rcases cut_append_singleton split with ⟨rfl, rfl, -⟩ | ⟨between, -, cut⟩
      · obtain ⟨step, -, rfl⟩ := Option.map_eq_some_iff.mp due
        exact ⟨s, earlier, rfl⟩
      · exact ih cut
  | replan steps reactions earlier ih => exact ih split

theorem Chronicle.finds {config : Config} {past : List Deed} {s : Session} (told : Chronicle config past s)
    {before later : List Deed} {d : Deed} (split : past = before ++ d :: later) : ∃ p, d.found.In p := by
  obtain ⟨t, earlier, same⟩ := told.until split
  obtain ⟨p, turns⟩ := earlier.run.turns
  rw [Deed.found, ← same]
  exact ⟨p, turns.last⟩

/-! Down, and up again. -/

/-- What the deed does by taking the bus down: a transfer in flight is aborted once and its handler is told
of an error, an outcome that waits goes out as it was recorded, and otherwise nobody is told anything. -/
structure Deed.TakesDown (d : Deed) : Prop where
  status : d.moment.reply = .status .success
  in_flight : ∀ transaction, d.found.current = some transaction →
    d.told = some ⟨transaction.handler, .error, d.found.block.held⟩ ∧ d.calls.count .abort = 1 ∧
      d.left.counters = { d.found.counters with failed := d.found.counters.failed + 1 }
  waiting : ∀ outcome, d.found.pending = some outcome →
    d.told = some outcome ∧ .abort ∉ d.calls ∧ d.left.counters = d.found.counters
  idle : d.found.current = none → d.found.pending = none →
    d.told = none ∧ .abort ∉ d.calls ∧ d.left.counters = d.found.counters

theorem Deed.takesDown {d : Deed} {p : Phase} (inside : d.found.In p) (up : d.found.initialized = true)
    {peer : Peer} (step : d.step = .stop peer) (hardware : peer.pins.isSome) :
    d.TakesDown ∧ d.left.In .down ∧ d.left.block.grip = ⟨none, false, false⟩ := by
  have enters : d.entry = some (.stop peer) := by simp [entry, Client.entry, step]
  have down : d.left.In .down := by
    rw [(left_of_entry enters).1]
    exact (Mediator.stop_phase inside hardware).1
  have status : d.moment.reply = .status .success := by
    obtain ⟨pins, found⟩ := Option.isSome_iff_exists.mp hardware
    have up : d.client.mediator.initialized = true := up
    simp [moment, Client.moment, step, Client.perform, Client.ofOutcome, Mediator.stop, found, up]
  have current := inside.current
  have pending := inside.pending
  obtain ⟨q, -, -, deal⟩ := Deed.deal inside enters
  generalize made : d.calls = calls at deal
  generalize heard : d.told = told at deal
  cases deal with
  | declined p entry asks | turnedAway p entry asks => cases asks
  | ignored p entry asks verdict same =>
    have still : d.left.initialized = false := down.initialized
    rw [same, up] at still
    cases still
  | closed peer grip counters =>
    refine ⟨⟨status, ?_, ?_, fun _ _ => ⟨heard, by simp [made], counters⟩⟩, down, grip⟩
    · simp [current, Phase.current]
    · simp [pending, Phase.pending]
  | withdrawn peer outcome grip counters =>
    refine ⟨⟨status, ?_, fun outcome found => ?_, fun _ nothing => ?_⟩, down, grip⟩
    · simp [current, Phase.current]
    · cases pending.symm.trans found
      exact ⟨heard, by simp [made], counters⟩
    · cases pending.symm.trans nothing
  | aborted peer transaction grip counters =>
    refine ⟨⟨status, fun transaction found => ?_, ?_, fun nothing => ?_⟩, down, grip⟩
    · cases current.symm.trans found
      exact ⟨heard, by simp [made], counters⟩
    · simp [pending, Phase.pending]
    · cases current.symm.trans nothing

def Block.faults (b : Block) : Stage → Option ResultWord
  | .acquire => b.acquireFault
  | .configure => b.configureFault
  | .transfer => b.transferFault

theorem Mediator.faults_stop (m : Mediator) (peer : Peer) : (m.stop peer).mediator.block.faults = m.block.faults := by
  obtain ⟨log, heard, sink, held, pending, block⟩ := m.stop_block peer
  rw [block]
  rfl

/-- Up and free, with nothing left of any earlier transfer and a sink in the block, so that a transfer which
has something to carry and room for it is issued unless a fault was planted for it. -/
structure Mediator.Fit (m : Mediator) : Prop where
  up : m.initialized = true
  free : m.bus = .free
  unoccupied : m.current = none ∧ m.pending = none
  sink : m.block.sink = true
  ready : m.block.pending = false
  empty : m.block.held = none
  issues : ∀ peer direction buffer length, peer.listener.isSome → 1 ≤ length → length ≤ buffer.bytes.length →
    (m.Issues peer direction buffer length ↔ m.block.transferFault = none)

theorem Mediator.issues_iff {m : Mediator} (inside : m.In .idle) (ready : m.block.pending = false) {peer : Peer}
    (complete : peer.listener.isSome) {direction : Direction} {buffer : Buffer} {length : Nat}
    (some_length : 1 ≤ length) (fits : length ≤ buffer.bytes.length) :
    m.Issues peer direction buffer length ↔ m.block.transferFault = none := by
  constructor
  · intro issues
    obtain ⟨handler, listener⟩ := Option.isSome_iff_exists.mp complete
    cases planted : m.block.transferFault with
    | none => rfl
    | some word =>
      have refused : m.block.transfer peer.address direction buffer length =
          ({ m.block.note (.transfer peer.address direction length) with transferFault := none },
            some ⟨word, buffer⟩) := by
        simp only [Block.transfer, planted]
      have status := issues.status
      rw [transfer_of_refused listener inside.initialized inside.bus fits refused] at status
      exact absurd status word.status_ne_success
  · intro unplanted
    exact issues_of_ready inside.initialized inside.bus ready unplanted complete some_length fits

theorem Mediator.start_of_clear {m : Mediator} {peer : Peer} {pins : BusPins} (hardware : peer.pins = some pins)
    (down : m.initialized = false) (acquires : m.block.acquireFault = none)
    (configures : m.block.configureFault = none) :
    m.start peer =
      ⟨{ m with
          block := ((m.block.acquire pins).1.configure ⟨.master, 0, m.config.frequency⟩).1.register.enableEvents
            .mediated m.config.priority true
          initialized := true, bus := .free, current := none, pending := none }, .success, none⟩ := by
  simp [start, hardware, down, Block.bringUp, Block.acquire, Block.configure, Block.note, acquires, configures]

theorem Mediator.start_of_down {m : Mediator} (down : m.In .down) (empty : m.block.grip = ⟨none, false, false⟩)
    {peer : Peer} (hardware : peer.pins.isSome) (acquires : m.block.acquireFault = none)
    (configures : m.block.configureFault = none) :
    ∃ n, m.start peer = ⟨n, .success, none⟩ ∧ n.Fit ∧ n.block.transferFault = m.block.transferFault := by
  obtain ⟨pins, found⟩ := Option.isSome_iff_exists.mp hardware
  let block : Block := ((m.block.acquire pins).1.configure ⟨.master, 0, m.config.frequency⟩).1.register.enableEvents
    .mediated m.config.priority true
  let n : Mediator := { m with block, initialized := true, bus := .free, current := none, pending := none }
  have started : m.start peer = ⟨n, .success, none⟩ :=
    start_of_clear found down.initialized acquires configures
  have inside : n.In .idle := ⟨rfl, rfl, rfl, rfl⟩
  have grip : n.block.grip = ⟨none, false, true⟩ := congrArg (fun g : Grip => { g with sink := true }) empty
  have ready : n.block.pending = false := congrArg Grip.pending grip
  refine ⟨n, started, ⟨rfl, rfl, ⟨rfl, rfl⟩, rfl, ready, congrArg Grip.held grip, ?_⟩, rfl⟩
  intro peer direction buffer length complete some_length fits
  exact issues_iff inside ready complete some_length fits

/-! Interrupts that come late. -/

def Step.interruptWord : Step → Option EventWord
  | .interrupt events | .raise events | .raiseLatched events => some events
  | _ => none

def Deed.Accepted (d : Deed) : Prop :=
  ∃ peer direction buffer length, d.entry = some (.transfer peer direction buffer length) ∧
    (d.found.transfer peer direction buffer length).status = .success

/-- Nobody is told anything, and nothing in the hands of anyone changes but one counter, which goes up if
the interrupt reached the mediator with a verdict. -/
structure Deed.OnlyCounts (d : Deed) : Prop where
  told : d.told = none
  client : (d.client.perform d.step).client =
    { d.client with
      mediator.counters.spurious :=
        d.found.counters.spurious + if (d.entry.bind Entry.verdict).isSome then 1 else 0 }

theorem Client.interrupt_of_nothing {c : Client} (nothing : c.mediator.current = none) (events : EventWord) :
    c.interrupt events =
      ⟨{ c with
          mediator.counters.spurious :=
            c.mediator.counters.spurious + if events.verdict.isSome then 1 else 0 }, .nothing, none⟩ := by
  cases verdict : events.verdict with
  | none => simp [interrupt, Mediator.interrupt_of_ignored verdict]
  | some event => simp [interrupt, Mediator.interrupt_of_spurious verdict nothing]

theorem Deed.onlyCounts_of_entry {d : Deed} (nothing : d.found.current = none) {events : EventWord}
    (enters : d.entry = some (.interrupt events)) : d.OnlyCounts := by
  have made := perform_of_interrupt enters
  rw [Client.interrupt_of_nothing nothing] at made
  refine ⟨congrArg Effect.completion made, ?_⟩
  rw [made, enters]
  rfl

theorem Deed.onlyCounts_of_lost {d : Deed} (lost : d.entry = none)
    (made : d.client.perform d.step = ⟨d.client, .noSink, none⟩) : d.OnlyCounts := by
  refine ⟨congrArg Effect.completion made, ?_⟩
  rw [made, lost]
  simp [found]

theorem Deed.onlyCounts {d : Deed} (nothing : d.found.current = none) (interrupts : d.step.interruptWord.isSome) :
    d.OnlyCounts := by
  obtain ⟨client, depth, step⟩ := d
  cases step with
  | interrupt events => exact onlyCounts_of_entry nothing rfl
  | raise events =>
    by_cases reaches : client.mediator.block.sink = true
    · exact onlyCounts_of_entry nothing (if_pos reaches)
    · exact onlyCounts_of_lost (if_neg reaches) (if_neg reaches)
  | raiseLatched events =>
    by_cases reaches : client.latched = true
    · exact onlyCounts_of_entry nothing (if_pos reaches)
    · exact onlyCounts_of_lost (if_neg reaches) (if_neg reaches)
  | _ => cases interrupts

theorem Deal.rests {m n : Mediator} {p q : Phase} {entry : Entry} {calls : List Call} {told : Option Completion}
    (deal : Deal m n p entry calls told q) (rests : p = .down ∨ p = .idle) :
    (q = .down ∨ q = .idle) ∨ ∃ peer handler direction buffer length,
      entry = .transfer peer direction buffer length ∧ peer.listener = some handler ∧ told = none := by
  cases deal with
  | ignored | declined | turnedAway | spurious => exact Or.inl rests
  | rated | refused | raised => exact Or.inl (Or.inr rfl)
  | unacquired | unconfigured | closed => exact Or.inl (Or.inl rfl)
  | accepted peer handler direction buffer length listener =>
    exact Or.inr ⟨peer, handler, direction, buffer, length, rfl, listener, rfl⟩
  | withdrawn | aborted | resolved | recorded | dispatched => simp at rests

theorem Deed.accepted_of_silent {d : Deed} {p : Phase} (inside : d.found.In p) {peer : Peer} {handler : HandlerId}
    {direction : Direction} {buffer : Buffer} {length : Nat}
    (enters : d.entry = some (.transfer peer direction buffer length)) (listener : peer.listener = some handler)
    (silent : d.told = none) : d.Accepted := by
  refine ⟨peer, direction, buffer, length, enters, ?_⟩
  have told := (left_of_entry enters).2
  rcases Mediator.transfer_phase inside listener direction buffer length with
    ⟨-, -, event, answer, -⟩ | ⟨-, -, status, -⟩
  · cases silent.symm.trans (told.trans answer)
  · exact status

theorem Deed.rests_of_rests {d : Deed} {p : Phase} (inside : d.found.In p) :
    ∃ q, d.left.In q ∧ (p = .down ∨ p = .idle → ¬ d.Accepted → q = .down ∨ q = .idle) := by
  cases enters : d.entry with
  | none =>
    obtain ⟨-, block, left⟩ := Deed.outside enters
    exact ⟨p, left ▸ inside.withBlock block, fun rests _ => rests⟩
  | some entry =>
    obtain ⟨q, reached, -, deal⟩ := Deed.deal inside enters
    refine ⟨q, reached, fun rests unaccepted => ?_⟩
    rcases deal.rests rests with rests | ⟨peer, handler, direction, buffer, length, rfl, listener, silent⟩
    · exact rests
    · exact absurd (accepted_of_silent inside enters listener silent) unaccepted

theorem Deed.down_of_stops {d : Deed} {p : Phase} (inside : d.found.In p) (stops : d.moment.stops = true) :
    d.left.In .down := by
  obtain ⟨client, depth, step⟩ := d
  cases step with
  | stop peer => exact (Mediator.stop_phase inside stops).1
  | _ => cases stops

theorem Mediator.In.rests {m : Mediator} {p : Phase} (inside : m.In p) (free : m.bus = .free) :
    p = .down ∨ p = .idle := by
  have agree := inside.bus
  rw [free] at agree
  cases p with
  | down => exact Or.inl rfl
  | idle => exact Or.inr rfl
  | inFlight | waiting => cases agree

theorem Chronicle.rests_of_free {config : Config} {past : List Deed} {s : Session}
    (told : Chronicle config past s) {before quiet : List Deed} {first : Deed} (cut : past = before ++ first :: quiet)
    (free : first.left.bus = .free) (unaccepted : ∀ d ∈ quiet, ¬ d.Accepted) :
    ∃ p, s.client.mediator.In p ∧ (p = .down ∨ p = .idle) := by
  suffices kept : ∃ p, s.client.mediator.In p ∧ ∀ quiet, past = before ++ first :: quiet →
      (∀ d ∈ quiet, ¬ d.Accepted) → p = .down ∨ p = .idle by
    obtain ⟨p, inside, rests⟩ := kept
    exact ⟨p, inside, rests quiet cut unaccepted⟩
  refine told.keeps (fun _ => True)
    (fun past p _ => ∀ quiet, past = before ++ first :: quiet → (∀ d ∈ quiet, ¬ d.Accepted) →
      p = .down ∨ p = .idle) (by simp) ?_ (fun _ _ => trivial)
  intro past d p _ config found rests
  obtain ⟨q, reached, turned⟩ := d.rests_of_rests found
  refine ⟨q, reached, ?_⟩
  intro quiet cut unaccepted
  rcases cut_append_singleton cut with ⟨-, rfl, -⟩ | ⟨between, rfl, shorter⟩
  · exact reached.rests free
  · have earlier := rests between shorter fun d mem => unaccepted d (List.mem_append_left _ mem)
    exact turned earlier (unaccepted d (by simp))

theorem Chronicle.rests {config : Config} {past : List Deed} {s : Session} (told : Chronicle config past s)
    {before quiet : List Deed} {closed : Deed} (cut : past = before ++ closed :: quiet)
    (stops : closed.moment.stops = true) (unaccepted : ∀ d ∈ quiet, ¬ d.Accepted) :
    s.client.mediator.current = none := by
  obtain ⟨p, inside⟩ := told.finds cut
  have down := Deed.down_of_stops inside stops
  obtain ⟨q, reached, rests⟩ := told.rests_of_free cut down.bus unaccepted
  rw [reached.current]
  rcases rests with rfl | rfl <;> rfl

/-- From every reachable state in which the bus is up, taking it down and up again succeeds twice and leaves
it fit, provided that no error is planted for the way up and that the handler which is told of the end of
whatever occupied the bus, if there is one, does nothing then. From the way down until the next accepted
transfer, an interrupt on whatever way does nothing but count. -/
theorem restart_recovers {config : Config} {past : List Deed} {s : Session} (told : Chronicle config past s)
    {closing opening : Peer} {rest : List Step} (steps : s.steps = .stop closing :: .start opening :: rest)
    (up : s.client.mediator.initialized = true) (closable : closing.pins.isSome) (openable : opening.pins.isSome)
    (acquires : s.client.mediator.block.acquireFault = none)
    (configures : s.client.mediator.block.configureFault = none)
    (passive : ∀ outcome, (s.client.mediator.stop closing).completion = some outcome →
      (Session.takeReaction s.reactions outcome.handler).1 = []) :
    ∃ closed opened t, Chronicle config (past ++ [closed, opened]) t ∧
      closed.client = s.client ∧ closed.step = .stop closing ∧ opened.step = .start opening ∧
      t.steps = rest ∧ t.outer = s.outer ∧ t.client.mediator = opened.left ∧
      closed.TakesDown ∧ opened.moment.reply = .status .success ∧ opened.told = none ∧ t.client.mediator.Fit ∧
      t.client.mediator.block.transferFault = s.client.mediator.block.transferFault ∧
      ∀ quiet d later u, Chronicle config (past ++ closed :: (quiet ++ d :: later)) u →
        (∀ e ∈ quiet, ¬ e.Accepted) → d.step.interruptWord.isSome → d.OnlyCounts := by
  obtain ⟨p, turns⟩ := told.run.turns
  let closed : Deed := ⟨s.client, s.outer.length, .stop closing⟩
  have inside : closed.found.In p := turns.last
  obtain ⟨takesDown, down, grip⟩ := Deed.takesDown inside up (rfl : closed.step = .stop closing) closable
  obtain ⟨below, toldClosed, client, steps, outer⟩ := told.go_on steps passive
  have left : below.client.mediator = closed.left := congrArg Client.mediator client
  have faults : closed.left.block.faults = s.client.mediator.block.faults :=
    s.client.mediator.faults_stop closing
  obtain ⟨n, started, fit, transferFault⟩ := Mediator.start_of_down down grip openable
    ((congrFun faults .acquire).trans acquires) ((congrFun faults .configure).trans configures)
  let opened : Deed := ⟨below.client, below.outer.length, .start opening⟩
  have made : below.client.perform (.start opening) = below.client.ofOutcome ⟨n, .success, none⟩ := by
    rw [← started, ← left]
    rfl
  obtain ⟨t, toldOpened, client', steps, outer'⟩ := toldClosed.go_on steps (by simp [made, Client.ofOutcome])
  have reached : t.client.mediator = n := congrArg Client.mediator (client'.trans (congrArg Effect.client made))
  refine ⟨closed, opened, t, by simpa using toldOpened, rfl, rfl, rfl, steps, outer'.trans outer,
    congrArg Client.mediator client', takesDown, congrArg Effect.reply made, congrArg Effect.completion made,
    reached ▸ fit, ?_, ?_⟩
  · rw [reached]
    exact transferFault.trans (congrFun faults .transfer)
  · intro quiet d later u whole unaccepted interrupts
    obtain ⟨v, earlier, same⟩ := whole.until (by simp : _ = (past ++ closed :: quiet) ++ d :: later)
    have nothing := earlier.rests rfl closable unaccepted
    rw [same] at nothing
    exact Deed.onlyCounts nothing interrupts

/-- A transfer in flight of which the block knows nothing any more, since it was released past the mediator. -/
def strayRelease : Scenario where
  config := { dispatch := .deferred }
  handlers := []
  steps :=
    [.start boardPeer, .latch, .transfer .write boardPeer (.fresh [1, 2]) 2, .direct .release, .raise .writeComplete]

theorem stray_release_recovers :
    ∃ s, Chronicle strayRelease.config strayRelease.deeds s ∧
      s.client.mediator.current = some ⟨0x30, 0⟩ ∧ s.client.mediator.block.grip = ⟨none, false, false⟩ ∧
      ∃ closed opened d u,
        Chronicle strayRelease.config (strayRelease.deeds ++ closed :: ([opened] ++ d :: [])) u ∧
        closed.told = some ⟨0, .error, none⟩ ∧ opened.left.Fit ∧ d.step = .raiseLatched .writeComplete ∧
        d.OnlyCounts := by
  obtain ⟨s, told⟩ := strayRelease.chronicle
  have reached := told.run.mediator_eq
  have current : s.client.mediator.current = some ⟨0x30, 0⟩ := by
    rw [reached]
    decide
  have grip : s.client.mediator.block.grip = ⟨none, false, false⟩ := by
    rw [reached]
    decide
  refine ⟨s, told, current, grip, ?_⟩
  obtain ⟨closed, opened, t, restarted, client, -, step, -, -, left, takesDown, -, -, fit, -, late⟩ :=
    restart_recovers (told.replan [.stop boardPeer, .start boardPeer] []) rfl
      (show s.client.mediator.initialized = true by rw [reached]; decide) (by decide) (by decide)
      (show s.client.mediator.block.acquireFault = none by rw [reached]; decide)
      (show s.client.mediator.block.configureFault = none by rw [reached]; decide) (fun _ _ => rfl)
  have found : closed.found = s.client.mediator := congrArg Client.mediator client
  obtain ⟨u, made, -⟩ :=
    (restarted.replan [.raiseLatched .writeComplete] []).go_on rfl (fun _ _ => rfl)
  have whole : Chronicle strayRelease.config (strayRelease.deeds ++ closed :: ([opened] ++
      ⟨t.client, t.outer.length, .raiseLatched .writeComplete⟩ :: [])) u := by
    simpa using made
  have unaccepted : ∀ e ∈ [opened], ¬ e.Accepted := by
    rintro e mem ⟨peer, direction, buffer, length, enters, -⟩
    rw [List.mem_singleton.mp mem] at enters
    simp [Deed.entry, Client.entry, step] at enters
  refine ⟨closed, opened, _, u, whole, ?_, left ▸ fit, rfl, late [opened] _ [] u whole unaccepted rfl⟩
  obtain ⟨told, -, -⟩ := takesDown.in_flight ⟨0x30, 0⟩ (by rw [found]; exact current)
  have released : s.client.mediator.block.held = none := congrArg Grip.held grip
  rw [told, found, released]

end PeripheralLayer.Bus
