import PeripheralLayer.Proofs.Bus.Deal

/-!
Who has the buffer. A complete transfer request sends its buffer on an errand. The ledger of a run numbers
the errands in order and notes for every callback which of them it ends: the one that the step itself began,
or else the one still awaited. The ledger looks at requests and callbacks only, not at the mediator, so
that the mediator's books can be held against it.
-/
namespace PeripheralLayer.Bus

structure Errand where
  transaction : Transaction
  lent : Buffer
  filled : Buffer
  deriving DecidableEq, Repr

/-- The callback that ends an errand. `atOnce` is set when the request that began it was answered itself. -/
structure Return where
  number : Nat
  atOnce : Bool
  outcome : Completion
  deriving DecidableEq, Repr

structure Ledger where
  errands : List Errand := []
  returns : List Return := []
  awaited : Option Nat := none
  deriving DecidableEq, Repr

def Errand.back (e : Errand) (atOnce : Bool) : Buffer := if atOnce then e.lent else e.filled

def Entry.errand (b : Block) : Entry → Option Errand
  | transfer peer direction buffer length =>
    peer.listener.map fun handler =>
      ⟨⟨peer.address, handler⟩, buffer, b.received peer.address direction length buffer⟩
  | _ => none

namespace Ledger

def lend (l : Ledger) (errand : Errand) : Option Completion → Ledger
  | some outcome =>
    { l with errands := l.errands ++ [errand], returns := l.returns ++ [⟨l.errands.length, true, outcome⟩] }
  | none => { l with errands := l.errands ++ [errand], awaited := some l.errands.length }

def settle (l : Ledger) : Option Completion → Ledger
  | some outcome =>
    match l.awaited with
    | some number => { l with returns := l.returns ++ [⟨number, false, outcome⟩], awaited := none }
    | none => l
  | none => l

def enter (l : Ledger) (b : Block) (entry : Entry) (told : Option Completion) : Ledger :=
  match entry.errand b with
  | some errand => l.lend errand told
  | none => if entry.rates then l else l.settle told

def record (l : Ledger) (d : Deed) : Ledger :=
  match d.entry with
  | some entry => l.enter d.found.block entry d.told
  | none => l

def of (past : List Deed) : Ledger := past.foldl record {}

theorem of_append (past : List Deed) (d : Deed) : of (past ++ [d]) = (of past).record d := by
  simp [of]

end Ledger

def Entry.handsBack (entry : Entry) (told : Option Completion) : Option Completion :=
  if entry.rates then none else told

namespace Deed

def errand (d : Deed) : Option Errand := d.entry.bind (Entry.errand d.found.block)

def handsBack (d : Deed) : Option Completion := if d.entry.any Entry.rates then none else d.told

end Deed

/-- These are all the callbacks. Each errand has been ended once or is the one that is awaited, and whoever
was called back is the one who asked and got the buffer that he lent. -/
structure Ledger.Sound (l : Ledger) (outcomes : List Completion) : Prop where
  outcomes : l.returns.map Return.outcome = outcomes
  once : (l.returns.map Return.number ++ l.awaited.toList).Perm (List.range l.errands.length)
  faithful : ∀ r ∈ l.returns, ∃ errand, l.errands[r.number]? = some errand ∧
    r.outcome.handler = errand.transaction.handler ∧ r.outcome.buffer = some (errand.back r.atOnce)
  same : ∀ errand ∈ l.errands, errand.filled.tag = errand.lent.tag

def Ledger.Expects (l : Ledger) (errand : Errand) : Prop :=
  ∃ number, l.awaited = some number ∧ l.errands[number]? = some errand

/-- The awaited errand's buffer is with the block while its transfer is in flight, and then with the outcome
that waits. Without an awaited errand neither has any. -/
def Ledger.Located (l : Ledger) (m : Mediator) : Prop :=
  l.awaited = none ∧ m.block.held = none ∧ m.current = none ∧ m.pending = none ∨
  ∃ errand, l.Expects errand ∧
    (m.block.held = some errand.filled ∧ m.current = some errand.transaction ∧ m.pending = none ∨
      m.block.held = none ∧ m.current = none ∧
        ∃ event, m.pending = some ⟨errand.transaction.handler, event, some errand.filled⟩)

def Ledger.Follows (l : Ledger) (held : Option Buffer) : Phase → Prop
  | .down | .idle => l.awaited = none ∧ held = none
  | .inFlight transaction =>
    ∃ errand, l.Expects errand ∧ transaction = errand.transaction ∧ held = some errand.filled
  | .waiting outcome =>
    ∃ errand, l.Expects errand ∧ held = none ∧ outcome.handler = errand.transaction.handler ∧
      outcome.buffer = some errand.filled

namespace Ledger

section Books

variable {l : Ledger} {outcomes : List Completion} {errand : Errand} {outcome : Completion} {p : Phase}
  {held : Option Buffer}

theorem getElem?_append_errand {number : Nat} {found : Errand} (listed : l.errands[number]? = some found) :
    (l.errands ++ [errand])[number]? = some found := by
  obtain ⟨bound, -⟩ := List.getElem?_eq_some_iff.mp listed
  rw [List.getElem?_append_left bound, listed]

theorem faithful_append (sound : l.Sound outcomes) : ∀ r ∈ l.returns, ∃ found,
    (l.errands ++ [errand])[r.number]? = some found ∧ r.outcome.handler = found.transaction.handler ∧
      r.outcome.buffer = some (found.back r.atOnce) := by
  intro r mem
  obtain ⟨found, listed, handler, buffer⟩ := sound.faithful r mem
  exact ⟨found, getElem?_append_errand listed, handler, buffer⟩

theorem same_append (sound : l.Sound outcomes) (tag : errand.filled.tag = errand.lent.tag) :
    ∀ other ∈ l.errands ++ [errand], other.filled.tag = other.lent.tag :=
  List.forall_mem_append.mpr ⟨sound.same, List.forall_mem_singleton.mpr tag⟩

theorem Sound.lend_away (sound : l.Sound outcomes) (nothing : l.awaited = none)
    (tag : errand.filled.tag = errand.lent.tag) : (l.lend errand none).Sound outcomes where
  outcomes := sound.outcomes
  once := by
    have once := sound.once
    rw [nothing] at once
    simp only [lend, List.length_append, List.length_singleton, List.range_succ, Option.toList_some]
    exact (List.append_nil _ ▸ once).append_right _
  faithful := faithful_append sound
  same := same_append sound tag

theorem Sound.lend_at_once (sound : l.Sound outcomes) (tag : errand.filled.tag = errand.lent.tag)
    (handler : outcome.handler = errand.transaction.handler) (buffer : outcome.buffer = some errand.lent) :
    (l.lend errand (some outcome)).Sound (outcomes ++ [outcome]) where
  outcomes := by simp [lend, sound.outcomes]
  once := by
    simp only [lend, List.length_append, List.length_singleton, List.range_succ, List.map_append, List.map_cons,
      List.map_nil]
    have moved : (l.returns.map Return.number ++ [l.errands.length] ++ l.awaited.toList).Perm
        (l.returns.map Return.number ++ l.awaited.toList ++ [l.errands.length]) := by
      rw [List.append_assoc, List.append_assoc]
      exact List.perm_append_comm.append_left _
    exact moved.trans (sound.once.append_right _)
  faithful := List.forall_mem_append.mpr
    ⟨faithful_append sound, List.forall_mem_singleton.mpr ⟨errand, by simp [lend], handler, buffer⟩⟩
  same := same_append sound tag

theorem Sound.settle (sound : l.Sound outcomes) (expects : l.Expects errand)
    (handler : outcome.handler = errand.transaction.handler) (buffer : outcome.buffer = some errand.filled) :
    (l.settle (some outcome)).Sound (outcomes ++ [outcome]) ∧ (l.settle (some outcome)).awaited = none := by
  obtain ⟨number, awaited, listed⟩ := expects
  simp only [Ledger.settle, awaited, and_true]
  constructor
  case outcomes => simp [sound.outcomes]
  case once => simpa [awaited] using sound.once
  case faithful =>
    have last : ∃ found, l.errands[number]? = some found ∧ outcome.handler = found.transaction.handler ∧
        outcome.buffer = some (found.back false) := ⟨errand, listed, handler, buffer⟩
    exact List.forall_mem_append.mpr ⟨sound.faithful, List.forall_mem_singleton.mpr last⟩
  case same => exact sound.same

theorem Follows.lend_at_once (follows : l.Follows held p) : (l.lend errand (some outcome)).Follows held p := by
  have kept (found : Errand) (expects : l.Expects found) : (l.lend errand (some outcome)).Expects found := by
    obtain ⟨number, awaited, listed⟩ := expects
    exact ⟨number, awaited, getElem?_append_errand listed⟩
  cases p with
  | down | idle => exact follows
  | inFlight transaction | waiting result =>
    obtain ⟨found, expects, rest⟩ := follows
    exact ⟨found, kept found expects, rest⟩

theorem expects_lend_away : (l.lend errand none).Expects errand := ⟨l.errands.length, rfl, by simp [lend]⟩

theorem Follows.located {m : Mediator} (inside : m.In p) (follows : l.Follows m.block.held p) : l.Located m := by
  have current := inside.current
  have pending := inside.pending
  cases p with
  | down | idle => exact Or.inl ⟨follows.1, follows.2, current, pending⟩
  | inFlight transaction =>
    obtain ⟨errand, expects, rfl, held⟩ := follows
    exact Or.inr ⟨errand, expects, Or.inl ⟨held, current, pending⟩⟩
  | waiting outcome =>
    obtain ⟨errand, expects, held, handler, buffer⟩ := follows
    obtain ⟨named, event, carried⟩ := outcome
    cases handler
    cases buffer
    exact Or.inr ⟨errand, expects, Or.inr ⟨held, current, event, pending⟩⟩

end Books

end Ledger

section Custody

variable {m n : Mediator} {p q : Phase} {entry : Entry} {calls : List Call} {told : Option Completion}
  {l : Ledger} {outcomes : List Completion}

theorem Block.received_tag (b : Block) (address : UInt8) (direction : Direction) (length : Nat) (buffer : Buffer) :
    (b.received address direction length buffer).tag = buffer.tag := by
  cases direction <;> rfl

def Ledger.Keeps (l : Ledger) (outcomes : List Completion) (b : Block) (entry : Entry) (told : Option Completion)
    (held : Option Buffer) (q : Phase) : Prop :=
  (l.enter b entry told).Sound (outcomes ++ (entry.handsBack told).toList) ∧
    (l.enter b entry told).Follows held q

theorem Ledger.keeps_of_quiet {b : Block} {held : Option Buffer} (sound : l.Sound outcomes)
    (none_sent : entry.errand b = none) (follows : l.Follows held q) : l.Keeps outcomes b entry none held q := by
  have unchanged : l.enter b entry none = l := by
    simp [enter, none_sent, settle]
  have silent : entry.handsBack none = none := by simp [Entry.handsBack]
  rw [Keeps, unchanged, silent, Option.toList_none, List.append_nil]
  exact ⟨sound, follows⟩

theorem Ledger.keeps_of_answer {b : Block} {held : Option Buffer} (sound : l.Sound outcomes)
    (asks : entry.asks = true) (event : Event) (follows : l.Follows held q) :
    l.Keeps outcomes b entry (entry.answer event) held q := by
  cases entry with
  | transfer peer direction buffer length =>
    obtain ⟨handler, listener⟩ := Option.isSome_iff_exists.mp asks
    simp only [Keeps, enter, Entry.errand, Entry.answer, Entry.handsBack, Entry.rates, listener, Option.map_some]
    exact ⟨sound.lend_at_once (b.received_tag _ _ _ _) rfl rfl, follows.lend_at_once⟩
  | setRate peer kilohertz =>
    simp only [Keeps, enter, Entry.errand, Entry.handsBack, Entry.rates, if_true, Option.toList_none,
      List.append_nil]
    exact ⟨sound, follows⟩
  | start | stop | interrupt | dispatch => cases asks

theorem Ledger.keeps_of_lent {b : Block} {errand : Errand} (sound : l.Sound outcomes) (nothing : l.awaited = none)
    (sent : entry.errand b = some errand) (tag : errand.filled.tag = errand.lent.tag) :
    l.Keeps outcomes b entry none (some errand.filled) (.inFlight errand.transaction) := by
  have entered : l.enter b entry none = l.lend errand none := by simp [enter, sent]
  have silent : entry.handsBack none = none := by simp [Entry.handsBack]
  rw [Keeps, entered, silent, Option.toList_none, List.append_nil]
  exact ⟨sound.lend_away nothing tag, errand, expects_lend_away, rfl, rfl⟩

theorem Ledger.keeps_of_settled {b : Block} {errand : Errand} {outcome : Completion} (sound : l.Sound outcomes)
    (none_sent : entry.errand b = none) (unrated : entry.rates = false) (expects : l.Expects errand)
    (handler : outcome.handler = errand.transaction.handler) (buffer : outcome.buffer = some errand.filled)
    (free : q = .idle ∨ q = .down) : l.Keeps outcomes b entry (some outcome) none q := by
  obtain ⟨settled, nothing⟩ := sound.settle expects handler buffer
  have entered : l.enter b entry (some outcome) = l.settle (some outcome) := by
    simp [enter, none_sent, unrated]
  have handed : entry.handsBack (some outcome) = some outcome := by simp [Entry.handsBack, unrated]
  rw [Keeps, entered, handed]
  refine ⟨settled, ?_⟩
  rcases free with rfl | rfl
  · exact ⟨nothing, rfl⟩
  · exact ⟨nothing, rfl⟩

theorem Deal.keeps_custody (deal : Deal m n p entry calls told q) (sound : l.Sound outcomes)
    (follows : l.Follows m.block.held p) : l.Keeps outcomes m.block entry told n.block.held q := by
  cases deal with
  | ignored p entry asks verdict same =>
    rw [same]
    refine Ledger.keeps_of_quiet sound ?_ follows
    cases entry with
    | transfer peer direction buffer length =>
      have unheard : peer.listener = none := by simpa [Entry.asks] using asks
      simp [Entry.errand, unheard]
    | start | stop | setRate | interrupt | dispatch => rfl
  | declined p entry asks free same =>
    rw [same]
    exact Ledger.keeps_of_answer sound asks .error follows
  | turnedAway p entry asks busy grip counters =>
    rw [Block.held_of_grip grip]
    exact Ledger.keeps_of_answer sound asks .busy follows
  | rated peer kilohertz hertz event within grip counters =>
    have kept : n.block.held = m.block.held := Block.held_of_grip grip
    rw [kept]
    cases hardware : peer.pins with
    | none => simpa [Entry.answer, Peer.listener, hardware] using Ledger.keeps_of_quiet sound rfl follows
    | some pins => exact Ledger.keeps_of_answer sound (by simp [Entry.asks, hardware]) event follows
  | refused peer handler direction buffer length listener grip counters =>
    have kept : n.block.held = m.block.held := Block.held_of_grip grip
    rw [kept]
    have asks : (Entry.transfer peer direction buffer length).asks = true := by simp [Entry.asks, listener]
    simpa [Entry.answer, listener] using Ledger.keeps_of_answer sound asks .error follows
  | accepted peer handler direction buffer length listener grip counters =>
    rw [Block.held_of_grip grip]
    have sent : (Entry.transfer peer direction buffer length).errand m.block =
        some ⟨⟨peer.address, handler⟩, buffer, m.block.received peer.address direction length buffer⟩ := by
      simp [Entry.errand, listener]
    exact Ledger.keeps_of_lent sound follows.1 sent (m.block.received_tag _ _ _ _)
  | unacquired peer pins grip counters | raised peer pins grip counters =>
    rw [Block.held_of_grip grip]
    exact Ledger.keeps_of_quiet sound rfl follows
  | unconfigured peer pins grip counters | closed peer grip counters =>
    rw [Block.held_of_grip grip]
    exact Ledger.keeps_of_quiet sound rfl ⟨follows.1, rfl⟩
  | spurious p events event verdict nothing grip counters =>
    rw [Block.held_of_grip grip]
    exact Ledger.keeps_of_quiet sound rfl follows
  -- what waits or flies is the awaited errand, and the entry hands it out
  | withdrawn peer outcome grip counters =>
    obtain ⟨errand, expects, held, handler, buffer⟩ := follows
    rw [Block.held_of_grip grip]
    exact Ledger.keeps_of_settled sound rfl rfl expects handler buffer (Or.inr rfl)
  | dispatched outcome grip counters =>
    obtain ⟨errand, expects, held, handler, buffer⟩ := follows
    have empty : n.block.held = none := (Block.held_of_grip grip).trans held
    rw [empty]
    exact Ledger.keeps_of_settled sound rfl rfl expects handler buffer (Or.inl rfl)
  | aborted peer transaction grip counters =>
    obtain ⟨errand, expects, rfl, held⟩ := follows
    rw [Block.held_of_grip grip]
    exact Ledger.keeps_of_settled sound rfl rfl expects rfl held (Or.inr rfl)
  | resolved transaction events event verdict grip counters =>
    obtain ⟨errand, expects, rfl, held⟩ := follows
    rw [Block.held_of_grip grip]
    exact Ledger.keeps_of_settled sound rfl rfl expects rfl held (Or.inl rfl)
  | recorded transaction events event verdict grip counters =>
    obtain ⟨errand, expects, rfl, held⟩ := follows
    rw [Block.held_of_grip grip]
    exact Ledger.keeps_of_quiet sound rfl ⟨errand, expects, rfl, rfl, held⟩

end Custody

namespace Ledger

theorem errands_record (l : Ledger) (d : Deed) : (l.record d).errands = l.errands ++ d.errand.toList := by
  unfold record Deed.errand
  cases d.entry with
  | none => simp
  | some entry =>
    simp only [enter, Option.bind_some]
    cases entry.errand d.found.block with
    | some errand => cases d.told <;> rfl
    | none =>
      simp only [settle, Option.toList_none, List.append_nil]
      grind

theorem errands_foldl (l : Ledger) (past : List Deed) :
    (past.foldl record l).errands = l.errands ++ past.filterMap Deed.errand := by
  induction past generalizing l with
  | nil => simp
  | cons d past ih =>
    rw [List.foldl_cons, ih, errands_record, List.append_assoc]
    cases sent : d.errand <;> simp [sent]

theorem errands_of (past : List Deed) : (of past).errands = past.filterMap Deed.errand := by
  rw [of, errands_foldl, List.nil_append]

end Ledger

theorem Mediator.setRate_bufferless (m : Mediator) (peer : Peer) (kilohertz : UInt16) {outcome : Completion}
    (told : (m.setRate peer kilohertz).completion = some outcome) : outcome.buffer = none := by
  cases hardware : peer.pins with
  | none => simp [setRate, hardware] at told
  | some pins =>
    simp only [setRate, hardware, Option.map_eq_some_iff] at told
    obtain ⟨handler, -, rfl⟩ := told
    rfl

/-- In every run without direct calls that move a buffer, each errand's buffer is with the block, with the
outcome that waits, or has been handed back once, to the one who lent it. Rate requests hand back none. -/
theorem buffers_conserved {config : Config} {past : List Deed} {s : Session} (told : Chronicle config past s)
    (spares : ∀ d ∈ past, d.step.sparesBuffers = true) :
    (Ledger.of past).errands = past.filterMap Deed.errand ∧
      (Ledger.of past).Sound (past.filterMap Deed.handsBack) ∧
      (Ledger.of past).Located s.client.mediator ∧
      ∀ d ∈ past, ∀ peer kilohertz outcome, d.entry = some (.setRate peer kilohertz) →
        d.told = some outcome → outcome.buffer = none := by
  obtain ⟨p, inside, sound, follows⟩ : ∃ p, s.client.mediator.In p ∧
      (Ledger.of past).Sound (past.filterMap Deed.handsBack) ∧
      (Ledger.of past).Follows s.client.mediator.block.held p := by
    refine told.upholds (fun step => step.sparesBuffers = true)
      (fun past p m => (Ledger.of past).Sound (past.filterMap Deed.handsBack) ∧
        (Ledger.of past).Follows m.block.held p) ?_ ?_ ?_ spares
    · exact ⟨⟨rfl, .refl _, by simp [Ledger.of], by simp [Ledger.of]⟩, rfl, rfl⟩
    · rintro past d p entry q - - - enters - deal ⟨sound, follows⟩
      have noted : Ledger.of (past ++ [d]) = (Ledger.of past).enter d.found.block entry d.told := by
        rw [Ledger.of_append, Ledger.record, enters]
      have handed : (past ++ [d]).filterMap Deed.handsBack =
          past.filterMap Deed.handsBack ++ (entry.handsBack d.told).toList := by
        have back : d.handsBack = entry.handsBack d.told := by simp [Deed.handsBack, Entry.handsBack, enters]
        rw [List.filterMap_append, ← back]
        cases only : d.handsBack <;> simp [only]
      rw [noted, handed]
      exact deal.keeps_custody sound follows
    · rintro past d p permitted outside ⟨sound, follows⟩
      have held : d.left.block.held = d.found.block.held := Client.held_outside outside permitted
      have unchanged : Ledger.of (past ++ [d]) = Ledger.of past := by
        rw [Ledger.of_append, Ledger.record, outside]
      have handed : (past ++ [d]).filterMap Deed.handsBack = past.filterMap Deed.handsBack := by
        simp [Deed.handsBack, outside, (Deed.outside outside).1]
      rw [unchanged, handed, held]
      exact ⟨sound, follows⟩
  refine ⟨Ledger.errands_of past, sound, follows.located inside, ?_⟩
  intro d mem peer kilohertz outcome asked answer
  have answered := (Deed.left_of_entry asked).2.symm.trans answer
  exact Mediator.setRate_bufferless _ peer kilohertz answered

/-- One buffer goes out three times: the handler that gets it back from a write reads into it, and sets it aside
when that read is aborted. A second buffer finds the bus busy meanwhile. -/
def passedOn : Scenario where
  config := { dispatch := .deferred }
  handlers := [[[], [.transfer .read boardPeer .returned 2], [.save]]]
  steps :=
    [.start boardPeer, .transfer .write boardPeer (.fresh [1, 2]) 2, .direct .register,
      .transfer .read boardPeer (.fresh [9]) 1, .interrupt .writeComplete, .dispatch, .stop boardPeer,
      .start boardPeer, .setRate boardPeer 100, .transfer .write boardPeer .saved 2]

theorem passed_on_conserved :
    ∃ s, Chronicle passedOn.config passedOn.deeds s ∧
      (∀ d ∈ passedOn.deeds, d.step.sparesBuffers = true) ∧
      (Ledger.of passedOn.deeds).returns.map Return.number = [1, 0, 2] ∧
      (Ledger.of passedOn.deeds).awaited = some 3 ∧
      s.client.mediator.block.held = some ⟨0, [0x30, 0x31]⟩ ∧
      (Ledger.of passedOn.deeds).Located s.client.mediator := by
  obtain ⟨s, told⟩ := passedOn.chronicle
  have spares : ∀ d ∈ passedOn.deeds, d.step.sparesBuffers = true := by decide
  have reached := told.run.mediator_eq
  obtain ⟨-, -, located, -⟩ := buffers_conserved told spares
  refine ⟨s, told, spares, by decide, by decide, ?_, located⟩
  rw [reached]
  decide

end PeripheralLayer.Bus
