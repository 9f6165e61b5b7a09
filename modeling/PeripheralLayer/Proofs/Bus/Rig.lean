import PeripheralLayer.Proofs.Bus.Deal

/-!
What a bench has set up in the block: the errors that await the way up, the speed the block can reach, and what its
device answers. Whatever enters the mediator leaves all of this alone, except that the way up uses errors up, so
what is found of it at any time is what the bench made of it.
-/
namespace PeripheralLayer.Bus

/-- The error that a bench plants for a transfer is not among these, since every transfer uses it up. -/
structure Rig where
  acquireFault : Option ResultWord
  configureFault : Option ResultWord
  topRate : UInt32
  response : List UInt8
  deriving DecidableEq, Repr

def Block.rig (b : Block) : Rig := ⟨b.acquireFault, b.configureFault, b.topRate, b.response⟩

def Injection.apply (r : Rig) : Injection → Rig
  | .fault .acquire word => { r with acquireFault := some word }
  | .fault .configure word => { r with configureFault := some word }
  | .fault .transfer _ => r
  | .topRate hertz => { r with topRate := hertz }
  | .response bytes => { r with response := if bytes.length ≤ responseCapacity then bytes else [] }

def Step.apply (r : Rig) : Step → Rig
  | .inject injection => injection.apply r
  | _ => r

theorem Block.rig_transfer (b : Block) (address : UInt8) (direction : Direction) (buffer : Buffer) (length : Nat) :
    (b.transfer address direction buffer length).1.rig = b.rig := by
  unfold transfer
  repeat' split
  all_goals rfl

theorem Block.response_bringUp (b : Block) (config : Config) (pins : BusPins) :
    (b.bringUp config pins).1.response = b.response := by
  cases acquired : b.acquireFault <;> cases configured : b.configureFault <;>
    simp [bringUp, acquire, configure, note, release, register, enableEvents, acquired, configured]

namespace Mediator

variable (m : Mediator)

theorem rig_stop (peer : Peer) : (m.stop peer).mediator.block.rig = m.block.rig := by
  obtain ⟨log, heard, sink, held, pending, block⟩ := m.stop_block peer
  rw [block]
  rfl

theorem rig_lent (peer : Peer) (direction : Direction) (buffer : Buffer) (length : Nat) :
    (m.transfer peer direction buffer length).mediator.block.rig = m.block.rig := by
  have kept := m.block.rig_transfer peer.address direction buffer length
  unfold transfer
  repeat' split
  all_goals first | rfl | simpa only [*] using kept

theorem rig_applyRate (kilohertz : UInt16) : (m.applyRate kilohertz).1.block.rig = m.block.rig := by
  unfold applyRate
  split
  · rfl
  · split <;> rfl

theorem rig_setRate (peer : Peer) (kilohertz : UInt16) :
    (m.setRate peer kilohertz).mediator.block.rig = m.block.rig := by
  unfold setRate
  split
  · rfl
  · exact m.rig_applyRate kilohertz

theorem rig_resolve (transaction : Transaction) (events : EventWord) :
    (m.resolve transaction events).1.block.rig = m.block.rig := by
  unfold resolve
  split <;> rfl

theorem rig_interrupt (events : EventWord) : (m.interrupt events).1.block.rig = m.block.rig := by
  unfold interrupt
  split
  · rfl
  · split
    · rfl
    · rename_i transaction found
      have kept := m.rig_resolve transaction events
      dsimp only
      split <;> exact kept

theorem rig_dispatch : m.dispatch.1.block.rig = m.block.rig := by
  unfold dispatch
  split <;> rfl

theorem rig_enter {entry : Entry} (other : ∀ peer, entry ≠ .start peer) :
    (m.enter entry).1.block.rig = m.block.rig := by
  cases entry with
  | start peer => exact absurd rfl (other peer)
  | stop peer => exact m.rig_stop peer
  | transfer peer direction buffer length => exact m.rig_lent peer direction buffer length
  | setRate peer kilohertz => exact m.rig_setRate peer kilohertz
  | interrupt events => exact m.rig_interrupt events
  | dispatch => exact m.rig_dispatch

theorem response_start (peer : Peer) : (m.start peer).mediator.block.response = m.block.response := by
  cases hardware : peer.pins with
  | none => simp only [start, hardware]
  | some pins =>
    have kept := m.block.response_bringUp m.config pins
    cases up : m.initialized with
    | true => cases policy : m.config.reinit <;> simp [start, hardware, up, policy]
    | false =>
      cases brought : m.block.bringUp m.config pins with
      | mk block fault =>
        rw [brought] at kept
        cases fault <;> simpa [start, hardware, up, brought] using kept

end Mediator

theorem Client.rig_outside {c : Client} {step : Step} (outside : c.entry step = none)
    (mediated : step.mediated = true) :
    (c.perform step).client.mediator.block.rig = step.apply c.mediator.block.rig := by
  cases step with
  | inject injection =>
    cases injection with
    | fault stage word => cases stage <;> rfl
    | topRate hertz => rfl
    | response bytes =>
      simp only [perform, inject, Block.respond, Step.apply, Injection.apply]
      split <;> rfl
  | transfer direction peer source length =>
    have lacking : (c.take source).2 = none := by simpa [entry] using outside
    rw [perform_transfer_of_lacking lacking, c.mediator_take source]
    rfl
  | raise events | raiseLatched events =>
    simp only [entry, ite_eq_right_iff, reduceCtorEq, imp_false] at outside
    simp only [perform, outside]
    rfl
  | latch | save | clearLog | readLog | countLog => rfl
  | direct => cases mediated
  | start | stop | setRate | interrupt | dispatch => cases outside

namespace Deed

variable {d : Deed}

theorem step_of_start {peer : Peer} (enters : d.entry = some (.start peer)) : d.step = .start peer := by
  obtain ⟨c, depth, step⟩ := d
  cases Client.enters_of_entry enters
  rfl

theorem apply_of_entry {entry : Entry} (enters : d.entry = some entry) (r : Rig) : d.step.apply r = r := by
  obtain ⟨c, depth, step⟩ := d
  cases step with
  | inject injection => cases enters
  | _ => rfl

theorem response_left (mediated : d.step.mediated = true) :
    d.left.block.response = (d.step.apply d.found.block.rig).response := by
  cases enters : d.entry with
  | none => exact congrArg Rig.response (Client.rig_outside enters mediated)
  | some entry =>
    rw [apply_of_entry enters, (left_of_entry enters).1]
    by_cases starts : ∃ peer, entry = .start peer
    · obtain ⟨peer, rfl⟩ := starts
      exact d.found.response_start peer
    · exact congrArg Rig.response (d.found.rig_enter fun peer same => starts ⟨peer, same⟩)

end Deed

def Rig.of (past : List Deed) : Rig := past.foldl (fun r d => d.step.apply r) ({} : Block).rig

theorem Rig.of_append (past : List Deed) (d : Deed) : of (past ++ [d]) = d.step.apply (of past) := by
  simp [of]

theorem Step.response_apply {step : Step} {r r' : Rig} (same : r.response = r'.response) :
    (step.apply r).response = (step.apply r').response := by
  cases step with
  | inject injection =>
    cases injection with
    | fault stage word => cases stage <;> exact same
    | topRate hertz => exact same
    | response bytes => rfl
  | _ => exact same

theorem Chronicle.response_eq {config : Config} {past : List Deed} {s : Session} (told : Chronicle config past s)
    (mediated : ∀ d ∈ past, d.step.mediated = true) :
    s.client.mediator.block.response = (Rig.of past).response := by
  obtain ⟨p, -, response⟩ : ∃ p, s.client.mediator.In p ∧
      s.client.mediator.block.response = (Rig.of past).response := by
    refine told.keeps (fun step => step.mediated = true)
      (fun past _ m => m.block.response = (Rig.of past).response) rfl ?_ mediated
    intro past d p mediated _ inside response
    obtain ⟨q, reached, -⟩ := Client.perform_turn inside d.depth d.step
    refine ⟨q, reached, ?_⟩
    rw [Deed.response_left mediated, Rig.of_append]
    exact Step.response_apply response
  exact response

end PeripheralLayer.Bus
