import PeripheralLayer.Proofs.Bus.Recovery
import PeripheralLayer.Proofs.Bus.Rig

/-!
Bringing the bus up is all or nothing. A try that fails leaves the mediator as it was and the block without sink and
buffer, and a bus that is up already is not touched at all. An error that was planted for the way up waits for the
stage that it is meant for and hits it once, so there are no more failures in a row than stages that can fail.
-/
namespace PeripheralLayer.Bus

/-! The ways a try can go. -/

section Start

variable {m : Mediator} {peer : Peer} {pins : BusPins} {word : ResultWord}

theorem Block.bringUp_of_unacquired {b : Block} (planted : b.acquireFault = some word) (config : Config)
    (pins : BusPins) : b.bringUp config pins = ((b.acquire pins).1, some word) := by
  simp only [bringUp, acquire, planted]

theorem Block.bringUp_of_unconfigured {b : Block} (acquires : b.acquireFault = none)
    (planted : b.configureFault = some word) (config : Config) (pins : BusPins) :
    b.bringUp config pins =
      (((b.acquire pins).1.configure ⟨.master, 0, config.frequency⟩).1.release, some word) := by
  simp only [bringUp, acquire, configure, note, acquires, planted]

theorem Mediator.start_of_bare (bare : peer.pins = none) : m.start peer = ⟨m, .failure, none⟩ := by
  simp only [start, bare]

theorem Mediator.start_of_up (hardware : peer.pins = some pins) (up : m.initialized = true) :
    m.start peer =
      ⟨m, match m.config.reinit with
        | .reject => .failure
        | .accept => .success, none⟩ := by
  simp only [start, hardware, up, if_true]
  cases m.config.reinit <;> rfl

theorem Mediator.start_of_unacquired (hardware : peer.pins = some pins) (down : m.initialized = false)
    (planted : m.block.acquireFault = some word) :
    m.start peer = ⟨{ m with block := (m.block.acquire pins).1 }, .failure, none⟩ := by
  simp [start, hardware, down, Block.bringUp_of_unacquired planted]

theorem Mediator.start_of_unconfigured (hardware : peer.pins = some pins) (down : m.initialized = false)
    (acquires : m.block.acquireFault = none) (planted : m.block.configureFault = some word) :
    m.start peer =
      ⟨{ m with block := ((m.block.acquire pins).1.configure ⟨.master, 0, m.config.frequency⟩).1.release },
        .failure, none⟩ := by
  simp [start, hardware, down, Block.bringUp_of_unconfigured acquires planted]

theorem Mediator.start_of_failure (failed : (m.start peer).status = .failure) :
    (m.start peer).mediator = { m with block := (m.start peer).mediator.block } ∧
      (m.initialized = false → m.block.grip = ⟨none, false, false⟩ →
        (m.start peer).mediator.block.grip = ⟨none, false, false⟩) := by
  cases hardware : peer.pins with
  | none =>
    rw [start_of_bare hardware]
    exact ⟨rfl, fun _ empty => empty⟩
  | some pins =>
    by_cases up : m.initialized = true
    · rw [start_of_up hardware up]
      exact ⟨rfl, fun _ empty => empty⟩
    · have down : m.initialized = false := by simpa using up
      cases acquires : m.block.acquireFault with
      | some word =>
        rw [start_of_unacquired hardware down acquires]
        exact ⟨rfl, fun _ empty => empty⟩
      | none =>
        cases configures : m.block.configureFault with
        | some word =>
          rw [start_of_unconfigured hardware down acquires configures]
          exact ⟨rfl, fun _ _ => rfl⟩
        | none =>
          rw [start_of_clear hardware down acquires configures] at failed
          cases failed

end Start

/-! Errors wait for their stage. -/

namespace Step

def tries : Step → Bool
  | start peer => peer.pins.isSome
  | _ => false

theorem start_of_tries {step : Step} (h : step.tries = true) :
    ∃ peer pins, step = .start peer ∧ peer.pins = some pins := by
  cases step with
  | start peer =>
    obtain ⟨pins, hardware⟩ := Option.isSome_iff_exists.mp h
    exact ⟨peer, pins, rfl, hardware⟩
  | _ => cases h

def plants : Step → Bool
  | inject (.fault .acquire _) | inject (.fault .configure _) => true
  | _ => false

end Step

def Rig.pitfalls (r : Rig) : List ResultWord := r.acquireFault.toList ++ r.configureFault.toList

theorem Rig.length_pitfalls_le (r : Rig) : r.pitfalls.length ≤ 2 := by
  obtain ⟨acquireFault, configureFault, topRate, response⟩ := r
  cases acquireFault <;> cases configureFault <;> simp [pitfalls]

theorem Step.pitfalls_apply {step : Step} (spares : step.plants = false) (r : Rig) :
    (step.apply r).pitfalls = r.pitfalls := by
  cases step with
  | inject injection =>
    cases injection with
    | fault stage word =>
      cases stage with
      | acquire | configure => cases spares
      | transfer => rfl
    | topRate | response => rfl
  | _ => rfl

namespace Deed

variable {d : Deed}

theorem left_of_start {peer : Peer} (step : d.step = .start peer) : d.left = (d.found.start peer).mediator := by
  rw [left, step]
  rfl

theorem left_of_idle_start {peer : Peer} (step : d.step = .start peer)
    (rests : d.step.tries = true → d.found.initialized = true) : d.left = d.found := by
  rw [left_of_start step]
  cases hardware : peer.pins with
  | none => rw [Mediator.start_of_bare hardware]
  | some pins =>
    have up := rests (by simp [step, Step.tries, hardware])
    rw [Mediator.start_of_up hardware up]

theorem rig_left (mediated : d.step.mediated = true) (rests : d.step.tries = true → d.found.initialized = true) :
    d.left.block.rig = d.step.apply d.found.block.rig := by
  cases enters : d.entry with
  | none => exact Client.rig_outside enters mediated
  | some entry =>
    rw [apply_of_entry enters]
    by_cases starts : ∃ peer, entry = .start peer
    · obtain ⟨peer, rfl⟩ := starts
      rw [left_of_idle_start (step_of_start enters) rests]
    · rw [(left_of_entry enters).1]
      exact d.found.rig_enter fun peer same => starts ⟨peer, same⟩

theorem down_left (down : d.found.In .down) (rests : d.step.tries = false) : d.left.In .down := by
  cases enters : d.entry with
  | none =>
    obtain ⟨-, block, left⟩ := Deed.outside enters
    exact left ▸ down.withBlock block
  | some entry =>
    by_cases starts : ∃ peer, entry = .start peer
    · obtain ⟨peer, rfl⟩ := starts
      rw [left_of_idle_start (step_of_start enters) (by simp [rests])]
      exact down
    · obtain ⟨q, reached, -, deal⟩ := Deed.deal down enters
      generalize d.calls = calls at deal
      generalize d.told = told at deal
      cases deal with
      | ignored | declined | turnedAway | spurious => exact reached
      | unacquired peer | unconfigured peer | raised peer => exact absurd ⟨peer, rfl⟩ starts

end Deed

/-! What comes of a try. -/

/-- What comes of a try to bring up a bus that is down. The first error on the way ends it and is used up. -/
inductive Deed.Attempt (d : Deed) (pins : BusPins) : Prop where
  | unacquired (word : ResultWord) (planted : d.found.block.acquireFault = some word)
      (reply : d.moment.reply = .status .failure) (calls : d.calls = [.acquire pins])
      (rig : d.left.block.rig = { d.found.block.rig with acquireFault := none })
  | unconfigured (word : ResultWord) (acquires : d.found.block.acquireFault = none)
      (planted : d.found.block.configureFault = some word) (reply : d.moment.reply = .status .failure)
      (calls : d.calls = [.acquire pins, .configure ⟨.master, 0, d.found.config.frequency⟩, .release])
      (rig : d.left.block.rig = { d.found.block.rig with configureFault := none })
  | raised (acquires : d.found.block.acquireFault = none) (configures : d.found.block.configureFault = none)
      (reply : d.moment.reply = .status .success)
      (calls : d.calls = [.acquire pins, .configure ⟨.master, 0, d.found.config.frequency⟩, .register,
        .enableEvents .mediated d.found.config.priority true])
      (rig : d.left.block.rig = d.found.block.rig) (fit : d.left.Fit)

/-- The deed brings the bus up, or it leaves the mediator alone and the block with nothing in its hands. -/
structure Deed.AllOrNothing (d : Deed) (peer : Peer) : Prop where
  silent : d.told = none
  up : d.found.initialized = true → d.left = d.found
  failed : d.moment.reply = .status .failure →
    d.left = { d.found with block := d.left.block } ∧
      (d.found.initialized = false → d.left.block.grip = ⟨none, false, false⟩)
  attempt : d.found.initialized = false → ∀ pins, peer.pins = some pins → d.Attempt pins

theorem Phase.Matches.grip_of_down {g : Grip} (accord : Phase.down.Matches g) : g = ⟨none, false, false⟩ := by
  obtain ⟨held, pending, sink⟩ := g
  obtain ⟨hp, hh, hs⟩ := accord
  simp_all [Phase.current, Phase.initialized]

theorem Deed.attempt_of_down {d : Deed} (down : d.found.In .down) (empty : d.found.block.grip = ⟨none, false, false⟩)
    {peer : Peer} {pins : BusPins} (step : d.step = .start peer) (hardware : peer.pins = some pins) :
    d.Attempt pins := by
  obtain ⟨c, depth, step⟩ := d
  subst step
  have reply : (Deed.mk c depth (.start peer)).moment.reply = .status (c.mediator.start peer).status := rfl
  have left : (Deed.mk c depth (.start peer)).left = (c.mediator.start peer).mediator := rfl
  have initialized : c.mediator.initialized = false := down.initialized
  cases acquires : c.mediator.block.acquireFault with
  | some word =>
    rw [Mediator.start_of_unacquired hardware initialized acquires] at reply left
    refine .unacquired word acquires reply (calls_of_noted ?_) ?_ <;> rw [left]
    · exact ⟨rfl, rfl⟩
    · rfl
  | none =>
    cases configures : c.mediator.block.configureFault with
    | some word =>
      rw [Mediator.start_of_unconfigured hardware initialized acquires configures] at reply left
      refine .unconfigured word acquires configures reply (calls_of_noted ?_) ?_ <;> rw [left]
      · exact ⟨rfl, rfl⟩
      · simp [Deed.found, Block.rig, Block.acquire, Block.configure, Block.release, Block.note, acquires]
    | none =>
      obtain ⟨n, started, fit, -⟩ :=
        Mediator.start_of_down down empty (show peer.pins.isSome by simp [hardware]) acquires configures
      have fit : (c.mediator.start peer).mediator.Fit := started ▸ fit
      rw [Mediator.start_of_clear hardware initialized acquires configures] at reply left fit
      refine .raised acquires configures reply (calls_of_noted ?_) ?_ (left ▸ fit) <;> rw [left]
      · exact ⟨rfl, rfl⟩
      · simp [Deed.found, Block.rig, Block.acquire, Block.configure, Block.register, Block.enableEvents, Block.note,
          acquires, configures]

theorem Deed.allOrNothing {d : Deed} {p : Phase} (inside : d.found.In p) (accord : p.Matches d.found.block.grip)
    {peer : Peer} (step : d.step = .start peer) : d.AllOrNothing peer := by
  have empty (down : d.found.initialized = false) :
      d.found.In .down ∧ d.found.block.grip = ⟨none, false, false⟩ := by
    obtain rfl := inside.eq_down down
    exact ⟨inside, accord.grip_of_down⟩
  have made : d.client.perform d.step = d.client.ofOutcome (d.found.start peer) := by
    rw [step]
    rfl
  have left := left_of_start step
  constructor
  case silent => exact (congrArg Effect.completion made).trans (Mediator.start_phase inside peer).1
  case up => exact fun up => left_of_idle_start step fun _ => up
  case failed =>
    intro failed
    have reply : d.moment.reply = .status (d.found.start peer).status := congrArg Effect.reply made
    have status : (d.found.start peer).status = .failure := Reply.status.inj (reply.symm.trans failed)
    obtain ⟨control, grip⟩ := Mediator.start_of_failure status
    rw [left]
    exact ⟨control, fun down => grip down (empty down).2⟩
  case attempt =>
    intro down pins hardware
    obtain ⟨inside, empty⟩ := empty down
    exact attempt_of_down inside empty step hardware

namespace Deed

variable {d : Deed}

def Succeeds (d : Deed) : Prop := d.moment.reply = .status .success ∧ d.left.Fit

theorem pitfall_met {peer : Peer} (fine : d.AllOrNothing peer) (down : d.found.In .down) {pins : BusPins}
    (hardware : peer.pins = some pins) (fails : ¬ d.Succeeds) :
    d.left.In .down ∧ d.left.block.rig.pitfalls.length + 1 = d.found.block.rig.pitfalls.length := by
  have alone (reply : d.moment.reply = .status .failure) : d.left.In .down := by
    rw [(fine.failed reply).1]
    exact down.withBlock _
  cases fine.attempt down.initialized pins hardware with
  | unacquired word planted reply calls rig =>
    have fault : d.found.block.rig.acquireFault = some word := planted
    refine ⟨alone reply, ?_⟩
    rw [rig]
    simp [Rig.pitfalls, fault, Nat.add_comm]
  | unconfigured word acquires planted reply calls rig =>
    have fault : d.found.block.rig.configureFault = some word := planted
    refine ⟨alone reply, ?_⟩
    rw [rig]
    simp [Rig.pitfalls, fault]
  | raised acquires configures reply calls rig fit => exact absurd ⟨reply, fit⟩ fails

theorem met_left (mediated : d.step.mediated = true) (spares : d.step.tries = true ∨ d.step.plants = false)
    (down : d.found.In .down) (fine : ∀ peer, d.step = .start peer → d.AllOrNothing peer)
    (fails : d.step.tries = true → ¬ d.Succeeds) :
    d.left.In .down ∧
      (if d.step.tries then 1 else 0) + d.left.block.rig.pitfalls.length = d.found.block.rig.pitfalls.length := by
  cases tries : d.step.tries with
  | true =>
    obtain ⟨peer, pins, step, hardware⟩ := Step.start_of_tries tries
    obtain ⟨below, fewer⟩ := pitfall_met (fine peer step) down hardware (fails tries)
    exact ⟨below, by simpa [Nat.add_comm] using fewer⟩
  | false =>
    have spares : d.step.plants = false := by simpa [tries] using spares
    rw [rig_left mediated (by simp [tries]), Step.pitfalls_apply spares]
    exact ⟨down_left down tries, by simp⟩

end Deed

theorem Chronicle.matches_found {config : Config} {past : List Deed} {s : Session} (told : Chronicle config past s)
    (mediated : ∀ d ∈ past, d.step.mediated = true) {d : Deed} (mem : d ∈ past) :
    ∃ p, d.found.In p ∧ p.Matches d.found.block.grip := by
  obtain ⟨before, later, split⟩ := List.append_of_mem mem
  obtain ⟨t, earlier, same⟩ := told.until split
  obtain ⟨p, inside, accord, -⟩ :=
    earlier.matches fun e mem => mediated e (split ▸ List.mem_append_left _ mem)
  rw [same] at inside accord
  exact ⟨p, inside, accord⟩

/-- From the first of these deeds, which finds the bus down, no try succeeds, and no new error is planted. -/
structure Deed.Unlucky (first : Deed) (later : List Deed) : Prop where
  tries : first.step.tries = true
  down : first.found.initialized = false
  spares : ∀ d ∈ later, d.step.plants = false
  fine : ∀ d ∈ first :: later, ∀ peer, d.step = .start peer → d.AllOrNothing peer
  fails : ∀ d ∈ first :: later, d.step.tries = true → ¬ d.Succeeds

theorem Deed.Unlucky.earlier {first d : Deed} {between : List Deed} (unlucky : first.Unlucky (between ++ [d])) :
    first.Unlucky between := by
  have mem : ∀ e ∈ first :: between, e ∈ first :: (between ++ [d]) := fun e mem => by
    rw [← List.cons_append]
    exact List.mem_append_left _ mem
  exact ⟨unlucky.tries, unlucky.down, fun e inner => unlucky.spares e (List.mem_append_left _ inner),
    fun e inner => unlucky.fine e (mem e inner), fun e inner => unlucky.fails e (mem e inner)⟩

def Deed.tries (past : List Deed) : Nat := past.countP fun d => d.step.tries

theorem Deed.tries_append (past : List Deed) (d : Deed) :
    tries (past ++ [d]) = tries past + if d.step.tries then 1 else 0 := by
  simp [tries, List.countP_append, List.countP_singleton]

theorem Chronicle.tries_le {config : Config} {past : List Deed} {s : Session} (told : Chronicle config past s)
    (mediated : ∀ d ∈ past, d.step.mediated = true) {before later : List Deed} {first : Deed}
    (cut : past = before ++ first :: later) (unlucky : first.Unlucky later) :
    Deed.tries (first :: later) + s.client.mediator.block.rig.pitfalls.length ≤ 2 := by
  suffices kept : ∃ p, s.client.mediator.In p ∧ ∀ before first later, past = before ++ first :: later →
      first.Unlucky later →
        p = .down ∧ Deed.tries (first :: later) + s.client.mediator.block.rig.pitfalls.length ≤ 2 by
    obtain ⟨p, -, bounds⟩ := kept
    exact (bounds before first later cut unlucky).2
  refine told.keeps (fun step => step.mediated = true)
    (fun past p m => ∀ before first later, past = before ++ first :: later → first.Unlucky later →
      p = .down ∧ Deed.tries (first :: later) + m.block.rig.pitfalls.length ≤ 2) (by simp) ?_ mediated
  intro past d p mediated _ inside bounds
  obtain ⟨q, reached, -⟩ := Client.perform_turn inside d.depth d.step
  refine ⟨q, reached, fun before first later cut unlucky => ?_⟩
  have met (down : p = .down) (mem : d ∈ first :: later) (spares : d.step.tries = true ∨ d.step.plants = false) :=
    Deed.met_left mediated spares (down ▸ inside) (unlucky.fine d mem) (unlucky.fails d mem)
  rcases cut_append_singleton cut with ⟨-, rfl, rfl⟩ | ⟨between, rfl, shorter⟩
  · obtain ⟨below, fewer⟩ := met (inside.eq_down unlucky.down) (by simp) (.inl unlucky.tries)
    have few := d.found.block.rig.length_pitfalls_le
    have one : Deed.tries [d] = if d.step.tries then 1 else 0 := by simp [Deed.tries, List.countP_singleton]
    exact ⟨reached.eq_down below.initialized, by omega⟩
  · obtain ⟨down, bound⟩ := bounds before first between shorter unlucky.earlier
    obtain ⟨below, fewer⟩ := met down (by simp) (.inr (unlucky.spares d (by simp)))
    have more := Deed.tries_append (first :: between) d
    rw [List.cons_append] at more
    exact ⟨reached.eq_down below.initialized, by omega⟩

/-- A bus is brought up in one piece or not at all, wherever in a run that is tried, and an error that is planted for the
way up is there until the stage that it hits. So of three tries on a bus that was down, without new errors in between, one
succeeds, whatever else happens meanwhile. -/
theorem start_all_or_nothing {config : Config} {past : List Deed} {s : Session} (told : Chronicle config past s)
    (mediated : ∀ d ∈ past, d.step.mediated = true) :
    (∀ d ∈ past, ∀ peer, d.step = .start peer → d.AllOrNothing peer) ∧
      (∀ d ∈ past, (d.step.tries = true → d.found.initialized = true) →
        d.left.block.rig = d.step.apply d.found.block.rig) ∧
      ∀ before first later, past = before ++ first :: later → first.step.tries = true →
        first.found.initialized = false → (∀ d ∈ later, d.step.plants = false) → Deed.tries (first :: later) = 3 →
        ∃ d ∈ first :: later, d.step.tries = true ∧ d.Succeeds := by
  have fine : ∀ d ∈ past, ∀ peer, d.step = .start peer → d.AllOrNothing peer := by
    intro d mem peer step
    obtain ⟨p, inside, accord⟩ := told.matches_found mediated mem
    exact Deed.allOrNothing inside accord step
  refine ⟨fine, fun d mem rests => Deed.rig_left (mediated d mem) rests, ?_⟩
  intro before first later cut tries down spares three
  by_contra none_succeeds
  have fails : ∀ d ∈ first :: later, d.step.tries = true → ¬ d.Succeeds :=
    fun d mem tried succeeds => none_succeeds ⟨d, mem, tried, succeeds⟩
  have inner : ∀ d ∈ first :: later, d ∈ past := fun d mem => cut ▸ List.mem_append_right _ mem
  have bound := told.tries_le mediated cut ⟨tries, down, spares, fun d mem => fine d (inner d mem), fails⟩
  omega

/-- A handler is told that its write was given up since the bus is taken down, and brings the bus up again, against one error
at each stage. -/
def stubbornHandler : Scenario where
  config := {}
  handlers := [[[.start boardPeer, .start boardPeer, .start boardPeer]]]
  steps :=
    [.start boardPeer, .inject (.fault .acquire BusFault.invalidPin),
      .inject (.fault .configure BusFault.powerRefused), .transfer .write boardPeer (.fresh [1]) 1, .stop boardPeer]

def stubbornTry : Deed := stubbornHandler.deeds.get ⟨5, by decide⟩

theorem stubborn_handler_succeeds :
    ∃ s, Chronicle stubbornHandler.config (stubbornHandler.deeds.take 5 ++ stubbornTry :: stubbornHandler.deeds.drop 6) s ∧
      (stubbornTry :: stubbornHandler.deeds.drop 6).map (fun d => (d.depth, d.moment.reply)) =
        [(1, .status .failure), (1, .status .failure), (1, .status .success)] ∧
      stubbornTry.AllOrNothing boardPeer ∧
      ∃ d ∈ stubbornTry :: stubbornHandler.deeds.drop 6, d.step.tries = true ∧ d.Succeeds := by
  obtain ⟨s, told⟩ := stubbornHandler.chronicle
  have mediated : ∀ d ∈ stubbornHandler.deeds, d.step.mediated = true := by decide
  have split : stubbornHandler.deeds =
      stubbornHandler.deeds.take 5 ++ stubbornTry :: stubbornHandler.deeds.drop 6 := by decide
  obtain ⟨fine, -, third⟩ := start_all_or_nothing told mediated
  have mem : stubbornTry ∈ stubbornHandler.deeds := List.get_mem ..
  have step : stubbornTry.step = .start boardPeer := by decide
  exact ⟨s, split ▸ told, by decide, fine stubbornTry mem boardPeer step,
    third _ _ _ split (by decide) (by decide) (by decide) (by decide)⟩

end PeripheralLayer.Bus
