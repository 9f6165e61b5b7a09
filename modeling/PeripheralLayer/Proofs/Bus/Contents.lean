import PeripheralLayer.Proofs.Bus.Recovery
import PeripheralLayer.Proofs.Bus.Rig

/-!
What is in a buffer that comes back. A write's buffer comes back as it was lent. A read's buffer gets the device's
answer in its first places when the transfer is started, from the response that the bench had set up by then, and
nothing that happens until the handler has it changes a byte of it. A request that is not accepted gives its buffer
back untouched.
-/
namespace PeripheralLayer.Bus

/-- What comes back of the buffer lent for an accepted transfer of this length, if the device had been given this
response when the transfer was started. -/
structure Buffer.ComesBack (lent : Buffer) (direction : Direction) (address : UInt8) (length : Nat)
    (response : List UInt8) (back : Buffer) : Prop where
  same : back.tag = lent.tag
  size : back.bytes.length = lent.bytes.length
  written : direction = .write → back.bytes = lent.bytes
  answered : direction = .read → ∀ place byte, place < length → response[place]? = some byte →
    back.bytes[place]? = some byte
  counted : direction = .read → response = [] → ∀ place, place < length →
    back.bytes[place]? = some (UInt8.ofNat (address.toNat + place))
  silent : direction = .read → response ≠ [] → ∀ place, response.length ≤ place → place < length →
    back.bytes[place]? = some 0
  rest : ∀ place, length ≤ place → back.bytes[place]? = lent.bytes[place]?

namespace Block

theorem getElem?_fill (response : List UInt8) (address : UInt8) (length : Nat) (bytes : List UInt8) (place : Nat) :
    (fill response address length bytes)[place]? =
      bytes[place]?.map fun byte => if place < length then answerAt response address place else byte := by
  rw [fill, List.getElem?_mapIdx]

theorem getElem?_fill_of_lt {response : List UInt8} {address : UInt8} {length place : Nat} {bytes : List UInt8}
    (fits : length ≤ bytes.length) (inside : place < length) :
    (fill response address length bytes)[place]? = some (answerAt response address place) := by
  have there : bytes[place]? = some bytes[place] := List.getElem?_eq_getElem (by omega)
  rw [getElem?_fill, there, Option.map_some, if_pos inside]

theorem received_comesBack (b : Block) (address : UInt8) (direction : Direction) {length : Nat} {buffer : Buffer}
    (fits : length ≤ buffer.bytes.length) :
    buffer.ComesBack direction address length b.response (b.received address direction length buffer) := by
  cases direction with
  | write => constructor <;> simp [received]
  | read =>
    have byte (place : Nat) (inside : place < length) :
        (b.received address .read length buffer).bytes[place]? = some (answerAt b.response address place) :=
      getElem?_fill_of_lt fits inside
    constructor
    case same => rfl
    case size => simp [received, fill]
    case written => simp
    case answered =>
      intro _ place answer inside given
      rw [byte place inside, answerAt, given]
    case counted =>
      intro _ none_given place inside
      rw [byte place inside, answerAt, none_given, UInt8.ofNat_add, UInt8.ofNat_toNat]
      rfl
    case silent =>
      intro _ some_given place beyond inside
      have nothing : b.response[place]? = none := List.getElem?_eq_none beyond
      rw [byte place inside, answerAt, nothing]
      simp [some_given]
    case rest =>
      intro place beyond
      simp only [received, getElem?_fill, Nat.not_lt.mpr beyond, if_false, Option.map_id']

end Block

def Phase.Carries (transaction : Transaction) (back : Buffer) (held : Option Buffer) : Phase → Prop
  | .inFlight flying => flying = transaction ∧ held = some back
  | .waiting outcome =>
    outcome.handler = transaction.handler ∧ outcome.event ≠ .busy ∧ outcome.buffer = some back
  | .down | .idle => False

section Carries

variable {m n : Mediator} {p q : Phase} {entry : Entry} {calls : List Call} {told : Option Completion}
  {transaction : Transaction} {back : Buffer}

theorem Deal.carries (deal : Deal m n p entry calls told q) (carries : p.Carries transaction back m.block.held) :
    (entry.asks = false ∧ ∃ event, event ≠ .busy ∧ told = some ⟨transaction.handler, event, some back⟩) ∨
      ((told.isSome && !entry.asks) = false ∧ q.Carries transaction back n.block.held) := by
  cases deal with
  | ignored p entry asks verdict same =>
    rw [same]
    exact Or.inr ⟨rfl, carries⟩
  | declined p entry asks free same =>
    cases p with
    | down | idle => exact absurd carries id
    | inFlight | waiting => cases free
  | turnedAway p entry asks busy grip counters =>
    rw [Block.held_of_grip grip]
    exact Or.inr ⟨by simp [asks], carries⟩
  | spurious p events event verdict nothing grip counters =>
    rw [Block.held_of_grip grip]
    exact Or.inr ⟨rfl, carries⟩
  | recorded flying events event verdict grip counters =>
    obtain ⟨rfl, held⟩ := carries
    exact Or.inr ⟨rfl, rfl, EventWord.verdict_ne_busy verdict, held⟩
  | resolved flying events event verdict grip counters =>
    obtain ⟨rfl, held⟩ := carries
    exact Or.inl ⟨rfl, event, EventWord.verdict_ne_busy verdict, by rw [held]⟩
  | aborted peer flying grip counters =>
    obtain ⟨rfl, held⟩ := carries
    exact Or.inl ⟨rfl, .error, by simp, by rw [held]⟩
  | withdrawn peer outcome grip counters | dispatched outcome grip counters =>
    obtain ⟨handler, final, buffer⟩ := carries
    exact Or.inl ⟨rfl, outcome.event, final, by rw [← handler, ← buffer]⟩
  | rated | refused | accepted | unacquired | unconfigured | raised | closed => exact absurd carries id

end Carries

theorem Mediator.transfer_of_success {m : Mediator} {p : Phase} (inside : m.In p) {peer : Peer}
    {direction : Direction} {buffer : Buffer} {length : Nat}
    (success : (m.transfer peer direction buffer length).status = .success) :
    ∃ handler, peer.listener = some handler ∧ length ≤ buffer.bytes.length ∧
      (m.transfer peer direction buffer length).mediator.In (.inFlight ⟨peer.address, handler⟩) ∧
      (m.transfer peer direction buffer length).mediator.block.held =
        some (m.block.received peer.address direction length buffer) := by
  cases listener : peer.listener with
  | none =>
    rw [transfer_of_unheard listener] at success
    cases success
  | some handler =>
    rcases transfer_phase inside listener direction buffer length with ⟨-, other, -⟩ | ⟨rfl, taken, -, -⟩
    · exact absurd success other
    · by_cases fits : length ≤ buffer.bytes.length
      · refine ⟨handler, rfl, fits, taken, ?_⟩
        rcases m.block.transfer_cases peer.address direction buffer length with
          ⟨block, refusal, refused, -, -⟩ | ⟨block, accepted, -, grip⟩
        · rw [transfer_of_refused listener inside.initialized inside.bus fits refused] at success
          exact absurd success refusal.word.status_ne_success
        · rw [transfer_of_accepted listener inside.initialized inside.bus fits accepted]
          exact Block.held_of_grip grip
      · rw [transfer_of_long listener inside.initialized inside.bus (Nat.not_le.mp fits)] at success
        cases success

namespace Deed

variable {d : Deed} {peer : Peer} {direction : Direction} {buffer : Buffer} {length : Nat}

def settles (d : Deed) : Bool := d.told.isSome && !d.entry.any Entry.asks

theorem reply_of_transfer (asked : d.entry = some (.transfer peer direction buffer length)) :
    d.moment.reply = .status (d.found.transfer peer direction buffer length).status := by
  obtain ⟨c, depth, step⟩ := d
  cases Client.enters_of_entry asked with
  | transfer taken => exact congrArg Effect.reply (Client.perform_transfer_of_taken taken)

end Deed

theorem Deed.entry_of_settles {d : Deed} (settles : d.settles = true) :
    ∃ entry, d.entry = some entry ∧ d.told.isSome = true ∧ entry.asks = false := by
  rw [Deed.settles, Bool.and_eq_true, Bool.not_eq_true'] at settles
  obtain ⟨tells, unasked⟩ := settles
  cases enters : d.entry with
  | none =>
    rw [(Deed.outside enters).1] at tells
    cases tells
  | some entry =>
    rw [enters] at unasked
    exact ⟨entry, rfl, tells, unasked⟩

theorem Deed.settles_of_entry {d : Deed} {entry : Entry} (enters : d.entry = some entry) :
    d.settles = (d.told.isSome && !entry.asks) := by
  rw [settles, enters, Option.any_some]

/-- A transfer that was accepted and whose handler has not been called back for it is on its way, with what the
device put into the buffer when the transfer was started. -/
def Carried (past : List Deed) (p : Phase) (m : Mediator) : Prop :=
  ∀ before d between peer direction buffer length, past = before ++ d :: between →
    d.entry = some (.transfer peer direction buffer length) → d.moment.reply = .status .success →
    (∀ b ∈ between, b.settles = false) →
    ∃ handler, peer.listener = some handler ∧ length ≤ buffer.bytes.length ∧
      p.Carries ⟨peer.address, handler⟩ (d.found.block.received peer.address direction length buffer) m.block.held

theorem Carried.snoc {past : List Deed} {last : Deed} {p q : Phase} (inside : last.found.In p)
    (carried : Carried past p last.found)
    (reached : last.left.In q)
    (keeps : ∀ transaction back, p.Carries transaction back last.found.block.held → last.settles = false →
      q.Carries transaction back last.left.block.held) : Carried (past ++ [last]) q last.left := by
  intro before d between peer direction buffer length cut asked success quiet
  rcases cut_append_singleton cut with ⟨rfl, rfl, rfl⟩ | ⟨between, rfl, shorter⟩
  -- the deed itself is the accepted transfer, or that was an earlier one
  · rw [Deed.reply_of_transfer asked, Reply.status.injEq] at success
    obtain ⟨handler, listener, fits, flying, held⟩ := Mediator.transfer_of_success inside success
    have left : last.left = (last.found.transfer peer direction buffer length).mediator :=
      (Deed.left_of_entry asked).1
    rw [← left] at flying held
    obtain rfl := flying.unique reached
    exact ⟨handler, listener, fits, rfl, held⟩
  · have earlier (b : Deed) (mem : b ∈ between) : b.settles = false := quiet b (List.mem_append_left _ mem)
    obtain ⟨handler, listener, fits, carries⟩ :=
      carried before d between peer direction buffer length shorter asked success earlier
    exact ⟨handler, listener, fits, keeps _ _ carries (quiet last (by simp))⟩

theorem Chronicle.carried {config : Config} {past : List Deed} {s : Session} (told : Chronicle config past s)
    (mediated : ∀ d ∈ past, d.step.mediated = true) :
    ∃ p, s.client.mediator.In p ∧ Carried past p s.client.mediator := by
  refine told.keeps (fun step => step.mediated = true) Carried ?_ ?_ mediated
  · intro before d between peer direction buffer length cut
    simp at cut
  · intro past d p mediated _ inside carried
    cases enters : d.entry with
    | none =>
      have held : d.left.block.held = d.found.block.held :=
        Block.held_of_grip (Client.block_outside enters mediated).2.1
      obtain ⟨-, block, left⟩ := Deed.outside enters
      have stays : d.left.In p := left ▸ inside.withBlock block
      refine ⟨p, stays, carried.snoc inside stays fun transaction back carries _ => ?_⟩
      rw [held]
      exact carries
    | some entry =>
      obtain ⟨q, reached, -, deal⟩ := Deed.deal inside enters
      refine ⟨q, reached, carried.snoc inside reached fun transaction back carries quiet => ?_⟩
      rcases deal.carries carries with ⟨unasked, event, -, tells⟩ | ⟨-, carries⟩
      · rw [Deed.settles_of_entry enters, tells, unasked] at quiet
        cases quiet
      · exact carries

theorem Chronicle.comesBack {config : Config} {past : List Deed} {s : Session} (told : Chronicle config past s)
    (mediated : ∀ d ∈ past, d.step.mediated = true) {before between : List Deed} {d : Deed}
    (cut : past = before ++ d :: between) {peer : Peer} {direction : Direction} {buffer : Buffer} {length : Nat}
    (asked : d.entry = some (.transfer peer direction buffer length))
    (success : d.moment.reply = .status .success) (quiet : ∀ b ∈ between, b.settles = false) :
    ∃ handler back p, peer.listener = some handler ∧
      buffer.ComesBack direction peer.address length (Rig.of before).response back ∧
      s.client.mediator.In p ∧ p.Carries ⟨peer.address, handler⟩ back s.client.mediator.block.held := by
  obtain ⟨p, inside, carried⟩ := told.carried mediated
  obtain ⟨handler, listener, fits, carries⟩ :=
    carried before d between peer direction buffer length cut asked success quiet
  obtain ⟨t, earlier, same⟩ := told.until cut
  have response : d.found.block.response = (Rig.of before).response := by
    rw [Deed.found, ← same]
    exact earlier.response_eq fun b mem => mediated b (by simp [cut, mem])
  have comesBack := d.found.block.received_comesBack peer.address direction fits
  rw [response] at comesBack
  exact ⟨handler, _, p, listener, comesBack, inside, carries⟩

/-- A request that is not accepted gives its buffer back as it was. The next callback that nobody asked for after an
accepted transfer is for its handler, with the bytes that were settled when it was started, and until then they are
with the block or with the outcome that waits. -/
theorem bytes_come_back {config : Config} {past : List Deed} {s : Session} (told : Chronicle config past s)
    (mediated : ∀ d ∈ past, d.step.mediated = true) :
    (∀ d ∈ past, ∀ peer handler direction buffer length, peer.listener = some handler →
      d.entry = some (.transfer peer direction buffer length) → d.moment.reply ≠ .status .success →
      ∃ event, d.told = some ⟨handler, event, some buffer⟩) ∧
    (∀ before d between e later peer direction buffer length, past = before ++ d :: (between ++ e :: later) →
      d.entry = some (.transfer peer direction buffer length) → d.moment.reply = .status .success →
      (∀ b ∈ between, b.settles = false) → e.settles = true →
      ∃ handler event back, peer.listener = some handler ∧ e.told = some ⟨handler, event, some back⟩ ∧
        event ≠ .busy ∧ buffer.ComesBack direction peer.address length (Rig.of before).response back) ∧
    ∀ before d between peer direction buffer length, past = before ++ d :: between →
      d.entry = some (.transfer peer direction buffer length) → d.moment.reply = .status .success →
      (∀ b ∈ between, b.settles = false) →
      ∃ handler back, peer.listener = some handler ∧
        buffer.ComesBack direction peer.address length (Rig.of before).response back ∧
        (s.client.mediator.current = some ⟨peer.address, handler⟩ ∧ s.client.mediator.block.held = some back ∨
          ∃ event, event ≠ .busy ∧ s.client.mediator.pending = some ⟨handler, event, some back⟩) := by
  refine ⟨?_, ?_, ?_⟩
  · intro d mem peer handler direction buffer length listener asked failure
    obtain ⟨before, later, cut⟩ := List.append_of_mem mem
    obtain ⟨p, inside⟩ := told.finds cut
    rw [Deed.reply_of_transfer asked] at failure
    rcases Mediator.transfer_phase inside listener direction buffer length with
      ⟨-, -, event, answer, -⟩ | ⟨-, -, status, -⟩
    · exact ⟨event, (Deed.left_of_entry asked).2.trans answer⟩
    · exact absurd (congrArg Reply.status status) failure
  · intro before d between e later peer direction buffer length cut asked success quiet settles
    have whole : past = (before ++ d :: between) ++ e :: later := by simp [cut]
    obtain ⟨t, earlier, same⟩ := told.until whole
    obtain ⟨handler, back, p, listener, comesBack, inside, carries⟩ :=
      earlier.comesBack (fun b mem => mediated b (whole ▸ List.mem_append_left _ mem)) rfl asked success quiet
    rw [same] at inside carries
    obtain ⟨entry, enters, tells, unasked⟩ := Deed.entry_of_settles settles
    obtain ⟨q, -, -, deal⟩ := Deed.deal inside enters
    rcases deal.carries carries with ⟨-, event, final, callback⟩ | ⟨silent, -⟩
    · exact ⟨handler, event, back, listener, callback, final, comesBack⟩
    · rw [tells, unasked] at silent
      cases silent
  · intro before d between peer direction buffer length cut asked success quiet
    obtain ⟨handler, back, p, listener, comesBack, inside, carries⟩ :=
      told.comesBack mediated cut asked success quiet
    refine ⟨handler, back, listener, comesBack, ?_⟩
    cases p with
    | down | idle => exact absurd carries id
    | inFlight transaction =>
      obtain ⟨rfl, held⟩ := carries
      exact .inl ⟨inside.current, held⟩
    | waiting outcome =>
      obtain ⟨named, event, carried⟩ := outcome
      obtain ⟨rfl, final, rfl⟩ := carries
      exact .inr ⟨event, final, inside.pending⟩

/-- The handler of a read that failed reads into the same buffer again, from a device at the last address. The device
gets another response while the first read is on its way and loses it before the second. -/
def rereadBuffer : Scenario where
  config := { dispatch := .deferred }
  handlers := [[[], [.inject (.response []), .transfer .read { boardPeer with address := 0xff } .returned 2]]]
  steps :=
    [.start boardPeer, .inject (.response [7, 8]), .transfer .read boardPeer (.fresh [1, 2, 3, 4, 5]) 3,
      .inject (.response [9, 9, 9]), .transfer .write boardPeer (.fresh [6]) 1, .interrupt .writeInFifo,
      .interrupt (.union .readComplete .transferError), .interrupt .readComplete, .dispatch, .stop boardPeer]

def rereadFirst : Deed := rereadBuffer.deeds.get ⟨2, by decide⟩
def rereadDispatch : Deed := rereadBuffer.deeds.get ⟨8, by decide⟩
def rereadSecond : Deed := rereadBuffer.deeds.get ⟨10, by decide⟩
def rereadStop : Deed := rereadBuffer.deeds.get ⟨11, by decide⟩

theorem reread_buffer_comes_back :
    ∃ s, Chronicle rereadBuffer.config rereadBuffer.deeds s ∧
      (∀ d ∈ rereadBuffer.deeds, d.step.mediated = true) ∧
      rereadBuffer.deeds =
        rereadBuffer.deeds.take 2 ++ rereadFirst :: ((rereadBuffer.deeds.drop 3).take 5 ++ rereadDispatch ::
          rereadBuffer.deeds.drop 9) ∧
      rereadFirst.entry = some (.transfer boardPeer .read ⟨0, [1, 2, 3, 4, 5]⟩ 3) ∧
      (∃ back, rereadDispatch.told = some ⟨0, .error, some back⟩ ∧
        Buffer.ComesBack ⟨0, [1, 2, 3, 4, 5]⟩ .read 0x30 3 [7, 8] back) ∧
      (∃ back, rereadStop.told = some ⟨0, .error, some back⟩ ∧
        Buffer.ComesBack ⟨0, [7, 8, 0, 4, 5]⟩ .read 0xff 2 [] back) ∧
      ∃ event, (rereadBuffer.deeds.get ⟨4, by decide⟩).told = some ⟨0, event, some ⟨1, [6]⟩⟩ := by
  obtain ⟨s, told⟩ := rereadBuffer.chronicle
  have mediated : ∀ d ∈ rereadBuffer.deeds, d.step.mediated = true := by decide
  have split : rereadBuffer.deeds =
      rereadBuffer.deeds.take 2 ++ rereadFirst :: ((rereadBuffer.deeds.drop 3).take 5 ++ rereadDispatch ::
        rereadBuffer.deeds.drop 9) := by decide
  have again : rereadBuffer.deeds = rereadBuffer.deeds.take 10 ++ rereadSecond :: ([] ++ rereadStop :: []) := by
    decide
  have asked : rereadFirst.entry = some (.transfer boardPeer .read ⟨0, [1, 2, 3, 4, 5]⟩ 3) := by decide
  have reused : rereadSecond.entry =
      some (.transfer { boardPeer with address := 0xff } .read ⟨0, [7, 8, 0, 4, 5]⟩ 2) := by decide
  obtain ⟨rejected, settled, -⟩ := bytes_come_back told mediated
  refine ⟨s, told, mediated, split, asked, ?_, ?_, ?_⟩
  · obtain ⟨handler, event, back, -, callback, -, comesBack⟩ :=
      settled _ _ _ _ _ _ _ _ _ split asked (by decide) (by decide) (by decide)
    have response : (Rig.of (rereadBuffer.deeds.take 2)).response = [7, 8] := by decide
    have known : rereadDispatch.told.map (fun o => (o.handler, o.event)) = some (0, .error) := by decide
    rw [callback] at known
    cases known
    exact ⟨back, callback, response ▸ comesBack⟩
  · obtain ⟨handler, event, back, -, callback, -, comesBack⟩ :=
      settled _ _ _ _ _ _ _ _ _ again reused (by decide) (by decide) (by decide)
    have response : (Rig.of (rereadBuffer.deeds.take 10)).response = [] := by decide
    have known : rereadStop.told.map (fun o => (o.handler, o.event)) = some (0, .error) := by decide
    rw [callback] at known
    cases known
    exact ⟨back, callback, response ▸ comesBack⟩
  · exact rejected _ (List.get_mem ..) boardPeer 0 .write ⟨1, [6]⟩ 1 rfl (by decide) (by decide)

end PeripheralLayer.Bus
