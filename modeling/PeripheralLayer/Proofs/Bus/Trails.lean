import PeripheralLayer.Proofs.Bus.Omission
import PeripheralLayer.Proofs.Bus.Rejection
import PeripheralLayer.Proofs.Bus.Returns

/-!
Requests that are turned away leave no trace. A scenario without such a request does the same as the scenario with
it, if the handler that is told does nothing: only the count of requests that found the bus busy lags behind, by one
if this was such a request.
-/
namespace PeripheralLayer.Bus

open Session (takeReaction)

/-! Scripts of handlers. -/

def scriptOf (scripts : List (List Reaction)) (handler : HandlerId) : List Reaction := (scripts[handler]?).getD []

theorem takeReaction_eq (scripts : List (List Reaction)) (handler : HandlerId) :
    (takeReaction scripts handler).1 = (scriptOf scripts handler).headD [] := by
  unfold takeReaction scriptOf
  cases scripts[handler]? with
  | none => rfl
  | some script => cases script <;> rfl

theorem scriptOf_takeReaction (scripts : List (List Reaction)) (handler other : HandlerId) :
    scriptOf (takeReaction scripts handler).2 other =
      if other = handler then (scriptOf scripts handler).tail else scriptOf scripts other := by
  cases found : scripts[handler]? with
  | none => by_cases same : other = handler <;> simp [takeReaction, scriptOf, found, same]
  | some script =>
    cases script with
    | nil => by_cases same : other = handler <;> simp [takeReaction, scriptOf, found, same]
    | cons reaction later =>
      obtain ⟨inside, -⟩ := List.getElem?_eq_some_iff.mp found
      by_cases same : other = handler
      · subst same
        simp [takeReaction, scriptOf, found, List.getElem?_set_self inside]
      · simp [takeReaction, scriptOf, found, same, List.getElem?_set_ne (Ne.symm same)]

def Idle (script : List Reaction) : Prop := ∀ reaction ∈ script, reaction = []

theorem Idle.headD {script : List Reaction} (idle : Idle script) : script.headD [] = [] := by
  cases script with
  | nil => rfl
  | cons reaction later => exact idle reaction (by simp)

theorem Idle.tail {script : List Reaction} (idle : Idle script) : Idle script.tail :=
  fun reaction mem => idle reaction (List.mem_of_mem_tail mem)

/-- The handlers have the same to do, and those that never do anything may be called more or less often. -/
def Interchangeable (scripts scripts' : List (List Reaction)) : Prop :=
  ∀ handler, scriptOf scripts' handler = scriptOf scripts handler ∨
    Idle (scriptOf scripts handler) ∧ Idle (scriptOf scripts' handler)

theorem Interchangeable.takeReaction {scripts scripts' : List (List Reaction)}
    (alike : Interchangeable scripts scripts') (handler : HandlerId) :
    (takeReaction scripts' handler).1 = (takeReaction scripts handler).1 ∧
      Interchangeable (takeReaction scripts handler).2 (takeReaction scripts' handler).2 := by
  constructor
  · rw [takeReaction_eq, takeReaction_eq]
    rcases alike handler with same | ⟨idle, idle'⟩
    · rw [same]
    · rw [idle.headD, idle'.headD]
  · intro other
    rw [scriptOf_takeReaction, scriptOf_takeReaction]
    split
    · rcases alike handler with same | ⟨idle, idle'⟩
      · exact .inl (by rw [same])
      · exact .inr ⟨idle.tail, idle'.tail⟩
    · exact alike other

theorem interchangeable_takeReaction {scripts : List (List Reaction)} {handler : HandlerId}
    (idle : Idle (scriptOf scripts handler)) : Interchangeable (takeReaction scripts handler).2 scripts := by
  intro other
  rw [scriptOf_takeReaction]
  split
  · rename_i same
    rw [same]
    exact .inr ⟨idle.tail, idle⟩
  · exact .inl rfl

def Request.Passive (r : Request) (scripts : List (List Reaction)) : Prop :=
  ∀ handler, r.peer.handler = some handler → Idle (scriptOf scripts handler)

/-! Sessions that go the same way, one of them lagging behind in the count. -/

def Frame.plain (f : Frame) : Frame := { f with returned := f.returned.map Buffer.plain }

/-- The second session has the same ahead of it as the first one, and looks the same but for a count that is behind
by `n`. -/
structure Session.Trails (n : UInt32) (s s' : Session) : Prop where
  client : s'.client.lagging 0 = s.client.lagging n
  steps : s'.steps = s.steps
  outer : s'.outer.map Frame.plain = s.outer.map Frame.plain
  reactions : Interchangeable s.reactions s'.reactions

namespace Session

variable {n : UInt32} {s s' t : Session}

theorem Trails.deliver (trails : s.Trails n s') {told told' : Option Completion}
    (same : told'.map Completion.plain = told.map Completion.plain) :
    (s.deliver told).Trails n (s'.deliver told') := by
  have returned : s'.client.returned.map Buffer.plain = s.client.returned.map Buffer.plain :=
    congrArg Client.returned trails.client
  cases told with
  | none =>
    obtain rfl := Option.map_eq_none_iff.mp same
    exact trails
  | some outcome =>
    obtain ⟨outcome', rfl, plain⟩ := Option.map_eq_some_iff.mp same
    have handler : outcome'.handler = outcome.handler := by
      have kept := congrArg Completion.handler plain
      exact kept
    have buffer : outcome'.buffer.map Buffer.plain = outcome.buffer.map Buffer.plain :=
      congrArg Completion.buffer plain
    obtain ⟨reaction, reactions⟩ := trails.reactions.takeReaction outcome.handler
    constructor
    case client =>
      calc ({ s'.client with returned := outcome'.buffer } : Client).lagging 0
        _ = { s'.client.lagging 0 with returned := outcome'.buffer.map Buffer.plain } := rfl
        _ = { s.client.lagging n with returned := outcome.buffer.map Buffer.plain } := by rw [trails.client, buffer]
    case steps => simpa [Session.deliver, handler] using reaction
    case outer => simp [Session.deliver, Frame.plain, returned, trails.steps, trails.outer]
    case reactions => simpa [Session.deliver, handler] using reactions

theorem Trails.advance (trails : s.Trails n s') :
    (s.advance = none ∧ s'.advance = none) ∨
      ∃ t t' moment moment', s.advance = some (t, moment) ∧ s'.advance = some (t', moment') ∧
        moment'.map (Moment.lagging 0) = moment.map (Moment.lagging n) ∧ t.Trails n t' := by
  obtain ⟨c, steps, outer, reactions⟩ := s
  obtain ⟨c', steps', outer', reactions'⟩ := s'
  obtain ⟨client, rfl, frames, handlers⟩ := trails
  cases steps' with
  | cons step steps =>
    have alike := Client.perform_alike n client step
    have told := congrArg Effect.completion alike
    have deep : outer'.length = outer.length := by simpa using congrArg List.length frames
    have moments := Client.moment_alike n client outer.length step
    have onward : (Session.mk (c.perform step).client steps outer reactions).Trails n
        ⟨(c'.perform step).client, steps, outer', reactions'⟩ :=
      ⟨congrArg Effect.client alike, rfl, frames, handlers⟩
    refine .inr ⟨_, _, _, _, advance_cons _ _ _ _ _, advance_cons _ _ _ _ _, ?_, onward.deliver told⟩
    rw [deep]
    exact congrArg some moments
  | nil =>
    cases outer with
    | nil =>
      obtain rfl := List.map_eq_nil_iff.mp frames
      exact .inl ⟨rfl, rfl⟩
    | cons frame outer =>
      obtain ⟨frame', outer', rfl, plain, below⟩ := List.map_eq_cons_iff.mp frames
      refine .inr ⟨_, _, _, _, rfl, rfl, rfl, ?_, ?_, below, handlers⟩
      · have returned : frame'.returned.map Buffer.plain = frame.returned.map Buffer.plain :=
          congrArg Frame.returned plain
        calc ({ c' with returned := frame'.returned } : Client).lagging 0
          _ = { c'.lagging 0 with returned := frame'.returned.map Buffer.plain } := rfl
          _ = { c.lagging n with returned := frame.returned.map Buffer.plain } := by rw [client, returned]
      · have steps := congrArg Frame.steps plain
        exact steps

theorem Trails.moments (trails : s.Trails n s') :
    s'.moments.map (Moment.lagging 0) = s.moments.map (Moment.lagging n) := by
  induction h : s.work using Nat.strongRecOn generalizing s s' with
  | ind k ih =>
    rcases trails.advance with ⟨ended, ended'⟩ | ⟨t, t', moment, moment', next, next', same, trails⟩
    · rw [moments_eq_nil_of_advance ended, moments_eq_nil_of_advance ended']
      rfl
    · have less := work_advance_lt next
      have later := ih t.work (by omega) trails rfl
      rw [moments_eq_of_advance next, moments_eq_of_advance next', List.map_append, List.map_append, later]
      cases moment with
      | none =>
        obtain rfl := Option.map_eq_none_iff.mp same
        rfl
      | some moment =>
        obtain ⟨moment', rfl, alike⟩ := Option.map_eq_some_iff.mp same
        simp [alike]

theorem head_depth_le (s : Session) : ∀ e ∈ s.moments.head?, e.depth ≤ s.outer.length := by
  obtain ⟨client, steps, outer, reactions⟩ := s
  induction outer generalizing client steps with
  | nil =>
    cases steps with
    | nil =>
      have ended : (Session.mk client [] [] reactions).advance = none := rfl
      simp [moments_eq_nil_of_advance ended]
    | cons step steps => simp [moments_eq_of_advance (advance_cons client step steps [] reactions), Client.moment]
  | cons frame outer ih =>
    cases steps with
    | cons step steps =>
      simp [moments_eq_of_advance (advance_cons client step steps (frame :: outer) reactions), Client.moment]
    | nil =>
      have back : (Session.mk client [] (frame :: outer) reactions).advance =
          some (⟨{ client with returned := frame.returned }, frame.steps, outer, reactions⟩, none) := rfl
      rw [moments_eq_of_advance back]
      intro e mem
      exact Nat.le_succ_of_le (ih _ _ e mem)

theorem idle_advance {moment : Option Moment} (next : s.advance = some (t, moment)) {handler : HandlerId}
    (idle : Idle (scriptOf s.reactions handler)) : Idle (scriptOf t.reactions handler) := by
  obtain ⟨client, steps, outer, reactions⟩ := s
  cases steps with
  | cons step steps =>
    rw [advance_cons] at next
    cases next
    cases (client.perform step).completion with
    | none => exact idle
    | some outcome =>
      simp only [Session.deliver, scriptOf_takeReaction]
      split
      · rename_i same
        exact same ▸ idle.tail
      · exact idle
  | nil =>
    cases outer with
    | nil => cases next
    | cons frame outer =>
      cases next
      exact idle

theorem Reaches.idle {past : List Moment} (reaches : s.Reaches past t) {handler : HandlerId}
    (idle : Idle (scriptOf s.reactions handler)) : Idle (scriptOf t.reactions handler) := by
  induction reaches with
  | refl s => exact idle
  | advance next rest ih => exact ih (idle_advance next idle)

theorem trails_of_turnedAway {r : Request} {rest : List Step} (due : t.steps = r.step :: rest)
    (turned : r.TurnedAway t.client.mediator) (passive : r.Passive t.reactions) :
    ∃ u : Session, t.moments = t.client.moment t.outer.length r.step :: u.moments ∧ u.outer = t.outer ∧
      u.Trails (r.crowding t.client.mediator) { t with steps := rest } := by
  obtain ⟨c, steps, outer, reactions⟩ := t
  obtain rfl : steps = r.step :: rest := due
  have next := advance_cons c r.step rest outer reactions
  have lag := Client.lagging_of_turnedAway turned
  have told := Client.completion_of_turnedAway turned
  rw [told] at next
  cases due : r.told c.mediator c.nextTag with
  | none =>
    rw [due] at next
    exact ⟨⟨(c.perform r.step).client, rest, outer, reactions⟩, moments_eq_of_advance next, rfl,
      ⟨lag.symm, rfl, rfl, fun _ => .inl rfl⟩⟩
  | some outcome =>
    rw [due] at next
    -- The callback begins with nothing to do, so it is over with the next advance and leaves no moment.
    have idle : Idle (scriptOf reactions outcome.handler) := passive _ (Request.handler_of_told due)
    have silent : (takeReaction reactions outcome.handler).1 = [] := by rw [takeReaction_eq, idle.headD]
    have back : (Session.deliver ⟨(c.perform r.step).client, rest, outer, reactions⟩ (some outcome)).advance =
        some (⟨(c.perform r.step).client, rest, outer, (takeReaction reactions outcome.handler).2⟩, none) := by
      simp [Session.deliver, Session.advance, silent]
    refine ⟨⟨(c.perform r.step).client, rest, outer, (takeReaction reactions outcome.handler).2⟩, ?_, rfl,
      ⟨lag.symm, rfl, rfl, interchangeable_takeReaction idle⟩⟩
    rw [moments_eq_of_advance next, moments_eq_of_advance back]
    rfl

end Session

theorem foundAfter_lagging (n : UInt32) (m : Mediator) (past : List Moment) :
    (foundAfter m past).lagging n = foundAfter (m.lagging n) (past.map (Moment.lagging n)) := by
  induction past generalizing m with
  | nil => rfl
  | cons moment past ih =>
    rw [List.map_cons, foundAfter_cons, foundAfter_cons, ih]
    rfl

theorem takeWhile_lagging (n : UInt32) (depth : Nat) (moments : List Moment) :
    (moments.takeWhile fun e => decide (depth < e.depth)).map (Moment.lagging n) =
      (moments.map (Moment.lagging n)).takeWhile fun e => decide (depth < e.depth) := by
  rw [List.takeWhile_map]
  rfl

section Found

variable {n : UInt32} {m m' : Mediator} {later later' : List Moment}

theorem foundAfter_alike (found : m'.lagging 0 = m.lagging n)
    (same : later'.map (Moment.lagging 0) = later.map (Moment.lagging n)) :
    (foundAfter m' later').lagging 0 = (foundAfter m later).lagging n := by
  rw [foundAfter_lagging, foundAfter_lagging, found, same]

theorem foundAfter_inside_alike (found : m'.lagging 0 = m.lagging n)
    (same : later'.map (Moment.lagging 0) = later.map (Moment.lagging n)) (depth : Nat) :
    (foundAfter m' (later'.takeWhile fun e => decide (depth < e.depth))).lagging 0 =
      (foundAfter m (later.takeWhile fun e => decide (depth < e.depth))).lagging n := by
  refine foundAfter_alike found ?_
  rw [takeWhile_lagging, takeWhile_lagging, same]

end Found

/-- What comes of a request that is turned away, and what comes of leaving it out. `call` is the moment of the
request, which found the client `c`; `past` is what happened before it, `later` what happened after it, and `later'`
what happens after `past` without it. -/
structure Request.Untraced (r : Request) (c : Client) (past : List Moment) (call : Moment)
    (later later' : List Moment) : Prop where
  reply : call.reply = .status (r.rejection c.mediator)
  /-- The handler is told once, unless something is lacking, and the buffer comes back as it was lent. -/
  told : call.completion = r.told c.mediator c.nextTag
  /-- Not a call reaches the block. -/
  block : call.after.block = c.mediator.block
  /-- Nothing runs inside the request. -/
  alone : ∀ e ∈ later.head?, e.depth ≤ call.depth
  /-- Every later step answers the same, tells the same handlers the same, with the same bytes, and leaves the same. -/
  same : later'.map (Moment.lagging 0) = later.map (Moment.lagging (r.crowding c.mediator))
  /-- Steps that returned before the request did so with the same mediator. -/
  before : ∀ earlier e between, past = earlier ++ e :: between →
    (∃ outer ∈ between ++ [call], outer.depth ≤ e.depth) →
      e.returned (between ++ later') = e.returned (between ++ call :: later)
  /-- Steps that the request was made inside of. -/
  around : ∀ earlier e between, past = earlier ++ e :: between →
    (∀ inner ∈ between ++ [call], e.depth < inner.depth) →
      (e.returned (between ++ later')).lagging 0 =
        (e.returned (between ++ call :: later)).lagging (r.crowding c.mediator)
  /-- Steps that are made after the request. -/
  after : ∀ between e rest between' e' rest', later = between ++ e :: rest → later' = between' ++ e' :: rest' →
    between'.length = between.length →
      (e'.returned rest').lagging 0 = (e.returned rest).lagging (r.crowding c.mediator)

theorem Request.untraced {r : Request} {c : Client} {depth : Nat} {past later later' : List Moment}
    (turned : r.TurnedAway c.mediator)
    (found : ∀ earlier e between, past = earlier ++ e :: between → foundAfter e.after between = c.mediator)
    (alone : ∀ e ∈ later.head?, e.depth ≤ depth) (alone' : ∀ e ∈ later'.head?, e.depth ≤ depth)
    (same : later'.map (Moment.lagging 0) = later.map (Moment.lagging (r.crowding c.mediator))) :
    r.Untraced c past (c.moment depth r.step) later later' where
  reply := Client.reply_of_turnedAway turned
  told := Client.completion_of_turnedAway turned
  block := Client.block_of_turnedAway turned
  alone := alone
  same := same
  before := by
    rintro earlier e between - ⟨outer, mem, outside⟩
    -- Either the step was over before the request, or the request itself is the first thing outside of it.
    by_cases passed : ∃ e' ∈ between, e'.depth ≤ e.depth
    · rw [Moment.returned_append_of_passed passed, Moment.returned_append_of_passed passed]
    · have inside : ∀ e' ∈ between, e.depth < e'.depth := by simpa using passed
      have last : depth ≤ e.depth := by
        rcases List.mem_append.mp mem with mem | mem
        · exact absurd ⟨outer, mem, outside⟩ passed
        · cases List.mem_singleton.mp mem
          exact outside
      have first : ∀ e' ∈ (c.moment depth r.step :: later).head?, e'.depth ≤ e.depth := by
        intro e' head
        cases head
        exact last
      rw [Moment.returned_append_of_inside inside, Moment.returned_append_of_inside inside,
        takeWhile_deeper_eq_nil fun e' head => (alone' e' head).trans last, takeWhile_deeper_eq_nil first]
  around := by
    intro earlier e between split inside
    have deeper : ∀ e' ∈ between, e.depth < e'.depth := fun e' mem => inside e' (List.mem_append_left _ mem)
    have deep : e.depth < (c.moment depth r.step).depth := inside _ (by simp)
    rw [Moment.returned_append_of_inside deeper, Moment.returned_append_of_inside deeper, found _ _ _ split,
      List.takeWhile_cons, if_pos (decide_eq_true deep), foundAfter_cons]
    exact foundAfter_inside_alike (Client.found_of_turnedAway turned) same e.depth
  after := by
    rintro between e rest between' e' rest' rfl rfl level
    rw [List.map_append, List.map_append] at same
    obtain ⟨-, rest⟩ := List.append_inj same (by simpa using level)
    obtain ⟨alike, rest⟩ := List.cons.inj rest
    have depth : e'.depth = e.depth := by
      have kept := congrArg Moment.depth alike
      exact kept
    unfold Moment.returned
    rw [depth]
    exact foundAfter_inside_alike (congrArg Moment.after alike) rest e.depth

/-- Without a request that is turned away, a scenario does the same, but for the count of requests that found the
bus busy. -/
theorem turned_away_request_leaves_no_trace {s s' : Scenario} {r : Request} (omits : s.Omits r.step s')
    (passive : r.Passive s.handlers) :
    (s'.moments = s.moments ∨ ∃ past t rest, s.session.Parts s'.session r.step past t rest) ∧
      ∀ past t rest, s.session.Parts s'.session r.step past t rest → r.TurnedAway t.client.mediator →
        ∃ later later', s.moments = past ++ t.client.moment t.outer.length r.step :: later ∧
          s'.moments = past ++ later' ∧ s'.calls = s.calls ∧
          r.Untraced t.client past (t.client.moment t.outer.length r.step) later later' := by
  refine ⟨omits.session.parts, ?_⟩
  intro past t rest parts turned
  have idle : r.Passive t.reactions := fun handler listening => parts.whole.idle (passive handler listening)
  obtain ⟨u, made, back, trails⟩ := Session.trails_of_turnedAway parts.due turned idle
  have same := trails.moments
  have found : t.client.mediator = foundAfter { config := s.config } past :=
    (parts.whole.run (.fresh s.steps s.handlers)).mediator_eq
  have whole : s.moments = past ++ t.client.moment t.outer.length r.step :: u.moments := by
    rw [← made]
    exact parts.whole.moments_eq
  have short : s'.moments = past ++ ({ t with steps := rest } : Session).moments := parts.short.moments_eq
  refine ⟨u.moments, _, whole, short, ?_, Request.untraced turned ?_ ?_ ?_ same⟩
  · have alike := foundAfter_alike (Client.found_of_turnedAway turned) same
    have heard := congrArg (fun m : Mediator => m.block.heard) alike
    rw [Scenario.calls, Scenario.calls, whole, short, omits.1, foundAfter_append, foundAfter_append, foundAfter_cons,
      ← found]
    exact heard
  · rintro earlier e between rfl
    rw [found, foundAfter_append, foundAfter_cons]
  · rw [← back]
    exact u.head_depth_le
  · exact Session.head_depth_le { t with steps := rest }

def bystander : Request := .transfer .write ⟨some Board.busPins, 0x31, some 1⟩ [7] 1

/-- A handler reads once its write is over, which leaves the bus busy for whatever else it asks for. -/
def crowdedExchange (extra : List Step) : Scenario where
  config := { dispatch := .deferred }
  handlers := [[.transfer .read boardPeer .returned 2 :: extra], []]
  steps :=
    [.start boardPeer, .transfer .write boardPeer (.fresh [1, 2]) 2, .raise .writeComplete, .dispatch,
      .raise .readComplete, .dispatch]

theorem bystander_leaves_no_trace :
    (crowdedExchange [bystander.step]).Omits bystander.step (crowdedExchange []) ∧
      bystander.Passive (crowdedExchange [bystander.step]).handlers ∧
      ∃ past call later later', (crowdedExchange [bystander.step]).moments = past ++ call :: later ∧
        (crowdedExchange []).moments = past ++ later' ∧ call.reply = .status .busy ∧
        call.completion = some ⟨1, .busy, some ⟨1, [7]⟩⟩ ∧
        (crowdedExchange []).calls = (crowdedExchange [bystander.step]).calls ∧
        later'.map (Moment.lagging 0) = later.map (Moment.lagging 1) := by
  have omits : (crowdedExchange [bystander.step]).Omits bystander.step (crowdedExchange []) :=
    ⟨rfl, .inr ⟨rfl, .here _ (.here _ (.later _ (.here [])))⟩⟩
  have passive : bystander.Passive (crowdedExchange [bystander.step]).handlers := by
    intro handler listening
    cases listening
    exact fun _ mem => absurd mem List.not_mem_nil
  obtain ⟨later, later', whole, short, calls, untraced⟩ :=
    (turned_away_request_leaves_no_trace omits passive).2 _ _ _
      ⟨.advance rfl (.advance rfl (.advance rfl (.advance rfl (.advance rfl (.refl _))))), rfl,
        .advance rfl (.advance rfl (.advance rfl (.advance rfl (.advance rfl (.refl _)))))⟩
      (.inr (.inr (.inl rfl)))
  exact ⟨omits, passive, _, _, later, later', whole, short, untraced.reply, untraced.told, calls, untraced.same⟩

end PeripheralLayer.Bus
