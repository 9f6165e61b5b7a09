import PeripheralLayer.Proofs.Bus.Course
import PeripheralLayer.Proofs.Bus.Modes

/-!
Whole scenarios in the two dispatch modes. If every interrupt is followed at once by a dispatch, a deferred
bus does what a direct one does. Callbacks begin at different steps of the two courses, but they find the
same mediator, and so everything nested in them runs alike as well.
-/
namespace PeripheralLayer.Bus

open Session (takeReaction)

/-- Every step that interrupts is followed at once by a dispatch. -/
def followsUp : List Step → Bool
  | [] => true
  | step :: steps => (!step.interrupts || steps.head? = some .dispatch) && followsUp steps

def scriptsFollowUp (scripts : List (List Reaction)) : Bool := scripts.all fun script => script.all followsUp

def Scenario.followsUp (s : Scenario) : Bool := Bus.followsUp s.steps && scriptsFollowUp s.handlers

theorem followsUp_takeReaction {scripts : List (List Reaction)} (prompt : scriptsFollowUp scripts)
    (handler : HandlerId) :
    followsUp (takeReaction scripts handler).1 ∧ scriptsFollowUp (takeReaction scripts handler).2 := by
  unfold takeReaction
  split
  · rename_i reaction later found
    have inside := List.mem_of_getElem? found
    simp only [scriptsFollowUp, List.all_eq_true] at prompt ⊢
    refine ⟨prompt _ inside reaction (by simp), ?_⟩
    intro script mem
    rcases List.mem_or_eq_of_mem_set mem with old | rfl
    · exact prompt script old
    · exact fun other rest => prompt _ inside other (by simp [rest])
  · exact ⟨rfl, prompt⟩

structure Report.Twins (r r' : Report) : Prop where
  moment : r'.moment = r.moment.under .deferred
  settled : r'.settled = r.settled.under .deferred
  empty : r.settled.pending = none

/-- The reports of an interrupt and its dispatch, in the two modes, where deferred mode puts the callback off
until the dispatch. What the interrupt left there meanwhile is compared with nothing. -/
structure Report.PutOff (entry drain entry' drain' : Report) : Prop where
  interrupts : entry.moment.step.interrupts = true
  dispatches : drain.moment.step = .dispatch
  level : drain.moment.depth = entry.moment.depth
  quiet : drain.moment.completion = none
  entered : entry'.moment = { entry.moment with completion := none, after := entry'.moment.after }
  drained : drain'.moment =
    { drain.moment with
      reply := .flag true, completion := entry.moment.completion, after := entry.moment.after.under .deferred }
  settled : drain'.settled = drain.settled.under .deferred
  empty : drain.settled.pending = none
  nothing_inside : drain.reaction = [] ∧ entry'.reaction = []

inductive Alike : List Report → List Report → Prop where
  | nil : Alike [] []
  | same {r r' : Report} {later later' : List Report} (twins : r.Twins r')
      (inner : Alike r.reaction r'.reaction) (tail : Alike later later') : Alike (r :: later) (r' :: later')
  | putOff {entry drain entry' drain' : Report} {later later' : List Report}
      (moved : entry.PutOff drain entry' drain') (inner : Alike entry.reaction drain'.reaction)
      (tail : Alike later later') : Alike (entry :: drain :: later) (entry' :: drain' :: later')

theorem Course.settled_eq {depth : Nat} {c d : Client} {scripts left : List (List Reaction)}
    {steps : List Step} {reaction : List Report} (inner : Course depth c scripts steps reaction d left)
    {moment : Moment} (start : c.mediator = moment.after) :
    (Report.around moment reaction).settled = d.mediator := by
  rw [inner.mediator_eq, start]
  rfl

theorem followsUp_cons {step : Step} {steps : List Step} (steady : followsUp (step :: steps)) :
    followsUp steps ∧ (step.interrupts → ∃ rest, steps = .dispatch :: rest) := by
  simp only [followsUp, Bool.and_eq_true, Bool.or_eq_true, Bool.not_eq_true', decide_eq_true_eq] at steady
  obtain ⟨next, steady⟩ := steady
  refine ⟨steady, fun enters => ?_⟩
  rcases next with calm | next
  · rw [enters] at calm
    cases calm
  · exact List.head?_eq_some_iff.mp next

theorem Course.of_dispatch {depth : Nat} {c d : Client} {scripts left : List (List Reaction)} {rest : List Step}
    {reports : List Report} (course : Course depth c scripts (.dispatch :: rest) reports d left)
    (prompt : c.mediator.Prompt) :
    ∃ later, reports = .around (c.moment depth .dispatch) [] :: later ∧ Course depth c scripts rest later d left := by
  have idle := Client.dispatch_of_prompt prompt
  cases course with
  | called told => cases (congrArg Effect.completion idle).symm.trans told
  | quiet silent tail =>
    rw [idle] at tail
    exact ⟨_, rfl, tail⟩

theorem Course.of_put_off {depth : Nat} {c inside d : Client} {scripts between left : List (List Reaction)}
    {step : Step} {rest : List Step} {outcome : Completion} {reaction reaction' later later' : List Report}
    (prompt : c.mediator.Prompt) (enters : step.interrupts)
    (told : (c.perform step).completion = some outcome)
    (inner' : Course (depth + 1) (((c.perform step).client.holding outcome.buffer).under .deferred)
      (takeReaction scripts outcome.handler).2 (takeReaction scripts outcome.handler).1 reaction'
      (inside.under .deferred) between)
    (nested : Alike reaction reaction') (settled : inside.mediator.Prompt)
    (tail' : Course depth ((inside.holding (c.perform step).client.returned).under .deferred) between rest later'
      (d.under .deferred) left)
    (alike : Alike later later') :
    ∃ reports', Course depth (c.under .deferred) scripts (step :: .dispatch :: rest) reports'
        (d.under .deferred) left ∧
      Alike (.around (c.moment depth step) reaction ::
        .around ((inside.holding (c.perform step).client.returned).moment depth .dispatch) [] :: later)
        reports' := by
  have idle : (inside.holding (c.perform step).client.returned).perform .dispatch =
      ⟨inside.holding (c.perform step).client.returned, .flag false, none⟩ :=
    Client.dispatch_of_prompt settled
  rcases Client.perform_put_off prompt enters with ⟨silent, -⟩ | ⟨outcome', waiting, same, entered, freed⟩
  · cases silent.symm.trans told
  · cases same.symm.trans told
    refine ⟨_, .quiet (by rw [entered]) (.called (by rw [entered, freed])
      (by rw [entered, freed]; exact inner') (by rw [entered, freed]; exact tail')), ?_⟩
    refine .putOff ⟨enters, rfl, rfl, congrArg Effect.completion idle, ?_, ?_, ?_, ?_, rfl, rfl⟩ nested alike
    · simp only [Report.around, Report.moment, Client.moment, entered]
    · simp only [Report.around, Report.moment, Client.moment, entered, freed, told, idle]
      rfl
    · rw [inner'.settled_eq (by simp only [Client.moment, entered, freed]; rfl)]
      simp only [Report.around, Report.settled, Client.moment, idle]
      rfl
    · simp only [Report.around, Report.settled, Client.moment, idle]
      exact settled.pending

theorem Course.under_deferred {depth : Nat} {c d : Client} {scripts left : List (List Reaction)}
    {steps : List Step} {reports : List Report} (course : Course depth c scripts steps reports d left)
    (prompt : c.mediator.Prompt) (steady : followsUp steps) (scripted : scriptsFollowUp scripts) :
    ∃ reports', Course depth (c.under .deferred) scripts steps reports' (d.under .deferred) left ∧
      Alike reports reports' ∧ d.mediator.Prompt ∧ scriptsFollowUp left := by
  -- On the number of moments and not on the course: a callback that is put off takes two steps at once.
  induction h : (Report.told reports).length using Nat.strongRecOn
    generalizing depth c d scripts left steps reports with
  | ind n ih =>
    cases course with
    | done => exact ⟨[], .done _ _ _, .nil, prompt, scripted⟩
    | @quiet _ _ _ _ _ step steps later silent tail =>
      have performed := Client.perform_under_of_silent prompt silent
      have prompt' := Client.prompt_perform prompt step
      simp only [Report.told_around, List.length_cons, List.length_append] at h
      obtain ⟨later', tail', alike, rest⟩ := ih _ (by omega) tail prompt' (followsUp_cons steady).1 scripted rfl
      refine ⟨_, .quiet (by rw [performed]; exact silent) (by rw [performed]; exact tail'), ?_, rest⟩
      rw [Client.moment_under depth performed]
      exact .same ⟨rfl, rfl, prompt'.pending⟩ .nil alike
    | @called _ _ inside _ _ between _ step steps outcome reaction later told inner tail =>
      have prompt' := Client.prompt_perform prompt step
      obtain ⟨reactionSteady, scripted'⟩ := followsUp_takeReaction scripted outcome.handler
      obtain ⟨steady', next⟩ := followsUp_cons steady
      simp only [Report.told_around, List.length_cons, List.length_append] at h
      obtain ⟨reaction', inner', nested, settled, between'⟩ :=
        ih _ (by omega) inner prompt' reactionSteady scripted' rfl
      cases enters : step.interrupts with
      | false =>
        have performed := c.perform_under .deferred enters
        obtain ⟨later', tail', alike, rest⟩ := ih _ (by omega) tail settled steady' between' rfl
        refine ⟨_, .called (by rw [performed]; exact told) (by rw [performed]; exact inner')
          (by rw [performed]; exact tail'), ?_, rest⟩
        rw [Client.moment_under depth performed]
        refine .same ⟨rfl, ?_, ?_⟩ nested alike
        · rw [inner.settled_eq rfl, inner'.settled_eq rfl]
          rfl
        · rw [inner.settled_eq rfl]
          exact settled.pending
      | true =>
        obtain ⟨rest, rfl⟩ := next enters
        obtain ⟨later, rfl, onward⟩ := tail.of_dispatch settled
        simp only [Report.told_around, List.length_cons, List.length_append] at h
        obtain ⟨later', tail', alike, rest⟩ := ih _ (by omega) onward settled (followsUp_cons steady').1 between' rfl
        obtain ⟨reports', whole, same⟩ := Course.of_put_off prompt enters told inner' nested settled tail' alike
        exact ⟨reports', whole, same, rest⟩

/-! What can be seen of a scenario from outside. -/

structure Callback where
  depth : Nat
  outcome : Completion
  found : Mediator
  deriving DecidableEq, Repr

/-- A step that has returned, and the mediator it left, with all that ran inside it. -/
structure Settlement where
  depth : Nat
  step : Step
  left : Mediator
  deriving DecidableEq, Repr

def Callback.under (mode : DispatchMode) (e : Callback) : Callback := { e with found := e.found.under mode }

def Settlement.under (mode : DispatchMode) (e : Settlement) : Settlement := { e with left := e.left.under mode }

def Moment.callback (m : Moment) : Option Callback := m.completion.map (⟨m.depth, ·, m.after⟩)

def Moment.answer (m : Moment) : Option (Nat × Step × Reply) :=
  if m.step = .dispatch then none else some (m.depth, m.step, m.reply)

/-- An interrupt does not settle before the dispatch that follows it. -/
def Moment.settling (m : Moment) (settled : Mediator) : List Settlement :=
  if m.step.interrupts then [] else [⟨m.depth, m.step, settled⟩]

mutual

def Report.settlement : Report → List Settlement
  | .mk moment settled _ reaction => Report.settlements reaction ++ moment.settling settled

def Report.settlements : List Report → List Settlement
  | [] => []
  | r :: later => r.settlement ++ Report.settlements later

end

namespace Scenario

def callbacks (s : Scenario) : List Callback := s.moments.filterMap Moment.callback

def answers (s : Scenario) : List (Nat × Step × Reply) := s.moments.filterMap Moment.answer

def settlements (s : Scenario) : List Settlement := Report.settlements (Report.arrange s.moments)

def calls (s : Scenario) : List Call := (foundAfter { config := s.config } s.moments).block.heard

end Scenario

namespace Report

theorem told_nil : told [] = [] := rfl

theorem told_cons (r : Report) (later : List Report) :
    told (r :: later) = r.moment :: (told r.reaction ++ told later) := by
  cases r
  rfl

theorem settlements_nil : settlements [] = [] := rfl

theorem settlements_cons (r : Report) (later : List Report) :
    settlements (r :: later) = settlements r.reaction ++ r.moment.settling r.settled ++ settlements later := by
  cases r
  rfl

end Report

theorem Moment.callback_under (mode : DispatchMode) (m : Moment) :
    (m.under mode).callback = m.callback.map (Callback.under mode) := by
  simp only [Moment.callback, Moment.under, Option.map_map]
  rfl

section Alike

variable {entry drain entry' drain' : Report} {reports reports' : List Report}

theorem Report.PutOff.callbacks (moved : entry.PutOff drain entry' drain') :
    entry'.moment.callback = none ∧ drain.moment.callback = none ∧
      drain'.moment.callback = entry.moment.callback.map (Callback.under .deferred) := by
  refine ⟨?_, ?_, ?_⟩
  · rw [moved.entered]
    rfl
  · simp only [Moment.callback, moved.quiet, Option.map_none]
  · rw [moved.drained]
    simp only [Moment.callback, moved.level, Option.map_map]
    rfl

theorem Report.PutOff.answers (moved : entry.PutOff drain entry' drain') :
    entry'.moment.answer = entry.moment.answer ∧ drain.moment.answer = none ∧
      drain'.moment.answer = none := by
  refine ⟨?_, ?_, ?_⟩
  · rw [moved.entered]
    rfl
  · simp only [Moment.answer, moved.dispatches, if_true]
  · simp only [Moment.answer, moved.drained, moved.dispatches, if_true]

theorem Moment.left_of_settling {m : Moment} {settled : Mediator} {e : Settlement}
    (own : e ∈ m.settling settled) : e.left = settled := by
  unfold Moment.settling at own
  split at own
  · cases own
  · cases List.mem_singleton.mp own
    rfl

theorem Report.Twins.settlement {r r' : Report} (twins : r.Twins r') :
    r'.moment.settling r'.settled = (r.moment.settling r.settled).map (Settlement.under .deferred) := by
  simp only [twins.moment, twins.settled, Moment.settling, Moment.under]
  split <;> rfl

theorem Report.PutOff.settlements (moved : entry.PutOff drain entry' drain') :
    entry.moment.settling entry.settled = [] ∧ entry'.moment.settling entry'.settled = [] ∧
      drain'.moment.settling drain'.settled =
        (drain.moment.settling drain.settled).map (Settlement.under .deferred) := by
  have step : entry'.moment.step = entry.moment.step := by rw [moved.entered]
  refine ⟨?_, ?_, ?_⟩
  · simp only [Moment.settling, moved.interrupts, if_true]
  · simp only [Moment.settling, step, moved.interrupts, if_true]
  · simp only [Moment.settling, moved.drained, moved.settled]
    split <;> rfl

theorem Alike.callbacks_eq (alike : Alike reports reports') :
    (Report.told reports').filterMap Moment.callback =
      ((Report.told reports).filterMap Moment.callback).map (Callback.under .deferred) := by
  induction alike with
  | nil => rfl
  | same twins inner tail ihInner ihTail =>
    simp only [Report.told_cons, List.filterMap_cons, List.filterMap_append, twins.moment, Moment.callback_under,
      ihInner, ihTail]
    cases Moment.callback _ <;> simp
  | putOff moved inner tail ihInner ihTail =>
    obtain ⟨silent, done, same⟩ := moved.callbacks
    simp only [Report.told_cons, List.filterMap_cons, List.filterMap_append, moved.nothing_inside, Report.told_nil,
      silent, done, same, ihInner, ihTail]
    cases Moment.callback _ <;> simp

theorem Alike.answers_eq (alike : Alike reports reports') :
    (Report.told reports').filterMap Moment.answer = (Report.told reports).filterMap Moment.answer := by
  induction alike with
  | nil => rfl
  | same twins inner tail ihInner ihTail =>
    simp only [Report.told_cons, List.filterMap_cons, List.filterMap_append, twins.moment, ihInner, ihTail]
    rfl
  | putOff moved inner tail ihInner ihTail =>
    obtain ⟨same, done, done'⟩ := moved.answers
    simp only [Report.told_cons, List.filterMap_cons, List.filterMap_append, moved.nothing_inside, Report.told_nil,
      same, done, done', ihInner, ihTail, List.nil_append]

theorem Alike.settlements_eq (alike : Alike reports reports') :
    Report.settlements reports' = (Report.settlements reports).map (Settlement.under .deferred) := by
  induction alike with
  | nil => rfl
  | same twins inner tail ihInner ihTail =>
    simp only [Report.settlements_cons, twins.settlement, ihInner, ihTail, List.map_append]
  | putOff moved inner tail ihInner ihTail =>
    obtain ⟨unsettled, unsettled', same⟩ := moved.settlements
    simp only [Report.settlements_cons, Report.settlements_nil, moved.nothing_inside, unsettled, unsettled', same,
      ihInner, ihTail, List.map_append, List.append_nil, List.nil_append, List.append_assoc]

theorem Alike.settlements_empty (alike : Alike reports reports') :
    ∀ e ∈ Report.settlements reports, e.left.pending = none := by
  induction alike with
  | nil => simp [Report.settlements_nil]
  | same twins inner tail ihInner ihTail =>
    simp only [Report.settlements_cons, List.mem_append]
    rintro e ((inside | own) | after)
    · exact ihInner e inside
    · rw [Moment.left_of_settling own]
      exact twins.empty
    · exact ihTail e after
  | putOff moved inner tail ihInner ihTail =>
    simp only [Report.settlements_cons, Report.settlements_nil, moved.settlements, moved.nothing_inside,
      List.append_nil, List.nil_append, List.mem_append]
    rintro e (inside | own | after)
    · exact ihInner e inside
    · rw [Moment.left_of_settling own]
      exact moved.empty
    · exact ihTail e after

end Alike

/-- With a dispatch after every interrupt, a scenario comes to the same in both modes: the same callbacks,
which find the same mediator, the same calls into the block, the same answers, and the same mediator after
every step, in which nothing waits. -/
theorem deferred_scenario_matches_direct {s : Scenario} (steady : s.followsUp) :
    (s.under .deferred).callbacks = (s.under .direct).callbacks.map (Callback.under .deferred) ∧
      (s.under .deferred).calls = (s.under .direct).calls ∧
      (s.under .deferred).answers = (s.under .direct).answers ∧
      (s.under .deferred).settlements = (s.under .direct).settlements.map (Settlement.under .deferred) ∧
      ∀ e ∈ (s.under .direct).settlements, e.left.pending = none := by
  simp only [Scenario.followsUp, Bool.and_eq_true] at steady
  obtain ⟨reports, d, left, course, -⟩ := Course.total 0 (s.under .direct).client s.handlers s.steps
  obtain ⟨reports', course', alike, -⟩ := course.under_deferred (fresh_prompt rfl) steady.1 steady.2
  obtain ⟨moments, arranged⟩ := Scenario.reports_of_course course
  have deferred : Course 0 (s.under .deferred).client s.handlers s.steps reports' (d.under .deferred) left := course'
  obtain ⟨moments', arranged'⟩ := Scenario.reports_of_course deferred
  refine ⟨?_, ?_, ?_, ?_, ?_⟩
  · simp only [Scenario.callbacks, moments, moments']
    exact alike.callbacks_eq
  · have final : foundAfter { config := (s.under .direct).config } (Report.told reports) = d.mediator :=
      course.passage.eq_foundAfter.symm
    have final' : foundAfter { config := (s.under .deferred).config } (Report.told reports') =
        d.mediator.under .deferred :=
      deferred.passage.eq_foundAfter.symm
    simp only [Scenario.calls, moments, moments', final, final']
    rfl
  · simp only [Scenario.answers, moments, moments']
    exact alike.answers_eq
  · simp only [Scenario.settlements, arranged, arranged']
    exact alike.settlements_eq
  · simp only [Scenario.settlements, arranged]
    exact alike.settlements_empty

/-- An exchange inside callbacks: the handler of the first outcome reads, is interrupted and so told of the
second one while it still runs, and then takes the bus down. -/
def nestedExchange : Scenario where
  config := {}
  handlers :=
    [[[.transfer .read boardPeer .returned 2, .raise .readComplete, .dispatch], [.stop boardPeer]]]
  steps :=
    [.start boardPeer, .transfer .write boardPeer (.fresh [1, 2]) 2, .interrupt .writeComplete, .dispatch,
      .interrupt .writeComplete, .dispatch]

theorem nested_exchange_matches :
    nestedExchange.followsUp = true ∧ (nestedExchange.under .direct).callbacks.map Callback.depth = [0, 1] ∧
      (nestedExchange.under .deferred).callbacks =
        (nestedExchange.under .direct).callbacks.map (Callback.under .deferred) := by
  have steady : nestedExchange.followsUp = true := by decide
  exact ⟨steady, by decide, (deferred_scenario_matches_direct steady).1⟩

end PeripheralLayer.Bus
