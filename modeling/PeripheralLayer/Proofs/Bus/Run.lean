import PeripheralLayer.Bus.Session

/-!
Runs of a session. A run starts with a fresh mediator and may stop anywhere: between two steps of the
outermost code, inside a callback of any depth, or at a callback's very beginning. Scripts do not bind it,
since code may at any time replace all the steps that it and the handlers have still to make.

What happens to the mediator is the same whoever makes a step, so a run is also a passage: a chain of
moments, each of which finds the mediator that the one before it left behind.
-/
namespace PeripheralLayer.Bus

def Client.moment (c : Client) (depth : Nat) (step : Step) : Moment :=
  let effect := c.perform step
  ⟨depth, step, effect.reply, effect.completion, effect.client.mediator⟩

def Session.fresh (config : Config) (steps : List Step) (reactions : List (List Reaction)) : Session :=
  { client := { mediator := { config } }, steps, reactions }

/-- The moments of a run so far and the session it has come to. With `replan` a handler that decides by
what it sees is covered too: what it does next is the first step of the script it has now. -/
inductive Run (config : Config) : List Moment → Session → Prop where
  | fresh (steps : List Step) (reactions : List (List Reaction)) :
      Run config [] (.fresh config steps reactions)
  | advance {past : List Moment} {s t : Session} {moment : Option Moment}
      (before : Run config past s) (next : s.advance = some (t, moment)) :
      Run config (past ++ moment.toList) t
  | replan {past : List Moment} {s : Session} (steps : List Step) (reactions : List (List Reaction))
      (before : Run config past s) : Run config past { s with steps, reactions }

inductive Passage : Mediator → List Moment → Mediator → Prop where
  | nil (m : Mediator) : Passage m [] m
  | cons (c : Client) (depth : Nat) (step : Step) {later : List Moment} {m : Mediator}
      (tail : Passage (c.perform step).client.mediator later m) :
      Passage c.mediator (c.moment depth step :: later) m

theorem Passage.append {m k n : Mediator} {past later : List Moment} (first : Passage m past k)
    (second : Passage k later n) : Passage m (past ++ later) n := by
  induction first with
  | nil m => exact second
  | cons c depth step tail ih => exact .cons c depth step (ih second)

theorem Passage.split {m n : Mediator} {past later : List Moment} (passage : Passage m (past ++ later) n) :
    ∃ k, Passage m past k ∧ Passage k later n := by
  induction past generalizing m with
  | nil => exact ⟨m, .nil m, passage⟩
  | cons moment past ih =>
    cases passage with
    | cons c depth step tail =>
      obtain ⟨k, first, second⟩ := ih tail
      exact ⟨k, .cons c depth step first, second⟩

def foundAfter (m : Mediator) (past : List Moment) : Mediator := (past.getLast?.map Moment.after).getD m

theorem Passage.eq_foundAfter {m n : Mediator} {past : List Moment} (passage : Passage m past n) :
    n = foundAfter m past := by
  induction passage with
  | nil m => rfl
  | cons c depth step tail ih =>
    rw [ih]
    unfold foundAfter
    rw [List.getLast?_cons]
    cases List.getLast? _ <;> rfl

namespace Session

theorem mediator_deliver (s : Session) (completion : Option Completion) :
    (s.deliver completion).client.mediator = s.client.mediator := by
  cases completion <;> rfl

theorem advance_cons (client : Client) (step : Step) (steps : List Step) (outer : List Frame)
    (reactions : List (List Reaction)) :
    (Session.mk client (step :: steps) outer reactions).advance =
      some ((Session.mk (client.perform step).client steps outer reactions).deliver (client.perform step).completion,
        some (client.moment outer.length step)) :=
  rfl

theorem advance_cases {s t : Session} {moment : Option Moment} (h : s.advance = some (t, moment)) :
    (∃ step, moment = some (s.client.moment s.outer.length step) ∧
      t.client.mediator = (s.client.perform step).client.mediator) ∨
    (moment = none ∧ t.client.mediator = s.client.mediator) := by
  unfold advance at h
  split at h
  · rename_i step steps eq
    simp only [Option.some.injEq, Prod.mk.injEq] at h
    obtain ⟨rfl, rfl⟩ := h
    exact Or.inl ⟨step, rfl, mediator_deliver _ _⟩
  · split at h
    · exact absurd h (by simp)
    · simp only [Option.some.injEq, Prod.mk.injEq] at h
      obtain ⟨rfl, rfl⟩ := h
      exact Or.inr ⟨rfl, rfl⟩

theorem passage_of_advance {s t : Session} {moment : Option Moment} (h : s.advance = some (t, moment)) :
    Passage s.client.mediator moment.toList t.client.mediator := by
  rcases advance_cases h with ⟨step, rfl, left⟩ | ⟨rfl, same⟩
  · rw [left]
    exact .cons s.client s.outer.length step (.nil _)
  · rw [same]
    exact .nil _

theorem moments_eq_of_advance {s t : Session} {moment : Option Moment} (h : s.advance = some (t, moment)) :
    s.moments = moment.toList ++ t.moments := by
  have less := work_advance_lt h
  rw [← momentsWithin_eq_moments (show s.work ≤ t.work + 1 + s.work by omega), Nat.add_right_comm]
  simp only [momentsWithin, h]
  rw [momentsWithin_eq_moments (by omega)]

theorem moments_eq_nil_of_advance {s : Session} (h : s.advance = none) : s.moments = [] := by
  unfold moments
  cases s.work <;> simp [momentsWithin, h]

end Session

theorem Run.passage {config : Config} {past : List Moment} {s : Session} (run : Run config past s) :
    Passage { config } past s.client.mediator := by
  induction run with
  | fresh steps reactions => exact .nil _
  | advance before next ih => exact ih.append (Session.passage_of_advance next)
  | replan steps reactions before ih => exact ih

theorem Run.mediator_eq {config : Config} {past : List Moment} {s : Session} (run : Run config past s) :
    s.client.mediator = foundAfter { config } past :=
  run.passage.eq_foundAfter

theorem Run.complete {config : Config} {past : List Moment} {s : Session} (run : Run config past s) :
    ∃ t, Run config (past ++ s.moments) t ∧ t.advance = none := by
  induction h : s.work using Nat.strongRecOn generalizing past s with
  | ind k ih =>
    cases next : s.advance with
    | none =>
      refine ⟨s, ?_, next⟩
      simpa [Session.moments_eq_nil_of_advance next] using run
    | some pair =>
      obtain ⟨t, moment⟩ := pair
      have less := Session.work_advance_lt next
      obtain ⟨u, whole, ended⟩ := ih t.work (by omega) (run.advance next) rfl
      refine ⟨u, ?_, ended⟩
      rw [Session.moments_eq_of_advance next, ← List.append_assoc]
      exact whole

theorem Scenario.run (s : Scenario) : ∃ t, Run s.config s.moments t ∧ t.advance = none :=
  (Run.fresh s.steps s.handlers).complete

end PeripheralLayer.Bus
