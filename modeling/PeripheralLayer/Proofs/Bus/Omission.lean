import PeripheralLayer.Proofs.Bus.Run

/-!
Leaving out a step. A scenario and the same scenario without one of its steps go the same way until that step is
due, wherever it stands: among the steps of the scenario itself or in one reaction of one handler. At that point
the two sessions differ in nothing else, so what the step is worth can be told from there on.
-/
namespace PeripheralLayer.Bus

open Session (takeReaction)

inductive Cut (step : Step) : List Step → List Step → Prop
  | here (rest : List Step) : Cut step (step :: rest) rest
  | later (first : Step) {steps steps' : List Step} (cut : Cut step steps steps') :
      Cut step (first :: steps) (first :: steps')

inductive Changed {α : Type} (R : α → α → Prop) : List α → List α → Prop
  | here {a a' : α} (rest : List α) (change : R a a') : Changed R (a :: rest) (a' :: rest)
  | later (first : α) {l l' : List α} (changed : Changed R l l') : Changed R (first :: l) (first :: l')

theorem Changed.length_eq {α : Type} {R : α → α → Prop} {l l' : List α} (changed : Changed R l l') :
    l'.length = l.length := by
  induction changed with
  | here rest change => rfl
  | later first changed ih => exact congrArg (· + 1) ih

def Frame.Cut (step : Step) (f f' : Frame) : Prop := f'.returned = f.returned ∧ Bus.Cut step f.steps f'.steps

def Scenario.Omits (step : Step) (s s' : Scenario) : Prop :=
  s'.config = s.config ∧
    (Cut step s.steps s'.steps ∧ s'.handlers = s.handlers ∨
      s'.steps = s.steps ∧ Changed (Changed (Cut step)) s.handlers s'.handlers)

/-- The second session lacks one step that the first one has still to make. -/
inductive Session.Omits (step : Step) : Session → Session → Prop
  | own {client : Client} {steps steps' : List Step} {outer : List Frame} {reactions : List (List Reaction)}
      (cut : Cut step steps steps') : Omits step ⟨client, steps, outer, reactions⟩ ⟨client, steps', outer, reactions⟩
  | outer {client : Client} {steps : List Step} {outer outer' : List Frame} {reactions : List (List Reaction)}
      (changed : Changed (Frame.Cut step) outer outer') :
      Omits step ⟨client, steps, outer, reactions⟩ ⟨client, steps, outer', reactions⟩
  | inside {client : Client} {steps : List Step} {outer : List Frame} {reactions reactions' : List (List Reaction)}
      (changed : Changed (Changed (Cut step)) reactions reactions') :
      Omits step ⟨client, steps, outer, reactions⟩ ⟨client, steps, outer, reactions'⟩

theorem Scenario.Omits.session {step : Step} {s s' : Scenario} (omits : s.Omits step s') :
    s.session.Omits step s'.session := by
  obtain ⟨config, handlers, steps⟩ := s
  obtain ⟨config', handlers', steps'⟩ := s'
  obtain ⟨rfl, ⟨cut, rfl⟩ | ⟨rfl, changed⟩⟩ := omits
  · exact .own cut
  · exact .inside changed

theorem takeReaction_cons_succ (script : List Reaction) (scripts : List (List Reaction)) (handler : HandlerId) :
    takeReaction (script :: scripts) (handler + 1) =
      ((takeReaction scripts handler).1, script :: (takeReaction scripts handler).2) := by
  cases found : scripts[handler]? with
  | none => simp [takeReaction, found]
  | some left => cases left <;> simp [takeReaction, found]

theorem Changed.takeReaction {step : Step} {scripts scripts' : List (List Reaction)}
    (changed : Changed (Changed (Cut step)) scripts scripts') (handler : HandlerId) :
    (Cut step (takeReaction scripts handler).1 (takeReaction scripts' handler).1 ∧
        (takeReaction scripts' handler).2 = (takeReaction scripts handler).2) ∨
      ((takeReaction scripts' handler).1 = (takeReaction scripts handler).1 ∧
        Changed (Changed (Cut step)) (takeReaction scripts handler).2 (takeReaction scripts' handler).2) := by
  induction changed generalizing handler with
  | @here script script' rest change =>
    cases handler with
    | zero =>
      cases change with
      | here later cut => exact .inl ⟨cut, rfl⟩
      | later first change => exact .inr ⟨rfl, .here rest change⟩
    | succ handler =>
      rw [takeReaction_cons_succ, takeReaction_cons_succ]
      exact .inr ⟨rfl, .here _ change⟩
  | @later script scripts scripts' changed ih =>
    cases handler with
    | zero =>
      cases script with
      | nil => exact .inr ⟨rfl, .later _ changed⟩
      | cons reaction script => exact .inr ⟨rfl, .later _ changed⟩
    | succ handler =>
      simp only [takeReaction_cons_succ]
      rcases ih handler with ⟨cut, same⟩ | ⟨same, changed⟩
      · exact .inl ⟨cut, by rw [same]⟩
      · exact .inr ⟨same, .later _ changed⟩

namespace Session

theorem Omits.deliver {step : Step} {s s' : Session} (omits : s.Omits step s') (completion : Option Completion) :
    (s.deliver completion).Omits step (s'.deliver completion) := by
  cases completion with
  | none => exact omits
  | some outcome =>
    cases omits with
    | own cut => exact .outer (.here _ ⟨rfl, cut⟩)
    | outer changed => exact .outer (.later _ changed)
    | inside changed =>
      simp only [Session.deliver]
      rcases changed.takeReaction outcome.handler with ⟨cut, same⟩ | ⟨same, changed⟩
      · rw [same]
        exact .own cut
      · rw [same]
        exact .inside changed

theorem Omits.advance {step : Step} {s s' : Session} (omits : s.Omits step s') :
    (∃ rest, s.steps = step :: rest ∧ s' = { s with steps := rest }) ∨
      (s.advance = none ∧ s'.advance = none) ∨
      ∃ t t' moment, s.advance = some (t, moment) ∧ s'.advance = some (t', moment) ∧ t.Omits step t' := by
  cases omits with
  | @own client steps steps' outer reactions cut =>
    cases cut with
    | here rest => exact .inl ⟨_, rfl, rfl⟩
    | later first cut =>
      exact .inr (.inr ⟨_, _, _, advance_cons _ _ _ _ _, advance_cons _ _ _ _ _, (Omits.own cut).deliver _⟩)
  | @outer client steps outer outer' reactions changed =>
    cases steps with
    | cons first steps =>
      have deep : outer'.length = outer.length := changed.length_eq
      have next := advance_cons client first steps outer' reactions
      rw [deep] at next
      exact .inr (.inr ⟨_, _, _, advance_cons _ _ _ _ _, next, (Omits.outer changed).deliver _⟩)
    | nil =>
      cases changed with
      | @here f f' rest cut =>
        have next : (Session.mk client [] (f' :: rest) reactions).advance =
            some (⟨{ client with returned := f.returned }, f'.steps, rest, reactions⟩, none) := by
          rw [← cut.1]
          rfl
        exact .inr (.inr ⟨_, _, _, rfl, next, .own cut.2⟩)
      | later f changed => exact .inr (.inr ⟨_, _, _, rfl, rfl, .outer changed⟩)
  | @inside client steps outer reactions reactions' changed =>
    cases steps with
    | cons first steps =>
      exact .inr (.inr ⟨_, _, _, advance_cons _ _ _ _ _, advance_cons _ _ _ _ _, (Omits.inside changed).deliver _⟩)
    | nil =>
      cases outer with
      | nil => exact .inr (.inl ⟨rfl, rfl⟩)
      | cons frame outer => exact .inr (.inr ⟨_, _, _, rfl, rfl, .inside changed⟩)

inductive Reaches : Session → List Moment → Session → Prop
  | refl (s : Session) : Reaches s [] s
  | advance {s t u : Session} {moment : Option Moment} {later : List Moment}
      (next : s.advance = some (t, moment)) (rest : Reaches t later u) : Reaches s (moment.toList ++ later) u

theorem Reaches.moments_eq {s t : Session} {past : List Moment} (reaches : s.Reaches past t) :
    s.moments = past ++ t.moments := by
  induction reaches with
  | refl s => rfl
  | advance next rest ih => rw [moments_eq_of_advance next, ih, List.append_assoc]

theorem Reaches.run {config : Config} {s t : Session} {before past : List Moment} (reaches : s.Reaches past t)
    (run : Run config before s) : Run config (before ++ past) t := by
  induction reaches generalizing before with
  | refl s => rwa [List.append_nil]
  | advance next rest ih =>
    rw [← List.append_assoc]
    exact ih (run.advance next)

/-- The two sessions go the same way, until the one makes a step that the other one lacks. -/
structure Parts (s s' : Session) (step : Step) (past : List Moment) (t : Session) (rest : List Step) : Prop where
  whole : s.Reaches past t
  due : t.steps = step :: rest
  short : s'.Reaches past { t with steps := rest }

theorem Omits.parts {step : Step} {s s' : Session} (omits : s.Omits step s') :
    s'.moments = s.moments ∨ ∃ past t rest, s.Parts s' step past t rest := by
  induction h : s.work using Nat.strongRecOn generalizing s s' with
  | ind k ih =>
    rcases omits.advance with ⟨rest, due, rfl⟩ | ⟨ended, ended'⟩ | ⟨t, t', moment, next, next', omits⟩
    · exact .inr ⟨[], s, rest, .refl s, due, .refl _⟩
    · exact .inl (by rw [moments_eq_nil_of_advance ended, moments_eq_nil_of_advance ended'])
    · have less := work_advance_lt next
      rcases ih t.work (by omega) omits rfl with same | ⟨past, u, rest, parts⟩
      · exact .inl (by rw [moments_eq_of_advance next, moments_eq_of_advance next', same])
      · exact .inr ⟨_, u, rest, .advance next parts.whole, parts.due, .advance next' parts.short⟩

end Session

end PeripheralLayer.Bus
