import PeripheralLayer.Proofs.Bus.Chronicle

/-!
Programs in other words. Where a step and another do the same to every client, as long as the mediator has one
configuration, the one may stand for the other in the code, in all that waits for a callback to return, in the
handlers' scripts and in the record of what has happened: every session goes on as it did.
-/
namespace PeripheralLayer.Bus

def Frame.reworded (f : Step → Step) (frame : Frame) : Frame := { frame with steps := frame.steps.map f }

def Moment.reworded (f : Step → Step) (moment : Moment) : Moment := { moment with step := f moment.step }

def Deed.reworded (f : Step → Step) (d : Deed) : Deed := { d with step := f d.step }

def rewordedScripts (f : Step → Step) (scripts : List (List Reaction)) : List (List Reaction) :=
  scripts.map fun script => script.map fun reaction => reaction.map f

def Session.reworded (f : Step → Step) (s : Session) : Session :=
  { s with
    steps := s.steps.map f
    outer := s.outer.map (Frame.reworded f)
    reactions := rewordedScripts f s.reactions }

/-- No client of a mediator with this configuration can tell a step from its rewording. -/
def Faithful (config : Config) (f : Step → Step) : Prop :=
  ∀ c : Client, c.mediator.config = config → ∀ step, c.perform (f step) = c.perform step

theorem Faithful.perform_of_same {config : Config} {f : Step → Step} (faithful : Faithful config f) {c : Client}
    (here : c.mediator.config = config) {step step' : Step} (same : f step' = f step) :
    c.perform step' = c.perform step := by
  rw [← faithful c here step', same, faithful c here step]

theorem Run.config {config : Config} {past : List Moment} {s : Session} (run : Run config past s) :
    s.client.mediator.config = config := by
  obtain ⟨p, same, turns⟩ := run.passage.turns (fresh_down config)
  exact same

namespace Session

variable {config : Config} {f : Step → Step}

theorem config_advance {s t : Session} {moment : Option Moment} (next : s.advance = some (t, moment)) :
    t.client.mediator.config = s.client.mediator.config := by
  rcases advance_cases next with ⟨step, -, left⟩ | ⟨-, same⟩
  · rw [left, Client.config_perform]
  · rw [same]

theorem takeReaction_reworded (f : Step → Step) (scripts : List (List Reaction)) (handler : HandlerId) :
    takeReaction (rewordedScripts f scripts) handler =
      ((takeReaction scripts handler).1.map f, rewordedScripts f (takeReaction scripts handler).2) := by
  cases found : scripts[handler]? with
  | none => simp [takeReaction, rewordedScripts, found]
  | some script =>
    cases script with
    | nil => simp [takeReaction, rewordedScripts, found]
    | cons reaction later => simp [takeReaction, rewordedScripts, found, List.map_set]

theorem deliver_reworded (f : Step → Step) (s : Session) (told : Option Completion) :
    (s.reworded f).deliver told = (s.deliver told).reworded f := by
  cases told with
  | none => rfl
  | some outcome =>
    have taken := takeReaction_reworded f s.reactions outcome.handler
    simp only [deliver, reworded, taken, List.map_cons, Frame.reworded]

theorem advance_reworded (faithful : Faithful config f) {s : Session} (here : s.client.mediator.config = config) :
    (s.reworded f).advance = s.advance.map fun (t, moment) => (t.reworded f, moment.map (Moment.reworded f)) := by
  obtain ⟨client, steps, outer, reactions⟩ := s
  cases steps with
  | cons step steps =>
    have delivered := deliver_reworded f ⟨(client.perform step).client, steps, outer, reactions⟩
      (client.perform step).completion
    have same := faithful client here step
    simp only [reworded, List.map_cons, advance_cons, Client.moment, same, List.length_map] at delivered ⊢
    rw [delivered]
    rfl
  | nil => cases outer <;> rfl

theorem momentsWithin_reworded (faithful : Faithful config f) (fuel : Nat) {s : Session}
    (here : s.client.mediator.config = config) :
    momentsWithin fuel (s.reworded f) = (momentsWithin fuel s).map (Moment.reworded f) := by
  induction fuel generalizing s with
  | zero => rfl
  | succ fuel ih =>
    have reworded := advance_reworded faithful here
    cases next : s.advance with
    | none =>
      rw [next] at reworded
      simp [momentsWithin, reworded, next]
    | some pair =>
      obtain ⟨t, moment⟩ := pair
      rw [next] at reworded
      have later := ih ((config_advance next).trans here)
      simp only [momentsWithin, reworded, next, Option.map_some, later, List.map_append]
      cases moment <;> rfl

theorem moments_reworded (faithful : Faithful config f) {s : Session} (here : s.client.mediator.config = config) :
    (s.reworded f).moments = s.moments.map (Moment.reworded f) := by
  have within := momentsWithin_reworded faithful ((s.reworded f).work + s.work) here
  rwa [momentsWithin_eq_moments (Nat.le_add_right ..), momentsWithin_eq_moments (Nat.le_add_left ..)] at within

theorem moments_of_same (faithful : Faithful config f) {s s' : Session} (here : s.client.mediator.config = config)
    (same : s'.reworded f = s.reworded f) :
    s'.moments.map (Moment.reworded f) = s.moments.map (Moment.reworded f) := by
  have client : s'.client = s.client := congrArg (·.client) same
  rw [← moments_reworded faithful here, ← same, moments_reworded faithful (client ▸ here)]

end Session

theorem Chronicle.exchange {config : Config} {f : Step → Step} (faithful : Faithful config f) {past past' : List Deed}
    {s : Session} (told : Chronicle config past s) (same : past'.map (Deed.reworded f) = past.map (Deed.reworded f)) :
    Chronicle config past' s := by
  induction told generalizing past' with
  | fresh steps reactions =>
    obtain rfl := List.map_eq_nil_iff.mp same
    exact .fresh steps reactions
  | @advance past s t moment before next ih =>
    obtain ⟨client, steps, outer, reactions⟩ := s
    cases steps with
    | nil =>
      simp only [Session.deed, List.head?_nil, Option.map_none, Option.toList_none, List.append_nil] at same
      have made := (ih same).advance next
      simpa only [Session.deed, List.head?_nil, Option.map_none, Option.toList_none, List.append_nil] using made
    | cons step rest =>
      rw [List.map_append] at same
      obtain ⟨earlier, last, rfl, akin, one⟩ := List.map_eq_append_iff.mp same
      obtain ⟨d, rfl, reworded⟩ := List.map_eq_singleton_iff.mp one
      obtain ⟨client', depth, step'⟩ := d
      simp only [Deed.reworded, Deed.mk.injEq] at reworded
      obtain ⟨rfl, rfl, reworded⟩ := reworded
      -- code that is about to make the exchanged step goes on to the same session
      have replanned := (ih akin).replan (step' :: rest) reactions
      have effect := faithful.perform_of_same before.run.config reworded
      rw [Session.advance_cons] at next
      cases next
      have made := replanned.advance (Session.advance_cons client' step' rest outer reactions)
      rw [effect] at made
      exact made
  | replan steps reactions before ih => exact (ih same).replan steps reactions

end PeripheralLayer.Bus
