import PeripheralLayer.Bus.Report
import PeripheralLayer.Proofs.Bus.Run

/-!
The course of a script in one piece. A session advances by single steps and keeps the code that waits on a
stack; a course says at once what becomes of a list of steps, with the whole course of a reaction inside
the step that called for it. It is the same story: every script has a course, its moments are those of the
session, and arranging these moments gives the reports of the course back.
-/
namespace PeripheralLayer.Bus

open Session (takeReaction scriptWork scriptWork_takeReaction)

def Client.holding (c : Client) (returned : Option Buffer) : Client := { c with returned }

/-- A client makes all of these steps, at this depth and with these reactions left; then the reports, the
client and the reactions are these. -/
inductive Course : Nat → Client → List (List Reaction) → List Step →
    List Report → Client → List (List Reaction) → Prop where
  | done (depth : Nat) (c : Client) (scripts : List (List Reaction)) : Course depth c scripts [] [] c scripts
  | quiet {depth : Nat} {c d : Client} {scripts left : List (List Reaction)} {step : Step} {steps : List Step}
      {later : List Report} (silent : (c.perform step).completion = none)
      (tail : Course depth (c.perform step).client scripts steps later d left) :
      Course depth c scripts (step :: steps) (.around (c.moment depth step) [] :: later) d left
  | called {depth : Nat} {c inside d : Client} {scripts between left : List (List Reaction)} {step : Step}
      {steps : List Step} {outcome : Completion} {reaction later : List Report}
      (told : (c.perform step).completion = some outcome)
      (inner : Course (depth + 1) ((c.perform step).client.holding outcome.buffer)
        (takeReaction scripts outcome.handler).2 (takeReaction scripts outcome.handler).1
        reaction inside between)
      (tail : Course depth (inside.holding (c.perform step).client.returned) between steps
        later d left) :
      Course depth c scripts (step :: steps) (.around (c.moment depth step) reaction :: later) d left

mutual

def Report.moments : Report → List Moment
  | .mk moment _ _ reaction => moment :: Report.told reaction

def Report.told : List Report → List Moment
  | [] => []
  | r :: later => r.moments ++ Report.told later

end

theorem Report.told_around (moment : Moment) (reaction later : List Report) :
    told (around moment reaction :: later) = moment :: (told reaction ++ told later) := rfl

theorem Course.total (depth : Nat) (c : Client) (scripts : List (List Reaction)) (steps : List Step) :
    ∃ reports d left, Course depth c scripts steps reports d left ∧ scriptWork left ≤ scriptWork scripts := by
  -- Every reaction is used up where it begins, so the steps inside it and after it are fewer in all.
  induction h : 2 * steps.length + scriptWork scripts using Nat.strongRecOn
    generalizing depth c scripts steps with
  | ind k ih =>
    cases steps with
    | nil => exact ⟨[], c, scripts, .done depth c scripts, Nat.le_refl _⟩
    | cons step steps =>
      simp only [List.length_cons] at h
      cases told : (c.perform step).completion with
      | none =>
        obtain ⟨later, d, left, tail, less⟩ := ih _ (by omega) depth (c.perform step).client scripts steps rfl
        exact ⟨_, d, left, .quiet told tail, less⟩
      | some outcome =>
        have share := scriptWork_takeReaction scripts outcome.handler
        obtain ⟨reaction, inside, between, inner, spent⟩ := ih _ (by omega) (depth + 1)
          ((c.perform step).client.holding outcome.buffer) (takeReaction scripts outcome.handler).2
          (takeReaction scripts outcome.handler).1 rfl
        obtain ⟨later, d, left, tail, less⟩ := ih (2 * steps.length + scriptWork between) (by omega) depth
          (inside.holding (c.perform step).client.returned) between steps rfl
        exact ⟨_, d, left, .called told inner tail, by omega⟩

namespace Course

variable {depth : Nat} {c d : Client} {scripts left : List (List Reaction)} {steps : List Step}
  {reports : List Report}

theorem moments_eq (course : Course depth c scripts steps reports d left) {outer : List Frame}
    (deep : outer.length = depth) :
    (Session.mk c steps outer scripts).moments =
      Report.told reports ++ (Session.mk d [] outer left).moments := by
  induction course generalizing outer with
  | done depth c scripts => rfl
  | @quiet depth c d scripts left step steps later silent tail ih =>
    subst deep
    have next : (Session.mk c (step :: steps) outer scripts).advance =
        some (⟨(c.perform step).client, steps, outer, scripts⟩, some (c.moment outer.length step)) := by
      simp only [Session.advance, silent, Session.deliver, Client.moment]
    rw [Session.moments_eq_of_advance next, ih rfl]
    rfl
  | @called depth c inside d scripts between left step steps outcome reaction later told inner tail ihInner ihTail =>
    subst deep
    let frame : Frame := ⟨(c.perform step).client.returned, steps⟩
    have next : (Session.mk c (step :: steps) outer scripts).advance =
        some (⟨(c.perform step).client.holding outcome.buffer,
            (takeReaction scripts outcome.handler).1, frame :: outer,
            (takeReaction scripts outcome.handler).2⟩, some (c.moment outer.length step)) := by
      simp only [Session.advance, told, Session.deliver, Client.moment, Client.holding, frame]
    have back : (Session.mk inside [] (frame :: outer) between).advance =
        some (⟨inside.holding frame.returned, steps, outer, between⟩, none) := rfl
    rw [Session.moments_eq_of_advance next, ihInner rfl, Session.moments_eq_of_advance back, ihTail rfl,
      Report.told_around]
    simp

theorem depth_eq (course : Course depth c scripts steps reports d left) :
    ∀ r ∈ reports, r.moment.depth = depth := by
  induction course with
  | done depth c scripts => simp
  | quiet silent tail ih => exact List.forall_mem_cons.mpr ⟨rfl, ih⟩
  | called told inner tail ihInner ihTail => exact List.forall_mem_cons.mpr ⟨rfl, ihTail⟩

theorem mediator_eq (course : Course depth c scripts steps reports d left) :
    d.mediator = (reports.getLast?.map Report.settled).getD c.mediator := by
  induction course with
  | done depth c scripts => rfl
  | quiet silent tail ih =>
    rw [ih, List.getLast?_cons]
    cases List.getLast? _ <;> rfl
  | called told inner tail ihInner ihTail =>
    rw [ihTail, List.getLast?_cons]
    cases List.getLast? _ with
    | none => exact ihInner
    | some r => rfl

theorem passage (course : Course depth c scripts steps reports d left) :
    Passage c.mediator (Report.told reports) d.mediator := by
  induction course with
  | done depth c scripts => exact .nil _
  | quiet silent tail ih => exact .cons _ _ _ ih
  | called told inner tail ihInner ihTail => exact .cons _ _ _ (ihInner.append ihTail)

end Course

namespace Report

def Shallow (depth : Nat) (reports : List Report) : Prop :=
  ∀ r ∈ reports.head?, ¬ depth < r.moment.depth

theorem takeWhile_inside {depth : Nat} {reaction later : List Report}
    (inside : ∀ r ∈ reaction, r.moment.depth = depth + 1) (shallow : Shallow depth later) :
    (reaction ++ later).takeWhile (fun r => decide (depth < r.moment.depth)) = reaction := by
  rw [List.takeWhile_append_of_pos (fun r mem => by simp [inside r mem])]
  cases later with
  | nil => simp
  | cons r later => simp [shallow r rfl]

theorem dropWhile_inside {depth : Nat} {reaction later : List Report}
    (inside : ∀ r ∈ reaction, r.moment.depth = depth + 1) (shallow : Shallow depth later) :
    (reaction ++ later).dropWhile (fun r => decide (depth < r.moment.depth)) = later := by
  rw [List.dropWhile_append_of_pos (fun r mem => by simp [inside r mem])]
  cases later with
  | nil => simp
  | cons r later => simp [shallow r rfl]

theorem arrange_cons {moment : Moment} {moments : List Moment} {reaction later : List Report}
    (rest : arrange moments = reaction ++ later)
    (inside : ∀ r ∈ reaction, r.moment.depth = moment.depth + 1) (shallow : Shallow moment.depth later) :
    arrange (moment :: moments) = around moment reaction :: later := by
  simp only [arrange, rest, takeWhile_inside inside shallow, dropWhile_inside inside shallow]

theorem shallow_arrange {depth : Nat} {moments : List Moment}
    (h : ∀ moment ∈ moments.head?, ¬ depth < moment.depth) : Shallow depth (arrange moments) := by
  cases moments with
  | nil => simp [Shallow, arrange]
  | cons moment moments =>
    intro r mem
    cases mem
    exact h moment rfl

theorem head?_told (reports : List Report) : (told reports).head? = reports.head?.map moment := by
  cases reports with
  | nil => rfl
  | cons r later => cases r; rfl

theorem shallow_append {depth : Nat} {reports later : List Report}
    (level : ∀ r ∈ reports, r.moment.depth = depth) (shallow : Shallow depth later) :
    Shallow depth (reports ++ later) := by
  cases reports with
  | nil => exact shallow
  | cons r reports =>
    intro other mem
    cases mem
    have same := level r (by simp)
    omega

end Report

theorem Course.arrange_eq {depth : Nat} {c d : Client} {scripts left : List (List Reaction)} {steps : List Step}
    {reports : List Report} (course : Course depth c scripts steps reports d left) (rest : List Moment)
    (shallow : ∀ moment ∈ rest.head?, ¬ depth < moment.depth) :
    Report.arrange (Report.told reports ++ rest) = reports ++ Report.arrange rest := by
  induction course generalizing rest with
  | done depth c scripts => rfl
  | @quiet depth c d scripts left step steps later silent tail ih =>
    have after := Report.shallow_append tail.depth_eq (Report.shallow_arrange shallow)
    have none_inside : ∀ r ∈ ([] : List Report), r.moment.depth = (c.moment depth step).depth + 1 := by simp
    exact Report.arrange_cons (ih rest shallow) none_inside after
  | @called depth c inside d scripts between left step steps outcome reaction later told inner tail ihInner ihTail =>
    have after := Report.shallow_append tail.depth_eq (Report.shallow_arrange shallow)
    have deep : Report.arrange (Report.told reaction ++ (Report.told later ++ rest)) =
        reaction ++ (later ++ Report.arrange rest) := by
      rw [ihInner (Report.told later ++ rest) ?_, ihTail rest shallow]
      intro moment mem
      rw [List.head?_append, Report.head?_told] at mem
      cases later with
      | nil =>
        have low := shallow moment mem
        omega
      | cons r later =>
        have same := tail.depth_eq r (by simp)
        cases mem
        omega
    rw [Report.told_around, List.cons_append, List.append_assoc]
    exact Report.arrange_cons deep inner.depth_eq after

def Scenario.client (s : Scenario) : Client := { mediator := { config := s.config } }

theorem Scenario.reports_of_course {s : Scenario} {reports : List Report} {d : Client}
    {left : List (List Reaction)} (course : Course 0 s.client s.handlers s.steps reports d left) :
    s.moments = Report.told reports ∧ Report.arrange s.moments = reports := by
  have whole := course.moments_eq (show ([] : List Frame).length = 0 from rfl)
  have ended : (Session.mk d [] [] left).moments = [] := Session.moments_eq_nil_of_advance rfl
  rw [ended, List.append_nil] at whole
  have moments : s.moments = Report.told reports := whole
  have arranged := course.arrange_eq [] (by simp)
  rw [List.append_nil, ← moments] at arranged
  exact ⟨moments, by simpa [Report.arrange] using arranged⟩

end PeripheralLayer.Bus
