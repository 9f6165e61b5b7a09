import Mathlib.Data.List.TakeWhile
import PeripheralLayer.Proofs.Bus.Deferral

/-!
When a step returns. Between the end of a step's own section and its return lies all that ran inside it, and the
code that made the step goes on with the mediator that the last of these moments left. Reports tell the same.
-/
namespace PeripheralLayer.Bus

theorem foundAfter_cons (m : Mediator) (moment : Moment) (later : List Moment) :
    foundAfter m (moment :: later) = foundAfter moment.after later := by
  unfold foundAfter
  rw [List.getLast?_cons]
  cases later.getLast? <;> rfl

theorem foundAfter_append (m : Mediator) (past later : List Moment) :
    foundAfter m (past ++ later) = foundAfter (foundAfter m past) later := by
  induction past generalizing m with
  | nil => rfl
  | cons moment past ih => rw [List.cons_append, foundAfter_cons, foundAfter_cons, ih]

/-- The mediator that the code which made this step finds when the step returns. -/
def Moment.returned (m : Moment) (following : List Moment) : Mediator :=
  foundAfter m.after (following.takeWhile fun e => decide (m.depth < e.depth))

theorem Moment.returned_append_of_passed {m : Moment} {between following : List Moment}
    (passed : ∃ e ∈ between, e.depth ≤ m.depth) : m.returned (between ++ following) = m.returned between := by
  obtain ⟨e, mem, outside⟩ := passed
  have stops : ¬ ∀ e ∈ between, decide (m.depth < e.depth) = true := fun inside =>
    absurd (of_decide_eq_true (inside e mem)) (Nat.not_lt.mpr outside)
  unfold returned
  rw [List.takeWhile_append, if_neg]
  exact fun whole => stops (List.takeWhile_eq_self_iff.mp ((List.takeWhile_prefix _).eq_of_length whole))

theorem Moment.returned_append_of_inside {m : Moment} {between following : List Moment}
    (inside : ∀ e ∈ between, m.depth < e.depth) :
    m.returned (between ++ following) =
      foundAfter (foundAfter m.after between) (following.takeWhile fun e => decide (m.depth < e.depth)) := by
  unfold returned
  rw [List.takeWhile_append_of_pos fun e mem => decide_eq_true (inside e mem), foundAfter_append]

theorem takeWhile_deeper_eq_nil {depth : Nat} {following : List Moment}
    (outside : ∀ e ∈ following.head?, e.depth ≤ depth) :
    (following.takeWhile fun e => decide (depth < e.depth)) = [] := by
  cases following with
  | nil => rfl
  | cons e following => exact List.takeWhile_cons_of_neg (by simpa using outside e rfl)

theorem takeWhile_of_imp {α : Type} {p q : α → Bool} (imp : ∀ a, q a = true → p a = true) (l : List α) :
    l.takeWhile p = l.takeWhile q ++ (l.dropWhile q).takeWhile p := by
  induction l with
  | nil => rfl
  | cons a l ih =>
    cases inside : q a with
    | true => simp [inside, imp a inside, ih]
    | false => simp [List.takeWhile_cons, inside]

namespace Report

theorem told_append (reports later : List Report) : told (reports ++ later) = told reports ++ told later := by
  induction reports with
  | nil => rfl
  | cons r reports ih => simp [told_cons, ih]

def Sound (r : Report) : Prop := r.settled = foundAfter r.moment.after (told r.reaction)

theorem settled_last (m : Mediator) {reports : List Report} (sound : ∀ r ∈ reports, r.Sound) :
    (reports.getLast?.map settled).getD m = foundAfter m (told reports) := by
  induction reports generalizing m with
  | nil => rfl
  | cons r reports ih =>
    have own : r.settled = foundAfter r.moment.after (told r.reaction) := sound r (by simp)
    have rest := ih r.settled fun r mem => sound r (List.mem_cons_of_mem _ mem)
    rw [told_cons, foundAfter_cons, foundAfter_append, ← own, ← rest, List.getLast?_cons]
    cases reports.getLast? <;> rfl

theorem sound_arrange (moments : List Moment) : ∀ r ∈ arrange moments, r.Sound := by
  induction moments with
  | nil => simp [arrange]
  | cons moment later ih =>
    intro r mem
    rcases List.mem_cons.mp mem with rfl | mem
    · exact settled_last moment.after fun r mem => ih r ((List.takeWhile_sublist _).mem mem)
    · exact ih r ((List.dropWhile_sublist _).mem mem)

theorem told_inside (depth : Nat) (moments : List Moment) :
    told ((arrange moments).takeWhile fun r => decide (depth < r.moment.depth)) =
      moments.takeWhile fun e => decide (depth < e.depth) := by
  induction moments with
  | nil => rfl
  | cons first later ih =>
    by_cases deep : depth < first.depth
    · have inside : ∀ r : Report, decide (first.depth < r.moment.depth) = true →
          decide (depth < r.moment.depth) = true := by
        intro r deeper
        simp only [decide_eq_true_eq] at deeper ⊢
        omega
      rw [takeWhile_of_imp inside, told_append] at ih
      have outer : decide (depth < (around first ((arrange later).takeWhile
          fun r => decide (first.depth < r.moment.depth))).moment.depth) = true := decide_eq_true deep
      rw [List.takeWhile_cons, if_pos (decide_eq_true deep), ← ih, arrange, List.takeWhile_cons, if_pos outer, told_around]
    · have outer : ¬ decide (depth < (around first ((arrange later).takeWhile
          fun r => decide (first.depth < r.moment.depth))).moment.depth) = true := by
        rw [decide_eq_true_eq]
        exact deep
      rw [List.takeWhile_cons, if_neg (by rwa [decide_eq_true_eq]), arrange, List.takeWhile_cons, if_neg outer, told_nil]

theorem settled_arrange (first : Moment) (later : List Moment) :
    (arrange (first :: later)).head?.map settled = some (first.returned later) := by
  have sound : ∀ r ∈ (arrange later).takeWhile (fun r => decide (first.depth < r.moment.depth)), r.Sound :=
    fun r mem => sound_arrange later r ((List.takeWhile_sublist _).mem mem)
  have last := settled_last first.after sound
  rw [told_inside] at last
  exact congrArg some last

end Report

end PeripheralLayer.Bus
