import Mathlib.Data.List.Induction

/-!
Histories that grow at their end: where one can be cut, and whether a period that something in it began is still
running.
-/
namespace PeripheralLayer

theorem cut_append_singleton {α : Type} {past before later : List α} {last e : α}
    (cut : past ++ [last] = before ++ e :: later) :
    (past = before ∧ last = e ∧ later = []) ∨
      ∃ between, later = between ++ [last] ∧ past = before ++ e :: between := by
  cases later using List.reverseRecOn with
  | nil =>
    obtain ⟨same, tail⟩ := List.append_inj' cut rfl
    cases tail
    exact Or.inl ⟨same, rfl, rfl⟩
  | append_singleton between d =>
    rw [← List.cons_append, ← List.append_assoc] at cut
    obtain ⟨same, tail⟩ := List.append_inj' cut rfl
    cases tail
    exact Or.inr ⟨between, rfl, same⟩

/-- Something that begins a period was not followed by anything that ends it. -/
def Since {α : Type} (begins ends : α → Prop) (past : List α) : Prop :=
  ∃ before first later, past = before ++ first :: later ∧ begins first ∧ ∀ e ∈ later, ¬ ends e

section Since

variable {α : Type} {begins ends : α → Prop} {past : List α} {e : α}

theorem not_since_nil : ¬ Since begins ends [] := by
  rintro ⟨before, first, later, cut, -⟩
  simp at cut

theorem since_snoc : Since begins ends (past ++ [e]) ↔ begins e ∨ Since begins ends past ∧ ¬ ends e := by
  constructor
  · rintro ⟨before, first, later, cut, begun, running⟩
    rcases cut_append_singleton cut with ⟨-, rfl, -⟩ | ⟨between, rfl, shorter⟩
    · exact .inl begun
    · exact .inr ⟨⟨before, first, between, shorter, begun, fun d mem => running d (by simp [mem])⟩,
        running e (by simp)⟩
  · rintro (begun | ⟨⟨before, first, later, rfl, begun, running⟩, lasting⟩)
    · exact ⟨past, e, [], rfl, begun, by simp⟩
    · refine ⟨before, first, later ++ [e], by simp, begun, ?_⟩
      intro d mem
      rcases List.mem_append.mp mem with earlier | latest
      · exact running d earlier
      · rwa [List.mem_singleton.mp latest]

theorem foldl_eq_true_iff_since [DecidablePred begins] [DecidablePred ends] (past : List α) :
    past.foldl (fun running e => decide (begins e) || running && !decide (ends e)) false = true ↔
      Since begins ends past := by
  induction past using List.reverseRecOn with
  | nil => exact ⟨Bool.false_ne_true.elim, fun since => absurd since not_since_nil⟩
  | append_singleton past e ih => simp [List.foldl_append, since_snoc, ih]

instance [DecidablePred begins] [DecidablePred ends] (past : List α) : Decidable (Since begins ends past) :=
  decidable_of_iff _ (foldl_eq_true_iff_since past)

theorem Since.not_since {stops : α → Prop} (since : Since stops begins past) (ending : ∀ e, stops e → ends e)
    (apart : ∀ e, stops e → ¬ begins e) : ¬ Since begins ends past := by
  induction past using List.reverseRecOn with
  | nil => exact not_since_nil
  | append_singleton past e ih =>
    rw [since_snoc] at since ⊢
    rintro (begun | ⟨running, lasting⟩)
    · rcases since with stopped | ⟨-, still⟩
      · exact apart e stopped begun
      · exact still begun
    · rcases since with stopped | ⟨earlier, -⟩
      · exact lasting (ending e stopped)
      · exact ih earlier running

end Since

end PeripheralLayer
