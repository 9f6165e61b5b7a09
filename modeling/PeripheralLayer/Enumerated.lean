/-!
Finite vocabularies. Each word of a vocabulary has a name, under which board descriptions and
reports write it. Some words also have a number, under which result words and callers carry them.
Two words never share a name or a number, so both readings below undo the writing exactly.
-/
namespace PeripheralLayer

class Enumerated (α : Type) where
  all : List α
  name : α → String
  mem_all : ∀ a, a ∈ all
  name_injective : ∀ a b, name a = name b → a = b

class Numbered (α : Type) extends Enumerated α where
  number : α → Nat
  number_injective : ∀ a b, number a = number b → a = b

namespace Enumerated

variable {α : Type} [Enumerated α]

def ofName? (text : String) : Option α := (all : List α).find? fun a => name a = text

theorem ofName?_name (a : α) : ofName? (name a) = some a := by
  unfold ofName?
  cases found : (all : List α).find? fun b => decide (name b = name a) with
  | none =>
    have absent := List.find?_eq_none.mp found a (mem_all a)
    simp at absent
  | some b =>
    have same := List.find?_some found
    simp only [decide_eq_true_eq] at same
    rw [name_injective b a same]

theorem name_of_ofName? {text : String} {a : α} (h : ofName? text = some a) : name a = text := by
  have same := List.find?_some h
  simpa using same

end Enumerated

namespace Numbered

variable {α : Type} [Numbered α]

def ofNumber? (n : Int) : Option α := (Enumerated.all : List α).find? fun a => (number a : Int) = n

theorem ofNumber?_eq_some_iff {n : Int} {a : α} : ofNumber? n = some a ↔ (number a : Int) = n := by
  constructor
  · intro h
    have same := List.find?_some h
    simpa using same
  · intro h
    unfold ofNumber?
    cases found : (Enumerated.all : List α).find? fun b => decide ((number b : Int) = n) with
    | none =>
      have absent := List.find?_eq_none.mp found a (Enumerated.mem_all a)
      simp [h] at absent
    | some b =>
      have same := List.find?_some found
      simp only [decide_eq_true_eq] at same
      rw [number_injective b a (by omega)]

end Numbered

end PeripheralLayer
