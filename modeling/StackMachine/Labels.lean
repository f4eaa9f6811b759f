/-
Label tables: which place in a program each label stands for. A name keeps the place it was first
declared at.
-/
import StackMachine.Fault
import Std.Data.ExtTreeMap

namespace StackMachine

structure Labels where
  places : Std.ExtTreeMap String Nat := ∅

namespace Labels

def empty : Labels := {}

/-- Later declarations of a name change nothing. -/
def declare (t : Labels) (name : String) (place : Nat) : Labels :=
  ⟨t.places.insertIfNew name place⟩

def get? (t : Labels) (name : String) : Option Nat := t.places[name]?

@[simp] theorem get?_empty (name : String) : empty.get? name = none := by
  simp [empty, get?]

/-- A name keeps its first place, and no other name is touched. -/
theorem get?_declare (t : Labels) (name : String) (place : Nat) (other : String) :
    (t.declare name place).get? other =
      if name = other then some ((t.get? name).getD place) else t.get? other := by
  simp only [declare, get?, Std.ExtTreeMap.getElem?_insertIfNew, Std.LawfulEqCmp.compare_eq_iff_eq]
  by_cases h : name = other
  · subst h
    by_cases hm : name ∈ t.places
    · simp [hm]
    · simp [hm]
  · simp [h]

def resolve (t : Labels) (name : String) : Except Fault Nat :=
  match t.get? name with
  | some place => .ok place
  | none => .error (.unresolvedLabel name)

def size (t : Labels) : Nat := t.places.size

def isEmpty (t : Labels) : Bool := t.places.isEmpty

/-- The order of listings: by place, and labels of one place by name. -/
def before (a b : String × Nat) : Bool :=
  a.2 < b.2 || (a.2 == b.2 && a.1 ≤ b.1)

/-- The labels with their places, in listing order. -/
def sorted (t : Labels) : List (String × Nat) := t.places.toList.mergeSort before

/-- The labels that a sequence of instructions declares, each at the first place it is put on. -/
def ofInstructions (is : List Instruction) : Labels :=
  is.zipIdx.foldl (fun t (i, place) => if i.declaresLabel then t.declare i.label place else t) empty

end Labels

end StackMachine
