import Schemata.Validation.Error

/-!
What a check gives: the value as it comes out, or problems. A run may ask for the first problem
alone; what is reported after it is then left out.
-/

namespace Schemata

/-- The outcome of one check. -/
structure Report where
  output : Option Value
  errors : List ValidationError

namespace Report

def accept (v : Value) : Report := ⟨some v, []⟩

def reject (l : Location) (f : Fault) : Report := ⟨none, [⟨l, f⟩]⟩

@[simp] theorem errors_accept (v : Value) : (accept v).errors = [] := rfl

@[simp] theorem output_reject (l : Location) (f : Fault) : (reject l f).output = none := rfl

end Report

namespace Reports

def isOver (firstOnly : Bool) (errors : List ValidationError) : Bool := firstOnly && !errors.isEmpty

def add (firstOnly : Bool) (errors : List ValidationError) (e : ValidationError) :
    List ValidationError :=
  if isOver firstOnly errors then errors else errors ++ [e]

def addAll (firstOnly : Bool) (errors more : List ValidationError) : List ValidationError :=
  more.foldl (add firstOnly) errors

@[simp] theorem addAll_false (errors more : List ValidationError) :
    addAll false errors more = errors ++ more := by
  induction more generalizing errors with
  | nil => simp [addAll]
  | cons e rest ih =>
    simp only [addAll, List.foldl_cons, add, isOver, Bool.false_and] at ih ⊢
    simp [ih]

end Reports
end Schemata
