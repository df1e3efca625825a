import Schemata.Yaml.Cursor

/-!
White space inside a scalar. Within a line it is text; over a line end it becomes one blank, and
every further line end stands for itself.
-/

namespace Schemata.Yaml

/-- White space passed since the last other character: blanks within a line, or the first line end
and those after it. Both are kept backwards. -/
inductive Gap where
  | blanks (text : List Char)
  | breaks (first : List Char) (more : List Char)

namespace Gap

def none : Gap := blanks []

def isNone : Gap → Bool
  | blanks text => text.isEmpty
  | breaks _ _ => false

def isBroken : Gap → Bool
  | blanks _ => false
  | breaks _ _ => true

def add (g : Gap) (c : Char) : Gap :=
  match g with
  | blanks text => if isBreak c then breaks [c] [] else blanks (c :: text)
  | breaks first more => if isBreak c then breaks first (c :: more) else g

def text : Gap → List Char
  | blanks text => text
  | breaks first more =>
    if first == ['\n'] then (if more.isEmpty then [' '] else more) else more ++ first

end Gap
end Schemata.Yaml
