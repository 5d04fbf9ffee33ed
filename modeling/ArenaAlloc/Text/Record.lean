import ArenaAlloc.Text.Quoted

/-!
# Records as text

How a value with named fields is written on one line: the name of its type, then the fields between
braces, each with its value after a colon.

Braces that belong to the text are written by their numbers, as those in a string literal would be
taken for an interpolated value.
-/

namespace ArenaAlloc

namespace Text

/-- A type's name and its fields between braces. -/
def record (name : String) (fields : List (String × String)) : String :=
  name ++ " \x7b " ++ ", ".intercalate (fields.map fun f => f.1 ++ ": " ++ f.2) ++ " \x7d"

def list (items : List String) : String :=
  "[" ++ ", ".intercalate items ++ "]"

/-- A value that may be absent. -/
def optional : Option String → String
  | some text => "Some(" ++ text ++ ")"
  | none => "None"

end Text

end ArenaAlloc
