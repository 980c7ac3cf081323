/-! # Structured text
The three shapes that descriptions are made of: a list, a name with arguments, and a name with
labelled parts, the last of them possibly left open. -/

namespace Criteria.Text

/-- Items between brackets. -/
def list (items : List String) : String := "[" ++ ", ".intercalate items ++ "]"

/-- A name with arguments; a name alone if there are none. -/
def application (name : String) (arguments : List String) : String :=
  if arguments.isEmpty then name else name ++ "(" ++ ", ".intercalate arguments ++ ")"

/-- A labelled part. -/
def labelled (part : String × String) : String := part.1 ++ ": " ++ part.2

/-- A name with all of its parts. -/
def record (name : String) (parts : List (String × String)) : String :=
  name ++ " \x7b " ++ ", ".intercalate (parts.map labelled) ++ " \x7d"

/-- A name with some of its parts. -/
def openRecord (name : String) (parts : List (String × String)) : String :=
  name ++ " \x7b " ++ ", ".intercalate (parts.map labelled ++ [".."]) ++ " \x7d"

end Criteria.Text
