/-!
The written form of structured values: records with named fields, wrapped single values, optional
values and lists. The parts are given in written form already.
-/

namespace ResourcePool.Text

def commaSeparated (parts : List String) : String :=
  ", ".intercalate parts

def record (name : String) (fields : List (String × String)) : String :=
  name ++ " \x7b " ++ commaSeparated (fields.map fun f => f.1 ++ ": " ++ f.2) ++ " \x7d"

/-- A name around one unnamed value. -/
def wrapped (name value : String) : String :=
  name ++ "(" ++ value ++ ")"

def optional : Option String → String
  | none => "None"
  | some value => wrapped "Some" value

def list (parts : List String) : String :=
  "[" ++ commaSeparated parts ++ "]"

def truth (b : Bool) : String :=
  if b then "true" else "false"

end ResourcePool.Text
