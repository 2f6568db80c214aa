import ResourcePool.Error

/-!
The pooled resource: a connection that keeps the statements executed on it. Its number tells it from
every other resource of the same factory.
-/

namespace ResourcePool

structure Resource where
  id : Nat
  /-- The slot it was made for. -/
  slot : Nat
  /-- Oldest first. -/
  executed : List String := []
  deriving DecidableEq

/-- What a factory or a resource refuses with. -/
inductive Fault
  | create (slot : Nat)
  | close (id : Nat)
  | query (statement : String)
  deriving DecidableEq

namespace Fault

def message : Fault → String
  | create slot => s!"mock create failure for slot {slot}"
  | close id => s!"mock close failure for resource {id}"
  | query statement => "mock query failure: " ++ statement

def written : Fault → String
  | create slot => Text.wrapped "Create" (toString slot)
  | close id => Text.wrapped "Close" (toString id)
  | query statement => Text.wrapped "Query" (Text.quoted statement)

def toFailure (f : Fault) : Failure where
  message := f.message
  written := f.written

end Fault

/-- The word occurs somewhere in the text. -/
def mentions (word : List Char) : List Char → Bool
  | [] => word.isEmpty
  | c :: rest => word.isPrefixOf (c :: rest) || mentions word rest

namespace Resource

/-- Statements that mention `FAIL` are refused; the others are kept and answer how many there
are. -/
def execute (r : Resource) (statement : String) : Except Fault (Nat × Resource) :=
  if mentions ['F', 'A', 'I', 'L'] statement.toList then .error (.query statement)
  else
    let executed := r.executed ++ [statement]
    .ok (executed.length, { r with executed })

def written (r : Resource) : String :=
  Text.record "MockResource" [
    ("id", toString r.id),
    ("slot", toString r.slot),
    ("executed", Text.list (r.executed.map Text.quoted))]

end Resource
end ResourcePool
