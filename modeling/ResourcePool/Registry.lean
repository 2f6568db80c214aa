/-!
The waiters in line. Entries are identities: what an entry stands for plays no part, and the same
entry may stand in line more than once.
-/

namespace ResourcePool

/-- Entries in the order they joined. -/
structure Registry (α : Type) where
  entries : List α
  deriving DecidableEq

namespace Registry

variable {α : Type}

def empty : Registry α := ⟨[]⟩

def size (r : Registry α) : Nat := r.entries.length

def register (r : Registry α) (a : α) : Registry α :=
  ⟨r.entries ++ [a]⟩

variable [DecidableEq α]

def contains (r : Registry α) (a : α) : Bool :=
  a ∈ r.entries

/-- Removes the entry where it first stands; the others keep their order. -/
def unregister (r : Registry α) (a : α) : Registry α :=
  ⟨r.entries.erase a⟩

omit [DecidableEq α] in
@[simp] theorem entries_empty : (empty : Registry α).entries = [] := rfl

omit [DecidableEq α] in
@[simp] theorem entries_register (r : Registry α) (a : α) :
    (r.register a).entries = r.entries ++ [a] := rfl

@[simp] theorem entries_unregister (r : Registry α) (a : α) :
    (r.unregister a).entries = r.entries.erase a := rfl

end Registry
end ResourcePool
