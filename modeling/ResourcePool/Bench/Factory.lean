import ResourcePool.Resource

/-!
A factory for exercising a pool: it counts what it is asked, and can be told to fail.
-/

namespace ResourcePool

/-- What a factory has been asked so far. -/
structure FactoryCounts where
  /-- Calls for a new resource, refused ones included. -/
  attempts : Nat := 0
  /-- The slots of the calls that were answered with a resource. -/
  createdSlots : List Nat := []
  /-- The resources handed in for closing. -/
  closedIds : List Nat := []
  /-- Calls for a new resource that are not answered yet. -/
  held : Nat := 0
  deriving DecidableEq

def FactoryCounts.created (c : FactoryCounts) : Nat := c.createdSlots.length

def FactoryCounts.closed (c : FactoryCounts) : Nat := c.closedIds.length

/-- What a factory can be told from outside. -/
inductive Notice
  | invalidate (id : Nat)
  | failCreates (count : Nat)
  | failCloses (enabled : Bool)
  /-- A call for a new resource is asked and its answer held back. -/
  | hold
  /-- The call held back is about to be answered. -/
  | resume
  deriving DecidableEq

namespace Bench

structure Factory where
  /-- Calls for a new resource that were answered. -/
  answered : Nat := 0
  createdSlots : List Nat := []
  closedIds : List Nat := []
  /-- How many of the next calls for a new resource are refused. -/
  failCreates : Nat := 0
  failCloses : Bool := false
  invalid : List Nat := []
  held : Nat := 0
  deriving DecidableEq

namespace Factory

def counts (f : Factory) : FactoryCounts where
  attempts := f.answered + f.held
  createdSlots := f.createdSlots
  closedIds := f.closedIds
  held := f.held

/-- Resources are numbered in the order they are made. -/
def create (f : Factory) (slot : Nat) : Except Fault Resource × Factory :=
  if f.failCreates = 0 then
    (.ok { id := f.createdSlots.length, slot },
      { f with answered := f.answered + 1, createdSlots := f.createdSlots ++ [slot] })
  else
    (.error (.create slot), { f with answered := f.answered + 1, failCreates := f.failCreates - 1 })

def isValid (f : Factory) (id : Nat) : Bool :=
  !f.invalid.contains id

/-- The resource counts as closed also when closing fails. -/
def close (f : Factory) (id : Nat) : Option Fault × Factory :=
  (if f.failCloses then some (.close id) else none, { f with closedIds := f.closedIds ++ [id] })

def tell (f : Factory) : Notice → Factory
  | .invalidate id => { f with invalid := id :: f.invalid }
  | .failCreates count => { f with failCreates := count }
  | .failCloses enabled => { f with failCloses := enabled }
  | .hold => { f with held := f.held + 1 }
  | .resume => { f with held := f.held - 1 }

end Factory
end Bench
end ResourcePool
