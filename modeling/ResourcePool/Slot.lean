import ResourcePool.Text.Record

/-!
The bookkeeping of one place of the pool: whether a resource fills it and who has the resource, how
many resources have filled it, and how often it was lent.
-/

namespace ResourcePool

inductive SlotState
  /-- No resource has filled the slot, or its resource is gone. -/
  | uninitialized
  | idle
  | checkedOut
  /-- The resource was closed; the slot is not filled again. -/
  | closed
  deriving DecidableEq

namespace SlotState

def name : SlotState → String
  | uninitialized => "Uninitialized"
  | idle => "Idle"
  | checkedOut => "CheckedOut"
  | closed => "Closed"

def all : List SlotState := [uninitialized, idle, checkedOut, closed]

def ofName? (s : String) : Option SlotState :=
  all.find? fun t => t.name == s

def code : SlotState → Nat
  | uninitialized => 0
  | idle => 1
  | checkedOut => 2
  | closed => 3

def isAvailable (s : SlotState) : Bool := s = idle

def isBusy (s : SlotState) : Bool := s = checkedOut

/-- The slot holds a live resource. -/
def isPopulated (s : SlotState) : Bool := s = idle || s = checkedOut

end SlotState

structure Slot where
  state : SlotState := .uninitialized
  /-- The number of resources that have filled the slot. -/
  generation : Nat := 0
  checkouts : Nat := 0
  deriving DecidableEq

namespace Slot

def replace (s : Slot) (target : SlotState) : Slot :=
  { s with state := target }

/-- Changes the state only if it is the expected one. -/
def transition? (s : Slot) (source target : SlotState) : Option Slot :=
  if s.state = source then some (s.replace target) else none

def populate (s : Slot) : Slot :=
  { s with state := .idle, generation := s.generation + 1 }

def checkout? (s : Slot) : Option Slot :=
  (s.transition? .idle .checkedOut).map fun t => { t with checkouts := t.checkouts + 1 }

def checkin? (s : Slot) : Option Slot :=
  s.transition? .checkedOut .idle

@[simp] theorem checkout?_eq_some_iff {s t : Slot} :
    s.checkout? = some t ↔
      s.state = .idle ∧ t = { s with state := .checkedOut, checkouts := s.checkouts + 1 } := by
  unfold checkout? transition? replace
  split <;> simp_all [eq_comm]

@[simp] theorem checkin?_eq_some_iff {s t : Slot} :
    s.checkin? = some t ↔ s.state = .checkedOut ∧ t = { s with state := .idle } := by
  unfold checkin? transition? replace
  split <;> simp_all [eq_comm]

def written (s : Slot) (index : Nat) : String :=
  Text.record "SlotInfo" [
    ("slot", toString index),
    ("state", s.state.name),
    ("generation", toString s.generation),
    ("checkout_count", toString s.checkouts)]

end Slot
end ResourcePool
