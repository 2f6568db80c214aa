import ResourcePool.Text.Quoted
import ResourcePool.Text.Record

/-!
A waiter is claimed or cancelled at most once. Who claims it holds the only right to send an outcome
down its line; who listens takes what was sent at most once.
-/

namespace ResourcePool

inductive WaiterState
  | pending
  | fulfilled
  | cancelled
  deriving DecidableEq

def WaiterState.name : WaiterState → String
  | pending => "pending"
  | fulfilled => "fulfilled"
  | cancelled => "cancelled"

/-- The way an outcome travels to the listener. -/
inductive Line (α : Type)
  /-- Nothing was sent, and something may still be. -/
  | silent
  | sent (a : α)
  /-- Nothing is left to be received. -/
  | over
  deriving DecidableEq

structure Waiter (α : Type) where
  id : Nat
  state : WaiterState := .pending
  line : Line α := .silent
  /-- Somebody still listens. -/
  listening : Bool := true
  deriving DecidableEq

/-- What a listener finds on the line. -/
inductive Reception (α : Type)
  | empty
  | value (a : α)
  | closed
  deriving DecidableEq

namespace Waiter

variable {α : Type}

/-- Wins the right to send the outcome. -/
def claim? (w : Waiter α) : Option (Waiter α) :=
  if w.state = .pending then some { w with state := .fulfilled } else none

def cancel? (w : Waiter α) : Option (Waiter α) :=
  if w.state = .pending then some { w with state := .cancelled, line := .over } else none

def isOutstanding (w : Waiter α) : Bool :=
  match w.state, w.line with
  | .fulfilled, .silent => true
  | _, _ => false

/-- Sends the outcome, and hands it back if nobody listens. -/
def complete (w : Waiter α) (a : α) : Option α × Waiter α :=
  if w.listening then (none, { w with line := .sent a })
  else (some a, { w with line := .over })

/-- Gives up the right to send. -/
def abandon (w : Waiter α) : Waiter α :=
  { w with line := .over }

/-- The listener leaves; an outcome it did not take falls out. -/
def hangUp (w : Waiter α) : Option α × Waiter α :=
  match w.line with
  | .sent a => (some a, { w with listening := false, line := .over })
  | _ => (none, { w with listening := false })

/-- The listener looks, and takes the outcome if there is one. -/
def receive (w : Waiter α) : Reception α × Waiter α :=
  match w.line with
  | .silent => (.empty, w)
  | .sent a => (.value a, { w with line := .over })
  | .over => (.closed, w)

@[simp] theorem claim?_eq_some_iff {w v : Waiter α} :
    w.claim? = some v ↔ w.state = .pending ∧ v = { w with state := .fulfilled } := by
  unfold claim?
  split <;> simp_all [eq_comm]

@[simp] theorem cancel?_eq_some_iff {w v : Waiter α} :
    w.cancel? = some v ↔
      w.state = .pending ∧ v = { w with state := .cancelled, line := .over } := by
  unfold cancel?
  split <;> simp_all [eq_comm]

def written (w : Waiter α) : String :=
  Text.record "Waiter" [("id", toString w.id), ("state", Text.quoted w.state.name)]

end Waiter
end ResourcePool
