import ResourcePool.Operation

/-!
The surroundings of a pool: the factory that makes, checks and closes its resources, and what
callbacks do. At each call the surroundings first name operations to be carried out on the spot, and
then answer. They may name and answer anything; a budget says that they name only finitely many
operations in all.

Every call is answered: nothing panics. Between two steps of the pool nobody else is at work: other
threads act during calls, while the one that waits for a new resource is held back, and between
operations. Nobody is woken up; a request is looked at when an operation polls it. Queues, the array
of waiters, channels and the timer behave as documented, and numbers do not wrap around.
-/

namespace ResourcePool

inductive Moment
  | create (slot : Nat)
  | validate (id : Nat)
  | close (id : Nat)
  | schedule (label : Nat)
  deriving DecidableEq

structure Environment (σ : Type) where
  /-- The operations to carry out when a call begins. -/
  enter : Moment → σ → List Op × σ
  /-- A new resource for a slot, or why there is none. -/
  create : Nat → σ → Option Failure × σ
  validate : Resource → σ → Bool × σ
  close : Resource → σ → Option Failure × σ
  tell : Notice → σ → σ
  counts : σ → FactoryCounts

/-- A bound on the operations that the surroundings still name. -/
structure Budget {σ : Type} (e : Environment σ) where
  ops : σ → Nat
  enter_le : ∀ c s, (e.enter c s).1.length + ops (e.enter c s).2 ≤ ops s
  create_le : ∀ n s, ops (e.create n s).2 ≤ ops s
  validate_le : ∀ r s, ops (e.validate r s).2 ≤ ops s
  close_le : ∀ r s, ops (e.close r s).2 ≤ ops s
  tell_le : ∀ n s, ops (e.tell n s) ≤ ops s

end ResourcePool
