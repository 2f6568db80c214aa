import Mathlib.Algebra.BigOperators.Group.Multiset.Basic
import Mathlib.Data.Multiset.Filter
import Mathlib.Logic.Relation
import Mathlib.Tactic.Abel
import ResourcePool.Proofs.Run

/-!
The books of a pool: its shared state, and the assets held outside it by the activities in progress,
the callers and the queued deliveries. An asset is a loan, a resource in somebody's hand, the right to
answer a waiter, a call for matching. A move changes the shared state and passes on the assets that
the change concerns; the others stay as they are.

Everything the machine does to its pool is a sequence of moves. What moves preserve therefore holds
in every state of every run, also in the middle of an operation and during a call to the
surroundings.
-/

namespace ResourcePool

/-- How far a matching in progress is. -/
inductive Stage
  /-- There was nobody in line or nothing to hand out. -/
  | over
  | seeking
  /-- It waits for a new resource. -/
  | filling (r : Reservation)
  deriving DecidableEq

inductive Asset
  /-- A resource on loan, wherever the loan is. -/
  | guard (i : Item)
  /-- An idle resource outside the queue of idle resources. -/
  | idle (i : Item)
  /-- A slot whose invalid resource was passed on for closing. -/
  | spent (slot : Nat)
  /-- A resource of a closed slot that is still to be passed on for closing. -/
  | ousted (i : Item)
  /-- A request that was not answered yet. -/
  | listener (a : Acquire)
  /-- The right to send a waiter its outcome, with what was decided so far. -/
  | sender (waiter : Nat) (course : List Fate)
  /-- A call for matching. -/
  | trigger
  | matcher (answered : Nat) (stage : Stage)
  /-- The duty to empty the queue of a closed pool. -/
  | flusher
  /-- The duty to empty the queue of a pool that nobody refers to. -/
  | wrecker
  /-- The permit for the one request on another thread. -/
  | permit
  deriving DecidableEq

@[simp] theorem filterMap_singleton {α β : Type} (f : α → Option β) (a : α) :
    Multiset.filterMap f {a} = (f a).elim 0 singleton := by
  rw [← Multiset.cons_zero, Multiset.filterMap_cons, Multiset.filterMap_zero, add_zero]
  cases f a <;> rfl

@[simp] theorem singleton_add_ne_zero {α : Type} (a : α) (s : Multiset α) : {a} + s ≠ 0 := by
  rw [Multiset.singleton_add]
  exact Multiset.cons_ne_zero

@[simp] theorem singleton_add_eq_singleton {α : Type} {a b : α} {s : Multiset α} :
    {a} + s = {b} ↔ a = b ∧ s = 0 := by
  rw [Multiset.singleton_add, eq_comm, Multiset.singleton_eq_cons_iff, eq_comm]

theorem coe_cons {α : Type} (a : α) (l : List α) : ((a :: l : List α) : Multiset α) = {a} + l :=
  rfl

@[ext] structure Books where
  pool : Pool
  /-- The number of resources made so far. -/
  made : Nat
  torn : Bool
  assets : Multiset Asset
  history : History

/-- There is nothing to hand out. -/
structure Pool.Exhausted (p : Pool) : Prop where
  returned : p.returned = []
  vacated : p.vacated = []
  created : p.slots.length ≤ p.created

/-- Matching goes on or was called for. -/
def Awake (A : Multiset Asset) : Prop :=
  Asset.trigger ∈ A ∨ ∃ n, Asset.matcher n .seeking ∈ A

/-- Who may close idle resources. -/
def MayClose (A : Multiset Asset) : Prop :=
  Asset.flusher ∈ A ∨ Asset.wrecker ∈ A

/-- What may be decided next about a request. -/
def Fate.Follows : Fate → List Fate → Prop
  | creationFailed .., [] | entrusted _, [] => True
  | delivered i, [entrusted j] | refused i, [entrusted j] => i = j
  | _, _ => False

/-- A move, and whether the last reference to the pool is gone. -/
inductive Move (gone : Prop) : Books → Books → Prop
  | enroll {b : Books} (opened : b.pool.closed = false) :
      Move gone b { b with
        pool := b.pool.enroll
        assets := {.listener ⟨b.pool.nextWaiter, true⟩} + ({.trigger} + b.assets) }
  | turnAway {b : Books} (closed : b.pool.closed = true) :
      Move gone b { b with
        pool := b.pool.turnAway
        assets := {.listener ⟨b.pool.nextWaiter, false⟩} + b.assets
        history := .fate b.pool.nextWaiter .turnedAway :: b.history }
  | withdraw {b : Books} {a : Acquire} {p : Pool} {A : Multiset Asset}
      (held : b.assets = {.listener a} + A) (attached : a.attached = true)
      (pending : b.pool.cancel? a.waiter = some p) :
      Move gone b { b with
        pool := p
        assets := {.listener { a with attached := false }} + ({.trigger} + A)
        history := .fate a.waiter .withdrawn :: b.history }
  | forgo {b : Books} {a : Acquire} {A : Multiset Asset}
      (held : b.assets = {.listener a} + A)
      (late : a.attached = true → b.pool.cancel? a.waiter = none) :
      Move gone b { b with assets := {.listener { a with attached := false }} + A }
  | hangUp {b : Books} {w : Nat} {A : Multiset Asset}
      (held : b.assets = {.listener ⟨w, false⟩} + A) :
      Move gone b { b with
        pool := (b.pool.hangUp w).2
        assets := match (b.pool.hangUp w).1 with
          | some (.ok i) => {.guard i} + A
          | _ => A }
  | see {b : Books} {a : Acquire} {o : Outcome} {p : Pool} {A : Multiset Asset}
      (held : b.assets = {.listener a} + A)
      (found : b.pool.receive a.waiter = (.value o, p) ∨
        b.pool.receive a.waiter = (.closed, p) ∧ o = .error .cancelled) :
      Move gone b { b with
        pool := p
        assets := match o with
          | .ok i => {.guard i} + A
          | .error _ => A
        history := .seen a.waiter o :: b.history }
  | foretell {b : Books} {w : Nat} {c : List Fate} {f : Fate} {A : Multiset Asset}
      (held : b.assets = {.sender w c} + A) (follows : f.Follows c) :
      Move gone b { b with
        assets := {.sender w (f :: c)} + A
        history := .fate w f :: b.history }
  | send {b : Books} {w : Nat} {f : Fate} {c : List Fate} {i : Item}
      {A : Multiset Asset}
      (held : b.assets = {.guard i} + ({.sender w (f :: c)} + A))
      (answer : f.answer = some (.ok i)) :
      Move gone b { b with
        pool := (b.pool.complete w (.ok i)).2
        assets := match (b.pool.complete w (.ok i)).1 with
          | some (.ok j) => {.guard j} + A
          | _ => A }
  | sendError {b : Books} {w : Nat} {f : Fate} {c : List Fate} {e : PoolError}
      {A : Multiset Asset}
      (held : b.assets = {.sender w (f :: c)} + A)
      (answer : f.answer = some (.error e)) :
      Move gone b { b with pool := (b.pool.complete w (.error e)).2, assets := A }
  | abandon {b : Books} {w : Nat} {i : Item} {A : Multiset Asset}
      (held : b.assets = {.sender w [.entrusted i]} + A) :
      Move gone b { b with
        pool := b.pool.abandon w
        assets := A
        history := .fate w (.lost i) :: b.history }
  | trigger {b : Books} {A : Multiset Asset} (held : b.assets = {.trigger} + A) :
      Move gone b { b with
        pool := { b.pool with triggers := b.pool.triggers + 1 }
        assets := if b.pool.triggers = 0 then {.matcher 1 .seeking} + A else A }
  | rest {b : Books} {n : Nat} {A : Multiset Asset}
      (held : b.assets = {.matcher n .seeking} + A)
      (idle : b.pool.closed = true ∧ .flusher ∈ A ∨
        b.pool.closed = false ∧ b.pool.registry.entries = [] ∨ b.pool.Exhausted) :
      Move gone b { b with assets := {.matcher n .over} + A }
  | again {b : Books} {n : Nat} {A : Multiset Asset}
      (held : b.assets = {.matcher n .over} + A) :
      Move gone b { b with
        pool := { b.pool with triggers := b.pool.triggers - n }
        assets :=
          if b.pool.triggers - n = 0 then A
          else {.matcher (b.pool.triggers - n) .seeking} + A }
  | choose {b : Books} {view : List Nat} {waiter : Nat} {p : Pool}
      (chosen : b.pool.pick view = (some waiter, p)) :
      Move gone b { b with pool := p, assets := {.sender waiter []} + b.assets }
  | miss {b : Books} {view : List Nat} {p : Pool} (missed : b.pool.pick view = (none, p)) :
      Move gone b { b with pool := p }
  | reserve {b : Books} {n : Nat} {r : Reservation} {p : Pool} {A : Multiset Asset}
      (held : b.assets = {.matcher n .seeking} + A)
      (reserved : b.pool.reserve? = some (r, p)) :
      Move gone b { b with pool := p, assets := {.matcher n (.filling r)} + A }
  | unreserve {b : Books} {n : Nat} {r : Reservation} {A : Multiset Asset}
      (held : b.assets = {.matcher n (.filling r)} + A) :
      Move gone b { b with pool := b.pool.unreserve r, assets := {.matcher n .seeking} + A }
  | create {b : Books} {n : Nat} {r : Reservation} {A : Multiset Asset}
      (held : b.assets = {.matcher n (.filling r)} + A) :
      Move gone b { b with
        pool := b.pool.occupy r
        made := b.made + 1
        assets := {.idle ⟨r.slot, { id := b.made, slot := r.slot }⟩} + ({.matcher n .seeking} + A)
        history := .created b.made r.slot :: b.history }
  | lend {b : Books} {i : Item} {p : Pool} {A : Multiset Asset}
      (held : b.assets = {.idle i} + A) (lent : b.pool.lend? i.slot = some p) :
      Move gone b { b with pool := p, assets := {.guard i} + A }
  | lendMisfit {b : Books} {i : Item} {A : Multiset Asset}
      (held : b.assets = {.idle i} + A) (misfit : b.pool.lend? i.slot = none) :
      Move gone b { b with assets := {.guard i} + A }
  | takeBack {b : Books} {i : Item} {p : Pool} {A : Multiset Asset}
      (held : b.assets = {.guard i} + A) (taken : b.pool.takeBack? i.slot = some p) :
      Move gone b { b with pool := p, assets := {.idle i} + A }
  | takeBackMisfit {b : Books} {i : Item} {A : Multiset Asset}
      (held : b.assets = {.guard i} + A) (misfit : b.pool.takeBack? i.slot = none) :
      Move gone b { b with assets := {.ousted i} + A }
  | queue {b : Books} {i : Item} {A : Multiset Asset}
      (held : b.assets = {.idle i} + A)
      (noticed : Awake A ∨ b.pool.closed = false ∧ b.pool.registry.entries = []) :
      Move gone b { b with pool := b.pool.pushReturned i, assets := A }
  | pop {b : Books} {i : Item} {p : Pool} (popped : b.pool.popReturned? = some (i, p)) :
      Move gone b { b with pool := p, assets := {.idle i} + b.assets }
  | spend {b : Books} {i : Item} {A : Multiset Asset} (held : b.assets = {.idle i} + A) :
      Move gone b { b with
        assets := {.spent i.slot} + A
        history := .closing i.resource.id :: b.history }
  | vacate {b : Books} {s : Nat} {A : Multiset Asset}
      (held : b.assets = {.spent s} + A) (noticed : Awake A) :
      Move gone b { b with pool := b.pool.vacate s, assets := A }
  | detach {b : Books} {i : Item} {A : Multiset Asset}
      (held : b.assets = {.guard i} + A) (noticed : Awake A) :
      Move gone b { b with
        pool := b.pool.vacate i.slot
        assets := A
        history := .detached i.resource.id :: b.history }
  | shut {b : Books} {i : Item} {A : Multiset Asset}
      (held : b.assets = {.idle i} + A) (mayClose : MayClose A) :
      Move gone b { b with pool := b.pool.setState i.slot .closed, assets := {.ousted i} + A }
  | oust {b : Books} {i : Item} {A : Multiset Asset} (held : b.assets = {.ousted i} + A) :
      Move gone b { b with assets := A, history := .closing i.resource.id :: b.history }
  | dismissAll {b : Books} (duty : .flusher ∈ b.assets) :
      Move gone b { b with
        pool := b.pool.dismissAll
        history := ((b.pool.registry.entries.filter fun w => (b.pool.claim? w).isSome).map
          fun w => .fate w .dismissed) ++ b.history }
  | close {b : Books} (opened : b.pool.closed = false) :
      Move gone b { b with
        pool := { b.pool with closed := true }
        assets := {.flusher} + b.assets }
  | callTrigger {b : Books} : Move gone b { b with assets := {.trigger} + b.assets }
  | takeDuty {b : Books} (closed : b.pool.closed = true) :
      Move gone b { b with assets := {.flusher} + b.assets }
  | leaveDuty {b : Books} {A : Multiset Asset} (held : b.assets = {.flusher} + A)
      (empty : b.pool.returned = []) :
      Move gone b { b with assets := A }
  | tearDown {b : Books} (last : gone) :
      Move gone b { b with torn := true, assets := {.wrecker} + b.assets }
  | finishTearDown {b : Books} {A : Multiset Asset} (held : b.assets = {.wrecker} + A) :
      Move gone b { b with assets := A }
  | execute {b : Books} {i : Item} {statement : String} {n : Nat} {r : Resource}
      {A : Multiset Asset}
      (held : b.assets = {.guard i} + A)
      (executed : i.resource.execute statement = .ok (n, r)) :
      Move gone b { b with
        assets := {.guard { i with resource := r }} + A
        history := .executed i.resource.id statement :: b.history }

def Moves (gone : Prop) : Books → Books → Prop :=
  Relation.ReflTransGen (Move gone)

namespace Moves

variable {gone : Prop}

theorem trans {b c d : Books} (first : Moves gone b c) (second : Moves gone c d) :
    Moves gone b d :=
  Relation.ReflTransGen.trans first second

theorem head {b c d : Books} (move : Move gone b c) (others : Moves gone c d) :
    Moves gone b d :=
  Relation.ReflTransGen.head move others

theorem rearrange {p : Pool} {k : Nat} {t : Bool} {A B : Multiset Asset} {h : History}
    (same : A = B) : Moves gone ⟨p, k, t, A, h⟩ ⟨p, k, t, B, h⟩ :=
  same ▸ .refl

/-- What every move keeps, every sequence of moves keeps. -/
theorem keeps {I : Books → Prop} (kept : ∀ {b c}, Move gone b c → I b → I c) {b c : Books}
    (moves : Moves gone b c) (start : I b) : I c := by
  induction moves with
  | refl => exact start
  | tail _ move ih => exact kept move ih

end Moves
end ResourcePool
