import ResourcePool.Bench.Factory
import ResourcePool.Pool
import ResourcePool.Scheduler
import ResourcePool.Table

/-!
What can be asked of a pool and its surroundings, what callers hold meanwhile, and what they are
answered. Callers keep what they hold under numbers.
-/

namespace ResourcePool

/-- A request for a resource: the number of its waiter, and whether it can still withdraw it. -/
structure Acquire where
  waiter : Nat
  attached : Bool
  deriving DecidableEq

/-- The time at which a request gives up, and the limit that set it. -/
structure Deadline where
  time : Nat
  limit : Duration
  deriving DecidableEq

/-- A request that starts when it is first polled and gives up after a while. -/
inductive Get
  | unstarted
  | waiting (request : Acquire) (deadline : Option Deadline)
  deriving DecidableEq

inductive Handle
  | acquire (a : Acquire)
  | get (g : Get)
  | guard (i : Item)
  | detached (r : Resource)
  deriving DecidableEq

namespace Handle

/-- The handle keeps the pool alive. -/
def refersToPool : Handle → Bool
  | detached _ => false
  | _ => true

def isPending : Handle → Bool
  | acquire _ | get _ => true
  | _ => false

/-- The resource in the holder's hands. -/
def resource? : Handle → Option Resource
  | guard i => some i.resource
  | detached r => some r
  | _ => none

def setResource (r : Resource) : Handle → Handle
  | guard i => guard { i with resource := r }
  | detached _ => detached r
  | h => h

end Handle

inductive Op
  | acquire (h : Nat)
  | get (h : Nat)
  | poll (h : Nat)
  /-- Polls until there is an answer, as long as there is something to wait for. -/
  | await (h : Nat)
  | pollAll
  | cancel (h : Nat)
  | drop (h : Nat)
  | checkin (h : Nat)
  | detach (h : Nat)
  | execute (h : Nat) (statement : String)
  | executed (h : Nat)
  | info (h : Nat)
  | describe (h : Nat)
  /-- Marks the resource on loan at a handle as invalid. -/
  | invalidateHeld (h : Nat)
  | tell (n : Notice)
  | run (limit : Option Nat)
  | runAt (place : Nat)
  | dropTask (place : Nat)
  | advance (ms : Nat)
  | dispatchCounts
  | factoryCounts
  | close
  | isClosed
  | status
  | slots
  | config
  | describePool
  | factoryCreated
  | clone
  | dropClone
  | dropPool
  /-- Asks for a resource on another thread, with answers to calls for a new one held back. -/
  | background (h : Nat)
  | join
  deriving DecidableEq

/-- Why an operation cannot be carried out. -/
inductive Refusal
  | noPool
  | handleTaken
  | noHandle
  | notPooled
  | notAcquire
  | noTask
  | noCounter
  | noThread
  | busy
  /-- The event loop is running already. -/
  | nested
  deriving DecidableEq

/-- What looking at a pending request shows. -/
inductive Poll
  | pending
  | ready (id slot : Nat)
  | failed (e : PoolError)
  | notPending
  | noHandle
  deriving DecidableEq

inductive Reply
  | nothing
  | flag (b : Bool)
  | number (n : Nat)
  | text (s : String)
  | statements (ss : List String)
  | labels (ns : List Nat)
  | resource (id slot : Nat)
  | poll (p : Poll)
  | polls (ps : List (Nat × Poll))
  | ok
  | failed (e : PoolError)
  | fault (f : Fault)
  | slot (place : Nat) (s : Slot)
  | slots (ss : List (Nat × Slot))
  | status (s : Status)
  | config (c : Config)
  | factoryCounts (c : FactoryCounts)
  | dispatchCounts (c : DispatchCounts)
  | refused (r : Refusal)
  /-- The other thread waits for its call to be answered. -/
  | held
  /-- The other thread has what it asked for. -/
  | done
  deriving DecidableEq

end ResourcePool
