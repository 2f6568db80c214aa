import ResourcePool.Environment
import ResourcePool.Log

/-!
The pool at work. What is still to be done is kept as a stack of activities, so that a call to the
surroundings is a state like any other and the operations carried out during it stand on top of the
activity that is waiting for the answer.
-/

namespace ResourcePool

/-- A delivery: the waiter and the resource that goes to it. -/
structure Task where
  label : Nat
  waiter : Nat
  item : Item
  /-- The thread that scheduled it; the main thread has no name. -/
  thread : Option Nat
  deriving DecidableEq

/-- Where a new request goes. -/
inductive Purpose
  | handle (h : Nat)
  | get (h : Nat)
  | background (h : Nat)

/-- Who empties the queue of idle resources of a closed pool: the caller of `close`, who is told
which closings failed, or whoever matches. -/
inductive Flusher
  | closer
  | matcher
  deriving DecidableEq

inductive Check
  /-- Before it is lent again, by a matching that answers this many calls; the view of the line is
  kept meanwhile. -/
  | checkout (answered : Nat) (view : List Nat)
  | checkin

/-- Why a resource is closed. -/
inductive Closing
  /-- It was found invalid. -/
  | invalid (check : Check)
  /-- The pool was closed while the resource was being handed on. -/
  | inHand
  | flush (who : Flusher) (failures : List CloseFailure)
  /-- Nobody refers to the pool any more. -/
  | teardown
  /-- It came back although its slot was not lent. -/
  | misfit

/-- A call to the surroundings, with what goes on after the answer. -/
inductive Call
  | create (answered waiter : Nat) (r : Reservation)
  | validate (i : Item) (check : Check)
  | close (i : Item) (why : Closing)
  | schedule (t : Task)

inductive Activity
  | perform (op : Op)
  /-- An operation carried out during a call is over; the reply that stood before stands again. -/
  | finish (before : Reply)
  | say (r : Reply)
  /-- A reference to the pool is kept until this activity is reached. -/
  | release
  | teardown
  | acquire (purpose : Purpose)
  | acquired (a : Acquire) (purpose : Purpose)
  | put (h : Nat) (x : Handle)
  /-- Withdraws a request, if it can still be withdrawn; then its listener leaves. -/
  | quit (a : Acquire)
  | hangUp (waiter : Nat)
  /-- A delivery is given up before it ran. -/
  | abandon (t : Task)
  | giveBack (i : Item)
  /-- Calls for matching. -/
  | trigger
  /-- A round of matching is over that answers this many calls for it. -/
  | again (answered : Nat)
  /-- Matches until there is nobody in line or nothing to hand out. -/
  | round (answered : Nat) (inHand : Option Item)
  | search (answered : Nat) (view : List Nat)
  | call (c : Call)
  | answer (c : Call)
  | task (t : Task)
  /-- The resource of a delivery is sent to its waiter. -/
  | deliver (t : Task)
  /-- The waiter of a delivery is told that the pool is closed. -/
  | refuse (t : Task)
  | wentAway (slot waiter : Nat)
  | ran
  | flush (who : Flusher) (failures : List CloseFailure)
  | report (failures : List CloseFailure)
  | timedOut (limit : Duration)
  | awaited (h : Nat)
  | collect (h : Nat) (rest : List Nat) (seen : List (Nat × Poll))
  | runNext (left : Option Nat) (labels : List Nat)
  /-- Runs everything that is queued. -/
  | turn
  /-- What stands above runs on another thread. -/
  | thread (name : Nat)
  | launched
  | joined

/-- The pool is taken down only when nothing refers to it any more: its own teardown does not. -/
def Call.refersToPool : Call → Bool
  | .close _ .teardown => false
  | _ => true

/-- The activity works on the pool, or keeps a reference for those above it. -/
def Activity.refersToPool : Activity → Bool
  | .release | .acquire _ | .acquired .. | .quit _ | .hangUp _ | .abandon _ | .giveBack _
  | .trigger | .again _ | .round .. | .search .. | .task _ | .deliver _ | .refuse _
  | .flush .. => true
  | .put _ x => x.refersToPool
  | .call c | .answer c => c.refersToPool
  | _ => false

def Activity.isThread : Activity → Bool
  | .thread _ => true
  | _ => false

/-- A request made on another thread. -/
inductive Background
  | absent
  | running
  /-- The thread waits for a new resource. -/
  | held
  | resumed
  | done (h : Nat) (a : Acquire)

/-- Calls for a new resource are held back. -/
def Background.holdsBack : Background → Bool
  | .running => true
  | _ => false

inductive Event
  | called (c : Moment)
  | created (id : Nat)
  | createFailed
  | valid (b : Bool)
  | closed
  | closeFailed
  | log (e : LogEntry)
  /-- An operation carried out during a call, its reply, and the status of the pool after it. -/
  | nested (r : Reply) (s : Option Status)
  deriving DecidableEq

structure Machine (σ : Type) where
  scheduler : Scheduler
  pool : Pool
  env : σ
  stack : List Activity := []
  handles : Table Handle := {}
  mainHandle : Bool := true
  clones : Nat := 0
  tasks : List Task := []
  counts : DispatchCounts := {}
  /-- The number of resources made so far. -/
  made : Nat := 0
  /-- Milliseconds. -/
  clock : Nat := 0
  background : Background := .absent
  /-- What the other thread has still to do while it waits. -/
  paused : List Activity := []
  /-- The pool is being or has been taken down. -/
  torn : Bool := false
  /-- The reply to the operation that ended last. -/
  reply : Reply := .nothing
  /-- The latest event first. -/
  trace : List Event := []

namespace Machine

variable {σ : Type}

def push (m : Machine σ) (as : List Activity) : Machine σ :=
  { m with stack := as ++ m.stack }

def note (m : Machine σ) (e : Event) : Machine σ :=
  { m with trace := e :: m.trace }

def log (m : Machine σ) (e : LogEntry) : Machine σ :=
  m.note (.log e)

def answer (m : Machine σ) (r : Reply) : Machine σ :=
  { m with reply := r }

def withPool (m : Machine σ) (p : Pool) : Machine σ :=
  { m with pool := p }

/-- The status as the holder of the main handle sees it. -/
def status? (m : Machine σ) : Option Status :=
  if m.mainHandle then some m.pool.status else none

/-- The thread that the topmost activity runs on. -/
def currentThread (m : Machine σ) : Option Nat :=
  m.stack.findSome? fun
    | .thread name => some name
    | _ => none

/-- The event loop is running. -/
def inTurn (m : Machine σ) : Bool :=
  m.stack.any fun
    | .turn => true
    | _ => false

/-- The activities on the stack and on the other thread. -/
def activities (m : Machine σ) : List Activity :=
  m.stack ++ m.paused

/-- Something refers to the pool. -/
def isReferenced (m : Machine σ) : Bool :=
  m.mainHandle || 0 < m.clones || m.handles.entries.any (fun e => e.2.refersToPool) ||
    !m.tasks.isEmpty || m.activities.any Activity.refersToPool ||
    match m.background with
    | .done .. => true
    | _ => false

end Machine
end ResourcePool
