import ResourcePool.Pool

/-!
What a pool notes of its work, with level, message and fields.
-/

namespace ResourcePool

inductive LogEntry
  | poolCreated (maxSize : Nat)
  | registered (waiter : Nat)
  | cancelled (waiter : Nat)
  | timedOut (limit : Duration)
  | checkedIn (slot : Nat)
  | detached (slot : Nat)
  | discarding (slot : Nat)
  | closeFailed (slot : Nat) (cause : Failure)
  | closed (slot : Nat)
  | created (slot : Nat)
  | creationFailed (slot waiter : Nat) (cause : Failure)
  | dispatching (slot waiter : Nat)
  | wentAway (slot waiter : Nat)
  | closing
  | closedWithErrors (failed : Nat)
  /-- The bench made a resource. -/
  | made (id slot : Nat)
  /-- A resource came back whose slot was not lent. -/
  | notLent (slot : Nat) (state : SlotState)
  /-- A resource is lent whose slot was not idle. -/
  | notIdle (slot : Nat) (state : SlotState)
  deriving DecidableEq

inductive LogLevel
  | trace
  | debug
  | info
  | warn
  | error
  deriving DecidableEq

def LogLevel.name : LogLevel → String
  | trace => "TRACE"
  | debug => "DEBUG"
  | info => "INFO"
  | warn => "WARN"
  | error => "ERROR"

namespace LogEntry

def level : LogEntry → LogLevel
  | poolCreated _ | timedOut _ | detached _ | discarding _ | closed _ | created _ => .debug
  | registered _ | cancelled _ | checkedIn _ | dispatching .. | wentAway .. | made .. => .trace
  | closeFailed .. | creationFailed .. | closedWithErrors _ => .warn
  | closing => .info
  | notLent .. | notIdle .. => .error

def message : LogEntry → String
  | poolCreated _ => "resource pool created"
  | registered _ => "acquire registered"
  | cancelled _ => "acquire cancelled"
  | timedOut _ => "acquire timed out"
  | checkedIn _ => "resource checked in"
  | detached _ => "resource detached from pool"
  | discarding _ => "discarding invalid resource"
  | closeFailed .. => "failed to close resource"
  | closed _ => "resource closed"
  | created _ => "resource created"
  | creationFailed .. => "resource creation failed"
  | dispatching .. => "dispatching resource"
  | wentAway .. => "waiter went away, returning resource"
  | closing => "closing resource pool"
  | closedWithErrors _ => "resource pool closed with errors"
  | made .. => "mock resource created"
  | notLent .. => "resource returned while not checked out, discarding it"
  | notIdle .. => "dispatching a resource that is not idle"

/-- The fields in order; all entries but the bench's own name the pool first. -/
def fields (pool : String) : LogEntry → List (String × String)
  | poolCreated maxSize => [("pool", pool), ("max_size", toString maxSize)]
  | registered waiter | cancelled waiter => [("pool", pool), ("waiter", toString waiter)]
  | timedOut limit => [("pool", pool), ("timeout", limit.text)]
  | checkedIn slot | detached slot | discarding slot | closed slot | created slot =>
      [("pool", pool), ("slot", toString slot)]
  | closeFailed slot cause =>
      [("pool", pool), ("slot", toString slot), ("error", cause.message)]
  | creationFailed slot waiter cause =>
      [("pool", pool), ("slot", toString slot), ("waiter", toString waiter),
        ("error", cause.message)]
  | dispatching slot waiter | wentAway slot waiter =>
      [("pool", pool), ("slot", toString slot), ("waiter", toString waiter)]
  | closing => [("pool", pool)]
  | closedWithErrors failed => [("pool", pool), ("failed", toString failed)]
  | made id slot => [("id", toString id), ("slot", toString slot)]
  | notLent slot state | notIdle slot state =>
      [("pool", pool), ("slot", toString slot), ("state", state.name)]

end LogEntry
end ResourcePool
