import ResourcePool.Duration
import ResourcePool.Text.Quoted
import ResourcePool.Text.Record

/-!
What can go wrong with a pool, and how each error reads. An error of the pool's surroundings is
known only by what it shows: its message, its written form and the messages of its own sources.
-/

namespace ResourcePool

/-- An error from outside the pool. -/
structure Failure where
  message : String
  written : String
  sources : List String := []
  deriving DecidableEq

def Failure.ofText (text : String) : Failure where
  message := text
  written := Text.quoted text

/-- A resource that could not be closed. -/
structure CloseFailure where
  slot : Nat
  cause : Failure
  deriving DecidableEq

namespace CloseFailure

def message (f : CloseFailure) : String :=
  s!"failed to close resource in slot {f.slot}: " ++ f.cause.message

def written (f : CloseFailure) : String :=
  Text.record "ResourceCloseError" [("slot", toString f.slot), ("source", f.cause.written)]

/-- One line for all failures of one closing. -/
def summary (fs : List CloseFailure) : String :=
  s!"{fs.length} resource(s) failed to close"

end CloseFailure

inductive PoolError
  /-- The resource for a slot could not be created. -/
  | creationFailed (slot : Nat) (cause : Failure)
  | closed
  | cancelled
  | timedOut (limit : Duration)
  | invalidConfig (problem : String)
  /-- Resources that failed to close, in the order they were closed. -/
  | closeFailed (failures : List CloseFailure)
  deriving DecidableEq

namespace PoolError

def message : PoolError → String
  | creationFailed slot cause => s!"failed to create resource for slot {slot}: " ++ cause.message
  | closed => "pool is closed"
  | cancelled => "acquire was cancelled"
  | timedOut limit => "resource acquisition timeout after " ++ limit.text
  | invalidConfig problem => "pool configuration error: " ++ problem
  | closeFailed failures => "pool close completed with errors: " ++ CloseFailure.summary failures

def written : PoolError → String
  | creationFailed slot cause =>
      Text.record "CreationFailed" [("slot", toString slot), ("source", cause.written)]
  | closed => "PoolClosed"
  | cancelled => "Cancelled"
  | timedOut limit => Text.wrapped "AcquisitionTimeout" limit.text
  | invalidConfig problem => Text.wrapped "Configuration" (Text.quoted problem)
  | closeFailed failures =>
      Text.wrapped "ResourceClose"
        (Text.wrapped "CloseErrors" (Text.list (failures.map CloseFailure.written)))

/-- The messages of what led to the error, nearest first. -/
def sources : PoolError → List String
  | creationFailed _ cause => cause.message :: cause.sources
  | closeFailed failures => [CloseFailure.summary failures]
  | _ => []

/-- The pool can serve nobody any more. -/
def isClosed : PoolError → Bool
  | closed => true
  | _ => false

/-- A later request may succeed. -/
def isTransient : PoolError → Bool
  | creationFailed .. | cancelled | timedOut _ => true
  | _ => false

/-- A pool's error, seen from another pool. -/
def toFailure (e : PoolError) : Failure where
  message := e.message
  written := e.written
  sources := e.sources

end PoolError
end ResourcePool
