import ResourcePool.Text.Record

/-!
Where deliveries run, and the counts kept of them.
-/

namespace ResourcePool

/-- What runs tasks away from the caller. -/
inductive Runner
  /-- One event loop on one thread: tasks run in order when the loop is driven. -/
  | runtime
  /-- A new thread for each task. -/
  | threads
  deriving DecidableEq

namespace Runner

def written : Runner → String
  | runtime => Text.record "TokioScheduler" [("runtime", "CurrentThread")]
  | threads => Text.record "ThreadScheduler" [("_private", "()")]

/-- The loop that the caller runs in, if any. -/
def current? (inRuntime : Bool) : Option Runner :=
  if inRuntime then some runtime else none

/-- What a pool uses when it is given nothing: the caller's loop, else threads. -/
def default (inRuntime : Bool) : Runner :=
  (current? inRuntime).getD threads

end Runner

inductive Dispatcher
  /-- Tasks are queued and run when asked for, one by one. -/
  | manual
  /-- Tasks run at once, inside the call that schedules them. -/
  | inline
  | runner (r : Runner)
  deriving DecidableEq

structure Scheduler where
  dispatcher : Dispatcher := .manual
  /-- Scheduled tasks are counted and reported. -/
  watched : Bool := true
  deriving DecidableEq

structure DispatchCounts where
  scheduled : Nat := 0
  completed : Nat := 0
  /-- Tasks that ran on the thread that scheduled them. -/
  ranInline : Nat := 0
  deriving DecidableEq

namespace DispatchCounts

def schedule (c : DispatchCounts) : DispatchCounts :=
  { c with scheduled := c.scheduled + 1 }

def begin (c : DispatchCounts) (onScheduling : Bool) : DispatchCounts :=
  if onScheduling then { c with ranInline := c.ranInline + 1 } else c

def finish (c : DispatchCounts) : DispatchCounts :=
  { c with completed := c.completed + 1 }

end DispatchCounts

/-- A number of tasks given to a runner and waited for; the task at place `i` adds `i + 1`. -/
structure Trial where
  counts : DispatchCounts := {}
  sum : Nat := 0
  /-- How many threads were noted, one for each task that ran. -/
  threads : Nat := 0

namespace Trial

def schedule (t : Trial) (tasks : Nat) : Trial :=
  { t with counts := (List.range tasks).foldl (fun c _ => c.schedule) t.counts }

def runTask (runner : Runner) (t : Trial) (place : Nat) : Trial where
  counts := (t.counts.begin (runner == .runtime)).finish
  sum := t.sum + (place + 1)
  threads := t.threads + 1

def run (runner : Runner) (t : Trial) : Trial :=
  (List.range t.counts.scheduled).foldl (runTask runner) t

/-- The tasks already complete before the caller waits, where that is certain. -/
def completedBefore (runner : Runner) (t : Trial) : Option Nat :=
  if runner = .runtime then some t.counts.completed else none

end Trial
end ResourcePool
