import ResourcePool.Bench.Hooks
import ResourcePool.Machine.Step

/-!
A pool in use from outside, one operation after the other. On threads, everything that was scheduled
runs to its end before the next operation.
-/

namespace ResourcePool

/-- What one operation showed. -/
structure Turnout where
  reply : Reply
  /-- As the holder of the main handle sees it. -/
  status : Option Status
  /-- In the order in which they happened. -/
  events : List Event

namespace Machine

variable {σ : Type}

/-- A new pool, if the configuration is usable. -/
def build (c : Config) (scheduler : Scheduler) (env : σ) : Except PoolError (Machine σ) :=
  match c.validate with
  | .error e => .error e
  | .ok _ =>
      .ok (({ scheduler, pool := .ofConfig c, env } : Machine σ).log (.poolCreated c.maxSize))

/-- Tasks on threads run while nobody waits for them. -/
def settleThreads {e : Environment σ} (b : Budget e) (m : Machine σ) : Machine σ :=
  if m.scheduler.dispatcher = .runner .threads then (m.push [.turn]).settle b else m

/-- The machine when the operation itself has come to its end. -/
def performed {e : Environment σ} (b : Budget e) (m : Machine σ) (op : Op) : Machine σ :=
  (m.push [.perform op]).settle b

def eventsSince (m : Machine σ) (n : Nat) : List Event :=
  (m.trace.take (m.trace.length - n)).reverse

/-- Carries out operations from outside. The events since there were `n` belong to the first. -/
def session {e : Environment σ} (b : Budget e) (m : Machine σ) (n : Nat) :
    List Op → List Turnout × Machine σ
  | [] => ([], m)
  | op :: rest =>
      let m := m.performed b op
      let reply := m.reply
      let m := m.settleThreads b
      let later := m.session b m.trace.length rest
      ({ reply, status := m.status?, events := m.eventsSince n } :: later.1, later.2)

def queued (m : Machine σ) : Nat :=
  if m.scheduler.dispatcher = .manual then m.tasks.length else 0

/-- The slots as the holder of the main handle sees them. -/
def slots? (m : Machine σ) : Option (List (Nat × Slot)) :=
  if m.mainHandle then some m.pool.slotList else none

end Machine
end ResourcePool
