import ResourcePool.Machine.Operations

/-!
One step of the pool at work, and working until nothing is left to be done.
-/

namespace ResourcePool.Machine

variable {σ : Type}

def exec (e : Environment σ) (m : Machine σ) : Activity → Machine σ
  | .perform op => m.perform e op
  | .finish before => (m.note (.nested m.reply m.status?)).answer before
  | .say r => m.answer r
  | .release => m.release
  | .teardown => m.teardown
  | .acquire purpose => m.request purpose
  | .acquired a purpose => m.requested a purpose
  | .put h x => m.put h x
  | .quit a => (m.push [.hangUp a.waiter]).withdraw a
  | .hangUp waiter => m.hangUp waiter
  | .abandon t => m.withPool (m.pool.abandon t.waiter)
  | .giveBack i => m.giveBack i
  | .trigger => m.trigger
  | .again n => m.again n
  | .round n inHand => m.round n inHand
  | .search n view => m.seek n view
  | .call c => m.call e c
  | .answer c => m.answered e c
  | .task t => m.runTask t
  | .deliver t => m.complete t (.ok t.item)
  | .refuse t => m.complete t (.error .closed)
  | .wentAway slot waiter => m.log (.wentAway slot waiter)
  | .ran => { m with counts := m.counts.finish }
  | .flush who failures => m.flush who failures
  | .report failures => m.report failures
  | .timedOut limit => (m.log (.timedOut limit)).answer (.poll (.failed (.timedOut limit)))
  | .awaited h => m.awaited h
  | .collect h rest seen => m.collect h rest seen
  | .runNext left labels => m.runNext left labels
  | .turn => m.turn
  | .thread _ => m
  | .launched => m.launched
  | .joined => m.joined

/-- One step; a machine with nothing to do stays as it is. -/
def step (e : Environment σ) (m : Machine σ) : Machine σ :=
  match m.stack with
  | [] => m
  | a :: rest => { m with stack := rest }.exec e a

def steps (e : Environment σ) : Nat → Machine σ → Machine σ
  | 0, m => m
  | n + 1, m => if m.stack.isEmpty then m else steps e n (m.step e)

/-- Operations that are still to be carried out, those of later calls included. -/
def pendingOps {e : Environment σ} (b : Budget e) (m : Machine σ) : Nat :=
  b.ops m.env + m.activities.countP fun
    | .perform _ => true
    | _ => false

/-- Everything that may have to be moved before the machine comes to rest. -/
def load (m : Machine σ) : Nat :=
  m.activities.length + m.handles.entries.length + m.tasks.length + m.pool.registry.size +
    m.pool.returned.length + m.pool.waiters.length + m.pool.triggers

/-- More steps than the machine takes to come to rest. -/
def fuel {e : Environment σ} (b : Budget e) (m : Machine σ) : Nat :=
  256 * (m.pendingOps b + 1) * (m.pendingOps b + m.load + 1)

/-- Works until nothing is left to be done. -/
def settle {e : Environment σ} (b : Budget e) (m : Machine σ) : Machine σ :=
  m.steps e (m.fuel b)

end ResourcePool.Machine
