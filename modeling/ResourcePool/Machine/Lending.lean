import ResourcePool.Machine.Basic

/-!
Matching waiters with resources, and the ways a resource comes back or leaves the pool. Each
function carries out one activity.
-/

namespace ResourcePool.Machine

variable {σ : Type}

/-- Hands an idle resource on to a claimed waiter, by way of the scheduler. -/
def lend (m : Machine σ) (waiter : Nat) (i : Item) : Machine σ :=
  let m := match m.pool.lend? i.slot with
    | some p => m.withPool p
    | none => m.log (.notIdle i.slot (m.pool.slot i.slot).state)
  let m := m.log (.dispatching i.slot waiter)
  m.push [.call (.schedule {
    label := m.counts.scheduled, waiter, item := i, thread := m.currentThread })]

/-- Chooses a waiter for the resource in hand. If the chosen one is out of the race, the resource
stays in hand for the next choice. -/
def handOut (m : Machine σ) (answered : Nat) (view : List Nat) (i : Item) : Machine σ :=
  match m.pool.pick view with
  | (some waiter, p) => ((m.withPool p).push [.round answered none]).lend waiter i
  | (none, p) => (m.withPool p).push [.round answered (some i)]

/-- Chooses a waiter for a slot to be filled, and asks for a resource on its behalf. -/
def fill (m : Machine σ) (answered : Nat) (view : List Nat) (r : Reservation) : Machine σ :=
  match m.pool.pick view with
  | (some waiter, p) => (m.withPool p).push [.call (.create answered waiter r)]
  | (none, p) => (m.withPool (p.unreserve r)).push [.round answered none]

/-- Looks for something to hand out: first what came back, then a slot to fill. -/
def seek (m : Machine σ) (answered : Nat) (view : List Nat) : Machine σ :=
  match m.pool.popReturned? with
  | some (i, p) =>
      if p.config.testOnCheckout then
        (m.withPool p).push [.call (.validate i (.checkout answered view))]
      else (m.withPool p).handOut answered view i
  | none =>
      match m.pool.reserve? with
      | some (r, p) => (m.withPool p).fill answered view r
      | none => m.push [.again answered]

def shut (m : Machine σ) (i : Item) (why : Closing) : Machine σ :=
  (m.withPool (m.pool.setState i.slot .closed)).push [.call (.close i why)]

def discard (m : Machine σ) (i : Item) (check : Check) : Machine σ :=
  (m.log (.discarding i.slot)).push [.call (.close i (.invalid check))]

/-- Goes on after a check: the matching looks further, the holder's return calls for matching. -/
def proceed (m : Machine σ) : Check → Machine σ
  | .checkout answered view => m.push [.search answered view]
  | .checkin => m.push [.trigger]

/-- One round of the matching loop, which reads the closed flag and the line anew. -/
def round (m : Machine σ) (answered : Nat) (inHand : Option Item) : Machine σ :=
  if m.pool.closed then
    let m := m.push [.flush .matcher [], .again answered]
    match inHand with
    | some i => m.shut i .inHand
    | none => m
  else
    match m.pool.registry.entries, inHand with
    | [], some i => (m.withPool (m.pool.pushReturned i)).push [.again answered]
    | [], none => m.push [.again answered]
    | view, some i => m.handOut answered view i
    | view, none => m.seek answered view

/-- Starts matching, unless it goes on already and will notice this call. -/
def trigger (m : Machine σ) : Machine σ :=
  let m' := m.withPool { m.pool with triggers := m.pool.triggers + 1 }
  if m.pool.triggers = 0 then m'.push [.round 1 none] else m'

/-- Matching ends when no call for it came since the last round began. -/
def again (m : Machine σ) (answered : Nat) : Machine σ :=
  let left := m.pool.triggers - answered
  let m := m.withPool { m.pool with triggers := left }
  if left = 0 then m else m.push [.round left none]

def giveBack (m : Machine σ) (i : Item) : Machine σ :=
  match m.pool.takeBack? i.slot with
  | none =>
      (m.log (.notLent i.slot (m.pool.slot i.slot).state)).push [.call (.close i .misfit)]
  | some p =>
      let m := m.withPool p
      if p.config.testOnCheckin then m.push [.call (.validate i .checkin)]
      else ((m.log (.checkedIn i.slot)).withPool (p.pushReturned i)).push [.trigger]

/-- Empties the queue of idle resources; then everybody in line learns that the pool is closed. -/
def flush (m : Machine σ) (who : Flusher) (failures : List CloseFailure) : Machine σ :=
  match m.pool.popReturned? with
  | some (i, p) => (m.withPool p).shut i (.flush who failures)
  | none =>
      let m := m.withPool m.pool.dismissAll
      match who with
      | .closer => m.push [.trigger, .report failures]
      | .matcher => m

def teardown (m : Machine σ) : Machine σ :=
  match m.pool.popReturned? with
  | some (i, p) => ((m.withPool p).push [.teardown]).shut i .teardown
  | none => m

/-- Takes the pool down when its last reference is gone. -/
def release (m : Machine σ) : Machine σ :=
  if m.isReferenced || m.torn then m
  else { m with torn := true }.push [.teardown]

def withdraw (m : Machine σ) (a : Acquire) : Machine σ :=
  if a.attached then
    match m.pool.cancel? a.waiter with
    | some p => ((m.withPool p).log (.cancelled a.waiter)).push [.trigger]
    | none => m
  else m

/-- The listener of a waiter leaves; a resource that was already sent to it goes back. -/
def hangUp (m : Machine σ) (waiter : Nat) : Machine σ :=
  match m.pool.hangUp waiter with
  | (some (.ok i), p) => (m.withPool p).push [.giveBack i, .release]
  | (_, p) => m.withPool p

/-- Sends the outcome of a delivery. If nobody listens any more, the resource goes back. -/
def complete (m : Machine σ) (t : Task) (o : Outcome) : Machine σ :=
  match m.pool.complete t.waiter o with
  | (none, p) => m.withPool p
  | (some (.ok i), p) =>
      (m.withPool p).push [.giveBack i, .release, .wentAway t.item.slot t.waiter]
  | (some (.error _), p) => (m.withPool p).push [.wentAway t.item.slot t.waiter]

/-- Runs a delivery. In a closed pool the resource goes back instead. -/
def runTask (m : Machine σ) (t : Task) : Machine σ :=
  let sameThread := t.thread == m.currentThread && m.scheduler.dispatcher != .runner .threads
  let m := { m with counts := m.counts.begin sameThread }
  if m.pool.closed then
    m.push [.giveBack t.item, .refuse t, .release, .ran]
  else m.push [.deliver t, .release, .ran]

/-- What is still to be done when a holder lets go of what it holds. -/
def dropHandle : Handle → List Activity
  | .acquire a | .get (.waiting a _) => [.quit a, .release]
  | .get .unstarted => [.release]
  | .guard i => [.giveBack i, .release]
  | .detached _ => []

/-- Puts something under a number; what was there is dropped. -/
def put (m : Machine σ) (h : Nat) (x : Handle) : Machine σ :=
  let old := m.handles.get? h
  { m with handles := m.handles.insert h x }.push (old.toList.flatMap dropHandle)

end ResourcePool.Machine
