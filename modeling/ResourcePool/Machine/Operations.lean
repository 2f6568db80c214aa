import ResourcePool.Machine.Calls

/-!
Carrying out operations. An operation that has to wait for other work leaves behind what remains of
it; the reply is set when nothing remains.
-/

namespace ResourcePool.Machine

variable {σ : Type}

def refuse (m : Machine σ) (r : Refusal) : Machine σ :=
  m.answer (.refused r)

/-- Operations on the pool need the main handle. -/
def onPool (m : Machine σ) (f : Machine σ → Machine σ) : Machine σ :=
  if m.mainHandle then f m else m.refuse .noPool

def take (m : Machine σ) (h : Nat) : Machine σ :=
  { m with handles := m.handles.erase h }

def setHandle (m : Machine σ) (h : Nat) (x : Handle) : Machine σ :=
  { m with handles := m.handles.insert h x }

def request (m : Machine σ) (purpose : Purpose) : Machine σ :=
  let waiter := m.pool.nextWaiter
  if m.pool.closed then
    (m.withPool m.pool.turnAway).push [.acquired { waiter, attached := false } purpose]
  else
    ((m.withPool m.pool.enroll).log (.registered waiter)).push
      [.trigger, .acquired { waiter, attached := true } purpose]

/-- What a listener sees: nothing yet, or how its request ended. -/
def look (m : Machine σ) (waiter : Nat) : Option Outcome × Machine σ :=
  match m.pool.receive waiter with
  | (.empty, _) => (none, m)
  | (.value o, p) => (some o, m.withPool p)
  | (.closed, p) => (some (.error .cancelled), m.withPool p)

def pollReply : Outcome → Reply
  | .ok i => .poll (.ready i.resource.id i.resource.slot)
  | .error e => .poll (.failed e)

/-- When a request that starts waiting now gives up. -/
def deadline (m : Machine σ) : Option Deadline :=
  m.pool.config.acquireTimeout.bind fun limit =>
    if limit.fitsClock then some { time := m.clock + limit.ceilMillis, limit } else none

/-- The first poll of a request that starts when polled. -/
def firstPoll (m : Machine σ) (h : Nat) (a : Acquire) : Machine σ :=
  match m.look a.waiter with
  | (none, m) =>
      m.push [.put h (.get (.waiting a m.deadline)), .say (.poll .pending)]
  | (some (.ok i), m) => m.push [.put h (.guard i), .say (pollReply (.ok i))]
  | (some (.error e), m) => m.answer (pollReply (.error e))

/-- A request has been made and its first matching is over. -/
def requested (m : Machine σ) (a : Acquire) : Purpose → Machine σ
  | .handle h => m.push [.put h (.acquire a), .say .nothing]
  | .get h => m.firstPoll h a
  | .background h => { m with background := .done h a }

def resolve (m : Machine σ) (h : Nat) (o : Outcome) : Machine σ :=
  match o with
  | .ok i => (m.setHandle h (.guard i)).answer (pollReply o)
  | .error _ => ((m.take h).answer (pollReply o)).push [.release]

def expire (m : Machine σ) (h : Nat) (a : Acquire) (limit : Duration) : Machine σ :=
  (m.take h).push [.quit a, .timedOut limit, .release]

/-- An outcome that is there wins over a time that is over. -/
def poll (m : Machine σ) (h : Nat) : Machine σ :=
  match m.handles.get? h with
  | none => m.answer (.poll .noHandle)
  | some (.acquire a) =>
      match m.look a.waiter with
      | (none, m) => m.answer (.poll .pending)
      | (some o, m) => m.resolve h o
  | some (.get (.waiting a deadline)) =>
      match m.look a.waiter with
      | (some o, m) => m.resolve h o
      | (none, m) =>
          match deadline with
          | some d =>
              if d.time ≤ m.clock then m.expire h a d.limit else m.answer (.poll .pending)
          | none => m.answer (.poll .pending)
  | some (.get .unstarted) => (m.take h).push [.acquire (.get h), .release]
  | some (.guard _) | some (.detached _) => m.answer (.poll .notPending)

def pollEach (m : Machine σ) (seen : List (Nat × Poll)) : List Nat → Machine σ
  | [] => m.answer (.polls seen)
  | h :: rest => m.push [.perform (.poll h), .collect h rest seen]

def collect (m : Machine σ) (h : Nat) (rest : List Nat) (seen : List (Nat × Poll)) : Machine σ :=
  let found := match m.reply with
    | .poll p => p
    | _ => .noHandle
  m.pollEach (seen ++ [(h, found)]) rest

/-- Waits for what is queued if there is nothing yet. -/
def awaited (m : Machine σ) (h : Nat) : Machine σ :=
  match m.reply, m.scheduler.dispatcher with
  | .poll .pending, .runner _ => m.push [.turn, .perform (.poll h)]
  | _, _ => m

def cancel (m : Machine σ) (h : Nat) (a : Acquire) : Machine σ :=
  let pending := a.attached && (m.pool.cancel? a.waiter).isSome
  let m := (m.take h).push
    [.put h (.acquire { a with attached := false }), .say (.flag pending), .release]
  m.withdraw a

def detach (m : Machine σ) (h : Nat) (i : Item) : Machine σ :=
  let m := (m.take h).log (.detached i.slot)
  (m.withPool (m.pool.vacate i.slot)).push
    [.trigger, .release, .put h (.detached i.resource),
      .say (.resource i.resource.id i.resource.slot)]

def onResource (m : Machine σ) (h : Nat) (f : Handle → Resource → Machine σ) : Machine σ :=
  match m.handles.get? h with
  | none => m.refuse .noHandle
  | some x =>
      match x.resource? with
      | some r => f x r
      | none => m.refuse .notPooled

def execute (m : Machine σ) (h : Nat) (statement : String) : Machine σ :=
  m.onResource h fun x r =>
    match r.execute statement with
    | .ok (n, r') => (m.setHandle h (x.setResource r')).answer (.number n)
    | .error f => m.answer (.fault f)

def writtenAcquire (m : Machine σ) (a : Acquire) : String :=
  let waiter := if a.attached then m.pool.waiter? a.waiter else none
  Text.record "Acquire" [
    ("pool", Text.quoted m.pool.config.name),
    ("waiter", Text.optional (waiter.map Waiter.written))]

def writtenGuard (i : Item) : String :=
  Text.record "Pooled" [
    ("slot", toString i.slot),
    ("resource", Text.optional (some i.resource.written))]

def describe (m : Machine σ) (h : Nat) : Machine σ :=
  match m.handles.get? h with
  | none => m.refuse .noHandle
  | some (.acquire a) => m.answer (.text (m.writtenAcquire a))
  | some (.get _) => m.refuse .notPooled
  | some (.guard i) => m.answer (.text (writtenGuard i))
  | some (.detached r) => m.answer (.text r.written)

/-- Runs queued tasks, oldest first, also those queued meanwhile. -/
def runNext (m : Machine σ) (left : Option Nat) (labels : List Nat) : Machine σ :=
  match left, m.tasks with
  | some 0, _ | _, [] => m.answer (.labels labels)
  | left, t :: rest =>
      { m with tasks := rest }.push
        [.task t, .runNext (left.map (· - 1)) (labels ++ [t.label])]

def turn (m : Machine σ) : Machine σ :=
  match m.tasks with
  | [] => m
  | t :: rest => { m with tasks := rest }.push [.task t, .turn]

/-- The event loop runs everything that is queued. -/
def drive (m : Machine σ) : Machine σ :=
  m.push [.turn, .say .nothing]

def run (m : Machine σ) (limit : Option Nat) : Machine σ :=
  match m.scheduler.dispatcher with
  | .manual => m.runNext limit []
  | .runner .runtime => if m.inTurn then m.refuse .nested else m.drive
  | _ => m.answer .nothing

def advance (m : Machine σ) (ms : Nat) : Machine σ :=
  let later := { m with clock := m.clock + ms }
  match m.scheduler.dispatcher with
  | .runner .runtime => if m.inTurn then m.refuse .nested else later.drive
  | _ => later.answer .nothing

/-- Takes a task out of the queue by its place; only queued tasks that wait to be run one by one
can be taken. -/
def onTask (m : Machine σ) (place : Nat) (f : Machine σ → Task → Machine σ) : Machine σ :=
  match m.scheduler.dispatcher, m.tasks[place]? with
  | .manual, some t => f { m with tasks := m.tasks.eraseIdx place } t
  | _, _ => m.refuse .noTask

def close (m : Machine σ) : Machine σ :=
  if m.pool.closed then m.answer .ok
  else
    let m := (m.withPool { m.pool with closed := true }).log .closing
    m.push [.flush .closer [], .release]

def report (m : Machine σ) (failures : List CloseFailure) : Machine σ :=
  if failures.isEmpty then m.answer .ok
  else (m.log (.closedWithErrors failures.length)).answer (.failed (.closeFailed failures))

/-- A request on another thread. It runs until it is over or waits for a new resource. -/
def launch (m : Machine σ) (h : Nat) : Machine σ :=
  match m.background with
  | .absent =>
      { m with background := .running }.push
        [.acquire (.background h), .release, .thread m.pool.nextWaiter, .launched]
  | _ => m.refuse .busy

def launched (m : Machine σ) : Machine σ :=
  match m.background with
  | .held => m.answer .held
  | _ => m.answer .done

def join (e : Environment σ) (m : Machine σ) : Machine σ :=
  match m.background with
  | .held =>
      let rest := m.paused
      let m := { m with env := e.tell .resume m.env, background := .resumed, paused := [] }
      m.push (rest ++ [.joined])
  | .done .. => m.push [.joined]
  | _ => m.refuse .noThread

/-- What the other thread asked for is handed over. -/
def joined (m : Machine σ) : Machine σ :=
  match m.background with
  | .done h a => { m with background := .absent }.push [.put h (.acquire a), .say .nothing]
  | _ => m.refuse .noThread

/-- A handle that is to be made must not be in use. -/
def onFree (m : Machine σ) (h : Nat) (f : Machine σ → Machine σ) : Machine σ :=
  m.onPool fun m => if m.handles.contains h then m.refuse .handleTaken else f m

/-- One reference of the owner is given up. -/
def letGo (m : Machine σ) : Machine σ :=
  m.push [.release, .say (.flag true)]

def perform (e : Environment σ) (m : Machine σ) (op : Op) : Machine σ :=
  match op with
  | .acquire h => m.onFree h fun m => m.push [.acquire (.handle h), .release]
  | .get h => m.onFree h fun m => (m.setHandle h (.get .unstarted)).answer .nothing
  | .poll h => m.poll h
  | .await h => m.push [.perform (.poll h), .awaited h]
  | .pollAll =>
      m.pollEach [] ((m.handles.entries.filter fun e => e.2.isPending).map Prod.fst)
  | .cancel h =>
      match m.handles.get? h with
      | none => m.refuse .noHandle
      | some (.acquire a) => m.cancel h a
      | some _ => m.refuse .notAcquire
  | .drop h =>
      match m.handles.get? h with
      | none => m.refuse .noHandle
      | some x => (m.take h).push (dropHandle x ++ [.say .nothing])
  | .checkin h => m.onPool fun m =>
      match m.handles.get? h with
      | none => m.refuse .noHandle
      | some (.guard i) => (m.take h).push (dropHandle (.guard i) ++ [.say .nothing])
      | some _ => m.refuse .notPooled
  | .detach h =>
      match m.handles.get? h with
      | none => m.refuse .noHandle
      | some (.guard i) => m.detach h i
      | some _ => m.refuse .notPooled
  | .execute h statement => m.execute h statement
  | .executed h => m.onResource h fun _ r => m.answer (.statements r.executed)
  | .info h =>
      match m.handles.get? h with
      | none => m.refuse .noHandle
      | some (.guard i) => m.answer (.slot i.slot (m.pool.slot i.slot))
      | some _ => m.refuse .notPooled
  | .describe h => m.describe h
  | .invalidateHeld h =>
      match m.handles.get? h with
      | some (.guard i) =>
          { m with env := e.tell (.invalidate i.resource.id) m.env }.answer
            (.number i.resource.id)
      | _ => m.refuse .notPooled
  | .tell n => { m with env := e.tell n m.env }.answer .nothing
  | .run limit => m.run limit
  | .runAt place =>
      m.onTask place fun m t => m.push [.task t, .say (.number t.label)]
  | .dropTask place =>
      m.onTask place fun m t =>
        m.push [.giveBack t.item, .abandon t, .release, .say (.number t.label)]
  | .advance ms => m.advance ms
  | .dispatchCounts =>
      if m.scheduler.watched then m.answer (.dispatchCounts m.counts) else m.refuse .noCounter
  | .factoryCounts => m.answer (.factoryCounts (e.counts m.env))
  | .close => m.onPool close
  | .isClosed => m.onPool fun m => m.answer (.flag m.pool.closed)
  | .status => m.onPool fun m => m.answer (.status m.pool.status)
  | .slots => m.onPool fun m => m.answer (.slots m.pool.slotList)
  | .config => m.onPool fun m => m.answer (.config m.pool.config)
  | .describePool => m.onPool fun m => m.answer (.text m.pool.written)
  | .factoryCreated => m.onPool fun m => m.answer (.number (e.counts m.env).created)
  | .clone => m.onPool fun m => { m with clones := m.clones + 1 }.answer .nothing
  | .dropClone =>
      if m.clones = 0 then m.answer (.flag false)
      else { m with clones := m.clones - 1 }.letGo
  | .dropPool =>
      if m.mainHandle then { m with mainHandle := false }.letGo else m.answer (.flag false)
  | .background h => m.onFree h fun m => m.launch h
  | .join => m.join e

end ResourcePool.Machine
