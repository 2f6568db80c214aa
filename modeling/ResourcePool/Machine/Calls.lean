import ResourcePool.Machine.Lending

/-!
Calls to the surroundings: what is shown when a call begins, and how work goes on with the answer.
-/

namespace ResourcePool

def Call.moment : Call → Moment
  | create _ _ r => .create r.slot
  | validate i _ => .validate i.resource.id
  | close i _ => .close i.resource.id
  | schedule t => .schedule t.label

namespace Machine

variable {σ : Type}

/-- The operations to carry out during a call, each with its end. -/
def nested (before : Reply) (ops : List Op) : List Activity :=
  ops.flatMap fun op => [.perform op, .finish before]

/-- A call that the surroundings see: they may ask for operations before they answer. -/
def announce (e : Environment σ) (m : Machine σ) (c : Call) : Machine σ :=
  let entered := e.enter c.moment m.env
  let m := { m with env := entered.2 }.note (.called c.moment)
  m.push (nested m.reply entered.1 ++ [.answer c])

def call (e : Environment σ) (m : Machine σ) (c : Call) : Machine σ :=
  match c with
  | .schedule _ =>
      let m := { m with counts := m.counts.schedule }
      if m.scheduler.watched then m.announce e c else m.push [.answer c]
  | _ => m.announce e c

/-- The other thread stops at a call for a new resource; the main thread goes on without it. -/
def hold (e : Environment σ) (m : Machine σ) (c : Call) : Machine σ :=
  let above := m.stack.takeWhile fun a => !a.isThread
  let rest := m.stack.drop above.length
  { m with
    env := e.tell .hold m.env
    stack := rest.drop 1
    background := .held
    paused := .answer c :: above ++ rest.take 1 ++ m.paused }

/-- The answer to a call for a new resource. A failure is told to the waiter for whom it was made,
and the slot stays free. -/
def created (e : Environment σ) (m : Machine σ) (answered waiter : Nat) (r : Reservation) :
    Machine σ :=
  match e.create r.slot m.env with
  | (none, env) =>
      let i : Item := { slot := r.slot, resource := { id := m.made, slot := r.slot } }
      let m := { m with env, made := m.made + 1 }.log (.made m.made r.slot)
      let m := (m.note (.created i.resource.id)).withPool (m.pool.occupy r)
      ((m.log (.created r.slot)).push [.round answered none]).lend waiter i
  | (some cause, env) =>
      let m := { m with env }.note .createFailed
      let m := m.withPool (m.pool.unreserve r)
      let m := m.log (.creationFailed r.slot waiter cause)
      (m.withPool (m.pool.complete waiter (.error (.creationFailed r.slot cause))).2).push
        [.round answered none]

def validated (e : Environment σ) (m : Machine σ) (i : Item) (check : Check) : Machine σ :=
  let answer := e.validate i.resource m.env
  let m := { m with env := answer.2 }.note (.valid answer.1)
  match check, answer.1 with
  | .checkout answered view, true => m.handOut answered view i
  | .checkin, true =>
      ((m.log (.checkedIn i.slot)).withPool (m.pool.pushReturned i)).push [.trigger]
  | check, false => m.discard i check

/-- What is noted of a closed resource. -/
def noteClosed (m : Machine σ) (slot : Nat) : Option Failure → Machine σ
  | none => m.log (.closed slot)
  | some cause => m.log (.closeFailed slot cause)

/-- What is noted of a closing only if it failed. -/
def noteFailure (m : Machine σ) (slot : Nat) : Option Failure → Machine σ
  | none => m
  | some cause => m.log (.closeFailed slot cause)

def closed (e : Environment σ) (m : Machine σ) (i : Item) (why : Closing) : Machine σ :=
  let answer := e.close i.resource m.env
  let m := { m with env := answer.2 }.note (if answer.1.isNone then .closed else .closeFailed)
  match why with
  | .invalid check =>
      let m := m.noteFailure i.slot answer.1
      (m.withPool (m.pool.vacate i.slot)).proceed check
  | .misfit => m.noteFailure i.slot answer.1
  | .inHand | .teardown => m.noteClosed i.slot answer.1
  | .flush who failures =>
      let failed := answer.1.toList.map fun cause => { slot := i.slot, cause }
      (m.noteClosed i.slot answer.1).push [.flush who (failures ++ failed)]

def scheduled (m : Machine σ) (t : Task) : Machine σ :=
  if m.scheduler.dispatcher = .inline then m.push [.task t]
  else { m with tasks := m.tasks ++ [t] }

def answered (e : Environment σ) (m : Machine σ) (c : Call) : Machine σ :=
  match c with
  | .create answered waiter r =>
      if m.background.holdsBack then m.hold e c else m.created e answered waiter r
  | .validate i check => m.validated e i check
  | .close i why => m.closed e i why
  | .schedule t => m.scheduled t

end Machine
end ResourcePool
