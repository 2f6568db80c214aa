import ResourcePool.Proofs.Emptied
import ResourcePool.Proofs.Working

/-!
What one delivery comes to when it runs while nothing else is done, its waiter listens, and the
surroundings name no operations. In an open pool the resource is sent to the waiter. In a closed
pool the resource goes back first, and through a check if there is one: what passes is queued,
flushed at once and closed, and its slot with it; what fails is closed, and its slot is free again.
Then the waiter is told that the pool is closed. Either way the rest of the pool is as it was.
-/

namespace ResourcePool

/-- In these states, and in those that a call about a resource leads to, the surroundings name no
operations. -/
structure Environment.Discreet {σ : Type} (e : Environment σ) (P : σ → Prop) : Prop where
  names : ∀ c s, P s → (e.enter c s).1 = []
  enter : ∀ c s, P s → P (e.enter c s).2
  validate : ∀ r s, P s → P (e.validate r s).2
  close : ∀ r s, P s → P (e.close r s).2

/-- The slot of the resource that is delivered. -/
def Task.slot (t : Task) : Nat :=
  t.item.slot

/-- A delivery that ran. A resource that came back is fit unless it failed the check. -/
structure Settlement where
  task : Task
  fit : Bool

namespace Settlement

/-- The state in which a closed pool leaves the slot. -/
def left (d : Settlement) : SlotState :=
  if d.fit then .closed else .uninitialized

/-- The slots of a closed pool that may be filled again. -/
def freed (d : Settlement) : List Nat :=
  if d.fit then [] else [d.task.slot]

end Settlement

/-- What the waiter of a delivery finds. -/
def Task.outcome (t : Task) (closed : Bool) : Outcome :=
  if closed then .error .closed else .ok t.item

namespace Call

/-- The resources that the call passes on for closing. -/
def closings : Call → List Nat
  | close i _ => [i.resource.id]
  | _ => []

/-- The call asks about a resource or passes it on for closing. -/
def isAboutResource : Call → Bool
  | validate _ _ | close _ _ => true
  | _ => false

end Call

namespace Pool

variable {p : Pool} {s : Nat}

/-- A waiter who listens is sent an outcome. -/
def send (p : Pool) (w : Nat) (o : Outcome) : Pool :=
  p.modifyWaiter w fun x => { x with line := .sent o }

/-- The pool after a delivery. -/
def settled (p : Pool) (d : Settlement) : Pool :=
  let told := p.send d.task.waiter (d.task.outcome p.closed)
  if !p.closed then told
  else if d.fit then told.setState d.task.slot .closed else told.vacate d.task.slot

/-- A resource came back, and was retired if it was not fit. -/
def takenBack (p : Pool) (i : Item) (fit : Bool) : Pool :=
  if fit then (p.setState i.slot .idle).pushReturned i else p.vacate i.slot

/-- All idle resources were closed for good. -/
def emptied (p : Pool) : Pool :=
  { p with
    returned := []
    slots := p.returned.foldl (fun ss i => ss.modify i.slot fun s => s.replace .closed) p.slots }

/-- Nothing is left to be done for a closed pool. -/
structure Quiet (p : Pool) : Prop where
  returned : p.returned = []
  line : p.registry.entries = []
  triggers : p.triggers = 0

/-- The resource of the delivery is on loan, and its waiter listens. -/
structure Awaits (p : Pool) (t : Task) : Prop where
  lent : p.Has t.slot .checkedOut
  heard : ∃ x : Waiter Outcome, p.waiters[t.waiter]? = some x ∧ x.listening = true

theorem takeBack?_of_lent (lent : p.Has s .checkedOut) :
    p.takeBack? s = some (p.setState s .idle) := by
  obtain ⟨bound, state⟩ := lent
  have found : p.slots[s]? = some (p.slot s) := by
    rw [slot, List.getD_eq_getElem?_getD, List.getElem?_eq_getElem bound, Option.getD_some]
  have same : p.setState s .idle = p.modifySlot s fun _ => (p.slot s).replace .idle := by
    simp only [setState, modifySlot, List.modify_eq_set_getElem?, found]
    rfl
  rw [takeBack?, Slot.checkin?, Slot.transition?, if_pos state, same]
  rfl

theorem setState_setState (p : Pool) (s : Nat) (a b : SlotState) :
    (p.setState s a).setState s b = p.setState s b := by
  simp only [setState, modifySlot, List.modify_modify_eq]
  rfl

theorem vacate_setState (p : Pool) (s : Nat) (a : SlotState) :
    (p.setState s a).vacate s = p.vacate s := by
  rw [vacate, setState_setState]
  rfl

theorem emptied_of_empty (empty : p.returned = []) : p.emptied = p := by
  rw [emptied, empty, List.foldl_nil, ← empty]

section Quiet

variable (quiet : p.Quiet) (i : Item) (fit : Bool)
include quiet

theorem Quiet.returned_takenBack : (p.takenBack i fit).returned = if fit then [i] else [] := by
  cases fit with
  | true => exact congrArg (fun is => is ++ [i]) quiet.returned
  | false => exact quiet.returned

/-- A resource that comes back to a closed pool with nothing left to be done goes at once. -/
theorem Quiet.emptied_takenBack : (p.takenBack i fit).emptied =
    if fit then p.setState i.slot .closed else p.vacate i.slot := by
  have returned := quiet.returned_takenBack i fit
  cases fit with
  | true =>
      calc (p.takenBack i true).emptied
        _ = { (p.setState i.slot .idle).setState i.slot .closed with returned := [] } := by
            rw [emptied, returned]
            rfl
        _ = { p.setState i.slot .closed with returned := [] } := by
            rw [setState_setState]
        _ = p.setState i.slot .closed := by
            rw [← quiet.returned]
            rfl
  | false => exact emptied_of_empty returned

end Quiet

theorem settled_eq (p : Pool) (d : Settlement) : p.settled d = { p with
    waiters := p.waiters.modify d.task.waiter fun x =>
      { x with line := .sent (d.task.outcome p.closed) }
    slots := if p.closed then p.slots.modify d.task.slot fun s => s.replace d.left
      else p.slots
    vacated := if p.closed then p.vacated ++ d.freed else p.vacated } := by
  obtain ⟨t, fit⟩ := d
  unfold settled
  cases closed : p.closed with
  | false => simp [send, modifyWaiter, closed]
  | true =>
      cases fit <;> simp [send, modifyWaiter, setState, modifySlot, vacate, closed,
        Settlement.left, Settlement.freed]

theorem complete_of_listening {w : Nat} {x : Waiter Outcome} (found : p.waiters[w]? = some x)
    (listening : x.listening = true) (o : Outcome) : p.complete w o = (none, p.send w o) := by
  rw [send, modifyWaiter_eq found]
  simp [complete, waiter?, found, Waiter.complete, listening]

end Pool

namespace Machine

variable {σ : Type} {e : Environment σ} {P : σ → Prop} {below : List Activity}
variable {m n m' : Machine σ} {l k : List (Machine σ)} {ids jds : List Nat}

/-- Some request refers to the pool. -/
def Attended (m : Machine σ) : Prop :=
  (∃ x ∈ m.handles.entries, x.2.refersToPool = true) ∨ ∃ h a, m.background = .done h a

theorem Attended.isReferenced (attended : m.Attended) : m.isReferenced = true := by
  by_contra gone
  have gone := unreferenced_iff.1 (Bool.eq_false_iff.2 gone)
  obtain ⟨x, member, refers⟩ | ⟨h, a, done⟩ := attended
  · exact Bool.false_ne_true ((gone.handles x member).symm.trans refers)
  · exact gone.background h a done

theorem Attended.release (attended : m.Attended) : m.release = m :=
  if_pos (by rw [attended.isReferenced, Bool.true_or])

theorem Apart.attended (apart : m.Apart m') (attended : m.Attended) : m'.Attended := by
  unfold Attended
  rwa [apart.handles, apart.background]

theorem Apart.refl (m : Machine σ) : m.Apart m :=
  ⟨rfl, rfl, rfl, rfl⟩

theorem Apart.trans (first : m.Apart n) (second : n.Apart m') : m.Apart m' :=
  ⟨second.scheduler.trans first.scheduler, second.handles.trans first.handles,
    second.background.trans first.background, second.paused.trans first.paused⟩

/-- On the way from `m` to `m'` only the pool and the surroundings were at work, and these resources
were passed on for closing, the latest first. -/
structure Toils (e : Environment σ) (P : σ → Prop) (below : List Activity) (m : Machine σ)
    (l : List (Machine σ)) (ids : List Nat) (m' : Machine σ) : Prop extends Apart m m' where
  busy : Busy e below m l m'
  holds : P m'.env
  tasks : m'.tasks = m.tasks
  closings : (history e l).closings = ids

/-- The check on its return, if there is one, may find the resource so. -/
def Judges (e : Environment σ) (P : σ → Prop) (m : Machine σ) (i : Item) (fit : Bool) : Prop :=
  ∃ s, P s ∧ fit = (!m.pool.config.testOnCheckin || (e.validate i.resource s).1)

namespace Toils

theorem trans (first : Toils e P below m l ids n) (second : Toils e P below n k jds m') :
    Toils e P below m (k ++ l) (jds ++ ids) m' where
  toApart := first.toApart.trans second.toApart
  busy := first.busy.trans second.busy
  holds := second.holds
  tasks := second.tasks.trans first.tasks
  closings := by
    rw [history_append, ← second.closings, ← first.closings]
    exact List.filterMap_append

variable {a : Activity} {i : Item} (above : List Activity)

theorem one {stack : List Activity} {pool : Pool} {env : σ} {counts : DispatchCounts}
    {trace : List Event} (top : m.stack = a :: (above ++ below))
    (next : m.step e = { m with stack, pool, env, counts, trace }) (holds : P env)
    (closings : History.closings (m.deeds e) = ids) :
    Toils e P below m [m] ids { m with stack, pool, env, counts, trace } :=
  ⟨⟨rfl, rfl, rfl, rfl⟩, next ▸ .one top, holds, rfl, by simpa using closings⟩

/-- A step leads to a call about a resource, which begins. -/
theorem enter (discreet : e.Discreet P) (top : m.stack = a :: (above ++ below))
    (still : History.closings (m.deeds e) = []) {pool : Pool} {env : σ} {trace : List Event}
    {c : Call} (about : c.isAboutResource = true)
    (next : m.step e = { m with pool, env, trace, stack := .call c :: (above ++ below) })
    (holds : P env) :
    ∃ l n, Toils e P below m l c.closings n ∧ n.stack = .answer c :: (above ++ below) ∧
      n.pool = pool := by
  let v : Machine σ := { m with pool, env, trace, stack := .call c :: (above ++ below) }
  have calls : v.step e = ({ v with stack := above ++ below } : Machine σ).announce e c ∧
      History.closings (v.deeds e) = c.closings := by
    cases c with
    | validate _ _ | close _ _ => exact ⟨rfl, rfl⟩
    | create _ _ _ | schedule _ => cases about
  have begins := calls.1.trans (announce_eq (discreet.names c.moment env holds))
  have second : Toils e P below v [v] c.closings _ :=
    .one above rfl begins (discreet.enter _ _ holds) calls.2
  have first : Toils e P below m [m] [] v := .one above top next holds still
  exact ⟨_, _, List.append_nil c.closings ▸ first.trans second, rfl, rfl⟩

/-- A resource on loan comes back, through the check if there is one. -/
theorem takeBack (discreet : e.Discreet P) (holds : P m.env)
    (top : m.stack = .giveBack i :: (above ++ below)) (lent : m.pool.Has i.slot .checkedOut) :
    ∃ l fit n, Toils e P below m l (if fit then [] else [i.resource.id]) n ∧
      n.stack = .trigger :: (above ++ below) ∧ n.pool = m.pool.takenBack i fit ∧
      m.Judges e P i fit := by
  have taken := Pool.takeBack?_of_lent lent
  have still : History.closings (m.deeds e) = [] := by
    rw [deeds, top]
    rfl
  cases tested : m.pool.config.testOnCheckin with
  | false =>
      have next : m.step e = { m with
          pool := m.pool.takenBack i true
          trace := .log (.checkedIn i.slot) :: m.trace
          stack := .trigger :: (above ++ below) } := by
        rw [step, top]
        simp only [exec, giveBack, taken]
        exact if_neg (ne_true_of_eq_false tested)
      exact ⟨_, true, _, .one above top next holds still, rfl, rfl, _, holds, by rw [tested]; rfl⟩
  | true =>
      have next : m.step e = { m with
          pool := m.pool.setState i.slot .idle
          stack := .call (.validate i .checkin) :: (above ++ below) } := by
        rw [step, top]
        simp only [exec, giveBack, taken]
        exact if_pos tested
      obtain ⟨l, u, asks, answers, pool⟩ := enter above discreet top still rfl next holds
      have judged : m.Judges e P i (e.validate i.resource u.env).1 :=
        ⟨u.env, asks.holds, by rw [tested]; rfl⟩
      have holds' := discreet.validate i.resource u.env asks.holds
      have still' : History.closings (u.deeds e) = [] := by
        rw [deeds, answers]
        rfl
      cases valid : (e.validate i.resource u.env).1 with
      | true =>
          have next : u.step e = { u with
              pool := m.pool.takenBack i true
              env := (e.validate i.resource u.env).2
              trace := .log (.checkedIn i.slot) :: .valid true :: u.trace
              stack := .trigger :: (above ++ below) } := by
            rw [step, answers, Pool.takenBack, if_pos rfl, ← pool]
            simp only [exec, answered, validated, valid]
            rfl
          exact ⟨_, true, _, asks.trans (.one above answers next holds' still'), rfl, rfl,
            valid ▸ judged⟩
      | false =>
          have next : u.step e = { u with
              env := (e.validate i.resource u.env).2
              trace := .log (.discarding i.slot) :: .valid false :: u.trace
              stack := .call (.close i (.invalid .checkin)) :: (above ++ below) } := by
            rw [step, answers]
            simp only [exec, answered, validated, valid]
            rfl
          obtain ⟨k, v, closes, answers', pool'⟩ :=
            enter above discreet answers still' rfl next holds'
          have next : ∃ trace, v.step e = { v with
              pool := m.pool.takenBack i false
              env := (e.close i.resource v.env).2
              trace
              stack := .trigger :: (above ++ below) } := by
            rw [step, answers', Pool.takenBack, if_neg Bool.false_ne_true,
              ← Pool.vacate_setState m.pool i.slot .idle, ← pool, ← pool']
            simp only [exec, answered, closed, noteFailure]
            cases (e.close i.resource v.env).1 <;> exact ⟨_, rfl⟩
          obtain ⟨trace, next⟩ := next
          have retires : Toils e P below v [v] [] _ :=
            .one above answers' next (discreet.close i.resource v.env closes.holds)
              (by rw [deeds, answers']; rfl)
          exact ⟨_, false, _, (asks.trans closes).trans retires, rfl, rfl, valid ▸ judged⟩

theorem closings_of_flush {who : Flusher} {fs : List CloseFailure} {rest : List Activity}
    (top : m.stack = .flush who fs :: rest) : History.closings (m.deeds e) = [] := by
  rw [deeds, top]
  simp only [deedsOf]
  split
  · exact List.filterMap_eq_nil_iff.2 fun d inside => by
      obtain ⟨w, _, rfl⟩ := List.mem_map.1 inside
      rfl
  · rfl

/-- The queue of idle resources is emptied, with nobody in line. -/
theorem flush (discreet : e.Discreet P) (holds : P m.env) {fs : List CloseFailure}
    (top : m.stack = .flush .matcher fs :: (above ++ below))
    (line : m.pool.registry.entries = []) :
    ∃ l n, Toils e P below m l (m.pool.returned.map fun i => i.resource.id).reverse n ∧
      n.stack = above ++ below ∧ n.pool = m.pool.emptied := by
  have still := closings_of_flush (e := e) top
  induction queue : m.pool.returned generalizing m fs with
  | nil =>
      have next : m.step e = { m with stack := above ++ below } := by
        rw [step, top]
        simp only [exec, Machine.flush, Pool.popReturned?, queue]
        rw [dismissAll_of_empty line]
        rfl
      exact ⟨_, _, .one above top next holds still, rfl, (Pool.emptied_of_empty queue).symm⟩
  | cons i rest ih =>
      have next : m.step e = { m with
          pool := { m.pool with returned := rest }.setState i.slot .closed
          stack := .call (.close i (.flush .matcher fs)) :: (above ++ below) } := by
        rw [step, top]
        simp only [exec, Machine.flush, Pool.popReturned?, queue]
        rfl
      obtain ⟨l, u, closes, answers, pool⟩ := enter above discreet top still rfl next holds
      have next : ∃ gs trace, u.step e = { u with
          env := (e.close i.resource u.env).2
          trace
          stack := .flush .matcher gs :: (above ++ below) } := by
        rw [step, answers]
        simp only [exec, answered, closed, noteClosed]
        cases (e.close i.resource u.env).1 <;> exact ⟨_, _, rfl⟩
      obtain ⟨gs, trace, next⟩ := next
      have closed : Toils e P below u [u] [] _ :=
        .one above answers next (discreet.close i.resource u.env closes.holds)
          (by rw [deeds, answers]; rfl)
      have returned : u.pool.returned = rest := by
        rw [pool]
        rfl
      obtain ⟨k, n, flushes, stack, emptied⟩ := ih closed.holds rfl (by rw [pool]; exact line)
        (closings_of_flush rfl) returned
      have same : u.pool.emptied = m.pool.emptied := by
        rw [pool, Pool.emptied, Pool.emptied, queue]
        rfl
      refine ⟨k ++ ([u] ++ l), n, ?_, stack, emptied.trans same⟩
      rw [List.map_cons, List.reverse_cons]
      exact (closes.trans closed).trans flushes

/-- A closed pool that is called for matching empties its queue. -/
theorem trigger (discreet : e.Discreet P) (holds : P m.env)
    (top : m.stack = .trigger :: (above ++ below)) (closed : m.pool.closed = true)
    (line : m.pool.registry.entries = []) (triggers : m.pool.triggers = 0) :
    ∃ l n, Toils e P below m l (m.pool.returned.map fun i => i.resource.id).reverse n ∧
      n.stack = above ++ below ∧ n.pool = m.pool.emptied := by
  have next : m.step e = { m with
      pool := { m.pool with triggers := 1 }
      stack := .round 1 none :: (above ++ below) } := by
    rw [step, top]
    simp only [exec, Machine.trigger, triggers, if_true]
    rfl
  have calls : Toils e P below m [m] [] { m with
      pool := { m.pool with triggers := 1 }
      stack := .round 1 none :: (above ++ below) } :=
    .one above top next holds (by rw [deeds, top]; rfl)
  have begins : Toils e P below _ _ [] { m with
      pool := { m.pool with triggers := 1 }
      stack := .flush .matcher [] :: ([.again 1] ++ above ++ below) } :=
    calls.trans (.one above rfl (if_pos closed) holds rfl)
  obtain ⟨l, u, flushes, stack, pool⟩ := flush (.again 1 :: above) discreet begins.holds rfl line
  have single : u.pool.triggers = 1 := by
    rw [pool]
    rfl
  have after : m.pool.emptied = { u.pool with triggers := 0 } := by
    rw [pool, Pool.emptied, Pool.emptied, ← triggers]
  have next : u.step e = { u with pool := m.pool.emptied, stack := above ++ below } := by
    rw [step, after, show u.stack = .again 1 :: (above ++ below) from stack]
    simp only [exec, again, single]
    rfl
  have ends : Toils e P below u [u] [] _ :=
    .one above stack next flushes.holds (by rw [deeds, stack]; rfl)
  exact ⟨_, _, List.append_nil (List.reverse _) ▸ (begins.trans flushes).trans ends, rfl, rfl⟩

/-- The waiter of a delivery, who listens, is sent an outcome. -/
theorem tell {w : Nat} {o : Outcome} (holds : P m.env)
    (top : m.stack = a :: ([.release, .ran] ++ below))
    (still : History.closings (m.deeds e) = []) (attended : m.Attended)
    (sends : m.step e = { m with
      pool := m.pool.send w o
      stack := [.release, .ran] ++ below }) :
    ∃ l n, Toils e P below m l [] n ∧ n.stack = below ∧ n.pool = m.pool.send w o := by
  have sent : Toils e P below m [m] [] _ := .one [.release, .ran] top sends holds still
  let v : Machine σ := { m with pool := m.pool.send w o, stack := .ran :: below }
  have released : Toils e P below _ _ [] v :=
    sent.trans (.one [.ran] rfl (Attended.release (m := v) attended) holds rfl)
  exact ⟨_, _, released.trans (.one [] rfl rfl holds rfl), rfl, rfl⟩

end Toils

section Task

variable {t : Task} (discreet : e.Discreet P) (holds : P m.env)
variable (top : m.stack = .task t :: below) (attended : m.Attended) (awaits : m.pool.Awaits t)
include holds top attended awaits

/-- A delivery runs in an open pool. -/
theorem task_delivers (opened : m.pool.closed = false) :
    ∃ l n, Toils e P below m l [] n ∧ n.stack = below ∧
      n.pool = m.pool.send t.waiter (.ok t.item) := by
  obtain ⟨x, found, listening⟩ := awaits.heard
  have next : ∃ counts, m.step e = { m with
      counts
      stack := .deliver t :: ([.release, .ran] ++ below) } := by
    rw [step, top]
    simp only [exec, runTask, opened]
    exact ⟨_, rfl⟩
  obtain ⟨counts, next⟩ := next
  have begins : Toils e P below m [m] [] _ :=
    .one [] top next holds (by rw [deeds, top]; rfl)
  have sends := Pool.complete_of_listening found listening (.ok t.item)
  obtain ⟨l, n, tells, stack, pool⟩ := Toils.tell (e := e) begins.holds rfl rfl
    (begins.attended attended) (by simp only [step, exec, complete, sends]; rfl)
  exact ⟨_, n, begins.trans tells, stack, pool⟩

include discreet in
/-- A delivery runs in a closed pool where nothing else is left to be done. -/
theorem task_refuses (closed : m.pool.closed = true) (quiet : m.pool.Quiet) :
    ∃ l fit n, Toils e P below m l [t.item.resource.id] n ∧ n.stack = below ∧
      n.pool = m.pool.settled ⟨t, fit⟩ ∧ m.Judges e P t.item fit := by
  obtain ⟨x, found, listening⟩ := awaits.heard
  let above : List Activity := [.refuse t, .release, .ran]
  have next : ∃ counts, m.step e = { m with
      counts
      stack := .giveBack t.item :: (above ++ below) } := by
    rw [step, top]
    simp only [exec, runTask, closed]
    exact ⟨_, rfl⟩
  obtain ⟨counts, next⟩ := next
  have begins : Toils e P below m [m] [] _ := .one [] top next holds (by rw [deeds, top]; rfl)
  obtain ⟨l, fit, u, back, stack, pool, judged⟩ :=
    Toils.takeBack above discreet begins.holds rfl awaits.lent
  have same : u.pool.closed = true ∧ u.pool.registry.entries = [] ∧ u.pool.triggers = 0 := by
    rw [pool]
    cases fit <;> exact ⟨closed, quiet.line, quiet.triggers⟩
  obtain ⟨k, v, flushes, stack, emptied⟩ :=
    Toils.trigger above discreet back.holds stack same.1 same.2.1 same.2.2
  have gone : v.pool.send t.waiter (.error .closed) = m.pool.settled ⟨t, fit⟩ := by
    rw [emptied, pool, quiet.emptied_takenBack, Pool.settled, closed]
    cases fit <;> rfl
  have closings : (u.pool.returned.map fun i => i.resource.id).reverse ++
      (if fit then [] else [t.item.resource.id]) = [t.item.resource.id] := by
    rw [pool, quiet.returned_takenBack]
    cases fit <;> rfl
  have kept : v.pool.waiters = m.pool.waiters := by
    rw [emptied, pool]
    cases fit <;> rfl
  have sends := Pool.complete_of_listening (kept ▸ found) listening (.error .closed)
  have last : v.stack = .refuse t :: ([.release, .ran] ++ below) := stack
  obtain ⟨j, n, tells, stack, told⟩ := Toils.tell (e := e) flushes.holds last
    (by rw [deeds, last]; rfl) (flushes.attended (back.attended (begins.attended attended)))
    (by simp only [step, last, exec, complete, sends]; rfl)
  exact ⟨_, fit, n, closings ▸ begins.trans (back.trans (flushes.trans tells)), stack,
    told.trans gone, judged⟩

include discreet in
/-- A delivery runs where nothing else is left to be done. -/
theorem task_settles (quiet : m.pool.closed = true → m.pool.Quiet) :
    ∃ l fit n, Toils e P below m l (if m.pool.closed then [t.item.resource.id] else []) n ∧
      n.stack = below ∧ n.pool = m.pool.settled ⟨t, fit⟩ ∧ m.Judges e P t.item fit := by
  cases closed : m.pool.closed with
  | false =>
      obtain ⟨l, n, toils, stack, pool⟩ := task_delivers holds top attended awaits closed
      exact ⟨l, _, n, toils, stack, pool.trans (by rw [Pool.settled, closed]; rfl),
        m.env, holds, rfl⟩
  | true => exact task_refuses discreet holds top attended awaits closed (quiet closed)

end Task

end Machine
end ResourcePool
