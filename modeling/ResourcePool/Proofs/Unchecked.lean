import ResourcePool.Proofs.Potential

/-!
A pool as it would be without checks: its configuration asks for none, and those that were made are
left out of what happened. The surroundings are looked at through a view that the checks leave as it
is. Every step but the checks themselves does the same with checks and without.
-/

namespace ResourcePool

/-- The configuration without checks. -/
def Config.unchecked (c : Config) : Config :=
  { c with testOnCheckout := false, testOnCheckin := false }

/-- The reply with the checks left out of the configuration that it shows. -/
def Reply.unchecked : Reply → Reply
  | config c => config c.unchecked
  | r => r

def Activity.unchecked : Activity → Activity
  | finish before => finish before.unchecked
  | say r => say r.unchecked
  | a => a

/-- The event, unless it belongs to a check. -/
def Event.unchecked? : Event → Option Event
  | called (.validate _) | valid _ => none
  | nested r s => some (nested r.unchecked s)
  | e => some e

/-- Checks are left out of what happened. -/
def uncheckedTrace (events : List Event) : List Event :=
  events.filterMap Event.unchecked?

/-- A check that begins, or whose answer is awaited. -/
@[simp] def Activity.checks : Activity → Bool
  | call (.validate ..) | answer (.validate ..) => true
  | _ => false

/-- The surroundings `e'` do on what is seen of a state what `e` does on the state. Checks name no
operations and find everything valid, and nothing is seen of them. -/
structure Environment.Overlooks {σ τ : Type} (e : Environment σ) (e' : Environment τ)
    (view : σ → τ) : Prop where
  names : ∀ id s, (e.enter (.validate id) s).1 = []
  valid : ∀ r s, (e.validate r s).1 = true
  asked : ∀ id s, view (e.enter (.validate id) s).2 = view s
  checked : ∀ r s, view (e.validate r s).2 = view s
  enter : ∀ c s, (∀ id, c ≠ .validate id) →
    e'.enter c (view s) = ((e.enter c s).1, view (e.enter c s).2)
  create : ∀ n s, e'.create n (view s) = ((e.create n s).1, view (e.create n s).2)
  close : ∀ r s, e'.close r (view s) = ((e.close r s).1, view (e.close r s).2)
  tell : ∀ n s, e'.tell n (view s) = view (e.tell n s)
  counts : ∀ s, e'.counts (view s) = e.counts s

namespace Pool

def unchecked (p : Pool) : Pool :=
  { p with config := p.config.unchecked }

variable (p : Pool) (w i : Nat)

@[simp] theorem slots_unchecked : p.unchecked.slots = p.slots := rfl

@[simp] theorem created_unchecked : p.unchecked.created = p.created := rfl

@[simp] theorem vacated_unchecked : p.unchecked.vacated = p.vacated := rfl

@[simp] theorem registry_unchecked : p.unchecked.registry = p.registry := rfl

@[simp] theorem triggers_unchecked : p.unchecked.triggers = p.triggers := rfl

@[simp] theorem cursor_unchecked : p.unchecked.cursor = p.cursor := rfl

@[simp] theorem closed_unchecked : p.unchecked.closed = p.closed := rfl

theorem popReturned?_unchecked :
    p.unchecked.popReturned? = p.popReturned?.map fun r => (r.1, r.2.unchecked) := by
  unfold popReturned?
  dsimp only [unchecked]
  split <;> rfl

theorem reserve?_unchecked :
    p.unchecked.reserve? = p.reserve?.map fun r => (r.1, r.2.unchecked) := by
  unfold reserve?
  simp only [vacated_unchecked, created_unchecked, slots_unchecked]
  split
  · rfl
  · by_cases room : p.created < p.slots.length <;> simp [room]

theorem unreserve_unchecked (r : Reservation) :
    p.unchecked.unreserve r = (p.unreserve r).unchecked := by
  cases r <;> rfl

theorem lend?_unchecked : p.unchecked.lend? i = (p.lend? i).map unchecked := by
  unfold lend?
  rw [Option.map_map]
  rfl

theorem takeBack?_unchecked : p.unchecked.takeBack? i = (p.takeBack? i).map unchecked := by
  unfold takeBack?
  rw [Option.map_map]
  rfl

theorem claim?_unchecked : p.unchecked.claim? w = (p.claim? w).map unchecked := by
  unfold claim? waiter?
  dsimp only [unchecked]
  split <;> rfl

theorem cancel?_unchecked : p.unchecked.cancel? w = (p.cancel? w).map unchecked := by
  unfold cancel? waiter?
  dsimp only [unchecked]
  split <;> rfl

theorem complete_unchecked (o : Outcome) :
    p.unchecked.complete w o = ((p.complete w o).1, (p.complete w o).2.unchecked) := by
  unfold complete waiter?
  dsimp only [unchecked]
  split <;> rfl

theorem hangUp_unchecked :
    p.unchecked.hangUp w = ((p.hangUp w).1, (p.hangUp w).2.unchecked) := by
  unfold hangUp waiter?
  dsimp only [unchecked]
  split <;> rfl

theorem receive_unchecked :
    p.unchecked.receive w = ((p.receive w).1, (p.receive w).2.unchecked) := by
  unfold receive waiter?
  dsimp only [unchecked]
  split <;> rfl

theorem pick_unchecked (view : List Nat) :
    p.unchecked.pick view = ((p.pick view).1, (p.pick view).2.unchecked) := by
  unfold pick
  simp only [cursor_unchecked]
  cases view[p.cursor % view.length]? with
  | none => rfl
  | some id =>
      have claims := claim?_unchecked { p with cursor := p.cursor % view.length + 1 } id
      simp only
      rw [show ({ p.unchecked with cursor := p.cursor % view.length + 1 } : Pool) =
        ({ p with cursor := p.cursor % view.length + 1 } : Pool).unchecked from rfl, claims]
      cases claim? { p with cursor := p.cursor % view.length + 1 } id <;> rfl

theorem dismiss_unchecked : p.unchecked.dismiss w = (p.dismiss w).unchecked := by
  unfold dismiss
  rw [claim?_unchecked]
  cases p.claim? w with
  | none => rfl
  | some q =>
      simp only [Option.map_some]
      rw [complete_unchecked]
      rfl

theorem dismissAll_unchecked : p.unchecked.dismissAll = p.dismissAll.unchecked := by
  have each (ids : List Nat) (q : Pool) :
      ids.foldl dismiss q.unchecked = (ids.foldl dismiss q).unchecked := by
    induction ids generalizing q with
    | nil => rfl
    | cons id ids ih => rw [List.foldl_cons, List.foldl_cons, dismiss_unchecked, ih]
  exact each _ p

end Pool

namespace Machine

variable {σ τ : Type} {e : Environment σ} {e' : Environment τ}

/-- The machine as it would be without checks. -/
def unchecked (view : σ → τ) (m : Machine σ) : Machine τ where
  scheduler := m.scheduler
  pool := m.pool.unchecked
  env := view m.env
  stack := m.stack.map Activity.unchecked
  handles := m.handles
  mainHandle := m.mainHandle
  clones := m.clones
  tasks := m.tasks
  counts := m.counts
  made := m.made
  clock := m.clock
  background := m.background
  paused := m.paused.map Activity.unchecked
  torn := m.torn
  reply := m.reply.unchecked
  trace := uncheckedTrace m.trace

variable (view : σ → τ) (m : Machine σ)

@[simp] theorem scheduler_unchecked : (m.unchecked view).scheduler = m.scheduler := rfl

@[simp] theorem pool_unchecked : (m.unchecked view).pool = m.pool.unchecked := rfl

@[simp] theorem env_unchecked : (m.unchecked view).env = view m.env := rfl

@[simp] theorem handles_unchecked : (m.unchecked view).handles = m.handles := rfl

@[simp] theorem mainHandle_unchecked : (m.unchecked view).mainHandle = m.mainHandle := rfl

@[simp] theorem clones_unchecked : (m.unchecked view).clones = m.clones := rfl

@[simp] theorem tasks_unchecked : (m.unchecked view).tasks = m.tasks := rfl

@[simp] theorem clock_unchecked : (m.unchecked view).clock = m.clock := rfl

@[simp] theorem background_unchecked : (m.unchecked view).background = m.background := rfl

@[simp] theorem torn_unchecked : (m.unchecked view).torn = m.torn := rfl

@[simp] theorem reply_unchecked : (m.unchecked view).reply = m.reply.unchecked := rfl

theorem push_unchecked (as : List Activity) :
    (m.push as).unchecked view = (m.unchecked view).push (as.map Activity.unchecked) := by
  simp only [unchecked, push, List.map_append]

theorem currentThread_unchecked : (m.unchecked view).currentThread = m.currentThread := by
  simp only [currentThread, unchecked, List.findSome?_map]
  congr 1
  funext a
  cases a <;> rfl

theorem inTurn_unchecked : (m.unchecked view).inTurn = m.inTurn := by
  simp only [inTurn, unchecked, List.any_map]
  congr 1
  funext a
  cases a <;> rfl

theorem isReferenced_unchecked : (m.unchecked view).isReferenced = m.isReferenced := by
  have same : (m.unchecked view).activities.any Activity.refersToPool =
      m.activities.any Activity.refersToPool := by
    simp only [activities, unchecked, ← List.map_append, List.any_map]
    congr 1
    funext a
    cases a <;> rfl
  rw [isReferenced, isReferenced, same]
  rfl

theorem lend_unchecked (w : Nat) (i : Item) :
    (m.lend w i).unchecked view = (m.unchecked view).lend w i := by
  have thread := m.currentThread_unchecked view
  let scheduled (n : Machine τ) (thread : Option Nat) : Machine τ :=
    n.push [.call (.schedule { label := n.counts.scheduled, waiter := w, item := i, thread })]
  unfold lend
  rw [pool_unchecked, Pool.lend?_unchecked]
  cases m.pool.lend? i.slot with
  | none =>
      exact congrArg (scheduled (((m.unchecked view).log
        (.notIdle i.slot (m.pool.slot i.slot).state)).log (.dispatching i.slot w))) thread.symm
  | some p =>
      exact congrArg (scheduled (((m.unchecked view).withPool p.unchecked).log
        (.dispatching i.slot w))) thread.symm

theorem handOut_unchecked (n : Nat) (line : List Nat) (i : Item) :
    (m.handOut n line i).unchecked view = (m.unchecked view).handOut n line i := by
  unfold handOut
  rw [pool_unchecked, Pool.pick_unchecked]
  obtain ⟨_ | w, p⟩ := m.pool.pick line
  · rfl
  · exact lend_unchecked ..

theorem fill_unchecked (n : Nat) (line : List Nat) (r : Reservation) :
    (m.fill n line r).unchecked view = (m.unchecked view).fill n line r := by
  unfold fill
  rw [pool_unchecked, Pool.pick_unchecked]
  obtain ⟨_ | w, p⟩ := m.pool.pick line
  · simp only [Pool.unreserve_unchecked]
    rfl
  · rfl

theorem trigger_unchecked : m.trigger.unchecked view = (m.unchecked view).trigger := by
  unfold trigger
  rw [pool_unchecked, Pool.triggers_unchecked]
  split <;> rfl

theorem again_unchecked (n : Nat) :
    (m.again n).unchecked view = (m.unchecked view).again n := by
  unfold again
  dsimp only
  rw [pool_unchecked, Pool.triggers_unchecked]
  split <;> rfl

theorem flush_unchecked (who : Flusher) (failures : List CloseFailure) :
    (m.flush who failures).unchecked view = (m.unchecked view).flush who failures := by
  unfold flush
  rw [pool_unchecked, Pool.popReturned?_unchecked, Pool.dismissAll_unchecked]
  obtain _ | ⟨i, p⟩ := m.pool.popReturned?
  · cases who <;> rfl
  · rfl

theorem teardown_unchecked : m.teardown.unchecked view = (m.unchecked view).teardown := by
  unfold teardown
  rw [pool_unchecked, Pool.popReturned?_unchecked]
  obtain _ | ⟨i, p⟩ := m.pool.popReturned? <;> rfl

theorem release_unchecked : m.release.unchecked view = (m.unchecked view).release := by
  unfold release
  rw [isReferenced_unchecked, torn_unchecked]
  split <;> rfl

theorem withdraw_unchecked (a : Acquire) :
    (m.withdraw a).unchecked view = (m.unchecked view).withdraw a := by
  unfold withdraw
  rw [pool_unchecked, Pool.cancel?_unchecked]
  split
  · cases m.pool.cancel? a.waiter <;> rfl
  · rfl

theorem hangUp_unchecked (w : Nat) :
    (m.hangUp w).unchecked view = (m.unchecked view).hangUp w := by
  unfold hangUp
  rw [pool_unchecked, Pool.hangUp_unchecked]
  obtain ⟨_ | _ | i, p⟩ := m.pool.hangUp w <;> rfl

theorem complete_unchecked (t : Task) (o : Outcome) :
    (m.complete t o).unchecked view = (m.unchecked view).complete t o := by
  unfold complete
  rw [pool_unchecked, Pool.complete_unchecked]
  obtain ⟨_ | _ | i, p⟩ := m.pool.complete t.waiter o <;> rfl

theorem runTask_unchecked (t : Task) :
    (m.runTask t).unchecked view = (m.unchecked view).runTask t := by
  unfold runTask
  rw [currentThread_unchecked]
  dsimp only
  rw [pool_unchecked, Pool.closed_unchecked]
  split <;> rfl

theorem dropHandle_unchecked (x : Handle) :
    (dropHandle x).map Activity.unchecked = dropHandle x := by
  obtain a | (_ | ⟨a, d⟩) | i | r := x <;> rfl

theorem put_unchecked (k : Nat) (x : Handle) :
    (m.put k x).unchecked view = (m.unchecked view).put k x := by
  unfold put
  rw [handles_unchecked]
  rw [push_unchecked]
  cases m.handles.get? k with
  | none => rfl
  | some y =>
      simp only [Option.toList_some, List.flatMap_cons, List.flatMap_nil, List.append_nil,
        dropHandle_unchecked]
      rfl

theorem request_unchecked (purpose : Purpose) :
    (m.request purpose).unchecked view = (m.unchecked view).request purpose := by
  unfold request
  rw [pool_unchecked, Pool.closed_unchecked]
  split <;> rfl

theorem look_unchecked (w : Nat) :
    (m.unchecked view).look w = ((m.look w).1, (m.look w).2.unchecked view) := by
  unfold look
  rw [pool_unchecked, Pool.receive_unchecked]
  obtain ⟨_ | _ | _, p⟩ := m.pool.receive w <;> rfl

theorem firstPoll_unchecked (k : Nat) (a : Acquire) :
    (m.firstPoll k a).unchecked view = (m.unchecked view).firstPoll k a := by
  unfold firstPoll
  rw [look_unchecked]
  obtain ⟨_ | _ | i, n⟩ := m.look a.waiter <;> rfl

theorem requested_unchecked (a : Acquire) (purpose : Purpose) :
    (m.requested a purpose).unchecked view = (m.unchecked view).requested a purpose := by
  cases purpose with
  | get k => exact firstPoll_unchecked ..
  | _ => rfl

theorem resolve_unchecked (k : Nat) (o : Outcome) :
    (m.resolve k o).unchecked view = (m.unchecked view).resolve k o := by
  cases o <;> rfl

theorem poll_unchecked (k : Nat) :
    (m.poll k).unchecked view = (m.unchecked view).poll k := by
  unfold poll
  simp only [handles_unchecked, look_unchecked]
  split
  · rfl
  · next a _ =>
      obtain ⟨_ | o, n⟩ := m.look a.waiter
      · rfl
      · exact resolve_unchecked ..
  · next a d _ =>
      obtain ⟨_ | o, n⟩ := m.look a.waiter
      · dsimp only
        rw [clock_unchecked]
        split
        · split <;> rfl
        · rfl
      · exact resolve_unchecked ..
  · rfl
  · rfl
  · rfl

theorem pollEach_unchecked (seen : List (Nat × Poll)) (rest : List Nat) :
    (m.pollEach seen rest).unchecked view = (m.unchecked view).pollEach seen rest := by
  cases rest <;> rfl

theorem collect_unchecked (k : Nat) (rest : List Nat) (seen : List (Nat × Poll)) :
    (m.collect k rest seen).unchecked view = (m.unchecked view).collect k rest seen := by
  unfold collect
  simp only [pollEach_unchecked, reply_unchecked]
  cases m.reply <;> rfl

theorem awaited_unchecked (k : Nat) :
    (m.awaited k).unchecked view = (m.unchecked view).awaited k := by
  unfold awaited
  rw [reply_unchecked,
    scheduler_unchecked]
  rcases m.reply with _ | _ | _ | _ | _ | _ | _ | ⟨_ | _ | _ | _ | _⟩ | _ | _ | _ | _ | _ | _ | _ |
    _ | _ | _ | _ | _ | _ <;> cases m.scheduler.dispatcher <;> rfl

theorem cancel_unchecked (k : Nat) (a : Acquire) :
    (m.cancel k a).unchecked view = (m.unchecked view).cancel k a := by
  unfold cancel
  rw [pool_unchecked, Pool.cancel?_unchecked]
  simp only [Option.isSome_map]
  exact withdraw_unchecked ..

theorem onResource_unchecked {f : Handle → Resource → Machine σ} {g : Handle → Resource → Machine τ}
    (k : Nat) (alike : ∀ x r, (f x r).unchecked view = g x r) :
    (m.onResource k f).unchecked view = (m.unchecked view).onResource k g := by
  unfold onResource
  rw [handles_unchecked]
  split
  · rfl
  · split
    · exact alike _ _
    · rfl

theorem execute_unchecked (k : Nat) (statement : String) :
    (m.execute k statement).unchecked view = (m.unchecked view).execute k statement := by
  refine onResource_unchecked view m k fun x r => ?_
  split <;> rfl

theorem describe_unchecked (k : Nat) :
    (m.describe k).unchecked view = (m.unchecked view).describe k := by
  unfold describe
  rw [handles_unchecked]
  split <;> rfl

theorem runNext_unchecked (left : Option Nat) (labels : List Nat) :
    (m.runNext left labels).unchecked view = (m.unchecked view).runNext left labels := by
  unfold runNext
  rw [tasks_unchecked]
  split <;> rfl

theorem turn_unchecked : m.turn.unchecked view = (m.unchecked view).turn := by
  unfold turn
  rw [tasks_unchecked]
  split <;> rfl

theorem run_unchecked (limit : Option Nat) :
    (m.run limit).unchecked view = (m.unchecked view).run limit := by
  unfold run
  rw [scheduler_unchecked, inTurn_unchecked]
  split
  · exact runNext_unchecked ..
  · split <;> rfl
  · rfl

theorem advance_unchecked (ms : Nat) :
    (m.advance ms).unchecked view = (m.unchecked view).advance ms := by
  unfold advance
  rw [scheduler_unchecked, inTurn_unchecked]
  split
  · split <;> rfl
  · rfl

theorem onTask_unchecked {f : Machine σ → Task → Machine σ} {g : Machine τ → Task → Machine τ}
    (place : Nat) (alike : ∀ n t, (f n t).unchecked view = g (n.unchecked view) t) :
    (m.onTask place f).unchecked view = (m.unchecked view).onTask place g := by
  unfold onTask
  rw [scheduler_unchecked,
    tasks_unchecked]
  split
  · exact alike { m with tasks := m.tasks.eraseIdx place } _
  · rfl

theorem onPool_unchecked {f : Machine σ → Machine σ} {g : Machine τ → Machine τ}
    (alike : (f m).unchecked view = g (m.unchecked view)) :
    (m.onPool f).unchecked view = (m.unchecked view).onPool g := by
  unfold onPool
  rw [mainHandle_unchecked]
  split
  · exact alike
  · rfl

theorem onFree_unchecked {f : Machine σ → Machine σ} {g : Machine τ → Machine τ} (k : Nat)
    (alike : (f m).unchecked view = g (m.unchecked view)) :
    (m.onFree k f).unchecked view = (m.unchecked view).onFree k g := by
  refine onPool_unchecked view m ?_
  rw [handles_unchecked]
  split
  · rfl
  · exact alike

theorem drop_unchecked (k : Nat) (x : Handle) (r : Reply) (plain : r.unchecked = r) :
    ((m.take k).push (dropHandle x ++ [.say r])).unchecked view =
      ((m.unchecked view).take k).push (dropHandle x ++ [.say r]) := by
  rw [push_unchecked, List.map_append, dropHandle_unchecked]
  simp only [List.map_cons, List.map_nil, Activity.unchecked, plain]
  rfl

theorem close_unchecked : m.close.unchecked view = (m.unchecked view).close := by
  unfold close
  rw [pool_unchecked, Pool.closed_unchecked]
  split <;> rfl

theorem report_unchecked (failures : List CloseFailure) :
    (m.report failures).unchecked view = (m.unchecked view).report failures := by
  unfold report
  split <;> rfl

theorem launch_unchecked (k : Nat) :
    (m.launch k).unchecked view = (m.unchecked view).launch k := by
  unfold launch
  rw [background_unchecked]
  split <;> rfl

theorem launched_unchecked : m.launched.unchecked view = (m.unchecked view).launched := by
  unfold launched
  rw [background_unchecked]
  split <;> rfl

theorem joined_unchecked : m.joined.unchecked view = (m.unchecked view).joined := by
  unfold joined
  rw [background_unchecked]
  split <;> rfl

theorem scheduled_unchecked (t : Task) :
    (m.scheduled t).unchecked view = (m.unchecked view).scheduled t := by
  unfold scheduled
  rw [scheduler_unchecked]
  split <;> rfl

theorem nested_unchecked (before : Reply) (ops : List Op) :
    (nested before ops).map Activity.unchecked = nested before.unchecked ops := by
  simp only [nested, List.map_flatMap]
  rfl

/-- What goes on after a check that found the resource valid. -/
def accept (m : Machine σ) (i : Item) : Check → Machine σ
  | .checkout answered line => m.handOut answered line i
  | .checkin => ((m.log (.checkedIn i.slot)).withPool (m.pool.pushReturned i)).push [.trigger]

theorem accept_unchecked (i : Item) (check : Check) :
    (m.accept i check).unchecked view = (m.unchecked view).accept i check := by
  cases check with
  | checkout n line => exact handOut_unchecked ..
  | checkin => rfl

/-- After some steps, `n` is what is seen of the machine. -/
def Reaches (e : Environment σ) (view : σ → τ) (m : Machine σ) (n : Machine τ) : Prop :=
  ∃ j, (m.steps e j).unchecked view = n

theorem Reaches.at_once {view : σ → τ} {m : Machine σ} {n : Machine τ}
    (same : m.unchecked view = n) : Reaches e view m n :=
  ⟨0, same⟩

theorem steps_push (e : Environment σ) (m : Machine σ) (a : Activity) (n : Nat) :
    (m.push [a]).steps e (n + 1) = (m.exec e a).steps e n :=
  steps_succ rfl n

section Overlooks

variable {view} (overlooks : e.Overlooks e' view)
include overlooks

theorem announce_unchecked {c : Call} (plain : ∀ i check, c ≠ .validate i check) :
    (m.announce e c).unchecked view = (m.unchecked view).announce e' c := by
  have moment (id : Nat) : c.moment ≠ .validate id := by
    cases c with
    | validate i check => exact absurd rfl (plain i check)
    | _ => simp [Call.moment]
  have entered := overlooks.enter c.moment m.env moment
  have shown : Event.unchecked? (.called c.moment) = some (.called c.moment) := by
    cases c with
    | validate i check => exact absurd rfl (plain i check)
    | _ => rfl
  unfold announce
  rw [push_unchecked, List.map_append, nested_unchecked, env_unchecked, entered]
  simp only [unchecked, note, uncheckedTrace, List.filterMap_cons, shown]
  rfl

theorem call_unchecked {c : Call} (plain : ∀ i check, c ≠ .validate i check) :
    (m.call e c).unchecked view = (m.unchecked view).call e' c := by
  cases c with
  | schedule t =>
      unfold call
      dsimp only
      rw [scheduler_unchecked]
      split
      · exact announce_unchecked { m with counts := m.counts.schedule } overlooks plain
      · rfl
  | _ => exact announce_unchecked m overlooks plain

theorem hold_unchecked (c : Call) :
    (m.hold e c).unchecked view = (m.unchecked view).hold e' c := by
  have above : (m.stack.map Activity.unchecked).takeWhile (fun a => !a.isThread) =
      (m.stack.takeWhile fun a => !a.isThread).map Activity.unchecked := by
    rw [List.takeWhile_map]
    congr 2
    funext a
    cases a <;> rfl
  unfold hold
  simp only [unchecked, above, List.length_map, ← List.map_drop, ← List.map_take,
    overlooks.tell]
  simp only [List.map_append, List.map_cons]
  rfl

theorem created_unchecked (n w : Nat) (r : Reservation) :
    (m.created e n w r).unchecked view = (m.unchecked view).created e' n w r := by
  unfold created
  rw [env_unchecked, overlooks.create]
  obtain ⟨_ | cause, env⟩ := e.create r.slot m.env
  · simp only [lend_unchecked]
    cases r <;> rfl
  · have sent := congrArg Prod.snd
      ((m.pool.unreserve r).complete_unchecked w (.error (.creationFailed r.slot cause)))
    rw [← Pool.unreserve_unchecked] at sent
    simp only
    exact congrArg (fun q => ((({ m.unchecked view with env := view env } : Machine τ).note
      .createFailed).log (.creationFailed r.slot w cause)).withPool q |>.push [.round n none])
      sent.symm

theorem closed_unchecked (i : Item) (why : Closing) :
    (m.closed e i why).unchecked view = (m.unchecked view).closed e' i why := by
  unfold closed
  rw [env_unchecked, overlooks.close]
  obtain ⟨failed, env⟩ := e.close i.resource m.env
  rcases why with (_ | _) | _ | ⟨_ | _⟩ | _ | _ <;> cases failed <;> rfl

theorem join_unchecked : (m.join e).unchecked view = (m.unchecked view).join e' := by
  unfold join
  rw [background_unchecked]
  split
  · rw [push_unchecked, List.map_append]
    simp only [env_unchecked, overlooks.tell]
    rfl
  · rfl
  · rfl

theorem perform_unchecked (op : Op) :
    (m.perform e op).unchecked view = (m.unchecked view).perform e' op := by
  cases op with
  | acquire k => exact onFree_unchecked view m k rfl
  | get k => exact onFree_unchecked view m k rfl
  | poll k => exact poll_unchecked ..
  | await k => rfl
  | pollAll => exact pollEach_unchecked ..
  | cancel k =>
      simp only [perform, handles_unchecked]
      split
      · rfl
      · exact cancel_unchecked ..
      · rfl
  | drop k =>
      simp only [perform, handles_unchecked]
      split
      · rfl
      · exact drop_unchecked _ _ _ _ _ rfl
  | checkin k =>
      simp only [perform]
      refine onPool_unchecked view m ?_
      rw [handles_unchecked]
      split <;> rfl
  | detach k =>
      simp only [perform, handles_unchecked]
      split <;> rfl
  | execute k statement => exact execute_unchecked ..
  | executed k => exact onResource_unchecked view m k fun _ _ => rfl
  | info k =>
      simp only [perform, handles_unchecked]
      split <;> rfl
  | describe k => exact describe_unchecked ..
  | invalidateHeld k =>
      simp only [perform, handles_unchecked]
      split
      · rw [env_unchecked, overlooks.tell]
        rfl
      · rfl
  | tell n =>
      simp only [perform]
      rw [env_unchecked, overlooks.tell]
      rfl
  | run limit => exact run_unchecked ..
  | runAt place | dropTask place =>
      simp only [perform]
      exact onTask_unchecked view m place fun _ _ => rfl
  | advance ms => exact advance_unchecked ..
  | dispatchCounts =>
      simp only [perform]
      rw [scheduler_unchecked]
      split <;> rfl
  | factoryCounts =>
      simp only [perform]
      rw [env_unchecked, overlooks.counts]
      rfl
  | close => exact onPool_unchecked view m (close_unchecked ..)
  | isClosed | status | slots | config | describePool | clone =>
      simp only [perform]
      exact onPool_unchecked view m rfl
  | factoryCreated =>
      simp only [perform]
      refine onPool_unchecked view m ?_
      rw [env_unchecked, overlooks.counts]
      rfl
  | dropClone =>
      simp only [perform]
      rw [clones_unchecked]
      split <;> rfl
  | dropPool =>
      simp only [perform]
      rw [mainHandle_unchecked]
      split <;> rfl
  | background k => exact onFree_unchecked view m k (launch_unchecked ..)
  | join => exact join_unchecked m overlooks

/-- When a check has been made, the machine goes on with what was in hand, and nothing is seen of
the check. -/
theorem check_unchecked (i : Item) (check : Check) :
    Reaches e view (m.push [.call (.validate i check)])
      ((m.unchecked view).accept i check) := by
  let asked : Machine σ :=
    { m with env := (e.enter (.validate i.resource.id) m.env).2 }.note
      (.called (.validate i.resource.id))
  let seen : Machine σ :=
    { asked with env := (e.validate i.resource asked.env).2 }.note (.valid true)
  have first : m.call e (.validate i check) = asked.push [.answer (.validate i check)] := by
    simp only [call, announce, Call.moment, nested, overlooks.names, List.flatMap_nil]
    rfl
  have second : asked.validated e i check = seen.accept i check := by
    have valid : e.validate i.resource asked.env = (true, seen.env) :=
      Prod.ext (overlooks.valid ..) rfl
    simp only [validated, valid]
    cases check <;> rfl
  have same : seen.unchecked view = m.unchecked view := by
    have env : view seen.env = view m.env :=
      (overlooks.checked ..).trans (overlooks.asked ..)
    unfold unchecked
    rw [env]
    rfl
  have both : (m.push [.call (.validate i check)]).steps e 2 = seen.accept i check := by
    rw [steps_push, exec, first, steps_push, exec, answered, second, steps]
  exact ⟨2, by rw [both, accept_unchecked, same]⟩

theorem giveBack_unchecked (i : Item) :
    Reaches e view (m.giveBack i) ((m.unchecked view).giveBack i) := by
  unfold giveBack
  rw [pool_unchecked, Pool.takeBack?_unchecked]
  cases m.pool.takeBack? i.slot with
  | none => exact .at_once rfl
  | some p =>
      cases tested : p.config.testOnCheckin with
      | false =>
          simp only [Option.map_some, tested]
          exact .at_once rfl
      | true =>
          simp only [Option.map_some, tested]
          exact check_unchecked (m.withPool p) overlooks i .checkin

theorem seek_unchecked (n : Nat) (line : List Nat) :
    Reaches e view (m.seek n line) ((m.unchecked view).seek n line) := by
  unfold seek
  rw [pool_unchecked, Pool.popReturned?_unchecked, Pool.reserve?_unchecked]
  obtain _ | ⟨i, p⟩ := m.pool.popReturned?
  · obtain _ | ⟨r, p⟩ := m.pool.reserve?
    · exact .at_once rfl
    · exact .at_once (fill_unchecked ..)
  · cases tested : p.config.testOnCheckout with
    | false =>
        simp only [Option.map_some, tested]
        exact .at_once (handOut_unchecked ..)
    | true =>
        simp only [Option.map_some, tested]
        exact check_unchecked (m.withPool p) overlooks i (.checkout n line)

theorem round_unchecked (n : Nat) (inHand : Option Item) :
    Reaches e view (m.round n inHand) ((m.unchecked view).round n inHand) := by
  unfold round
  rw [pool_unchecked, Pool.closed_unchecked, Pool.registry_unchecked]
  split
  · cases inHand <;> exact .at_once rfl
  · split
    · exact .at_once rfl
    · exact .at_once rfl
    · exact .at_once (handOut_unchecked ..)
    · exact seek_unchecked m overlooks ..

theorem answered_unchecked {c : Call} (plain : ∀ i check, c ≠ .validate i check) :
    (m.answered e c).unchecked view = (m.unchecked view).answered e' c := by
  cases c with
  | create n w r =>
      unfold answered
      dsimp only
      rw [background_unchecked]
      split
      · exact hold_unchecked m overlooks _
      · exact created_unchecked m overlooks ..
  | validate i check => exact absurd rfl (plain i check)
  | close i why => exact closed_unchecked m overlooks ..
  | schedule t => exact scheduled_unchecked ..

/-- Apart from the checks, whatever is carried out does the same with checks and without. -/
theorem exec_unchecked {a : Activity} (calm : a.checks = false) :
    Reaches e view (m.exec e a) ((m.unchecked view).exec e' a.unchecked) := by
  cases a with
  | giveBack i => exact giveBack_unchecked m overlooks i
  | round n inHand => exact round_unchecked m overlooks n inHand
  | search n line => exact seek_unchecked m overlooks n line
  | perform op => exact .at_once (perform_unchecked m overlooks op)
  | call c =>
      refine .at_once (call_unchecked m overlooks ?_)
      rintro i check rfl
      cases calm
  | answer c =>
      refine .at_once (answered_unchecked m overlooks ?_)
      rintro i check rfl
      cases calm
  | release => exact .at_once (release_unchecked ..)
  | teardown => exact .at_once (teardown_unchecked ..)
  | acquire => exact .at_once (request_unchecked ..)
  | acquired => exact .at_once (requested_unchecked ..)
  | put => exact .at_once (put_unchecked ..)
  | quit => exact .at_once (withdraw_unchecked ..)
  | hangUp => exact .at_once (hangUp_unchecked ..)
  | trigger => exact .at_once (trigger_unchecked ..)
  | again => exact .at_once (again_unchecked ..)
  | task => exact .at_once (runTask_unchecked ..)
  | deliver | refuse => exact .at_once (complete_unchecked ..)
  | flush => exact .at_once (flush_unchecked ..)
  | report => exact .at_once (report_unchecked ..)
  | awaited => exact .at_once (awaited_unchecked ..)
  | collect => exact .at_once (collect_unchecked ..)
  | runNext => exact .at_once (runNext_unchecked ..)
  | turn => exact .at_once (turn_unchecked ..)
  | launched => exact .at_once (launched_unchecked ..)
  | joined => exact .at_once (joined_unchecked ..)
  | _ => exact .at_once rfl

end Overlooks

end Machine
end ResourcePool
