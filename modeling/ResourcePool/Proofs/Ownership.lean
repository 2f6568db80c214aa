import ResourcePool.Proofs.References
import ResourcePool.Proofs.Sequel

/-!
Who has a reference to the pool of its own: the owner and the clones, the callers, the queued
deliveries, and some of the activities. No step but a release makes these fewer, and all work on the
pool goes on above such an activity. The last release therefore finds nobody else who refers to the
pool.
-/

namespace ResourcePool

def Background.ownsReference : Background → Bool
  | .done .. => true
  | _ => false

theorem Backing.owner {as : List Activity} (backing : Backing as = true) :
    0 < as.countP Activity.ownsReference := by
  induction as with
  | nil => simp at backing
  | cons a as ih =>
      simp only [Backing, Bool.and_eq_true, Bool.or_eq_true] at backing
      rw [List.countP_cons]
      obtain own | below := backing.2
      · rw [if_pos own]
        exact Nat.succ_pos _
      · exact Nat.add_pos_left (ih below) _

theorem Backed.owner {as : List Activity} (backed : Backed as) {a : Activity} (member : a ∈ as)
    (refers : a.refersToPool = true) : 0 < as.countP Activity.ownsReference := by
  induction as with
  | nil => simp at member
  | cons b as ih =>
      obtain rfl | member := List.mem_cons.1 member
      · exact Backing.owner (backed.1 refers)
      · rw [List.countP_cons]
        exact Nat.add_pos_left (ih backed.2 member) _

namespace Table

/-- How many handles keep the pool alive. -/
def owners (handles : Table Handle) : Nat :=
  handles.entries.countP fun e => e.2.refersToPool

variable {t : Table Handle} {k : Nat}

theorem owners_of_get? {x : Handle} (found : t.get? k = some x) :
    t.owners = x.refersToPool.toNat + (t.erase k).owners := by
  unfold owners
  rw [(entries_perm_of_get? found).countP_eq, List.countP_cons]
  cases x.refersToPool <;> simp [Nat.add_comm]

theorem owners_erase_of_free (free : t.get? k = none) : (t.erase k).owners = t.owners := by
  unfold owners
  rw [entries_erase_of_get?_eq_none free]

@[simp] theorem owners_insert (t : Table Handle) (k : Nat) (x : Handle) :
    (t.insert k x).owners = x.refersToPool.toNat + (t.erase k).owners := by
  unfold owners
  rw [(entries_insert_perm t k x).countP_eq, List.countP_cons]
  cases x.refersToPool <;> simp [Nat.add_comm]

end Table

namespace Machine

variable {σ : Type}

/-- How many references to the pool there are. -/
def owners (m : Machine σ) : Nat :=
  m.mainHandle.toNat + m.clones + m.handles.owners + m.tasks.length +
    m.stack.countP Activity.ownsReference + m.paused.countP Activity.ownsReference +
      m.background.ownsReference.toNat

variable (m : Machine σ)

@[simp] theorem owners_push (as : List Activity) :
    (m.push as).owners = as.countP Activity.ownsReference + m.owners := by
  simp only [owners, push, List.countP_append]
  omega

@[simp] theorem owners_note (v : Event) : (m.note v).owners = m.owners := rfl

@[simp] theorem owners_log (v : LogEntry) : (m.log v).owners = m.owners := rfl

@[simp] theorem owners_answer (r : Reply) : (m.answer r).owners = m.owners := rfl

@[simp] theorem owners_withPool (p : Pool) : (m.withPool p).owners = m.owners := rfl

@[simp] theorem owners_env (env : σ) : ({ m with env } : Machine σ).owners = m.owners := rfl

@[simp] theorem owners_made (env : σ) (made : Nat) :
    ({ m with env, made } : Machine σ).owners = m.owners := rfl

@[simp] theorem owners_counts (counts : DispatchCounts) :
    ({ m with counts } : Machine σ).owners = m.owners := rfl

@[simp] theorem owners_setHandle (k : Nat) (x : Handle) :
    (m.setHandle k x).owners = x.refersToPool.toNat + (m.take k).owners := by
  simp only [owners, setHandle, take, Table.owners_insert]
  omega

variable {m : Machine σ}

theorem owners_take {k : Nat} {x : Handle} (found : m.handles.get? k = some x) :
    m.owners = x.refersToPool.toNat + (m.take k).owners := by
  simp only [owners, take, Table.owners_of_get? found]
  omega

theorem owners_take_of_free {k : Nat} (free : m.handles.get? k = none) :
    (m.take k).owners = m.owners := by
  simp only [owners, take, Table.owners_erase_of_free free]

theorem owners_tasks {t : Task} {rest : List Task} (queue : m.tasks = t :: rest) :
    m.owners = 1 + ({ m with tasks := rest } : Machine σ).owners := by
  simp only [owners, queue, List.length_cons]
  omega

theorem owners_tasks_eraseIdx {place : Nat} {t : Task} (found : m.tasks[place]? = some t) :
    m.owners = 1 + ({ m with tasks := m.tasks.eraseIdx place } : Machine σ).owners := by
  obtain ⟨bound, _⟩ := List.getElem?_eq_some_iff.1 found
  have shorter := List.length_eraseIdx_of_lt bound
  simp only [owners, shorter]
  omega

theorem countP_dropHandle (x : Handle) :
    (dropHandle x).countP Activity.ownsReference = x.refersToPool.toNat := by
  obtain a | (_ | ⟨a, d⟩) | i | r := x <;> simp [dropHandle, Handle.refersToPool]

section

variable (e : Environment σ)

@[simp] theorem owners_lend (w : Nat) (i : Item) : (m.lend w i).owners = m.owners := by
  unfold lend
  split <;> simp

@[simp] theorem owners_handOut (n : Nat) (view : List Nat) (i : Item) :
    (m.handOut n view i).owners = m.owners := by
  unfold handOut
  split <;> simp

@[simp] theorem owners_seek (n : Nat) (view : List Nat) : (m.seek n view).owners = m.owners := by
  unfold seek fill
  split
  · split <;> simp
  · split
    · split <;> simp
    · simp

@[simp] theorem owners_shut (i : Item) (why : Closing) : (m.shut i why).owners = m.owners := by
  simp [shut]

@[simp] theorem owners_discard (i : Item) (check : Check) :
    (m.discard i check).owners = m.owners := by
  simp [discard]

@[simp] theorem owners_proceed (check : Check) : (m.proceed check).owners = m.owners := by
  cases check <;> simp [proceed]

@[simp] theorem owners_round (n : Nat) (inHand : Option Item) :
    (m.round n inHand).owners = m.owners := by
  unfold round
  split
  · cases inHand <;> simp
  · split <;> simp

@[simp] theorem owners_trigger : m.trigger.owners = m.owners := by
  unfold trigger
  dsimp only
  split <;> simp

@[simp] theorem owners_again (n : Nat) : (m.again n).owners = m.owners := by
  unfold again
  dsimp only
  split <;> simp

@[simp] theorem owners_giveBack (i : Item) : (m.giveBack i).owners = m.owners := by
  unfold giveBack
  split
  · simp
  · dsimp only
    split <;> simp

@[simp] theorem owners_flush (who : Flusher) (failures : List CloseFailure) :
    (m.flush who failures).owners = m.owners := by
  unfold flush
  split
  · simp
  · cases who <;> simp

@[simp] theorem owners_teardown : m.teardown.owners = m.owners := by
  unfold teardown
  split <;> simp

@[simp] theorem owners_withdraw (a : Acquire) : (m.withdraw a).owners = m.owners := by
  unfold withdraw
  split
  · split <;> simp
  · rfl

@[simp] theorem countP_nested (before : Reply) (ops : List Op) :
    (nested before ops).countP Activity.ownsReference = 0 := by
  refine List.countP_eq_zero.2 fun b member => ?_
  obtain ⟨op, rfl⟩ | rfl := nested_of_mem member <;> simp

@[simp] theorem owners_announce (c : Call) : (m.announce e c).owners = m.owners := by
  simp [announce]

@[simp] theorem owners_call (c : Call) : (m.call e c).owners = m.owners := by
  cases c with
  | schedule t =>
      simp only [call]
      split <;> simp
  | _ => exact owners_announce e _

@[simp] theorem owners_created (n w : Nat) (r : Reservation) :
    (m.created e n w r).owners = m.owners := by
  unfold created
  split <;> simp

@[simp] theorem owners_validated (i : Item) (check : Check) :
    (m.validated e i check).owners = m.owners := by
  unfold validated
  dsimp only
  split <;> simp

@[simp] theorem owners_noteClosed (slot : Nat) (f : Option Failure) :
    (m.noteClosed slot f).owners = m.owners := by
  cases f <;> simp [noteClosed]

@[simp] theorem owners_noteFailure (slot : Nat) (f : Option Failure) :
    (m.noteFailure slot f).owners = m.owners := by
  cases f <;> simp [noteFailure]

@[simp] theorem owners_closed (i : Item) (why : Closing) :
    (m.closed e i why).owners = m.owners := by
  unfold closed
  cases why <;> simp

theorem owners_scheduled (t : Task) : m.owners ≤ (m.scheduled t).owners := by
  unfold scheduled
  split
  · simp
  · simp only [owners, List.length_append]
    omega

/-- A thread that stops takes its references along. -/
theorem owners_hold (c : Call) (back : m.background.holdsBack = true) :
    (m.hold e c).owners = m.owners := by
  have running : m.background.ownsReference = false := by
    cases background : m.background <;> simp_all [Background.holdsBack, Background.ownsReference]
  unfold hold
  generalize above_eq : (m.stack.takeWhile fun a => !a.isThread) = above
  have whole : above ++ m.stack.drop above.length = m.stack :=
    List.prefix_iff_eq_append.1 (above_eq ▸ List.takeWhile_prefix _)
  have parts : m.stack.countP Activity.ownsReference = above.countP Activity.ownsReference +
      (((m.stack.drop above.length).take 1).countP Activity.ownsReference +
        ((m.stack.drop above.length).drop 1).countP Activity.ownsReference) := by
    rw [← List.countP_append, List.take_append_drop, ← List.countP_append, whole]
  have waiting : Background.held.ownsReference = false := rfl
  simp only [owners, parts, running, waiting, List.countP_cons, List.countP_append, List.drop_drop,
    Activity.ownsReference]
  simp
  omega

theorem owners_answered (c : Call) : m.owners ≤ (m.answered e c).owners := by
  cases c with
  | create n w r =>
      simp only [answered]
      split
      · next back => exact (owners_hold e _ back).ge
      · simp
  | schedule t => exact owners_scheduled t
  | _ => simp [answered]

@[simp] theorem owners_complete (t : Task) (o : Outcome) : m.owners ≤ (m.complete t o).owners := by
  unfold complete
  split <;> simp

@[simp] theorem owners_hangUp (w : Nat) : m.owners ≤ (m.hangUp w).owners := by
  unfold hangUp
  split <;> simp

theorem owners_runTask (t : Task) : 1 + m.owners ≤ (m.runTask t).owners := by
  unfold runTask
  dsimp only
  split <;> simp

theorem owners_put (k : Nat) (x : Handle) :
    x.refersToPool.toNat + m.owners ≤ (m.put k x).owners := by
  have replaced : (m.put k x).owners =
      ((m.handles.get? k).toList.flatMap dropHandle).countP Activity.ownsReference +
        (x.refersToPool.toNat + (m.take k).owners) := by
    simp only [put, owners_push]
    congr 1
    exact owners_setHandle m k x
  cases old : m.handles.get? k with
  | none => simp [replaced, old, owners_take_of_free old]
  | some y =>
      simp [replaced, old, owners_take old, countP_dropHandle]
      omega

@[simp] theorem owners_look (w : Nat) : (m.look w).2.owners = m.owners := by
  unfold look
  split <;> rfl

theorem owners_resolve {k : Nat} {x : Handle} (found : m.handles.get? k = some x)
    (refers : x.refersToPool = true) (o : Outcome) : m.owners ≤ (m.resolve k o).owners := by
  rw [owners_take found, refers]
  cases o <;> simp [resolve, Handle.refersToPool]

theorem look_handles (w : Nat) : (m.look w).2.handles = m.handles := by
  unfold look
  split <;> rfl

theorem owners_poll (k : Nat) : m.owners ≤ (m.poll k).owners := by
  unfold poll
  split
  · exact le_rfl
  · next a stored =>
      have same := m.owners_look a.waiter
      have handles := m.look_handles a.waiter
      split
      · next found =>
          rw [found] at same
          exact same.ge
      · next m' found =>
          rw [found] at same handles
          exact same.ge.trans (owners_resolve (handles ▸ stored) rfl _)
  · next a deadline stored =>
      have same := m.owners_look a.waiter
      have handles := m.look_handles a.waiter
      split
      · next found =>
          rw [found] at same handles
          exact same.ge.trans (owners_resolve (handles ▸ stored) rfl _)
      · next m' found =>
          rw [found] at same handles
          refine same.ge.trans ?_
          split
          · split
            · simp only [expire, owners_push]
              rw [owners_take (m := m') (handles ▸ stored)]
              simp [Handle.refersToPool]
            · exact le_rfl
          · exact le_rfl
  · next stored =>
      simp [owners_take stored, Handle.refersToPool]
  · exact le_rfl
  · exact le_rfl

theorem owners_pollEach (seen : List (Nat × Poll)) (rest : List Nat) :
    m.owners ≤ (m.pollEach seen rest).owners := by
  cases rest <;> simp [pollEach]

theorem owners_runNext (left : Option Nat) (labels : List Nat) :
    m.owners ≤ (m.runNext left labels).owners := by
  unfold runNext
  split
  · exact le_rfl
  · exact le_rfl
  · next queue => simp [owners_tasks queue]

theorem owners_turn : m.owners ≤ m.turn.owners := by
  unfold turn
  split
  · exact le_rfl
  · next queue => simp [owners_tasks queue]

theorem owners_onPool {f : Machine σ → Machine σ} (more : m.owners ≤ (f m).owners) :
    m.owners ≤ (m.onPool f).owners := by
  unfold onPool
  split
  · exact more
  · exact le_rfl

theorem owners_onFree {k : Nat} {f : Machine σ → Machine σ}
    (more : m.handles.get? k = none → m.owners ≤ (f m).owners) :
    m.owners ≤ (m.onFree k f).owners := by
  refine owners_onPool ?_
  cases stored : m.handles.get? k with
  | none => simpa [Table.contains, stored] using more stored
  | some x => simp [Table.contains, stored, refuse]

theorem owners_onResource {k : Nat} {f : Handle → Resource → Machine σ}
    (more : ∀ x r, m.handles.get? k = some x → m.owners ≤ (f x r).owners) :
    m.owners ≤ (m.onResource k f).owners := by
  unfold onResource
  split
  · exact le_rfl
  · next stored =>
      split
      · exact more _ _ stored
      · exact le_rfl

theorem owners_onTask {place : Nat} {f : Machine σ → Task → Machine σ}
    (more : ∀ (n : Machine σ) (t : Task), 1 + n.owners ≤ (f n t).owners) :
    m.owners ≤ (m.onTask place f).owners := by
  unfold onTask
  split
  · next t _ found =>
      rw [owners_tasks_eraseIdx found]
      exact more _ t
  · exact le_rfl

theorem owners_join : m.owners ≤ (m.join e).owners := by
  unfold join
  cases back : m.background with
  | held =>
      simp only [owners_push, List.countP_append]
      simp [owners, back, Background.ownsReference]
      omega
  | _ => simp [refuse]

theorem owners_perform (op : Op) : m.owners ≤ (m.perform e op).owners := by
  cases op with
  | acquire k =>
      simp only [perform]
      exact owners_onFree fun _ => by simp
  | get k =>
      simp only [perform]
      exact owners_onFree fun free => by simp [owners_take_of_free free]
  | poll k => exact owners_poll k
  | await k => simp [perform]
  | pollAll => exact owners_pollEach [] _
  | cancel k =>
      simp only [perform]
      split
      · exact le_rfl
      · next stored =>
          simp [cancel, owners_take stored, Handle.refersToPool]
      · exact le_rfl
  | drop k =>
      simp only [perform]
      split
      · exact le_rfl
      · next stored => simp [owners_take stored, countP_dropHandle]
  | checkin k =>
      simp only [perform]
      refine owners_onPool ?_
      split
      · exact le_rfl
      · next stored => simp [owners_take stored, countP_dropHandle]
      · exact le_rfl
  | detach k =>
      simp only [perform]
      split
      · exact le_rfl
      · next stored => simp [detach, owners_take stored, Handle.refersToPool]
      · exact le_rfl
  | execute k statement =>
      simp only [perform, execute]
      refine owners_onResource fun x r stored => ?_
      split
      · next r' _ =>
          have same : (x.setResource r').refersToPool = x.refersToPool := by cases x <;> rfl
          simp [owners_take stored, same]
      · exact le_rfl
  | executed k =>
      simp only [perform]
      exact owners_onResource fun _ _ _ => le_rfl
  | info k =>
      simp only [perform]
      split <;> exact le_rfl
  | describe k =>
      simp only [perform, describe]
      split <;> exact le_rfl
  | invalidateHeld k =>
      simp only [perform]
      split <;> exact le_rfl
  | tell n => exact le_rfl
  | run limit =>
      simp only [perform, run]
      split
      · exact owners_runNext limit []
      · split
        · exact le_rfl
        · simp [drive]
      · exact le_rfl
  | runAt place =>
      simp only [perform]
      exact owners_onTask fun n t => by simp
  | dropTask place =>
      simp only [perform]
      exact owners_onTask fun n t => by simp
  | advance ms =>
      simp only [perform, advance]
      split
      · split
        · exact le_rfl
        · simp only [drive, owners_push]
          exact Nat.le_add_left ..
      · exact le_rfl
  | dispatchCounts =>
      simp only [perform]
      split <;> exact le_rfl
  | factoryCounts => exact le_rfl
  | close =>
      simp only [perform]
      refine owners_onPool ?_
      unfold close
      split
      · exact le_rfl
      · simp
  | isClosed | status | slots | config | describePool | factoryCreated =>
      simp only [perform]
      exact owners_onPool le_rfl
  | clone =>
      simp only [perform]
      refine owners_onPool ?_
      simp only [owners, answer]
      omega
  | dropClone =>
      simp only [perform]
      split
      · exact le_rfl
      · simp only [letGo, owners_push, List.countP_cons]
        simp [owners]
        omega
  | dropPool =>
      simp only [perform]
      split
      · next main =>
          simp only [letGo, owners_push, List.countP_cons]
          simp [owners, main]
          omega
      · exact le_rfl
  | background k =>
      simp only [perform]
      refine owners_onFree fun _ => ?_
      unfold launch
      split
      · next absent =>
          simp only [owners_push]
          simp [owners, absent, Background.ownsReference]
      · exact le_rfl
  | join => exact owners_join e

/-- Only a release gives up a reference. -/
theorem exec_owners {a : Activity} (stays : a ≠ .release) :
    a.ownsReference.toNat + m.owners ≤ (m.exec e a).owners := by
  have free {n : Nat} (more : m.owners ≤ n) : false.toNat + m.owners ≤ n := by simpa using more
  cases a with
  | release => exact absurd rfl stays
  | perform op => exact free (owners_perform e op)
  | acquire purpose =>
      refine free ?_
      simp only [exec, request]
      split <;> simp
  | acquired b purpose =>
      refine free ?_
      cases purpose with
      | handle k => simp [exec, requested]
      | background k =>
          have bound := m.background.ownsReference.toNat_le
          have stored : (Background.done k b).ownsReference = true := rfl
          simp only [exec, requested, owners, stored, Bool.toNat_true]
          omega
      | get k =>
          have same := m.owners_look b.waiter
          simp only [exec, requested, firstPoll]
          split <;>
            · next found =>
                rw [found] at same
                simp [← same]
  | put k x => exact owners_put k x
  | quit b => exact free (by simp [exec])
  | hangUp w => exact free (owners_hangUp w)
  | answer c => exact free (owners_answered e c)
  | task t => exact owners_runTask t
  | deliver t | refuse t => exact free (owners_complete t _)
  | report failures =>
      refine free ?_
      simp only [exec, report]
      split <;> exact le_rfl
  | awaited k =>
      refine free ?_
      simp only [exec, awaited]
      split <;> simp
  | collect k rest seen => exact free (owners_pollEach _ rest)
  | runNext left labels => exact free (owners_runNext left labels)
  | turn => exact free owners_turn
  | launched =>
      refine free ?_
      simp only [exec, launched]
      split <;> exact le_rfl
  | joined =>
      refine free ?_
      simp only [exec, joined]
      split
      · next done =>
          simp only [owners_push, List.countP_cons]
          simp only [owners, done, Background.ownsReference, Activity.ownsReference,
            Handle.refersToPool, if_true, Bool.toNat_true, Bool.toNat_false]
          omega
      · exact le_rfl
  | _ => exact free (by simp [exec])

end

theorem Turn.backed {e : Environment σ} {m' : Machine σ} {a : Activity} {rest : List Activity}
    (turn : Turn e m a rest m') (stack : Backed (a :: rest)) (paused : Backed m.paused) :
    Backed m'.stack ∧ Backed m'.paused := by
  cases turn with
  | goOn leaves =>
      refine ⟨?_, leaves.paused ▸ paused⟩
      rw [leaves.stack]
      obtain ⟨borrows, own⟩ | backed := leaves.backed
      · simp only [Activity.borrows, Bool.and_eq_true, Bool.not_eq_true'] at borrows
        have backing := stack.1 borrows.1
        simp only [Backing, borrows.2, Bool.false_or, Bool.and_eq_true] at backing
        exact .push own backing.2 stack.2
      · exact backed.append stack.2
  | resume _ _ stack' paused' =>
      rw [stack', paused']
      exact ⟨paused.append ⟨by simp [Activity.refersToPool], stack.2⟩, trivial⟩
  | @halt k w r above below creates _ parts own mark stack' paused' =>
      subst parts
      obtain ⟨above', below'⟩ : Backed (a :: above) ∧ Backed below :=
        Backed.of_append stack mark
      rw [stack', paused']
      cases below with
      | nil => exact ⟨trivial, by simpa using above'.append paused⟩
      | cons t below =>
          obtain ⟨name, rfl⟩ : ∃ name, t = .thread name := by
            have := mark t (by simp)
            cases t <;> simp_all [Activity.isThread]
          refine ⟨below'.2, ?_⟩
          have mid : Backed [Activity.thread name] := by simp [Activity.refersToPool]
          simpa using (above'.append mid).append paused

/-- Whoever refers to the pool does so by a reference. -/
theorem owners_pos (stack : Backed m.stack) (paused : Backed m.paused)
    (referenced : m.isReferenced = true) : 0 < m.owners := by
  by_contra none
  have none : m.owners = 0 := by omega
  simp only [owners] at none
  have unreferenced : m.Unreferenced := by
    refine ⟨?_, by omega, fun x member => ?_, ?_, fun a member => ?_, fun k a done => ?_⟩
    · cases main : m.mainHandle <;> simp_all
    · have noHandle : m.handles.owners = 0 := by omega
      simpa using List.countP_eq_zero.1 noHandle x member
    · exact List.length_eq_zero_iff.1 (by omega)
    · refine Bool.eq_false_iff.2 fun refers => ?_
      obtain member | member := List.mem_append.1 member
      · have := stack.owner member refers
        omega
      · have := paused.owner member refers
        omega
    · simp [done, Background.ownsReference] at none
  rw [unreferenced_iff.2 unreferenced] at referenced
  cases referenced

theorem Unreferenced.owners (unreferenced : m.Unreferenced) : m.owners = 0 := by
  have nobody {as : List Activity} (inside : ∀ a ∈ as, a ∈ m.activities) :
      as.countP Activity.ownsReference = 0 := by
    refine List.countP_eq_zero.2 fun a member own => ?_
    have refers : a.refersToPool = true := by
      cases a <;> first | rfl | exact own | simp at own
    exact absurd ((unreferenced.activities a (inside a member)).symm.trans refers) (by simp)
  have handles : m.handles.owners = 0 :=
    List.countP_eq_zero.2 fun x member => by simp [unreferenced.handles x member]
  have back : m.background.ownsReference = false := by
    cases background : m.background with
    | done k a => exact absurd background (unreferenced.background k a)
    | _ => rfl
  simp only [Machine.owners, unreferenced.mainHandle, unreferenced.clones, unreferenced.tasks,
    handles, back, nobody fun a member => List.mem_append.2 (.inl member),
    nobody fun a member => List.mem_append.2 (.inr member)]
  rfl

theorem owners_top {a : Activity} {rest : List Activity} (top : m.stack = a :: rest) :
    m.owners = a.ownsReference.toNat + ({ m with stack := rest } : Machine σ).owners := by
  simp only [owners, top, List.countP_cons]
  cases a.ownsReference with
  | true =>
      simp
      omega
  | false => simp

/-- A step leaves a reference, or the pool is taken down. -/
theorem step_owned {e : Environment σ} (stack : Backed m.stack) (paused : Backed m.paused)
    (one : m.assets.count .permit = 1) (before : m.torn = true ∨ 0 < m.owners) :
    (m.step e).torn = true ∨ 0 < (m.step e).owners := by
  cases top : m.stack with
  | nil => simpa only [step, top] using before
  | cons a rest =>
      have next : m.step e = ({ m with stack := rest } : Machine σ).exec e a := by
        rw [step, top]
      by_cases last : a = .release
      · subst last
        rw [next]
        simp only [exec, release]
        split
        · next alive =>
            refine (Bool.or_eq_true_iff.1 alive).symm.imp id fun referenced => ?_
            exact owners_pos (m := { m with stack := rest }) (top ▸ stack).2 paused referenced
        · exact .inl rfl
      · have stays : ¬m.LetsGo := by
          rintro ⟨_, top', _⟩
          exact last (List.cons.inj (top.symm.trans top')).1
        refine before.imp (fun torn => ?_) fun owned => ?_
        · have same := (step_moves e m [] one).keeps (I := fun b => b.torn = m.torn)
            (fun move same => (move.torn_of_not_gone stays).trans same) rfl
          exact Eq.trans same torn
        · rw [next]
          rw [owners_top top] at owned
          exact owned.trans_le (exec_owners e last)

end Machine

namespace Run

open Machine

variable {σ : Type} {e : Environment σ} {past : List (Machine σ)} {m : Machine σ}

theorem backed (run : Run e past m) : Backed m.stack ∧ Backed m.paused := by
  induction run with
  | start built =>
      unfold Machine.build at built
      split at built
      · simp at built
      · obtain rfl := Except.ok.inj built
        exact ⟨trivial, trivial⟩
  | ask op run idle ih =>
      exact ⟨⟨by simp [Activity.refersToPool], ih.1⟩, ih.2⟩
  | threads run idle onThreads ih =>
      exact ⟨⟨by simp [Activity.refersToPool], ih.1⟩, ih.2⟩
  | @step past m run ih =>
      cases stack : m.stack with
      | nil => simpa only [Machine.step, stack] using ih
      | cons a rest => exact (step_turn stack).backed (stack ▸ ih.1) ih.2

theorem torn_or_owned (run : Run e past m) : m.torn = true ∨ 0 < m.owners := by
  induction run with
  | start built =>
      unfold Machine.build at built
      split at built
      · simp at built
      · obtain rfl := Except.ok.inj built
        exact .inr (Nat.lt_of_lt_of_le Nat.one_pos (by
          simp only [owners, Machine.log, Machine.note, Bool.toNat_true]
          omega))
  | ask op run idle ih => exact ih.imp id fun owned => by simpa using owned
  | threads run idle onThreads ih => exact ih.imp id fun owned => by simpa using owned
  | step run ih => exact step_owned run.backed.1 run.backed.2 run.count_permit ih

/-- A pool is or was taken down exactly when nothing refers to it. -/
theorem torn_iff (run : Run e past m) : m.torn = true ↔ m.isReferenced = false := by
  refine ⟨fun torn => unreferenced_iff.2 (run.unreferenced torn), fun unreferenced => ?_⟩
  refine run.torn_or_owned.resolve_right fun owned => ?_
  exact owned.ne' (unreferenced_iff.1 unreferenced).owners

end Run
end ResourcePool
