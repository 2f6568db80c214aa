import ResourcePool.Proofs.Sequel

/-!
What an activity leaves as it is. Most operations change the line of waiters, the handles or the
surroundings at most and leave the rest to further activities; the stock changes only where a
resource is handed on, comes back, or leaves the pool. A slot that is in a wrong state is noted in
two places, both in the middle of such a change.
-/

namespace ResourcePool

/-- A slot was found in a state that it must not be in there. -/
@[simp] def Event.isMisuse : Event → Bool
  | .log (.notLent ..) | .log (.notIdle ..) => true
  | _ => false

/-- The activity leaves the stock alone. -/
@[simp] def Activity.bystands : Activity → Bool
  | .perform .close | .perform (.detach _) | .teardown | .giveBack _ | .trigger | .again _
  | .round .. | .search .. | .flush .. | .call (.schedule _) | .answer (.create ..)
  | .answer (.validate ..) | .answer (.close _ (.invalid _)) => false
  | _ => true

namespace Machine

variable {σ : Type} {e : Environment σ} {m m' n : Machine σ}

/-- The stock, the number of resources made and that of scheduled deliveries are as they were, and
no slot was found in a wrong state. -/
structure Bystands (m m' : Machine σ) : Prop where
  stock : m.pool.SameStock m'.pool
  made : m'.made = m.made
  scheduled : m'.counts.scheduled = m.counts.scheduled
  proper : ∀ ev ∈ m'.trace, ev ∈ m.trace ∨ ev.isMisuse = false

namespace Bystands

theorem of_eq (pool : m'.pool = m.pool) (made : m'.made = m.made)
    (scheduled : m'.counts.scheduled = m.counts.scheduled) (trace : m'.trace = m.trace) :
    m.Bystands m' :=
  ⟨pool ▸ .refl m.pool, made, scheduled, fun _ member => .inl (trace ▸ member)⟩

theorem refl (m : Machine σ) : m.Bystands m :=
  .of_eq rfl rfl rfl rfl

theorem push (before : m.Bystands m') (as : List Activity) : m.Bystands (m'.push as) :=
  ⟨before.stock, before.made, before.scheduled, before.proper⟩

theorem answer (before : m.Bystands m') (r : Reply) : m.Bystands (m'.answer r) :=
  ⟨before.stock, before.made, before.scheduled, before.proper⟩

theorem withPool (before : m.Bystands m') {p : Pool} (same : m'.pool.SameStock p) :
    m.Bystands (m'.withPool p) :=
  ⟨before.stock.trans same, before.made, before.scheduled, before.proper⟩

theorem note (before : m.Bystands m') {v : Event} (proper : v.isMisuse = false) :
    m.Bystands (m'.note v) := by
  refine ⟨before.stock, before.made, before.scheduled, fun ev' member => ?_⟩
  obtain rfl | member := List.mem_cons.1 member
  · exact .inr proper
  · exact before.proper ev' member

theorem trans (first : m.Bystands n) (second : n.Bystands m') : m.Bystands m' := by
  refine ⟨first.stock.trans second.stock, second.made.trans first.made,
    second.scheduled.trans first.scheduled, fun ev member => ?_⟩
  exact (second.proper ev member).elim (first.proper ev) .inr

theorem onPool {f : Machine σ → Machine σ} (same : m.Bystands (f m)) :
    m.Bystands (m.onPool f) := by
  unfold Machine.onPool
  split
  · exact same
  · exact (refl m).answer _

theorem onFree {k : Nat} {f : Machine σ → Machine σ} (same : m.Bystands (f m)) :
    m.Bystands (m.onFree k f) := by
  refine onPool ?_
  split
  · exact (refl m).answer _
  · exact same

theorem onResource {k : Nat} {f : Handle → Resource → Machine σ}
    (same : ∀ x r, m.Bystands (f x r)) : m.Bystands (m.onResource k f) := by
  unfold Machine.onResource
  split
  · exact (refl m).answer _
  · split
    · exact same _ _
    · exact (refl m).answer _

theorem onTask {place : Nat} {f : Machine σ → Task → Machine σ}
    (same : ∀ (n : Machine σ) (t : Task), n.Bystands (f n t)) :
    m.Bystands (m.onTask place f) := by
  unfold Machine.onTask
  split
  · exact trans (n := { m with tasks := m.tasks.eraseIdx place }) (of_eq rfl rfl rfl rfl) (same ..)
  · exact (refl m).answer _

end Bystands

theorem look_bystands (m : Machine σ) (w : Nat) : m.Bystands (m.look w).2 := by
  have same := m.pool.receive_sameStock w
  unfold look
  split
  · exact .refl m
  · next received =>
      rw [received] at same
      exact (Bystands.refl m).withPool same
  · next received =>
      rw [received] at same
      exact (Bystands.refl m).withPool same

theorem Bystands.withdraw (before : m.Bystands n) (a : Acquire) :
    m.Bystands (n.withdraw a) := by
  unfold Machine.withdraw
  split
  · split
    · next cancelled =>
        exact ((before.withPool (Pool.cancel?_sameStock cancelled)).note rfl).push _
    · exact before
  · exact before

theorem resolve_bystands (m : Machine σ) (k : Nat) (o : Outcome) :
    m.Bystands (m.resolve k o) := by
  cases o <;> exact .of_eq rfl rfl rfl rfl

theorem poll_bystands (m : Machine σ) (k : Nat) : m.Bystands (m.poll k) := by
  unfold poll
  split
  · exact .of_eq rfl rfl rfl rfl
  · next a _ =>
      have same := m.look_bystands a.waiter
      split <;> next seen =>
        rw [seen] at same
        first | exact same.answer _ | exact same.trans (resolve_bystands ..)
  · next a deadline _ =>
      have same := m.look_bystands a.waiter
      split <;> next seen =>
        rw [seen] at same
        first
        | exact same.trans (resolve_bystands ..)
        | split
          · split
            · exact same.trans (.of_eq rfl rfl rfl rfl)
            · exact same.answer _
          · exact same.answer _
  all_goals exact .of_eq rfl rfl rfl rfl

theorem pollEach_bystands (m : Machine σ) (seen : List (Nat × Poll)) (rest : List Nat) :
    m.Bystands (m.pollEach seen rest) := by
  cases rest <;> exact .of_eq rfl rfl rfl rfl

theorem runNext_bystands (m : Machine σ) (left : Option Nat) (labels : List Nat) :
    m.Bystands (m.runNext left labels) := by
  unfold runNext
  split <;> exact .of_eq rfl rfl rfl rfl

theorem perform_bystands (m : Machine σ) {op : Op} (other : (Activity.perform op).bystands = true) :
    m.Bystands (m.perform e op) := by
  cases op with
  | close | detach => cases other
  | poll k => exact m.poll_bystands k
  | pollAll => exact m.pollEach_bystands [] _
  | cancel k =>
      simp only [perform]
      split
      · exact (Bystands.refl m).answer _
      · have taken : m.Bystands (m.take k) := .of_eq rfl rfl rfl rfl
        exact (taken.push _).withdraw _
      · exact (Bystands.refl m).answer _
  | acquire | get =>
      simp only [perform]
      exact .onFree (.of_eq rfl rfl rfl rfl)
  | background k =>
      simp only [perform]
      refine .onFree ?_
      unfold launch
      split <;> exact .of_eq rfl rfl rfl rfl
  | isClosed | status | slots | config | describePool | factoryCreated | clone =>
      simp only [perform]
      exact .onPool (.of_eq rfl rfl rfl rfl)
  | checkin =>
      simp only [perform]
      refine .onPool ?_
      split <;> exact .of_eq rfl rfl rfl rfl
  | runAt | dropTask =>
      simp only [perform]
      exact .onTask fun n t => .of_eq rfl rfl rfl rfl
  | execute k statement =>
      simp only [perform, execute]
      refine .onResource fun x r => ?_
      split <;> exact .of_eq rfl rfl rfl rfl
  | executed k =>
      simp only [perform]
      exact .onResource fun x r => .of_eq rfl rfl rfl rfl
  | run limit =>
      simp only [perform, run]
      split
      · exact m.runNext_bystands limit []
      · split <;> exact .of_eq rfl rfl rfl rfl
      · exact .of_eq rfl rfl rfl rfl
  | advance ms =>
      simp only [perform, advance]
      split
      · split <;> exact .of_eq rfl rfl rfl rfl
      · exact .of_eq rfl rfl rfl rfl
  | join =>
      simp only [perform, join]
      split <;> exact .of_eq rfl rfl rfl rfl
  | await | tell | factoryCounts => exact .of_eq rfl rfl rfl rfl
  | _ =>
      simp only [perform, describe]
      split <;> exact .of_eq rfl rfl rfl rfl

theorem announce_bystands (m : Machine σ) (c : Call) : m.Bystands (m.announce e c) := by
  have entered : m.Bystands { m with env := (e.enter c.moment m.env).2 } := .of_eq rfl rfl rfl rfl
  exact (entered.note rfl).push _

theorem closed_bystands (m : Machine σ) (i : Item) {why : Closing}
    (other : (Activity.answer (.close i why)).bystands = true) :
    m.Bystands (m.closed e i why) := by
  have failure (n : Machine σ) (f : Option Failure) : n.Bystands (n.noteFailure i.slot f) := by
    cases f
    · exact .refl n
    · exact (Bystands.refl n).note rfl
  have closing (n : Machine σ) (f : Option Failure) : n.Bystands (n.noteClosed i.slot f) := by
    cases f <;> exact (Bystands.refl n).note rfl
  have answered : m.Bystands { m with env := (e.close i.resource m.env).2 } :=
    .of_eq rfl rfl rfl rfl
  have noted := answered.note
    (v := if (e.close i.resource m.env).1.isNone then .closed else .closeFailed)
    (by split <;> rfl)
  cases why with
  | invalid check => simp at other
  | misfit => exact noted.trans (failure _ _)
  | inHand | teardown => exact noted.trans (closing _ _)
  | flush who failures => exact (noted.trans (closing _ _)).push _

theorem complete_bystands (m : Machine σ) (t : Task) (o : Outcome) :
    m.Bystands (m.complete t o) := by
  have same := m.pool.complete_sameStock t.waiter o
  unfold complete
  split <;> next sent =>
    rw [sent] at same
    exact ⟨same, rfl, rfl, fun ev => .inl⟩

theorem hangUp_bystands (m : Machine σ) (w : Nat) : m.Bystands (m.hangUp w) := by
  have same := m.pool.hangUp_sameStock w
  unfold hangUp
  split <;> next left =>
    rw [left] at same
    exact ⟨same, rfl, rfl, fun ev => .inl⟩

/-- All other activities leave the stock alone. -/
theorem exec_bystands (m : Machine σ) {a : Activity} (other : a.bystands = true) :
    m.Bystands (m.exec e a) := by
  cases a with
  | perform op => exact m.perform_bystands other
  | teardown | giveBack | trigger | again | round | search | flush => cases other
  | finish before => exact ((Bystands.refl m).note rfl).answer _
  | release =>
      simp only [exec, release]
      split <;> exact .of_eq rfl rfl rfl rfl
  | acquire purpose =>
      simp only [exec, request]
      split
      · exact ((Bystands.refl m).withPool m.pool.turnAway_sameStock).push _
      · exact (((Bystands.refl m).withPool m.pool.enroll_sameStock).note rfl).push _
  | acquired a purpose =>
      cases purpose with
      | get k =>
          simp only [exec, requested, firstPoll]
          have same := m.look_bystands a.waiter
          split <;> next seen =>
            rw [seen] at same
            exact same.trans (.of_eq rfl rfl rfl rfl)
      | _ => exact .of_eq rfl rfl rfl rfl
  | quit a => exact ((Bystands.refl m).push _).withdraw a
  | hangUp w => exact m.hangUp_bystands w
  | abandon t => exact (Bystands.refl m).withPool (m.pool.modifyWaiter_sameStock ..)
  | call c =>
      cases c with
      | schedule t => cases other
      | _ => exact m.announce_bystands _
  | answer c =>
      cases c with
      | create | validate => cases other
      | close i why => exact m.closed_bystands i other
      | schedule t =>
          simp only [exec, answered, scheduled]
          split <;> exact .of_eq rfl rfl rfl rfl
  | task t =>
      have counted (b : Bool) : (m.counts.begin b).scheduled = m.counts.scheduled := by
        cases b <;> rfl
      simp only [exec, runTask]
      split <;> exact .of_eq rfl rfl (counted _) rfl
  | deliver t | refuse t => exact m.complete_bystands t _
  | wentAway slot w => exact (Bystands.refl m).note rfl
  | report failures =>
      simp only [exec, report]
      split
      · exact (Bystands.refl m).answer _
      · exact ((Bystands.refl m).note rfl).answer _
  | timedOut limit => exact ((Bystands.refl m).note rfl).answer _
  | awaited k =>
      simp only [exec, awaited]
      split <;> exact .of_eq rfl rfl rfl rfl
  | collect k rest seen => exact m.pollEach_bystands _ rest
  | runNext left labels => exact m.runNext_bystands left labels
  | turn =>
      simp only [exec, turn]
      split <;> exact .of_eq rfl rfl rfl rfl
  | launched =>
      simp only [exec, launched]
      split <;> exact .of_eq rfl rfl rfl rfl
  | joined =>
      simp only [exec, joined]
      split <;> exact .of_eq rfl rfl rfl rfl
  | _ => exact .of_eq rfl rfl rfl rfl

end Machine
end ResourcePool
