import ResourcePool.Proofs.Choices
import ResourcePool.Proofs.Turns

/-!
Who joins the waiters. A request adds one waiter, whether it is made through a handle, by the first
poll of a request with a limit, or on the other thread; nothing else adds any.
-/

namespace ResourcePool

namespace Pool

@[simp] theorem pick_nextWaiter (p : Pool) (view : List Nat) :
    (p.pick view).2.nextWaiter = p.nextWaiter := by
  cases picked : p.pick view with
  | mk chosen q =>
      cases chosen with
      | none => obtain rfl | ⟨id, _, rfl⟩ := pick_eq_none picked <;> rfl
      | some id =>
          obtain ⟨x, _, _, rfl⟩ := pick_eq_some picked
          exact modifyWaiter_nextWaiter ..

theorem SameLine.nextWaiter {p q : Pool} (same : p.SameLine q) : q.nextWaiter = p.nextWaiter :=
  congrArg List.length same.waiters

theorem cancel?_nextWaiter {p q : Pool} {w : Nat} (cancelled : p.cancel? w = some q) :
    q.nextWaiter = p.nextWaiter := by
  obtain ⟨x, _, _, rfl⟩ := cancel?_eq_some cancelled
  exact modifyWaiter_nextWaiter ..

end Pool

/-- The activity makes a request. -/
@[simp] def Activity.demands : Activity → Bool
  | acquire _ => true
  | _ => false

namespace Machine

variable {σ : Type} {e : Environment σ} {m : Machine σ}

/-- Nobody joined the waiters. -/
def SameRoll (m m' : Machine σ) : Prop :=
  m'.pool.nextWaiter = m.pool.nextWaiter

theorem look_sameRoll (m : Machine σ) (w : Nat) : m.SameRoll (m.look w).2 := by
  have same := m.pool.receive_nextWaiter w
  unfold look
  split
  · exact rfl
  all_goals
    next received =>
      rw [received] at same
      exact same

theorem withdraw_sameRoll (m : Machine σ) (a : Acquire) : m.SameRoll (m.withdraw a) := by
  unfold withdraw
  split
  · split
    · next cancelled => exact Pool.cancel?_nextWaiter cancelled
    · exact rfl
  · exact rfl

theorem resolve_sameRoll (m : Machine σ) (k : Nat) (o : Outcome) : m.SameRoll (m.resolve k o) := by
  cases o <;> exact rfl

theorem poll_sameRoll (m : Machine σ) (k : Nat) : m.SameRoll (m.poll k) := by
  unfold poll
  split
  · exact rfl
  · next a _ =>
      have same := m.look_sameRoll a.waiter
      split <;> next seen =>
        rw [seen] at same
        first | exact same | exact (resolve_sameRoll ..).trans same
  · next a deadline _ =>
      have same := m.look_sameRoll a.waiter
      split <;> next seen =>
        rw [seen] at same
        first
        | exact (resolve_sameRoll ..).trans same
        | split
          · split <;> exact same
          · exact same
  all_goals exact rfl

theorem perform_sameRoll (m : Machine σ) (op : Op) : m.SameRoll (m.perform e op) := by
  have onPool {f : Machine σ → Machine σ} (same : m.SameRoll (f m)) : m.SameRoll (m.onPool f) := by
    unfold Machine.onPool
    split
    · exact same
    · exact rfl
  have onFree {k : Nat} {f : Machine σ → Machine σ} (same : m.SameRoll (f m)) :
      m.SameRoll (m.onFree k f) := by
    refine onPool ?_
    split
    · exact rfl
    · exact same
  have onResource {k : Nat} {f : Handle → Resource → Machine σ} (same : ∀ x r, m.SameRoll (f x r)) :
      m.SameRoll (m.onResource k f) := by
    unfold Machine.onResource
    split
    · exact rfl
    · split
      · exact same _ _
      · exact rfl
  cases op with
  | poll k => exact m.poll_sameRoll k
  | pollAll =>
      simp only [perform]
      cases ((m.handles.entries.filter fun e => e.2.isPending).map Prod.fst) <;> exact rfl
  | cancel k =>
      simp only [perform]
      split
      · exact rfl
      · exact withdraw_sameRoll ..
      · exact rfl
  | acquire | get => exact onFree rfl
  | background k =>
      refine onFree ?_
      unfold launch
      split <;> exact rfl
  | isClosed | status | slots | config | describePool | factoryCreated | clone => exact onPool rfl
  | close =>
      refine onPool ?_
      unfold close
      split <;> exact rfl
  | checkin =>
      refine onPool ?_
      split <;> exact rfl
  | runAt | dropTask =>
      simp only [perform, onTask]
      split <;> exact rfl
  | execute k statement =>
      refine onResource fun x r => ?_
      split <;> exact rfl
  | executed k => exact onResource fun _ _ => rfl
  | run limit =>
      simp only [perform, run, runNext]
      split
      · split <;> exact rfl
      · split <;> exact rfl
      · exact rfl
  | advance ms =>
      simp only [perform, advance]
      split
      · split <;> exact rfl
      · exact rfl
  | join =>
      simp only [perform, join]
      split <;> exact rfl
  | await | tell | factoryCounts => exact rfl
  | _ =>
      simp only [perform, describe]
      split <;> exact rfl

theorem lend_sameRoll (m : Machine σ) (w : Nat) (i : Item) : m.SameRoll (m.lend w i) :=
  (m.lend_sameLine w i).nextWaiter

theorem handOut_sameRoll (m : Machine σ) (n : Nat) (view : List Nat) (i : Item) :
    m.SameRoll (m.handOut n view i) :=
  (m.handOut_sameLine n view i).nextWaiter.trans (Pool.pick_nextWaiter ..)

theorem seek_sameRoll (m : Machine σ) (n : Nat) (view : List Nat) : m.SameRoll (m.seek n view) := by
  unfold seek
  split
  · next i p popped =>
      have same := (Pool.popReturned?_sameLine popped).nextWaiter
      split
      · exact same
      · exact (handOut_sameRoll ..).trans same
  · split
    · next r p reserved =>
        exact ((m.withPool p).fill_sameLine n view r).nextWaiter.trans
          ((Pool.pick_nextWaiter ..).trans (Pool.reserve?_sameLine reserved).nextWaiter)
    · exact rfl

theorem created_sameRoll (m : Machine σ) (n w : Nat) (r : Reservation) :
    m.SameRoll (m.created e n w r) := by
  unfold created
  split
  · exact (lend_sameRoll ..).trans (m.pool.occupy_sameLine r).nextWaiter
  · exact (Pool.complete_nextWaiter ..).trans (m.pool.unreserve_sameLine r).nextWaiter

theorem answered_sameRoll (m : Machine σ) (c : Call) : m.SameRoll (m.answered e c) := by
  cases c with
  | create n w r =>
      simp only [answered]
      split
      · exact rfl
      · exact m.created_sameRoll n w r
  | validate i check =>
      simp only [answered, validated]
      split
      · exact handOut_sameRoll ..
      · exact rfl
      · exact rfl
  | close i why =>
      have failure (n : Machine σ) (f : Option Failure) : n.SameRoll (n.noteFailure i.slot f) := by
        cases f <;> exact rfl
      have closing (n : Machine σ) (f : Option Failure) : n.SameRoll (n.noteClosed i.slot f) := by
        cases f <;> exact rfl
      cases why with
      | invalid check => cases check <;> exact failure ..
      | misfit => exact failure ..
      | inHand | teardown | flush => exact closing ..
  | schedule t =>
      simp only [answered, scheduled]
      split <;> exact rfl

/-- A request adds a waiter, and nothing else does. -/
theorem exec_nextWaiter (m : Machine σ) (a : Activity) :
    (m.exec e a).pool.nextWaiter = m.pool.nextWaiter + if a.demands then 1 else 0 := by
  cases a with
  | perform op => exact m.perform_sameRoll op
  | acquire purpose =>
      simp only [exec, request]
      split <;> exact List.length_append
  | acquired a purpose =>
      cases purpose with
      | get k =>
          have same := m.look_sameRoll a.waiter
          simp only [exec, requested, firstPoll]
          split <;> next seen =>
            rw [seen] at same
            exact same
      | _ => exact rfl
  | quit a => exact withdraw_sameRoll ..
  | hangUp w =>
      have same := m.pool.hangUp_nextWaiter w
      simp only [exec, hangUp]
      split <;> next left =>
        rw [left] at same
        exact same
  | abandon t => exact Pool.modifyWaiter_nextWaiter ..
  | giveBack i =>
      simp only [exec, giveBack]
      split
      · exact rfl
      · next taken =>
          have same := (Pool.takeBack?_sameLine taken).nextWaiter
          split <;> exact same
  | search n view => exact m.seek_sameRoll n view
  | round n inHand =>
      simp only [exec, round]
      split
      · cases inHand <;> exact rfl
      · split
        · exact rfl
        · exact rfl
        · exact m.handOut_sameRoll ..
        · exact m.seek_sameRoll ..
  | release =>
      simp only [exec, release]
      split <;> exact rfl
  | teardown =>
      simp only [exec, teardown]
      split
      · next popped => exact (Pool.popReturned?_sameLine popped).nextWaiter
      · exact rfl
  | trigger =>
      simp only [exec, trigger]
      split <;> exact rfl
  | again n =>
      simp only [exec, again]
      split <;> exact rfl
  | call c =>
      simp only [exec, call]
      split
      · split <;> exact rfl
      · exact rfl
  | answer c => exact m.answered_sameRoll c
  | task t =>
      simp only [exec, runTask]
      split <;> exact rfl
  | deliver t | refuse t =>
      simp only [exec, complete]
      split <;> next sent =>
        exact (congrArg (·.2.nextWaiter) sent).symm.trans (Pool.complete_nextWaiter ..)
  | flush who failures =>
      simp only [exec, flush]
      split
      · next popped => exact (Pool.popReturned?_sameLine popped).nextWaiter
      · cases who <;> exact Pool.foldl_dismiss_nextWaiter ..
  | report failures =>
      simp only [exec, report]
      split <;> exact rfl
  | awaited k =>
      simp only [exec, awaited]
      split <;> exact rfl
  | collect k rest seen => cases rest <;> exact rfl
  | runNext left labels =>
      simp only [exec, runNext]
      split <;> exact rfl
  | turn =>
      simp only [exec, turn]
      split <;> exact rfl
  | launched =>
      simp only [exec, launched]
      split <;> exact rfl
  | joined =>
      simp only [exec, joined]
      split <;> exact rfl
  | _ => exact rfl

/-- A request is made in the next step. -/
def demands (m : Machine σ) : Bool :=
  m.stack.head?.any Activity.demands

theorem step_nextWaiter (m : Machine σ) :
    (m.step e).pool.nextWaiter = m.pool.nextWaiter + if m.demands then 1 else 0 := by
  unfold step demands
  cases m.stack with
  | nil => exact rfl
  | cons a rest => exact exec_nextWaiter { m with stack := rest } a

end Machine

/-- There are as many waiters as requests were made. -/
theorem Run.nextWaiter_eq {σ : Type} {e : Environment σ} {past : List (Machine σ)} {m : Machine σ}
    (run : Run e past m) : m.pool.nextWaiter = past.countP Machine.demands := by
  refine run.byTurns (I := fun past m => m.pool.nextWaiter = past.countP Machine.demands)
    (fun fresh _ _ => by rw [fresh]; rfl) (fun _ _ _ before => before)
    (fun empty before => by simp [before, Machine.demands, empty]) fun _ _ _ before => ?_
  rw [Machine.step_nextWaiter, before, List.countP_cons]

end ResourcePool
