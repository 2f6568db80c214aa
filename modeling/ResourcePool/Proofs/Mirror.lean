import ResourcePool.Proofs.Outset
import ResourcePool.Proofs.Potential

/-!
Two pools side by side: one runs each delivery as soon as it is scheduled, the other queues it. As
long as they are used from outside alone, the first looks at every step as the second would if its
queued deliveries had run.
-/

namespace ResourcePool

/-- The waiter on whose line the activity looks, or sends something. -/
def Activity.addressee? : Activity → Option Nat
  | hangUp w | answer (.create _ w _) => some w
  | _ => none

namespace Run

variable {σ : Type} {e : Environment σ} {past : List (Machine σ)} {m : Machine σ}

theorem task_sender {t : Task} (queued : t ∈ m.tasks) :
    .sender t.waiter [.entrusted t.item] ∈ m.assets := by
  have inside : Asset.sender t.waiter [.entrusted t.item] ∈ (m.tasks.map Task.assets).sum :=
    mem_sum_map.2 ⟨t, queued, by simp⟩
  simp [Machine.assets, inside]

/-- The waiter of a queued delivery. -/
theorem task_waiter (run : Run e past m) {t : Task} (queued : t ∈ m.tasks) :
    ∃ x, m.pool.waiters[t.waiter]? = some x ∧ x.line = .silent := by
  obtain ⟨x, found, _, silent, _⟩ := run.sender (task_sender queued)
  exact ⟨x, found, silent⟩

theorem task_known (run : Run e past m) {t : Task} (queued : t ∈ m.tasks) :
    t.waiter ≠ m.pool.nextWaiter := by
  obtain ⟨x, found, _⟩ := run.task_waiter queued
  exact Nat.ne_of_lt (List.getElem?_eq_some_iff.1 found).1

/-- No queued delivery goes to a waiter that is dealt with now. -/
theorem task_apart (run : Run e past m) {t : Task} (queued : t ∈ m.tasks) {a : Activity}
    (left : a ∈ m.stack) {w : Nat} (addressed : a.addressee? = some w)
    (heard : a = .hangUp w → ∃ x, m.pool.waiters[w]? = some x ∧ x.line ≠ .silent) :
    t.waiter ≠ w := by
  rintro rfl
  obtain ⟨x, found, _, silent, only⟩ := run.sender (task_sender queued)
  unfold Activity.addressee? at addressed
  split at addressed
  · obtain rfl := Option.some.inj addressed
    obtain ⟨y, found', loud⟩ := heard rfl
    obtain rfl : x = y := Option.some.inj (found.symm.trans found')
    exact loud silent
  · obtain rfl := Option.some.inj addressed
    have inside : .sender t.waiter [] ∈ m.assets :=
      Machine.mem_assets (List.mem_append_left _ left) (by simp)
    exact absurd (only [] inside) (by simp)
  · cases addressed

end Run

namespace Machine

variable {σ : Type} {e : Environment σ} {P : σ → Prop} {m m₁ m₂ : Machine σ}

/-- A step does the same whether the queued deliveries have run or not. -/
theorem exec_shadow (silent : e.Silent P) (holds : P m.env) {a : Activity}
    (fits : a.fits m.pool.closed = true) (owned : m.mainHandle = true)
    (alone : m.background = .absent) (done : m.pool.closed = true → m.tasks = [])
    (apart : ∀ t ∈ m.tasks, ∀ w, a.addressee? = some w → t.waiter ≠ w)
    (known : ∀ t ∈ m.tasks, t.waiter ≠ m.pool.nextWaiter)
    (noTask : ∀ t, a ≠ .answer (.schedule t)) :
    (m.exec e a).shadow = (m.shadow.exec e a).shadow := by
  cases a with
  | say r => rfl
  | release =>
      have referenced : ∀ n : Machine σ, n.mainHandle = true → n.release = n := fun n owned => by
        simp [release, isReferenced, owned]
      change m.release.shadow = m.shadow.release.shadow
      rw [referenced m owned, referenced m.shadow owned]
      rfl
  | acquire purpose => exact m.request_shadow purpose known done
  | acquired a purpose =>
      cases purpose with
      | handle k => rfl
      | get k | background k => simp [Activity.fits] at fits
  | put k x => exact m.put_shadow k x
  | hangUp w => exact m.hangUp_shadow w fun t queued => apart t queued w rfl
  | giveBack i => exact m.giveBack_shadow i
  | trigger => exact m.trigger_shadow
  | again k => exact m.again_shadow k
  | round k inHand => exact m.round_shadow k inHand
  | search k view => exact m.seek_shadow k view
  | call c => exact m.call_shadow (silent.names c.moment m.env holds)
  | answer c =>
      cases c with
      | create k w r =>
          have absent : m.shadow.background = .absent := alone
          simp only [exec, answered, alone, absent, Background.holdsBack]
          exact m.created_shadow k w r fun t queued => apart t queued w rfl
      | validate i check => exact m.validated_shadow i check
      | close i why => exact m.closed_shadow i why
      | schedule t => exact absurd rfl (noTask t)
  | flush who failures =>
      exact flush_shadow (done (by simpa [Activity.fits] using fits)) who failures
  | report failures =>
      change (m.report failures).shadow = (m.shadow.report failures).shadow
      unfold report
      split <;> rfl
  | perform _ | finish _ | teardown | quit _ | abandon _ | task _ | deliver _ | refuse _
  | wentAway _ _ | ran | timedOut _ | awaited _ | collect _ _ _ | runNext _ _ | turn | thread _
  | launched | joined => simp [Activity.fits] at fits

/-- A delivery that runs in an open pool, to somebody who listens. -/
theorem task_steps {t : Task} {rest : List Activity} {x : Waiter Outcome}
    (stack : m.stack = .task t :: rest) (owned : m.mainHandle = true)
    (opened : m.pool.closed = false) (found : m.pool.waiters[t.waiter]? = some x)
    (listening : x.listening = true) :
    ∃ c : DispatchCounts, c.scheduled = m.counts.scheduled ∧ m.steps e 4 = { m with
      stack := rest
      pool := m.pool.modifyWaiter t.waiter fun x => { x with line := .sent (.ok t.item) }
      counts := c } := by
  have sent : m.pool.complete t.waiter (.ok t.item) =
      (none, m.pool.modifyWaiter t.waiter fun x => { x with line := .sent (.ok t.item) }) := by
    rw [Pool.modifyWaiter_eq found]
    simp [Pool.complete, Pool.waiter?, found, Waiter.complete, listening]
  refine ⟨?c, ?_, ?_⟩
  case c =>
    exact (m.counts.begin (t.thread == ({ m with stack := rest } : Machine σ).currentThread &&
      m.scheduler.dispatcher != .runner .threads)).finish
  · simp only [DispatchCounts.begin, DispatchCounts.finish]
    split <;> rfl
  · simp [steps, step, stack, exec, runTask, opened, push, complete, sent, release, isReferenced,
      owned, withPool]

theorem Orderly.apart {past : List (Machine σ)} {a : Activity} {rest : List Activity}
    (orderly : m.Orderly P) (run : Run e past m) (stack : m.stack = a :: rest) :
    ∀ t ∈ m.tasks, ∀ w, a.addressee? = some w → t.waiter ≠ w := by
  intro t queued w addressed
  have opened : m.pool.closed = false :=
    Bool.eq_false_iff.2 fun closed => by simp [orderly.done closed] at queued
  refine run.task_apart queued (stack ▸ List.mem_cons_self ..) addressed fun same => ?_
  exact orderly.heard opened w (by simp [stack, same])

/-- The first pool runs each delivery at once, the second queues them, and apart from that they are
at the same point. -/
structure Beside (m₁ m₂ : Machine σ) : Prop where
  shadow : m₁.shadow = m₂.shadow
  inline : m₁.scheduler.dispatcher = .inline
  done : m₁.tasks = []

namespace Beside

variable (beside : m₁.Beside m₂)
include beside

theorem stack : m₁.stack = m₂.stack :=
  congrArg (fun m => m.stack) beside.shadow

theorem paused : m₁.paused = m₂.paused :=
  congrArg (fun m => m.paused) beside.shadow

theorem env : m₁.env = m₂.env :=
  congrArg (fun m => m.env) beside.shadow

theorem handles : m₁.handles = m₂.handles :=
  congrArg (fun m => m.handles) beside.shadow

theorem owned : m₁.mainHandle = m₂.mainHandle :=
  congrArg (fun m => m.mainHandle) beside.shadow

theorem background : m₁.background = m₂.background :=
  congrArg (fun m => m.background) beside.shadow

theorem pool : m₁.pool = m₂.pool.delivered m₂.tasks := by
  have same : m₁.pool.delivered m₁.tasks = m₂.pool.delivered m₂.tasks :=
    congrArg (fun m => m.pool) beside.shadow
  rwa [beside.done] at same

theorem closed : m₁.pool.closed = m₂.pool.closed :=
  congrArg (fun m => m.pool.closed) beside.shadow

end Beside

/-- They gave the same reply, too, unless one is still to be given. -/
structure Mirrors (m₁ m₂ : Machine σ) : Prop extends Beside m₁ m₂ where
  reply : m₁.reply = m₂.reply ∨ ∃ a ∈ m₂.stack, a.replies = true

namespace Mirrors

variable {past : List (Machine σ)} {a : Activity} {rest : List Activity} (mirrors : m₁.Mirrors m₂)
include mirrors

/-- A reply that is still to be given comes from below an activity that gives none. -/
theorem reply_below (stack : m₂.stack = a :: rest) (quiet : a.replies = false) :
    m₁.reply = m₂.reply ∨ ∃ b ∈ rest, b.replies = true := by
  obtain same | ⟨b, left, replies⟩ := mirrors.reply
  · exact .inl same
  · rw [stack, List.mem_cons] at left
    obtain rfl | left := left
    · exact absurd (quiet.symm.trans replies) (by simp)
    · exact .inr ⟨b, left, replies⟩

/-- The delivery that the second pool queues runs in the first. -/
theorem step_task (run : Run e past m₂) (orderly : m₂.Orderly P) {t : Task}
    (stack : m₂.stack = .answer (.schedule t) :: rest) :
    (m₁.steps e 5).Mirrors (m₂.step e) := by
  have fits := orderly.fits _ (stack ▸ List.mem_cons_self ..)
  have opened : m₂.pool.closed = false := by simpa [Activity.fits, Call.fits] using fits
  have inside : .sender t.waiter [.entrusted t.item] ∈ m₂.assets :=
    mem_assets (List.mem_append_left _ (stack ▸ List.mem_cons_self ..)) (by simp)
  obtain ⟨x, found, _, silent, _⟩ := run.sender inside
  obtain ⟨l, found'⟩ := getElem?_foldl_told m₂.tasks found
  have listening : x.listening = true := orderly.listened opened t.waiter x found silent
  let n : Machine σ := { m₁ with stack := .task t :: rest }
  have first : m₁.steps e 5 = n.steps e 4 := by
    rw [steps_succ (mirrors.stack.trans stack)]
    simp [n, exec, answered, scheduled, mirrors.inline, push]
  obtain ⟨c, same, last⟩ := task_steps (e := e) (m := n) (x := { x with line := l }) rfl
    (mirrors.owned.trans orderly.owned) (mirrors.closed.trans opened)
    (by rw [show n.pool = _ from mirrors.pool]; exact found') listening
  have second : m₂.step e = { m₂ with stack := rest, tasks := m₂.tasks ++ [t] } := by
    simp [step, stack, exec, answered, scheduled, orderly.queueing]
  have left : (m₁.steps e 5).shadow = { m₁.shadow with
      stack := rest
      pool := m₁.pool.modifyWaiter t.waiter fun x => { x with line := .sent (.ok t.item) } } := by
    rw [first, last]
    simp only [n, Machine.shadow, same, mirrors.done, Pool.delivered_nil]
  have right : (m₂.step e).shadow = { m₂.shadow with
      stack := rest
      pool := m₂.pool.delivered (m₂.tasks ++ [t]) } := by
    rw [second]
    rfl
  refine ⟨⟨?_, ?_, ?_⟩, ?_⟩
  · rw [left, right, mirrors.shadow, mirrors.pool, Pool.delivered_concat]
  · rw [first, last]
    exact mirrors.inline
  · rw [first, last]
    exact mirrors.done
  · rw [first, last, second]
    exact mirrors.reply_below stack rfl

/-- Every other step is the same in both pools. -/
theorem step_same (silent : e.Silent P) (run : Run e past m₂) (orderly : m₂.Orderly P)
    (stack : m₂.stack = a :: rest) (noTask : ∀ t, a ≠ .answer (.schedule t)) :
    (m₁.step e).shadow = (m₂.step e).shadow := by
  let n₁ : Machine σ := { m₁ with stack := rest }
  let n₂ : Machine σ := { m₂ with stack := rest }
  have same : n₁.shadow = n₂.shadow :=
    congrArg (fun m : Machine σ => { m with stack := rest }) mirrors.shadow
  have fits := orderly.fits a (stack ▸ List.mem_cons_self ..)
  have first : (n₁.exec e a).shadow = (n₁.shadow.exec e a).shadow :=
    exec_shadow (m := n₁) silent (mirrors.env ▸ orderly.env) (mirrors.closed ▸ fits)
      (mirrors.owned.trans orderly.owned) (mirrors.background.trans orderly.alone)
      (fun _ => mirrors.done) (by simp [n₁, mirrors.done]) (by simp [n₁, mirrors.done]) noTask
  have second : (n₂.exec e a).shadow = (n₂.shadow.exec e a).shadow :=
    exec_shadow (m := n₂) silent orderly.env fits orderly.owned orderly.alone orderly.done
      (orderly.apart run stack) (fun t queued => run.task_known queued) noTask
  have stack₁ := mirrors.stack.trans stack
  have one : m₁.step e = n₁.exec e a := by simp only [step, stack₁, n₁]
  have two : m₂.step e = n₂.exec e a := by simp only [step, stack, n₂]
  rw [one, two, first, same, second]

/-- A step that answers nothing yet. -/
theorem step_quiet (silent : e.Silent P) (run : Run e past m₂) (orderly : m₂.Orderly P)
    (stack : m₂.stack = a :: rest) (noPut : ∀ k x, a ≠ .put k x)
    (noTask : ∀ t, a ≠ .answer (.schedule t)) (quiet : a.reply? = none) :
    (m₁.step e).Mirrors (m₂.step e) := by
  have stack₁ := mirrors.stack.trans stack
  have fits := orderly.fits a (stack ▸ List.mem_cons_self ..)
  have heard : ∀ w, a = .hangUp w → m₁.pool.closed = false →
      ∀ x, m₁.pool.waiters[w]? = some x → x.line ≠ .silent := by
    rintro w rfl opened x found
    obtain ⟨y, found', loud⟩ := orderly.heard (mirrors.closed ▸ opened) w (by simp [stack])
    have same : m₁.pool.waiters[w]? = m₂.pool.waiters[w]? := by
      rw [mirrors.pool]
      exact getElem?_foldl_told_of_ne fun t queued => orderly.apart run stack t queued w rfl
    obtain rfl : x = y := Option.some.inj ((same ▸ found).symm.trans found')
    exact loud
  have first : GoesOn P { m₁ with stack := rest } a.duty (m₁.step e) := by
    simp only [step, stack₁]
    exact exec_goesOn (m := { m₁ with stack := rest }) (mirrors.env ▸ orderly.env) silent
      (mirrors.closed ▸ fits) (mirrors.owned.trans orderly.owned)
      (mirrors.background.trans orderly.alone) heard noPut noTask quiet
  have second : GoesOn P { m₂ with stack := rest } a.duty (m₂.step e) := by
    simp only [step, stack]
    exact orderly.goesOn silent stack noPut noTask quiet
  refine ⟨⟨mirrors.step_same silent run orderly stack noTask, ?_, ?_⟩, ?_⟩
  · exact (congrArg Scheduler.dispatcher first.keeps.scheduler).trans mirrors.inline
  · exact first.keeps.tasks.trans mirrors.done
  · rw [first.keeps.reply, second.keeps.reply]
    obtain ⟨as, stack', follow⟩ := second.follow
    rw [stack']
    by_cases replies : a.replies = true
    · obtain ⟨b, inside, replies⟩ := follow.replies replies
      exact .inr ⟨b, List.mem_append_left _ inside, replies⟩
    · obtain same | ⟨b, left, replies⟩ := mirrors.reply_below stack (Bool.eq_false_iff.2 replies)
      · exact .inl same
      · exact .inr ⟨b, List.mem_append_right _ left, replies⟩

theorem step_reply (silent : e.Silent P) (run : Run e past m₂) (orderly : m₂.Orderly P)
    (stack : m₂.stack = a :: rest) {r : Reply} (replied : a.reply? = some r) :
    (m₁.step e).Mirrors (m₂.step e) := by
  have stack₁ := mirrors.stack.trans stack
  have same := mirrors.step_same silent run orderly stack fun t same => by
    rw [same] at replied
    cases replied
  obtain ⟨entries₁, first⟩ := exec_of_reply (e := e) { m₁ with stack := rest } replied
  obtain ⟨entries₂, second⟩ := exec_of_reply (e := e) { m₂ with stack := rest } replied
  simp only [step, stack₁, stack, first, second] at same ⊢
  exact ⟨⟨same, mirrors.inline, mirrors.done⟩, .inl rfl⟩

theorem step_put (silent : e.Silent P) (run : Run e past m₂) (orderly : m₂.Orderly P) {k : Nat}
    {x : Handle} (stack : m₂.stack = .put k x :: rest) : (m₁.step e).Mirrors (m₂.step e) := by
  have stack₁ := mirrors.stack.trans stack
  have same := mirrors.step_same silent run orderly stack (by simp)
  simp only [step, stack₁, stack, exec] at same ⊢
  refine ⟨⟨same, mirrors.inline, mirrors.done⟩, ?_⟩
  obtain same | ⟨b, left, replies⟩ := mirrors.reply_below stack rfl
  · exact .inl same
  · exact .inr ⟨b, List.mem_append_right _ left, replies⟩

/-- A step of the pool that queues, in one or more of the other. -/
theorem step (silent : e.Silent P) (run : Run e past m₂) (orderly : m₂.Orderly P)
    (busy : m₂.stack ≠ []) : ∃ k, (m₁.steps e k).Mirrors (m₂.step e) := by
  obtain ⟨a, rest, stack⟩ := List.exists_cons_of_ne_nil busy
  have one : m₁.steps e 1 = m₁.step e := by
    rw [steps_succ (mirrors.stack.trans stack), Machine.step, mirrors.stack.trans stack]
    rfl
  by_cases task : ∃ t, a = .answer (.schedule t)
  · obtain ⟨t, rfl⟩ := task
    exact ⟨5, mirrors.step_task run orderly stack⟩
  refine ⟨1, one ▸ ?_⟩
  by_cases put : ∃ k x, a = .put k x
  · obtain ⟨k, x, rfl⟩ := put
    exact mirrors.step_put silent run orderly stack
  by_cases replied : ∃ r, a.reply? = some r
  · exact mirrors.step_reply silent run orderly stack replied.choose_spec
  · exact mirrors.step_quiet silent run orderly stack (fun k x same => put ⟨k, x, same⟩)
      (fun t same => task ⟨t, same⟩)
      (Option.eq_none_iff_forall_ne_some.2 fun r same => replied ⟨r, same⟩)

/-- Both pools go on alike. -/
theorem steps (silent : e.Silent P) (run : Run e past m₂) (orderly : m₂.Orderly P) (n : Nat) :
    ∃ k, (m₁.steps e k).Mirrors (m₂.steps e n) := by
  induction n generalizing m₁ m₂ past with
  | zero => exact ⟨0, mirrors⟩
  | succ n ih =>
      by_cases idle : m₂.stack = []
      · rw [steps_of_idle idle]
        exact ⟨0, mirrors⟩
      · have first : m₂.steps e (n + 1) = (m₂.step e).steps e n := by simp [Machine.steps, idle]
        obtain ⟨j, next⟩ := mirrors.step silent run orderly idle
        obtain ⟨k, last⟩ := ih next run.step (orderly.step silent)
        exact ⟨j + k, by rw [first, steps_add]; exact last⟩

end Mirrors

end Machine

namespace Run

variable {σ : Type} {e : Environment σ} {P : σ → Prop} {past : List (Machine σ)} {m : Machine σ}

/-- The queue runs, oldest first, and leaves behind what one could already see. -/
theorem drain (labels : List Nat) (run : Run e past (m.runNext none labels))
    (calm : m.Undisturbed P) (idle : m.stack = []) :
    ∃ (k : Nat) (n : Machine σ), (m.runNext none labels).steps e k = n ∧ n.stack = [] ∧
      n.tasks = [] ∧ n.Undisturbed P ∧ n.shadow = m.shadow := by
  generalize queue : m.tasks = ts
  induction ts generalizing m past labels with
  | nil =>
      have last : m.runNext none labels = m.answer (.labels labels) := by
        simp [Machine.runNext, queue]
      rw [last]
      exact ⟨0, _, rfl, idle, queue, calm.answer _, rfl⟩
  | cons t ts ih =>
      let n : Machine σ := { m with
        stack := [.task t, .runNext none (labels ++ [t.label])]
        tasks := ts }
      have first : m.runNext none labels = n := by
        simp [n, Machine.runNext, queue, Machine.push, idle]
      rw [first] at run ⊢
      have opened : m.pool.closed = false :=
        Bool.eq_false_iff.2 fun closed => by simp [calm.done closed] at queue
      have inside : .sender t.waiter [.entrusted t.item] ∈ n.assets :=
        Machine.mem_assets (List.mem_append_left _ (.head _)) (by simp)
      obtain ⟨x, found, _, silent, _⟩ := run.sender inside
      obtain ⟨c, same, sent⟩ := Machine.task_steps (e := e) (m := n) rfl calm.owned opened found
        (calm.listened opened t.waiter x found silent)
      let n' : Machine σ := { n with
        stack := []
        pool := n.pool.modifyWaiter t.waiter fun x => { x with line := .sent (.ok t.item) }
        counts := c }
      have next : n.steps e 5 = n'.runNext none (labels ++ [t.label]) := by
        rw [Machine.steps_add n 4 1, sent, Machine.steps_succ rfl]
        rfl
      have heeds : m.pool.Heeds n'.pool := .modifyWaiter fun _ _ silent => by simp at silent
      have calm' : n'.Undisturbed P := { calm with
        done := fun closed => absurd (closed.symm.trans opened) (by simp)
        listened := fun _ => heeds.listened (calm.listened opened) }
      obtain ⟨k, last, reached, idle', empty, calm'', shadow⟩ :=
        ih _ (next ▸ run.steps 5) calm' rfl rfl
      rw [← next, ← Machine.steps_add] at reached
      refine ⟨5 + k, last, reached, idle', empty, calm'', shadow.trans ?_⟩
      simp only [n', n, Machine.shadow, same, queue, ← idle]
      rfl

end Run
end ResourcePool
