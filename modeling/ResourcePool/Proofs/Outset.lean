import ResourcePool.Proofs.Orderly
import ResourcePool.Proofs.Outcomes

/-!
How operations begin. When nothing is left to be done and everything queued has run, the first step
of an operation, or its first two, lead to a state in which only activities of a few kinds are left,
and what they do depends neither on the dispatcher nor on the reply that was given last.
-/

namespace ResourcePool

namespace Pool

theorem receive_heeds (p : Pool) (w : Nat) : p.Heeds (p.receive w).2 := by
  unfold receive waiter?
  cases found : p.waiters[w]? with
  | none => exact .of_waiters rfl
  | some x =>
      refine .modifyWaiter fun y found' silent => ?_
      obtain rfl : x = y := Option.some.inj (found.symm.trans found')
      unfold Waiter.receive at silent ⊢
      split at silent <;> simp_all

theorem cancel?_heeds {p q : Pool} {w : Nat} (cancelled : p.cancel? w = some q) : p.Heeds q := by
  obtain ⟨x, found, _, rfl⟩ := cancel?_eq_some cancelled
  refine Heeds.trans (.modifyWaiter (w := w) fun y _ silent => ?_) (.of_waiters rfl)
  simp at silent

end Pool

namespace Machine

variable {σ : Type} {e : Environment σ} {P : σ → Prop} {m m' : Machine σ}

theorem withdraw_retains (holds : P m.env) (a : Acquire) : m.Retains P (m.withdraw a) := by
  unfold withdraw
  split
  · split
    · next p cancelled =>
        have kept : m.Retains P (m.withPool p) :=
          .withPool holds (Pool.cancel?_sameStock cancelled).closed
            fun _ => Pool.cancel?_heeds cancelled
        exact (kept.log _).push _
    · exact .refl holds
  · exact .refl holds

theorem look_retains (holds : P m.env) (w : Nat) : m.Retains P (m.look w).2 := by
  have received := m.pool.receive_heeds w
  have closed := (m.pool.receive_sameStock w).closed
  unfold look
  split
  · exact .refl holds
  · next found =>
      rw [found] at received closed
      exact .withPool holds closed fun _ => received
  · next found =>
      rw [found] at received closed
      exact .withPool holds closed fun _ => received

namespace Undisturbed

variable (calm : m.Undisturbed P)
include calm

theorem push (as : List Activity) : (m.push as).Undisturbed P :=
  { calm with }

theorem answer (r : Reply) : (m.answer r).Undisturbed P :=
  { calm with }

theorem take (k : Nat) : (m.take k).Undisturbed P :=
  { calm with
    asked := fun l g => by
      rw [Machine.take, Table.get?_erase]
      split
      · simp
      · exact calm.asked l g }

theorem setHandle (k : Nat) {x : Handle} (kind : x.isGet = false) :
    (m.setHandle k x).Undisturbed P :=
  { calm with
    asked := fun l g => by
      rw [Machine.setHandle, Table.get?_insert]
      split
      · intro same
        obtain rfl := Option.some.inj same
        simp [Handle.isGet] at kind
      · exact calm.asked l g }

/-- In the middle of an operation that has nothing else to do. -/
theorem orderly (d : Duty) (follow : Follow m.pool.closed d m.stack)
    (free : ∀ k ∈ d.target, m.handles.get? k = none) : m.Orderly P := by
  constructor
  case toUndisturbed => exact calm
  case fits => exact follow.fits
  case targets => rw [follow.targets]; cases d.target <;> simp
  case free => rw [follow.targets]; simpa using free
  case heard => exact fun _ w member => absurd member (follow.stays w)

theorem still (idle : m.stack = []) : m.Orderly P :=
  calm.orderly {} (idle ▸ ⟨by simp, rfl, by simp, by simp⟩) (by simp)

end Undisturbed

attribute [local simp] Activity.fits Call.fits Activity.target? List.filterMap_cons

section Outset

variable (calm : m.Undisturbed P) (idle : m.stack = [])
include calm idle

theorem request_orderly (k : Nat) : (m.perform e (.acquire k)).Orderly P := by
  change (m.onFree k fun m => m.push [.acquire (.handle k), .release]).Orderly P
  unfold onFree onPool
  rw [calm.owned, if_pos rfl]
  beta_reduce
  split
  · exact (calm.answer _).still idle
  · next taken =>
      refine (calm.push [.acquire (.handle k), .release]).orderly { target := some k } ?_ ?_
      · constructor <;> simp [push, idle]
      · simpa [Table.contains, push] using taken

theorem resolve_orderly (k : Nat) (o : Outcome) : (m.resolve k o).Orderly P := by
  cases o with
  | ok i => exact ((calm.setHandle k rfl).answer _).still idle
  | error f =>
      refine (((calm.take k).answer _).push [.release]).orderly {} ?_ (by simp)
      constructor <;> simp [push, take, Machine.answer, idle]

theorem poll_orderly (k : Nat) : (m.poll k).Orderly P := by
  unfold poll
  split
  · exact (calm.answer _).still idle
  · next a _ =>
      have looked := calm.of_retains (look_retains calm.env a.waiter)
      have idle' := (m.look_untouched a.waiter).stack.trans idle
      split
      · next found =>
          rw [found] at looked idle'
          exact (looked.answer _).still idle'
      · next found =>
          rw [found] at looked idle'
          exact resolve_orderly looked idle' k _
  · next found => exact absurd found (calm.asked k _)
  · next found => exact absurd found (calm.asked k _)
  · exact (calm.answer _).still idle
  · exact (calm.answer _).still idle

theorem cancel_orderly (k : Nat) (a : Acquire) : (m.cancel k a).Orderly P := by
  unfold cancel
  dsimp only
  have taken := (calm.take k).push [.put k (.acquire { a with attached := false }),
    .say (.flag (a.attached && (m.pool.cancel? a.waiter).isSome)), .release]
  refine (taken.of_retains (withdraw_retains taken.env a)).orderly { target := some k } ?_ ?_
  · rw [withdraw_stack]
    split <;> constructor <;> simp [push, take, idle, Handle.isGet]
  · rw [(withdraw_retains taken.env a).handles]
    simp [push, take]

theorem giveBack_orderly (k : Nat) (i : Item) (r : Reply) :
    ((m.take k).push [.giveBack i, .release, .say r]).Orderly P := by
  refine ((calm.take k).push [.giveBack i, .release, .say r]).orderly {} ?_ (by simp)
  constructor <;> simp [push, take, idle]

theorem detach_orderly (k : Nat) (i : Item) : (m.detach k i).Orderly P := by
  unfold detach
  dsimp only
  have taken := calm.take k
  have vacated : (m.take k).Retains P
      (((m.take k).log (.detached i.slot)).withPool (m.pool.vacate i.slot)) :=
    ((Retains.refl taken.env).log _).stock rfl rfl
  refine ((taken.of_retains vacated).push _).orderly { target := some k } ?_ ?_
  · constructor <;> simp [push, take, log, note, withPool, idle, Handle.isGet]
  · simp [push, take, log, note, withPool]

theorem execute_orderly (k : Nat) (statement : String) : (m.execute k statement).Orderly P := by
  unfold execute onResource
  split
  · exact (calm.answer _).still idle
  · next x found =>
      split
      · beta_reduce
        split
        · refine ((calm.setHandle k ?_).answer _).still idle
          cases x <;> simp_all [Handle.resource?, Handle.setResource, Handle.isGet]
        · exact (calm.answer _).still idle
      · exact (calm.answer _).still idle

theorem close_orderly (done : m.tasks = []) : m.close.Orderly P := by
  unfold close
  split
  · exact (calm.answer _).still idle
  · have closed : (((m.withPool { m.pool with closed := true }).log .closing).push
        [.flush .closer [], .release]).Undisturbed P :=
      { calm with done := fun _ => done, listened := fun opened => by cases opened }
    refine closed.orderly {} ?_ (by simp)
    constructor <;> simp [push, log, note, withPool, idle]

/-- Every operation but letting go of a request. -/
theorem perform_orderly (silent : e.Silent P) (done : m.tasks = []) {op : Op}
    (plain : op.isPlain = true)
    (kept : ∀ k a, op = .drop k → m.handles.get? k ≠ some (.acquire a)) :
    (m.perform e op).Orderly P := by
  have answered (r : Reply) : (m.answer r).Orderly P := (calm.answer r).still idle
  cases op with
  | acquire k => exact request_orderly calm idle k
  | poll k => exact poll_orderly calm idle k
  | cancel k =>
      dsimp only [perform]
      split
      · exact answered _
      · exact cancel_orderly calm idle k _
      · exact answered _
  | drop k =>
      dsimp only [perform]
      split
      · exact answered _
      · next x found =>
          cases x with
          | acquire a => exact absurd found (kept k a rfl)
          | get g => exact absurd found (calm.asked k g)
          | guard i => exact giveBack_orderly calm idle k i .nothing
          | detached r =>
              refine ((calm.take k).push [.say .nothing]).orderly {} ?_ (by simp)
              constructor <;> simp [push, take, idle]
  | checkin k =>
      dsimp only [perform, onPool]
      rw [calm.owned, if_pos rfl]
      split
      · exact answered _
      · exact giveBack_orderly calm idle k _ .nothing
      · exact answered _
  | detach k =>
      dsimp only [perform]
      split
      · exact answered _
      · exact detach_orderly calm idle k _
      · exact answered _
  | execute k statement => exact execute_orderly calm idle k statement
  | invalidateHeld k =>
      dsimp only [perform]
      split
      · exact Undisturbed.still { calm with env := silent.tell _ _ calm.env } idle
      · exact answered _
  | tell n => exact Undisturbed.still { calm with env := silent.tell n _ calm.env } idle
  | close =>
      dsimp only [perform, onPool]
      rw [calm.owned, if_pos rfl]
      exact close_orderly calm idle done
  | _ => simp [Op.isPlain] at plain

end Outset

/-- Letting go of a request takes one more step. -/
theorem quit_orderly (calm : m.Undisturbed P) {a : Acquire}
    (stack : m.stack = [.release, .say .nothing])
    (tied : ∃ x, m.pool.waiters[a.waiter]? = some x ∧
      (x.line = .silent → x.state = .pending ∧ a.attached = true)) :
    (m.exec e (.quit a)).Orderly P := by
  obtain ⟨x, found, pending⟩ := tied
  have pushed := calm.push [.hangUp a.waiter]
  have kept := withdraw_retains pushed.env a
  change ((m.push [.hangUp a.waiter]).withdraw a).Orderly P
  constructor
  case toUndisturbed => exact pushed.of_retains kept
  case fits => rw [withdraw_stack]; split <;> simp [push, stack]
  case targets => rw [withdraw_stack]; split <;> simp [push, stack]
  case free => rw [withdraw_stack]; split <;> simp [push, stack]
  case heard =>
    intro _ w member
    obtain rfl : w = a.waiter := by
      rw [withdraw_stack] at member
      split at member <;> simpa [push, stack] using member
    unfold withdraw
    split
    · split
      · next p cancelled =>
          obtain ⟨y, found', state, rfl⟩ := Pool.cancel?_eq_some cancelled
          refine ⟨{ y with state := .cancelled, line := .over }, ?_, by simp⟩
          have known : m.pool.waiters[a.waiter]? = some y := found'
          simp [push, log, note, withPool, Pool.unregister, Pool.modifyWaiter, known]
      · next stays =>
          refine ⟨x, found, fun silent => ?_⟩
          have cancelled := Pool.cancel?_of_pending found (pending silent).1
          rw [show m.pool.cancel? a.waiter = none from stays] at cancelled
          cases cancelled
    · next apart => exact ⟨x, found, fun silent => apart (pending silent).2⟩

/-- The first step of an operation leads the machine and its shadow to the same. -/
structure Begun (m n n' : Machine σ) : Prop where
  shadow : n.shadow = n'.shadow
  scheduler : n.scheduler = m.scheduler
  tasks : n.tasks = m.tasks
  reply : n.reply = n'.reply ∨ ∃ a ∈ n.stack, a.replies = true

theorem Begun.answer (m : Machine σ) (r : Reply) : m.Begun (m.answer r) (m.shadow.answer r) :=
  ⟨rfl, rfl, rfl, .inl rfl⟩

section Begun

variable (idle : m.tasks = [])
include idle

theorem poll_begun {k : Nat} (asked : ∀ g, m.handles.get? k ≠ some (.get g)) :
    m.Begun (m.poll k) (m.shadow.poll k) := by
  have shadow := poll_shadow idle asked
  unfold poll at shadow ⊢
  simp only [show m.shadow.handles = m.handles from rfl] at shadow ⊢
  split at shadow
  · exact .answer m _
  · next a _ =>
      have kept : m.Retains (fun _ => True) (m.look a.waiter).2 := look_retains trivial a.waiter
      have seen := (look_shadow idle a.waiter).1
      generalize m.look a.waiter = looked, m.shadow.look a.waiter = looked' at *
      obtain ⟨o, n⟩ := looked
      obtain ⟨o', n'⟩ := looked'
      obtain rfl : o = o' := seen.symm
      obtain _ | i | f := o <;> exact ⟨shadow, kept.scheduler, kept.tasks, .inl rfl⟩
  · next found => exact absurd found (asked _)
  · next found => exact absurd found (asked _)
  · exact .answer m _
  · exact .answer m _

theorem cancel_begun (k : Nat) (a : Acquire) : m.Begun (m.cancel k a) (m.shadow.cancel k a) := by
  have kept : Retains (fun _ => True) _ (m.cancel k a) := withdraw_retains trivial a
  refine ⟨cancel_shadow idle k a, kept.scheduler, kept.tasks, .inr ?_⟩
  unfold cancel
  dsimp only
  rw [withdraw_stack]
  exact ⟨_, List.mem_append_right _ (.tail _ (.head _)), rfl⟩

theorem perform_begun {op : Op} (plain : op.isPlain = true)
    (asked : ∀ k g, m.handles.get? k ≠ some (.get g)) :
    m.Begun (m.perform e op) (m.shadow.perform e op) := by
  have onPool {f : Machine σ → Machine σ} (begun : m.Begun (f m) (f m.shadow)) :
      m.Begun (m.onPool f) (m.shadow.onPool f) := by
    unfold onPool
    simp only [show m.shadow.mainHandle = m.mainHandle from rfl]
    split
    · exact begun
    · exact .answer m _
  -- Something is let go of, and the reply comes last.
  have dropped (k : Nat) (x : Handle) : m.Begun ((m.take k).push (dropHandle x ++ [.say .nothing]))
      ((m.shadow.take k).push (dropHandle x ++ [.say .nothing])) :=
    ⟨rfl, rfl, rfl, .inr ⟨.say .nothing, by simp [push], rfl⟩⟩
  cases op with
  | acquire k =>
      simp only [perform, onFree]
      refine onPool ?_
      simp only [show m.shadow.handles = m.handles from rfl]
      split
      · exact .answer m _
      · exact ⟨rfl, rfl, rfl, .inr ⟨_, .head _, rfl⟩⟩
  | poll k => exact poll_begun idle (asked k)
  | cancel k =>
      simp only [perform, show m.shadow.handles = m.handles from rfl]
      split
      · exact .answer m _
      · exact cancel_begun idle k _
      · exact .answer m _
  | drop k =>
      simp only [perform, show m.shadow.handles = m.handles from rfl]
      split
      · exact .answer m _
      · exact dropped k _
  | checkin k =>
      simp only [perform]
      refine onPool ?_
      simp only [show m.shadow.handles = m.handles from rfl]
      split
      · exact .answer m _
      · exact dropped k _
      · exact .answer m _
  | detach k =>
      simp only [perform, show m.shadow.handles = m.handles from rfl]
      split
      · exact .answer m _
      · exact ⟨m.detach_shadow k _, rfl, rfl, .inr ⟨_, .tail _ (.tail _ (.tail _ (.head _))), rfl⟩⟩
      · exact .answer m _
  | execute k statement =>
      refine ⟨m.execute_shadow k statement, ?_, ?_, .inl ?_⟩
      all_goals
        simp only [perform, execute, onResource, show m.shadow.handles = m.handles from rfl]
        split
        · rfl
        · split
          · split <;> rfl
          · rfl
  | invalidateHeld k =>
      simp only [perform, show m.shadow.handles = m.handles from rfl]
      split
      · exact ⟨rfl, rfl, rfl, .inl rfl⟩
      · exact .answer m _
  | tell n => exact ⟨rfl, rfl, rfl, .inl rfl⟩
  | close =>
      refine onPool ⟨m.close_shadow, ?_, ?_, ?_⟩
      all_goals
        unfold close
        simp only [show m.shadow.pool.closed = m.pool.closed from rfl]
        split
      · rfl
      · rfl
      · rfl
      · rfl
      · exact .inl rfl
      · exact .inr ⟨_, .head _, rfl⟩
  | _ => simp [Op.isPlain] at plain

end Begun

end Machine

namespace Run

variable {σ : Type} {e : Environment σ} {P : σ → Prop} {past : List (Machine σ)} {m : Machine σ}

/-- When everything queued has run, a request that was not answered can be withdrawn. -/
theorem tied (run : Run e past m) (calm : m.Undisturbed P) (idle : m.stack = [])
    (empty : m.tasks = []) {k : Nat} {a : Acquire} (held : m.handles.get? k = some (.acquire a)) :
    ∃ x, m.pool.waiters[a.waiter]? = some x ∧
      (x.line = .silent → x.state = .pending ∧ a.attached = true) := by
  have rest : m.AtRest := by simp [Machine.AtRest, Machine.activities, idle, calm.unpaused]
  have nobody : ((m.books 0 (history e past)).ties a.waiter).senders = 0 := by
    have courses := rest.courses a.waiter
    simp only [empty, List.filter_nil, List.map_nil, Multiset.coe_nil] at courses
    simpa [Books.ties, Machine.books] using courses
  have listener := Machine.listener_of_held held (history e past)
  obtain ⟨x, found, standing⟩ := run.sound.standings.known (w := a.waiter) fun none => by
    simp [none] at listener
  refine ⟨x, found, fun silent => ?_⟩
  have pending : x.state = .pending := by
    generalize (m.books 0 (history e past)).ties a.waiter = s at standing nobody
    cases standing with
    | pending state => exact state
    | claimed => simp at nobody
    | answered _ line | forsaken _ line | finished _ line => simp [line] at silent
  have withdrawable := (run.withdrawable_iff held).2 ((run.waiting_iff found).2 pending)
  exact ⟨pending, (Bool.and_eq_true_iff.1 withdrawable).1⟩

end Run
end ResourcePool
