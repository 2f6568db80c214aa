import ResourcePool.Proofs.Step

/-!
A pool is taken down only when nothing refers to it, and then nothing refers to it later: the
activities that are left only close what was idle.
-/

namespace ResourcePool

theorem Move.torn_of_not_gone {gone : Prop} {b c : Books} (move : Move gone b c)
    (stays : ¬gone) : c.torn = b.torn := by
  cases move with
  | tearDown last => exact absurd last stays
  | _ => rfl

theorem Table.mem_of_get? {α : Type} {t : Table α} {key : Nat} {a : α}
    (found : t.get? key = some a) : (key, a) ∈ t.entries :=
  (entries_perm_of_get? found).mem_iff.2 (List.mem_cons_self ..)

namespace Machine

variable {σ : Type} (e : Environment σ)

/-- Nothing refers to the pool. -/
structure Unreferenced (m : Machine σ) : Prop where
  mainHandle : m.mainHandle = false
  clones : m.clones = 0
  handles : ∀ x ∈ m.handles.entries, x.2.refersToPool = false
  tasks : m.tasks = []
  activities : ∀ a ∈ m.activities, a.refersToPool = false
  background : ∀ h a, m.background ≠ .done h a

theorem unreferenced_iff {m : Machine σ} : m.isReferenced = false ↔ m.Unreferenced := by
  constructor
  · intro unreferenced
    simp only [isReferenced, Bool.or_eq_false_iff, decide_eq_false_iff_not, Nat.not_lt,
      Nat.le_zero, List.any_eq_false, Bool.not_eq_true, Bool.not_eq_false',
      List.isEmpty_iff] at unreferenced
    obtain ⟨⟨⟨⟨⟨mainHandle, clones⟩, handles⟩, tasks⟩, activities⟩, background⟩ := unreferenced
    refine ⟨mainHandle, clones, handles, tasks, activities, fun h a done => ?_⟩
    simp [done] at background
  · intro ⟨mainHandle, clones, handles, tasks, activities, background⟩
    simp only [isReferenced, mainHandle, clones, tasks]
    cases back : m.background with
    | done h a => exact absurd back (background h a)
    | _ => simpa using ⟨fun k x member => handles (k, x) member, activities⟩

namespace Unreferenced

variable {m : Machine σ}

theorem push (before : m.Unreferenced) {as : List Activity}
    (harmless : ∀ a ∈ as, a.refersToPool = false) : (m.push as).Unreferenced :=
  { before with
    activities := fun a member => by
      rw [Machine.activities, Machine.push, List.append_assoc] at member
      exact (List.mem_append.1 member).elim (harmless a) (before.activities a) }

theorem withPool (before : m.Unreferenced) (p : Pool) : (m.withPool p).Unreferenced :=
  { before with }

theorem note (before : m.Unreferenced) (v : Event) : (m.note v).Unreferenced :=
  { before with }

theorem log (before : m.Unreferenced) (v : LogEntry) : (m.log v).Unreferenced :=
  { before with }

theorem answer (before : m.Unreferenced) (r : Reply) : (m.answer r).Unreferenced :=
  { before with }

theorem take (before : m.Unreferenced) (k : Nat) : (m.take k).Unreferenced :=
  { before with
    handles := fun x member => before.handles x (List.mem_of_mem_filter member) }

theorem setHandle (before : m.Unreferenced) (k : Nat) {x : Handle}
    (harmless : x.refersToPool = false) : (m.setHandle k x).Unreferenced :=
  { before with
    handles := fun y member => by
      have member := (Table.entries_insert_perm m.handles k x).mem_iff.1 member
      obtain rfl | member := List.mem_cons.1 member
      · exact harmless
      · exact before.handles y (List.mem_of_mem_filter member) }

theorem detached (before : m.Unreferenced) (k : Nat) :
    m.handles.get? k = none ∨ ∃ r, m.handles.get? k = some (.detached r) := by
  cases found : m.handles.get? k with
  | none => exact .inl rfl
  | some x =>
      have harmless := before.handles _ (Table.mem_of_get? found)
      cases x with
      | detached r => exact .inr ⟨r, rfl⟩
      | _ => simp [Handle.refersToPool] at harmless

theorem onPool (before : m.Unreferenced) (f : Machine σ → Machine σ) :
    (m.onPool f).Unreferenced := by
  simp only [Machine.onPool, before.mainHandle]
  exact before.answer _

theorem onTask (before : m.Unreferenced) (place : Nat) (f : Machine σ → Task → Machine σ) :
    (m.onTask place f).Unreferenced := by
  unfold Machine.onTask
  split
  · next found => simp [before.tasks] at found
  · exact before.answer _

theorem poll (before : m.Unreferenced) (k : Nat) : (m.poll k).Unreferenced := by
  unfold Machine.poll
  obtain free | ⟨r, found⟩ := before.detached k
  · simp only [free]
    exact before.answer _
  · simp only [found]
    exact before.answer _

theorem pollEach (before : m.Unreferenced) (seen : List (Nat × Poll)) (rest : List Nat) :
    (m.pollEach seen rest).Unreferenced := by
  cases rest with
  | nil => exact before.answer _
  | cons k rest => exact before.push (by simp [Activity.refersToPool])

theorem runNext (before : m.Unreferenced) (left : Option Nat) (labels : List Nat) :
    (m.runNext left labels).Unreferenced := by
  unfold Machine.runNext
  split
  · exact before.answer _
  · exact before.answer _
  · next queue => simp [before.tasks] at queue

theorem drive (before : m.Unreferenced) : m.drive.Unreferenced :=
  before.push (by simp [Activity.refersToPool])

theorem join (before : m.Unreferenced) : (m.join e).Unreferenced := by
  unfold Machine.join
  split
  · refine push (m := { m with
      env := e.tell .resume m.env, background := .resumed, paused := [] })
      { before with
        activities := fun a member => before.activities a ?_
        background := by simp } fun a member => ?_
    · simp only [Machine.activities, List.append_nil] at member
      exact List.mem_append.2 (.inl member)
    · obtain member | member := List.mem_append.1 member
      · exact before.activities a (List.mem_append.2 (.inr member))
      · obtain rfl := List.mem_singleton.1 member
        rfl
  · next done => exact absurd done (before.background _ _)
  · exact before.answer _

theorem perform (before : m.Unreferenced) (op : Op) : (m.perform e op).Unreferenced := by
  cases op with
  | acquire | get | checkin | close | isClosed | status | slots | config | describePool
  | factoryCreated | clone | background =>
      simp only [Machine.perform, onFree]
      exact before.onPool _
  | poll k => exact before.poll k
  | await k => exact before.push (by simp [Activity.refersToPool])
  | pollAll => exact before.pollEach [] _
  | runAt place | dropTask place =>
      simp only [Machine.perform]
      exact before.onTask place _
  | join => exact before.join e
  | cancel k | detach k | info k | invalidateHeld k | executed k | describe k =>
      obtain free | ⟨r, found⟩ := before.detached k
      · simp only [Machine.perform, Machine.describe, onResource, free]
        exact before.answer _
      · simp only [Machine.perform, Machine.describe, onResource, found]
        exact before.answer _
  | drop k =>
      obtain free | ⟨r, found⟩ := before.detached k
      · simp only [Machine.perform, free]
        exact before.answer _
      · simp only [Machine.perform, found]
        exact (before.take k).push (by simp [dropHandle, Activity.refersToPool])
  | execute k statement =>
      obtain free | ⟨r, found⟩ := before.detached k
      · simp only [Machine.perform, Machine.execute, onResource, free]
        exact before.answer _
      · simp only [Machine.perform, Machine.execute, onResource, found, Handle.resource?]
        split
        · exact (before.setHandle k rfl).answer _
        · exact before.answer _
  | tell n => exact { before with }
  | factoryCounts => exact before.answer _
  | dispatchCounts =>
      simp only [Machine.perform]
      split <;> exact before.answer _
  | run limit =>
      simp only [Machine.perform, run]
      split
      · exact before.runNext limit []
      · split
        · exact before.answer _
        · exact before.drive
      · exact before.answer _
  | advance ms =>
      simp only [Machine.perform, advance]
      split
      · split
        · exact before.answer _
        · exact drive (m := { m with clock := m.clock + ms }) { before with }
      · exact { before with }
  | dropClone =>
      simp only [Machine.perform, before.clones]
      exact before.answer _
  | dropPool =>
      simp only [Machine.perform, before.mainHandle]
      exact before.answer _

theorem put (before : m.Unreferenced) (k : Nat) {x : Handle}
    (harmless : x.refersToPool = false) : (m.put k x).Unreferenced := by
  refine (before.setHandle k harmless).push ?_
  obtain free | ⟨r, found⟩ := before.detached k
  · simp [free]
  · simp [found, dropHandle]

theorem announce (before : m.Unreferenced) {c : Call} (harmless : c.refersToPool = false) :
    (m.announce e c).Unreferenced := by
  refine push (m := { m with env := (e.enter c.moment m.env).2 }.note (.called c.moment))
    { before with } fun a member => ?_
  obtain member | member := List.mem_append.1 member
  · obtain ⟨op, _, here⟩ := List.mem_flatMap.1 member
    obtain rfl | here := List.mem_cons.1 here
    · rfl
    · obtain rfl := List.mem_singleton.1 here
      rfl
  · obtain rfl := List.mem_singleton.1 member
    exact harmless

theorem exec (before : m.Unreferenced) {a : Activity} (harmless : a.refersToPool = false) :
    (m.exec e a).Unreferenced := by
  cases a with
  | perform op => exact before.perform e op
  | finish r => exact (before.note _).answer _
  | say r => exact before.answer _
  | teardown =>
      simp only [Machine.exec, Machine.teardown]
      split
      · refine Unreferenced.push (Unreferenced.withPool ?_ _) (by
          simp [Activity.refersToPool, Call.refersToPool])
        exact (before.withPool _).push (by simp [Activity.refersToPool])
      · exact before
  | put k x => exact before.put k harmless
  | call c =>
      obtain _ | _ | ⟨i, _ | _ | _ | _ | _⟩ | _ := c <;>
        simp only [Activity.refersToPool, Call.refersToPool, reduceCtorEq] at harmless
      exact before.announce e (c := .close i .teardown) rfl
  | answer c =>
      obtain _ | _ | ⟨i, _ | _ | _ | _ | _⟩ | _ := c <;>
        simp only [Activity.refersToPool, Call.refersToPool, reduceCtorEq] at harmless
      simp only [Machine.exec, answered, Machine.closed, noteClosed]
      split <;> exact { before with }
  | wentAway | ran | timedOut | thread => exact { before with }
  | report failures =>
      simp only [Machine.exec, report]
      split
      · exact before.answer _
      · exact (before.log _).answer _
  | awaited k =>
      simp only [Machine.exec, awaited]
      split
      · exact before.push (by simp [Activity.refersToPool])
      · exact before
  | collect k rest seen => exact before.pollEach _ rest
  | runNext left labels => exact before.runNext left labels
  | turn =>
      simp only [Machine.exec, Machine.turn, before.tasks]
      exact before
  | launched =>
      simp only [Machine.exec, launched]
      split <;> exact before.answer _
  | joined =>
      simp only [Machine.exec, joined]
      split
      · next done => exact absurd done (before.background _ _)
      · exact before.answer _
  | _ => simp [Activity.refersToPool] at harmless

end Unreferenced

/-- The step in which a pool is taken down, and every step after it, leaves no reference. -/
theorem step_unreferenced {m : Machine σ} (one : m.assets.count .permit = 1)
    (before : m.torn = true → m.Unreferenced) (torn : (m.step e).torn = true) :
    (m.step e).Unreferenced := by
  cases stack : m.stack with
  | nil =>
      simp only [step, stack] at torn ⊢
      exact before torn
  | cons a rest =>
      -- Only the step that gives up the last reference can take the pool down.
      by_cases letsGo : m.LetsGo
      · obtain ⟨rest', top, unreferenced⟩ := letsGo
        have below := unreferenced_iff.1 unreferenced
        simp only [step, top, exec, release, unreferenced, Bool.false_or]
        split
        · exact below
        · exact Unreferenced.push (m := { m with stack := rest', torn := true }) { below with }
            (by simp [Activity.refersToPool])
      · have kept := (step_moves e m [] one).keeps (I := fun b => b.torn = m.torn)
          (fun move same => (move.torn_of_not_gone letsGo).trans same) rfl
        have unreferenced := before (kept.symm.trans torn)
        simp only [step, stack]
        refine Unreferenced.exec e (m := { m with stack := rest })
          { unreferenced with
            activities := fun b member => unreferenced.activities b ?_ }
          (unreferenced.activities a ?_)
        · simp only [activities, stack, List.cons_append]
          exact List.mem_cons_of_mem a member
        · simp [activities, stack]

end Machine

/-- Nothing refers to a pool that is or was taken down. -/
theorem Run.unreferenced {σ : Type} {e : Environment σ} {past : List (Machine σ)}
    {m : Machine σ} (run : Run e past m) (torn : m.torn = true) : m.Unreferenced := by
  induction run with
  | start built =>
      have fresh := congrArg Books.torn (books_of_build built)
      exact absurd (torn.symm.trans fresh) (by simp [Books.start])
  | ask op run idle ih => exact (ih torn).push (by simp [Activity.refersToPool])
  | threads run idle onThreads ih => exact (ih torn).push (by simp [Activity.refersToPool])
  | step run ih => exact Machine.step_unreferenced e run.count_permit ih torn

end ResourcePool
