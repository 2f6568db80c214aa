import ResourcePool.Proofs.Fairness

/-!
A waiter that is passed over again and again. There is one resource, and whoever gets it gives it up
at once. Two others join the line behind the waiter and are chosen one after the other: the first
choice is made from the end of the line, and as whoever is chosen leaves the line, the second one is
made from a line that is shorter than the cursor. So it does not go on at the front, and afterwards
the line and the cursor are as before.
-/

namespace ResourcePool

open Machine Bench

/-- The one resource is on its way or was just given back; the surroundings are silent, and nothing
is tested. -/
structure Scene (k : Nat) (stack : List Activity) (tasks : List Task) (returned : List Item)
    (queue : List Nat) (cursor triggers : Nat) (m : Machine Rig) : Prop where
  stack : m.stack = stack
  paused : m.paused = []
  scheduler : m.scheduler = {}
  owned : m.mainHandle = true
  silent : m.env.hooks = []
  checkin : m.pool.config.testOnCheckin = false
  checkout : m.pool.config.testOnCheckout = false
  opened : m.pool.closed = false
  vacated : m.pool.vacated = []
  created : m.pool.slots.length ≤ m.pool.created
  free : ∀ h, k ≤ h → m.handles.get? h = none
  tasks : m.tasks = tasks
  returned : m.pool.returned = returned
  line : m.pool.registry.entries = queue
  cursor : m.pool.cursor = cursor
  triggers : m.pool.triggers = triggers

namespace Scene

variable {k cursor : Nat} {queue : List Nat} {tasks : List Task} {t u : Task} {r : Reply}
  {m : Machine Rig}

/-- Nothing is handed out to who asks now. -/
theorem acquire (scene : Scene k [.perform (.acquire k)] tasks [] queue cursor 0 m) :
    Scene (k + 1) [] tasks [] (queue ++ [m.pool.nextWaiter]) cursor 0 (m.steps environment 9) ∧
      ∀ n ∈ m.trail environment 9, n.pool.closed = false ∧ (n.pool.registry.entries = queue ∨
        n.pool.registry.entries = queue ++ [m.pool.nextWaiter]) := by
  have unused := scene.free k le_rfl
  have ended : m.steps environment 9 = { m with
      stack := []
      pool := { m.pool.enroll with triggers := 0 }
      handles := m.handles.insert k (.acquire ⟨m.pool.nextWaiter, true⟩)
      reply := .nothing
      trace := .log (.registered m.pool.nextWaiter) :: m.trace } := by
    simp [steps, step, exec, perform, onFree, onPool, Table.contains, request, trigger,
      Machine.round, seek, Pool.popReturned?, Pool.reserve?, again, requested, put, answer, release,
      isReferenced, push, Machine.log, note, withPool, Pool.enroll, scene.stack, scene.owned,
      unused, scene.opened, scene.triggers, scene.returned, scene.vacated,
      Nat.not_lt.2 scene.created]
  refine ⟨?_, ?_⟩
  · rw [ended]
    refine { scene with
      stack := rfl, triggers := rfl, free := fun h above => ?_, line := ?_ }
    · simp [Nat.ne_of_gt above, scene.free h (Nat.le_of_succ_le above)]
    · simp [Pool.enroll, scene.line]
  · simp [trail, step, exec, perform, onFree, onPool, Table.contains, request, trigger,
      Machine.round, seek, Pool.popReturned?, Pool.reserve?, again, requested, put, answer,
      push, Machine.log, note, withPool, Pool.enroll, scene.stack, scene.owned, unused,
      scene.opened, scene.triggers, scene.returned, scene.vacated, Nat.not_lt.2 scene.created,
      scene.line]

/-- A delivery is given up. -/
theorem dropTask (scene : Scene k [.perform (.dropTask 0)] [t] [] queue cursor 0 m)
    (lent : (m.pool.slot t.item.slot).state = .checkedOut) :
    Scene k [.round 1 none, .abandon t, .release, .say (.number t.label)] [] [t.item] queue cursor 1
        (m.steps environment 3) ∧
      ∀ n ∈ m.trail environment 3, n.pool.closed = false ∧ n.pool.registry.entries = queue := by
  have ended : m.steps environment 3 = { m with
      stack := [.round 1 none, .abandon t, .release, .say (.number t.label)]
      pool := { m.pool.modifySlot t.item.slot fun _ =>
          { m.pool.slot t.item.slot with state := .idle } with
        returned := [t.item]
        triggers := 1 }
      tasks := []
      trace := .log (.checkedIn t.item.slot) :: m.trace } := by
    simp [steps, step, exec, perform, onTask, giveBack, Pool.takeBack?, Slot.checkin?,
      Slot.transition?, Slot.replace, Pool.modifySlot, Pool.pushReturned, trigger, push,
      Machine.log, note, withPool, scene.stack, scene.tasks, scene.scheduler, lent, scene.checkin,
      scene.triggers, scene.returned]
  refine ⟨?_, ?_⟩
  · rw [ended]
    exact { scene with
      stack := rfl, tasks := rfl, returned := rfl, triggers := rfl,
      created := (List.length_modify ..).trans_le scene.created }
  · simp [trail, step, exec, perform, onTask, giveBack, Pool.takeBack?, Slot.checkin?,
      Slot.transition?, Slot.replace, Pool.modifySlot, Pool.pushReturned, push, Machine.log,
      note, withPool, scene.stack, scene.tasks, scene.scheduler, lent, scene.checkin,
      scene.triggers, scene.returned, scene.opened, scene.line]

/-- The resource goes to the waiter at the place of the cursor. -/
theorem choose {rest : List Activity} {i : Item} {v w : Nat}
    (scene : Scene k (.round 1 none :: rest) [] [i] queue cursor 1 m)
    (place : queue[cursor % queue.length]? = some v) (pending : m.Pending v) (other : v ≠ w) :
    m.passes environment w = true ∧ ∃ u,
      Scene k (.call (.schedule u) :: .round 1 none :: rest) [] [] (queue.erase v)
        (cursor % queue.length + 1) 1 (m.step environment) := by
  obtain ⟨x, found, state⟩ := pending
  have here : m.pool.registry.entries[m.pool.cursor % m.pool.registry.entries.length]? =
      some v := by
    rwa [scene.line, scene.cursor]
  obtain ⟨front, others, filled⟩ := List.exists_cons_of_ne_nil
    (List.ne_nil_of_mem (List.mem_of_getElem? here))
  have popped : m.pool.popReturned? = some (i, { m.pool with returned := [] }) := by
    simp [Pool.popReturned?, scene.returned]
  constructor
  · have choice : m.choice? environment = some m.pool.registry.entries := by
      simp [choice?, choiceOf, offers, scene.stack, scene.opened, filled, popped, scene.checkout]
    simp [passes, choice, Pool.pick_of_pending here found state, other]
  · have ended : m.step environment = (({ m with stack := rest } : Machine Rig).withPool
        { m.pool with returned := [] }).handOut 1 m.pool.registry.entries i := by
      simp [step, exec, Machine.round, seek, scene.stack, scene.opened, filled, popped,
        scene.checkout]
    have picked := Pool.pick_of_pending (p := { m.pool with returned := [] }) here found state
    rw [ended, handOut]
    simp only [withPool, picked, lend]
    have left : m.pool.registry.entries.erase v = queue.erase v := by rw [scene.line]
    have moved : m.pool.cursor % m.pool.registry.entries.length + 1 =
        cursor % queue.length + 1 := by
      rw [scene.line, scene.cursor]
    split
    · next q lent =>
        obtain ⟨_, rfl⟩ := Pool.lend?_eq_some lent
        exact ⟨_, { scene with
          stack := rfl, returned := rfl, line := left, cursor := moved,
          created := (List.length_modify ..).trans_le scene.created }⟩
    · exact ⟨_, { scene with stack := rfl, returned := rfl, line := left, cursor := moved }⟩

/-- Nothing is left to be handed out after a delivery was scheduled. -/
theorem schedule (scene : Scene k [.call (.schedule u), .round 1 none, .abandon t, .release, .say r]
    [] [] queue cursor 1 m) (filled : queue ≠ []) :
    Scene k [] [u] [] queue cursor 0 (m.steps environment 7) ∧
      ∀ n ∈ m.trail environment 7, n.pool.closed = false ∧ n.pool.registry.entries = queue := by
  obtain ⟨front, others, filled⟩ := List.exists_cons_of_ne_nil (scene.line ▸ filled)
  have ended : m.steps environment 7 = { m with
      stack := []
      pool := { m.pool.abandon t.waiter with triggers := 0 }
      env := { m.env with calls := .schedule :: m.env.calls }
      tasks := [u]
      counts := m.counts.schedule
      reply := r
      trace := .called (.schedule u.label) :: m.trace } := by
    simp [steps, step, exec, call, announce, Call.moment, environment, Rig.enter, CallKind.ofMoment,
      Rig.extract, nested, answered, scheduled, Machine.round, seek, Pool.popReturned?,
      Pool.reserve?, again, Pool.abandon, Pool.modifyWaiter, release, isReferenced, answer,
      push, note, withPool, scene.stack, scene.scheduler, scene.silent, scene.opened, filled,
      scene.returned, scene.vacated, Nat.not_lt.2 scene.created, scene.triggers, scene.owned,
      scene.tasks]
  refine ⟨?_, ?_⟩
  · rw [ended]
    exact { scene with stack := rfl, tasks := rfl, triggers := rfl, silent := scene.silent }
  · simp [trail, step, exec, call, announce, Call.moment, environment, Rig.enter,
      CallKind.ofMoment, Rig.extract, nested, answered, scheduled, Machine.round, seek,
      Pool.popReturned?, Pool.reserve?, again, Pool.abandon, Pool.modifyWaiter, release,
      isReferenced, push, note, withPool, scene.stack, scene.scheduler, scene.silent,
      scene.opened, scene.returned, scene.vacated, Nat.not_lt.2 scene.created, scene.triggers,
      scene.owned, scene.tasks, scene.line]

end Scene

/-- The resource of a queued delivery is lent. -/
theorem Run.lent_of_queued {σ : Type} {e : Environment σ} {past : List (Machine σ)} {m : Machine σ}
    {t : Task} (run : Run e past m) (queued : t ∈ m.tasks) :
    (m.pool.slot t.item.slot).state = .checkedOut := by
  have loan : .guard t.item ∈ m.assets := by
    have inside : .guard t.item ∈ (m.tasks.map Task.assets).sum :=
      mem_sum_map.2 ⟨t, queued, by simp [Task.assets]⟩
    simp only [Machine.assets, Multiset.mem_add]
    tauto
  refine (run.places.agree t.item.lent ?_).2
  simp only [Books.stock, books, zero_add, holdings, Multiset.mem_add]
  exact .inl ((Multiset.mem_filterMap ..).2 ⟨_, loan, rfl⟩)

/-- In a run with at most three in line, `w` stands in line and was passed over so many times. -/
def PassedOver (w passed : Nat) (m : Machine Rig) : Prop :=
  ∃ recent earlier, Run environment (recent ++ earlier) m ∧
    (∀ n ∈ recent ++ earlier, n.pool.closed = false ∧ n.pool.registry.entries.length ≤ 3) ∧
      (∀ n ∈ recent, w ∈ n.pool.registry.entries) ∧
        passed ≤ recent.countP (passes environment w)

namespace PassedOver

variable {w v passed k cursor : Nat} {queue : List Nat} {tasks : List Task} {t : Task}
  {m : Machine Rig}

theorem run (before : PassedOver w passed m) : ∃ past, Run environment past m :=
  let ⟨_, _, run, _⟩ := before
  ⟨_, run⟩

theorem ask (before : PassedOver w passed m) (op : Op) (idle : m.stack = []) :
    PassedOver w passed (m.push [.perform op]) :=
  let ⟨recent, earlier, run, rest⟩ := before
  ⟨recent, earlier, run.ask op idle, rest⟩

theorem step (before : PassedOver w passed m) (opened : m.pool.closed = false)
    (small : m.pool.registry.entries.length ≤ 3) (inside : w ∈ m.pool.registry.entries)
    (passes : m.passes environment w = true) : PassedOver w (passed + 1) (m.step environment) := by
  obtain ⟨recent, earlier, run, bounded, since, passed⟩ := before
  refine ⟨m :: recent, earlier, run.step, List.forall_mem_cons.2 ⟨⟨opened, small⟩, bounded⟩,
    List.forall_mem_cons.2 ⟨inside, since⟩, ?_⟩
  rw [List.countP_cons_of_pos passes]
  exact Nat.succ_le_succ passed

theorem steps (before : PassedOver w passed m) (count : Nat)
    (waits : ∀ n ∈ m.trail environment count, n.pool.closed = false ∧
      n.pool.registry.entries.length ≤ 3 ∧ w ∈ n.pool.registry.entries) :
    PassedOver w passed (m.steps environment count) := by
  obtain ⟨recent, earlier, run, bounded, since, passed⟩ := before
  refine ⟨m.trail environment count ++ recent, earlier, ?_, ?_, ?_, ?_⟩
  · rw [List.append_assoc]
    exact run.steps count
  · rw [List.append_assoc]
    exact List.forall_mem_append.2
      ⟨fun n member => ⟨(waits n member).1, (waits n member).2.1⟩, bounded⟩
  · exact List.forall_mem_append.2 ⟨fun n member => (waits n member).2.2, since⟩
  · rw [List.countP_append]
    exact passed.trans (Nat.le_add_left ..)

theorem acquire (before : PassedOver w passed m) (scene : Scene k [] tasks [] queue cursor 0 m)
    (inside : w ∈ queue) (room : queue.length < 3) : ∃ m', PassedOver w passed m' ∧
      Scene (k + 1) [] tasks [] (queue ++ [m.pool.nextWaiter]) cursor 0 m' := by
  have asked : Scene k [.perform (.acquire k)] tasks [] queue cursor 0
      (m.push [.perform (.acquire k)]) :=
    { scene with stack := congrArg (_ ++ ·) scene.stack }
  obtain ⟨after, meanwhile⟩ := asked.acquire
  refine ⟨_, (before.ask _ scene.stack).steps 9 fun n member => ?_, after⟩
  obtain ⟨opened, same | joined⟩ := meanwhile n member
  · exact ⟨opened, same ▸ ⟨room.le, inside⟩⟩
  · exact ⟨opened, joined ▸ ⟨(List.length_append ..).trans_le room, List.mem_append_left _ inside⟩⟩

/-- The resource on its way is given up, and somebody else gets it. -/
theorem dropTask (before : PassedOver w passed m) (scene : Scene k [] [t] [] queue cursor 0 m)
    (v : Nat) (left : List Nat) (next : Nat) (inside : w ∈ queue) (small : queue.length ≤ 3)
    (place : queue[cursor % queue.length]? = some v) (other : v ≠ w) (erased : queue.erase v = left)
    (moved : cursor % queue.length + 1 = next) :
    ∃ m' u, PassedOver w (passed + 1) m' ∧ Scene k [] [u] [] left next 0 m' := by
  subst erased moved
  have asked : Scene k [.perform (.dropTask 0)] [t] [] queue cursor 0
      (m.push [.perform (.dropTask 0)]) :=
    { scene with stack := congrArg (_ ++ ·) scene.stack }
  obtain ⟨_, run⟩ := before.run
  obtain ⟨given, meanwhile⟩ :=
    asked.dropTask (run.lent_of_queued (scene.tasks ▸ List.mem_singleton_self t))
  have given' := (before.ask (.dropTask 0) scene.stack).steps 3 fun n member => by
    obtain ⟨opened, same⟩ := meanwhile n member
    exact ⟨opened, same ▸ ⟨small, inside⟩⟩
  obtain ⟨_, run⟩ := given'.run
  have pending := (run.sound.standings.inLine v).1 (given.line ▸ List.mem_of_getElem? place)
  obtain ⟨passes, u, chosen⟩ := given.choose place pending other
  have chosen' := given'.step given.opened (given.line ▸ small) (given.line ▸ inside) passes
  have remains : w ∈ queue.erase v := (List.mem_erase_of_ne other.symm).2 inside
  obtain ⟨after, meanwhile⟩ := chosen.schedule (List.ne_nil_of_mem remains)
  refine ⟨_, u, chosen'.steps 7 fun n member => ?_, after⟩
  obtain ⟨opened, same⟩ := meanwhile n member
  exact ⟨opened, same ▸ ⟨(List.length_erase_le ..).trans small, remains⟩⟩

/-- Two others come and go, and `w` stands in line as before. -/
theorem lap (before : PassedOver w passed m) (scene : Scene k [] [t] [] [w] 2 0 m) :
    ∃ m' k' u, PassedOver w (passed + 2) m' ∧ Scene k' [] [u] [] [w] 2 0 m' := by
  obtain ⟨m₁, one, first⟩ := before.acquire scene (by simp) (by simp)
  obtain ⟨m₂, two, second⟩ := one.acquire first (by simp) (by simp)
  obtain ⟨_, run⟩ := two.run
  have distinct := run.nodup_line
  rw [second.line] at distinct
  generalize m.pool.nextWaiter = x at first second distinct
  generalize m₁.pool.nextWaiter = y at second distinct
  obtain ⟨⟨other, different⟩, another⟩ : (w ≠ x ∧ w ≠ y) ∧ x ≠ y := by simpa using distinct
  obtain ⟨m₃, t₃, three, third⟩ := two.dropTask second y [w, x] 3 (by simp) (by simp) rfl
    different.symm (by simp [different, another]) rfl
  obtain ⟨m₄, t₄, four, fourth⟩ := three.dropTask third x [w] 2 (by simp) (by simp)
    (by simp) other.symm (by simp [other]) (by simp)
  exact ⟨m₄, _, t₄, four, fourth⟩

/-- Two others have asked after the first one who waits, and one of them was chosen. -/
theorem start : ∃ m k t, PassedOver 1 0 m ∧ Scene k [] [t] [] [1] 2 0 m := by
  have first := ((Run.bench (c := { maxSize := 1, testOnCheckout := false }) rfl).ask (.acquire 0)
    rfl).steps 40
  have second := (first.ask (.acquire 1) rfl).steps 40
  have third := (second.ask (.acquire 2) rfl).steps 40
  have chosen := (third.ask (.dropTask 0) rfl).steps 40
  have free (h : Nat) (above : 3 ≤ h) (a b c : Handle) :
      [(0, a), (1, b), (2, c)].lookup h = none := by
    obtain ⟨h, rfl⟩ := Nat.exists_eq_add_of_le' above
    rfl
  exact ⟨_, 3, _, ⟨[], _, chosen, by decide, by simp, Nat.zero_le _⟩,
    rfl, rfl, rfl, rfl, rfl, rfl, rfl, rfl, rfl, by decide, fun h above => free h above _ _ _,
    rfl, rfl, rfl, rfl, rfl⟩

/-- However often: `w` can be passed over more often than that. -/
theorem often (laps : Nat) : ∃ m k t, PassedOver 1 (2 * laps) m ∧ Scene k [] [t] [] [1] 2 0 m := by
  induction laps with
  | zero => exact start
  | succ laps ih =>
      obtain ⟨m, k, t, before, scene⟩ := ih
      exact before.lap scene

end PassedOver

/-- No bound on the number of waiters in line bounds how often one of them is passed over. -/
theorem Run.passes_unbounded : ¬∀ N, ∃ bound,
    ∀ {past recent earlier : List (Machine Rig)} {m : Machine Rig} {w : Nat},
      Run environment past m → past = recent ++ earlier →
      (∀ n ∈ m :: past, n.pool.closed = false ∧ n.pool.registry.size ≤ N) →
      (∀ n ∈ m :: recent, w ∈ n.pool.registry.entries) →
      recent.countP (passes environment w) ≤ bound := by
  intro fair
  obtain ⟨bound, fair⟩ := fair 3
  obtain ⟨m, k, t, ⟨recent, earlier, run, small, waits, often⟩, scene⟩ :=
    PassedOver.often (bound + 1)
  have le := fair run rfl
    (List.forall_mem_cons.2 ⟨⟨scene.opened, by simp [Registry.size, scene.line]⟩, small⟩)
    (List.forall_mem_cons.2 ⟨by simp [scene.line], waits⟩)
  omega

end ResourcePool
