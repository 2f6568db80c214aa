import ResourcePool.Proofs.Mirror

/-!
A pool that runs its deliveries at once and a pool that queues them and runs the queue after each
operation cannot be told apart from outside.
-/

namespace ResourcePool

/-- What an operation showed: its reply, and what there was to be seen when everything queued had
run. -/
structure Showing where
  reply : Reply
  status : Option Status
  slots : Option (List (Nat × Slot))
  counts : FactoryCounts
  /-- Nothing was left to be done. -/
  settled : Bool
  deriving DecidableEq

namespace Machine

variable {σ : Type} {e : Environment σ} {P : σ → Prop} {m₁ m₂ : Machine σ}

/-- A queue of deliveries runs, oldest first. -/
def drained (b : Budget e) (m : Machine σ) : Machine σ :=
  if m.scheduler.dispatcher = .manual then m.performed b (.run none) else m

/-- What operations show that are carried out one after the other. -/
def showings (b : Budget e) (m : Machine σ) : List Op → List Showing
  | [] => []
  | op :: rest =>
      let performed := m.performed b op
      let m := performed.drained b
      { reply := performed.reply
        status := m.status?
        slots := m.slots?
        counts := e.counts m.env
        settled := performed.stack.isEmpty && m.stack.isEmpty && m.tasks.isEmpty } ::
          m.showings b rest

/-- Two pools between operations, when everything queued has run. -/
structure Twins (P : σ → Prop) (m₁ m₂ : Machine σ) : Prop extends Beside m₁ m₂ where
  empty : m₂.tasks = []
  idle : m₂.stack = []
  calm : m₂.Undisturbed P

namespace Twins

variable {past : List (Machine σ)} (twins : Twins P m₁ m₂)
include twins

theorem idle_inline : m₁.stack = [] :=
  twins.stack.trans twins.idle

/-- A request is let go of in a second step. -/
theorem quit (run : Run e past m₂) {k : Nat} {a : Acquire}
    (held : m₂.handles.get? k = some (.acquire a)) :
    let left : List Activity := [.release, .say .nothing]
    (((m₁.take k).push left).exec e (.quit a)).Mirrors (((m₂.take k).push left).exec e (.quit a)) ∧
      (((m₂.take k).push left).exec e (.quit a)).Orderly P := by
  intro left
  have same : ((m₁.take k).push (.hangUp a.waiter :: left)).shadow =
      ((m₂.take k).push (.hangUp a.waiter :: left)).shadow :=
    congrArg (fun m => (m.take k).push (.hangUp a.waiter :: left)) twins.shadow
  have kept : Retains (fun _ => True) _ (((m₁.take k).push left).exec e (.quit a)) :=
    withdraw_retains trivial a
  refine ⟨⟨⟨?_, ?_, ?_⟩, .inr ?_⟩, ?_⟩
  · change (((m₁.take k).push (.hangUp a.waiter :: left)).withdraw a).shadow =
      (((m₂.take k).push (.hangUp a.waiter :: left)).withdraw a).shadow
    have one := withdraw_shadow (m := (m₁.take k).push (.hangUp a.waiter :: left)) twins.done a
    have two := withdraw_shadow (m := (m₂.take k).push (.hangUp a.waiter :: left)) twins.empty a
    rw [one, two, same]
  · exact (congrArg Scheduler.dispatcher kept.scheduler).trans twins.inline
  · exact kept.tasks.trans twins.done
  · refine ⟨.say .nothing, ?_, rfl⟩
    change _ ∈ (((m₂.take k).push (.hangUp a.waiter :: left)).withdraw a).stack
    rw [withdraw_stack]
    simp [push, left]
  · refine quit_orderly ((twins.calm.take k).push left) ?_
      (run.tied twins.calm twins.idle twins.empty held)
    simp [push, take, twins.idle, left]

/-- After a step or two, both are in the middle of the same operation. -/
theorem begin (silent : e.Silent P) (run : Run e past m₂) {op : Op} (plain : op.isPlain = true) :
    ∃ n, ((m₁.push [.perform op]).steps e n).Mirrors ((m₂.push [.perform op]).steps e n) ∧
      ((m₂.push [.perform op]).steps e n).Orderly P := by
  have first (m : Machine σ) (n : Nat) :
      (m.push [.perform op]).steps e (n + 1) = (m.perform e op).steps e n :=
    steps_succ (m := m.push [.perform op]) rfl n
  by_cases quits : ∃ k a, op = .drop k ∧ m₂.handles.get? k = some (.acquire a)
  · obtain ⟨k, a, rfl, held⟩ := quits
    have second (m : Machine σ) (held : m.handles.get? k = some (.acquire a)) :
        (m.push [.perform (.drop k)]).steps e 2 =
          ((m.take k).push [.release, .say .nothing]).exec e (.quit a) := by
      rw [first, perform, held]
      exact steps_succ (m := (m.take k).push [.quit a, .release, .say .nothing]) rfl 0
    refine ⟨2, ?_⟩
    rw [second m₁ (twins.handles ▸ held), second m₂ held]
    exact twins.quit run held
  · refine ⟨1, ?_⟩
    rw [first, first]
    have begun₁ := perform_begun (e := e) twins.done plain (twins.handles ▸ twins.calm.asked)
    have begun₂ := perform_begun (e := e) twins.empty plain twins.calm.asked
    have same : (m₁.perform e op).shadow = (m₂.perform e op).shadow :=
      begun₁.shadow.trans (twins.shadow ▸ begun₂.shadow.symm)
    refine ⟨⟨⟨same, ?_, ?_⟩, ?_⟩, ?_⟩
    · exact (congrArg Scheduler.dispatcher begun₁.scheduler).trans twins.inline
    · exact begun₁.tasks.trans twins.done
    · obtain same₁ | later := begun₁.reply
      · exact begun₂.reply.imp (fun same₂ => same₁.trans (twins.shadow ▸ same₂.symm)) id
      · have stack : (m₁.perform e op).stack = (m₂.perform e op).stack :=
          congrArg (fun m => m.stack) same
        exact .inr (stack ▸ later)
    · exact perform_orderly twins.calm twins.idle silent twins.empty plain
        fun k a same held => quits ⟨k, a, same, held⟩

/-- Both carry the operation out alike. -/
theorem performed (silent : e.Silent P) (b : Budget e) {past₁ : List (Machine σ)}
    (run₁ : Run e past₁ m₁) (run : Run e past m₂) {op : Op}
    (plain : op.isPlain = true) :
    (m₁.performed b op).Mirrors (m₂.performed b op) ∧ (m₂.performed b op).Orderly P := by
  obtain ⟨n, mirrors, orderly⟩ := twins.begin silent run plain
  have idle₁ : (m₁.performed b op).stack = [] :=
    run₁.performed b twins.idle_inline (twins.paused.trans twins.calm.unpaused) op
  have idle₂ : (m₂.performed b op).stack = [] := run.performed b twins.idle twins.calm.unpaused op
  unfold Machine.performed settle at *
  generalize (m₁.push [.perform op]).fuel b = k₁, (m₂.push [.perform op]).fuel b = k₂ at *
  have last : ((m₂.push [.perform op]).steps e n).steps e k₂ =
      (m₂.push [.perform op]).steps e k₂ := by
    rw [← steps_add, Nat.add_comm, steps_add, steps_of_idle idle₂]
  obtain ⟨k, reached⟩ := mirrors.steps silent ((run.ask op twins.idle).steps n) orderly k₂
  rw [last, ← steps_add] at reached
  have idle : ((m₁.push [.perform op]).steps e (n + k)).stack = [] := reached.stack.trans idle₂
  rw [steps_eq idle idle₁] at reached
  exact ⟨reached, last ▸ orderly.steps silent k₂⟩

/-- When the queue has run, both are between two operations again. -/
theorem drained (silent : e.Silent P) (b : Budget e) {past₁ : List (Machine σ)}
    (run₁ : Run e past₁ m₁) (run : Run e past m₂) {op : Op} (plain : op.isPlain = true) :
    Twins P (m₁.performed b op) ((m₂.performed b op).performed b (.run none)) := by
  obtain ⟨mirrors, orderly⟩ := twins.performed silent b run₁ run plain
  have idle : (m₂.performed b op).stack = [] := run.performed b twins.idle twins.calm.unpaused op
  have run' : Run e _ (m₂.performed b op) := (run.ask op twins.idle).steps _
  generalize m₂.performed b op = m at mirrors orderly idle run'
  have idle' : (m.performed b (.run none)).stack = [] :=
    run'.performed b idle orderly.unpaused (.run none)
  have same : m.run none = m.runNext none [] := by simp [Machine.run, orderly.queueing]
  have first (n : Nat) : (m.push [.perform (.run none)]).steps e (n + 1) =
      (m.runNext none []).steps e n :=
    (steps_succ (m := m.push [.perform (.run none)]) rfl n).trans
      (congrArg (fun m => m.steps e n) same)
  obtain ⟨k, n, reached, rest, empty, calm, shadow⟩ := Run.drain (m := m) []
    (first 0 ▸ (run'.ask (.run none) idle).steps 1) orderly.toUndisturbed idle
  rw [← first] at reached
  have last : m.performed b (.run none) = n :=
    (steps_eq idle' (reached ▸ rest)).trans reached
  rw [last]
  exact ⟨⟨mirrors.shadow.trans shadow.symm, mirrors.inline, mirrors.done⟩, empty, rest, calm⟩

/-- What they show is the same, operation by operation. -/
theorem showings (silent : e.Silent P) (b : Budget e) {past₁ : List (Machine σ)}
    (run₁ : Run e past₁ m₁) (run : Run e past m₂) {ops : List Op}
    (plain : ∀ op ∈ ops, op.isPlain = true) :
    m₁.showings b ops = m₂.showings b ops ∧ ∀ s ∈ m₂.showings b ops, s.settled = true := by
  induction ops generalizing m₁ m₂ past₁ past with
  | nil => exact ⟨rfl, by simp [Machine.showings]⟩
  | cons op ops ih =>
      have plain' := plain op (List.mem_cons_self ..)
      obtain ⟨mirrors, orderly⟩ := twins.performed silent b run₁ run plain'
      have next := twins.drained silent b run₁ run plain'
      have idle : (m₂.performed b op).stack = [] :=
        run.performed b twins.idle twins.calm.unpaused op
      have run₁' : Run e _ (m₁.performed b op) := (run₁.ask op twins.idle_inline).steps _
      have run' : Run e _ ((m₂.performed b op).performed b (.run none)) :=
        ((((run.ask op twins.idle).steps _).ask (.run none) idle).steps _)
      have reply : (m₁.performed b op).reply = (m₂.performed b op).reply :=
        mirrors.reply.resolve_right (by simp [idle])
      have drained₁ : (m₁.performed b op).drained b = m₁.performed b op := by
        simp [Machine.drained, mirrors.inline]
      have drained₂ : (m₂.performed b op).drained b =
          (m₂.performed b op).performed b (.run none) := by
        simp [Machine.drained, orderly.queueing]
      obtain ⟨same, settled⟩ := ih next run₁' run' fun op' member =>
        plain op' (List.mem_cons_of_mem op member)
      simp only [Machine.showings, drained₁, drained₂, same, reply]
      refine ⟨?_, ?_⟩
      · simp [status?, slots?, next.pool, next.owned, next.env, next.stack, next.idle, next.done,
          next.empty, idle]
      · intro s member
        obtain rfl | later := List.mem_cons.1 member
        · simp [idle, next.idle, next.empty]
        · exact settled s later

end Twins

end Machine

namespace Bench

/-- Without hooks the bench names no operations. -/
theorem environment_silent : environment.Silent fun r => r.hooks = [] where
  names c r none := by simp [environment, Rig.enter, none, Rig.extract]
  enter c r none := by simp [environment, Rig.enter, none, Rig.extract]
  create n r none := by
    simp only [environment, Rig.create]
    split <;> exact none
  validate _ _ none := none
  close _ _ none := none
  tell _ _ none := none

end Bench

namespace Machine

variable {σ : Type} {e : Environment σ} {P : σ → Prop}

/-- Two new pools. -/
theorem twins_of_new (c : Config) (watched : Bool) {env : σ} (holds : P env) (entry : LogEntry) :
    Twins P
      (({ scheduler := ⟨.inline, watched⟩, pool := .ofConfig c, env } : Machine σ).log entry)
      (({ scheduler := ⟨.manual, watched⟩, pool := .ofConfig c, env } : Machine σ).log entry) where
  shadow := rfl
  inline := rfl
  done := rfl
  empty := rfl
  idle := rfl
  calm := {
    queueing := rfl
    owned := rfl
    alone := rfl
    unpaused := rfl
    env := holds
    asked := fun k g found => by cases found
    done := fun _ => rfl
    listened := fun _ w x found _ => by cases found }

/-- For any configuration and any operations from outside, a pool that runs each delivery inside the
matching that scheduled it and a pool that queues its deliveries show the same. -/
theorem showings_inline_eq_queued (silent : e.Silent P) (b : Budget e) (c : Config)
    (watched : Bool) {env : σ} (holds : P env) {ops : List Op}
    (plain : ∀ op ∈ ops, op.isPlain = true) :
    (build c ⟨.inline, watched⟩ env).map (fun m => m.showings b ops) =
        (build c ⟨.manual, watched⟩ env).map (fun m => m.showings b ops) ∧
      ∀ m, build c ⟨.manual, watched⟩ env = .ok m →
        ∀ s ∈ m.showings b ops, s.settled = true := by
  cases valid : c.validate with
  | error f => simp [build, valid, Except.map]
  | ok _ =>
      have built (scheduler : Scheduler) : build c scheduler env = .ok
          (({ scheduler, pool := .ofConfig c, env } : Machine σ).log (.poolCreated c.maxSize)) := by
        rw [build, valid]
      obtain ⟨same, settled⟩ := (twins_of_new c watched holds (.poolCreated c.maxSize)).showings
        silent b (.start (built _)) (.start (built _)) plain
      rw [built, built]
      exact ⟨congrArg Except.ok same, fun m new => Except.ok.inj new ▸ settled⟩

/-- Two take turns with one resource, and the pool is closed while the second holds it. -/
theorem showings_inline_eq_queued_two :
    let ops : List Op := [.acquire 0, .acquire 1, .poll 0, .drop 0, .poll 1, .close]
    let showings (d : Dispatcher) :=
      (build { maxSize := 1 } ⟨d, true⟩ ({} : Bench.Rig)).map fun m => m.showings Bench.budget ops
    showings .inline = showings .manual ∧
      (showings .manual).map (fun shown => shown.map Showing.reply) = .ok [.nothing, .nothing,
        .poll (.ready 0 0), .nothing, .poll (.ready 0 0), .ok] := by
  refine ⟨?_, rfl⟩
  exact (showings_inline_eq_queued Bench.environment_silent Bench.budget { maxSize := 1 } true rfl
    (by decide)).1

end Machine
end ResourcePool
