import ResourcePool.Proofs.Settlement
import ResourcePool.Proofs.Timeouts

/-!
Cancelling a request while nothing else is in progress. Matching is called for, but finds nothing to
match: nobody waits at a pool that has something to hand out. Main statement: the waiter leaves the
line, its listener will find that the request was cancelled, and nothing else is touched; nobody
outside the pool is called. A request that is dropped leaves the pool in the same state.
-/

namespace ResourcePool

attribute [-simp] Multiset.singleton_add

namespace Pool

/-- The waiter was withdrawn: it is not in line any more, and nothing will be sent to it. -/
def withdrawn (p : Pool) (w : Nat) : Pool :=
  { p with
    waiters := p.waiters.modify w fun x => { x with state := .cancelled, line := .over }
    registry := p.registry.unregister w }

/-- Nobody listens for the outcome of the waiter any more. -/
def unattended (p : Pool) (w : Nat) : Pool :=
  p.modifyWaiter w fun x => { x with listening := false }

variable {p : Pool} {w : Nat} {x : Waiter Outcome}

theorem cancel?_eq_withdrawn (found : p.waiters[w]? = some x) (pending : x.state = .pending) :
    p.cancel? w = some (p.withdrawn w) := by
  have same := congrArg (Pool.unregister · w)
    (modifyWaiter_eq found fun y => { y with state := .cancelled, line := .over })
  simp only [cancel?, waiter?, found, Option.bind_some, Waiter.cancel?, pending, if_true]
  exact congrArg some same.symm

theorem withdrawn_getElem? (found : p.waiters[w]? = some x) :
    (p.withdrawn w).waiters[w]? = some { x with state := .cancelled, line := .over } := by
  simp [withdrawn, found]

end Pool

theorem Table.insert_erase {α : Type} (t : Table α) (key : Nat) (a : α) :
    (t.erase key).insert key a = t.insert key a := by
  have below (n : Nat) : ((n != key) && decide (n < key)) = decide (n < key) := by
    by_cases lt : n < key <;> simp [lt, Nat.ne_of_lt]
  have above (n : Nat) : ((n != key) && decide (key < n)) = decide (key < n) := by
    by_cases lt : key < n <;> simp [lt, Nat.ne_of_gt]
  simp only [insert, erase, List.filter_filter]
  simp only [Bool.and_comm, below, above]

namespace Machine

variable {σ : Type} {e : Environment σ} {m m' n : Machine σ}

/-- In so many steps the machine gets there and has nothing left to do, and none of the steps
calls on the surroundings. -/
structure Concludes (e : Environment σ) (m : Machine σ) (k : Nat) (m' : Machine σ) : Prop where
  steps : m.steps e k = m'
  idle : m'.stack = []
  uncalled : ∀ v ∈ m.trail e k, ∀ c rest, v.stack ≠ .call c :: rest

namespace Concludes

theorem refl (idle : m.stack = []) : m.Concludes e 0 m :=
  ⟨rfl, idle, fun _ member => by cases member⟩

theorem next {a : Activity} {rest : List Activity} {k : Nat} (top : m.stack = a :: rest)
    (plain : a.isCall = false) (step : m.step e = n) (ends : n.Concludes e k m') :
    m.Concludes e (k + 1) m' := by
  have busy : m.stack.isEmpty = false := by rw [top]; rfl
  refine ⟨?_, ends.idle, fun v member c below called => ?_⟩
  · rw [Machine.steps, busy]
    simpa [step] using ends.steps
  · rw [Machine.trail, busy] at member
    simp only [Bool.false_eq_true, if_false, step] at member
    obtain later | first := List.mem_append.1 member
    · exact ends.uncalled v later c below called
    · obtain rfl := List.mem_singleton.1 first
      rw [top] at called
      obtain ⟨rfl, _⟩ := List.cons.inj called
      cases plain

/-- A call for matching that finds nothing to match. -/
theorem matching {rest : List Activity} {k : Nat} (top : m.stack = .trigger :: rest)
    (idle : m.pool.triggers = 0) (opened : m.pool.closed = false) (nothing : m.pool.Exhausted)
    (ends : (m.revise rest m.pool m.trace).Concludes e k m') : m.Concludes e (k + 3) m' := by
  obtain ⟨u, v, first, round, second, again, third⟩ :=
    trigger_rounds (e := e) top idle opened (.inr nothing)
  exact .next top rfl first (.next round rfl second (.next again rfl third ends))

/-- A reference to the pool is given up. If it was the last one, the pool is taken down, and that
finds nothing to close. -/
theorem release {rest : List Activity} (top : m.stack = .release :: rest)
    (empty : m.pool.returned = []) {f : Bool → Machine σ}
    (ends : ∀ torn, ∃ k, ({ m with stack := rest, torn } : Machine σ).Concludes e k (f torn)) :
    ∃ torn k, m.Concludes e k (f torn) := by
  have first : m.step e = ({ m with stack := rest } : Machine σ).release := by rw [step, top]; rfl
  unfold Machine.release at first
  split at first
  · obtain ⟨k, ends⟩ := ends m.torn
    exact ⟨m.torn, k + 1, .next top rfl first ends⟩
  · obtain ⟨k, ends⟩ := ends true
    have second : (({ m with stack := rest, torn := true } : Machine σ).push [.teardown]).step e =
        { m with stack := rest, torn := true } := by
      simp [step, exec, push, teardown, Pool.popReturned?, empty]
    exact ⟨true, k + 1 + 1, .next top rfl first (.next rfl rfl second ends)⟩

end Concludes

/-- After the request under the number was cancelled. -/
def cancelled (m : Machine σ) (k w : Nat) : Machine σ :=
  { m with
    pool := m.pool.withdrawn w
    handles := m.handles.insert k (.acquire ⟨w, false⟩)
    reply := .flag true
    trace := .log (.cancelled w) :: m.trace }

/-- After the cancellation came too late. -/
def uncancelled (m : Machine σ) (k w : Nat) : Machine σ :=
  { m with
    handles := m.handles.insert k (.acquire ⟨w, false⟩)
    reply := .flag false }

/-- After the request under the number was dropped before anything was decided about it. -/
def forgone (m : Machine σ) (k w : Nat) (torn : Bool) : Machine σ :=
  { m with
    pool := (m.pool.withdrawn w).unattended w
    handles := m.handles.erase k
    torn
    reply := .nothing
    trace := .log (.cancelled w) :: m.trace }

/-- A listener leaves to whom nothing was sent. -/
theorem unattended_step {w : Nat} {x : Waiter Outcome} {rest : List Activity}
    (top : m.stack = .hangUp w :: rest) (found : m.pool.waiters[w]? = some x)
    (empty : ∀ o, x.line ≠ .sent o) :
    m.step e = m.revise rest (m.pool.unattended w) m.trace := by
  have gone : x.hangUp.2 = { x with listening := false } := by
    unfold Waiter.hangUp
    split
    · next o sent => exact absurd sent (empty o)
    · rfl
  rw [hangUp_step top found empty, gone]
  exact congrArg (m.revise rest · m.trace)
    (Pool.modifyWaiter_eq found fun x => { x with listening := false }).symm

/-- What remains of a cancellation when nothing is to be matched: the request goes back under its
number, and the reply is given. -/
theorem Concludes.handBack {k w : Nat} {b : Bool}
    (top : m.stack = [.put k (.acquire ⟨w, false⟩), .say (.flag b), .release])
    (free : m.handles.get? k = none) :
    m.Concludes e 3 { m with
      stack := []
      handles := m.handles.insert k (.acquire ⟨w, false⟩)
      reply := .flag b } := by
  refine .next top rfl (n := { m with
    stack := [.say (.flag b), .release]
    handles := m.handles.insert k (.acquire ⟨w, false⟩) }) ?_ (.next (n := { m with
      stack := [.release]
      handles := m.handles.insert k (.acquire ⟨w, false⟩)
      reply := .flag b }) rfl rfl rfl (.next rfl rfl ?_ (.refl rfl)))
  · simp [step, top, exec, put, free, push]
  · -- The request keeps the pool alive.
    have there : (m.handles.insert k (.acquire ⟨w, false⟩)).get? k =
      some (.acquire ⟨w, false⟩) := by simp
    exact Attended.release (.inl ⟨_, Table.mem_of_get? there, rfl⟩)

end Machine

namespace Run

open Machine

variable {σ : Type} {e : Environment σ} {past : List (Machine σ)} {m : Machine σ}

theorem idle_of_atRest (run : Run e past m) (rest : m.AtRest) : m.pool.triggers = 0 := by
  obtain ⟨_, idle⟩ | ⟨k, one, _⟩ := run.rounds
  · exact idle
  · rw [Machine.rounds, rest] at one
    cases one

/-- While somebody is in line and nothing is in progress, there is nothing to hand out. -/
theorem exhausted_of_pending (run : Run e past m) (rest : m.AtRest) {w : Nat}
    (pending : m.Pending w) : m.pool.closed = false ∧ m.pool.Exhausted := by
  have idle := run.idle_of_atRest rest
  have line : m.pool.registry.entries ≠ [] :=
    List.ne_nil_of_mem ((run.sound.standings.inLine w).2 pending)
  have stack := rest.stack
  have opened : m.pool.closed = false := by
    by_contra closed
    obtain ⟨_, _, _, _, top⟩ := run.line_of_idle (Bool.not_eq_false _ ▸ closed) idle line
    simp [stack] at top
  refine ⟨opened, ?_⟩
  by_contra stock
  exact run.matched_of_idle idle (by simp [stack]) ⟨opened, line, stock⟩

/-- A pending request that is held under a number can be withdrawn by its holder. -/
theorem attached_of_pending (run : Run e past m) {k : Nat} {x : Handle} {a : Acquire}
    (held : m.handles.get? k = some x) (listens : .listener a ∈ x.assets)
    (pending : m.Pending a.waiter) : a.attached = true := by
  obtain ⟨x, found, standing, listener⟩ := run.standing_of_listener (r := a) (by
    rw [assets_take held]
    exact Multiset.mem_add.2 (.inl listens))
  obtain ⟨y, found', state⟩ := pending
  obtain rfl : x = y := Option.some.inj (found.symm.trans found')
  rw [(Standings.pending_of_state standing state).2.2] at listener
  exact (Multiset.singleton_inj.1 listener).symm

/-- A pending request is cancelled: its waiter leaves the line, and that is all. -/
theorem cancels (run : Run e past m) (rest : m.AtRest) {k : Nat} {a : Acquire}
    (held : m.handles.get? k = some (.acquire a)) (pending : m.Pending a.waiter) :
    ∃ n, (m.push [.perform (.cancel k)]).Concludes e n (m.cancelled k a.waiter) := by
  obtain ⟨opened, exhausted⟩ := run.exhausted_of_pending rest pending
  have idle := run.idle_of_atRest rest
  have stack := rest.stack
  have attached := run.attached_of_pending held (by simp) pending
  obtain ⟨x, found, state⟩ := pending
  have withdrawn := Pool.cancel?_eq_withdrawn found state
  let n : Machine σ := { m with
    pool := m.pool.withdrawn a.waiter
    handles := m.handles.erase k
    stack := [.trigger, .put k (.acquire ⟨a.waiter, false⟩), .say (.flag true), .release]
    trace := .log (.cancelled a.waiter) :: m.trace }
  have first : (m.push [.perform (.cancel k)]).step e = n := by
    simp [n, Machine.step, push, exec, perform, held, Machine.cancel, withdraw, attached, withdrawn,
      take, stack, log, note, withPool]
  have whole : ({ n with
      stack := []
      handles := n.handles.insert k (.acquire ⟨a.waiter, false⟩)
      reply := .flag true } : Machine σ) = m.cancelled k a.waiter := by
    simp only [n, cancelled, Table.insert_erase, stack]
  refine ⟨3 + 3 + 1, .next rfl rfl first
    (.matching rfl idle opened (exhausted.of_eq rfl rfl rfl rfl) ?_)⟩
  rw [← whole]
  exact Concludes.handBack (m := n.revise n.stack.tail n.pool n.trace) rfl (by simp [n, revise])

/-- What has been decided about a request stands: it is cancelled too late. -/
theorem cancels_late (rest : m.AtRest) {k : Nat} {a : Acquire}
    (held : m.handles.get? k = some (.acquire a)) (late : ¬m.Pending a.waiter) :
    ∃ n, (m.push [.perform (.cancel k)]).Concludes e n (m.uncancelled k a.waiter) := by
  have stack := rest.stack
  have refused : m.pool.cancel? a.waiter = none := by
    cases cancelled : m.pool.cancel? a.waiter with
    | none => rfl
    | some p =>
        obtain ⟨x, found, state, _⟩ := Pool.cancel?_eq_some cancelled
        exact absurd ⟨x, found, state⟩ late
  let n : Machine σ := { m with
    handles := m.handles.erase k
    stack := [.put k (.acquire ⟨a.waiter, false⟩), .say (.flag false), .release] }
  have first : (m.push [.perform (.cancel k)]).step e = n := by
    simp [n, Machine.step, push, exec, perform, held, Machine.cancel, withdraw, refused, take,
      stack]
  have whole : ({ n with
      stack := []
      handles := n.handles.insert k (.acquire ⟨a.waiter, false⟩)
      reply := .flag false } : Machine σ) = m.uncancelled k a.waiter := by
    simp only [n, uncancelled, Table.insert_erase, stack]
  refine ⟨3 + 1, .next rfl rfl first ?_⟩
  rw [← whole]
  exact Concludes.handBack (m := n) rfl (by simp [n])

/-- Whoever polls a request that was cancelled learns so. -/
theorem polls_cancelled (run : Run e past m) (rest : m.AtRest) {k w : Nat}
    (pending : m.Pending w) : ∃ n u,
      ((m.cancelled k w).push [.perform (.poll k)]).Concludes e n u ∧
        u.reply = .poll (.failed .cancelled) := by
  obtain ⟨-, exhausted⟩ := run.exhausted_of_pending rest pending
  have stack := rest.stack
  obtain ⟨x, found, -⟩ := pending
  have ended := Pool.withdrawn_getElem? found
  let q := (m.pool.withdrawn w).modifyWaiter w fun _ =>
    { x with state := .cancelled, line := .over }
  let n : Machine σ := { m.cancelled k w with
    pool := q
    handles := (m.cancelled k w).handles.erase k
    reply := .poll (.failed .cancelled)
    stack := [.release] }
  have first : ((m.cancelled k w).push [.perform (.poll k)]).step e = n := by
    simp [n, q, Machine.step, push, exec, perform, Machine.poll, cancelled, look, Pool.receive,
      Pool.waiter?, ended, Waiter.receive, resolve, take, Machine.answer, pollReply, withPool, stack]
  obtain ⟨torn, j, released⟩ := Concludes.release (e := e) (m := n) rfl
    (show n.pool.returned = [] from exhausted.1) fun torn => ⟨0, .refl rfl⟩
  exact ⟨j + 1, _, .next rfl rfl first released, rfl⟩

/-- A pending request is dropped: its waiter leaves the line as if it had been cancelled. -/
theorem drops (run : Run e past m) (rest : m.AtRest) {k : Nat} {a : Acquire}
    (held : m.handles.get? k = some (.acquire a)) (pending : m.Pending a.waiter) :
    ∃ torn n, (m.push [.perform (.drop k)]).Concludes e n (m.forgone k a.waiter torn) := by
  obtain ⟨opened, exhausted⟩ := run.exhausted_of_pending rest pending
  have idle := run.idle_of_atRest rest
  have stack := rest.stack
  have attached := run.attached_of_pending held (by simp) pending
  obtain ⟨x, found, state⟩ := pending
  have ended := Pool.withdrawn_getElem? found
  have withdrawn := Pool.cancel?_eq_withdrawn found state
  let ends : List Activity := [.release, .say .nothing]
  let u : Machine σ := { m with handles := m.handles.erase k, stack := .quit a :: ends }
  have first : (m.push [.perform (.drop k)]).step e = u := by
    simp [u, ends, Machine.step, push, exec, perform, held, dropHandle, take, stack]
  let v := u.revise (.trigger :: .hangUp a.waiter :: ends) (m.pool.withdrawn a.waiter)
    (.log (.cancelled a.waiter) :: m.trace)
  have second : u.step e = v := by
    simp [u, v, revise, Machine.step, exec, push, withdraw, attached, withdrawn, withPool, log,
      note]
  let w := v.revise (.hangUp a.waiter :: ends) v.pool v.trace
  have third : w.step e = v.revise ends (v.pool.unattended a.waiter) v.trace :=
    unattended_step (m := w) rfl ended (by simp)
  obtain ⟨torn, j, released⟩ := Concludes.release (e := e)
    (m := v.revise ends (v.pool.unattended a.waiter) v.trace) rfl
    (show v.pool.returned = [] from exhausted.1)
    fun torn => ⟨1, .next (a := .say .nothing) rfl rfl rfl (.refl rfl)⟩
  refine ⟨torn, j + 1 + 3 + 1 + 1, .next rfl rfl first (.next rfl rfl second
    (.matching rfl idle opened (exhausted.of_eq rfl rfl rfl rfl) (.next rfl rfl third ?_)))⟩
  convert released using 1
  simp only [forgone, stack]
  rfl

theorem not_mem_withdrawn (run : Run e past m) (w : Nat) :
    w ∉ (m.pool.withdrawn w).registry.entries :=
  List.Nodup.not_mem_erase (run.sound.standings.ascending.imp Nat.ne_of_lt)

/-- Cancelling touches nothing else. While no operation is in progress, a request whose waiter is
pending is withdrawn, and nobody outside the pool is called: the waiter leaves the line, whoever
holds the request will learn that it was cancelled, and the rest of the pool is as it was. A request
about which something was decided is left alone. Dropping a pending request does to the pool what
cancelling it does. -/
theorem cancel_spares (run : Run e past m) (rest : m.AtRest) {k : Nat} {a : Acquire}
    (held : m.handles.get? k = some (.acquire a)) :
    (m.Pending a.waiter →
      (∃ n, (m.push [.perform (.cancel k)]).Concludes e n (m.cancelled k a.waiter)) ∧
      a.waiter ∉ (m.pool.withdrawn a.waiter).registry.entries ∧
      (∃ n u, ((m.cancelled k a.waiter).push [.perform (.poll k)]).Concludes e n u ∧
        u.reply = .poll (.failed .cancelled)) ∧
      ∃ torn n, (m.push [.perform (.drop k)]).Concludes e n (m.forgone k a.waiter torn)) ∧
    (¬m.Pending a.waiter →
      ∃ n, (m.push [.perform (.cancel k)]).Concludes e n (m.uncancelled k a.waiter)) :=
  ⟨fun pending => ⟨run.cancels rest held pending, run.not_mem_withdrawn a.waiter,
    run.polls_cancelled rest pending, run.drops rest held pending⟩, cancels_late rest held⟩

/-- Three requests for one resource: the first was promised it, and the others wait. The second is
cancelled, and only the third is left in line; the first can no longer be cancelled. -/
theorem cancel_spares_third : ∃ (past : List (Machine Bench.Rig)) (m u : Machine Bench.Rig) (n : Nat),
    Run Bench.environment past m ∧ m.AtRest ∧ m.pool.registry.entries = [1, 2] ∧
      m.handles.get? 1 = some (.acquire ⟨1, true⟩) ∧ m.Pending 1 ∧
      m.handles.get? 0 = some (.acquire ⟨0, true⟩) ∧ ¬m.Pending 0 ∧
      (m.push [.perform (.cancel 1)]).Concludes Bench.environment n u ∧
      u.pool.registry.entries = [2] ∧ u.reply = .flag true ∧
      ∃ n, (m.push [.perform (.cancel 0)]).Concludes Bench.environment n (m.uncancelled 0 0) := by
  have first := ((bench (c := { maxSize := 1 }) rfl).ask (.acquire 0) rfl).steps 40
  have run := (((first.ask (.acquire 1) rfl).steps 40).ask (.acquire 2) rfl).steps 40
  obtain ⟨n, ends⟩ := ((run.cancel_spares rfl (k := 1) (a := ⟨1, true⟩) rfl).1 ⟨_, rfl, rfl⟩).1
  have late := (run.cancel_spares rfl (k := 0) (a := ⟨0, true⟩) rfl).2
  refine ⟨_, _, _, n, run, rfl, rfl, rfl, ⟨_, rfl, rfl⟩, rfl, ?settled, ends, rfl, rfl,
    late ?settled⟩
  rintro ⟨x, found, state⟩
  obtain rfl := Option.some.inj found
  cases state

end Run
end ResourcePool
