import ResourcePool.Proofs.Cues
import ResourcePool.Proofs.Working

/-!
What it changes that a request is given up. Its waiter leaves the line, if it stood there, and its
listener leaves; a call for matching finds nothing to match, since there was nothing before. No
other waiter, no slot and none of the queues is touched.
-/

namespace ResourcePool

attribute [-simp] Multiset.singleton_add

namespace Activity

/-- It may show how a request ended. -/
@[simp] def looks : Activity → Bool
  | perform (.poll _) | acquired _ (.get _) => true
  | _ => false

end Activity

/-- The listener of a waiter left, and withdrew the waiter if that was still possible. -/
structure Pool.Forsakes (p q : Pool) (w : Nat) : Prop where
  stock : p.SameStock { q with triggers := p.triggers }
  cursor : q.cursor = p.cursor
  line : q.registry.entries = p.registry.entries.erase w
  waiter : ∃ x, p.waiters[w]? = some x ∧
    q.waiters = p.waiters.modify w fun _ => (x.cancel?.getD x).hangUp.2
  idle : p.triggers = 0 → q.triggers = 0

namespace Machine

variable {σ : Type} {e : Environment σ} {below : List Activity} {m m' n : Machine σ}
variable {l k : List (Machine σ)}

/-- The machine with its stack, its pool and its trace replaced. -/
def revise (m : Machine σ) (stack : List Activity) (pool : Pool) (trace : List Event) : Machine σ :=
  { m with stack, pool, trace }

@[simp] theorem revise_revise (m : Machine σ) (s s' : List Activity) (p p' : Pool)
    (t t' : List Event) : (m.revise s p t).revise s' p' t' = m.revise s' p' t' := rfl

theorem sights_deedsOf (m : Machine σ) {a : Activity} (blind : a.looks = false) (w : Nat) :
    History.sights (m.deedsOf e a) w = [] := by
  have withdrawn (r : Acquire) : History.sights (m.withdrawal r) w = [] := by
    unfold withdrawal
    split <;> rfl
  cases a with
  | perform op =>
      cases op with
      | poll => simp at blind
      | cancel =>
          simp only [deedsOf, deedsOfOp]
          split
          · exact withdrawn _
          · rfl
      | detach =>
          simp only [deedsOf, deedsOfOp]
          split <;> rfl
      | execute =>
          simp only [deedsOf, deedsOfOp]
          split
          · split <;> rfl
          · rfl
      | _ => rfl
  | acquire =>
      simp only [deedsOf]
      split <;> rfl
  | acquired r purpose =>
      cases purpose with
      | get => simp at blind
      | _ => rfl
  | quit r => exact withdrawn r
  | flush =>
      simp only [deedsOf]
      split
      · rw [← List.append_nil (List.map ..)]
        exact Standings.filterMap_dismissals (Deed.sight? w) (fun _ => rfl) [] _
      · rfl
  | answer c =>
      cases c with
      | create =>
          simp only [deedsOf, deedsOfCreation]
          split
          · rfl
          · split <;> rfl
      | _ => rfl
  | call c => cases c <;> rfl
  | _ => rfl

/-- The machine works above what is below, and no poll shows how a request ended. -/
structure Unseen (e : Environment σ) (below : List Activity) (m : Machine σ)
    (l : List (Machine σ)) (m' : Machine σ) : Prop where
  busy : Busy e below m l m'
  unseen : ∀ w, (history e l).sights w = []

namespace Unseen

theorem trans (first : Unseen e below m l n) (second : Unseen e below n k m') :
    Unseen e below m (k ++ l) m' where
  busy := first.busy.trans second.busy
  unseen w := by
    rw [history_append, History.sights, List.filterMap_append]
    exact List.append_eq_nil_iff.2 ⟨second.unseen w, first.unseen w⟩

theorem one {a : Activity} {above : List Activity} (top : m.stack = a :: (above ++ below))
    (next : m.step e = n) (blind : a.looks = false) : Unseen e below m [m] n where
  busy := next ▸ .one top
  unseen w := by
    rw [history_cons, history_nil, List.append_nil, deeds, top]
    exact sights_deedsOf _ blind w

end Unseen

theorem round_nothing (opened : m.pool.closed = false)
    (nothing : m.pool.registry.entries = [] ∨ m.pool.Exhausted) (n : Nat) :
    m.round n none = m.push [.again n] := by
  by_cases line : m.pool.registry.entries = []
  · simp [round, opened, line]
  · obtain ⟨returned, vacated, created⟩ := nothing.resolve_left line
    rw [round_none opened line]
    simp [seek, Pool.popReturned?, returned, Pool.reserve?, vacated, Nat.not_lt.2 created]

/-- A call for matching that finds nothing to match begins one round and ends it. -/
theorem trigger_rounds {rest : List Activity} (top : m.stack = .trigger :: rest)
    (idle : m.pool.triggers = 0) (opened : m.pool.closed = false)
    (nothing : m.pool.registry.entries = [] ∨ m.pool.Exhausted) :
    ∃ u v : Machine σ, m.step e = u ∧ u.stack = .round 1 none :: rest ∧ u.step e = v ∧
      v.stack = .again 1 :: rest ∧ v.step e = m.revise rest m.pool m.trace := by
  obtain ⟨u, eq⟩ : ∃ u, u = m.revise (.round 1 none :: rest)
    { m.pool with triggers := 1 } m.trace := ⟨_, rfl⟩
  refine ⟨u, u.revise (.again 1 :: rest) u.pool u.trace, ?_, by rw [eq]; rfl, ?_, rfl, ?_⟩
  · simp only [step, top, exec, trigger, idle, if_true, eq]
    rfl
  · have nothing : u.pool.registry.entries = [] ∨ u.pool.Exhausted := by
      subst eq
      exact nothing.imp_right fun exhausted => exhausted.of_eq rfl rfl rfl rfl
    have top : u.stack = .round 1 none :: rest := by rw [eq]; rfl
    rw [step, top]
    exact round_nothing (m := { u with stack := rest }) (by subst eq; exact opened) nothing 1
  · simp only [step, exec, again, eq, revise, withPool, Nat.sub_self, if_true]
    rw [← idle]

/-- A call for matching that finds nothing to match leaves no trace. -/
theorem trigger_idle {above : List Activity} (top : m.stack = .trigger :: (above ++ below))
    (idle : m.pool.triggers = 0) (opened : m.pool.closed = false)
    (nothing : m.pool.registry.entries = [] ∨ m.pool.Exhausted) :
    ∃ l, Unseen e below m l (m.revise (above ++ below) m.pool m.trace) := by
  obtain ⟨u, v, first, round, second, again, third⟩ :=
    trigger_rounds (e := e) top idle opened nothing
  exact ⟨_, ((Unseen.one top first rfl).trans (.one round second rfl)).trans
    (.one again third rfl)⟩

/-- A listener leaves without an outcome. -/
theorem hangUp_step {w : Nat} {x : Waiter Outcome} {rest : List Activity}
    (top : m.stack = .hangUp w :: rest) (found : m.pool.waiters[w]? = some x)
    (empty : ∀ o, x.line ≠ .sent o) : m.step e =
      m.revise rest (m.pool.modifyWaiter w fun _ => x.hangUp.2) m.trace := by
  have left : m.pool.hangUp w = (none, m.pool.modifyWaiter w fun _ => x.hangUp.2) := by
    have nothing : x.hangUp.1 = none := by
      unfold Waiter.hangUp
      split
      · next o sent => exact absurd sent (empty o)
      · rfl
    simp only [Pool.hangUp, Pool.waiter?, found, nothing]
  simp only [step, top, exec, hangUp, left]
  rfl

/-- A request that can still be withdrawn leaves the line, and matching is called for. -/
theorem quit_step {a : Acquire} {x y : Waiter Outcome} {rest : List Activity}
    (top : m.stack = .quit a :: rest) (attached : a.attached = true)
    (found : m.pool.waiters[a.waiter]? = some x) (cancels : x.cancel? = some y) :
    m.step e = m.revise (.trigger :: .hangUp a.waiter :: rest)
      ((m.pool.modifyWaiter a.waiter fun _ => y).unregister a.waiter)
      (.log (.cancelled a.waiter) :: m.trace) := by
  simp only [step, top, exec, push, withdraw, attached, if_true, Pool.cancel?, Pool.waiter?, found,
    Option.bind_some, cancels]
  rfl

/-- A request that cannot be withdrawn any more only loses its listener. -/
theorem quit_step_late {a : Acquire} {rest : List Activity} (top : m.stack = .quit a :: rest)
    (late : m.pool.cancel? a.waiter = none) :
    m.step e = m.revise (.hangUp a.waiter :: rest) m.pool m.trace := by
  simp only [step, top, exec, push, withdraw]
  split
  · rw [late]
    rfl
  · rfl

/-- A call for matching is only counted while somebody matches, and otherwise finds nothing. -/
theorem trigger_counted {above : List Activity} (top : m.stack = .trigger :: (above ++ below))
    (nothing : m.pool.triggers = 0 → m.pool.closed = false ∧
      (m.pool.registry.entries = [] ∨ m.pool.Exhausted)) :
    ∃ l t, Unseen e below m l (m.revise (above ++ below) { m.pool with triggers := t } m.trace) ∧
      (m.pool.triggers = 0 → t = 0) := by
  by_cases idle : m.pool.triggers = 0
  · obtain ⟨opened, empty⟩ := nothing idle
    obtain ⟨l, quiet⟩ := trigger_idle (e := e) top idle opened empty
    exact ⟨l, m.pool.triggers, quiet, id⟩
  · exact ⟨_, m.pool.triggers + 1, .one top (Run.trigger_step top idle) rfl,
      fun none => absurd none idle⟩

end Machine

theorem Waiter.cancel?_of_settled {α : Type} {x : Waiter α} (settled : x.state ≠ .pending) :
    x.cancel? = none := if_neg settled

namespace Pool.Forsakes

variable {p : Pool} {w : Nat} {x y : Waiter Outcome}

/-- A waiter is withdrawn, and its listener leaves. -/
theorem of_cancel (found : p.waiters[w]? = some x) (cancels : x.cancel? = some y) {t : Nat}
    (idle : p.triggers = 0 → t = 0) :
    p.Forsakes (({ (p.modifyWaiter w fun _ => y).unregister w with triggers := t } :
      Pool).modifyWaiter w fun _ => y.hangUp.2) w where
  stock := ⟨rfl, rfl, rfl, rfl, rfl, rfl, rfl⟩
  cursor := rfl
  line := rfl
  waiter := by
    refine ⟨x, found, ?_⟩
    rw [cancels, Option.getD_some]
    exact List.modify_modify_eq ..
  idle := idle

/-- A listener leaves whose waiter cannot be withdrawn any more. -/
theorem of_settled (found : p.waiters[w]? = some x) (settled : x.state ≠ .pending)
    (missing : w ∉ p.registry.entries) :
    p.Forsakes (p.modifyWaiter w fun _ => x.hangUp.2) w where
  stock := ⟨rfl, rfl, rfl, rfl, rfl, rfl, rfl⟩
  cursor := rfl
  line := (List.erase_of_not_mem missing).symm
  waiter := by
    refine ⟨x, found, ?_⟩
    rw [Waiter.cancel?_of_settled settled]
    rfl
  idle := id

end Pool.Forsakes

namespace Machine

variable {σ : Type} {e : Environment σ} {below above : List Activity} {m : Machine σ}

/-- A request that can still be withdrawn is given up: the call for matching finds nothing. -/
theorem quit_withdraws {a : Acquire} {x y : Waiter Outcome}
    (top : m.stack = .quit a :: (above ++ below)) (attached : a.attached = true)
    (found : m.pool.waiters[a.waiter]? = some x) (cancels : x.cancel? = some y)
    (nothing : m.pool.triggers = 0 → m.pool.closed = false ∧ m.pool.Exhausted) :
    ∃ l q trace, Unseen e below m l (m.revise (above ++ below) q trace) ∧
      m.pool.Forsakes q a.waiter := by
  obtain ⟨_, gone⟩ := Waiter.cancel?_eq_some_iff.1 cancels
  have first := quit_step (e := e) top attached found cancels
  generalize left : (m.pool.modifyWaiter a.waiter fun _ => y).unregister a.waiter = p at first
  have stood : p.waiters[a.waiter]? = some y := by
    subst left
    simp [Pool.modifyWaiter, Pool.unregister, found]
  have calls : (m.revise (.trigger :: .hangUp a.waiter :: (above ++ below)) p
      (.log (.cancelled a.waiter) :: m.trace)).stack =
        .trigger :: ((.hangUp a.waiter :: above) ++ below) := rfl
  obtain ⟨l, t, matched, idle⟩ := trigger_counted (e := e) calls fun none => by
    subst left
    obtain ⟨opened, exhausted⟩ := nothing none
    exact ⟨opened, .inr (exhausted.of_eq rfl rfl rfl rfl)⟩
  have last := hangUp_step (e := e) (x := y) (w := a.waiter)
    (m := m.revise (.hangUp a.waiter :: (above ++ below)) { p with triggers := t }
      (.log (.cancelled a.waiter) :: m.trace)) rfl stood (by simp [gone])
  subst left
  exact ⟨_, _, _, ((Unseen.one top first rfl).trans matched).trans (.one rfl last rfl),
    .of_cancel found cancels idle⟩

end Machine

namespace Run

open Machine

variable {σ : Type} {e : Environment σ} {past : List (Machine σ)} {m : Machine σ}

/-- While a request is given up and nobody matches, the pool is open and has nothing for those in
line. -/
theorem nothing_of_waiting (run : Run e past m) {a : Activity} {rest : List Activity}
    (top : m.stack = a :: rest) (call : a.isTrigger = false) (idle : a.flushes = false)
    (none : m.pool.triggers = 0) {w : Nat} (waits : w ∈ m.pool.registry.entries) :
    m.pool.closed = false ∧ m.pool.Exhausted := by
  have line : m.pool.registry.entries ≠ [] := List.ne_nil_of_mem waits
  have opened : m.pool.closed = false := by
    by_contra closed
    obtain ⟨_, who, failures, below, flushing⟩ :=
      run.line_of_idle (Bool.not_eq_false _ ▸ closed) none line
    rw [top] at flushing
    obtain ⟨rfl, _⟩ := List.cons.inj flushing
    exact Bool.false_ne_true idle.symm
  refine ⟨opened, ?_⟩
  by_contra stock
  refine run.matched_of_idle none (fun below calls => ?_) ⟨opened, line, stock⟩
  rw [top] at calls
  obtain ⟨rfl, _⟩ := List.cons.inj calls
  exact Bool.false_ne_true call.symm

/-- Who gives a request up is its listener. -/
theorem standing_of_quit (run : Run e past m) {a : Acquire} {rest : List Activity}
    (top : m.stack = .quit a :: rest) : ∃ x, m.pool.waiters[a.waiter]? = some x ∧
      (x.state = .pending → a.attached = true) := by
  have listener : a.attached ∈ ((m.books 0 (history e past)).ties a.waiter).listeners := by
    refine (Multiset.mem_filterMap ..).2 ⟨.listener a, ?_, by simp⟩
    simpa [Machine.books] using
      mem_assets (a := .quit a) (m := m) (by simp [activities, top]) (by simp)
  obtain ⟨x, found, standing⟩ := run.sound.standings.known (w := a.waiter) fun none => by
    simp [none] at listener
  refine ⟨x, found, fun pending => ?_⟩
  rw [(Standings.pending_of_state standing pending).2.2] at listener
  simpa using listener

/-- A request whose outcome was not sent is given up without a trace in the rest of the pool. -/
theorem quits (run : Run e past m) {a : Acquire} {above below : List Activity}
    (top : m.stack = .quit a :: (above ++ below)) (unseen : (m.look a.waiter).1 = none) :
    ∃ l q trace, Unseen e below m l (m.revise (above ++ below) q trace) ∧
      m.pool.Forsakes q a.waiter := by
  obtain ⟨x, found, attached⟩ := run.standing_of_quit top
  have inLine := run.sound.standings.inLine a.waiter
  by_cases pending : x.state = .pending
  · -- The waiter leaves the line, and the call for matching finds nothing.
    have waits : a.waiter ∈ m.pool.registry.entries := inLine.2 ⟨x, found, pending⟩
    obtain ⟨y, cancels⟩ : ∃ y, x.cancel? = some y :=
      ⟨_, Waiter.cancel?_eq_some_iff.2 ⟨pending, rfl⟩⟩
    exact quit_withdraws top (attached pending) found cancels fun none =>
      run.nothing_of_waiting top rfl rfl none waits
  · -- The right to answer was given away, so nothing but the listener leaves.
    have late : m.pool.cancel? a.waiter = none := by
      cases cancelled : m.pool.cancel? a.waiter with
      | none => rfl
      | some p =>
          obtain ⟨y, same, state, _⟩ := Pool.cancel?_eq_some cancelled
          exact absurd (Option.some.inj (found.symm.trans same) ▸ state) pending
    have silent : x.line = .silent := by
      rw [m.look_eq found] at unseen
      cases line : x.line <;> simp_all
    have last := hangUp_step (e := e) (x := x)
      (m := m.revise (.hangUp a.waiter :: (above ++ below)) m.pool m.trace) rfl found
      (by simp [silent])
    refine ⟨_, _, _, (Unseen.one top (quit_step_late top late) rfl).trans (.one rfl last rfl),
      .of_settled found pending fun waits => ?_⟩
    obtain ⟨z, same, state⟩ := inLine.1 waits
    exact pending (Option.some.inj (found.symm.trans same) ▸ state)

end Run
end ResourcePool
