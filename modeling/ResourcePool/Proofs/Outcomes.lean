import ResourcePool.Proofs.Guards

/-!
How requests end. Whenever nothing is in progress, exactly one thing is known of each request: it
stands in line, or one event decided about it. What was decided does not change, and at most one
poll shows it.
-/

namespace ResourcePool

attribute [-simp] Multiset.singleton_add

namespace Fate

/-- The event that took the request out of the line. -/
def commitment : Fate → Fate
  | delivered i | refused i | lost i => entrusted i
  | f => f

/-- The delivery that is under way. -/
def delivery? : Fate → Option Item
  | entrusted i => some i
  | _ => none

theorem delivery?_of_answer {f : Fate} {o : Outcome} (answer : f.answer = some o) :
    f.delivery? = none := by
  cases f <;> first | rfl | simp [Fate.answer] at answer

/-- What was decided is only added to when a delivery comes to its end. -/
theorem of_course_suffix {f g : Fate} (part : f.course <:+ g.course) :
    g.commitment = f.commitment ∧ (f.answer ≠ none → g = f) := by
  cases f <;> cases g <;> simp_all [course, commitment, answer, List.suffix_cons_iff]

theorem eq_of_course_eq {f g : Fate} (same : f.course = g.course) : f = g := by
  obtain ⟨fs, course⟩ := f.head_course
  exact (eq_of_course (course.symm.trans same)).symm

end Fate

def Handle.request? : Handle → Option Acquire
  | acquire a | get (.waiting a _) => some a
  | _ => none

def Background.request? : Background → Option Acquire
  | done _ a => some a
  | _ => none

namespace Machine

variable {σ : Type}

/-- The requests that callers wait for. -/
def requests (m : Machine σ) : List Acquire :=
  m.handles.entries.filterMap (fun e => e.2.request?) ++ m.background.request?.toList

/-- The waiter is pending and stands in line. -/
def Waiting (m : Machine σ) (w : Nat) : Prop :=
  w ∈ m.pool.registry.entries ∧ ∃ x, m.pool.waiter? w = some x ∧ x.state = .pending

/-- How the request of a waiter stands: it waits, or its fate is this. -/
structure Resolved (m : Machine σ) (h : History) (w : Nat) (f : Option Fate) : Prop where
  /-- Nothing else was ever decided about it. -/
  decided : h.fates w = f.elim [] Fate.course
  waiting : m.Waiting w ↔ f = none
  /-- Its delivery is queued exactly while it was neither run nor given up. -/
  queued : (m.tasks.filter fun t => t.waiter = w).map Task.item = (f.bind Fate.delivery?).toList
  /-- What a poll finds. -/
  shown : ∀ a ∈ m.requests, a.waiter = w → (m.look w).1 = f.bind Fate.answer

theorem Resolved.unique {m : Machine σ} {h : History} {w : Nat} {f g : Option Fate}
    (one : m.Resolved h w f) (other : m.Resolved h w g) : g = f := by
  have same := other.decided.symm.trans one.decided
  cases f with
  | none =>
      cases g with
      | none => rfl
      | some g =>
          obtain ⟨fs, course⟩ := g.head_course
          simp [course] at same
  | some f =>
      cases g with
      | none =>
          obtain ⟨fs, course⟩ := f.head_course
          simp [course] at same
      | some g => rw [Fate.eq_of_course_eq same]

variable {m : Machine σ} {w : Nat}

theorem listener_of_request {a : Acquire} (member : a ∈ m.requests) : .listener a ∈ m.assets := by
  obtain held | back := List.mem_append.1 member
  · obtain ⟨⟨k, x⟩, entry, request⟩ := List.mem_filterMap.1 held
    have inside : Asset.listener a ∈ m.handles.assets := by
      refine mem_sum_map.2 ⟨(k, x), entry, ?_⟩
      obtain b | (_ | ⟨b, deadline⟩) | i | r := x <;> simp_all [Handle.request?]
    simp [assets, inside]
  · have inside : Asset.listener a ∈ m.background.assets := by
      cases back' : m.background <;> simp_all [Background.request?]
    exact Multiset.mem_add.2 (.inr inside)

theorem listener_of_held {k : Nat} {a : Acquire} (held : m.handles.get? k = some (.acquire a))
    (h : History) : a.attached ∈ ((m.books 0 h).ties a.waiter).listeners := by
  refine (Multiset.mem_filterMap ..).2 ⟨.listener a, ?_, by simp⟩
  simp [books, assets_take held]

theorem withdraw_stack (a : Acquire) : (m.withdraw a).stack =
    (if a.attached && (m.pool.cancel? a.waiter).isSome then [.trigger] else []) ++ m.stack := by
  unfold withdraw
  cases a.attached
  · rfl
  · obtain _ | p := m.pool.cancel? a.waiter <;> rfl

theorem look_eq {x : Waiter Outcome} (found : m.pool.waiters[w]? = some x) :
    (m.look w).1 = match x.line with
      | .silent => none
      | .sent o => some o
      | .over => some (.error .cancelled) := by
  unfold look Pool.receive Pool.waiter? Waiter.receive
  cases line : x.line <;> simp [found, line]

theorem look_of_waiters {n : Machine σ} (same : m.pool.waiters = n.pool.waiters) (w : Nat) :
    (m.look w).1 = (n.look w).1 := by
  cases found : m.pool.waiters[w]? with
  | none => simp [Machine.look, Pool.receive, Pool.waiter?, found, ← same]
  | some x => rw [look_eq found, look_eq (same ▸ found)]

end Machine

namespace Standing

variable {x : Waiter Outcome} {t : Ties} (standing : Standing x t)
include standing

/-- At most one event decided about the request, and at most one more came of it. -/
theorem fates : t.fates = [] ∨ ∃ f : Fate, t.fates = f.course := by
  cases standing with
  | pending => exact .inl rfl
  | claimed _ _ course => exact course
  | answered | forsaken | finished => exact .inr ⟨_, rfl⟩

theorem sights : t.sights.length ≤ 1 ∧ ∀ o ∈ t.sights, t.fates.head?.bind Fate.answer = some o := by
  cases standing with
  | @finished f o sights _ _ answer seen =>
      obtain ⟨fs, course⟩ := f.head_course
      obtain rfl | rfl := seen <;> simp [course, answer]
  | _ => simp

end Standing

namespace Run

variable {σ : Type} {e : Environment σ} {past : List (Machine σ)} {m : Machine σ}

theorem standing (run : Run e past m) {w : Nat} {x : Waiter Outcome}
    (found : m.pool.waiters[w]? = some x) :
    Standing x ((m.books 0 (history e past)).ties w) :=
  run.sound.standings.standing w x found

/-- Who may send something to a waiter is the only one, and nothing was sent yet. -/
theorem sender (run : Run e past m) {w : Nat} {c : List Fate} (inside : .sender w c ∈ m.assets) :
    ∃ x, m.pool.waiters[w]? = some x ∧ x.state ≠ .pending ∧ x.line = .silent ∧
      ∀ c', .sender w c' ∈ m.assets → c' = c := by
  have sends {c : List Fate} (inside : .sender w c ∈ m.assets) :
      c ∈ ((m.books 0 (history e past)).ties w).senders :=
    (Multiset.mem_filterMap ..).2 ⟨.sender w c, by simpa [Machine.books] using inside, by simp⟩
  have here := sends inside
  obtain ⟨x, found, standing⟩ := run.sound.standings.known (w := w) fun none => by
    simp [none] at here
  refine ⟨x, found, ?_⟩
  generalize (m.books 0 (history e past)).ties w = s at standing sends here
  cases standing with
  | claimed state line =>
      obtain rfl := Multiset.mem_singleton.1 here
      exact ⟨state, line, fun c' inside => Multiset.mem_singleton.1 (sends inside)⟩
  | pending | answered | forsaken | finished => simp at here

theorem waiting_iff (run : Run e past m) {w : Nat} {x : Waiter Outcome}
    (found : m.pool.waiters[w]? = some x) : m.Waiting w ↔ x.state = .pending := by
  constructor
  · rintro ⟨_, x', found', state⟩
    obtain rfl : x = x' := Option.some.inj (found.symm.trans found')
    exact state
  · exact fun state => ⟨(run.sound.standings.inLine w).2 ⟨x, found, state⟩, x, found, state⟩

/-- What is known of a request when nothing is in progress. -/
theorem resolved (run : Run e past m) (rest : m.AtRest) {w : Nat}
    (known : w < m.pool.nextWaiter) : ∃ f, m.Resolved (history e past) w f := by
  have found := List.getElem?_eq_getElem known
  generalize m.pool.waiters[w] = x at found
  have look := m.look_eq found
  have waiting := run.waiting_iff found
  have fates : ((m.books 0 (history e past)).ties w).fates = (history e past).fates w := rfl
  have senders : ((m.books 0 (history e past)).ties w).senders =
      ((m.tasks.filter fun t => t.waiter = w).map fun t => [Fate.entrusted t.item] :
        List (List Fate)) := by
    rw [← rest.courses w, Books.ties, Machine.books, zero_add]
  have listeners : ∀ a ∈ m.requests, a.waiter = w →
      a.attached ∈ ((m.books 0 (history e past)).ties w).listeners := by
    rintro a member rfl
    refine (Multiset.mem_filterMap ..).2 ⟨.listener a, ?_, by simp⟩
    simpa [Machine.books] using Machine.listener_of_request member
  have standing := run.standing found
  generalize (m.books 0 (history e past)).ties w = t at fates senders listeners standing
  have queue (none : t.senders = 0) : (m.tasks.filter fun t => t.waiter = w) = [] := by
    rw [none] at senders
    simpa using senders.symm
  -- Each standing fixes the fates, who may answer and who listens. With nothing in progress the
  -- right to answer lies in the queue of deliveries alone.
  cases standing with
  | pending state line =>
      refine ⟨none, fates.symm, by simp [waiting, state], by simp [queue rfl], fun _ _ _ => ?_⟩
      simp [look, line]
  | @claimed fs listeners state line course =>
      obtain ⟨t, only, rfl⟩ : ∃ t, (m.tasks.filter fun t => t.waiter = w) = [t] ∧
          [Fate.entrusted t.item] = fs :=
        List.map_eq_singleton_iff.1 (Multiset.coe_eq_singleton.1 senders.symm)
      refine ⟨some (.entrusted t.item), fates.symm, by simp [waiting, state], ?_, fun _ _ _ => ?_⟩
      · simp [only, Fate.delivery?]
      · simp [look, line, Fate.answer]
  | @answered f o b state line listening answer =>
      refine ⟨some f, fates.symm, by simp [waiting, state], ?_, fun _ _ _ => ?_⟩
      · simp [queue rfl, Fate.delivery?_of_answer answer]
      · simp [look, line, answer]
  | @forsaken f b state line answer =>
      refine ⟨some f, fates.symm, by simp [waiting, state], ?_, fun _ _ _ => ?_⟩
      · simp [queue rfl, Fate.delivery?_of_answer answer]
      · simp [look, line, answer]
  | @finished f o sights state line answer =>
      refine ⟨some f, fates.symm, by simp [waiting, state], ?_, fun a member same => ?_⟩
      · simp [queue rfl, Fate.delivery?_of_answer answer]
      · -- Nobody listens any more, so no caller waits for the request.
        simpa using listeners a member same

/-- Whether a request can be withdrawn when `cancel` is called. -/
theorem withdrawable_iff (run : Run e past m) {k : Nat} {a : Acquire}
    (held : m.handles.get? k = some (.acquire a)) :
    (a.attached && (m.pool.cancel? a.waiter).isSome) = true ↔ m.Waiting a.waiter := by
  have listener := Machine.listener_of_held held (history e past)
  obtain ⟨x, found, standing⟩ := run.sound.standings.known (w := a.waiter) fun none => by
    simp [none] at listener
  rw [run.waiting_iff found, Bool.and_eq_true]
  constructor
  · rintro ⟨_, cancelled⟩
    obtain ⟨p, cancelled⟩ := Option.isSome_iff_exists.1 cancelled
    obtain ⟨x', found', state, _⟩ := Pool.cancel?_eq_some cancelled
    obtain rfl : x = x' := Option.some.inj (found.symm.trans found')
    exact state
  · intro state
    have ties := (Standings.pending_of_state standing state).2.2
    rw [ties] at listener
    exact ⟨by simpa using listener, Pool.cancel?_of_pending found state⟩

theorem fates_course (run : Run e past m) (w : Nat) :
    (history e past).fates w = [] ∨ ∃ f : Fate, (history e past).fates w = f.course := by
  cases found : m.pool.waiters[w]? with
  | none => exact .inl (congrArg Ties.fates (run.sound.standings.beyond w found))
  | some x => exact (run.standing found).fates

theorem sights_le (run : Run e past m) (w : Nat) : ((history e past).sights w).length ≤ 1 ∧
    ∀ o ∈ (history e past).sights w, (history e past).answer w = some o := by
  cases found : m.pool.waiters[w]? with
  | none =>
      have none : (history e past).sights w = [] :=
        congrArg Ties.sights (run.sound.standings.beyond w found)
      simp [none]
  | some x => exact (run.standing found).sights

theorem persists (run : Run e past m) {earlier : List (Machine σ)} (part : earlier <:+ past)
    (w : Nat) : (history e earlier).fates w = [] ∨ ∃ f g : Fate,
      (history e earlier).fates w = f.course ∧ (history e past).fates w = g.course ∧
        g.commitment = f.commitment ∧ (f.answer ≠ none → g = f) := by
  obtain ⟨m', before⟩ := run.of_suffix part
  refine (before.fates_course w).imp_right fun ⟨f, decided⟩ => ?_
  have longer : (history e earlier).fates w <:+ (history e past).fates w := by
    obtain ⟨later, rfl⟩ := part
    rw [history, history, List.flatMap_append]
    exact (List.suffix_append ..).filterMap _
  obtain none | ⟨g, now⟩ := run.fates_course w
  · obtain ⟨fs, course⟩ := f.head_course
    simp [decided, course, none] at longer
  · exact ⟨f, g, decided, now, Fate.of_course_suffix (by rwa [decided, now] at longer)⟩

theorem cancel_step (run : Run e past m) {k : Nat} {a : Acquire} {rest : List Activity}
    (top : m.stack = .perform (.cancel k) :: rest)
    (held : m.handles.get? k = some (.acquire a)) :
    ∃ b, (b = true ↔ m.Waiting a.waiter) ∧
      m.deeds e = (if b then [.fate a.waiter .withdrawn] else []) ∧
      (m.step e).stack = (if b then [.trigger] else []) ++
        .put k (.acquire { a with attached := false }) :: .say (.flag b) :: .release :: rest := by
  refine ⟨_, run.withdrawable_iff held, ?_, ?_⟩
  · simp only [Machine.deeds, top, Machine.deedsOf, Machine.deedsOfOp, held, Machine.withdrawal]
  · simp only [Machine.step, top, Machine.exec, Machine.perform, held, Machine.cancel]
    exact Machine.withdraw_stack a

/-- Every request comes to one end at most, and one event decides which. -/
theorem outcomes (run : Run e past m) :
    (m.AtRest → ∀ w < m.pool.nextWaiter, ∃! f, m.Resolved (history e past) w f) ∧
      (∀ k a rest, m.stack = .perform (.cancel k) :: rest →
        m.handles.get? k = some (.acquire a) →
        ∃ b, (b = true ↔ m.Waiting a.waiter) ∧
          m.deeds e = (if b then [.fate a.waiter .withdrawn] else []) ∧
          (m.step e).stack = (if b then [.trigger] else []) ++
            .put k (.acquire { a with attached := false }) :: .say (.flag b) :: .release :: rest) ∧
      (∀ earlier, earlier <:+ past → ∀ w, (history e earlier).fates w = [] ∨ ∃ f g : Fate,
        (history e earlier).fates w = f.course ∧ (history e past).fates w = g.course ∧
          g.commitment = f.commitment ∧ (f.answer ≠ none → g = f)) ∧
      ∀ w, ((history e past).sights w).length ≤ 1 ∧
        ∀ o ∈ (history e past).sights w, (history e past).answer w = some o := by
  refine ⟨fun rest w known => ?_, fun k a rest => run.cancel_step, fun earlier part =>
    run.persists part, run.sights_le⟩
  obtain ⟨f, resolved⟩ := run.resolved rest known
  exact ⟨f, resolved, fun g other => resolved.unique other⟩

/-- Of three requests for one resource the first is delivered and polled, the second is cancelled
while it waits, and the third still waits. -/
theorem outcomes_three : ∃ (past : List (Machine Bench.Rig)) (m : Machine Bench.Rig),
    Run Bench.environment past m ∧ m.AtRest ∧ m.pool.nextWaiter = 3 ∧
      (history Bench.environment past).sights 0 = [.ok ⟨0, { id := 0, slot := 0 }⟩] ∧
      (history Bench.environment past).fates 1 = [.withdrawn] ∧
      (∀ w < m.pool.nextWaiter, ∃! f, m.Resolved (history Bench.environment past) w f) ∧
      ∃ (before : List (Machine Bench.Rig)) (n : Machine Bench.Rig),
        Run Bench.environment before n ∧ n.stack = [.perform (.cancel 1)] ∧
          ∃ b, (b = true ↔ n.Waiting 1) ∧
            n.deeds Bench.environment = if b then [.fate 1 .withdrawn] else [] := by
  have first := ((bench (c := { maxSize := 1 }) rfl).ask (.acquire 0) rfl).steps 40
  have second := (first.ask (.acquire 1) rfl).steps 40
  have third := (second.ask (.acquire 2) rfl).steps 40
  have asked := third.ask (.cancel 1) rfl
  have cancelled := asked.steps 40
  have delivered := (cancelled.ask (.run none) rfl).steps 40
  have polled := (delivered.ask (.poll 0) rfl).steps 40
  obtain ⟨b, waiting, deeds, _⟩ := asked.outcomes.2.1 1 ⟨1, true⟩ [] rfl rfl
  exact ⟨_, _, polled, rfl, rfl, rfl, rfl, polled.outcomes.1 rfl, _, _, asked, rfl, b, waiting, deeds⟩

end Run
end ResourcePool
