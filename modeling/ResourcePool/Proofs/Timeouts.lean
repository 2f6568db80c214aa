import ResourcePool.Proofs.Deadlines
import ResourcePool.Proofs.Handback
import ResourcePool.Proofs.Withdrawal

/-!
Requests with a limit. A poll shows how the request ended, if that was sent, even when the time is
over; otherwise the request fails when the time is over, and is pending before. Main statement: a
request that fails at its limit leaves the line and nothing else, nobody ever hears of its waiter
again, and a delivery that was on its way hands its resource back.
-/

namespace ResourcePool

attribute [-simp] Multiset.singleton_add

namespace Machine

variable {σ : Type} {e : Environment σ} {m n : Machine σ}

/-- How the request of a waiter ended is decided, and nobody has still to send it. -/
def Delivered (m : Machine σ) (h : History) (w : Nat) (o : Outcome) : Prop :=
  h.answer w = some o ∧ ∀ c, .sender w c ∉ m.assets

/-- The limit of the configuration is over, in whole milliseconds since the first poll. A limit that
no clock can count to is never over. -/
def Elapsed (n m : Machine σ) (limit : Duration) : Prop :=
  m.pool.config.acquireTimeout = some limit ∧ limit.fitsClock = true ∧
    n.clock + limit.ceilMillis ≤ m.clock

/-- The poll shows how the request ended: a resource is on loan under the number of the request, and
a request that failed only gives up its reference to the pool. -/
structure Shows (e : Environment σ) (m : Machine σ) (k w : Nat) (o : Outcome)
    (rest : List Activity) : Prop where
  reply : (m.step e).reply = pollReply o
  handles : (m.step e).handles = match o with
    | .ok i => m.handles.insert k (.guard i)
    | .error _ => m.handles.erase k
  stack : (m.step e).stack = match o with
    | .ok _ => rest
    | .error _ => .release :: rest
  seen : m.deeds e = [.seen w o]

/-- The first poll shows how the request ended. -/
structure ShowsFirst (e : Environment σ) (m : Machine σ) (k w : Nat) (o : Outcome)
    (rest : List Activity) : Prop where
  reply : (m.step e).reply = match o with
    | .ok _ => m.reply
    | .error _ => pollReply o
  stack : (m.step e).stack = match o with
    | .ok i => .put k (.guard i) :: .say (pollReply o) :: rest
    | .error _ => rest
  seen : m.deeds e = [.seen w o]

/-- The machine after a request gave up at its limit: the number is free, and only the reference to
the pool is still to be given up. -/
def expired (m : Machine σ) (k : Nat) (limit : Duration) (rest : List Activity) (pool : Pool)
    (trace : List Event) : Machine σ :=
  { m with
    handles := m.handles.erase k
    stack := .release :: rest
    pool, trace
    reply := .poll (.failed (.timedOut limit)) }

/-- Nobody keeps a request for the waiter, it is not in line, nothing was sent to it, and no poll
has shown an outcome. -/
structure Forgotten (m : Machine σ) (h : History) (w : Nat) : Prop where
  requests : ∀ r ∈ m.allRequests, r.waiter ≠ w
  line : w ∉ m.pool.registry.entries
  sent : ∀ x, m.pool.waiters[w]? = some x → ∀ o, x.line ≠ .sent o
  seen : h.sights w = []

/-- What has become of a waiter that was given up, after the steps `later`. -/
structure Spared (e : Environment σ) (m : Machine σ) (later earlier : List (Machine σ)) (w : Nat) :
    Prop where
  forgotten : m.Forgotten (history e (later ++ earlier)) w
  /-- A delivery to it is over when it has run or was given up, and its resource came back. -/
  back : ∀ l u k t, later = l ++ u :: k → u.Disposes t → t.waiter = w → m.AtRest →
    CameBack e l t.item ∧
      (u.pool.closed = true → m.Discarded e l (u :: (k ++ earlier)) t.item) ∧
      ∀ v ∈ m.tasks, v.waiter ≠ w
  /-- What is idle was offered to everybody in line. -/
  offered : m.AtRest → m.pool.closed = false → m.pool.registry.entries ≠ [] → m.pool.returned = []
  /-- A slot is on loan for a guard that a caller holds, for a delivery that is still queued, or for
  another waiter. -/
  loans : m.AtRest → ∀ s, (m.pool.slot s).state = .checkedOut →
    (∃ k i, m.handles.get? k = some (.guard i) ∧ i.slot = s) ∨ (∃ t ∈ m.tasks, t.item.slot = s) ∨
      ∃ v x i, v ≠ w ∧ m.pool.waiters[v]? = some x ∧ x.line = .sent (.ok i) ∧ i.slot = s

theorem deadline_eq_some_iff {d : Deadline} : m.deadline = some d ↔
    m.pool.config.acquireTimeout = some d.limit ∧ d.limit.fitsClock = true ∧
      d.time = m.clock + d.limit.ceilMillis := by
  obtain ⟨time, limit⟩ := d
  unfold deadline
  cases m.pool.config.acquireTimeout with
  | none => simp
  | some limit' =>
      by_cases fits : limit'.fitsClock = true
      · simp only [Option.bind_some, fits, if_true, Option.some.injEq, Deadline.mk.injEq]
        constructor
        · rintro ⟨rfl, rfl⟩
          exact ⟨rfl, fits, rfl⟩
        · rintro ⟨rfl, _, rfl⟩
          exact ⟨rfl, rfl⟩
      · simp only [Option.bind_some, fits, Bool.false_eq_true, if_false, reduceCtorEq, false_iff]
        rintro ⟨same, fits', _⟩
        exact fits (Option.some.inj same ▸ fits')

/-- The deadline that the first poll set has passed when the limit is over. -/
theorem elapsed_iff (same : m.pool.config = n.pool.config) {limit : Duration} :
    Elapsed n m limit ↔ ∃ d, n.deadline = some d ∧ d.limit = limit ∧ d.time ≤ m.clock := by
  simp only [deadline_eq_some_iff, Elapsed, same]
  constructor
  · rintro ⟨configured, fits, late⟩
    exact ⟨⟨_, limit⟩, ⟨configured, fits, rfl⟩, rfl, late⟩
  · rintro ⟨d, ⟨configured, fits, time⟩, rfl, late⟩
    exact ⟨configured, fits, time ▸ late⟩

/-- Below the last moment of a clock, the limit is over when its milliseconds have passed. -/
theorem elapsed_iff_of_lt (below : m.clock < 0x8000000000000000 * 1000) {limit : Duration} :
    Elapsed n m limit ↔ m.pool.config.acquireTimeout = some limit ∧
      n.clock + limit.ceilMillis ≤ m.clock := by
  refine ⟨fun ⟨configured, _, late⟩ => ⟨configured, late⟩, fun ⟨configured, late⟩ =>
    ⟨configured, ?_, late⟩⟩
  have long := (limit.ceilMillis_le_iff _).1 (Nat.le_add_left _ _ |>.trans late)
  simp only [Duration.fitsClock, Duration.totalNanos, decide_eq_true_eq] at long ⊢
  omega

variable {k : Nat} {r : Acquire} {rest : List Activity} {o : Outcome}

/-- A poll of a request that was not begun makes the request. -/
theorem poll_unstarted (top : m.stack = .perform (.poll k) :: rest)
    (held : m.handles.get? k = some (.get .unstarted)) :
    (m.step e).stack = .acquire (.get k) :: .release :: rest := by
  simp only [step, top, exec, perform, poll, held]
  rfl

theorem acquire_get (top : m.stack = .acquire (.get k) :: rest) :
    (m.step e).stack = (if m.pool.closed then [] else [.trigger]) ++
      .acquired ⟨m.pool.nextWaiter, !m.pool.closed⟩ (.get k) :: rest := by
  simp only [step, top, exec, request]
  cases m.pool.closed <;> rfl

/-- A poll that finds how the request ended. -/
theorem poll_of_some {d : Option Deadline} (held : m.handles.get? k = some (.get (.waiting r d)))
    (found : (m.look r.waiter).1 = some o) : ∃ p, m.poll k = (m.withPool p).resolve k o := by
  obtain ⟨p, pool, _⟩ := look_eq_some
    (show m.look r.waiter = (some o, (m.look r.waiter).2) from Prod.ext found rfl)
  refine ⟨p, ?_⟩
  have seen : m.look r.waiter = (some o, m.withPool p) := Prod.ext found pool
  simp only [poll, held, seen]

/-- A poll that finds nothing compares the time with the deadline. -/
theorem poll_of_none {d : Option Deadline} (held : m.handles.get? k = some (.get (.waiting r d)))
    (none : (m.look r.waiter).1 = none) :
    (∀ l, d = some l → l.time ≤ m.clock → m.poll k = m.expire k r l.limit) ∧
      ((∀ l, d = some l → ¬l.time ≤ m.clock) → m.poll k = m.answer (.poll .pending)) := by
  have unseen : m.look r.waiter = (.none, m) := Prod.ext none (look_eq_none
    (show m.look r.waiter = (.none, (m.look r.waiter).2) from Prod.ext none rfl))
  simp only [poll, held, unseen]
  constructor
  · rintro l rfl late
    simp only [late, if_true]
  · intro early
    cases d with
    | none => rfl
    | some l => simp only [early l rfl, if_false]

theorem step_poll (top : m.stack = .perform (.poll k) :: rest) :
    m.step e = ({ m with stack := rest } : Machine σ).poll k := by
  simp only [step, top, exec, perform]

theorem look_below (m : Machine σ) (rest : List Activity) (w : Nat) :
    (({ m with stack := rest } : Machine σ).look w).1 = (m.look w).1 :=
  look_of_pool (n := { m with stack := rest }) (m := m) rfl w

theorem deeds_poll (top : m.stack = .perform (.poll k) :: rest) {d : Option Deadline}
    (held : m.handles.get? k = some (.get (.waiting r d))) :
    m.deeds e = (m.look r.waiter).1.toList.map (.seen r.waiter) := by
  simp only [deeds, top, deedsOf, deedsOfOp, held, sight, look_below]

theorem shows (top : m.stack = .perform (.poll k) :: rest) {d : Option Deadline}
    (held : m.handles.get? k = some (.get (.waiting r d))) (found : (m.look r.waiter).1 = some o) :
    m.Shows e k r.waiter o rest := by
  obtain ⟨p, polled⟩ := poll_of_some (m := { m with stack := rest }) held
    ((m.look_below rest _).trans found)
  have next := (step_poll (e := e) top).trans polled
  have seen : m.deeds e = [.seen r.waiter o] := by rw [deeds_poll top held, found]; rfl
  cases o with
  | ok i => exact ⟨congrArg reply next, congrArg handles next, congrArg stack next, seen⟩
  | error => exact ⟨congrArg reply next, congrArg handles next, congrArg stack next, seen⟩

/-- A request whose time is over gives up, and its listener leaves. -/
theorem expires (top : m.stack = .perform (.poll k) :: rest) {d : Deadline}
    (held : m.handles.get? k = some (.get (.waiting r (some d))))
    (none : (m.look r.waiter).1 = none) (late : d.time ≤ m.clock) : m.step e =
      ({ m with stack := rest } : Machine σ).expire k r d.limit :=
  (step_poll top).trans ((poll_of_none (m := { m with stack := rest }) held
    ((m.look_below rest _).trans none)).1 d rfl late)

/-- The first poll finds how the request ended. -/
theorem first_shows (top : m.stack = .acquired r (.get k) :: rest)
    (found : (m.look r.waiter).1 = some o) : m.ShowsFirst e k r.waiter o rest := by
  have found' := (m.look_below rest _).trans found
  obtain ⟨p, pool, _⟩ := look_eq_some (m := { m with stack := rest }) (Prod.ext found' rfl)
  have seen : ({ m with stack := rest } : Machine σ).look r.waiter =
      (some o, ({ m with stack := rest } : Machine σ).withPool p) := Prod.ext found' pool
  have next : m.step e = ({ m with stack := rest } : Machine σ).firstPoll k r := by
    simp only [step, top, exec, requested]
  have deeds : m.deeds e = [.seen r.waiter o] := by
    simp only [deeds, top, deedsOf, sight, look_below, found]
    rfl
  cases o with
  | ok i =>
      simp only [firstPoll, seen] at next
      exact ⟨by rw [next]; rfl, congrArg stack next, deeds⟩
  | error =>
      simp only [firstPoll, seen] at next
      exact ⟨congrArg reply next, congrArg stack next, deeds⟩

/-- The first poll finds nothing: the request waits until the deadline. -/
theorem first_waits (top : m.stack = .acquired r (.get k) :: rest)
    (none : (m.look r.waiter).1 = none) : m.step e = ({ m with stack := rest } : Machine σ).push
      [.put k (.get (.waiting r m.deadline)), .say (.poll .pending)] := by
  have none := (m.look_below rest _).trans none
  have unseen : ({ m with stack := rest } : Machine σ).look r.waiter =
      (.none, { m with stack := rest }) :=
    Prod.ext none (look_eq_none (Prod.ext none rfl))
  simp only [step, top, exec, requested, firstPoll, unseen]
  rfl

end Machine

theorem Books.mem_senders {b : Books} {w : Nat} {c : List Fate} :
    c ∈ (b.ties w).senders ↔ .sender w c ∈ b.assets := by
  refine (Multiset.mem_filterMap ..).trans ⟨?_, fun inside => ⟨_, inside, by simp⟩⟩
  rintro ⟨a, inside, course⟩
  cases a with
  | sender v fates =>
      obtain ⟨rfl, rfl⟩ : v = w ∧ fates = c := by simpa using course
      exact inside
  | _ => simp at course

namespace Standing

variable {x : Waiter Outcome} {t : Ties} (standing : Standing x t)
include standing

theorem listeners_eq {b : Bool} (listens : b ∈ t.listeners) : t.listeners = {b} := by
  cases standing with
  | claimed _ _ _ heard =>
      obtain ⟨⟨c, rfl⟩, _⟩ | ⟨rfl, _⟩ := heard <;> simp_all
  | _ => simp_all

/-- While somebody listens, no poll has shown an outcome. -/
theorem sights_of_listener {b : Bool} (listens : b ∈ t.listeners) : t.sights = [] := by
  cases standing with
  | finished => simp at listens
  | _ => rfl

end Standing

namespace Run

open Machine

variable {σ : Type} {e : Environment σ} {past : List (Machine σ)} {m n : Machine σ}

theorem config_valid (run : Run e past m) : m.pool.config.validate = .ok () := by
  induction run with
  | start built =>
      unfold build at built
      split at built
      · simp at built
      · next valid =>
          obtain rfl := Except.ok.inj built
          exact valid
  | ask _ _ _ ih | threads _ _ _ ih => exact ih
  | step run ih => exact run.config_step ▸ ih

/-- The limit is not over at the first poll. -/
theorem not_elapsed (run : Run e past m) (limit : Duration) : ¬Elapsed m m limit := by
  rintro ⟨configured, _, late⟩
  have positive := ((Config.validate_eq_ok_iff _).1 run.config_valid).2 limit configured
  have none := (limit.ceilMillis_le_iff 0).1 (by omega)
  rw [(Duration.isZero_iff limit).2 (by omega)] at positive
  cases positive

/-- Who waits for an outcome is the only listener of a waiter. -/
theorem standing_of_listener (run : Run e past m) {r : Acquire}
    (listens : .listener r ∈ m.assets) : ∃ x, m.pool.waiters[r.waiter]? = some x ∧
      Standing x ((m.books 0 (history e past)).ties r.waiter) ∧
        ((m.books 0 (history e past)).ties r.waiter).listeners = {r.attached} := by
  have listener : r.attached ∈ ((m.books 0 (history e past)).ties r.waiter).listeners :=
    (Multiset.mem_filterMap ..).2 ⟨_, by simpa [Machine.books] using listens, by simp⟩
  obtain ⟨x, found, standing⟩ := run.sound.standings.known (w := r.waiter) fun none => by
    simp [none] at listener
  exact ⟨x, found, standing, standing.listeners_eq listener⟩

/-- What a listener finds is how its request ended, once that is decided and sent. -/
theorem delivered_iff (run : Run e past m) {r : Acquire} (listens : .listener r ∈ m.assets)
    {o : Outcome} :
    m.Delivered (history e past) r.waiter o ↔ (m.look r.waiter).1 = some o := by
  obtain ⟨x, found, standing, listener⟩ := run.standing_of_listener listens
  have senders (c : List Fate) : .sender r.waiter c ∈ m.assets ↔
      c ∈ ((m.books 0 (history e past)).ties r.waiter).senders := by
    rw [Books.mem_senders, Machine.books, zero_add]
  have fates : ((m.books 0 (history e past)).ties r.waiter).fates =
    (history e past).fates r.waiter := rfl
  rw [m.look_eq found]
  simp only [Delivered, History.answer, senders, ← fates]
  generalize (m.books 0 (history e past)).ties r.waiter = t at standing listener
  cases standing with
  | pending _ line => simp [line]
  | claimed _ line => simp [line]
  | @answered f o _ _ line _ answer | @forsaken f _ _ line answer =>
      obtain ⟨fs, course⟩ := f.head_course
      simp [line, course, answer]
  | finished => simp at listener

/-- A request whose time is over gives up: it leaves the line and nothing else. -/
theorem expires (run : Run e past m) {k : Nat} {r : Acquire} {d : Deadline} {rest : List Activity}
    (top : m.stack = .perform (.poll k) :: rest)
    (held : m.handles.get? k = some (.get (.waiting r (some d))))
    (none : (m.look r.waiter).1 = none) (late : d.time ≤ m.clock) :
    ∃ v l q trace, Unseen e rest m (v :: l) (m.expired k d.limit rest q trace) ∧
      v.step e = m.expired k d.limit rest q trace ∧ m.pool.Forsakes q r.waiter := by
  have next := Machine.expires (e := e) top held none late
  obtain ⟨l, q, trace, quiet, forsakes⟩ := run.step.quits (e := e) (a := r)
    (show (m.step e).stack = .quit r :: ([.timedOut d.limit, .release] ++ rest) by rw [next]; rfl)
    ((look_of_pool (m := m) (by rw [next]; rfl) _).trans none)
  have pool : (m.step e).pool = m.pool := by rw [next]; rfl
  generalize revised : (m.step e).revise _ q trace = n at quiet
  have last : n.step e = m.expired k d.limit rest q (.log (.timedOut d.limit) :: trace) := by
    subst revised
    rw [next]
    rfl
  have first : Unseen e rest m [m] (m.step e) :=
    ⟨.one (show m.stack = _ :: ([] ++ rest) from top), fun w => by
      rw [history_cons, history_nil, List.append_nil, deeds_poll top held, none]; rfl⟩
  refine ⟨n, l ++ [m], q, .log (.timedOut d.limit) :: trace, ?_, last, pool ▸ forsakes⟩
  exact (first.trans quiet).trans (.one
    (show n.stack = .timedOut d.limit :: ([.release] ++ rest) by subst revised; rfl) last rfl)

/-- When a request has given up, nobody listens for its waiter, and no poll has shown an outcome. -/
theorem unheard_of_expired (run : Run e past m) {k : Nat} {r : Acquire} {d : Option Deadline}
    {limit : Duration} {rest : List Activity} {l : List (Machine σ)} {q : Pool} {trace : List Event}
    (top : m.stack = .perform (.poll k) :: rest)
    (held : m.handles.get? k = some (.get (.waiting r d)))
    (quiet : Unseen e rest m l (m.expired k limit rest q trace))
    (forsakes : m.pool.Forsakes q r.waiter) :
    ((m.expired k limit rest q trace).books 0 (history e (l ++ past))).Unheard r.waiter [] := by
  have assets : m.assets = {.listener r} + (m.expired k limit rest q trace).assets := by
    rw [assets_take held, Machine.assets, Machine.assets]
    simp [top, take, expired]
  obtain ⟨x, found, standing, listener⟩ := run.standing_of_listener (r := r) (by simp [assets])
  obtain ⟨_, _, waiters⟩ := forsakes.waiter
  refine ⟨?_, ?_, ?_⟩
  · -- Giving up makes no waiter and removes none.
    have known : r.waiter < m.pool.waiters.length := List.getElem?_eq_some_iff.1 found |>.1
    simpa [Machine.books, expired, Pool.nextWaiter, waiters] using known
  · simpa [Books.ties, Machine.books, assets] using listener
  · have before := standing.sights_of_listener (listener ▸ Multiset.mem_singleton_self _)
    rw [Books.ties, Machine.books, history_append, History.sights, List.filterMap_append]
    exact List.append_eq_nil_iff.2 ⟨quiet.unseen r.waiter, before⟩

theorem forgotten_of_unheard (run : Run e past m) {w : Nat}
    (unheard : (m.books 0 (history e past)).Unheard w []) : m.Forgotten (history e past) w := by
  obtain ⟨x, found⟩ : ∃ x, m.pool.waiters[w]? = some x :=
    ⟨_, List.getElem?_eq_getElem unheard.known⟩
  obtain ⟨settled, sent, _⟩ := (run.standing found).of_unheard unheard.listeners
  refine ⟨fun r => request_ne_of_unheard unheard, fun inLine => ?_, fun y same => ?_,
    unheard.sights⟩
  · obtain ⟨y, same, pending⟩ := (run.sound.standings.inLine w).1 inLine
    exact settled (Option.some.inj (found.symm.trans same) ▸ pending)
  · exact Option.some.inj (found.symm.trans same) ▸ sent

theorem spared_of_unheard {later earlier : List (Machine σ)} {v : Machine σ} {w : Nat}
    (run : Run e (later ++ v :: earlier) m)
    (unheard : ((v.step e).books 0 (history e (v :: earlier))).Unheard w []) :
    m.Spared e later (v :: earlier) w := by
  have forgotten := run.forgotten_of_unheard (run.unheard rfl unheard)
  refine ⟨forgotten, ?_, fun still opened line => ?_, fun still s lent => ?_⟩
  · rintro l u k t rfl disposes rfl still
    have parts : (l ++ u :: k) ++ v :: earlier = l ++ u :: (k ++ v :: earlier) := by simp
    have there := run.before_of_append parts
    exact run.hands_back parts disposes (there.unheard rfl unheard) still
  · by_contra idle
    exact still.not_alert _ (run.matching.noticed ⟨opened, line, fun none => idle none.returned⟩)
  · obtain guard | queued | ⟨v, x, i, found, sent, slot⟩ := run.loan_of_checkedOut still lent
    · exact .inl guard
    · exact .inr (.inl queued)
    · refine .inr (.inr ⟨v, x, i, ?_, found, sent, slot⟩)
      rintro rfl
      exact forgotten.sent x found _ sent

/-- A poll of a request with a limit shows how the request ended, if that is decided and sent, even
when the time is over. Otherwise the request fails when the time since its first poll is over, and
is pending before. A request that fails so leaves the line and touches neither the slots nor the
queues nor another waiter; nobody hears of its waiter again, and a delivery to it hands its resource
back. -/
theorem timed_polls (run : Run e past m) :
    (∀ k rest, m.stack = .perform (.poll k) :: rest →
      m.handles.get? k = some (.get .unstarted) →
      (m.step e).stack = .acquire (.get k) :: .release :: rest) ∧
    (∀ k rest, m.stack = .acquire (.get k) :: rest →
      (m.step e).stack = (if m.pool.closed then [] else [.trigger]) ++
        .acquired ⟨m.pool.nextWaiter, !m.pool.closed⟩ (.get k) :: rest) ∧
    (∀ k r rest, m.stack = .acquired r (.get k) :: rest →
      (∀ limit, ¬Elapsed m m limit) ∧
      (∀ o, m.Delivered (history e past) r.waiter o → m.ShowsFirst e k r.waiter o rest) ∧
      ((∀ o, ¬m.Delivered (history e past) r.waiter o) →
        m.step e = ({ m with stack := rest } : Machine σ).push
          [.put k (.get (.waiting r m.deadline)), .say (.poll .pending)])) ∧
    ∀ k r d rest, m.stack = .perform (.poll k) :: rest →
      m.handles.get? k = some (.get (.waiting r d)) →
      ∃ later n earlier, past = later ++ n :: earlier ∧ n.PollsFirst k r ∧ d = n.deadline ∧
        (m.clock < 0x8000000000000000 * 1000 → ∀ limit, Elapsed n m limit ↔
          m.pool.config.acquireTimeout = some limit ∧ n.clock + limit.ceilMillis ≤ m.clock) ∧
        (∀ o, m.Delivered (history e past) r.waiter o → m.Shows e k r.waiter o rest) ∧
        ((∀ o, ¬m.Delivered (history e past) r.waiter o) →
          (∀ limit, Elapsed n m limit →
            ∃ v l q trace, Unseen e rest m (v :: l) (m.expired k limit rest q trace) ∧
              m.pool.Forsakes q r.waiter ∧
              ∀ after last, Run e (after ++ v :: (l ++ past)) last →
                last.Spared e after (v :: (l ++ past)) r.waiter) ∧
          ((∀ limit, ¬Elapsed n m limit) →
            m.step e = ({ m with stack := rest } : Machine σ).answer (.poll .pending))) := by
  have unseen {r : Acquire} (listens : .listener r ∈ m.assets)
      (unsent : ∀ o, ¬m.Delivered (history e past) r.waiter o) : (m.look r.waiter).1 = none := by
    refine Option.eq_none_iff_forall_ne_some.2 fun o found => ?_
    exact unsent o ((run.delivered_iff listens).2 found)
  refine ⟨fun k rest => poll_unstarted, fun k rest => acquire_get, fun k r rest top => ?_,
    fun k r d rest top held => ?_⟩
  · have listens : .listener r ∈ m.assets :=
      mem_assets (a := .acquired r (.get k)) (by simp [activities, top]) (by simp)
    exact ⟨run.not_elapsed, fun o sent => first_shows top ((run.delivered_iff listens).1 sent),
      fun unsent => first_waits top (unseen listens unsent)⟩
  · have listens : .listener r ∈ m.assets := by simp [assets_take held]
    obtain ⟨later, n, earlier, parts, first, _, set⟩ := run.first_poll (.inl held)
    have config := run.keepsPool (P := fun p => p.config = n.pool.config) parts
      (fun run same => run.config_step.trans same) rfl
    refine ⟨later, n, earlier, parts, first, set, fun below limit => elapsed_iff_of_lt below,
      fun o sent => shows top held ((run.delivered_iff listens).1 sent),
      fun unsent => ⟨fun limit elapsed => ?_, fun early => ?_⟩⟩
    · obtain ⟨d', set', rfl, late⟩ := (elapsed_iff config).1 elapsed
      obtain rfl := set.trans set'
      obtain ⟨v, l, q, trace, quiet, last, forsakes⟩ :=
        run.expires top held (unseen listens unsent) late
      refine ⟨v, l, q, trace, quiet, forsakes, fun after m' further => further.spared_of_unheard ?_⟩
      exact last ▸ run.unheard_of_expired top held quiet forsakes
    · refine (step_poll top).trans ((poll_of_none (m := { m with stack := rest }) held
        ((m.look_below rest _).trans (unseen listens unsent))).2 fun d' same late => ?_)
      exact early d'.limit ((elapsed_iff config).2 ⟨d', set.symm.trans same, rfl, late⟩)

/-- The time of a request is over while its delivery is queued. The delivery runs later, and hands
its resource back. -/
theorem timed_polls_late : ∃ (past after l : List (Machine Bench.Rig))
    (m v last : Machine Bench.Rig) (q : Pool) (trace : List Event), Run Bench.environment past m ∧
      m.stack = [.perform (.poll 1)] ∧ m.tasks.map Task.waiter = [1] ∧
      m.handles.get? 1 = some (.get (.waiting ⟨1, true⟩ (some ⟨30000, .ofSeconds 30⟩))) ∧
      Unseen Bench.environment [] m (v :: l) (m.expired 1 (.ofSeconds 30) [] q trace) ∧
      m.pool.Forsakes q 1 ∧ Run Bench.environment (after ++ v :: (l ++ past)) last ∧
      last.AtRest ∧ last.pool.returned.map Item.slot = [0] ∧
      last.Spared Bench.environment after (v :: (l ++ past)) 1 := by
  have made := (((bench (c := { maxSize := 1 }) rfl).ask (.get 0) rfl).steps 5).ask (.poll 0) rfl
  have lent := (((made.steps 40).ask (.run none) rfl).steps 40).ask (.poll 0) rfl
  have second := (((lent.steps 40).ask (.get 1) rfl).steps 5).ask (.poll 1) rfl
  have queued := ((second.steps 40).ask (.drop 0) rfl).steps 40
  have run := ((queued.ask (.advance 30000) rfl).steps 5).ask (.poll 1) rfl
  have late := ((run.steps 4).step.ask (.run none) rfl).steps 40
  obtain ⟨_, n, _, _, _, set, _, _, unsent⟩ := run.timed_polls.2.2.2 1 _ _ _ rfl rfl
  obtain ⟨configured, fits, time⟩ := deadline_eq_some_iff.1 set.symm
  obtain ⟨v, l, q, trace, quiet, forsakes, further⟩ :=
    (unsent fun o sent => nomatch (show Option.none = some o from sent.1)).1 (.ofSeconds 30)
      ⟨rfl, fits, time ▸ Nat.le_refl 30000⟩
  have regroup {k w past : List (Machine Bench.Rig)} {x m : Machine Bench.Rig}
      (run : Run Bench.environment (w ++ x :: (k ++ past)) m) (parts : k = v :: l) :
      Run Bench.environment ((w ++ [x]) ++ v :: (l ++ past)) m := by
    subst parts
    simpa using run
  -- The request gives up in four steps.
  obtain ⟨reached, trail⟩ := quiet.busy.steps
  have stack := congrArg Machine.stack reached
  obtain _ | ⟨a, _ | ⟨b, _ | ⟨c, _ | ⟨d, l⟩⟩⟩⟩ := l
  · cases stack
  · cases stack
  · cases stack
  · exact ⟨_, _, _, _, _, _, q, trace, run, rfl, rfl, rfl, quiet, forsakes, regroup late trail, rfl,
      rfl, further _ _ (regroup late trail)⟩
  · cases l <;> cases stack

end Run
end ResourcePool
