import ResourcePool.Proofs.Potential
import ResourcePool.Proofs.Strokes

/-!
Strokes of a matching in calm surroundings: they name no operations, find a resource valid or not
once and for all, and make resources again after some failures. Then each stroke is a few steps of
the machine, all the while with something above what was there, and changes what it should and
nothing else.
-/

namespace ResourcePool

namespace Environment

variable {σ : Type}

/-- Since then as many calls for a new resource were answered, and the same resources are valid. -/
structure After (e : Environment σ) (P : σ → Prop) (failing : σ → Nat) (asked : Nat) (s s' : σ) :
    Prop where
  holds : P s'
  valid : ∀ r, (e.validate r s').1 = (e.validate r s).1
  failing : failing s' = failing s - asked

/-- In these states, and in those they get into, the surroundings name no operations and do not
change their mind about resources. So many calls for a new resource will fail, and no later one. -/
structure Steady (e : Environment σ) (P : σ → Prop) (failing : σ → Nat) : Prop where
  names : ∀ c s, P s → (e.enter c s).1 = []
  enter : ∀ c s, P s → e.After P failing 0 s (e.enter c s).2
  validate : ∀ r s, P s → e.After P failing 0 s (e.validate r s).2
  close : ∀ r s, P s → e.After P failing 0 s (e.close r s).2
  create : ∀ n s, P s → e.After P failing 1 s (e.create n s).2
  fails : ∀ n s, P s → ((e.create n s).1 = none ↔ failing s = 0)

variable {e : Environment σ} {P : σ → Prop} {failing : σ → Nat}

theorem After.refl {s : σ} (holds : P s) : e.After P failing 0 s s :=
  ⟨holds, fun _ => rfl, rfl⟩

theorem After.trans {j k : Nat} {s t u : σ} (first : e.After P failing j s t)
    (second : e.After P failing k t u) : e.After P failing (k + j) s u where
  holds := second.holds
  valid r := (second.valid r).trans (first.valid r)
  failing := by rw [second.failing, first.failing, Nat.sub_sub, Nat.add_comm]

end Environment

namespace Machine

variable {σ : Type} {e : Environment σ} {P : σ → Prop} {failing : σ → Nat} {below : List Activity}
variable {m n m' : Machine σ} {l k : List (Machine σ)} {ts us : List Task}

/-- Step by step `m` becomes `m'`, and all the while something stands above the rest. These are the
machines on the way, the latest first. -/
inductive Busy (e : Environment σ) (below : List Activity) :
    Machine σ → List (Machine σ) → Machine σ → Prop
  | refl {m : Machine σ} : Busy e below m [] m
  | cons {m m' : Machine σ} {a : Activity} {above : List Activity} {l : List (Machine σ)}
      (stack : m.stack = a :: (above ++ below)) (rest : Busy e below (m.step e) l m') :
      Busy e below m (l ++ [m]) m'

namespace Busy

theorem trans (first : Busy e below m l n) (second : Busy e below n k m') :
    Busy e below m (k ++ l) m' := by
  induction first with
  | refl => rwa [List.append_nil]
  | cons stack _ ih => exact List.append_assoc k _ _ ▸ .cons stack (ih second)

theorem one {a : Activity} {above : List Activity} (stack : m.stack = a :: (above ++ below)) :
    Busy e below m [m] (m.step e) :=
  .cons stack .refl

theorem within (busy : Busy e below m l m') : Busy e [] m l m' := by
  induction busy with
  | refl => exact .refl
  | @cons m _ a above _ stack _ ih =>
      have same : m.stack = a :: ((above ++ below) ++ []) := by rw [stack, List.append_nil]
      exact .cons same ih

theorem steps (busy : Busy e below m l m') :
    m.steps e l.length = m' ∧ m.trail e l.length = l := by
  induction busy with
  | refl => exact ⟨rfl, rfl⟩
  | @cons m m' a above l stack _ ih =>
      have working : m.stack.isEmpty = false := by rw [stack]; rfl
      rw [List.length_append, List.length_singleton]
      simp [Machine.steps, trail, working, ih]

theorem above (busy : Busy e below m l m') :
    ∀ v ∈ l, ∃ a as, v.stack = a :: (as ++ below) := by
  induction busy with
  | refl => simp
  | cons stack _ ih =>
      intro v member
      obtain later | first := List.mem_append.1 member
      · exact ih v later
      · obtain rfl := List.mem_singleton.1 first
        exact ⟨_, _, stack⟩

end Busy

/-- The next step asks the factory for a resource. -/
def creates (m : Machine σ) : Bool :=
  match m.stack with
  | .call (.create ..) :: _ => true
  | _ => false

/-- What callers hold, the kind of scheduler and the other thread are as they were. -/
structure Apart (m m' : Machine σ) : Prop where
  scheduler : m'.scheduler = m.scheduler
  handles : m'.handles = m.handles
  background : m'.background = m.background
  paused : m'.paused = m.paused

theorem announce_eq {c : Call} (names : (e.enter c.moment m.env).1 = []) :
    m.announce e c = { m with
      env := (e.enter c.moment m.env).2
      trace := .called c.moment :: m.trace
      stack := .answer c :: m.stack } := by
  simp only [announce, names, nested, List.flatMap_nil, List.nil_append, push, note]
  rfl

theorem step_call (steady : e.Steady P failing) (holds : P m.env) {c : Call}
    {rest : List Activity} (top : m.stack = .call c :: rest) :
    ∃ env counts trace, m.step e = { m with env, counts, trace, stack := .answer c :: rest } ∧
      e.After P failing 0 m.env env := by
  have names := steady.names c.moment m.env holds
  have entered := steady.enter c.moment m.env holds
  rw [step, top]
  simp only [exec, Machine.call]
  split
  · split
    · exact ⟨_, _, _, announce_eq names, entered⟩
    · exact ⟨_, _, _, rfl, .refl holds⟩
  · exact ⟨_, _, _, announce_eq names, entered⟩

/-- On the way from `m` to `m'` these deliveries were queued, and so many calls for a new resource
were answered. -/
structure Works (e : Environment σ) (P : σ → Prop) (failing : σ → Nat) (below : List Activity)
    (m : Machine σ) (l : List (Machine σ)) (ts : List Task) (asked : Nat) (m' : Machine σ) : Prop
    extends Apart m m' where
  busy : Busy e below m l m'
  env : e.After P failing asked m.env m'.env
  tasks : m'.tasks = m.tasks ++ ts
  made : m'.made = m.made + (history e l).creations.length

namespace Works

variable {i j : Nat}

theorem refl (holds : P m.env) : Works e P failing below m [] [] 0 m :=
  ⟨⟨rfl, rfl, rfl, rfl⟩, .refl, .refl holds, (List.append_nil _).symm, rfl⟩

theorem trans (first : Works e P failing below m l ts i n)
    (second : Works e P failing below n k us j m') :
    Works e P failing below m (k ++ l) (ts ++ us) (j + i) m' where
  busy := first.busy.trans second.busy
  env := first.env.trans second.env
  tasks := by rw [second.tasks, first.tasks, List.append_assoc]
  made := by
    rw [second.made, first.made, history_append, History.creations_append, List.length_append,
      Nat.add_assoc, Nat.add_comm (List.length _)]
  scheduler := second.scheduler.trans first.scheduler
  handles := second.handles.trans first.handles
  background := second.background.trans first.background
  paused := second.paused.trans first.paused

variable {a : Activity} (above : List Activity)

theorem one (top : m.stack = a :: (above ++ below)) (next : m.step e = n) (apart : m.Apart n)
    (env : e.After P failing i m.env n.env) (tasks : n.tasks = m.tasks ++ ts)
    (made : n.made = m.made + (History.creations (m.deeds e)).length) :
    Works e P failing below m [m] ts i n := by
  subst next
  exact ⟨apart, .one top, env, tasks, by simpa using made⟩

/-- A step that makes nothing and queues nothing. -/
theorem plain (top : m.stack = a :: (above ++ below)) (next : m.step e = n) (apart : m.Apart n)
    (env : e.After P failing i m.env n.env) (tasks : n.tasks = m.tasks) (made : n.made = m.made)
    (none : History.creations (m.deeds e) = []) : Works e P failing below m [m] [] i n :=
  .one above top next apart env (tasks.trans (List.append_nil _).symm) (by rw [made, none]; rfl)

/-- A call begins, and its answer is waited for. -/
theorem call (steady : e.Steady P failing) (holds : P m.env) {c : Call}
    (top : m.stack = .call c :: (above ++ below)) :
    ∃ n, Works e P failing below m [m] [] 0 n ∧ n.stack = .answer c :: (above ++ below) ∧
      n.pool = m.pool := by
  obtain ⟨env, counts, trace, next, after⟩ := step_call steady holds top
  refine ⟨_, .plain above top next ⟨rfl, rfl, rfl, rfl⟩ after rfl rfl ?_, rfl, rfl⟩
  simp only [deeds, top]
  cases c <;> rfl

/-- A step leads to a call, which begins. -/
theorem enter (steady : e.Steady P failing) (top : m.stack = a :: (above ++ below))
    (still : History.creations (m.deeds e) = []) {q : Pool} {env : σ} {trace : List Event}
    {c : Call} (next : m.step e = { m with
      pool := q
      env
      trace
      stack := .call c :: (above ++ below) })
    (after : e.After P failing 0 m.env env) :
    ∃ v n, Works e P failing below m [v, m] [] 0 n ∧ v.stack = .call c :: (above ++ below) ∧
      n.stack = .answer c :: (above ++ below) ∧ n.pool = q := by
  have first : Works e P failing below m [m] [] 0 _ :=
    .plain above top next ⟨rfl, rfl, rfl, rfl⟩ after rfl rfl still
  obtain ⟨n, second, answers, pool⟩ := call (m := { m with
    pool := q
    env
    trace
    stack := .call c :: (above ++ below) }) (c := c) above steady after.holds rfl
  exact ⟨_, n, first.trans second, rfl, answers, pool⟩

/-- A delivery is given to the scheduler, which queues it. -/
theorem entrust (steady : e.Steady P failing) (holds : P m.env)
    (queues : m.scheduler.dispatcher ≠ .inline) {t : Task}
    (top : m.stack = .call (.schedule t) :: (above ++ below)) :
    ∃ n m', Works e P failing below m [n, m] [t] 0 m' ∧ m'.stack = above ++ below ∧
      m'.pool = m.pool ∧ history e [n, m] = [.fate t.waiter (.entrusted t.item)] ∧
      [n, m].countP creates = 0 := by
  obtain ⟨n, calls, answers, pool⟩ := call above steady holds top
  have scheduled : n.step e = { n with stack := above ++ below, tasks := n.tasks ++ [t] } := by
    rw [Machine.step, answers]
    exact if_neg (calls.scheduler ▸ queues)
  have queued : Works e P failing below n [n] [t] 0 _ :=
    .one above answers scheduled ⟨rfl, rfl, rfl, rfl⟩ (.refl calls.env.holds) rfl (by
      simp only [deeds, answers]
      rfl)
  refine ⟨n, _, calls.trans queued, rfl, pool, ?_, ?_⟩
  · simp [deeds, answers, top, deedsOf]
  · simp [creates, answers, top]

end Works

/-- On the way from `m` to `m'` a stroke is prepared: nothing is done yet, and so many calls for a
new resource begin. -/
structure Nears (e : Environment σ) (P : σ → Prop) (failing : σ → Nat) (below : List Activity)
    (m : Machine σ) (l : List (Machine σ)) (asked : Nat) (m' : Machine σ) : Prop
    extends Works e P failing below m l [] 0 m' where
  quiet : history e l = []
  calls : l.countP creates = asked

/-- On the way from `m` to `m'` a matching made these strokes. -/
structure Strikes (e : Environment σ) (P : σ → Prop) (failing : σ → Nat) (below : List Activity)
    (m : Machine σ) (l : List (Machine σ)) (ds : List Stroke) (m' : Machine σ) : Prop where
  works : ∃ ts, ts.map (fun t => (t.waiter, t.item)) = ds.filterMap Stroke.delivery? ∧
    Works e P failing below m l ts (ds.countP Stroke.asks) m'
  history : history e l = ds.reverse.flatMap Stroke.deeds
  creates : l.countP creates = ds.countP Stroke.asks
  assigns : m.pool.Assigns ds m'.pool
  provides : m.pool.Provides ds m'.pool
  config : m'.pool.config = m.pool.config
  closed : m'.pool.closed = m.pool.closed
  fresh : (ds.filterMap Stroke.filled?).map (fun i => i.resource.id) =
    List.range' m.made (ds.filterMap Stroke.filled?).length

/-- A matching looks for something to hand out, with the line before it as it is. -/
inductive Seeks (below : List Activity) (m : Machine σ) : Prop
  | round (stack : m.stack = .round 1 none :: below)
  | search (stack : m.stack = .search 1 m.pool.registry.entries :: below)
      (line : m.pool.registry.entries ≠ [])

/-- The pool is open and in good order, nothing is held back and deliveries are queued. -/
structure Calm (P : σ → Prop) (m : Machine σ) : Prop where
  holds : P m.env
  queues : m.scheduler.dispatcher ≠ .inline
  awake : m.background.holdsBack = false
  opened : m.pool.closed = false
  lined : m.pool.Lined
  stocked : m.pool.Stocked

/-- The only matching is about to make a stroke. -/
structure Ready (P : σ → Prop) (below : List Activity) (m : Machine σ) : Prop
    extends Calm P m where
  single : m.pool.triggers = 1
  seeks : m.Seeks below

theorem Stroke.length_creations (ds : List Stroke) :
    (History.creations (ds.reverse.flatMap Stroke.deeds)).length =
      (ds.filterMap Stroke.filled?).length := by
  induction ds with
  | nil => rfl
  | cons d ds ih =>
      rw [List.reverse_cons, List.flatMap_append, History.creations_append, List.length_append, ih,
        filterMap_cons_toList, List.length_append, Nat.add_comm]
      cases d <;> rfl

namespace Strikes

variable {ds fs : List Stroke}

theorem refl (holds : P m.env) : Strikes e P failing below m [] [] m where
  works := ⟨[], rfl, .refl holds⟩
  history := rfl
  creates := rfl
  assigns := (Pool.SameLine.refl _).assigns (by simp)
  provides := (Pool.SameStock.refl _).provides
  config := rfl
  closed := rfl
  fresh := rfl

theorem made (strikes : Strikes e P failing below m l ds m') :
    m'.made = m.made + (ds.filterMap Stroke.filled?).length := by
  obtain ⟨ts, _, works⟩ := strikes.works
  rw [works.made, strikes.history, Stroke.length_creations]

theorem trans (lined : m.pool.Lined) (first : Strikes e P failing below m l ds n)
    (second : Strikes e P failing below n k fs m') :
    Strikes e P failing below m (k ++ l) (ds ++ fs) m' where
  works := by
    obtain ⟨ts, early, works⟩ := first.works
    obtain ⟨us, late, works'⟩ := second.works
    refine ⟨ts ++ us, by rw [List.map_append, early, late, List.filterMap_append], ?_⟩
    rw [List.countP_append, Nat.add_comm]
    exact works.trans works'
  history := by
    rw [history_append, first.history, second.history, List.reverse_append, List.flatMap_append]
  creates := by
    rw [List.countP_append, first.creates, second.creates, List.countP_append, Nat.add_comm]
  assigns := first.assigns.trans lined second.assigns
  provides := first.provides.trans second.provides
  config := second.config.trans first.config
  closed := second.closed.trans first.closed
  fresh := by
    rw [List.filterMap_append, List.map_append, first.fresh, second.fresh, first.made,
      List.length_append, List.range'_append_1]

theorem calm (strikes : Strikes e P failing below m l ds m') (calm : Calm P m)
    (stocked : m'.pool.Stocked) : Calm P m' := by
  obtain ⟨ts, _, works⟩ := strikes.works
  exact ⟨works.env.holds, works.scheduler ▸ calm.queues, works.background ▸ calm.awake,
    strikes.closed.trans calm.opened, strikes.assigns.lined calm.lined, stocked⟩

/-- After these strokes the matching goes on. -/
theorem ready (strikes : Strikes e P failing below m l ds m') (ready : Ready P below m)
    (triggers : m'.pool.triggers = m.pool.triggers) (stocked : m'.pool.Stocked)
    (seeks : m'.Seeks below) : Ready P below m' :=
  ⟨strikes.calm ready.toCalm stocked, triggers.trans ready.single, seeks⟩

end Strikes

/-- What is idle is lent, and its delivery is to be scheduled. -/
theorem lend_eq {i : Item} (idle : m.pool.Has i.slot .idle) (w : Nat) :
    m.lend w i = { m with
      pool := m.pool.modifySlot i.slot fun _ => Passage.deliver.pass (m.pool.slot i.slot)
      trace := .log (.dispatching i.slot w) :: m.trace
      stack := .call (.schedule ⟨m.counts.scheduled, w, i, m.currentThread⟩) :: m.stack } := by
  have lent : m.pool.lend? i.slot =
      some (m.pool.modifySlot i.slot fun _ => Passage.deliver.pass (m.pool.slot i.slot)) := by
    simp only [Pool.lend?, Slot.checkout?, Slot.transition?, idle.2, if_true]
    rfl
  rw [lend, lent]
  rfl

/-- What is idle goes to whoever is next in line. -/
theorem handOut_eq {w : Nat} {x : Waiter Outcome} {i : Item} (next : m.pool.Next w x)
    (idle : m.pool.Has i.slot .idle) (answered : Nat) :
    m.handOut answered m.pool.registry.entries i = { m with
      pool := m.pool.hand w x i.slot
      trace := .log (.dispatching i.slot w) :: m.trace
      stack := .call (.schedule ⟨m.counts.scheduled, w, i, m.currentThread⟩) ::
        .round answered none :: m.stack } := by
  rw [handOut, next.pick]
  exact lend_eq (m := (m.withPool (m.pool.serve w x)).push [.round answered none]) idle w

/-- A new resource fills the slot that was reserved, and is lent. -/
theorem created_eq {w : Nat} {r : Reservation} (made : (e.create r.slot m.env).1 = none)
    (vacant : m.pool.Has r.slot .uninitialized) (answered : Nat) :
    ∃ trace, m.created e answered w r = { m with
      pool := (m.pool.occupy r).modifySlot r.slot fun _ =>
        Passage.deliver.pass ((m.pool.occupy r).slot r.slot)
      env := (e.create r.slot m.env).2
      made := m.made + 1
      trace
      stack := .call (.schedule ⟨m.counts.scheduled, w, ⟨r.slot, ⟨m.made, r.slot, []⟩⟩,
        m.currentThread⟩) :: .round answered none :: m.stack } := by
  have idle : (m.pool.occupy r).Has r.slot .idle := vacant.modify (m.pool.slots_occupy r)
  unfold created
  split
  · next env answer =>
      obtain rfl : env = (e.create r.slot m.env).2 := by rw [answer]
      exact ⟨_, lend_eq idle w⟩
  · next cause env answer =>
      rw [answer] at made
      cases made

/-- The slot that was reserved stays free, and the waiter is told why. -/
theorem refused_eq {w : Nat} {r : Reservation} {cause : Failure}
    (refused : (e.create r.slot m.env).1 = some cause) (answered : Nat) :
    ∃ trace, m.created e answered w r = { m with
      pool := ((m.pool.unreserve r).complete w (.error (.creationFailed r.slot cause))).2
      env := (e.create r.slot m.env).2
      trace
      stack := .round answered none :: m.stack } := by
  unfold created
  split
  · next env answer =>
      rw [answer] at refused
      cases refused
  · next failure env answer =>
      obtain rfl : failure = cause := by simpa [answer] using refused
      obtain rfl : env = (e.create r.slot m.env).2 := by rw [answer]
      exact ⟨_, rfl⟩

namespace Ready

variable {q : Pool} {i : Item}

/-- With somebody in line, something to hand out is looked for. -/
theorem step_eq (ready : Ready P below m) (line : m.pool.registry.entries ≠ []) :
    ∃ a, m.stack = a :: below ∧ m.deeds e = [] ∧ m.creates = false ∧ m.step e =
      ({ m with stack := below } : Machine σ).seek 1 m.pool.registry.entries := by
  obtain stack | ⟨stack, _⟩ := ready.seeks
  · refine ⟨_, stack, by rw [deeds, stack]; rfl, by rw [creates, stack], ?_⟩
    rw [step, stack]
    exact round_none (m := { m with stack := below }) ready.opened line 1
  · refine ⟨_, stack, by rw [deeds, stack]; rfl, by rw [creates, stack], ?_⟩
    rw [step, stack]
    rfl

/-- What came back and need not be looked at any more goes to whoever is next. -/
theorem offer (steady : e.Steady P failing) (ready : Ready P below m)
    (line : m.pool.registry.entries ≠ []) (popped : m.pool.popReturned? = some (i, q))
    {u : Machine σ} (nears : Nears e P failing below m l 0 u) {a : Activity}
    (top : u.stack = a :: below) (still : u.deeds e = []) (idle : u.creates = false) {env : σ}
    (trace : List Event) (after : e.After P failing 0 u.env env)
    (offers : u.step e = ({ u with stack := below, pool := q, env, trace } : Machine σ).handOut 1
      m.pool.registry.entries i) :
    ∃ l w m', Strikes e P failing below m l [.lend w i] m' ∧ Ready P below m' := by
  have same := Pool.popReturned?_sameLine popped
  rw [← same.registry] at line offers
  obtain ⟨w, x, next⟩ := (ready.lined.frame same).exists_next line
  have has : q.Has i.slot .idle := ready.stocked.has_of_pop popped
  have handed : Works e P failing below u [u] [] 0 _ :=
    .plain [] top (offers.trans (handOut_eq (m := { u with
      stack := below, pool := q, env, trace }) next has 1))
      ⟨rfl, rfl, rfl, rfl⟩ after rfl rfl (by rw [still]; rfl)
  obtain ⟨v, m', entrusted, stack, pool, told, asked⟩ :=
    Works.entrust [.round 1 none] steady handed.env.holds
      (nears.scheduler ▸ ready.queues) rfl
  have pool : m'.pool = q.hand w x i.slot := pool
  obtain ⟨provides, stocked⟩ := ready.stocked.hand popped w x
  have strikes : Strikes e P failing below m ([v, _] ++ ([u] ++ l)) [.lend w i] m' := {
    works := ⟨_, rfl, (nears.toWorks.trans handed).trans entrusted⟩
    history := by
      rw [history_append, told, history_append, nears.quiet]
      simp [still]
    creates := by
      rw [List.countP_append, asked, List.countP_append, nears.calls]
      simp [idle]
    assigns := pool ▸ (next.hand i).frame same (.refl _)
    provides := pool ▸ provides
    config := pool ▸ same.config
    closed := pool ▸ same.closed
    fresh := rfl }
  exact ⟨_, w, m', strikes, strikes.ready ready (pool ▸ same.triggers) (pool ▸ stocked)
    (.round stack)⟩

/-- With checks before lending, the front of the queue is looked at. -/
theorem look (steady : e.Steady P failing) (ready : Ready P below m)
    (line : m.pool.registry.entries ≠ []) (popped : m.pool.popReturned? = some (i, q))
    (tested : m.pool.config.testOnCheckout = true) :
    ∃ l u, Nears e P failing below m l 0 u ∧
      u.stack = .answer (.validate i (.checkout 1 m.pool.registry.entries)) :: below ∧
      u.pool = q := by
  obtain ⟨a, top, still, idle, seeks⟩ := ready.step_eq (e := e) line
  have looks : m.step e = { m with
      pool := q
      stack := .call (.validate i (.checkout 1 m.pool.registry.entries)) :: below } := by
    rw [seeks, seek, popped]
    exact if_pos ((congrArg _ (Pool.popReturned?_sameLine popped).config).trans tested)
  obtain ⟨v, u, works, calls, answers, pool⟩ :=
    Works.enter [] steady top (by rw [still]; rfl) looks (.refl ready.holds)
  refine ⟨_, u, ⟨works, ?_, ?_⟩, answers, pool⟩
  · rw [history_cons, history_cons, still, deeds, calls]
    rfl
  · rw [List.countP_cons, List.countP_singleton, idle, creates, calls]
    rfl

/-- The front of the queue, unless it is found invalid, goes to whoever is next. -/
theorem lend (steady : e.Steady P failing) (ready : Ready P below m)
    (line : m.pool.registry.entries ≠ []) (popped : m.pool.popReturned? = some (i, q))
    (accepted : m.pool.config.testOnCheckout = true → (e.validate i.resource m.env).1 = true) :
    ∃ l w m', Strikes e P failing below m l [.lend w i] m' ∧ Ready P below m' := by
  have config := (Pool.popReturned?_sameLine popped).config
  cases tested : m.pool.config.testOnCheckout with
  | false =>
      obtain ⟨a, top, still, idle, seeks⟩ := ready.step_eq (e := e) line
      refine ready.offer steady line popped ⟨.refl ready.holds, rfl, rfl⟩ top still idle m.trace
        (.refl ready.holds) (seeks.trans ?_)
      rw [seek, popped]
      exact if_neg (by rw [config, tested]; exact Bool.false_ne_true)
  | true =>
      obtain ⟨l, u, nears, top, pool⟩ := ready.look steady line popped tested
      have valid : (e.validate i.resource u.env).1 = true :=
        (nears.env.valid i.resource).trans (accepted tested)
      refine ready.offer steady line popped nears top ?_ ?_ (.valid true :: u.trace)
        (steady.validate i.resource u.env nears.env.holds) ?_
      · rw [deeds, top]
        rfl
      · rw [creates, top]
      · rw [step, top, ← pool]
        simp only [exec, Machine.answered, validated, valid]
        rfl

/-- The front of the queue is found invalid and closed. -/
theorem retire (steady : e.Steady P failing) (ready : Ready P below m)
    (line : m.pool.registry.entries ≠ []) (popped : m.pool.popReturned? = some (i, q))
    (tested : m.pool.config.testOnCheckout = true)
    (rejected : (e.validate i.resource m.env).1 = false) :
    ∃ l m', Strikes e P failing below m l [.retire i] m' ∧ Ready P below m' := by
  obtain ⟨l, u, nears, top, pool⟩ := ready.look steady line popped tested
  have invalid : (e.validate i.resource u.env).1 = false :=
    (nears.env.valid i.resource).trans rejected
  have discards : ∃ trace, u.step e = { u with
      env := (e.validate i.resource u.env).2
      trace
      stack := .call (.close i (.invalid (.checkout 1 m.pool.registry.entries))) :: below } := by
    rw [step, top]
    simp only [exec, Machine.answered, validated, invalid]
    exact ⟨_, rfl⟩
  obtain ⟨trace, discards⟩ := discards
  obtain ⟨c, v, discarded, calls, answers, kept⟩ :=
    Works.enter [] steady top (by rw [deeds, top]; rfl) discards
      (steady.validate i.resource u.env nears.env.holds)
  have closes : ∃ trace, v.step e = { v with
      env := (e.close i.resource v.env).2
      trace
      pool := v.pool.vacate i.slot
      stack := .search 1 m.pool.registry.entries :: below } := by
    rw [step, answers]
    simp only [exec, Machine.answered, closed, noteFailure]
    cases (e.close i.resource v.env).1 <;> exact ⟨_, rfl⟩
  obtain ⟨trace, closes⟩ := closes
  rw [kept, pool] at closes
  have closed : Works e P failing below v [v] [] 0 _ :=
    .plain [] answers closes ⟨rfl, rfl, rfl, rfl⟩
      (steady.close i.resource v.env discarded.env.holds) rfl rfl (by rw [deeds, answers]; rfl)
  have popped' := Pool.popReturned?_sameLine popped
  have same : m.pool.SameLine (q.vacate i.slot) :=
    ⟨popped'.config, popped'.waiters, popped'.registry, popped'.triggers, popped'.cursor,
      popped'.closed⟩
  obtain ⟨provides, stocked⟩ := ready.stocked.vacate popped
  have strikes : Strikes e P failing below m ([v] ++ ([c, u] ++ l)) [.retire i] _ := {
    works := ⟨_, rfl, (nears.toWorks.trans discarded).trans closed⟩
    history := by
      rw [history_append, history_append, nears.quiet]
      simp [deeds, deedsOf, top, calls, answers]
    creates := by
      rw [List.countP_append, List.countP_append, nears.calls]
      simp [creates, top, calls, answers]
    assigns := same.assigns (by simp)
    provides := provides
    config := same.config
    closed := same.closed
    fresh := rfl }
  refine ⟨_, _, strikes, strikes.ready ready same.triggers stocked (.search ?_ ?_)⟩
  · exact congrArg (fun r => .search 1 r.entries :: below) same.registry.symm
  · rwa [same.registry]

/-- With nothing in the queue, a slot is reserved and a resource asked for on behalf of whoever is
next. -/
theorem ask (steady : e.Steady P failing) (ready : Ready P below m)
    (line : m.pool.registry.entries ≠ []) (empty : m.pool.returned = [])
    {r : Reservation} (reserved : m.pool.reserve? = some (r, q)) :
    ∃ l u w x, q.Next w x ∧ Nears e P failing below m l 1 u ∧
      u.stack = .answer (.create 1 w r) :: below ∧ u.pool = q.serve w x ∧
      u.step e = ({ u with stack := below } : Machine σ).created e 1 w r := by
  have same := Pool.reserve?_sameLine reserved
  obtain ⟨w, x, next⟩ := (ready.lined.frame same).exists_next (same.registry ▸ line)
  obtain ⟨a, top, still, idle, seeks⟩ := ready.step_eq (e := e) line
  have fills : m.step e = { m with
      pool := q.serve w x
      stack := .call (.create 1 w r) :: below } := by
    rw [seeks, seek, Pool.popReturned?, empty]
    dsimp only
    rw [reserved]
    dsimp only
    rw [Machine.fill, ← same.registry]
    simp only [withPool, next.pick]
    rfl
  obtain ⟨v, u, works, calls, answers, pool⟩ :=
    Works.enter [] steady top (by rw [still]; rfl) fills (.refl ready.holds)
  refine ⟨_, u, w, x, next, ⟨works, ?_, ?_⟩, answers, pool, ?_⟩
  · rw [history_cons, history_cons, still, deeds, calls]
    rfl
  · rw [List.countP_cons, List.countP_singleton, idle, creates, calls]
    rfl
  · rw [step, answers]
    exact if_neg (by rw [works.background, ready.awake]; exact Bool.false_ne_true)

/-- A new resource goes to whoever is next. -/
theorem fill (steady : e.Steady P failing) (ready : Ready P below m)
    (line : m.pool.registry.entries ≠ []) (empty : m.pool.returned = []) (free : m.pool.free ≠ [])
    (willing : failing m.env = 0) :
    ∃ l w i m', Strikes e P failing below m l [.fill w i] m' ∧ Ready P below m' := by
  obtain ⟨r, q, reserved⟩ := Pool.exists_reserve free
  obtain ⟨l, u, w, x, next, nears, top, pool, answers⟩ := ready.ask steady line empty reserved
  have made : (e.create r.slot u.env).1 = none := by
    rw [steady.fails r.slot u.env nears.env.holds, nears.env.failing, willing]
  have vacant : u.pool.Has r.slot .uninitialized := by
    rw [pool]
    exact (ready.stocked.has_of_reserve reserved).frame rfl
  obtain ⟨trace, created⟩ := created_eq (m := { u with stack := below }) (w := w) made vacant 1
  have deeds : u.deeds e = [.created u.made r.slot] := by
    rw [Machine.deeds, top]
    simp [deedsOf, deedsOfCreation, nears.background, ready.awake, made]
  have filled : Works e P failing below u [u] [] 1 _ :=
    .one [] top (answers.trans created) ⟨rfl, rfl, rfl, rfl⟩
      (steady.create r.slot u.env nears.env.holds) (List.append_nil _).symm (by rw [deeds]; rfl)
  obtain ⟨v, m', entrusted, stack, pool', told, unasked⟩ :=
    Works.entrust [.round 1 none] steady filled.env.holds
      (nears.scheduler ▸ ready.queues) rfl
  have pool' : m'.pool = q.furnish w x r := by
    rw [pool', pool]
    rfl
  have number : u.made = m.made := by rw [nears.made, nears.quiet]; rfl
  have same := Pool.reserve?_sameLine reserved
  have line' : m'.pool.config = q.config ∧ m'.pool.closed = q.closed ∧
      m'.pool.triggers = q.triggers := by
    rw [pool']
    cases r <;> exact ⟨rfl, rfl, rfl⟩
  obtain ⟨provides, stocked⟩ := ready.stocked.furnish reserved w x ⟨u.made, r.slot, []⟩
  have strikes : Strikes e P failing below m ([v, _] ++ ([u] ++ l))
      [.fill w ⟨r.slot, ⟨u.made, r.slot, []⟩⟩] m' := {
    works := ⟨_, rfl, (nears.toWorks.trans filled).trans entrusted⟩
    history := by
      rw [history_append, told, history_append, nears.quiet]
      simp [deeds]
    creates := by
      rw [List.countP_append, unasked, List.countP_append, nears.calls]
      simp [creates, top]
    assigns := pool' ▸ (next.furnish r _).frame same (.refl _)
    provides := pool' ▸ provides
    config := line'.1.trans same.config
    closed := line'.2.1.trans same.closed
    fresh := by simp [number] }
  exact ⟨_, w, _, m', strikes, strikes.ready ready (line'.2.2.trans same.triggers)
    (pool' ▸ stocked) (.round stack)⟩

/-- A call for a new resource fails, and whoever is next is told so. -/
theorem fail (steady : e.Steady P failing) (ready : Ready P below m)
    (line : m.pool.registry.entries ≠ []) (empty : m.pool.returned = []) (free : m.pool.free ≠ [])
    (refused : 0 < failing m.env) :
    ∃ l w s cause m', Strikes e P failing below m l [.fail w s cause] m' ∧ Ready P below m' := by
  obtain ⟨r, q, reserved⟩ := Pool.exists_reserve free
  obtain ⟨l, u, w, x, next, nears, top, pool, answers⟩ := ready.ask steady line empty reserved
  have refuses : (e.create r.slot u.env).1 ≠ none := by
    rw [Ne, steady.fails r.slot u.env nears.env.holds, nears.env.failing]
    omega
  obtain ⟨cause, answer⟩ := Option.ne_none_iff_exists'.1 refuses
  obtain ⟨trace, tells⟩ := refused_eq (m := { u with stack := below }) (w := w) answer 1
  have deeds : u.deeds e = [.fate w (.creationFailed r.slot cause)] := by
    rw [Machine.deeds, top]
    simp [deedsOf, deedsOfCreation, nears.background, ready.awake, answer]
  have excuses : u.step e = { u with
      pool := q.excuse w x r cause
      env := (e.create r.slot u.env).2
      trace
      stack := .round 1 none :: below } := by
    rw [answers, tells, pool]
    rfl
  have failed : Works e P failing below u [u] [] 1 _ :=
    .plain [] top excuses ⟨rfl, rfl, rfl, rfl⟩
      (steady.create r.slot u.env nears.env.holds) rfl rfl (by rw [deeds]; rfl)
  have same := Pool.reserve?_sameLine reserved
  have kept : (q.excuse w x r cause).config = q.config ∧
      (q.excuse w x r cause).closed = q.closed ∧
      (q.excuse w x r cause).triggers = q.triggers := by
    have same := ((q.serve w x).unreserve r).complete_sameStock w
      (.error (.creationFailed r.slot cause))
    refine ⟨same.config.trans ?_, same.closed.trans ?_, same.triggers.trans ?_⟩ <;> cases r <;> rfl
  obtain ⟨provides, stocked⟩ := ready.stocked.excuse reserved w x cause
  have strikes : Strikes e P failing below m ([u] ++ l) [.fail w r.slot cause] _ := {
    works := ⟨_, rfl, nears.toWorks.trans failed⟩
    history := by
      rw [history_append, nears.quiet]
      simp [deeds]
    creates := by
      rw [List.countP_append, nears.calls]
      simp [creates, top]
    assigns := (next.excuse r cause).frame same (.refl _)
    provides := provides
    config := kept.1.trans same.config
    closed := kept.2.1.trans same.closed
    fresh := rfl }
  exact ⟨_, w, r.slot, cause, _, strikes, strikes.ready ready (kept.2.2.trans same.triggers)
    stocked (.round rfl)⟩

end Ready

end Machine
end ResourcePool
