import ResourcePool.Proofs.Working

/-!
What one drain does, in calm surroundings. It hands out what came back, in order, and closes what is
invalid on the way. When the queue is empty it asks for new resources: first come the calls that
fail, one waiter each, and then resources are made until everybody is served or no slot is free.
-/

namespace ResourcePool

section

variable {α : Type} {test : α → Bool}

/-- The front of a list up to the `n`-th element that passes, or all of it. -/
def upTo (test : α → Bool) : Nat → List α → List α
  | _, [] | 0, _ => []
  | n + 1, a :: l => a :: upTo test (if test a then n else n + 1) l

@[simp] theorem upTo_nil (n : Nat) : upTo test n [] = [] := by
  cases n <;> rfl

@[simp] theorem upTo_zero (l : List α) : upTo test 0 l = [] := by
  cases l <;> rfl

theorem filter_upTo (n : Nat) (l : List α) :
    (upTo test n l).filter test = (l.filter test).take n := by
  induction l generalizing n with
  | nil => simp
  | cons a l ih =>
      cases n with
      | zero => simp
      | succ n => by_cases passes : test a <;> simp [upTo, passes, ih]

/-- With too few elements that pass, the whole list is in front. -/
theorem upTo_of_lt {n : Nat} {l : List α} (few : l.countP test < n) : upTo test n l = l := by
  induction l generalizing n with
  | nil => simp
  | cons a l ih =>
      cases n with
      | zero => omega
      | succ n =>
          have fewer : l.countP test < if test a then n else n + 1 := by
            rw [List.countP_cons] at few
            by_cases passes : test a = true
            · rw [if_pos passes] at few ⊢
              omega
            · rw [if_neg passes] at few ⊢
              omega
          rw [upTo, ih fewer]

/-- Else the front ends with an element that passes. -/
theorem last_upTo {n : Nat} {l : List α} (enough : n ≤ l.countP test) :
    ∀ a ∈ (upTo test n l).getLast?, test a = true := by
  induction l generalizing n with
  | nil => simp
  | cons a l ih =>
      cases n with
      | zero => simp
      | succ n =>
          have more : (if test a then n else n + 1) ≤ l.countP test := by
            rw [List.countP_cons] at enough
            by_cases passes : test a = true
            · rw [if_pos passes] at enough ⊢
              omega
            · rw [if_neg passes] at enough ⊢
              omega
          intro b last
          rw [upTo, List.getLast?_cons, Option.mem_some_iff] at last
          cases later : (upTo test (if test a then n else n + 1) l).getLast? with
          | some c =>
              obtain rfl : c = b := by simpa [later] using last
              exact ih more c later
          | none =>
              obtain rfl : a = b := by simpa [later] using last
              by_contra fails
              have nobody : (upTo test (n + 1) l).filter test = _ := filter_upTo (n + 1) l
              -- Then one that passes is still to come, but nothing comes.
              rw [if_neg fails] at more later
              rw [List.getLast?_eq_none_iff.1 later] at nobody
              have none : 0 = min (n + 1) (l.filter test).length := by
                simpa using congrArg List.length nobody
              rw [← List.countP_eq_length_filter, Nat.min_eq_left more] at none
              cases none

end

namespace Stroke

/-- A resource that came back is lent if it is valid, and closed if not. -/
def Reuses (valid : Item → Bool) : Stroke → Prop
  | lend _ i => valid i = true
  | retire i => valid i = false
  | _ => False

variable {valid : Item → Bool} {ds : List Stroke}

theorem lent_of_reuses (reuses : ∀ d ∈ ds, d.Reuses valid) :
    ds.filterMap lent? = (ds.filterMap taken?).filter valid := by
  rw [List.filter_filterMap]
  apply List.filterMap_congr
  intro d member
  have fits := reuses d member
  cases d <;> simp_all [Reuses, Option.filter]

theorem retired_of_reuses (reuses : ∀ d ∈ ds, d.Reuses valid) :
    ds.filterMap retired? = (ds.filterMap taken?).filter fun i => !valid i := by
  rw [List.filter_filterMap]
  apply List.filterMap_congr
  intro d member
  have fits := reuses d member
  cases d <;> simp_all [Reuses, Option.filter]

theorem chosen_of_reuses (reuses : ∀ d ∈ ds, d.Reuses valid) :
    (ds.filterMap chosen?).length = (ds.filterMap lent?).length := by
  induction ds with
  | nil => rfl
  | cons d ds ih =>
      rw [List.forall_mem_cons] at reuses
      cases d <;> simp_all [Reuses, List.filterMap_cons]

theorem filled_of_reuses (reuses : ∀ d ∈ ds, d.Reuses valid) : ds.filterMap filled? = [] := by
  apply List.filterMap_eq_nil_iff.2
  intro d member
  have fits := reuses d member
  cases d <;> simp_all [Reuses]

theorem asks_of_reuses (reuses : ∀ d ∈ ds, d.Reuses valid) : ds.countP asks = 0 := by
  apply List.countP_eq_zero.2
  intro d member
  have fits := reuses d member
  cases d <;> simp_all [Reuses]

theorem chosen_of_asks (asks : ∀ d ∈ ds, d.asks = true) :
    (ds.filterMap chosen?).length = ds.length := by
  induction ds with
  | nil => rfl
  | cons d ds ih =>
      rw [List.forall_mem_cons] at asks
      cases d <;> simp_all

theorem asks_of_failed {d : Stroke} (failed : d.failed?.isSome) : d.asks = true := by
  cases d <;> simp_all

theorem asks_of_filled {d : Stroke} (filled : d.filled?.isSome) : d.asks = true := by
  cases d <;> simp_all

end Stroke

namespace Pool

/-- There were as many valid resources in the queue as waiters. The first of them are lent, the
invalid ones before the last of these are closed, and the rest of the queue stays. -/
structure Suffices (p : Pool) (valid : Item → Bool) (rs fs gs : List Stroke) (p' : Pool) :
    Prop where
  served : p'.registry.entries = []
  lent : rs.filterMap Stroke.lent? = (p.returned.filter valid).take p.registry.entries.length
  retired : rs.filterMap Stroke.retired? =
    (upTo valid p.registry.entries.length p.returned).filter fun i => !valid i
  last : ∀ i ∈ (upTo valid p.registry.entries.length p.returned).getLast?, valid i = true
  queue : p.returned = upTo valid p.registry.entries.length p.returned ++ p'.returned
  failed : fs = []
  filled : gs = []

/-- The slots that can be filled once everything invalid in the queue is closed. -/
def room (p : Pool) (valid : Item → Bool) : Nat :=
  p.vacated.length + (p.config.maxSize - p.created) + p.returned.countP fun i => !valid i

/-- There were fewer valid resources in the queue than waiters. All of them are lent, everything
invalid is closed, some other waiters are told of failures, and then free slots are filled. -/
structure FallsShort (p : Pool) (valid : Item → Bool) (refusals : Nat) (rs fs gs : List Stroke)
    (p' : Pool) : Prop where
  emptied : p'.returned = []
  lent : rs.filterMap Stroke.lent? = p.returned.filter valid
  retired : rs.filterMap Stroke.retired? = p.returned.filter fun i => !valid i
  full : p.room valid = 0 → fs = [] ∧ gs = []
  failed : 0 < p.room valid →
    fs.length = min refusals (p.registry.entries.length - p.returned.countP valid)
  filled : 0 < p.room valid → gs.length =
    min (p.room valid) (p.registry.entries.length - p.returned.countP valid - fs.length)
  pending : p'.registry.entries.length =
    p.registry.entries.length - p.returned.countP valid - fs.length - gs.length

end Pool

namespace Machine

variable {σ : Type} {e : Environment σ} {P : σ → Prop} {failing : σ → Nat} {below : List Activity}
variable {m m' : Machine σ} {l : List (Machine σ)} {ds : List Stroke}

/-- An idle resource is as good as valid, or is looked at and found valid. -/
def accepts (e : Environment σ) (m : Machine σ) (i : Item) : Bool :=
  !m.pool.config.testOnCheckout || (e.validate i.resource m.env).1

theorem Strikes.accepts (strikes : Strikes e P failing below m l ds m') :
    m'.accepts e = m.accepts e := by
  obtain ⟨ts, _, works⟩ := strikes.works
  funext i
  rw [Machine.accepts, strikes.config, works.env.valid]
  rfl

theorem Strikes.line (strikes : Strikes e P failing below m l ds m') :
    (ds.filterMap Stroke.chosen?).length + m'.pool.registry.entries.length =
      m.pool.registry.entries.length := by
  rw [← List.length_append]
  exact strikes.assigns.rota.perm.length_eq

theorem Strikes.free (strikes : Strikes e P failing below m l ds m') :
    (ds.filterMap Stroke.filled?).length + m'.pool.free.length =
      m.pool.free.length + (ds.filterMap Stroke.retired?).length := by
  simpa using strikes.provides.free.length_eq

theorem Strikes.failing_eq (strikes : Strikes e P failing below m l ds m') :
    failing m'.env = failing m.env - ds.countP Stroke.asks := by
  obtain ⟨ts, _, works⟩ := strikes.works
  exact works.env.failing

/-- All the while something stands above what was there. -/
theorem Strikes.above (strikes : Strikes e P failing below m l ds m') :
    ∀ v ∈ l, ∃ a as, v.stack = a :: (as ++ below) := by
  obtain ⟨ts, _, works⟩ := strikes.works
  exact works.busy.above

/-- What came back is handed out in order, and what is invalid is closed on the way, until everybody
is served or the queue is empty. -/
theorem Ready.reuse (steady : e.Steady P failing) (ready : Ready P below m) :
    ∃ l ds m', Strikes e P failing below m l ds m' ∧ Ready P below m' ∧
      (∀ d ∈ ds, d.Reuses (m.accepts e)) ∧
      ds.filterMap Stroke.taken? =
        upTo (m.accepts e) m.pool.registry.entries.length m.pool.returned := by
  generalize queue : m.pool.returned = items
  -- Each stroke takes the front of the queue, so the induction is on the queue.
  induction items generalizing m with
  | nil => exact ⟨[], [], m, .refl ready.holds, ready, by simp, by simp⟩
  | cons i rest ih =>
      by_cases line : m.pool.registry.entries = []
      · exact ⟨[], [], m, .refl ready.holds, ready, by simp, by simp [line]⟩
      have front {d : Stroke} {k : List (Machine σ)} {n : Machine σ} {j : Nat}
          (first : Strikes e P failing below m k [d] n) (next : Ready P below n)
          (takes : d.taken? = some i) (fits : d.Reuses (m.accepts e))
          (before : m.pool.registry.entries.length = j + 1)
          (after : n.pool.registry.entries.length = if m.accepts e i then j else j + 1) :
          ∃ l ds m', Strikes e P failing below m l ds m' ∧ Ready P below m' ∧
            (∀ d ∈ ds, d.Reuses (m.accepts e)) ∧ ds.filterMap Stroke.taken? =
              upTo (m.accepts e) m.pool.registry.entries.length (i :: rest) := by
        have left : n.pool.returned = rest := by
          have parts := first.provides.returned
          rw [queue, List.filterMap_cons_some takes] at parts
          exact (List.cons.inj parts).2.symm
        obtain ⟨l, ds, m', second, ready', reuses, taken⟩ := ih next left
        rw [first.accepts] at reuses taken
        refine ⟨_, _, m', first.trans ready.lined second, ready',
          List.forall_mem_cons.2 ⟨fits, reuses⟩, ?_⟩
        rw [List.singleton_append, List.filterMap_cons_some takes, taken, before, after, upTo]
      obtain ⟨q, popped⟩ := Pool.exists_pop queue
      obtain ⟨j, waiters⟩ : ∃ j, m.pool.registry.entries.length = j + 1 :=
        Nat.exists_eq_succ_of_ne_zero (List.length_eq_zero_iff.not.2 line)
      by_cases valid : m.accepts e i = true
      · obtain ⟨k, w, n, first, next⟩ := ready.lend steady line popped fun tested => by
          simpa [accepts, tested] using valid
        have left : 1 + n.pool.registry.entries.length = m.pool.registry.entries.length :=
          first.line
        refine front first next rfl valid waiters ?_
        rw [if_pos valid]
        omega
      · have tested : m.pool.config.testOnCheckout = true ∧
            (e.validate i.resource m.env).1 = false := by simpa [accepts] using valid
        obtain ⟨k, n, first, next⟩ := ready.retire steady line popped tested.1 tested.2
        have left : 0 + n.pool.registry.entries.length = m.pool.registry.entries.length :=
          first.line
        refine front first next rfl (Bool.eq_false_iff.2 valid) waiters ?_
        rw [if_neg valid]
        omega

/-- With nothing in the queue, calls for new resources fail as long as they do, and then resources
are made, until everybody is served or no slot is free. -/
theorem Ready.make (steady : e.Steady P failing) (ready : Ready P below m)
    (empty : m.pool.returned = []) :
    ∃ l fs gs m', Strikes e P failing below m l (fs ++ gs) m' ∧ Ready P below m' ∧
      (∀ d ∈ fs, d.failed?.isSome) ∧ (∀ d ∈ gs, d.filled?.isSome) ∧
      (m.pool.free.length = 0 → fs.length = 0) ∧
      (0 < m.pool.free.length →
        fs.length = min (failing m.env) m.pool.registry.entries.length) ∧
      gs.length = min m.pool.free.length (m.pool.registry.entries.length - fs.length) ∧
      m'.pool.returned = [] ∧ (m'.pool.registry.entries = [] ∨ m'.pool.free = []) := by
  generalize waiters : m.pool.registry.entries.length = n
  -- Each stroke serves one of those in line. The slot of a failure stays free, so failures stop
  -- only with the line or when the factory is willing again.
  induction n generalizing m with
  | zero =>
      exact ⟨[], [], [], m, .refl ready.holds, ready, by simp, by simp, by simp, by simp, by simp,
        empty, .inl (List.length_eq_zero_iff.1 waiters)⟩
  | succ n ih =>
      by_cases full : m.pool.free = []
      · exact ⟨[], [], [], m, .refl ready.holds, ready, by simp, by simp, by simp, by simp [full],
          by simp [full], empty, .inr full⟩
      have room : 0 < m.pool.free.length := List.length_pos_iff.2 full
      have line : m.pool.registry.entries ≠ [] := by
        rw [← List.length_pos_iff, waiters]
        omega
      have rest {d : Stroke} {k : List (Machine σ)} {m₁ : Machine σ} {w : Nat}
          (first : Strikes e P failing below m k [d] m₁) (chosen : d.chosen? = some w)
          (untaken : d.taken? = none) :
          m₁.pool.returned = [] ∧ m₁.pool.registry.entries.length = n := by
        have queue := first.provides.returned
        have left := first.line
        rw [List.filterMap_cons_none untaken, empty] at queue
        rw [List.filterMap_cons_some chosen, waiters, List.filterMap_nil,
          List.length_singleton] at left
        exact ⟨queue.symm, by omega⟩
      by_cases willing : failing m.env = 0
      · obtain ⟨k, w, i, m₁, first, next⟩ := ready.fill steady line empty full willing
        obtain ⟨queue, left⟩ := rest first rfl rfl
        obtain ⟨l, fs, gs, m', second, ready', failed, filled, still, fewer, more, spent⟩ :=
          ih next queue left
        have free : 1 + m₁.pool.free.length = m.pool.free.length := first.free
        have refusals : failing m₁.env = failing m.env - 1 := first.failing_eq
        obtain rfl : fs = [] := List.length_eq_zero_iff.1 (by omega)
        have both := first.trans ready.lined second
        refine ⟨_, [], .fill w i :: gs, m', both, ready', by simp,
          List.forall_mem_cons.2 ⟨rfl, filled⟩, fun _ => rfl, fun _ => ?_, ?_, spent⟩ <;>
          simp only [List.length_nil, List.length_cons] at more ⊢ <;> omega
      · obtain ⟨k, w, s, cause, m₁, first, next⟩ :=
          ready.fail steady line empty full (Nat.pos_of_ne_zero willing)
        obtain ⟨queue, left⟩ := rest first rfl rfl
        obtain ⟨l, fs, gs, m', second, ready', failed, filled, still, fewer, more, spent⟩ :=
          ih next queue left
        have free : 0 + m₁.pool.free.length = m.pool.free.length := first.free
        have refusals : failing m₁.env = failing m.env - 1 := first.failing_eq
        have both := first.trans ready.lined second
        refine ⟨_, .fail w s cause :: fs, gs, m', both, ready',
          List.forall_mem_cons.2 ⟨rfl, failed⟩, filled, fun _ => ?_, fun _ => ?_, ?_, spent⟩ <;>
          simp only [List.length_cons] at more ⊢ <;> omega

/-- A step that only counts the calls for matching. -/
theorem Strikes.recount (holds : P m.env) {a : Activity} (top : m.stack = a :: below)
    (still : m.deeds e = []) (idle : m.creates = false) {calls : Nat} {stack : List Activity}
    (next : m.step e = { m with pool := { m.pool with triggers := calls }, stack }) :
    Strikes e P failing below m [m] []
      { m with pool := { m.pool with triggers := calls }, stack } where
  works := ⟨[], rfl, .plain [] top next ⟨rfl, rfl, rfl, rfl⟩ (.refl holds) rfl rfl
    (by rw [still]; rfl)⟩
  history := by simp [still]
  creates := by simp [idle]
  assigns := ⟨.nil, by simp, fun _ _ => rfl⟩
  provides := ⟨rfl, by simp [Pool.free], .refl⟩
  config := rfl
  closed := rfl
  fresh := rfl

theorem Calm.recount (calm : Calm P m) (calls : Nat) (stack : List Activity) :
    Calm P { m with pool := { m.pool with triggers := calls }, stack } where
  holds := calm.holds
  queues := calm.queues
  awake := calm.awake
  opened := calm.opened
  lined := ⟨calm.lined.distinct, calm.lined.waiting⟩
  stocked := ⟨calm.stocked.size, calm.stocked.apart, calm.stocked.idle, calm.stocked.single,
    calm.stocked.vacant⟩

/-- The first call for matching starts it. -/
theorem Calm.start (calm : Calm P m) (e : Environment σ) (failing : σ → Nat)
    (idle : m.pool.triggers = 0) (top : m.stack = .trigger :: below) :
    ∃ n, Strikes e P failing below m [m] [] n ∧ Ready P below n ∧
      n.pool = { m.pool with triggers := 1 } ∧ n.env = m.env := by
  have next : m.step e = { m with
      pool := { m.pool with triggers := 1 }
      stack := .round 1 none :: below } := by
    rw [step, top]
    simp only [exec, trigger, idle, if_true, withPool, push]
    rfl
  refine ⟨_, .recount calm.holds top ?_ ?_ next, ⟨calm.recount 1 _, rfl, .round rfl⟩, rfl, rfl⟩
  · rw [deeds, top]
    rfl
  · rw [creates, top]

/-- Matching ends when everybody is served or nothing is left to hand out. -/
theorem Ready.finish (ready : Ready P below m) (e : Environment σ) (failing : σ → Nat)
    (spent : m.pool.registry.entries = [] ∨ m.pool.returned = [] ∧ m.pool.free = []) :
    ∃ l m', Strikes e P failing below m l [] m' ∧ Calm P m' ∧ m'.stack = below ∧
      m'.pool = { m.pool with triggers := 0 } := by
  have ends : ∃ a, m.stack = a :: below ∧ m.deeds e = [] ∧ m.creates = false ∧
      m.step e = { m with stack := .again 1 :: below } := by
    by_cases line : m.pool.registry.entries = []
    · cases ready.seeks with
      | search _ waiting => exact absurd line waiting
      | round stack =>
          refine ⟨_, stack, by rw [deeds, stack]; rfl, by rw [creates, stack], ?_⟩
          rw [step, stack]
          simp [exec, Machine.round, ready.opened, line, push]
    · obtain ⟨empty, full⟩ := spent.resolve_left line
      obtain ⟨a, top, still, idle, seeks⟩ := ready.step_eq (e := e) line
      refine ⟨a, top, still, idle, seeks.trans ?_⟩
      simp [seek, Pool.popReturned?, empty, Pool.reserve?_eq_none full, push]
  obtain ⟨a, top, still, idle, next⟩ := ends
  have stays : Strikes e P failing below m [m] [] { m with stack := .again 1 :: below } :=
    .recount ready.holds top still idle next
  have last : ({ m with stack := .again 1 :: below } : Machine σ).step e = { m with
      pool := { m.pool with triggers := 0 }
      stack := below } := by
    simp [step, exec, again, ready.single, withPool]
  have leaves : Strikes e P failing below { m with stack := .again 1 :: below } [_] [] _ :=
    .recount (m := { m with stack := .again 1 :: below }) ready.holds rfl rfl rfl last
  exact ⟨_, _, stays.trans ready.lined leaves, ready.recount 0 below, rfl, rfl⟩

/-- A drain, from a call for matching to the end of the matching. What came back is handed out in
order, then calls for new resources fail, and then slots are filled. -/
structure Drains (e : Environment σ) (P : σ → Prop) (failing : σ → Nat) (below : List Activity)
    (m : Machine σ) (l : List (Machine σ)) (rs fs gs : List Stroke) (m' : Machine σ) : Prop where
  strikes : Strikes e P failing below m l (rs ++ fs ++ gs) m'
  calm : Calm P m'
  stack : m'.stack = below
  idle : m'.pool.triggers = 0
  reused : ∀ d ∈ rs, d.Reuses (m.accepts e)
  failed : ∀ d ∈ fs, d.failed?.isSome
  filled : ∀ d ∈ gs, d.filled?.isSome
  asked : l.countP creates = fs.length + gs.length
  above : ∀ v ∈ l, ∃ a as, v.stack = a :: (as ++ below)

theorem Drains.steps {rs fs gs : List Stroke}
    (drains : Drains e P failing below m l rs fs gs m') :
    m.steps e l.length = m' ∧ m.trail e l.length = l := by
  obtain ⟨ts, _, works⟩ := drains.strikes.works
  exact works.busy.steps

/-- The reuse of what came back, counted. -/
theorem Strikes.lent (strikes : Strikes e P failing below m l ds m')
    (reuses : ∀ d ∈ ds, d.Reuses (m.accepts e))
    (taken : ds.filterMap Stroke.taken? =
      upTo (m.accepts e) m.pool.registry.entries.length m.pool.returned) :
    ds.filterMap Stroke.lent? =
        (m.pool.returned.filter (m.accepts e)).take m.pool.registry.entries.length ∧
      m'.pool.registry.entries.length =
        m.pool.registry.entries.length - m.pool.returned.countP (m.accepts e) := by
  have lent := Stroke.lent_of_reuses reuses
  rw [taken, filter_upTo] at lent
  refine ⟨lent, ?_⟩
  have line := strikes.line
  rw [Stroke.chosen_of_reuses reuses, lent, List.length_take,
    ← List.countP_eq_length_filter] at line
  omega

/-- A drain that begins with the reuse of what came back. -/
theorem Calm.reuse (steady : e.Steady P failing) (calm : Calm P m) (idle : m.pool.triggers = 0)
    (top : m.stack = .trigger :: below) :
    ∃ l rs n, Strikes e P failing below m l rs n ∧ Ready P below n ∧
      (∀ d ∈ rs, d.Reuses (m.accepts e)) ∧
      rs.filterMap Stroke.taken? =
        upTo (m.accepts e) m.pool.registry.entries.length m.pool.returned := by
  obtain ⟨m₁, started, ready, pool, _⟩ := calm.start e failing idle top
  obtain ⟨l, rs, n, reused, ready', reuses, taken⟩ := ready.reuse steady
  rw [started.accepts, pool] at taken
  rw [started.accepts] at reuses
  exact ⟨_, rs, n, started.trans calm.lined reused, ready', reuses, taken⟩

/-- With enough valid resources in the queue, everybody is served from it. -/
theorem Calm.drain_of_enough (steady : e.Steady P failing) (calm : Calm P m)
    (idle : m.pool.triggers = 0) (top : m.stack = .trigger :: below)
    (enough : m.pool.registry.entries.length ≤ m.pool.returned.countP (m.accepts e)) :
    ∃ l rs m', Drains e P failing below m l rs [] [] m' ∧
      m.pool.Suffices (m.accepts e) rs [] [] m'.pool := by
  obtain ⟨k, rs, n, reused, ready, reuses, taken⟩ := calm.reuse steady idle top
  obtain ⟨lent, left⟩ := reused.lent reuses taken
  have served : n.pool.registry.entries = [] := List.length_eq_zero_iff.1 (by omega)
  obtain ⟨l, m', finished, calm', stack, pool⟩ := ready.finish e failing (.inl served)
  have retired := Stroke.retired_of_reuses reuses
  have queue := reused.provides.returned
  rw [taken] at retired queue
  have strikes := reused.trans calm.lined finished
  rw [← List.append_nil (rs ++ [])] at strikes
  refine ⟨_, rs, m', ⟨strikes, calm', stack, by rw [pool], reuses, by simp, by simp, ?_,
    strikes.above⟩, ?_⟩
  · rw [strikes.creates, List.append_nil, List.append_nil, Stroke.asks_of_reuses reuses]
    rfl
  rw [pool]
  exact ⟨served, lent, retired, last_upTo enough, queue, rfl, rfl⟩

/-- With too few valid resources in the queue, it is emptied, and then new ones are asked for. -/
theorem Calm.drain_of_short (steady : e.Steady P failing) (calm : Calm P m)
    (idle : m.pool.triggers = 0) (top : m.stack = .trigger :: below)
    (short : m.pool.returned.countP (m.accepts e) < m.pool.registry.entries.length) :
    ∃ l rs fs gs m', Drains e P failing below m l rs fs gs m' ∧
      m.pool.FallsShort (m.accepts e) (failing m.env) rs fs gs m'.pool := by
  obtain ⟨k, rs, n, reused, ready, reuses, taken⟩ := calm.reuse steady idle top
  obtain ⟨lent, left⟩ := reused.lent reuses taken
  have retired := Stroke.retired_of_reuses reuses
  have queue := reused.provides.returned
  rw [upTo_of_lt short] at taken
  rw [taken] at retired queue
  have empty : n.pool.returned = [] := by simpa using queue
  obtain ⟨k', fs, gs, n', made, ready', failed, filled, full, fewer, more, spent⟩ :=
    ready.make steady empty
  obtain ⟨l, m', finished, calm', stack, pool⟩ := ready'.finish e failing
    (spent.2.imp_right fun full => ⟨spent.1, full⟩)
  have strikes := (reused.trans calm.lined made).trans calm.lined finished
  rw [List.append_nil, ← List.append_assoc rs] at strikes
  have asks : ∀ d ∈ fs ++ gs, d.asks = true := by
    intro d member
    obtain early | late := List.mem_append.1 member
    · exact Stroke.asks_of_failed (failed d early)
    · exact Stroke.asks_of_filled (filled d late)
  refine ⟨_, rs, fs, gs, m', ⟨strikes, calm', stack, by rw [pool], reuses, failed, filled, ?_,
    strikes.above⟩, ?_⟩
  · rw [strikes.creates, List.append_assoc, List.countP_append, Stroke.asks_of_reuses reuses,
      List.countP_eq_length.2 asks, List.length_append, Nat.zero_add]
  have room : n.pool.free.length = m.pool.room (m.accepts e) := by
    have free := reused.free
    rw [Stroke.filled_of_reuses reuses, retired, ← List.countP_eq_length_filter,
      calm.stocked.length_free] at free
    simpa [Pool.room] using free
  have refusals : failing n.env = failing m.env := by
    rw [reused.failing_eq, Stroke.asks_of_reuses reuses, Nat.sub_zero]
  have line := made.line
  rw [Stroke.chosen_of_asks asks, List.length_append] at line
  rw [room] at full fewer more
  rw [refusals, left] at fewer
  rw [left] at more line
  rw [pool]
  exact {
    emptied := spent.1
    lent := by
      rw [lent, List.take_of_length_le]
      rw [← List.countP_eq_length_filter]
      exact short.le
    retired := retired
    full := fun none =>
      ⟨List.length_eq_zero_iff.1 (full none), List.length_eq_zero_iff.1 (by omega)⟩
    failed := fewer
    filled := fun _ => more
    pending := by
      show n'.pool.registry.entries.length = _
      omega }

/-- What one drain does, in closed form. In steady surroundings, from an open pool in good order in
which nobody matches, a call for matching leads to the end of a matching, and nothing below it is
reached before. With a valid resource in the queue for everybody in line, everybody gets one of
these. Else the queue is emptied, calls for new resources fail as often as they will, and free slots
are filled for those who still wait. -/
theorem drain_closed_form (steady : e.Steady P failing) (calm : Calm P m)
    (idle : m.pool.triggers = 0) (top : m.stack = .trigger :: below) :
    ∃ k rs fs gs,
      Drains e P failing below m (m.trail e k) rs fs gs (m.steps e k) ∧
      (m.pool.registry.entries.length ≤ m.pool.returned.countP (m.accepts e) →
        m.pool.Suffices (m.accepts e) rs fs gs (m.steps e k).pool) ∧
      (m.pool.returned.countP (m.accepts e) < m.pool.registry.entries.length →
        m.pool.FallsShort (m.accepts e) (failing m.env) rs fs gs (m.steps e k).pool) := by
  obtain enough | short := le_or_gt m.pool.registry.entries.length
    (m.pool.returned.countP (m.accepts e))
  · obtain ⟨l, rs, m', drains, served⟩ := calm.drain_of_enough steady idle top enough
    obtain ⟨steps, trail⟩ := drains.steps
    refine ⟨l.length, rs, [], [], ?_⟩
    rw [steps, trail]
    exact ⟨drains, fun _ => served, fun short => absurd short (Nat.not_lt.2 enough)⟩
  · obtain ⟨l, rs, fs, gs, m', drains, exhausted⟩ := calm.drain_of_short steady idle top short
    obtain ⟨steps, trail⟩ := drains.steps
    refine ⟨l.length, rs, fs, gs, ?_⟩
    rw [steps, trail]
    exact ⟨drains, fun enough => absurd short (Nat.not_lt.2 enough), fun _ => exhausted⟩

end Machine

/-- Without hooks the bench is calm, and lets as many calls fail as it was told to. -/
theorem Bench.steady :
    Bench.environment.Steady (fun r => r.hooks = []) fun r => r.factory.failCreates where
  names c r none := by simp [environment, Rig.enter, Rig.extract, none]
  enter c r none := by
    have next : (environment.enter c r).2 = { r with calls := .ofMoment c :: r.calls } := by
      simp [environment, Rig.enter, Rig.extract, none]
    rw [next]
    exact ⟨none, fun _ => rfl, rfl⟩
  validate _ _ none := .refl none
  close _ _ none := ⟨none, fun _ => rfl, rfl⟩
  create n r none := by
    simp only [environment, Rig.create, Factory.create]
    by_cases willing : r.factory.failCreates = 0
    · simp only [willing, if_true]
      exact ⟨none, fun _ => rfl, by simp [willing]⟩
    · simp only [willing, if_false]
      exact ⟨none, fun _ => rfl, rfl⟩
  fails n r _ := by
    simp only [environment, Rig.create, Factory.create]
    by_cases willing : r.factory.failCreates = 0 <;> simp [willing]

namespace Run

open Machine

variable {σ : Type} {e : Environment σ} {past : List (Machine σ)} {m : Machine σ}

/-- In a run the pool is in good order. -/
theorem calm (run : Run e past m) {P : σ → Prop} (holds : P m.env)
    (queues : m.scheduler.dispatcher ≠ .inline) (awake : m.background.holdsBack = false)
    (opened : m.pool.closed = false) : Calm P m :=
  ⟨holds, queues, awake, opened, run.lined, run.stocked⟩

end Run

/-- The only resource comes back invalid while three requests wait and the next call for a new one
will fail. -/
theorem Machine.drain_closed_form_invalid : ∃ (past : List (Machine Bench.Rig))
    (m : Machine Bench.Rig) (below : List Activity) (k : Nat) (rs fs gs : List Stroke),
    Run Bench.environment past m ∧ m.stack = .trigger :: below ∧
      m.pool.registry.entries = [1, 2, 3] ∧ m.env.factory.failCreates = 1 ∧
      m.pool.returned.map (m.accepts Bench.environment) = [false] ∧
      Drains Bench.environment (fun r => r.hooks = []) (fun r => r.factory.failCreates) below m
        (m.trail Bench.environment k) rs fs gs (m.steps Bench.environment k) ∧
      m.pool.FallsShort (m.accepts Bench.environment) 1 rs fs gs
        (m.steps Bench.environment k).pool := by
  have first := ((Run.bench (c := { maxSize := 1 }) rfl).ask (.acquire 0) rfl).steps 40
  have delivered := (first.ask (.run none) rfl).steps 40
  have polled := (delivered.ask .pollAll rfl).steps 40
  have spoilt := (polled.ask (.invalidateHeld 0) rfl).steps 40
  have second := (spoilt.ask (.acquire 1) rfl).steps 40
  have third := (second.ask (.acquire 2) rfl).steps 40
  have fourth := (third.ask (.acquire 3) rfl).steps 40
  have told := (fourth.ask (.tell (.failCreates 1)) rfl).steps 40
  have dropped := (told.ask (.drop 0) rfl).steps 2
  obtain ⟨k, rs, fs, gs, drains, _, short⟩ :=
    drain_closed_form Bench.steady (dropped.calm rfl (by decide) rfl rfl) rfl rfl
  exact ⟨_, _, _, k, rs, fs, gs, dropped, rfl, rfl, rfl, rfl, drains, short (by decide)⟩

end ResourcePool
