import ResourcePool.Proofs.Choices
import ResourcePool.Proofs.Frame

/-!
One matching at a time. A call for matching that comes while a matching is in progress is only
counted, and the matching in progress begins another round for it: when a round is over that answers
all the calls there were, the last of them had come before that round began.
-/

namespace ResourcePool

attribute [-simp] Multiset.singleton_add

@[simp] def Asset.round? : Asset → Option Nat
  | matcher answered _ => some answered
  | _ => none

@[simp] def Call.round? : Call → Option Nat
  | create answered _ _ | validate _ (.checkout answered _)
  | close _ (.invalid (.checkout answered _)) => some answered
  | _ => none

/-- The round of matching that the activity works on, as the number of calls it answers. -/
@[simp] def Activity.round? : Activity → Option Nat
  | round answered _ | search answered _ | again answered => some answered
  | call c | answer c => c.round?
  | _ => none

theorem Handle.filterMap_round? (x : Handle) : x.assets.filterMap Asset.round? = 0 := by
  obtain a | (_ | ⟨a, deadline⟩) | i | r := x <;> simp

theorem Call.filterMap_round? (c : Call) :
    c.before.filterMap Asset.round? = c.round?.elim 0 singleton ∧
      c.during.filterMap Asset.round? = c.round?.elim 0 singleton := by
  obtain _ | ⟨i, check⟩ | ⟨i, why⟩ | t := c
  · simp
  · cases check <;> simp
  · obtain check | _ | _ | _ | _ := why
    · cases check <;> simp
    all_goals simp
  · simp

theorem Activity.filterMap_round? (a : Activity) :
    a.assets.filterMap Asset.round? = a.round?.elim 0 singleton := by
  cases a with
  | acquire p | acquired _ p => cases p <;> simp
  | put k x => exact x.filterMap_round?
  | round n inHand => cases inHand <;> simp
  | call c => exact c.filterMap_round?.1
  | answer c => exact c.filterMap_round?.2
  | _ => simp

namespace Machine

variable {σ : Type} {e : Environment σ} {m : Machine σ}

/-- The rounds of matching in progress, those that are just over included. -/
def rounds (m : Machine σ) : List Nat :=
  m.activities.filterMap Activity.round?

theorem coe_rounds (m : Machine σ) :
    (m.rounds : Multiset Nat) = (matchings m.assets).map Prod.fst := by
  have projection : Asset.round? = fun a => a.matching?.map Prod.fst := by
    funext a
    cases a <;> rfl
  have active (as : List Activity) : (held as).filterMap Asset.round? =
      (as.filterMap Activity.round? : List Nat) :=
    filterMap_sum_map fun a _ => a.filterMap_round?
  have handles : m.handles.assets.filterMap Asset.round? =
      (m.handles.entries.filterMap fun _ => none : List Nat) :=
    filterMap_sum_map fun e _ => e.2.filterMap_round?
  have tasks : (m.tasks.map Task.assets).sum.filterMap Asset.round? =
      (m.tasks.filterMap fun _ => none : List Nat) :=
    filterMap_sum_map fun t _ => by simp
  have back : m.background.assets.filterMap Asset.round? = 0 := by
    cases m.background <;> simp
  rw [matchings, Multiset.map_filterMap, ← projection, assets, Multiset.filterMap_add,
    Multiset.filterMap_add, Multiset.filterMap_add, Multiset.filterMap_add, active, active, handles,
    tasks, back]
  simp [rounds, activities]

/-- At most one round is in progress, and calls for matching are counted only meanwhile. -/
theorem rounds_of_matching (matching : Matching m.pool m.assets) :
    m.rounds = [] ∧ m.pool.triggers = 0 ∨ ∃ k, m.rounds = [k] ∧ 0 < k ∧ k ≤ m.pool.triggers := by
  have same := m.coe_rounds
  obtain ⟨none, quiet⟩ | ⟨k, stage, one, bounds⟩ := matching.single
  · exact .inl ⟨by simpa [none] using same, quiet⟩
  · exact .inr ⟨k, by simpa [one] using same, bounds⟩

/-- The round of matching that begins in the next step, as the number of calls it answers. -/
def begins? (m : Machine σ) : Option Nat :=
  match m.stack with
  | .trigger :: _ => if m.pool.triggers = 0 then some 1 else none
  | .again n :: _ => if m.pool.triggers - n = 0 then none else some (m.pool.triggers - n)
  | _ => none

/-- A round of matching is over. -/
def Ends (m : Machine σ) (k : Nat) : Prop :=
  ∃ below, m.stack = .again k :: below

theorem lend_triggers (m : Machine σ) (w : Nat) (i : Item) :
    (m.lend w i).pool.triggers = m.pool.triggers :=
  (m.lend_sameLine w i).triggers

theorem pick_triggers (p : Pool) (view : List Nat) : (p.pick view).2.triggers = p.triggers := by
  cases picked : p.pick view with
  | mk chosen q => exact (Pool.pick_sameStock picked).triggers

theorem handOut_triggers (m : Machine σ) (n : Nat) (view : List Nat) (i : Item) :
    (m.handOut n view i).pool.triggers = m.pool.triggers :=
  (m.handOut_sameLine n view i).triggers.trans (pick_triggers m.pool view)

theorem seek_triggers (m : Machine σ) (n : Nat) (view : List Nat) :
    (m.seek n view).pool.triggers = m.pool.triggers := by
  unfold seek
  split
  · next popped =>
      have same := (Pool.popReturned?_sameLine popped).triggers
      split
      · exact same
      · exact (handOut_triggers ..).trans same
  · split
    · next reserved =>
        exact (fill_sameLine _ n view _).triggers.trans <|
          (pick_triggers _ view).trans (Pool.reserve?_sameLine reserved).triggers
    · rfl

theorem round_triggers (m : Machine σ) (n : Nat) (inHand : Option Item) :
    (m.round n inHand).pool.triggers = m.pool.triggers := by
  unfold round
  split
  · cases inHand <;> rfl
  · split
    · rfl
    · rfl
    · exact handOut_triggers ..
    · exact seek_triggers ..

theorem closed_triggers (m : Machine σ) (i : Item) (why : Closing) :
    (m.closed e i why).pool.triggers = m.pool.triggers := by
  have failure (n : Machine σ) (slot : Nat) (f : Option Failure) :
      (n.noteFailure slot f).pool.triggers = n.pool.triggers := by
    cases f <;> rfl
  have closing (n : Machine σ) (slot : Nat) (f : Option Failure) :
      (n.noteClosed slot f).pool.triggers = n.pool.triggers := by
    cases f <;> rfl
  cases why with
  | invalid check => cases check <;> exact failure ..
  | misfit => exact failure ..
  | _ => exact closing ..

/-- Only calls for matching and ends of rounds are counted. -/
theorem exec_triggers (m : Machine σ) (a : Activity) (calls : a ≠ .trigger)
    (ends : ∀ n, a ≠ .again n) : (m.exec e a).pool.triggers = m.pool.triggers := by
  by_cases other : a.bystands = true
  · exact (m.exec_bystands other).stock.triggers
  cases a with
  | trigger => exact absurd rfl calls
  | again n => exact absurd rfl (ends n)
  | round n inHand => exact m.round_triggers n inHand
  | search n view => exact m.seek_triggers n view
  | perform op =>
      cases op with
      | close =>
          simp only [exec, perform, onPool]
          split
          · unfold close
            split <;> rfl
          · rfl
      | detach k =>
          simp only [exec, perform]
          split <;> rfl
      | _ => exact absurd rfl other
  | call c =>
      simp only [exec, call]
      split
      · split <;> rfl
      · rfl
  | answer c =>
      cases c with
      | create n w r =>
          simp only [exec, answered, created]
          split
          · rfl
          · split
            · exact (lend_triggers ..).trans (m.pool.occupy_sameLine r).triggers
            · exact (Pool.complete_sameStock ..).triggers.trans
                (m.pool.unreserve_sameLine r).triggers
      | validate i check =>
          simp only [exec, answered, validated]
          split
          · exact handOut_triggers ..
          · rfl
          · rfl
      | close i why => exact m.closed_triggers i why
      | schedule t => exact absurd rfl other
  | teardown =>
      simp only [exec, teardown]
      split
      · next popped => exact (Pool.popReturned?_sameLine popped).triggers
      · rfl
  | giveBack i =>
      simp only [exec, giveBack]
      split
      · rfl
      · next taken =>
          have same := (Pool.takeBack?_sameLine taken).triggers
          split <;> exact same
  | flush who failures =>
      simp only [exec, flush]
      split
      · next popped => exact (Pool.popReturned?_sameLine popped).triggers
      · cases who <;> exact m.pool.dismissAll_sameStock.triggers
  | _ => exact absurd rfl other

theorem mem_rounds {k : Nat} : k ∈ m.rounds ↔ ∃ a ∈ m.activities, a.round? = some k :=
  List.mem_filterMap

theorem mem_rounds_push (m : Machine σ) {a : Activity} {as : List Activity} {k : Nat}
    (works : a.round? = some k) : k ∈ (m.push (a :: as)).rounds :=
  mem_rounds.2 ⟨a, by simp [activities, push], works⟩

theorem mem_rounds_lend {n : Machine σ} {k : Nat} (works : k ∈ n.rounds) (w : Nat) (i : Item) :
    k ∈ (n.lend w i).rounds := by
  obtain ⟨t, stack, _, _, same⟩ := n.lend_untouched w i
  obtain ⟨a, member, works⟩ := mem_rounds.1 works
  refine mem_rounds.2 ⟨a, ?_, works⟩
  rw [activities, stack, show (n.lend w i).paused = n.paused from same.paused]
  exact List.mem_cons_of_mem _ member

theorem mem_rounds_handOut (m : Machine σ) (n : Nat) (view : List Nat) (i : Item) :
    n ∈ (m.handOut n view i).rounds := by
  unfold handOut
  split
  · exact mem_rounds_lend (mem_rounds_push _ rfl) _ i
  · exact mem_rounds_push _ rfl

theorem mem_rounds_seek (m : Machine σ) (n : Nat) (view : List Nat) :
    n ∈ (m.seek n view).rounds := by
  unfold seek
  split
  · split
    · exact mem_rounds_push _ rfl
    · exact mem_rounds_handOut ..
  · split
    · unfold fill
      split <;> exact mem_rounds_push _ rfl
    · exact mem_rounds_push _ rfl

theorem mem_rounds_round (m : Machine σ) (n : Nat) (inHand : Option Item) :
    n ∈ (m.round n inHand).rounds := by
  unfold round
  split
  · cases inHand <;> simp [rounds, activities, push, shut, withPool]
  · split
    · exact mem_rounds_push _ rfl
    · exact mem_rounds_push _ rfl
    · exact mem_rounds_handOut ..
    · exact mem_rounds_seek ..

theorem mem_rounds_call (m : Machine σ) {c : Call} {k : Nat} (works : c.round? = some k) :
    k ∈ (m.call e c).rounds := by
  have waits : .answer c ∈ (m.call e c).activities := by
    cases c <;> simp_all [call, announce, activities, push]
  exact mem_rounds.2 ⟨_, waits, works⟩

theorem mem_rounds_hold (m : Machine σ) {c : Call} {k : Nat} (works : c.round? = some k) :
    k ∈ (m.hold e c).rounds :=
  mem_rounds.2 ⟨.answer c, by simp [hold, activities], works⟩

theorem mem_rounds_answered (m : Machine σ) {c : Call} {k : Nat} (works : c.round? = some k) :
    k ∈ (m.answered e c).rounds := by
  cases c with
  | create n w r =>
      obtain rfl : n = k := Option.some.inj works
      simp only [answered, created]
      split
      · exact m.mem_rounds_hold rfl
      · split
        · exact mem_rounds_lend (mem_rounds_push _ rfl) w _
        · exact mem_rounds_push _ rfl
  | validate i check =>
      cases check with
      | checkin => cases works
      | checkout n view =>
          obtain rfl : n = k := Option.some.inj works
          simp only [answered, validated]
          split
          · next same _ =>
              cases same
              exact mem_rounds_handOut ..
          · next same _ => cases same
          · exact mem_rounds_push _ rfl
  | close i why =>
      obtain (⟨n, view⟩ | _) | _ | _ | _ | _ := why
      case invalid.checkout =>
        obtain rfl : n = k := Option.some.inj works
        exact mem_rounds_push _ rfl
      all_goals cases works
  | schedule t => cases works

/-- A round goes on until it is over. -/
theorem mem_rounds_exec (m : Machine σ) {a : Activity} {k : Nat} (works : a.round? = some k)
    (ends : ∀ n, a ≠ .again n) : k ∈ (m.exec e a).rounds := by
  cases a with
  | round n inHand =>
      obtain rfl : n = k := Option.some.inj works
      exact m.mem_rounds_round n inHand
  | search n view =>
      obtain rfl : n = k := Option.some.inj works
      exact m.mem_rounds_seek n view
  | again n => exact absurd rfl (ends n)
  | call c => exact m.mem_rounds_call works
  | answer c => exact m.mem_rounds_answered works
  | _ => cases works

end Machine

/-- A whole round of matching: it begins with the step from `b`, goes on in `between` and is over in
`r`. -/
structure Machine.WholeRound {σ : Type} (k : Nat) (r : Machine σ) (between : List (Machine σ))
    (b : Machine σ) : Prop where
  begins : b.begins? = some k
  goesOn : ∀ u ∈ between, u.rounds = [k] ∧ ∀ j, ¬u.Ends j
  ends : r.Ends k

namespace Run

open Machine

variable {σ : Type} {e : Environment σ} {past later earlier : List (Machine σ)} {m n : Machine σ}
  {k : Nat}

theorem rounds (run : Run e past m) :
    m.rounds = [] ∧ m.pool.triggers = 0 ∨ ∃ k, m.rounds = [k] ∧ 0 < k ∧ k ≤ m.pool.triggers :=
  rounds_of_matching run.matching

theorem rounds_eq (run : Run e past m) (member : k ∈ m.rounds) : m.rounds = [k] := by
  obtain ⟨none, _⟩ | ⟨j, one, _⟩ := run.rounds
  · simp [none] at member
  · rw [one, List.mem_singleton] at member
    rw [one, member]

theorem rounds_of_ends (run : Run e past m) (ends : m.Ends k) : m.rounds = [k] := by
  obtain ⟨below, top⟩ := ends
  exact run.rounds_eq (mem_rounds.2 ⟨.again k, by simp [activities, top], rfl⟩)

theorem rounds_of_begins (run : Run e past m) (begins : m.begins? = some k) :
    (m.step e).rounds = [k] := by
  refine run.step.rounds_eq ?_
  unfold begins? at begins
  split at begins
  · next rest top =>
      split at begins
      · next idle =>
          obtain rfl := Option.some.inj begins
          simp only [Machine.step, top, exec, trigger, idle, if_true]
          exact mem_rounds_push _ rfl
      · cases begins
  · next j rest top =>
      split at begins
      · cases begins
      · next left =>
          obtain rfl := Option.some.inj begins
          simp only [Machine.step, top, exec, again, left, if_false]
          exact mem_rounds_push _ rfl
  · cases begins

/-- A call for matching that comes while a matching is in progress returns at once. -/
theorem trigger_step {rest : List Activity} (top : m.stack = .trigger :: rest)
    (busy : m.pool.triggers ≠ 0) : m.step e =
      { m with stack := rest, pool := { m.pool with triggers := m.pool.triggers + 1 } } := by
  simp only [Machine.step, top, exec, trigger, busy, if_false, withPool]

/-- A round goes on until it is over, and no call is forgotten meanwhile. -/
theorem round_goesOn (run : Run e past m) (one : m.rounds = [k]) (going : ∀ j, ¬m.Ends j) :
    (m.step e).rounds = [k] ∧ m.pool.triggers ≤ (m.step e).pool.triggers := by
  cases top : m.stack with
  | nil =>
      rw [Machine.step, top]
      exact ⟨one, le_rfl⟩
  | cons a rest =>
      by_cases calls : a = .trigger
      · subst calls
        have busy : m.pool.triggers ≠ 0 := by
          obtain ⟨none, _⟩ | ⟨j, _, positive, bound⟩ := run.rounds
          · simp [none] at one
          · omega
        rw [trigger_step top busy]
        refine ⟨?_, Nat.le_succ _⟩
        rw [← one, Machine.rounds, Machine.rounds, activities, activities, top]
        rfl
      · have ends : ∀ j, a ≠ .again j := fun j ended => going j ⟨rest, ended ▸ top⟩
        have next : m.step e = ({ m with stack := rest } : Machine σ).exec e a := by
          rw [Machine.step, top]
        refine ⟨run.step.rounds_eq ?_, ?_⟩
        · obtain ⟨b, member, works⟩ := mem_rounds.1 (one ▸ List.mem_singleton_self k)
          rw [activities, top] at member
          obtain rfl | below := List.mem_cons.1 member
          · exact next ▸ mem_rounds_exec _ works ends
          · obtain ⟨as, perm, _⟩ := (step_turn (e := e) top).perm
            exact mem_rounds.2 ⟨b, perm.mem_iff.2 (List.mem_append_right _ below), works⟩
        · exact (next ▸ exec_triggers _ a calls ends).ge

/-- Between two steps no round begins or ends. -/
theorem last_rounds (run : Run e (n :: past) m) :
    m.pool.triggers = (n.step e).pool.triggers ∧ m.rounds = (n.step e).rounds := by
  generalize whole : n :: past = all at run
  induction run with
  | start => cases whole
  | ask op run idle ih => exact ih whole
  | threads run idle onThreads ih => exact ih whole
  | step run =>
      obtain ⟨rfl, rfl⟩ := List.cons.inj whole
      exact ⟨rfl, rfl⟩

/-- What became of a call for matching that was only counted. -/
inductive Noticed (later : List (Machine σ)) (m : Machine σ) : Prop
  /-- The round in progress does not answer it, so another one will begin. -/
  | waits {k : Nat} (one : m.rounds = [k]) (more : k < m.pool.triggers)
      (busy : ∀ u ∈ later, u.rounds ≠ [])
  /-- A round began after it. -/
  | answers {k : Nat} {between before : List (Machine σ)} {b : Machine σ}
      (parts : later = between ++ b :: before) (begins : b.begins? = some k)
      (goesOn : ∀ u ∈ between, u.rounds = [k] ∧ ∀ j, ¬u.Ends j) (one : m.rounds = [k])
      (busy : ∀ u ∈ later, u.rounds ≠ [])
  /-- The matching ended after a whole round that began after it. -/
  | answered {k : Nat} {after between before : List (Machine σ)} {r b : Machine σ}
      (parts : later = after ++ r :: (between ++ b :: before)) (whole : WholeRound k r between b)
      (last : r.pool.triggers = k) (busy : ∀ u ∈ between ++ b :: before, u.rounds ≠ [])

/-- The next round begins where the last one is over, and answers all calls that came meanwhile. -/
theorem begins_of_ends {j : Nat} (ends : m.Ends j) (left : m.pool.triggers - j ≠ 0) :
    m.begins? = some (m.pool.triggers - j) := by
  obtain ⟨below, top⟩ := ends
  simp only [begins?, top]
  exact if_neg left

theorem noticed {rest : List Activity} (run : Run e (later ++ n :: earlier) m)
    (calls : n.stack = .trigger :: rest) (busy : n.pool.triggers ≠ 0) : Noticed later m := by
  induction later generalizing m with
  | nil =>
      obtain ⟨triggers, rounds⟩ := run.last_rounds
      obtain ⟨_, quiet⟩ | ⟨k, one, _, bound⟩ := run.before.rounds
      · exact absurd quiet busy
      · have goesOn := run.before.round_goesOn one fun j ends => by
          obtain ⟨below, ended⟩ := ends
          simp [calls] at ended
        refine .waits (k := k) (rounds.trans goesOn.1) ?_ (by simp)
        rw [triggers, trigger_step calls busy]
        exact Nat.lt_succ_of_le bound
  | cons u later ih =>
      obtain ⟨triggers, rounds⟩ := run.last_rounds
      have here := run.before
      have answers {j : Nat} (ends : u.Ends j) (left : u.pool.triggers - j ≠ 0)
          (busy : ∀ v ∈ u :: later, v.rounds ≠ []) : Noticed (u :: later) m := by
        have begins := begins_of_ends ends left
        have parts : u :: later = [] ++ u :: later := rfl
        exact .answers parts begins (by simp) (rounds.trans (here.rounds_of_begins begins)) busy
      cases ih here with
      | @waits k one more busy =>
          have busy : ∀ v ∈ u :: later, v.rounds ≠ [] :=
            List.forall_mem_cons.2 ⟨by simp [one], busy⟩
          by_cases ends : ∃ j, u.Ends j
          · obtain ⟨j, ends⟩ := ends
            obtain rfl : k = j := by simpa [one] using here.rounds_of_ends ends
            exact answers ends (Nat.sub_ne_zero_of_lt more) busy
          · obtain ⟨goesOn, kept⟩ := here.round_goesOn one (not_exists.1 ends)
            exact .waits (rounds.trans goesOn) (triggers ▸ more.trans_le kept) busy
      | @answers k between before b parts begins goesOn one busy =>
          subst parts
          by_cases ends : ∃ j, u.Ends j
          · obtain ⟨j, ends⟩ := ends
            obtain rfl : k = j := by simpa [one] using here.rounds_of_ends ends
            by_cases left : u.pool.triggers - k = 0
            · have bound : k ≤ u.pool.triggers := by
                obtain ⟨none, _⟩ | ⟨i, same, _, bound⟩ := here.rounds
                · simp [none] at one
                · obtain rfl : i = k := by simpa [same] using one
                  exact bound
              have parts : u :: (between ++ b :: before) =
                  [] ++ u :: (between ++ b :: before) := rfl
              exact .answered parts ⟨begins, goesOn, ends⟩ (by omega) busy
            · exact answers ends left (List.forall_mem_cons.2 ⟨by simp [one], busy⟩)
          · have going := not_exists.1 ends
            have parts : u :: (between ++ b :: before) = (u :: between) ++ b :: before := rfl
            exact .answers parts begins (List.forall_mem_cons.2 ⟨⟨one, going⟩, goesOn⟩)
              (rounds.trans (here.round_goesOn one going).1)
              (List.forall_mem_cons.2 ⟨by simp [one], busy⟩)
      | @answered k after between before r b parts whole last busy =>
          have parts : u :: later = (u :: after) ++ r :: (between ++ b :: before) := parts ▸ rfl
          exact .answered parts whole last busy

/-- At most one round of matching is in progress, and calls are counted exactly meanwhile, so none
is counted when nothing is in progress. A call that comes while a matching is in progress returns at
once, and that matching does not end without a whole round that begins after the call. -/
theorem single_flight (run : Run e past m) :
    (m.rounds = [] ∧ m.pool.triggers = 0 ∨ ∃ k, m.rounds = [k] ∧ 0 < k ∧ k ≤ m.pool.triggers) ∧
      (m.AtRest → m.pool.triggers = 0) ∧
      ∀ later n earlier rest, past = later ++ n :: earlier → n.stack = .trigger :: rest →
        n.pool.triggers ≠ 0 →
        (n.step e).stack = rest ∧ (n.step e).rounds = n.rounds ∧
          (m.rounds = [] → ∃ k after r between b before,
            later = after ++ r :: (between ++ b :: before) ∧ WholeRound k r between b ∧
              r.pool.triggers = k ∧ ∀ u ∈ between ++ b :: before, u.rounds ≠ []) := by
  refine ⟨run.rounds, fun rest => ?_, fun later n earlier rest parts calls busy => ?_⟩
  · have none : m.rounds = [] := by rw [Machine.rounds, rest, List.filterMap_nil]
    obtain ⟨_, quiet⟩ | ⟨k, one, _⟩ := run.rounds
    · exact quiet
    · simp [none] at one
  · subst parts
    refine ⟨?_, ?_, fun ended => ?_⟩
    · rw [trigger_step calls busy]
    · rw [trigger_step calls busy, Machine.rounds, Machine.rounds, activities, activities, calls]
      rfl
    · cases run.noticed calls busy with
      | waits one | answers _ _ _ one => simp [ended] at one
      | @answered k after between before r b parts whole last busy =>
          exact ⟨k, after, r, between, b, before, parts, whole, last, busy⟩

/-- While the factory makes a resource for one request, another request calls for matching. -/
theorem single_flight_nested : ∃ (past later earlier : List (Machine Bench.Rig))
    (m n : Machine Bench.Rig) (rest : List Activity),
    Run Bench.environment past m ∧ past = later ++ n :: earlier ∧ n.stack = .trigger :: rest ∧
      n.pool.triggers = 1 ∧ m.AtRest ∧ m.pool.triggers = 0 ∧
      (n.step Bench.environment).stack = rest ∧ ∃ k after r between b before,
        later = after ++ r :: (between ++ b :: before) ∧ WholeRound k r between b ∧
          r.pool.triggers = k ∧ ∀ u ∈ between ++ b :: before, u.rounds ≠ [] := by
  have start := hooked (c := { maxSize := 1 }) rfl [⟨.create, 0, [.acquire 1]⟩]
  have called := (start.ask (.acquire 0) rfl).steps 7
  have ended := called.step.steps 40
  obtain ⟨_, atRest, missed⟩ := ended.single_flight
  obtain ⟨atOnce, _, served⟩ := missed _ _ _ _ rfl rfl (by decide)
  exact ⟨_, _, _, _, _, _, ended, rfl, rfl, rfl, rfl, atRest rfl, atOnce, served rfl⟩

end Run
end ResourcePool
