import ResourcePool.Proofs.Creations
import ResourcePool.Proofs.Partition
import ResourcePool.Proofs.Potential
import ResourcePool.Proofs.Strokes

/-!
Slots that could not be filled. A failure is told to the one waiter for whom the resource was to be
made, and leaves everything else as it was; the slot is free again. Each call for a new resource is
answered by a resource or by a failure, and how many slots can be filled depends on the resources
made and given up only, not on the failures in between.
-/

namespace ResourcePool

attribute [-simp] Multiset.singleton_add

namespace Deed

/-- A call for a new resource is answered: it was made, or it was not. -/
@[simp] def isAnswer : Deed → Bool
  | created .. | fate _ (.creationFailed ..) => true
  | _ => false

/-- The waiter that is told of a failure, the slot that could not be filled, and why. -/
@[simp] def failure? : Deed → Option (Nat × Nat × Failure)
  | fate w (.creationFailed slot cause) => some (w, slot, cause)
  | _ => none

end Deed

namespace History

def failures (h : History) : List (Nat × Nat × Failure) :=
  h.filterMap Deed.failure?

theorem countP_isAnswer (h : History) :
    h.countP Deed.isAnswer = h.creations.length + h.failures.length := by
  induction h with
  | nil => rfl
  | cons d h ih =>
      rw [List.countP_cons, ih, creations_cons, failures, failures, List.filterMap_cons]
      cases d with
      | fate w f => cases f <;> simp; omega
      | created id slot => simp; omega
      | _ => simp

end History

/-- A call for a new resource is in progress. -/
@[simp] def Activity.fills : Activity → Nat
  | answer (.create ..) => 1
  | _ => 0

theorem Activity.fills_of_isBare {a : Activity} (bare : a.isBare = true) : a.fills = 0 := by
  cases a <;> simp_all

namespace Pool

/-- The waiter is told that the slot could not be filled, and the slot is free again. -/
structure Excuses (p q : Pool) (w : Nat) (r : Reservation) (cause : Failure) : Prop where
  config : q.config = p.config
  slots : q.slots = p.slots
  created : q.created = p.created
  returned : q.returned = p.returned
  registry : q.registry = p.registry
  triggers : q.triggers = p.triggers
  cursor : q.cursor = p.cursor
  closed : q.closed = p.closed
  told : ∃ x, p.waiters[w]? = some x ∧ x.state ≠ .pending ∧ x.line = .silent ∧
    q.waiters[w]? = some { x with
      line := if x.listening then .sent (.error (.creationFailed r.slot cause)) else .over }
  others : ∀ v ≠ w, q.waiters[v]? = p.waiters[v]?
  empty : q.Has r.slot .uninitialized
  freed : match r with
    | .vacated s => s ∉ p.vacated ∧ q.vacated = p.vacated ++ [s]
    | .fresh s => s = q.created ∧ q.vacated = p.vacated

theorem complete_waiters {p : Pool} {w : Nat} {x : Waiter Outcome}
    (found : p.waiters[w]? = some x) (o : Outcome) :
    (p.complete w o).2.waiters = p.waiters.modify w fun _ => (x.complete o).2 := by
  simp [complete, waiter?, found, modifyWaiter]

theorem excuses_complete {p : Pool} {w : Nat} {r : Reservation} {x : Waiter Outcome}
    (found : p.waiters[w]? = some x) (claimed : x.state ≠ .pending) (silent : x.line = .silent)
    (empty : p.Has r.slot .uninitialized) (next : ∀ s, r = .fresh s → s = p.created)
    (apart : ∀ s, r = .vacated s → s ∉ p.vacated) (cause : Failure) :
    p.Excuses ((p.unreserve r).complete w (.error (.creationFailed r.slot cause))).2 w r cause := by
  have line := p.unreserve_sameLine r
  have stock := (p.unreserve r).complete_sameStock w (.error (.creationFailed r.slot cause))
  have waiters := complete_waiters (line.waiters ▸ found) (.error (.creationFailed r.slot cause))
  rw [line.waiters] at waiters
  have slots := stock.slots
  have created := stock.created
  have kept : (p.unreserve r).slots = p.slots ∧ (p.unreserve r).created = p.created ∧
      (p.unreserve r).returned = p.returned := by
    cases r <;> exact ⟨rfl, rfl, rfl⟩
  rw [kept.1] at slots
  rw [kept.2.1] at created
  constructor
  case config => exact stock.config.trans line.config
  case slots => exact slots
  case created => exact created
  case returned => exact stock.returned.trans kept.2.2
  case registry => exact (complete_registry ..).trans line.registry
  case triggers => exact stock.triggers.trans line.triggers
  case cursor => exact (complete_cursor ..).trans line.cursor
  case closed => exact stock.closed.trans line.closed
  case told =>
    refine ⟨x, found, claimed, silent, ?_⟩
    rw [waiters, List.getElem?_modify_eq, found]
    unfold Waiter.complete
    split <;> rfl
  case others =>
    intro v other
    simp [waiters, Ne.symm other]
  case empty => exact empty.frame slots
  case freed =>
    cases r with
    | vacated s => exact ⟨apart s rfl, stock.vacated⟩
    | fresh s => exact ⟨(next s rfl).trans created.symm, stock.vacated⟩

end Pool

namespace Machine

variable {σ : Type} {e : Environment σ} {m : Machine σ}

theorem step_of_failure {n w : Nat} {r : Reservation} {rest : List Activity} {cause : Failure}
    (top : m.stack = .answer (.create n w r) :: rest) (awaited : m.background.holdsBack = false)
    (fails : (e.create r.slot m.env).1 = some cause) :
    (m.step e).pool =
        ((m.pool.unreserve r).complete w (.error (.creationFailed r.slot cause))).2 ∧
      (m.step e).tasks = m.tasks ∧ (m.step e).handles = m.handles ∧ (m.step e).made = m.made ∧
      m.deeds e = [.fate w (.creationFailed r.slot cause)] := by
  have deeds : m.deeds e = [.fate w (.creationFailed r.slot cause)] := by
    simp [Machine.deeds, top, deedsOf, deedsOfCreation, awaited, fails]
  have next : m.step e = ({ m with stack := rest } : Machine σ).created e n w r := by
    simp [Machine.step, top, exec, answered, awaited]
  rw [next, deeds]
  unfold created
  cases answer : e.create r.slot m.env with
  | mk failure env =>
      obtain rfl : failure = some cause := by rw [answer] at fails; exact fails
      exact ⟨rfl, rfl, rfl, rfl, rfl⟩

/-- Only the answer to a call for a new resource is recorded as one. -/
theorem countP_deedsOf (m : Machine σ) {a : Activity}
    (other : ∀ n w r, a ≠ .answer (.create n w r)) :
    (m.deedsOf e a).countP Deed.isAnswer = 0 := by
  have withdrawal (a : Acquire) : (m.withdrawal a).countP Deed.isAnswer = 0 := by
    unfold withdrawal
    split <;> rfl
  have sight (w : Nat) : (m.sight w).countP Deed.isAnswer = 0 := by
    unfold sight
    cases (m.look w).1 <;> rfl
  cases a with
  | perform op =>
      simp only [deedsOf, deedsOfOp]
      split
      · split
        · exact withdrawal _
        · rfl
      · split
        · exact sight _
        · exact sight _
        · rfl
      · split <;> rfl
      · split
        · split <;> rfl
        · rfl
      · rfl
  | acquire purpose =>
      simp only [deedsOf]
      split <;> rfl
  | acquired a purpose =>
      cases purpose with
      | get k => exact sight _
      | _ => rfl
  | quit a => exact withdrawal a
  | task t =>
      simp only [deedsOf]
      split <;> rfl
  | flush who failures =>
      simp only [deedsOf]
      split
      · simp [List.countP_map, Function.comp_def]
      · rfl
  | call c => cases c <;> rfl
  | answer c =>
      cases c with
      | create n w r => exact absurd rfl (other n w r)
      | _ => rfl
  | _ => rfl

theorem Sequel.fills {a b : Activity} {as : List Activity} {l : List Item} {c : Bool}
    (sequel : m.Sequel e a as l c) (other : ∀ n w r, a ≠ .call (.create n w r)) (member : b ∈ as) :
    b.fills = 0 := by
  cases sequel with
  | bare _ _ bare | store _ _ _ bare => exact Activity.fills_of_isBare (bare b member)
  | @begin c ops =>
      obtain ⟨op, rfl⟩ | rfl | rfl := mem_begun member
      · rfl
      · rfl
      · cases c with
        | create n w r => exact absurd rfl (other n w r)
        | _ => rfl
  | stop => obtain ⟨i, rfl⟩ | rfl | rfl := mem_stopped member <;> rfl
  | leave => cases member
  | lend | made | report | wreck | close =>
      simp only [List.mem_cons, List.not_mem_nil, or_false] at member
      obtain rfl | rfl := member <;> rfl
  | _ =>
      obtain rfl := List.mem_singleton.1 member
      rfl

theorem total_fills_of_bare {as : List Activity} (none : ∀ b ∈ as, b.fills = 0) :
    total Activity.fills as = 0 := by
  induction as with
  | nil => rfl
  | cons a as ih =>
      rw [total_cons, none a (List.mem_cons_self ..), ih fun b member =>
        none b (List.mem_cons_of_mem a member)]

theorem total_perm {f : Activity → Nat} {as bs : List Activity} (perm : as.Perm bs) :
    total f as = total f bs :=
  (perm.map f).sum_eq

theorem fills_call {n w : Nat} {r : Reservation} {rest : List Activity}
    (top : m.stack = .call (.create n w r) :: rest) :
    total Activity.fills (m.step e).activities = total Activity.fills (rest ++ m.paused) + 1 := by
  have none : total Activity.fills (nested m.reply (e.enter (.create r.slot) m.env).1) = 0 :=
    total_fills_of_bare fun b member => by
      obtain ⟨op, rfl⟩ | rfl := nested_of_mem member <;> rfl
  rw [Machine.step, top]
  simp only [exec, call, announce, push, note, activities, List.append_assoc, total_append,
    Call.moment, none, List.singleton_append, total_cons, Activity.fills]
  omega

theorem fills_answer {n w : Nat} {r : Reservation} {rest : List Activity}
    (top : m.stack = .answer (.create n w r) :: rest) :
    total Activity.fills (m.step e).activities + (m.deeds e).countP Deed.isAnswer =
      total Activity.fills (rest ++ m.paused) + 1 := by
  cases back : m.background.holdsBack with
  | true =>
      have next : m.step e = ({ m with stack := rest } : Machine σ).hold e (.create n w r) := by
        simp [Machine.step, top, exec, answered, back]
      have deeds : m.deeds e = [] := by
        simp [Machine.deeds, top, deedsOf, deedsOfCreation, back]
      rw [next, total_hold, deeds, List.countP_nil, Activity.fills]
      exact Nat.add_comm 1 _
  | false =>
      have next : m.step e = ({ m with stack := rest } : Machine σ).created e n w r := by
        simp [Machine.step, top, exec, answered, back]
      have one : (m.deeds e).countP Deed.isAnswer = 1 := by
        simp only [Machine.deeds, top, deedsOf, deedsOfCreation, back]
        cases (e.create r.slot m.env).1 <;> rfl
      obtain ⟨as, stack, paused, _, sequel⟩ :=
        created_leaves (e := e) (m := { m with stack := rest }) n w r
      have new : total Activity.fills as = 0 :=
        total_fills_of_bare fun b member => sequel.fills (by simp) member
      rw [next, one, activities, stack, paused, List.append_assoc, total_append, new, Nat.zero_add]

/-- A call begins, or is answered, or neither. -/
theorem fills_step {a : Activity} {rest : List Activity} (top : m.stack = a :: rest) :
    total Activity.fills (m.step e).activities + (m.deeds e).countP Deed.isAnswer =
      total Activity.fills m.activities + m.asks?.toList.length := by
  have parts : total Activity.fills m.activities =
      a.fills + total Activity.fills (rest ++ m.paused) := by
    rw [activities, top, List.cons_append, total_cons]
  by_cases begins : ∃ n w r, a = .call (.create n w r)
  · obtain ⟨n, w, r, rfl⟩ := begins
    have deeds : m.deeds e = [] := by
      rw [deeds, top]
      rfl
    have asks : m.asks? = some (w, r) := by rw [asks?, top]
    rw [fills_call top, deeds, asks, parts]
    simp
  have asks : m.asks? = none := by
    unfold asks?
    split
    · next calls => exact absurd ⟨_, _, _, (List.cons.inj (top.symm.trans calls)).1⟩ begins
    · rfl
  rw [asks, parts]
  by_cases answers : ∃ n w r, a = .answer (.create n w r)
  · obtain ⟨n, w, r, rfl⟩ := answers
    rw [fills_answer top]
    exact Nat.add_comm ..
  · have none : (m.deeds e).countP Deed.isAnswer = 0 := by
      rw [deeds, top]
      exact countP_deedsOf _ fun n w r same => answers ⟨n, w, r, same⟩
    obtain ⟨as, perm, sequel | ⟨stopped, _⟩⟩ := (step_turn (e := e) top).perm
    · have new : total Activity.fills as = 0 := total_fills_of_bare fun b member =>
        sequel.fills (fun n w r same => begins ⟨n, w, r, same⟩) member
      have quiet : a.fills = 0 := by
        cases a with
        | answer c =>
            cases c with
            | create n w r => exact absurd ⟨n, w, r, rfl⟩ answers
            | _ => rfl
        | _ => rfl
      rw [none, total_perm perm, total_append, new, quiet]
      rfl
    · exact absurd stopped answers

end Machine

namespace Run

open Machine

variable {σ : Type} {e : Environment σ} {past : List (Machine σ)} {m : Machine σ}

/-- A failed call tells its own waiter and frees the slot. -/
theorem excuses_step (run : Run e past m) {n w : Nat} {r : Reservation} {rest : List Activity}
    {cause : Failure} (top : m.stack = .answer (.create n w r) :: rest)
    (awaited : m.background.holdsBack = false)
    (fails : (e.create r.slot m.env).1 = some cause) :
    m.pool.Excuses (m.step e).pool w r cause := by
  have member : .answer (.create n w r) ∈ m.activities := by simp [activities, top]
  have sends : .sender w [] ∈ m.assets := mem_assets member (by simp)
  have fills : .matcher n (.filling r) ∈ m.assets := mem_assets member (by simp)
  obtain ⟨x, found, claimed, silent, _⟩ := run.sender sends
  have single := (run.step (e := e)).stocked.single
  rw [(step_of_failure top awaited fails).1] at single ⊢
  refine Pool.excuses_complete found claimed silent (run.vacant fills) ?_ ?_ cause
  · rintro s rfl
    exact (run.sound.fresh n s (by simpa [books] using mem_matchings.2 fills)).1
  · rintro s rfl inside
    -- The queue would hold the slot twice.
    have queue := (Pool.complete_sameStock (m.pool.unreserve (.vacated s)) w
      (.error (.creationFailed s cause))).vacated
    have once := (List.nodup_append.1 single).1
    rw [Reservation.slot, queue] at once
    exact (List.nodup_append.1 once).2.2 s inside s (List.mem_singleton_self s) rfl

/-- Each call for a new resource is in progress or was answered. -/
theorem length_asked (run : Run e past m) : (asked past).length =
    (history e past).countP Deed.isAnswer + total Activity.fills m.activities := by
  refine run.byTurns (I := fun past m => (asked past).length =
    (history e past).countP Deed.isAnswer + total Activity.fills m.activities)
    (fun _ stack paused => ?_) (fun {past m} a stack bare before => ?_)
    (fun {past m} stack before => ?_) fun {past m a rest} run top turn before => ?_
  · simp [asked, activities, stack, paused]
  · rw [before, activities, activities, push, List.singleton_append, List.cons_append, total_cons,
      Activity.fills_of_isBare bare, Nat.zero_add]
  · have asks : m.asks? = none := by rw [asks?, stack]
    have deeds : m.deeds e = [] := by rw [deeds, stack]
    rw [asked, List.filterMap_cons_none asks, history_cons, deeds]
    exact before
  · have step := fills_step (e := e) top
    rw [asked, filterMap_cons_toList, List.length_append, history_cons, List.countP_append]
    rw [asked] at before
    omega

end Run

/-- One for a slot that no resource fills. -/
def Slot.vacancy (s : Slot) : Nat :=
  if s.state = .uninitialized then 1 else 0

/-- Slots are used up by new resources, and free again when a resource is closed or kept by its
holder. -/
theorem Passes.vacancies {ss ts : List Slot} {l : Ledger} (passes : Passes ss l ts) :
    (ts.map Slot.vacancy).sum + (l.slots .create).length =
      (ss.map Slot.vacancy).sum + (l.slots .retire).length + (l.slots .detach).length := by
  induction passes with
  | refl => rfl
  | @pass l ts i x s _ found fits ih =>
      have changed := sum_map_set Slot.vacancy found (x.pass s)
      have before : s.vacancy = if x = .create then 1 else 0 := by
        rw [Slot.vacancy, fits]
        cases x <;> rfl
      have after : (x.pass s).vacancy = if x = .retire ∨ x = .detach then 1 else 0 := by
        cases x <;> rfl
      cases x <;> simp [before, after] at changed ⊢ <;> omega

theorem sum_vacancy (ss : List Slot) :
    (ss.map Slot.vacancy).sum = ss.countP fun t => t.state = .uninitialized := by
  induction ss with
  | nil => rfl
  | cons t ss ih =>
      rw [List.map_cons, List.sum_cons, ih, List.countP_cons, Nat.add_comm, Slot.vacancy]
      simp

namespace Run

open Machine

variable {σ : Type} {e : Environment σ} {past : List (Machine σ)} {m : Machine σ}

/-- When nothing is in progress, every slot without a resource can be filled. -/
theorem mem_free (run : Run e past m) (rest : m.AtRest) (s : Nat) :
    s ∈ m.pool.free ↔ m.pool.Has s .uninitialized := by
  refine ⟨run.stocked.vacant s, fun ⟨inside, empty⟩ => ?_⟩
  obtain ⟨place, here⟩ := run.inPlace rest s
  rw [here.state] at empty
  rw [Pool.free, List.mem_append, List.mem_range'_1]
  cases place with
  | blank =>
      have beyond := Nat.le_of_not_lt (mt here.filled.1 (by simp))
      exact .inr ⟨beyond, by omega⟩
  | vacant => exact .inl (here.mem_vacated.2 rfl)
  | idle | lent | shut => cases empty

theorem length_free (run : Run e past m) (rest : m.AtRest) : m.pool.free.length +
    (history e past).creations.length = m.pool.config.maxSize +
      ((ledger e past).slots .retire).length + ((ledger e past).slots .detach).length := by
  have free : m.pool.free.Perm ((List.range m.pool.slots.length).filter fun s =>
      (m.pool.slot s).state = .uninitialized) := by
    refine (List.perm_ext_iff_of_nodup run.stocked.single (List.nodup_range.filter _)).2 fun s => ?_
    rw [run.mem_free rest, List.mem_filter, List.mem_range, decide_eq_true_eq]
    rfl
  have now : (m.pool.slots.map Slot.vacancy).sum = m.pool.free.length := by
    rw [sum_vacancy, free.length_eq]
    exact m.pool.countP_slots fun state => state = .uninitialized
  have start (k : Nat) : ((List.replicate k ({} : Slot)).map Slot.vacancy).sum = k := by
    rw [List.map_replicate, List.sum_replicate]
    exact Nat.mul_one k
  have vacancies := run.passes.vacancies
  rwa [now, start, run.slots_create, List.length_map] at vacancies

/-- A failed call for a new resource is told to its own waiter only, and the slot is free again.
When nothing is in progress, there were as many calls as resources made and failures told, every
empty slot can be filled, and how many these are depends on the resources made and given up only. -/
theorem failures_spare (run : Run e past m) :
    (∀ n w r rest cause, m.stack = .answer (.create n w r) :: rest →
      m.background.holdsBack = false → (e.create r.slot m.env).1 = some cause →
      m.pool.Excuses (m.step e).pool w r cause ∧ (m.step e).tasks = m.tasks ∧
        (m.step e).handles = m.handles ∧ (m.step e).made = m.made ∧
        m.deeds e = [.fate w (.creationFailed r.slot cause)]) ∧
      (m.AtRest →
        (asked past).length =
          (history e past).creations.length + (history e past).failures.length ∧
        m.pool.free.Nodup ∧ (∀ s, s ∈ m.pool.free ↔ m.pool.Has s .uninitialized) ∧
        m.pool.free.length + (history e past).creations.length = m.pool.config.maxSize +
          ((ledger e past).slots .retire).length + ((ledger e past).slots .detach).length) := by
  refine ⟨fun n w r rest cause top awaited fails => ?_, fun rest => ⟨?_, run.stocked.single,
    run.mem_free rest, run.length_free rest⟩⟩
  · exact ⟨run.excuses_step top awaited fails, (step_of_failure top awaited fails).2⟩
  · rw [run.length_asked, History.countP_isAnswer, rest]
    rfl

/-- The slot of a resource that its holder keeps can not be filled for a waiter, while another
request is made; it is filled for that one. -/
theorem failures_spare_retried : ∃ (past later : List (Machine Bench.Rig))
    (m n : Machine Bench.Rig) (rest : List Activity) (cause : Failure),
    Run Bench.environment past m ∧ m.stack = .answer (.create 1 1 (.vacated 0)) :: rest ∧
      m.background.holdsBack = false ∧
      (Bench.environment.create 0 m.env).1 = some cause ∧
      m.pool.Excuses (m.step Bench.environment).pool 1 (.vacated 0) cause ∧
      Run Bench.environment later n ∧ n.AtRest ∧
      (history Bench.environment later).failures = [(1, 0, cause)] ∧
      (asked later).length = 3 ∧ (history Bench.environment later).creations = [(1, 0), (0, 0)] ∧
      (asked later).length = (history Bench.environment later).creations.length +
        (history Bench.environment later).failures.length ∧
      (∀ s, s ∈ n.pool.free ↔ n.pool.Has s .uninitialized) ∧
      n.pool.free.length + (history Bench.environment later).creations.length =
        n.pool.config.maxSize + ((ledger Bench.environment later).slots .retire).length +
          ((ledger Bench.environment later).slots .detach).length := by
  have lent := ((hooked (c := { maxSize := 1 }) rfl [⟨.create, 1, [.acquire 2]⟩]).ask
    (.acquire 0) rfl).steps 40
  have shown := (((lent.ask (.run none) rfl).steps 40).ask (.poll 0) rfl).steps 40
  have kept := (((shown.ask (.detach 0) rfl).steps 40).ask (.tell (.failCreates 1)) rfl).steps 5
  have asked := kept.ask (.acquire 1) rfl
  have failing := asked.steps 13
  have ended := asked.steps 40
  obtain ⟨excuses, _⟩ := failing.failures_spare.1 1 1 (.vacated 0) _ _ rfl rfl rfl
  obtain ⟨answered, _, free, count⟩ := ended.failures_spare.2 rfl
  exact ⟨_, _, _, _, _, _, failing, rfl, rfl, rfl, excuses, ended, rfl, rfl, rfl, rfl, answered,
    free, count⟩

end Run
end ResourcePool
