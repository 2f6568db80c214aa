import ResourcePool.Proofs.AfterClose
import ResourcePool.Proofs.Partition
import ResourcePool.Proofs.Unheard

/-!
Resources on their way to somebody who left. A delivery to a waiter for whom nobody listens hands
its resource back when it runs, and so does a delivery that is given up before it ran. The resource
is idle again, and matching is called for, unless the check on its return finds it invalid and it is
retired; a closed pool passes it on for closing.
-/

namespace ResourcePool

attribute [-simp] Multiset.singleton_add

theorem Table.get?_of_mem {α : Type} {t : Table α} {key : Nat} {a : α}
    (member : (key, a) ∈ t.entries) : t.get? key = some a := by
  obtain ⟨before, after, parts⟩ := List.append_of_mem member
  have ascending := t.ascending
  rw [parts] at ascending
  refine List.lookup_eq_some_iff.2 ⟨before, after, parts, fun f inside => ?_⟩
  have below := (List.pairwise_append.1 ascending).2.2 f inside (key, a) (List.mem_cons_self ..)
  simpa using below.ne'

namespace Machine

variable {σ : Type} {e : Environment σ} {m : Machine σ}

/-- The delivery begins to run, or is given up before it ran. -/
def Disposes (m : Machine σ) (t : Task) : Prop :=
  (∃ rest, m.stack = .task t :: rest) ∨
    ∃ place rest, m.stack = .perform (.dropTask place) :: rest ∧
      m.scheduler.dispatcher = .manual ∧ m.tasks[place]? = some t

/-- The resource is idle after the step, and matching is called for. -/
def Restores (e : Environment σ) (m : Machine σ) (i : Item) : Prop :=
  i ∈ (m.step e).pool.returned ∧ ∃ below, (m.step e).stack = .trigger :: below

/-- In these steps the resource became idle again, or the check on its return found it invalid, and
it was retired. -/
def CameBack (e : Environment σ) (steps : List (Machine σ)) (i : Item) : Prop :=
  (∃ v ∈ steps, v.Restores e i) ∨
    (∃ v ∈ steps, v.Rejects e i .checkin) ∧ (∃ v ∈ steps, v.Closes i (.invalid .checkin)) ∧
      ∃ v ∈ steps, v.Retires e i .checkin

theorem CameBack.mono {k l : List (Machine σ)} {i : Item} (back : CameBack e k i)
    (part : ∀ v ∈ k, v ∈ l) : CameBack e l i := by
  obtain ⟨v, member, restores⟩ | ⟨⟨v, there, rejects⟩, ⟨u, inside, closes⟩, x, last, retires⟩ :=
    back
  · exact .inl ⟨v, part v member, restores⟩
  · exact .inr ⟨⟨v, part v there, rejects⟩, ⟨u, part u inside, closes⟩, x, part x last, retires⟩

theorem giveBack_step {i : Item} {rest : List Activity} (top : m.stack = .giveBack i :: rest)
    (fits : m.pool.takeBack? i.slot ≠ none) :
    m.Restores e i ∨ (m.step e).stack = .call (.validate i .checkin) :: rest := by
  obtain ⟨p, taken⟩ := Option.ne_none_iff_exists'.1 fits
  unfold Restores
  simp only [step, top, exec, giveBack, taken]
  split
  · exact .inr rfl
  · exact .inl ⟨List.mem_append_right _ (List.mem_singleton_self _), rest, rfl⟩

theorem checked_step {i : Item} {rest : List Activity}
    (top : m.stack = .answer (.validate i .checkin) :: rest) : m.Restores e i ∨
      m.Rejects e i .checkin ∧ (m.step e).stack = .call (.close i (.invalid .checkin)) :: rest := by
  unfold Restores Rejects
  cases valid : (e.validate i.resource m.env).1 with
  | true =>
      refine .inl ?_
      simp only [step, top, exec, answered, validated, valid]
      exact ⟨List.mem_append_right _ (List.mem_singleton_self _), rest, rfl⟩
  | false =>
      refine .inr ⟨⟨⟨rest, top⟩, rfl⟩, ?_⟩
      simp only [step, top, exec, answered, validated, valid]
      rfl

/-- The resource is handed back at once, unless the pool is open and the delivery runs. -/
theorem Disposes.left {t : Task} (disposes : m.Disposes t) :
    (∃ rest, (m.step e).stack = .giveBack t.item :: rest) ∨
      m.pool.closed = false ∧ ∃ rest, (m.step e).stack = .deliver t :: rest := by
  obtain ⟨rest, top⟩ | ⟨place, rest, top, manual, queued⟩ := disposes
  · cases closed : m.pool.closed with
    | true => exact .inl ⟨_, by simp only [step, top, exec, runTask, closed, if_true]; rfl⟩
    | false => exact .inr ⟨rfl, _, by simp only [step, top, exec, runTask, closed]; rfl⟩
  · exact .inl ⟨_, by simp only [step, top, exec, perform, onTask, manual, queued]; rfl⟩

end Machine

namespace Run

open Machine

variable {σ : Type} {e : Environment σ} {past later earlier : List (Machine σ)} {m n : Machine σ}

/-- What is left to be done was carried out when everything is at rest. -/
theorem carried_out (run : Run e past m) (parts : past = later ++ n :: earlier) {a : Activity}
    (member : a ∈ (n.step e).activities) (still : m.AtRest) :
    ∃ after v before rest, later = after ++ v :: before ∧
      past = after ++ v :: (before ++ n :: earlier) ∧ v.stack = a :: rest := by
  obtain ⟨v, inside, rest, top⟩ := (run.waits_or_done parts member).resolve_left fun member => by
    rw [still] at member
    cases member
  obtain ⟨after, before, rfl⟩ := List.append_of_mem inside
  exact ⟨after, v, before, rest, rfl, by simp [parts], top⟩

/-- What is handed back comes back before everything is at rest. -/
theorem comes_back (run : Run e past m) (parts : past = later ++ n :: earlier) {i : Item}
    (member : .giveBack i ∈ (n.step e).activities) (still : m.AtRest) : CameBack e later i := by
  obtain ⟨after, v, before, rest, rfl, parts, top⟩ := run.carried_out parts member still
  have there := run.before_of_append parts
  obtain restores | calls := giveBack_step (e := e) top (there.takeBack_isSome top)
  · exact .inl ⟨v, by simp, restores⟩
  -- The resource is checked first, and either is idle then or is closed.
  obtain ⟨after, u, _, _, rfl, parts, top⟩ :=
    run.carried_out parts (a := .call (.validate i .checkin)) (by simp [activities, calls]) still
  obtain ⟨after, x, _, _, rfl, parts, top⟩ :=
    run.carried_out parts (answer_mem top) still
  obtain restores | ⟨rejects, calls⟩ := checked_step (e := e) top
  · exact .inl ⟨x, by simp, restores⟩
  obtain ⟨after, y, _, below, rfl, parts, top⟩ :=
    run.carried_out parts (a := .call (.close i (.invalid .checkin)))
      (by simp [activities, calls]) still
  obtain ⟨z, inside, retires⟩ := run.retired parts ⟨below, top⟩ still
  exact .inr ⟨⟨x, by simp, rejects⟩, ⟨y, by simp, below, top⟩, z, by simp [inside], retires⟩

/-- A delivery that nobody listens for hands its resource back. -/
theorem deliver_unheard (run : Run e past m) {t : Task} {rest : List Activity} {seen : List Outcome}
    (top : m.stack = .deliver t :: rest)
    (unheard : (m.books 0 (history e past)).Unheard t.waiter seen) :
    .giveBack t.item ∈ (m.step e).activities := by
  have sends : .sender t.waiter [.delivered t.item, .entrusted t.item] ∈ m.assets :=
    mem_assets (a := .deliver t) (by simp [activities, top]) (by simp)
  obtain ⟨x, found, _⟩ := run.sender sends
  have senders : ((m.books 0 (history e past)).ties t.waiter).senders ≠ 0 := by
    intro none
    have inside : _ ∈ ((m.books 0 (history e past)).ties t.waiter).senders :=
      (Multiset.mem_filterMap ..).2 ⟨_, by simpa [Machine.books] using sends, by simp; rfl⟩
    simp [none] at inside
  obtain ⟨_, deaf⟩ := ((run.standing found).of_unheard unheard.listeners).2.2 senders
  simp [activities, Machine.step, top, exec, complete, Pool.complete, Pool.waiter?, found,
    Waiter.complete, deaf, push]

/-- A delivery that ran or was given up is not queued any more. -/
theorem undelivered (run : Run e past m) (still : m.AtRest) {w : Nat} {f : Fate}
    (decided : (history e past).fates w = f.course) (ended : f.delivery? = none) :
    ∀ t ∈ m.tasks, t.waiter ≠ w := by
  have queued := (run.resolved_of_fates still decided).queued
  simpa [ended] using queued

theorem comes_back_of_disposes (run : Run e past m) (parts : past = later ++ n :: earlier)
    {t : Task} (disposes : n.Disposes t) {seen : List Outcome}
    (unheard : (n.books 0 (history e earlier)).Unheard t.waiter seen) (still : m.AtRest) :
    CameBack e later t.item := by
  obtain ⟨rest, stack⟩ | ⟨_, rest, stack⟩ := disposes.left (e := e)
  · exact run.comes_back parts (by simp [activities, stack]) still
  · -- The delivery runs in an open pool, and is handed back since nobody takes it.
    obtain ⟨after, v, before, below, rfl, parts, top⟩ :=
      run.carried_out parts (a := .deliver t) (by simp [activities, stack]) still
    have there := run.before_of_append parts
    have unheard := there.unheard rfl
      ((there.before_of_append rfl).keepsNext (fun move => move.unheard) unheard)
    exact (run.comes_back parts (there.deliver_unheard top unheard) still).mono
      fun _ member => List.mem_append_left _ member

theorem decided_of_disposes (run : Run e past m) (parts : past = later ++ n :: earlier) {t : Task}
    (disposes : n.Disposes t) (still : m.AtRest) :
    ∃ f : Fate, (history e past).fates t.waiter = f.course ∧ f.delivery? = none := by
  obtain ⟨rest, top⟩ | ⟨place, rest, top, manual, queued⟩ := disposes
  · refine ⟨_, run.fates_of_decided parts (by rw [deeds, top]; rfl) ?_, ?_⟩ <;>
      cases n.pool.closed <;> simp [Fate.answer, Fate.delivery?]
  · obtain ⟨after, v, before, below, rfl, parts, top⟩ := run.carried_out parts (a := .abandon t)
      (by simp [activities, Machine.step, top, exec, perform, onTask, manual, queued, push]) still
    have told : (Fate.lost t.item).answer ≠ none := by simp [Fate.answer]
    exact ⟨.lost t.item, run.fates_of_decided parts (by rw [deeds, top]; rfl) told, rfl⟩

/-- A delivery that nobody listens for is over when everything is at rest: its resource has come
back, and a pool that was closed has passed it on for closing. -/
theorem hands_back (run : Run e past m) (parts : past = later ++ n :: earlier) {t : Task}
    (disposes : n.Disposes t) {seen : List Outcome}
    (unheard : (n.books 0 (history e earlier)).Unheard t.waiter seen) (still : m.AtRest) :
    CameBack e later t.item ∧
      (n.pool.closed = true → m.Discarded e later (n :: earlier) t.item) ∧
      ∀ u ∈ m.tasks, u.waiter ≠ t.waiter := by
  refine ⟨run.comes_back_of_disposes parts disposes unheard still, fun closed => ?_, ?_⟩
  · obtain ⟨rest, stack⟩ | ⟨opened, _⟩ := disposes.left (e := e)
    · refine run.discarded parts closed (.inr ⟨.giveBack t.item, ?_, rfl⟩) ?_ still
      · simp [activities, stack]
      · rintro check ⟨⟨below, answers⟩, _⟩
        obtain ⟨_, top⟩ | ⟨_, _, top, _⟩ := disposes <;> simp [top] at answers
    · exact absurd (opened.symm.trans closed) Bool.false_ne_true
  · obtain ⟨f, decided, ended⟩ := run.decided_of_disposes parts disposes still
    exact run.undelivered still decided ended

/-- A loan is a guard that a caller holds, waits for its delivery, or was sent and not taken. -/
theorem loan_of_checkedOut (run : Run e past m) (still : m.AtRest) {s : Nat}
    (lent : (m.pool.slot s).state = .checkedOut) :
    (∃ k i, m.handles.get? k = some (.guard i) ∧ i.slot = s) ∨ (∃ t ∈ m.tasks, t.item.slot = s) ∨
      ∃ (w : Nat) (x : Waiter Outcome) (i : Item), m.pool.waiters[w]? = some x ∧
        x.line = .sent (.ok i) ∧ i.slot = s := by
  obtain ⟨place, here⟩ := run.inPlace still s
  obtain rfl : place = .lent := by
    have state := here.state.symm.trans lent
    cases place <;> simp_all [Place.state]
  obtain ⟨i, member, slot⟩ := List.mem_map.1 (here.mem_guards.2 rfl)
  simp only [guards, show m.activities = [] from still, List.filterMap_nil, List.nil_append,
    List.mem_append, List.mem_filterMap, List.mem_map] at member
  obtain (⟨⟨k, x⟩, entry, held⟩ | ⟨t, queued, rfl⟩) | ⟨x, known, sent⟩ := member
  · refine .inl ⟨k, i, ?_, slot⟩
    rw [Table.get?_of_mem entry]
    cases x <;> simp_all [Handle.guard?]
  · exact .inr (.inl ⟨t, queued, slot⟩)
  · obtain ⟨w, found⟩ := List.getElem?_of_mem known
    refine .inr (.inr ⟨w, x, i, found, ?_, slot⟩)
    unfold Waiter.parcel? at sent
    split at sent <;> simp_all

end Run
end ResourcePool
