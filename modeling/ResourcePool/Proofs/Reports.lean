import ResourcePool.Proofs.Capacity
import ResourcePool.Proofs.Closing
import ResourcePool.Proofs.References

/-!
What closing a pool reports. Whoever closes it empties the queue of idle resources one by one, and
is told which of the closings made on the way failed. Every resource that was idle is closed by
then: but a matching that is called for meanwhile reads the closed flag and empties the queue too,
and the failures of the closings it makes are told nobody.
-/

namespace ResourcePool

attribute [-simp] Multiset.singleton_add

namespace Activity

/-- The failures that whoever closes the pool has noted so far. -/
@[simp] def noted? : Activity → Option (List CloseFailure)
  | flush .closer failures | report failures => some failures
  | call (.close _ (.flush .closer failures)) => some failures
  | answer (.close _ (.flush .closer failures)) => some failures
  | _ => none

/-- The slots that whoever closes the pool has closed so far. -/
@[simp] def slotsShut : Activity → List Nat
  | flush .closer failures | report failures => failures.map CloseFailure.slot
  | call (.close i (.flush .closer failures)) => i.slot :: failures.map CloseFailure.slot
  | answer (.close i (.flush .closer failures)) => i.slot :: failures.map CloseFailure.slot
  | _ => []

/-- What whoever closes the pool has closed stays closed, and no slot is closed twice. -/
structure Tidy (p : Pool) (a : Activity) : Prop where
  apart : a.slotsShut.Nodup
  shut : ∀ s ∈ a.slotsShut, (p.slot s).state = .closed

theorem slotsShut_of_isBare {a : Activity} (bare : a.isBare = true) : a.slotsShut = [] := by
  cases a <;> simp_all

theorem tidy_of_isBare {a : Activity} (bare : a.isBare = true) (p : Pool) : a.Tidy p := by
  constructor <;> rw [slotsShut_of_isBare bare] <;> simp

theorem noted?_of_isBare {a : Activity} (bare : a.isBare = true) : a.noted? = none := by
  cases a <;> simp_all

end Activity

namespace Machine

variable {σ : Type} {e : Environment σ} {m m' : Machine σ}

/-- The failure of a closing made by whoever closes the pool. -/
def failing (e : Environment σ) (m : Machine σ) : List CloseFailure :=
  match m.stack with
  | .answer (.close i (.flush .closer _)) :: _ =>
      (e.close i.resource m.env).1.toList.map fun cause => { slot := i.slot, cause }
  | _ => []

/-- The failures noted by those who are closing the pool. -/
def notes (m : Machine σ) : List (List CloseFailure) :=
  m.activities.filterMap Activity.noted?

end Machine

/-- The failures of the closings made by whoever closed the pool, in the order in which they were
made. -/
def closeFailures {σ : Type} (e : Environment σ) : List (Machine σ) → List CloseFailure
  | [] => []
  | m :: past => closeFailures e past ++ m.failing e

theorem mem_closeFailures {σ : Type} {e : Environment σ} {past : List (Machine σ)}
    {f : CloseFailure} : f ∈ closeFailures e past ↔ ∃ m ∈ past, f ∈ m.failing e := by
  induction past with
  | nil => simp [closeFailures]
  | cons m past ih => simp [closeFailures, ih, or_comm]

namespace Machine

variable {σ : Type} {e : Environment σ} {m m' : Machine σ}

theorem failing_eq_nil {a : Activity} {rest : List Activity} (top : m.stack = a :: rest)
    (idle : a.flushes = false) : m.failing e = [] := by
  unfold failing
  rw [top]
  split
  · next same =>
      obtain ⟨rfl, _⟩ := List.cons.inj same
      simp at idle
  · rfl

theorem Sequel.notes {a : Activity} {as rest : List Activity} {r : List Item} {c : Bool}
    (sequel : ({ m with stack := rest } : Machine σ).Sequel e a as r c)
    (top : m.stack = a :: rest) :
    as.filterMap Activity.noted? = [] ∧ m.failing e = [] ∨
      (∃ f, a.noted? = some f ∧ as.filterMap Activity.noted? = [f ++ m.failing e]) ∨
      m.pool.closed = false ∧ c = true ∧ as.filterMap Activity.noted? = [[]] ∧
        m.failing e = [] := by
  cases sequel with
  | bare _ idle bare | store _ idle _ bare =>
      refine .inl ⟨List.filterMap_eq_nil_iff.2 fun b member => ?_, failing_eq_nil top idle⟩
      exact Activity.noted?_of_isBare (bare b member)
  | lend finds | retain finds => exact .inl ⟨rfl, failing_eq_nil top finds.flushes⟩
  | checkout looks | fill looks => exact .inl ⟨rfl, failing_eq_nil top looks.flushes⟩
  | @begin c ops =>
      have quiet : (nested m.reply ops).filterMap Activity.noted? = [] := by
        refine List.filterMap_eq_nil_iff.2 fun b member => ?_
        obtain ⟨op, rfl⟩ | rfl := nested_of_mem member <;> rfl
      have none : m.failing e = [] := by simp [failing, top]
      rw [none, List.filterMap_append, quiet]
      obtain _ | _ | ⟨i, _ | _ | ⟨_ | _, f⟩ | _ | _⟩ | _ := c
      case close.flush.closer => exact .inr (.inl ⟨f, rfl, by simp⟩)
      all_goals exact .inl ⟨rfl, rfl⟩
  | @stop n inHand => exact .inl ⟨by cases inHand <;> rfl, failing_eq_nil top rfl⟩
  | @flush who f i rest queue =>
      have none : m.failing e = [] := by simp [failing, top]
      rw [none]
      cases who with
      | closer => exact .inr (.inl ⟨f, rfl, by simp⟩)
      | matcher => exact .inl ⟨rfl, rfl⟩
  | @flushed i who f =>
      cases who with
      | closer => exact .inr (.inl ⟨f, rfl, by simp [failing, top]⟩)
      | matcher => exact .inl ⟨rfl, by simp [failing, top]⟩
  | @report f empty =>
      have none : m.failing e = [] := by simp [failing, top]
      rw [none]
      exact .inr (.inl ⟨f, rfl, congrArg (fun g => [g]) (List.append_nil f).symm⟩)
  | close opened => exact .inr (.inr ⟨opened, rfl, rfl, failing_eq_nil top rfl⟩)
  | _ => exact .inl ⟨rfl, by simp [failing, top]⟩

/-- The slots closed so far are those before, unless the next resource is taken from the queue. -/
theorem Sequel.slotsShut {a b : Activity} {as : List Activity} {r : List Item} {c : Bool}
    (sequel : m.Sequel e a as r c) (member : b ∈ as) : b.slotsShut.Subperm a.slotsShut ∨
      ∃ i f, a = .flush .closer f ∧ b = .call (.close i (.flush .closer f)) ∧
        i ∈ m.pool.returned := by
  have nothing (empty : b.slotsShut = []) : b.slotsShut.Subperm a.slotsShut :=
    empty ▸ List.nil_subperm
  cases sequel with
  | bare _ _ bare | store _ _ _ bare =>
      exact .inl (nothing (Activity.slotsShut_of_isBare (bare b member)))
  | @begin c ops =>
      refine .inl ?_
      obtain ⟨op, rfl⟩ | rfl | rfl := mem_begun member
      · exact nothing rfl
      · exact nothing rfl
      · obtain _ | _ | ⟨i, _ | _ | ⟨_ | _, f⟩ | _ | _⟩ | _ := c <;> exact List.Subperm.refl _
  | @stop n inHand =>
      refine .inl (nothing ?_)
      obtain ⟨i, rfl⟩ | rfl | rfl := mem_stopped member <;> rfl
  | @flush who f i rest queue =>
      obtain rfl := List.mem_singleton.1 member
      cases who with
      | closer => exact .inr ⟨i, f, rfl, rfl, by simp [queue]⟩
      | matcher => exact .inl (nothing rfl)
  | @flushed i who f =>
      obtain rfl := List.mem_singleton.1 member
      cases who with
      | matcher => exact .inl (nothing rfl)
      | closer =>
          refine .inl ?_
          simp only [Activity.slotsShut, List.map_append, List.map_map]
          cases (e.close i.resource m.env).1 with
          | none => simpa using (List.sublist_cons_self i.slot _).subperm
          | some cause => exact (List.perm_append_singleton i.slot _).subperm
  | @report f empty =>
      obtain rfl | rfl : b = .trigger ∨ b = .report f := by simpa using member
      · exact .inl (nothing rfl)
      · exact .inl (List.Subperm.refl _)
  | lend | wreck | made =>
      obtain rfl | rfl : b = _ ∨ b = _ := by simpa using member
      all_goals exact .inl (nothing rfl)
  | close =>
      obtain rfl | rfl : b = _ ∨ b = _ := by simpa using member
      all_goals exact .inl (nothing rfl)
  | leave => cases member
  | _ =>
      obtain rfl := List.mem_singleton.1 member
      exact .inl (nothing rfl)

/-- What is noted is what failed, and there is one who closes the pool at most. -/
structure Tally (e : Environment σ) (past : List (Machine σ)) (m : Machine σ) : Prop where
  opened : m.pool.closed = false → m.notes = [] ∧ closeFailures e past = []
  one : m.notes = [] ∨ m.notes = [closeFailures e past]

theorem notes_cons {a : Activity} {rest : List Activity} (top : m.stack = a :: rest) :
    m.notes = a.noted?.toList ++ (rest ++ m.paused).filterMap Activity.noted? := by
  rw [notes, activities, top, List.cons_append, filterMap_cons_toList]

theorem Turn.notes {a : Activity} {rest : List Activity} (turn : Turn e m a rest m')
    (top : m.stack = a :: rest) : ∃ fresh, m'.notes.Perm
      (fresh ++ (rest ++ m.paused).filterMap Activity.noted?) ∧
        (fresh = [] ∧ m.failing e = [] ∨
          (∃ f, a.noted? = some f ∧ fresh = [f ++ m.failing e]) ∨
          m.pool.closed = false ∧ m'.pool.closed = true ∧ fresh = [[]] ∧ m.failing e = []) := by
  obtain ⟨as, perm, sequel⟩ := turn.perm
  refine ⟨as.filterMap Activity.noted?, ?_, ?_⟩
  · rw [← List.filterMap_append]
    exact perm.filterMap _
  · obtain sequel | ⟨⟨k, w, r, rfl⟩, rfl, _⟩ := sequel
    · exact sequel.notes top
    · exact .inl ⟨rfl, failing_eq_nil top rfl⟩

theorem Turn.tally {a : Activity} {rest : List Activity} {past : List (Machine σ)}
    (turn : Turn e m a rest m') (top : m.stack = a :: rest)
    (closed : m.pool.closed = true → m'.pool.closed = true) (before : Tally e past m) :
    Tally e (m :: past) m' := by
  obtain ⟨fresh, perm, news⟩ := turn.notes top
  have notes := notes_cons top
  generalize (rest ++ m.paused).filterMap Activity.noted? = others at perm notes
  have opened (still : m'.pool.closed = false) : m.pool.closed = false := by
    by_contra shut
    exact absurd (still.symm.trans (closed (Bool.not_eq_false _ ▸ shut))) Bool.false_ne_true
  have total : closeFailures e (m :: past) = closeFailures e past ++ m.failing e := rfl
  obtain ⟨rfl, none⟩ | ⟨f, noted, rfl⟩ | ⟨still, shut, rfl, none⟩ := news
  · -- What others have noted stays.
    rw [none, List.append_nil] at total
    constructor
    · intro still
      obtain ⟨empty, failures⟩ := before.opened (opened still)
      rw [(List.append_eq_nil_iff.1 (notes.symm.trans empty)).2] at perm
      exact ⟨perm.eq_nil, total.trans failures⟩
    · rw [total]
      obtain empty | one := before.one
      · rw [(List.append_eq_nil_iff.1 (notes.symm.trans empty)).2] at perm
        exact .inl perm.eq_nil
      · obtain ⟨_, here⟩ | ⟨_, here⟩ := List.append_eq_singleton_iff.1 (notes.symm.trans one)
        · rw [here] at perm
          exact .inr (List.perm_singleton.1 perm)
        · rw [here] at perm
          exact .inl perm.eq_nil
  · -- Whoever closes the pool notes one more failure, or none.
    rw [noted] at notes
    constructor
    · intro still
      have empty := (before.opened (opened still)).1
      simp [notes] at empty
    · rw [total]
      obtain empty | one := before.one
      · simp [notes] at empty
      · obtain ⟨rfl, rfl⟩ := List.cons.inj (notes.symm.trans one)
        exact .inr (List.perm_singleton.1 perm)
  · obtain ⟨empty, failures⟩ := before.opened still
    rw [(List.append_eq_nil_iff.1 (notes.symm.trans empty)).2] at perm
    refine ⟨fun still => absurd (still.symm.trans shut) Bool.false_ne_true, .inr ?_⟩
    rw [total, failures, none]
    exact List.perm_singleton.1 perm

theorem step_close {rest : List Activity} (top : m.stack = .perform .close :: rest)
    (handle : m.mainHandle = true) (opened : m.pool.closed = false) : m.step e =
      ((({ m with stack := rest } : Machine σ).withPool { m.pool with closed := true }).log
        .closing).push [.flush .closer [], .release] := by
  simp [step, top, exec, perform, onPool, handle, close, opened]

/-- A resource stays in the queue until whoever empties it takes it out to be closed. -/
theorem Sequel.queued {a : Activity} {as : List Activity} {r : List Item} {c : Bool} {i : Item}
    (sequel : m.Sequel e a as r c) (closed : m.pool.closed = true) (keeps : a.keepsView = false)
    (stays : a ≠ .teardown) (queued : i ∈ m.pool.returned) :
    i ∈ r ∨ ∃ who f, as = [.call (.close i (.flush who f))] := by
  cases sequel with
  | store => exact .inl (List.mem_append_left _ queued)
  | lend finds | retain finds =>
      exact absurd (keeps.symm.trans (finds.keepsView closed)) Bool.false_ne_true
  | checkout looks =>
      exact absurd (keeps.symm.trans (looks.keepsView closed)) Bool.false_ne_true
  | @flush who f j rest queue =>
      rw [queue] at queued
      obtain rfl | further := List.mem_cons.1 queued
      · exact .inr ⟨who, f, rfl⟩
      · exact .inl further
  | report empty | leave empty => simp [empty] at queued
  | wreck => exact absurd rfl stays
  | _ => exact .inl queued

/-- Nothing is reported before the queue is empty. -/
theorem Sequel.empty_of_report {a : Activity} {as : List Activity} {r : List Item} {c : Bool}
    {f : List CloseFailure} (sequel : m.Sequel e a as r c) (member : .report f ∈ as) :
    m.pool.returned = [] := by
  cases sequel with
  | bare _ _ bare | store _ _ _ bare => simpa using bare _ member
  | @begin c ops =>
      obtain ⟨op, same⟩ | same | same := mem_begun member <;> cases same
  | @stop n inHand => cases inHand <;> simp at member
  | report empty => exact empty
  | _ => simp at member

/-- The pool is being emptied, nothing was reported yet, and the resource waits in the queue or is
passed on for closing. -/
structure Emptying (m : Machine σ) (i : Item) : Prop where
  closed : m.pool.closed = true
  shielded : m.Shielded
  unreported : ∀ f, .report f ∉ m.activities
  waits : i ∈ m.pool.returned ∨ ∃ who f, m.Closes i (.flush who f)

end Machine

/-- Who takes a pool down has said so. -/
theorem Move.wrecker {gone : Prop} {b c : Books} (move : Move gone b c)
    (before : .wrecker ∈ b.assets → b.torn = true) (wrecks : .wrecker ∈ c.assets) :
    c.torn = true := by
  cases move with
  | tearDown => rfl
  | hangUp held | send held | see held =>
      refine before ?_
      revert wrecks
      simp only [held]
      split <;> simp
  | trigger held | again held =>
      refine before ?_
      revert wrecks
      simp only [held]
      split <;> simp
  | _ => simp_all

namespace Run

open Machine

variable {σ : Type} {e : Environment σ} {past : List (Machine σ)} {m : Machine σ}

theorem tally (run : Run e past m) : Tally e past m := by
  refine run.byTurns (I := Tally e) (fun {c m} _ stack paused => ?_)
    (fun {past m} a _ bare before => ?_) (fun {past m} empty before => ?_)
    fun run top turn before => turn.tally top run.closed_step before
  · have none : m.notes = [] := by simp [notes, activities, stack, paused]
    exact ⟨fun _ => ⟨none, rfl⟩, .inl none⟩
  · have same : (m.push [a]).notes = m.notes := by
      simp only [notes, activities, push, List.cons_append, List.nil_append, List.filterMap_cons,
        Activity.noted?_of_isBare bare]
    exact ⟨same ▸ before.opened, same ▸ before.one⟩
  · have same : closeFailures e (m :: past) = closeFailures e past := by
      simp [closeFailures, failing, empty]
    exact ⟨same ▸ before.opened, same ▸ before.one⟩

theorem tidy (run : Run e past m) : ∀ a ∈ m.activities, a.Tidy m.pool := by
  have later {past m} {a : Activity} (run : Run e past m) (tidy : a.Tidy m.pool) :
      a.Tidy (m.step e).pool :=
    ⟨tidy.apart, fun s inside => run.slot_closed_step (tidy.shut s inside)⟩
  refine run.byActivities (P := fun _ a p => a.Tidy p)
    (fun bare => Activity.tidy_of_isBare bare _) id later
    fun {past m a rest as b} run top sequel fresh member tidy => ?_
  obtain ⟨slots, same, part⟩ | ⟨i, f, rfl, rfl, queued⟩ := sequel.slotsShut fresh
  · exact ⟨same.nodup_iff.1 (tidy.apart.sublist part),
      fun s inside => (later run tidy).shut s (part.subset (same.mem_iff.2 inside))⟩
  · -- The slot of the next resource was idle, the others were closed.
    have idle : (m.pool.slot i.slot).state = .idle :=
      (run.places.agree i.stored (Multiset.mem_add.2 (.inr (Multiset.mem_of_le
        m.pool.stored_le_holdings (List.mem_map_of_mem queued))))).2
    refine ⟨List.nodup_cons.2 ⟨fun inside => ?_, tidy.apart⟩, fun s inside => ?_⟩
    · have shut := tidy.shut i.slot inside
      exact absurd (idle.symm.trans shut) (by simp)
    · obtain rfl | inside := List.mem_cons.1 inside
      · exact run.step.shut_of_call member (by simp)
      · exact (later run tidy).shut s inside

theorem torn_of_teardown (run : Run e past m) (member : .teardown ∈ m.activities) :
    m.torn = true :=
  run.keeps (I := fun b => .wrecker ∈ b.assets → b.torn = true) (fun c => by simp [Books.start])
    (fun move before => move.wrecker before)
    (by simpa [books] using mem_assets member (Multiset.mem_singleton_self _))

theorem emptying_of_close (run : Run e past m) {rest : List Activity}
    (top : m.stack = .perform .close :: rest) (handle : m.mainHandle = true)
    (opened : m.pool.closed = false) {i : Item} (idle : i ∈ m.pool.returned) :
    (m.step e).Emptying i := by
  have empty := run.tally.opened opened
  have unreported : ∀ f, .report f ∉ rest ++ m.paused := fun f member => by
    have silent := List.filterMap_eq_nil_iff.1 empty.1 (.report f) (by
      rw [activities, top]
      exact List.mem_cons_of_mem _ member)
    cases silent
  rw [step_close top handle opened]
  refine ⟨rfl, .inl (.inl rfl), fun f member => ?_, .inl idle⟩
  exact unreported f (by simpa [activities, push, log, note, withPool] using member)

/-- Nobody takes the pool down while somebody empties it. -/
theorem not_teardown (run : Run e past m) (shielded : m.Shielded) :
    .teardown ∉ m.activities := by
  intro member
  obtain ⟨b, works, refers⟩ := shielded.refersToPool
  have harmless := (run.unreferenced (run.torn_of_teardown member)).activities b works
  exact Bool.false_ne_true (harmless.symm.trans refers)

theorem emptying_step (run : Run e past m) {a : Activity} {rest : List Activity}
    (top : m.stack = a :: rest) (turn : Turn e m a rest (m.step e)) {i : Item}
    (before : m.Emptying i) (queued : i ∈ m.pool.returned) : (m.step e).Emptying i := by
  have filled : m.pool.returned ≠ [] := List.ne_nil_of_mem queued
  have stays : a ≠ .teardown := by
    rintro rfl
    exact run.not_teardown before.shielded (by simp [activities, top])
  refine ⟨run.closed_step before.closed, ?_, fun f member => ?_, ?_⟩
  · exact (turn.shielded top before.closed run.stopped before.shielded).resolve_right
      fun empty => filled empty.1
  · obtain ⟨as, fresh, sequel⟩ | ⟨rfl, k, w, r, same⟩ | old := turn.mem member
    · exact filled (sequel.empty_of_report fresh)
    · cases same
    · exact before.unreported f (mem_of_below top old)
  · cases turn with
    | goOn leaves =>
        obtain queued | ⟨who, f, rfl⟩ := leaves.sequel.queued before.closed
          (before.shielded.keepsView top) stays queued
        · exact .inl queued
        · exact .inr ⟨who, f, rest, leaves.stack⟩
    | resume _ _ _ _ pool | halt _ _ _ _ _ _ _ pool => exact .inl (pool ▸ queued)

variable {n : Machine σ} {later earlier : List (Machine σ)}

/-- A resource that is idle when the pool is closed is passed on for closing before anything is
reported. -/
theorem emptied (run : Run e past m) (parts : past = later ++ n :: earlier)
    {below : List Activity} (closing : n.stack = .perform .close :: below)
    (handle : n.mainHandle = true) (opened : n.pool.closed = false) {i : Item}
    (idle : i ∈ n.pool.returned) {f : List CloseFailure} {rest : List Activity}
    (top : m.stack = .report f :: rest) : ∃ v ∈ later, ∃ who f, v.Closes i (.flush who f) := by
  have reached := run.sinceTurns (T := fun later m => (∃ v ∈ later, ∃ who f,
    v.Closes i (.flush who f)) ∨ m.Emptying i) parts ?_ ?_ ?_ ?_
  · refine reached.resolve_right fun emptying => emptying.unreported f ?_
    simp [activities, top]
  · exact .inr ((run.before_of_append parts).emptying_of_close closing handle opened idle)
  · rintro later m a empty bare (closes | emptying)
    · exact .inl closes
    · exact absurd empty emptying.shielded.busy
  · rintro later m empty (⟨v, member, closes⟩ | emptying)
    · exact .inl ⟨v, List.mem_cons_of_mem m member, closes⟩
    · exact absurd empty emptying.shielded.busy
  · rintro later m a rest run top turn (⟨v, member, closes⟩ | emptying)
    · exact .inl ⟨v, List.mem_cons_of_mem m member, closes⟩
    · obtain queued | closes := emptying.waits
      · exact .inr (run.emptying_step top turn emptying queued)
      · exact .inl ⟨m, List.mem_cons_self .., closes⟩

/-- A closing that whoever closes the pool has begun is over when the failures are reported. -/
theorem answered (run : Run e past m) (parts : past = later ++ n :: earlier) {i : Item}
    {f g : List CloseFailure} {rest : List Activity} (closes : n.Closes i (.flush .closer f))
    (top : m.stack = .report g :: rest) :
    ∃ v ∈ later, ∃ below, v.stack = .answer (.close i (.flush .closer f)) :: below := by
  refine (run.waits_or_done parts closes.answer_mem).resolve_left fun member => ?_
  have notes := notes_cons top
  have others : (rest ++ m.paused).filterMap Activity.noted? = [] := by
    obtain empty | one := run.tally.one
    · simp [empty] at notes
    · exact (List.cons.inj (notes.symm.trans one)).2
  have waits : .answer (.close i (.flush .closer f)) ∈ rest ++ m.paused := by
    simpa [activities, top] using member
  cases List.filterMap_eq_nil_iff.1 others _ waits

theorem failures_eq (run : Run e past m) {failures : List CloseFailure} {rest : List Activity}
    (top : m.stack = .report failures :: rest) : failures = closeFailures e past := by
  have notes := notes_cons top
  obtain empty | one := run.tally.one
  · simp [empty] at notes
  · exact (List.cons.inj (notes.symm.trans one)).1

/-- Whoever closes a pool is told which of the closings it made failed, in order, and no slot twice.
Every resource that was idle when the pool was closed is closed by then, by whoever closed the pool
or by a matching called for meanwhile. Closing a closed pool changes nothing. -/
theorem reported (run : Run e past m) :
    (∀ failures rest, m.stack = .report failures :: rest →
      failures = closeFailures e past ∧ (failures.map CloseFailure.slot).Nodup ∧
        (m.step e).reply =
          (if failures.isEmpty then .ok else .failed (.closeFailed failures)) ∧
        ∀ later n earlier below, past = later ++ n :: earlier →
          n.stack = .perform .close :: below → n.mainHandle = true → n.pool.closed = false →
          ∀ i ∈ n.pool.returned, ∃ v ∈ later, ∃ who f, v.Closes i (.flush who f) ∧
            (who = .closer → ∃ u ∈ later,
              (∃ below, u.stack = .answer (.close i (.flush .closer f)) :: below) ∧
                ∀ cause, (e.close i.resource u.env).1 = some cause →
                  { slot := i.slot, cause } ∈ failures)) ∧
      ∀ rest, m.stack = .perform .close :: rest → m.mainHandle = true → m.pool.closed = true →
        m.step e = ({ m with stack := rest } : Machine σ).answer .ok := by
  refine ⟨fun failures rest top => ⟨run.failures_eq top, ?_, ?_, ?_⟩,
    fun rest top handle closed => ?_⟩
  · exact (run.tidy (.report failures) (by simp [activities, top])).apart
  · simp only [Machine.step, top, exec, report]
    split <;> rfl
  · intro later n earlier below parts closing handle opened i idle
    obtain ⟨v, member, who, f, closes⟩ := run.emptied parts closing handle opened idle top
    refine ⟨v, member, who, f, closes, ?_⟩
    rintro rfl
    obtain ⟨after, before, rfl⟩ := List.append_of_mem member
    have split : past = after ++ v :: (before ++ n :: earlier) := by simp [parts]
    obtain ⟨u, inside, answers⟩ := run.answered split closes top
    refine ⟨u, List.mem_append_left _ inside, answers, fun cause failed => ?_⟩
    rw [run.failures_eq top]
    obtain ⟨below, answers⟩ := answers
    exact mem_closeFailures.2 ⟨u, by simp [parts, inside], by simp [failing, answers, failed]⟩
  · simp [Machine.step, top, exec, perform, onPool, handle, close, closed]

/-- Of two idle resources the first is closed in vain. -/
theorem reported_one : ∃ (past later earlier : List (Machine Bench.Rig))
    (m n : Machine Bench.Rig) (failures : List CloseFailure) (rest : List Activity),
    Run Bench.environment past m ∧ m.stack = .report failures :: rest ∧
      failures = closeFailures Bench.environment past ∧ failures.map CloseFailure.slot = [0] ∧
      (m.step Bench.environment).reply = .failed (.closeFailed failures) ∧
      past = later ++ n :: earlier ∧ n.stack = [.perform .close] ∧
      (n.pool.returned.map Item.slot = [0, 1]) ∧
      ∀ i ∈ n.pool.returned, ∃ v ∈ later, ∃ who f, v.Closes i (.flush who f) := by
  have first := ((hooked (c := { maxSize := 2 }) rfl
    [⟨.close, 1, [.tell (.failCloses false)]⟩]).ask (.acquire 0) rfl).steps 40
  have second := (first.ask (.acquire 1) rfl).steps 40
  have delivered := (second.ask (.run none) rfl).steps 40
  have polled := (delivered.ask .pollAll rfl).steps 40
  have returned := ((polled.ask (.drop 0) rfl).steps 40 |>.ask (.drop 1) rfl).steps 40
  have failing := (returned.ask (.tell (.failCloses true)) rfl).steps 40
  have ended := (failing.ask .close rfl).step.steps 13
  obtain ⟨failures, _, reply, emptied⟩ := ended.reported.1 _ _ rfl
  refine ⟨_, _, _, _, _, _, _, ended, rfl, failures, rfl, reply, rfl, rfl, rfl, fun i idle => ?_⟩
  obtain ⟨v, member, who, f, closes, _⟩ := emptied _ _ _ _ rfl rfl rfl rfl i idle
  exact ⟨v, member, who, f, closes⟩

set_option maxRecDepth 4000 in
/-- A resource that was idle when the pool was closed is closed in vain, and whoever closed the pool
is told that all went well: while another one is closed a loan is detached, and the matching that is
called for then empties the queue. -/
theorem unreported_failure : ∃ (past later earlier : List (Machine Bench.Rig))
    (m n v : Machine Bench.Rig) (i : Item) (f : List CloseFailure) (below rest : List Activity),
    Run Bench.environment past m ∧ past = later ++ n :: earlier ∧ n.stack = [.perform .close] ∧
      n.mainHandle = true ∧ n.pool.closed = false ∧ i ∈ n.pool.returned ∧ v ∈ later ∧
      v.stack = .answer (.close i (.flush .matcher f)) :: below ∧
      (Bench.environment.close i.resource v.env).1.isSome = true ∧ m.stack = .report [] :: rest ∧
      (m.step Bench.environment).reply = .ok := by
  have start := hooked (c := { maxSize := 3 }) rfl [⟨.close, 0,
    [.tell (.failCloses true), .detach 2, .tell (.failCloses false)]⟩]
  have first := (start.ask (.acquire 0) rfl).steps 40
  have second := (first.ask (.acquire 1) rfl).steps 40
  have third := (second.ask (.acquire 2) rfl).steps 40
  have delivered := (third.ask (.run none) rfl).steps 40
  have polled := (delivered.ask .pollAll rfl).steps 40
  have returned := ((polled.ask (.drop 0) rfl).steps 40 |>.ask (.drop 1) rfl).steps 40
  have closing := (returned.ask .close rfl).step.steps 9
  have ended := closing.step.steps 14
  exact ⟨_, _, _, _, _, _, _, _, _, _, ended, (List.append_assoc _ (_ :: _) (_ :: _)).symm, rfl,
    rfl, rfl, List.mem_cons_of_mem _ (List.mem_cons_self ..),
    List.mem_append_right _ (List.mem_cons_self ..), rfl, rfl, rfl, rfl⟩

end Run
end ResourcePool
