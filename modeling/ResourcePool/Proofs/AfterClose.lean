import ResourcePool.Proofs.Choices
import ResourcePool.Proofs.Conservation
import ResourcePool.Proofs.Flushing
import ResourcePool.Proofs.Outcomes

/-!
What a closed pool still does. No call for a new resource begins, who asks is turned away, and a
delivery that runs is refused: its resource comes back, is not lent again, and is passed on for
closing before everything is at rest. It is closed together with its slot, unless a check that the
configuration asks for finds it invalid first: on its return, or before a matching lends it that has
been under way since before the pool was closed.
-/

namespace ResourcePool

attribute [-simp] Multiset.singleton_add

/-- The configuration asks for the check. -/
@[simp] def Check.Wanted (c : Config) : Check → Prop
  | .checkin => c.testOnCheckin = true
  | .checkout .. => c.testOnCheckout = true

/-- There is a reason to close the resource. -/
@[simp] def Closing.Warranted (c : Config) : Closing → Prop
  | .invalid check => check.Wanted c
  | .misfit => False
  | _ => True

@[simp] def Activity.Warranted (c : Config) : Activity → Prop
  | .call (.validate _ check) | .answer (.validate _ check) => check.Wanted c
  | .call (.close _ why) | .answer (.close _ why) => why.Warranted c
  | _ => True

theorem Activity.warranted_of_isBare {a : Activity} (bare : a.isBare = true) (c : Config) :
    a.Warranted c := by
  cases a <;> simp_all

theorem Move.config {gone : Prop} {b c : Books} (move : Move gone b c) :
    c.pool.config = b.pool.config := by
  cases move with
  | withdraw _ _ pending => exact (Pool.cancel?_sameStock pending).config
  | hangUp => exact (Pool.hangUp_sameStock ..).config
  | see _ found => exact (Pool.sameStock_of_received found).1.config
  | send | sendError => exact (Pool.complete_sameStock ..).config
  | choose picked | miss picked => exact (Pool.pick_sameStock picked).config
  | dismissAll => exact (Pool.dismissAll_sameStock _).config
  | reserve _ reserved => exact (Pool.reserve?_sameLine reserved).config
  | unreserve => exact (Pool.unreserve_sameLine ..).config
  | create => exact (Pool.occupy_sameLine ..).config
  | lend _ lent => exact (Pool.lend?_sameLine lent).config
  | takeBack _ taken => exact (Pool.takeBack?_sameLine taken).config
  | pop popped => exact (Pool.popReturned?_sameLine popped).config
  | _ => rfl

namespace Machine

variable {σ : Type} {e : Environment σ} {m m' : Machine σ}

/-- The pool has the resource: it is idle, comes back or is being looked at. -/
def Keeps (m : Machine σ) (i : Item) : Prop :=
  i ∈ m.pool.returned ∨ ∃ a ∈ m.activities, a.inHand? = some i

/-- The check finds the resource invalid. -/
def Rejects (e : Environment σ) (m : Machine σ) (i : Item) (check : Check) : Prop :=
  (∃ rest, m.stack = .answer (.validate i check) :: rest) ∧ (e.validate i.resource m.env).1 = false

/-- The invalid resource is closed, and its slot is free. -/
def Retires (e : Environment σ) (m : Machine σ) (i : Item) (check : Check) : Prop :=
  (∃ rest, m.stack = .answer (.close i (.invalid check)) :: rest) ∧
    (m.step e).pool = m.pool.vacate i.slot

/-- A matching has this view of the line since before the pool was closed: it has it in each of
these states in which the pool is closed. -/
def UnderWay (states : List (Machine σ)) (view : List Nat) : Prop :=
  ∀ n ∈ states, n.pool.closed = true → ∃ a ∈ n.activities, a.view? = some view

/-- A closed pool checks what comes back. Before a resource is lent, only a matching checks it that
was under way when the pool was closed. -/
def Allows (states : List (Machine σ)) : Check → Prop
  | .checkin => True
  | .checkout _ view => UnderWay states view

/-- In these steps, which follow the earlier ones, the resource was passed on for closing. Its slot
is closed with it, or a check that the configuration asks for and a closed pool allows had found it
invalid, and it was retired. -/
def Discarded (e : Environment σ) (m : Machine σ) (steps earlier : List (Machine σ)) (i : Item) :
    Prop :=
  (m.pool.slot i.slot).state = .closed ∧
      (∃ n ∈ steps, ∃ why, n.Closes i why ∧ ∀ check, why ≠ .invalid check) ∨
    ∃ check, check.Wanted m.pool.config ∧
      (∃ later n between, steps = later ++ n :: between ∧ n.Rejects e i check ∧
        Allows (n :: (between ++ earlier)) check) ∧
      (∃ n ∈ steps, n.Closes i (.invalid check)) ∧ ∃ n ∈ steps, n.Retires e i check

theorem UnderWay.cons {states : List (Machine σ)} {view : List Nat} {a : Activity}
    (before : UnderWay states view) (member : a ∈ m.activities) (keeps : a.view? = some view) :
    UnderWay (m :: states) view :=
  List.forall_mem_cons.2 ⟨fun _ => ⟨a, member, keeps⟩, before⟩

/-- The request of the waiter failed because the pool is closed: nothing else was seen of it, or
will be. -/
structure TurnedDown (m : Machine σ) (h : History) (w : Nat) : Prop where
  answer : h.answer w = some (.error .closed)
  seen : ∀ o ∈ h.sights w, o = .error .closed
  shown : m.AtRest → ∀ a ∈ m.requests, a.waiter = w → (m.look w).1 = some (.error .closed)

namespace Sequel

variable {a : Activity} {as : List Activity} {r : List Item} {c : Bool}

theorem warranted (sequel : m.Sequel e a as r c) (before : a.Warranted m.pool.config)
    (fits : ∀ i, a = .giveBack i → m.pool.takeBack? i.slot ≠ none) :
    ∀ b ∈ as, b.Warranted m.pool.config := by
  cases sequel with
  | bare _ _ bare | store _ _ _ bare =>
      exact fun b member => Activity.warranted_of_isBare (bare b member) _
  | checkin tested | checkout _ _ tested => simpa using tested
  | misfit misfit => exact absurd misfit (fits _ rfl)
  | discard => simpa using before
  | @stop n inHand => cases inHand <;> simp
  | @begin c ops =>
      intro b member
      obtain ⟨op, rfl⟩ | rfl | rfl := mem_begun member
      · trivial
      · trivial
      · cases c <;> exact before
  | _ => simp

/-- In a closed pool a resource is not lent: unless a call to close it begins, the pool keeps it. -/
theorem keeps {i : Item} (sequel : m.Sequel e a as r c) (closed : m.pool.closed = true)
    (stale : a.keepsView = true → ∀ w, ¬m.Pending w)
    (before : i ∈ m.pool.returned ∨ a.inHand? = some i) :
    (∃ why, a = .call (.close i why)) ∨ i ∈ r ∨ ∃ b ∈ as, b.inHand? = some i := by
  -- What comes out of the queue is in hand next.
  have moved {j : Item} {rest : List Item} (queue : m.pool.returned = j :: rest)
      (empty : a.inHand? = none) : i ∈ rest ∨ j = i := by
    rw [empty, queue] at before
    exact (List.mem_cons.1 (before.resolve_right (by simp))).symm.imp_right Eq.symm
  have looking {n : Nat} {view : List Nat} (looks : m.Looks a n view) : a.inHand? = none := by
    cases looks <;> rfl
  cases sequel with
  | bare empty =>
      refine .inr (.inl (before.resolve_right fun same => ?_))
      rw [empty] at same
      cases same
  | store inHand =>
      refine .inr (.inl (List.mem_append.2 (before.imp_right fun same => ?_)))
      rw [inHand] at same
      exact List.mem_singleton.2 (Option.some.inj same).symm
  | lend finds pending => exact absurd pending (stale (finds.keepsView closed) _)
  | fill looks pending => exact absurd pending (stale (looks.keepsView closed) _)
  | retain finds =>
      cases finds with
      | inHand | valid => simpa using before
      | queued looks queue => exact .inr (by simpa using moved queue (looking looks))
  | checkout looks queue => exact .inr (by simpa using moved queue (looking looks))
  | flush queue => simpa using moved queue rfl
  | wreck queue => simpa using moved queue rfl
  | report empty | leave empty => simp [empty] at before
  | close opened => exact absurd (opened.symm.trans closed) Bool.false_ne_true
  | checkin | search | discard | misfit | made | flushed => simpa using before
  | @stop n inHand => cases inHand <;> simpa using before
  | @begin c ops =>
      obtain _ | _ | ⟨j, why⟩ | _ := c
      case close =>
        obtain queued | same := before
        · exact .inr (.inl queued)
        · obtain rfl : j = i := by simpa using same
          exact .inl ⟨why, rfl⟩
      all_goals
        exact .inr (before.imp_right fun same => ⟨.answer _, List.mem_append_right _
          (List.mem_singleton_self _), same⟩)

end Sequel

theorem Turn.keeps {a : Activity} {rest : List Activity} {i : Item} (turn : Turn e m a rest m')
    (top : m.stack = a :: rest) (closed : m.pool.closed = true)
    (stale : a.keepsView = true → ∀ w, ¬m.Pending w) (before : m.Keeps i) :
    (∃ why, m.Closes i why) ∨ m'.Keeps i := by
  obtain ⟨as, perm, sequel⟩ := turn.perm
  have stays {b : Activity} (member : b ∈ as ++ (rest ++ m.paused)) (inHand : b.inHand? = some i) :
      m'.Keeps i := .inr ⟨b, perm.mem_iff.2 member, inHand⟩
  -- The resource is idle, in the hand of the topmost activity or of another one.
  obtain here | ⟨b, member, inHand⟩ : (i ∈ m.pool.returned ∨ a.inHand? = some i) ∨
      ∃ b ∈ rest ++ m.paused, b.inHand? = some i := by
    simpa [Keeps, activities, top, or_assoc] using before
  · obtain sequel | ⟨⟨k, w, r, rfl⟩, rfl, pool⟩ := sequel
    · obtain ⟨why, rfl⟩ | queued | ⟨b, member, inHand⟩ := sequel.keeps closed stale here
      · exact .inl ⟨why, rest, top⟩
      · exact .inr (.inl queued)
      · exact .inr (stays (List.mem_append_left _ member) inHand)
    · exact .inr (.inl (pool ▸ here.resolve_right (by simp)))
  · exact .inr (stays (List.mem_append_right _ member) inHand)

end Machine

namespace Run

open Machine

variable {σ : Type} {e : Environment σ} {past : List (Machine σ)} {m : Machine σ}

theorem takeBack_isSome (run : Run e past m) {i : Item} {rest : List Activity}
    (top : m.stack = .giveBack i :: rest) : m.pool.takeBack? i.slot ≠ none := by
  have lent := (run.places.agree i.lent (by simp [Books.stock, books, assets, top])).2
  simpa [Pool.takeBack?, Slot.checkin?, Slot.transition?, Item.lent] using lent

theorem config_step (run : Run e past m) : (m.step e).pool.config = m.pool.config :=
  run.keepsNext (I := fun b => b.pool.config = m.pool.config)
    (fun move same => move.config.trans same) rfl

/-- Resources are closed and looked at for a reason. -/
theorem warranted (run : Run e past m) : ∀ a ∈ m.activities, a.Warranted m.pool.config := by
  refine run.byActivities (P := fun _ a p => a.Warranted p.config)
    (fun bare => Activity.warranted_of_isBare bare _) id
    (fun run before => run.config_step.symm ▸ before)
    fun {past m a rest as b} run top sequel member _ before => ?_
  rw [run.config_step]
  exact sequel.warranted before (fun i same => run.takeBack_isSome (same ▸ top)) b member

theorem wanted (run : Run e past m) {i : Item} {check : Check}
    (closes : m.Closes i (.invalid check)) : check.Wanted m.pool.config := by
  obtain ⟨rest, top⟩ := closes
  exact run.warranted (.call (.close i (.invalid check))) (by simp [activities, top])

/-- A resource is closed as invalid right after a check has found it so. -/
theorem rejected (run : Run e past m) : ∀ {i check}, m.Closes i (.invalid check) →
    ∃ u, past.head? = some u ∧ u.Rejects e i check := by
  refine run.byTurns (I := fun past m => ∀ {i check}, m.Closes i (.invalid check) →
    ∃ u, past.head? = some u ∧ u.Rejects e i check) (fun _ stack _ i check closes => ?_)
    (fun a empty bare _ i check closes => ?_) (fun empty _ i check closes => ?_)
    fun {past m a below} run top turn _ i check closes => ?_
  · obtain ⟨rest, top⟩ := closes
    simp [stack] at top
  · obtain ⟨rest, top⟩ := closes
    obtain ⟨rfl, _⟩ : a = _ ∧ _ := by simpa [push, empty] using top
    simp at bare
  · obtain ⟨rest, top⟩ := closes
    simp [empty] at top
  · obtain ⟨rest, calls⟩ := closes
    obtain ⟨as, head, sequel⟩ := turn.called top run.callsOnTop calls
    generalize (Machine.step e m).pool.returned = q, (Machine.step e m).pool.closed = c at sequel
    cases sequel with
    | bare _ _ bare | store _ _ _ bare =>
        have := bare _ (List.mem_of_head? head)
        simp at this
    | discard invalid =>
        obtain ⟨rfl, rfl⟩ : _ = i ∧ _ = check := by simpa using head
        exact ⟨m, rfl, ⟨below, top⟩, invalid⟩
    | @stop n inHand => cases inHand <;> simp at head
    | @begin c ops => cases ops <;> simp [nested] at head
    | _ => simp at head

theorem closed_of_mem (run : Run e past m) {n : Machine σ} (member : n ∈ past)
    (closed : n.pool.closed = true) : m.pool.closed = true := by
  obtain ⟨later, earlier, parts⟩ := List.append_of_mem member
  exact run.keepsPool (P := fun p => p.closed = true) parts closed_step closed

/-- A view of the line that a matching keeps is from before the pool was closed. -/
theorem underWay (run : Run e past m) :
    ∀ a ∈ m.activities, ∀ view, a.view? = some view → UnderWay past view := by
  refine run.byTurns (I := fun past m => ∀ a ∈ m.activities, ∀ view, a.view? = some view →
    UnderWay past view) (fun _ stack paused => ?_) (fun b _ bare before a member view keeps => ?_)
    (fun _ before a member view keeps => (before a member view keeps).cons member keeps)
    fun {past m b below} run top turn before a member view keeps => ?_
  · simp [activities, stack, paused]
  · obtain rfl | member := List.mem_cons.1 member
    · rw [Activity.view?_of_isBare bare] at keeps
      cases keeps
    · exact before a member view keeps
  · have here : b ∈ m.activities := by simp [activities, top]
    obtain ⟨as, new, sequel⟩ | ⟨rfl, k, w, r, rfl⟩ | old := turn.mem member
    · by_cases closed : m.pool.closed = true
      · have keeps := sequel.view?_of_closed closed new keeps
        exact (before b here view keeps).cons here keeps
      · -- The view may be new, but the pool has not been closed so far.
        exact List.forall_mem_cons.2 ⟨fun shut => absurd shut closed,
          fun n earlier shut => absurd (run.closed_of_mem earlier shut) closed⟩
    · simp at keeps
    · have there := mem_of_below top old
      exact (before a there view keeps).cons there keeps

theorem allows (run : Run e past m) {i : Item} {check : Check} (rejects : m.Rejects e i check) :
    Allows (m :: past) check := by
  obtain ⟨⟨rest, top⟩, _⟩ := rejects
  cases check with
  | checkin => trivial
  | checkout k view =>
      have member : .answer (.validate i (.checkout k view)) ∈ m.activities := by
        simp [activities, top]
      exact (run.underWay _ member view rfl).cons member rfl

variable {n : Machine σ} {later earlier : List (Machine σ)}

/-- What was decided last about a request stays if nothing can follow it. -/
theorem fates_of_decided (run : Run e past m) (parts : past = later ++ n :: earlier) {w : Nat}
    {f : Fate} (decided : n.deeds e = [.fate w f]) (answer : f.answer ≠ none) :
    (history e past).fates w = f.course := by
  have head : (history e (n :: earlier)).fates w = f :: (history e earlier).fates w := by
    simp [decided]
  obtain none | ⟨g, f', before, now, _, same⟩ := run.persists (suffix_of_append parts) w
  · rw [none] at head
    cases head
  obtain rfl : g = f := Fate.eq_of_course (head.symm.trans before)
  obtain rfl := same answer
  exact now

theorem resolved_of_fates (run : Run e past m) (rest : m.AtRest) {w : Nat} {f : Fate}
    (decided : (history e past).fates w = f.course) : m.Resolved (history e past) w (some f) := by
  obtain ⟨fs, course⟩ := f.head_course
  have known : w < m.pool.nextWaiter := by
    by_contra beyond
    have none := run.sound.standings.beyond w (List.getElem?_eq_none (Nat.le_of_not_lt beyond))
    have none : (history e past).fates w = [] := congrArg Ties.fates none
    simp [decided, course] at none
  obtain ⟨g, resolved⟩ := run.resolved rest known
  have same := decided.symm.trans resolved.decided
  cases g with
  | none => simp [course] at same
  | some g => exact Fate.eq_of_course_eq same ▸ resolved

theorem turnedDown (run : Run e past m) (parts : past = later ++ n :: earlier) {w : Nat} {f : Fate}
    (decided : n.deeds e = [.fate w f]) (answer : f.answer = some (.error .closed)) :
    m.TurnedDown (history e past) w := by
  have now := run.fates_of_decided parts decided (by simp [answer])
  obtain ⟨fs, course⟩ := f.head_course
  have settled : (history e past).answer w = some (.error .closed) := by
    simp [History.answer, now, course, answer]
  refine ⟨settled, fun o member => ?_, fun rest a member waiter => ?_⟩
  · have seen := (run.sights_le w).2 o member
    exact (Option.some.inj (settled.symm.trans seen)).symm
  · exact ((run.resolved_of_fates rest now).shown a member waiter).trans answer

/-- A closed pool does not lend what it has. -/
theorem kept_or_closed (run : Run e past m) (parts : past = later ++ n :: earlier)
    (closed : n.pool.closed = true) {i : Item} (keeps : (n.step e).Keeps i) :
    m.Keeps i ∨ ∃ v ∈ later, ∃ why, v.Closes i why := by
  have early := run.before_of_append parts
  have kept := run.sinceTurns (T := fun later m => m.pool.closed = true ∧
    (m.Keeps i ∨ ∃ v ∈ later, ∃ why, v.Closes i why)) parts ?_ ?_ ?_ ?_
  · exact kept.2
  · exact ⟨early.closed_step closed, .inl keeps⟩
  · intro later m a _ _ before
    refine ⟨before.1, before.2.imp_left fun keeps => keeps.imp_right ?_⟩
    rintro ⟨b, member, inHand⟩
    exact ⟨b, List.mem_cons_of_mem a member, inHand⟩
  · intro later m _ before
    refine ⟨before.1, before.2.imp_right ?_⟩
    rintro ⟨v, member, closes⟩
    exact ⟨v, List.mem_cons_of_mem m member, closes⟩
  · rintro later m a below run top turn ⟨closed, before⟩
    refine ⟨run.closed_step closed, ?_⟩
    obtain keeps | ⟨v, member, closes⟩ := before
    · obtain closes | keeps := turn.keeps top closed (run.not_pending closed top) keeps
      · exact .inr ⟨m, List.mem_cons_self .., closes⟩
      · exact .inl keeps
    · exact .inr ⟨v, List.mem_cons_of_mem m member, closes⟩

/-- A resource that is closed as invalid is retired. -/
theorem retired (run : Run e past m) (parts : past = later ++ n :: earlier) {i : Item}
    {check : Check} (closes : n.Closes i (.invalid check)) (still : m.AtRest) :
    ∃ v ∈ later, v.Retires e i check := by
  obtain ⟨v, member, below, answers⟩ :=
    (run.waits_or_done parts closes.answer_mem).resolve_left fun member => by
      rw [still] at member
      cases member
  refine ⟨v, member, ⟨below, answers⟩, ?_⟩
  simp only [Machine.step, answers, exec, Machine.answered, Machine.closed]
  obtain _ | cause := (e.close i.resource v.env).1 <;> cases check <;> rfl

/-- What a closed pool has is passed on for closing before everything is at rest. -/
theorem discarded (run : Run e past m) (parts : past = later ++ n :: earlier)
    (closed : n.pool.closed = true) {i : Item} (keeps : (n.step e).Keeps i)
    (unchecked : ∀ check, ¬n.Rejects e i check) (still : m.AtRest) :
    m.Discarded e later (n :: earlier) i := by
  have shut := run.closed_of_mem (n := n) (by simp [parts]) closed
  have gone : ¬m.Keeps i := by
    rintro (queued | ⟨a, member, _⟩)
    · simp [run.returned_of_closed still shut] at queued
    · rw [still] at member
      cases member
  obtain ⟨v, member, why, closes⟩ := (run.kept_or_closed parts closed keeps).resolve_left gone
  obtain ⟨after, before, rfl⟩ := List.append_of_mem member
  have parts : past = after ++ v :: (before ++ n :: earlier) := by simp [parts]
  have there := run.before_of_append parts
  cases why with
  | invalid check =>
      have wanted := there.wanted closes
      obtain ⟨u, last, rejects⟩ := there.rejected closes
      have config := run.keepsPool (P := fun p => p.config = v.pool.config) parts
        (fun run same => run.config_step.trans same) rfl
      obtain ⟨x, inside, retires⟩ := run.retired parts closes still
      refine .inr ⟨check, config ▸ wanted, ?_, ⟨v, member, closes⟩, x,
        List.mem_append_left _ inside, retires⟩
      cases before with
      | nil =>
          obtain rfl : n = u := Option.some.inj last
          exact absurd rejects (unchecked check)
      | cons w before =>
          obtain rfl : w = u := Option.some.inj last
          exact ⟨after ++ [v], w, before, by simp, rejects, there.before.allows rejects⟩
  | _ =>
      refine .inl ⟨?_, v, member, _, closes, by simp⟩
      exact run.keepsPool (P := fun p => (p.slot i.slot).state = .closed) parts
        (fun run shut => run.slot_closed_step shut) (there.shut_of_closes closes (by simp))

/-- The resource of a refused delivery is not lent again. -/
theorem discarded_of_task (run : Run e past m) (parts : past = later ++ n :: earlier)
    (closed : n.pool.closed = true) {t : Task} {rest : List Activity}
    (top : n.stack = .task t :: rest) (still : m.AtRest) :
    m.Discarded e later (n :: earlier) t.item := by
  refine run.discarded parts closed (.inr ⟨.giveBack t.item, ?_, rfl⟩) ?_ still
  · simp [activities, Machine.step, top, exec, runTask, closed, push]
  · -- The step of the delivery itself is not the end of a check.
    rintro check ⟨⟨below, answers⟩, _⟩
    simp [top] at answers

/-- In a closed pool no call for a new resource begins, a delivery that runs is refused and its
resource discarded, and who asks is turned away. -/
theorem after_close (run : Run e past m) (parts : past = later ++ n :: earlier)
    (closed : n.pool.closed = true) :
    (∀ k w r rest, n.stack ≠ .call (.create k w r) :: rest) ∧
      (∀ t rest, n.stack = .task t :: rest →
        (n.step e).stack = .giveBack t.item :: .refuse t :: .release :: .ran :: rest ∧
          m.TurnedDown (history e past) t.waiter ∧
          (m.AtRest → m.Discarded e later (n :: earlier) t.item)) ∧
      ∀ purpose rest, n.stack = .acquire purpose :: rest →
        (n.step e).pool.registry = n.pool.registry ∧
          m.TurnedDown (history e past) n.pool.nextWaiter := by
  refine ⟨(run.before_of_append parts).not_creating closed, fun t rest top => ⟨?_, ?_, ?_⟩,
    fun purpose rest top => ⟨?_, ?_⟩⟩
  · simp [Machine.step, top, exec, runTask, closed, push]
  · exact run.turnedDown parts (f := .refused t.item) (by simp [deeds, top, deedsOf, closed]) rfl
  · exact run.discarded_of_task parts closed top
  · simp [Machine.step, top, exec, request, closed, push, withPool, Pool.turnAway]
  · exact run.turnedDown parts (f := .turnedAway) (by simp [deeds, top, deedsOf, closed]) rfl

/-- A delivery that runs after the pool was closed. -/
theorem after_close_refused : ∃ (past later earlier : List (Machine Bench.Rig))
    (m n : Machine Bench.Rig) (t : Task) (rest : List Activity),
    Run Bench.environment past m ∧ past = later ++ n :: earlier ∧ n.pool.closed = true ∧
      n.stack = .task t :: rest ∧ m.AtRest ∧
      m.TurnedDown (history Bench.environment past) t.waiter ∧
      m.Discarded Bench.environment later (n :: earlier) t.item := by
  have first := ((bench (c := { maxSize := 1 }) rfl).ask (.acquire 0) rfl).steps 40
  have closed := (first.ask .close rfl).steps 40
  have begun := (closed.ask (.run none) rfl).steps 1
  have ended := begun.step.steps 40
  obtain ⟨_, turnedDown, discarded⟩ := (ended.after_close rfl rfl).2.1 _ _ rfl
  exact ⟨_, _, _, _, _, _, _, ended, rfl, rfl, rfl, rfl, turnedDown, discarded rfl⟩

set_option maxRecDepth 4000 in
/-- The pool is closed while a resource is looked at before it is lent. The delivery of another one
is refused then, but the matching, which has read the closed flag before, looks at this resource
too. It is found invalid, and its slot is not closed, though nothing is tested on its return. -/
theorem refused_and_retired : ∃ (past later earlier : List (Machine Bench.Rig))
    (m n : Machine Bench.Rig) (t : Task) (rest : List Activity),
    Run Bench.environment past m ∧ past = later ++ n :: earlier ∧ n.pool.closed = true ∧
      n.stack = .task t :: rest ∧ m.AtRest ∧ m.pool.config.testOnCheckin = false ∧
      (m.pool.slot t.item.slot).state = .uninitialized := by
  have start := hooked (c := { maxSize := 2 }) rfl [⟨.validate, 1,
    [.tell (.invalidate 0), .tell (.invalidate 1), .close, .run none]⟩]
  have first := (start.ask (.acquire 0) rfl).steps 40
  have second := (first.ask (.acquire 1) rfl).steps 40
  have delivered := (second.ask (.run none) rfl).steps 40
  have polled := (delivered.ask .pollAll rfl).steps 40
  have third := (polled.ask (.acquire 2) rfl).steps 40
  have lent := (third.ask (.drop 0) rfl).steps 40
  have fourth := (lent.ask (.acquire 3) rfl).steps 40
  have begun := (fourth.ask (.drop 1) rfl).steps 16
  have ended := begun.step.steps 40
  exact ⟨_, _, _, _, _, _, _, ended, rfl, rfl, rfl, rfl, rfl, rfl⟩

end Run
end ResourcePool
