import Mathlib.Data.List.TakeWhile
import ResourcePool.Proofs.Effects
import ResourcePool.Proofs.Operations

/-!
What a step leaves to be done. Carrying out an activity puts others on top of those that were there,
and what it puts there says what it did: a resource in hand is looked at, handed on, put away or
passed on for closing, and a resource that is taken from the queue is in hand from then on. Only the
thread that stops at a call, and the one that is taken up again, change the order of what is below.
-/

namespace ResourcePool

@[simp] def Check.keepsView : Check → Bool
  | .checkout .. => true
  | .checkin => false

@[simp] def Closing.keepsView : Closing → Bool
  | .invalid check => check.keepsView
  | _ => false

@[simp] def Call.keepsView : Call → Bool
  | .validate _ check => check.keepsView
  | .close _ why => why.keepsView
  | _ => false

namespace Activity

/-- A matching that goes on with a view of the line it took earlier. -/
@[simp] def keepsView : Activity → Bool
  | search .. => true
  | call c | answer c => c.keepsView
  | _ => false

/-- The resource that comes back, is looked at, is handed on or is to be closed. -/
@[simp] def inHand? : Activity → Option Item
  | giveBack i | round _ (some i) => some i
  | call (.validate i _) | answer (.validate i _) | call (.close i _) => some i
  | _ => none

/-- The activity empties the queue of a closed pool, or goes on doing so afterwards. -/
@[simp] def flushes : Activity → Bool
  | flush .. | call (.close _ (.flush ..)) | answer (.close _ (.flush ..)) => true
  | _ => false

/-- No matching is at work and no call is in progress. -/
@[simp] def isBare : Activity → Bool
  | call _ | answer _ | search .. | round _ (some _) | flush .. | report _ => false
  | _ => true

/-- The activity has a reference to the pool of its own. -/
@[simp] def ownsReference : Activity → Bool
  | release | task _ => true
  | put _ x => x.refersToPool
  | _ => false

/-- The activity works on the pool and leaves it to those below to keep a reference. -/
@[simp] def borrows (a : Activity) : Bool :=
  a.refersToPool && !a.ownsReference

end Activity

/-- Somebody on the thread of the topmost activity has a reference of its own. -/
@[simp] def Backing : List Activity → Bool
  | [] => false
  | a :: as => !a.isThread && (a.ownsReference || Backing as)

/-- Whoever works on the pool has a reference, or somebody below on the same thread has one. -/
@[simp] def Backed : List Activity → Prop
  | [] => True
  | a :: as => (a.refersToPool = true → Backing (a :: as) = true) ∧ Backed as

theorem Backing.append {as : List Activity} (backing : Backing as = true) (bs : List Activity) :
    Backing (as ++ bs) = true := by
  induction as with
  | nil => simp at backing
  | cons a as ih =>
      simp only [Backing, Bool.and_eq_true, Bool.or_eq_true] at backing
      simp only [List.cons_append, Backing, Bool.and_eq_true, Bool.or_eq_true]
      exact ⟨backing.1, backing.2.imp_right ih⟩

theorem Backed.append {as bs : List Activity} (above : Backed as) (below : Backed bs) :
    Backed (as ++ bs) := by
  induction as with
  | nil => exact below
  | cons a as ih => exact ⟨fun refers => Backing.append (above.1 refers) bs, ih above.2⟩

theorem Backing.drop {as bs : List Activity} (own : ∀ b ∈ as, b.isThread = false)
    (backing : Backing bs = true) : Backing (as ++ bs) = true := by
  induction as with
  | nil => exact backing
  | cons a as ih =>
      have further := ih fun b member => own b (List.mem_cons_of_mem a member)
      simp [own a (List.mem_cons_self ..), further]

/-- Below somebody who has a reference, anything may be worked on. -/
theorem Backed.push {as bs : List Activity} (own : ∀ b ∈ as, b.isThread = false)
    (backing : Backing bs = true) (backed : Backed bs) : Backed (as ++ bs) := by
  induction as with
  | nil => exact backed
  | cons a as ih =>
      exact ⟨fun _ => Backing.drop own backing, ih fun b member =>
        own b (List.mem_cons_of_mem a member)⟩

theorem Backed.of_append {as bs : List Activity} (backed : Backed (as ++ bs))
    (mark : ∀ b ∈ bs.take 1, b.isThread = true) : Backed as ∧ Backed bs := by
  have apart (cs : List Activity) : Backing (cs ++ bs) = Backing cs := by
    induction cs with
    | nil => cases bs <;> simp_all
    | cons c cs ih => simp [ih]
  induction as with
  | nil => exact ⟨trivial, backed⟩
  | cons a as ih =>
      obtain ⟨above, below⟩ := ih backed.2
      exact ⟨⟨fun refers => (apart (a :: as)).symm.trans (backed.1 refers), above⟩, below⟩

namespace Machine

variable {σ : Type}

/-- The matching looks for something to hand out with this view of the line. -/
inductive Looks (m : Machine σ) : Activity → Nat → List Nat → Prop
  | afresh {n : Nat} (opened : m.pool.closed = false) (line : m.pool.registry.entries ≠ []) :
      Looks m (.round n none) n m.pool.registry.entries
  | again {n : Nat} {view : List Nat} : Looks m (.search n view) n view

/-- The matching has a resource in hand; this is what remains in the queue. -/
inductive Finds (m : Machine σ) : Activity → Nat → List Nat → Item → List Item → Prop
  | inHand {n : Nat} {i : Item} (opened : m.pool.closed = false) :
      Finds m (.round n (some i)) n m.pool.registry.entries i m.pool.returned
  | valid {n : Nat} {view : List Nat} {i : Item} :
      Finds m (.answer (.validate i (.checkout n view))) n view i m.pool.returned
  | queued {a : Activity} {n : Nat} {view : List Nat} {i : Item} {rest : List Item}
      (looks : m.Looks a n view) (queue : m.pool.returned = i :: rest) : Finds m a n view i rest

def Pending (m : Machine σ) (w : Nat) : Prop :=
  ∃ x, m.pool.waiters[w]? = some x ∧ x.state = .pending

/-- What the activity leaves to be done, the queue of idle resources and the closed flag after
it. -/
inductive Sequel (e : Environment σ) (m : Machine σ) :
    Activity → List Activity → List Item → Bool → Prop
  | bare {a : Activity} {as : List Activity} (empty : a.inHand? = none)
      (idle : a.flushes = false) (bare : ∀ b ∈ as, b.isBare = true) :
      Sequel e m a as m.pool.returned m.pool.closed
  | store {a : Activity} {i : Item} {as : List Activity} (inHand : a.inHand? = some i)
      (idle : a.flushes = false) (refers : a.refersToPool = true)
      (bare : ∀ b ∈ as, b.isBare = true) :
      Sequel e m a as (m.pool.returned ++ [i]) m.pool.closed
  | lend {a : Activity} {n : Nat} {view : List Nat} {t : Task} {rest : List Item}
      (finds : m.Finds a n view t.item rest) (pending : m.Pending t.waiter) :
      Sequel e m a [.call (.schedule t), .round n none] rest m.pool.closed
  | retain {a : Activity} {n : Nat} {view : List Nat} {i : Item} {rest : List Item}
      (finds : m.Finds a n view i rest) :
      Sequel e m a [.round n (some i)] rest m.pool.closed
  | checkin {i : Item} (tested : m.pool.config.testOnCheckin = true) :
      Sequel e m (.giveBack i) [.call (.validate i .checkin)] m.pool.returned m.pool.closed
  | checkout {a : Activity} {n : Nat} {view : List Nat} {i : Item} {rest : List Item}
      (looks : m.Looks a n view) (queue : m.pool.returned = i :: rest)
      (tested : m.pool.config.testOnCheckout = true) :
      Sequel e m a [.call (.validate i (.checkout n view))] rest m.pool.closed
  | fill {a : Activity} {n w : Nat} {view : List Nat} {r : Reservation}
      (looks : m.Looks a n view) (pending : m.Pending w) :
      Sequel e m a [.call (.create n w r)] m.pool.returned m.pool.closed
  | search {i : Item} {n : Nat} {view : List Nat} :
      Sequel e m (.answer (.close i (.invalid (.checkout n view)))) [.search n view]
        m.pool.returned m.pool.closed
  | discard {i : Item} {check : Check} (invalid : (e.validate i.resource m.env).1 = false) :
      Sequel e m (.answer (.validate i check)) [.call (.close i (.invalid check))]
        m.pool.returned m.pool.closed
  | misfit {i : Item} (misfit : m.pool.takeBack? i.slot = none) :
      Sequel e m (.giveBack i) [.call (.close i .misfit)] m.pool.returned m.pool.closed
  | stop {n : Nat} {inHand : Option Item} (closed : m.pool.closed = true) :
      Sequel e m (.round n inHand)
        ((inHand.toList.map fun i => .call (.close i .inHand)) ++ [.flush .matcher [], .again n])
        m.pool.returned m.pool.closed
  | begin (c : Call) (ops : List Op) :
      Sequel e m (.call c) (nested m.reply ops ++ [.answer c]) m.pool.returned m.pool.closed
  | made {n : Nat} {r : Reservation} {t : Task} (fresh : t.item.resource.id = m.made) :
      Sequel e m (.answer (.create n t.waiter r)) [.call (.schedule t), .round n none]
        m.pool.returned m.pool.closed
  | flush {who : Flusher} {failures : List CloseFailure} {i : Item} {rest : List Item}
      (queue : m.pool.returned = i :: rest) :
      Sequel e m (.flush who failures) [.call (.close i (.flush who failures))] rest m.pool.closed
  | flushed {i : Item} {who : Flusher} {failures : List CloseFailure} :
      Sequel e m (.answer (.close i (.flush who failures)))
        [.flush who (failures ++ (e.close i.resource m.env).1.toList.map fun cause =>
          { slot := i.slot, cause })] m.pool.returned m.pool.closed
  | report {failures : List CloseFailure} (empty : m.pool.returned = []) :
      Sequel e m (.flush .closer failures) [.trigger, .report failures] [] m.pool.closed
  | leave {failures : List CloseFailure} (empty : m.pool.returned = []) :
      Sequel e m (.flush .matcher failures) [] [] m.pool.closed
  | wreck {i : Item} {rest : List Item} (queue : m.pool.returned = i :: rest) :
      Sequel e m .teardown [.call (.close i .teardown), .teardown] rest m.pool.closed
  | close (opened : m.pool.closed = false) :
      Sequel e m (.perform .close) [.flush .closer [], .release] m.pool.returned true

/-- After the activity, these are on top of what was there. -/
structure Leaves (e : Environment σ) (m : Machine σ) (a : Activity) (as : List Activity)
    (m' : Machine σ) : Prop where
  stack : m'.stack = as ++ m.stack
  paused : m'.paused = m.paused
  backed : a.borrows = true ∧ (∀ b ∈ as, b.isThread = false) ∨ Backed as
  sequel : m.Sequel e a as m'.pool.returned m'.pool.closed

variable {e : Environment σ} {m : Machine σ}

theorem Sequel.of_eq {a : Activity} {as : List Activity} {r r' : List Item} {c c' : Bool}
    (sequel : m.Sequel e a as r c) (returned : r' = r) (closed : c' = c) :
    m.Sequel e a as r' c' :=
  returned ▸ closed ▸ sequel

attribute [local simp] Handle.refersToPool Activity.refersToPool Activity.isThread

theorem leaves_own {a : Activity} {as : List Activity} {m' : Machine σ} (borrows : a.borrows = true)
    (stack : m'.stack = as ++ m.stack) (paused : m'.paused = m.paused)
    (own : as.any Activity.isThread = false)
    (sequel : m.Sequel e a as m'.pool.returned m'.pool.closed) : ∃ as, Leaves e m a as m' := by
  refine ⟨as, stack, paused, .inl ⟨borrows, fun b member => ?_⟩, sequel⟩
  exact Bool.eq_false_iff.2 (List.any_eq_false.1 own b member)

theorem leaves_nothing {a : Activity} {m' : Machine σ} (stack : m'.stack = m.stack)
    (paused : m'.paused = m.paused)
    (sequel : m.Sequel e a [] m'.pool.returned m'.pool.closed) : ∃ as, Leaves e m a as m' :=
  ⟨[], stack, paused, .inr trivial, sequel⟩

/-- Nothing was pushed or set aside, and the queue of idle resources, the closed flag and the place
of the next choice are as they were. -/
structure Untouched (m m' : Machine σ) : Prop where
  stack : m'.stack = m.stack
  paused : m'.paused = m.paused
  returned : m'.pool.returned = m.pool.returned
  closed : m'.pool.closed = m.pool.closed
  cursor : m'.pool.cursor = m.pool.cursor

theorem Untouched.refl (m : Machine σ) : m.Untouched m :=
  ⟨rfl, rfl, rfl, rfl, rfl⟩

theorem Untouched.trans {n m' : Machine σ} (first : m.Untouched n) (second : n.Untouched m') :
    m.Untouched m' :=
  ⟨second.stack.trans first.stack, second.paused.trans first.paused,
    second.returned.trans first.returned, second.closed.trans first.closed,
    second.cursor.trans first.cursor⟩

theorem Untouched.withPool {m' : Machine σ} (before : m.Untouched m') {p : Pool}
    (same : m'.pool.SameStock p) (cursor : p.cursor = m'.pool.cursor) :
    m.Untouched (m'.withPool p) :=
  { before with
    returned := same.returned.trans before.returned
    closed := same.closed.trans before.closed
    cursor := cursor.trans before.cursor }

/-- What is left to be done is bare, and keeps its own references. -/
def Quiet (m m' : Machine σ) : Prop :=
  ∃ as, m.Untouched { m' with stack := m.stack } ∧ m'.stack = as ++ m.stack ∧
    (∀ b ∈ as, b.isBare = true) ∧ Backed as

namespace Quiet

theorem push {n : Machine σ} {as : List Activity} (same : m.Untouched n)
    (bare : as.all Activity.isBare = true) (backed : Backed as) : m.Quiet (n.push as) :=
  ⟨as, { same with stack := rfl }, congrArg (as ++ ·) same.stack, List.all_eq_true.1 bare, backed⟩

theorem still {n : Machine σ} (same : m.Untouched n) : m.Quiet n :=
  ⟨[], { same with stack := rfl }, same.stack, by simp, trivial⟩

theorem answer (m : Machine σ) (r : Reply) : m.Quiet (m.answer r) :=
  still ⟨rfl, rfl, rfl, rfl, rfl⟩

theorem trans {n m' : Machine σ} (first : m.Quiet n) (second : n.Quiet m') : m.Quiet m' := by
  obtain ⟨as, same, stack, bare, backed⟩ := first
  obtain ⟨bs, same', stack', bare', backed'⟩ := second
  refine ⟨bs ++ as, ⟨rfl, same'.paused.trans same.paused, same'.returned.trans same.returned,
    same'.closed.trans same.closed, same'.cursor.trans same.cursor⟩, ?_, fun b member => ?_,
    backed'.append backed⟩
  · rw [stack', stack, List.append_assoc]
  · exact (List.mem_append.1 member).elim (bare' b) (bare b)

theorem leaves {m' : Machine σ} (quiet : m.Quiet m') {a : Activity} (empty : a.inHand? = none)
    (idle : a.flushes = false) : ∃ as, Leaves e m a as m' := by
  obtain ⟨as, same, stack, bare, backed⟩ := quiet
  refine ⟨as, stack, same.paused, .inr backed, ?_⟩
  rw [show m'.pool.returned = m.pool.returned from same.returned,
    show m'.pool.closed = m.pool.closed from same.closed]
  exact .bare empty idle bare

theorem onPool {f : Machine σ → Machine σ} (quiet : m.Quiet (f m)) : m.Quiet (m.onPool f) := by
  unfold Machine.onPool
  split
  · exact quiet
  · exact answer m _

theorem onFree {k : Nat} {f : Machine σ → Machine σ} (quiet : m.Quiet (f m)) :
    m.Quiet (m.onFree k f) := by
  refine onPool ?_
  split
  · exact answer m _
  · exact quiet

theorem onResource {k : Nat} {f : Handle → Resource → Machine σ}
    (quiet : ∀ x r, m.Quiet (f x r)) : m.Quiet (m.onResource k f) := by
  unfold Machine.onResource
  split
  · exact answer m _
  · split
    · exact quiet _ _
    · exact answer m _

theorem onTask {place : Nat} {f : Machine σ → Task → Machine σ}
    (quiet : ∀ (n : Machine σ) (t : Task), n.Quiet (f n t)) : m.Quiet (m.onTask place f) := by
  unfold Machine.onTask
  split
  · next t _ _ =>
      exact trans (n := { m with tasks := m.tasks.eraseIdx place })
        (still ⟨rfl, rfl, rfl, rfl, rfl⟩)
        (quiet _ t)
  · exact answer m _

end Quiet

theorem backed_dropHandle (x : Handle) (as : List Activity) (backed : Backed as) :
    Backed (dropHandle x ++ as) := by
  obtain a | (_ | ⟨a, d⟩) | i | r := x <;>
    simpa [dropHandle] using backed

theorem bare_dropHandle (x : Handle) : ∀ b ∈ dropHandle x, b.isBare = true := by
  obtain a | (_ | ⟨a, d⟩) | i | r := x <;> simp [dropHandle]

theorem look_untouched (w : Nat) : m.Untouched (m.look w).2 := by
  unfold look
  have same := m.pool.receive_sameStock w
  have place := m.pool.receive_cursor w
  split
  · exact .refl m
  · next received =>
      rw [received] at same place
      exact (Untouched.refl m).withPool same place
  · next received =>
      rw [received] at same place
      exact (Untouched.refl m).withPool same place

theorem resolve_quiet (k : Nat) (o : Outcome) : m.Quiet (m.resolve k o) := by
  cases o with
  | ok i => exact .still ⟨rfl, rfl, rfl, rfl, rfl⟩
  | error e => exact .push ⟨rfl, rfl, rfl, rfl, rfl⟩ rfl (by simp)

theorem poll_quiet (k : Nat) : m.Quiet (m.poll k) := by
  unfold poll
  split
  · exact .answer m _
  · next a _ =>
      have same := m.look_untouched a.waiter
      split
      · next found =>
          rw [found] at same
          exact .trans (.still same) (.answer _ _)
      · next found =>
          rw [found] at same
          exact .trans (.still same) (resolve_quiet k _)
  · next a deadline _ =>
      have same := m.look_untouched a.waiter
      split
      · next found =>
          rw [found] at same
          exact .trans (.still same) (resolve_quiet k _)
      · next m' found =>
          rw [found] at same
          refine .trans (.still same) ?_
          split
          · split
            · exact .push ⟨rfl, rfl, rfl, rfl, rfl⟩ rfl (by simp)
            · exact .answer _ _
          · exact .answer _ _
  · exact .push ⟨rfl, rfl, rfl, rfl, rfl⟩ rfl (by simp)
  · exact .answer m _
  · exact .answer m _

theorem pollEach_quiet (seen : List (Nat × Poll)) (rest : List Nat) :
    m.Quiet (m.pollEach seen rest) := by
  cases rest with
  | nil => exact .answer m _
  | cons k rest => exact .push (.refl m) rfl (by simp)

theorem runNext_quiet (left : Option Nat) (labels : List Nat) :
    m.Quiet (m.runNext left labels) := by
  unfold runNext
  split
  · exact .answer m _
  · exact .answer m _
  · exact .push ⟨rfl, rfl, rfl, rfl, rfl⟩ rfl (by simp)

theorem turn_quiet : m.Quiet m.turn := by
  unfold turn
  split
  · exact .still (.refl m)
  · exact .push ⟨rfl, rfl, rfl, rfl, rfl⟩ rfl (by simp)

theorem withdraw_untouched (m : Machine σ) (a : Acquire) :
    m.Untouched { m.withdraw a with stack := m.stack } ∧
      ∃ as, (m.withdraw a).stack = as ++ m.stack ∧ (as = [] ∨ as = [.trigger]) := by
  unfold withdraw
  split
  · split
    · next cancelled =>
        obtain ⟨x, _, _, rfl⟩ := Pool.cancel?_eq_some cancelled
        exact ⟨⟨rfl, rfl, rfl, rfl, rfl⟩, [.trigger], rfl, .inr rfl⟩
    · exact ⟨.refl m, [], rfl, .inl rfl⟩
  · exact ⟨.refl m, [], rfl, .inl rfl⟩

theorem cancel_quiet (k : Nat) (a : Acquire) : m.Quiet (m.cancel k a) := by
  unfold cancel
  dsimp only
  generalize left_eq : [Activity.put k (.acquire { a with attached := false }), _, .release] = left
  obtain ⟨same, as, stack, calls⟩ := ((m.take k).push left).withdraw_untouched a
  refine ⟨as ++ left, ⟨rfl, same.paused, same.returned, same.closed, same.cursor⟩, ?_, ?_,
    ?_⟩
  · rw [stack, List.append_assoc]
    rfl
  · obtain rfl | rfl := calls <;> subst left_eq <;> simp
  · obtain rfl | rfl := calls <;> subst left_eq <;>
      simp

theorem drop_quiet (k : Nat) (x : Handle) (r : Reply) :
    m.Quiet ((m.take k).push (dropHandle x ++ [.say r])) := by
  refine .push ⟨rfl, rfl, rfl, rfl, rfl⟩ (List.all_eq_true.2 fun b member => ?_)
    (backed_dropHandle x _ (by simp))
  obtain member | last := List.mem_append.1 member
  · exact bare_dropHandle x b member
  · simp_all

theorem perform_quiet {op : Op} (stays : op ≠ .close) (alone : op ≠ .join) :
    m.Quiet (m.perform e op) := by
  cases op with
  | close => exact absurd rfl stays
  | join => exact absurd rfl alone
  | acquire k =>
      simp only [perform]
      exact .onFree (.push (.refl m) rfl (by simp))
  | get k =>
      simp only [perform]
      exact .onFree (.still ⟨rfl, rfl, rfl, rfl, rfl⟩)
  | poll k => exact poll_quiet k
  | await k => exact .push (.refl m) rfl (by simp)
  | pollAll => exact pollEach_quiet [] _
  | cancel k =>
      simp only [perform]
      split
      · exact .answer m _
      · exact cancel_quiet k _
      · exact .answer m _
  | drop k =>
      simp only [perform]
      split
      · exact .answer m _
      · exact drop_quiet k _ _
  | checkin k =>
      simp only [perform]
      refine .onPool ?_
      split
      · exact .answer m _
      · exact drop_quiet k _ _
      · exact .answer m _
  | detach k =>
      simp only [perform]
      split
      · exact .answer m _
      · exact .push ⟨rfl, rfl, rfl, rfl, rfl⟩ rfl (by simp)
      · exact .answer m _
  | execute k statement =>
      simp only [perform, execute]
      refine .onResource fun x r => ?_
      split <;> exact .still ⟨rfl, rfl, rfl, rfl, rfl⟩
  | executed k =>
      simp only [perform]
      exact .onResource fun x r => .answer m _
  | info k =>
      simp only [perform]
      split <;> exact .answer m _
  | describe k =>
      simp only [perform, describe]
      split <;> exact .answer m _
  | invalidateHeld k =>
      simp only [perform]
      split <;> exact .still ⟨rfl, rfl, rfl, rfl, rfl⟩
  | tell n => exact .still ⟨rfl, rfl, rfl, rfl, rfl⟩
  | run limit =>
      simp only [perform, run]
      split
      · exact runNext_quiet limit []
      · split
        · exact .answer m _
        · exact .push (.refl m) rfl (by simp)
      · exact .answer m _
  | runAt place | dropTask place =>
      simp only [perform]
      exact .onTask fun n t => .push (.refl n) rfl (by simp)
  | advance ms =>
      simp only [perform, advance]
      split
      · split
        · exact .answer m _
        · exact .push ⟨rfl, rfl, rfl, rfl, rfl⟩ rfl (by simp)
      · exact .still ⟨rfl, rfl, rfl, rfl, rfl⟩
  | dispatchCounts =>
      simp only [perform]
      split <;> exact .answer m _
  | factoryCounts => exact .answer m _
  | isClosed | status | slots | config | describePool | factoryCreated =>
      simp only [perform]
      exact .onPool (.answer m _)
  | clone =>
      simp only [perform]
      exact .onPool (.still ⟨rfl, rfl, rfl, rfl, rfl⟩)
  | dropClone =>
      simp only [perform]
      split
      · exact .answer m _
      · exact .push ⟨rfl, rfl, rfl, rfl, rfl⟩ rfl (by simp)
  | dropPool =>
      simp only [perform]
      split
      · exact .push ⟨rfl, rfl, rfl, rfl, rfl⟩ rfl (by simp)
      · exact .answer m _
  | background k =>
      simp only [perform]
      refine .onFree ?_
      unfold launch
      split
      · exact .push ⟨rfl, rfl, rfl, rfl, rfl⟩ rfl (by simp)
      · exact .answer m _

theorem pending_of_pick {p q : Pool} {view : List Nat} {w : Nat}
    (chosen : p.pick view = (some w, q)) (waiters : p.waiters = m.pool.waiters) : m.Pending w := by
  obtain ⟨x, found, pending, _⟩ := Pool.pick_eq_some chosen
  exact ⟨x, waiters ▸ found, pending⟩

theorem Looks.borrows {a : Activity} {n : Nat} {view : List Nat} (looks : m.Looks a n view) :
    a.borrows = true := by
  cases looks <;> rfl

theorem Finds.borrows {a : Activity} {n : Nat} {view : List Nat} {i : Item} {rest : List Item}
    (finds : m.Finds a n view i rest) : a.borrows = true := by
  cases finds with
  | inHand | valid => rfl
  | queued looks => exact looks.borrows

theorem lend_untouched (m : Machine σ) (w : Nat) (i : Item) :
    ∃ t : Task, (m.lend w i).stack = .call (.schedule t) :: m.stack ∧ t.waiter = w ∧ t.item = i ∧
      m.Untouched { m.lend w i with stack := m.stack } := by
  unfold lend
  cases lent : m.pool.lend? i.slot with
  | none => exact ⟨_, rfl, rfl, rfl, rfl, rfl, rfl, rfl, rfl⟩
  | some p =>
      obtain ⟨_, rfl⟩ := Pool.lend?_eq_some lent
      exact ⟨_, rfl, rfl, rfl, rfl, rfl, rfl, rfl, rfl⟩

theorem handOut_leaves {a : Activity} {k : Nat} {view : List Nat} {i : Item} {n : Machine σ}
    (finds : m.Finds a k view i n.pool.returned) (stack : n.stack = m.stack)
    (paused : n.paused = m.paused) (closed : n.pool.closed = m.pool.closed)
    (waiters : n.pool.waiters = m.pool.waiters) :
    ∃ as, Leaves e m a as (n.handOut k view i) := by
  unfold handOut
  split
  · next w p chosen =>
      have same := Pool.pick_sameStock chosen
      obtain ⟨t, pushed, rfl, rfl, untouched⟩ :=
        ((n.withPool p).push [.round k none]).lend_untouched w i
      refine ⟨[.call (.schedule t), .round k none], ?_, untouched.paused.trans paused,
        .inl ⟨finds.borrows, by simp⟩, ?_⟩
      · rw [pushed, ← stack]
        rfl
      · exact (Sequel.lend finds (pending_of_pick chosen waiters)).of_eq
          (untouched.returned.trans same.returned)
          (untouched.closed.trans (same.closed.trans closed))
  · next p missed =>
      have same := Pool.pick_sameStock missed
      refine ⟨[.round k (some i)], congrArg _ stack, paused,
        .inl ⟨finds.borrows, by simp⟩, ?_⟩
      exact (Sequel.retain finds).of_eq same.returned (same.closed.trans closed)

theorem seek_leaves {a : Activity} {k : Nat} {view : List Nat} (looks : m.Looks a k view) :
    ∃ as, Leaves e m a as (m.seek k view) := by
  unfold seek
  split
  · next i p popped =>
      obtain ⟨rest, queue, rfl⟩ := Pool.popReturned?_eq_some popped
      split
      · next tested =>
          exact leaves_own looks.borrows rfl rfl rfl (.checkout looks queue tested)
      · exact handOut_leaves (.queued looks queue) rfl rfl rfl rfl
  · have bare {as : List Activity} (bare : ∀ b ∈ as, b.isBare = true) :
        m.Sequel e a as m.pool.returned m.pool.closed := by
      cases looks <;> exact .bare rfl rfl bare
    split
    · next r p reserved =>
        obtain ⟨returned, closed, waiters⟩ : p.returned = m.pool.returned ∧
            p.closed = m.pool.closed ∧ p.waiters = m.pool.waiters := by
          obtain ⟨_, _, _, _, rfl⟩ | ⟨_, _, _, rfl⟩ := Pool.reserve?_eq_some reserved <;>
            exact ⟨rfl, rfl, rfl⟩
        unfold fill
        split
        · next w q chosen =>
            have same := Pool.pick_sameStock chosen
            exact leaves_own looks.borrows rfl rfl rfl <|
              (Sequel.fill looks (pending_of_pick chosen waiters)).of_eq
                (same.returned.trans returned) (same.closed.trans closed)
        · next q missed =>
            have same := Pool.pick_sameStock missed
            have kept : (q.unreserve r).returned = q.returned := by cases r <;> rfl
            exact leaves_own looks.borrows rfl rfl rfl <|
              (bare (by simp)).of_eq (kept.trans (same.returned.trans returned))
                ((q.unreserve_sameLine r).closed.trans (same.closed.trans closed))
    · exact leaves_own looks.borrows rfl rfl rfl (bare (by simp))

/-- In an open pool with somebody in line, a round without a resource in hand looks for one. -/
theorem round_none (opened : m.pool.closed = false) (line : m.pool.registry.entries ≠ [])
    (k : Nat) : m.round k none = m.seek k m.pool.registry.entries := by
  unfold round
  rw [if_neg (Bool.eq_false_iff.1 opened)]
  cases entries : m.pool.registry.entries with
  | nil => exact absurd entries line
  | cons w ws => rfl

theorem round_leaves (k : Nat) (inHand : Option Item) :
    ∃ as, Leaves e m (.round k inHand) as (m.round k inHand) := by
  unfold round
  split
  · next closed =>
      cases inHand with
      | none => exact leaves_own rfl rfl rfl rfl (.stop closed)
      | some i => exact leaves_own rfl rfl rfl rfl (.stop closed)
  · next opened =>
      have opened := Bool.eq_false_iff.2 opened
      cases line : m.pool.registry.entries with
      | nil =>
          cases inHand with
          | none => exact leaves_own rfl rfl rfl rfl (.bare rfl rfl (by simp))
          | some i => exact leaves_own rfl rfl rfl rfl (.store rfl rfl rfl (by simp))
      | cons w ws =>
          cases inHand with
          | none => exact seek_leaves (line ▸ .afresh opened (by simp [line]))
          | some i => exact handOut_leaves (line ▸ .inHand opened) rfl rfl rfl rfl

theorem trigger_leaves : ∃ as, Leaves e m .trigger as m.trigger := by
  unfold trigger
  dsimp only
  split
  · exact leaves_own rfl rfl rfl rfl (.bare rfl rfl (by simp))
  · exact leaves_nothing rfl rfl (.bare rfl rfl (by simp))

theorem again_leaves (k : Nat) : ∃ as, Leaves e m (.again k) as (m.again k) := by
  unfold again
  dsimp only
  split
  · exact leaves_nothing rfl rfl (.bare rfl rfl (by simp))
  · exact leaves_own rfl rfl rfl rfl (.bare rfl rfl (by simp))

theorem giveBack_leaves (i : Item) : ∃ as, Leaves e m (.giveBack i) as (m.giveBack i) := by
  unfold giveBack
  split
  · next misfit => exact leaves_own rfl rfl rfl rfl (.misfit misfit)
  · next p taken =>
      obtain ⟨_, rfl⟩ := Pool.takeBack?_eq_some taken
      dsimp only
      split
      · next tested => exact leaves_own rfl rfl rfl rfl (.checkin tested)
      · exact leaves_own rfl rfl rfl rfl (.store rfl rfl rfl (by simp))

theorem flush_leaves (who : Flusher) (failures : List CloseFailure) :
    ∃ as, Leaves e m (.flush who failures) as (m.flush who failures) := by
  unfold flush
  split
  · next i p popped =>
      obtain ⟨rest, queue, rfl⟩ := Pool.popReturned?_eq_some popped
      exact leaves_own rfl rfl rfl rfl (.flush queue)
  · next unpopped =>
      have empty : m.pool.returned = [] := by
        unfold Pool.popReturned? at unpopped
        split at unpopped <;> simp_all
      have same := m.pool.dismissAll_sameStock
      have returned : m.pool.dismissAll.returned = [] := same.returned.trans empty
      cases who with
      | closer =>
          exact leaves_own rfl rfl rfl rfl ((Sequel.report empty).of_eq returned same.closed)
      | matcher => exact leaves_nothing rfl rfl ((Sequel.leave empty).of_eq returned same.closed)

theorem teardown_leaves : ∃ as, Leaves e m .teardown as m.teardown := by
  unfold teardown
  split
  · next i p popped =>
      obtain ⟨rest, queue, rfl⟩ := Pool.popReturned?_eq_some popped
      exact ⟨_, rfl, rfl, .inr (by simp [Call.refersToPool]), .wreck queue⟩
  · exact leaves_nothing rfl rfl (.bare rfl rfl (by simp))

theorem nested_of_mem {before : Reply} {ops : List Op} {b : Activity}
    (member : b ∈ nested before ops) : (∃ op, b = .perform op) ∨ b = .finish before := by
  obtain ⟨op, _, here⟩ := List.mem_flatMap.1 member
  obtain rfl | here := List.mem_cons.1 here
  · exact .inl ⟨op, rfl⟩
  · exact .inr (List.mem_singleton.1 here)

/-- During a call operations are carried out, and then comes the answer. -/
theorem mem_begun {before : Reply} {ops : List Op} {c : Call} {b : Activity}
    (member : b ∈ nested before ops ++ [.answer c]) :
    (∃ op, b = .perform op) ∨ b = .finish before ∨ b = .answer c := by
  obtain member | member := List.mem_append.1 member
  · exact (nested_of_mem member).imp_right .inl
  · exact .inr (.inr (List.mem_singleton.1 member))

theorem mem_stopped {n : Nat} {inHand : Option Item} {b : Activity}
    (member : b ∈ (inHand.toList.map fun i => Activity.call (.close i .inHand)) ++
      [.flush .matcher [], .again n]) :
    (∃ i, b = .call (.close i .inHand)) ∨ b = .flush .matcher [] ∨ b = .again n := by
  obtain member | member := List.mem_append.1 member
  · obtain ⟨i, _, rfl⟩ := List.mem_map.1 member
    exact .inl ⟨i, rfl⟩
  · exact .inr (by simpa using member)

theorem backed_nested (before : Reply) (ops : List Op) {as : List Activity} (backed : Backed as) :
    Backed (nested before ops ++ as) := by
  induction ops with
  | nil => exact backed
  | cons op ops ih => exact ⟨by simp, by simp, ih⟩

theorem announce_leaves (c : Call) (counts : DispatchCounts) :
    ∃ as, Leaves e m (.call c) as (({ m with counts } : Machine σ).announce e c) := by
  refine ⟨_, rfl, rfl, ?_, .begin c _⟩
  cases refers : c.refersToPool with
  | false => exact .inr (backed_nested _ _ (by simp [refers]))
  | true =>
      refine .inl ⟨by simp [refers], fun b member => ?_⟩
      obtain ⟨op, rfl⟩ | rfl | rfl := mem_begun member <;> rfl

theorem call_leaves (c : Call) : ∃ as, Leaves e m (.call c) as (m.call e c) := by
  cases c with
  | schedule t =>
      unfold call
      dsimp only
      split
      · exact announce_leaves _ _
      · exact leaves_own rfl rfl rfl rfl (.begin _ [])
  | _ => exact announce_leaves _ m.counts

theorem occupy_untouched (r : Reservation) : (m.pool.occupy r).returned = m.pool.returned ∧
    (m.pool.occupy r).closed = m.pool.closed := by
  cases r <;> exact ⟨rfl, rfl⟩

theorem created_leaves (k w : Nat) (r : Reservation) :
    ∃ as, Leaves e m (.answer (.create k w r)) as (m.created e k w r) := by
  have lent (n : Machine σ) (i : Item) (same : m.Untouched n) (fresh : i.resource.id = m.made) :
      ∃ as, Leaves e m (.answer (.create k w r)) as ((n.push [.round k none]).lend w i) := by
    obtain ⟨t, pushed, rfl, rfl, untouched⟩ := (n.push [.round k none]).lend_untouched w i
    refine ⟨[.call (.schedule t), .round k none], ?_, untouched.paused.trans same.paused,
      .inl ⟨rfl, by simp⟩, ?_⟩
    · rw [pushed, ← same.stack]
      rfl
    · exact (Sequel.made fresh).of_eq (untouched.returned.trans same.returned)
        (untouched.closed.trans same.closed)
  unfold created
  split
  · exact lent _ _ ⟨rfl, rfl, (m.occupy_untouched r).1, (m.occupy_untouched r).2,
      (m.pool.occupy_sameLine r).cursor⟩ rfl
  · next cause env _ =>
      have same := (m.pool.unreserve r).complete_sameStock w
        (.error (.creationFailed r.slot cause))
      have kept : (m.pool.unreserve r).returned = m.pool.returned := by cases r <;> rfl
      exact leaves_own rfl rfl rfl rfl <| (Sequel.bare rfl rfl (by simp)).of_eq
        (same.returned.trans kept) (same.closed.trans (m.pool.unreserve_sameLine r).closed)

theorem validated_leaves (i : Item) (check : Check) :
    ∃ as, Leaves e m (.answer (.validate i check)) as (m.validated e i check) := by
  unfold validated
  dsimp only
  split
  · exact handOut_leaves .valid rfl rfl rfl rfl
  · exact leaves_own rfl rfl rfl rfl (.store rfl rfl rfl (by simp))
  · next invalid => exact leaves_own rfl rfl rfl rfl (.discard invalid)

theorem noteClosed_untouched (m : Machine σ) (slot : Nat) (f : Option Failure) :
    m.Untouched (m.noteClosed slot f) := by
  cases f <;> exact ⟨rfl, rfl, rfl, rfl, rfl⟩

theorem noteFailure_untouched (m : Machine σ) (slot : Nat) (f : Option Failure) :
    m.Untouched (m.noteFailure slot f) := by
  cases f <;> exact ⟨rfl, rfl, rfl, rfl, rfl⟩

theorem closed_leaves (i : Item) (why : Closing) :
    ∃ as, Leaves e m (.answer (.close i why)) as (m.closed e i why) := by
  unfold closed
  dsimp only
  generalize noted : ({ m with env := (e.close i.resource m.env).2 } : Machine σ).note _ = n
  have same : m.Untouched n := noted ▸ ⟨rfl, rfl, rfl, rfl, rfl⟩
  cases why with
  | invalid check =>
      have kept := same.trans (n.noteFailure_untouched i.slot (e.close i.resource m.env).1)
      cases check with
      | checkout k view =>
          refine ⟨[.search k view], congrArg _ kept.stack, kept.paused, .inl ⟨rfl, ?_⟩,
            Sequel.search.of_eq kept.returned kept.closed⟩
          simp
      | checkin =>
          refine ⟨[.trigger], congrArg _ kept.stack, kept.paused, .inl ⟨rfl, ?_⟩,
            (Sequel.bare rfl rfl (by simp)).of_eq kept.returned kept.closed⟩
          simp
  | misfit =>
      have kept := same.trans (n.noteFailure_untouched i.slot (e.close i.resource m.env).1)
      exact leaves_nothing kept.stack kept.paused <|
        (Sequel.bare rfl rfl (by simp)).of_eq kept.returned kept.closed
  | inHand | teardown =>
      have kept := same.trans (n.noteClosed_untouched i.slot (e.close i.resource m.env).1)
      exact leaves_nothing kept.stack kept.paused <|
        (Sequel.bare rfl rfl (by simp)).of_eq kept.returned kept.closed
  | flush who failures =>
      have kept := same.trans (n.noteClosed_untouched i.slot (e.close i.resource m.env).1)
      refine ⟨_, congrArg _ kept.stack, kept.paused, .inl ⟨rfl, ?_⟩,
        Sequel.flushed.of_eq kept.returned kept.closed⟩
      simp

theorem scheduled_leaves (t : Task) :
    ∃ as, Leaves e m (.answer (.schedule t)) as (m.scheduled t) := by
  unfold scheduled
  split
  · exact leaves_own rfl rfl rfl rfl (.bare rfl rfl (by simp))
  · exact leaves_nothing rfl rfl (.bare rfl rfl (by simp))

theorem answered_leaves (c : Call)
    (awake : ∀ k w r, c = .create k w r → m.background.holdsBack = false) :
    ∃ as, Leaves e m (.answer c) as (m.answered e c) := by
  cases c with
  | create k w r =>
      simp only [answered, awake k w r rfl]
      exact created_leaves k w r
  | validate i check => exact validated_leaves i check
  | close i why => exact closed_leaves i why
  | schedule t => exact scheduled_leaves t

theorem complete_leaves {a : Activity} (t : Task) (o : Outcome) (borrows : a.borrows = true)
    (empty : a.inHand? = none) (idle : a.flushes = false) :
    ∃ as, Leaves e m a as (m.complete t o) := by
  have same := m.pool.complete_sameStock t.waiter o
  unfold complete
  cases sent : m.pool.complete t.waiter o with
  | mk back p =>
      rw [sent] at same
      have bare {as : List Activity} (bare : ∀ b ∈ as, b.isBare = true) :
          m.Sequel e a as p.returned p.closed :=
        (Sequel.bare empty idle bare).of_eq same.returned same.closed
      obtain _ | _ | i := back
      · exact leaves_nothing rfl rfl (bare (by simp))
      · exact leaves_own borrows rfl rfl rfl (bare (by simp))
      · exact leaves_own borrows rfl rfl rfl (bare (by simp))

theorem hangUp_leaves (w : Nat) : ∃ as, Leaves e m (.hangUp w) as (m.hangUp w) := by
  have same := m.pool.hangUp_sameStock w
  unfold hangUp
  cases left : m.pool.hangUp w with
  | mk fallen p =>
      rw [left] at same
      have bare {as : List Activity} (bare : ∀ b ∈ as, b.isBare = true) :
          m.Sequel e (.hangUp w) as p.returned p.closed :=
        (Sequel.bare rfl rfl bare).of_eq same.returned same.closed
      obtain _ | _ | i := fallen
      · exact leaves_nothing rfl rfl (bare (by simp))
      · exact leaves_nothing rfl rfl (bare (by simp))
      · exact leaves_own rfl rfl rfl rfl (bare (by simp))

theorem quit_leaves (a : Acquire) :
    ∃ as, Leaves e m (.quit a) as ((m.push [.hangUp a.waiter]).withdraw a) := by
  obtain ⟨same, as, stack, calls⟩ := (m.push [.hangUp a.waiter]).withdraw_untouched a
  refine ⟨as ++ [.hangUp a.waiter], ?_, same.paused, .inl ⟨rfl, ?_⟩, ?_⟩
  · rw [stack, List.append_assoc]
    rfl
  · obtain rfl | rfl := calls <;> simp
  · refine (Sequel.bare rfl rfl ?_).of_eq same.returned same.closed
    obtain rfl | rfl := calls <;> simp

theorem acquired_leaves (a : Acquire) (purpose : Purpose) :
    ∃ as, Leaves e m (.acquired a purpose) as (m.requested a purpose) := by
  cases purpose with
  | handle k =>
      exact leaves_own rfl rfl rfl rfl (.bare rfl rfl (by simp))
  | background k => exact leaves_nothing rfl rfl (.bare rfl rfl (by simp))
  | get k =>
      have same := m.look_untouched a.waiter
      simp only [requested]
      unfold firstPoll
      split
      · next found =>
          rw [found] at same
          exact (Quiet.push same rfl (by simp)).leaves rfl rfl
      · next found =>
          rw [found] at same
          exact (Quiet.push same rfl (by simp)).leaves rfl rfl
      · next found =>
          rw [found] at same
          exact ((Quiet.still same).trans (.answer _ _)).leaves rfl rfl

/-- What an activity leaves to be done, unless a thread stops in it or is taken up again. -/
theorem exec_leaves (a : Activity) (alone : a ≠ .perform .join)
    (awake : ∀ k w r, a = .answer (.create k w r) → m.background.holdsBack = false) :
    ∃ as, Leaves e m a as (m.exec e a) := by
  cases a with
  | perform op =>
      by_cases stays : op = .close
      · subst stays
        simp only [exec, perform, onPool, close]
        split
        · split
          · exact leaves_nothing rfl rfl (.bare rfl rfl (by simp))
          · next opened =>
              exact ⟨_, rfl, rfl,
                .inr (by simp),
                .close (Bool.eq_false_iff.2 opened)⟩
        · exact leaves_nothing rfl rfl (.bare rfl rfl (by simp))
      · exact (perform_quiet stays fun joins => alone (joins ▸ rfl)).leaves rfl rfl
  | finish before => exact leaves_nothing rfl rfl (.bare rfl rfl (by simp))
  | say r => exact leaves_nothing rfl rfl (.bare rfl rfl (by simp))
  | release =>
      simp only [exec, release]
      split
      · exact leaves_nothing rfl rfl (.bare rfl rfl (by simp))
      · exact ⟨_, rfl, rfl, .inr (by simp), .bare rfl rfl (by simp)⟩
  | teardown => exact teardown_leaves
  | acquire purpose =>
      simp only [exec, request]
      split <;> exact leaves_own rfl rfl rfl rfl (.bare rfl rfl (by simp))
  | acquired a purpose => exact acquired_leaves a purpose
  | put k x =>
      have quiet : m.Quiet (m.put k x) := by
        refine .push ⟨rfl, rfl, rfl, rfl, rfl⟩ (List.all_eq_true.2 fun b member => ?_) ?_
        · obtain ⟨y, _, inside⟩ := List.mem_flatMap.1 member
          exact bare_dropHandle y b inside
        · cases m.handles.get? k with
          | none => trivial
          | some y => simpa using backed_dropHandle y [] trivial
      exact quiet.leaves rfl rfl
  | quit a => exact quit_leaves a
  | hangUp w => exact hangUp_leaves w
  | abandon t => exact leaves_nothing rfl rfl (.bare rfl rfl (by simp))
  | giveBack i => exact giveBack_leaves i
  | trigger => exact trigger_leaves
  | again k => exact again_leaves k
  | round k inHand => exact round_leaves k inHand
  | search k view => exact seek_leaves .again
  | call c => exact call_leaves c
  | answer c => exact answered_leaves c fun k w r same => awake k w r (same ▸ rfl)
  | task t =>
      simp only [exec, runTask]
      split <;> exact ⟨_, rfl, rfl, .inr (by simp),
        .bare rfl rfl (by simp)⟩
  | deliver t | refuse t => exact complete_leaves t _ rfl rfl rfl
  | wentAway | ran | timedOut | thread =>
      exact leaves_nothing rfl rfl (.bare rfl rfl (by simp))
  | flush who failures => exact flush_leaves who failures
  | report failures =>
      simp only [exec, report]
      split <;> exact leaves_nothing rfl rfl (.bare rfl rfl (by simp))
  | awaited k =>
      simp only [exec, awaited]
      split
      · exact (Quiet.push (.refl m) rfl (by simp)).leaves rfl rfl
      · exact leaves_nothing rfl rfl (.bare rfl rfl (by simp))
  | collect k rest seen => exact (pollEach_quiet _ rest).leaves rfl rfl
  | runNext left labels => exact (runNext_quiet left labels).leaves rfl rfl
  | turn => exact turn_quiet.leaves rfl rfl
  | launched =>
      simp only [exec, launched]
      split <;> exact (Quiet.answer m _).leaves rfl rfl
  | joined =>
      simp only [exec, joined]
      split
      · exact ⟨_, rfl, rfl,
          .inr (by simp),
          .bare rfl rfl (by simp)⟩
      · exact (Quiet.answer m _).leaves rfl rfl

/-- How a step goes on with the activity on top and the rest of the stack. -/
inductive Turn (e : Environment σ) (m : Machine σ) (a : Activity) (rest : List Activity)
    (m' : Machine σ) : Prop
  | goOn {as : List Activity} (leaves : Leaves e { m with stack := rest } a as m')
  /-- What the other thread had to do stands on top again. -/
  | resume (joins : a = .perform .join) (resumed : m'.background = .resumed)
      (stack : m'.stack = m.paused ++ .joined :: rest) (paused : m'.paused = [])
      (pool : m'.pool = m.pool)
  /-- The thread stops and sets aside what it has to do. -/
  | halt {k w : Nat} {r : Reservation} {above below : List Activity}
      (creates : a = .answer (.create k w r)) (running : m.background = .running)
      (parts : rest = above ++ below) (own : ∀ b ∈ above, b.isThread = false)
      (mark : ∀ b ∈ below.take 1, b.isThread = true)
      (stack : m'.stack = below.drop 1)
      (paused : m'.paused = a :: above ++ below.take 1 ++ m.paused) (pool : m'.pool = m.pool)

/-- Apart from their order, the activities change as the sequel says; a thread that stops changes
nothing else. -/
theorem Turn.perm {a : Activity} {rest : List Activity} {m' : Machine σ}
    (turn : Turn e m a rest m') : ∃ as, m'.activities.Perm (as ++ (rest ++ m.paused)) ∧
      (({ m with stack := rest } : Machine σ).Sequel e a as m'.pool.returned m'.pool.closed ∨
        (∃ k w r, a = .answer (.create k w r)) ∧ as = [a] ∧ m'.pool = m.pool) := by
  cases turn with
  | @goOn as leaves =>
      refine ⟨as, ?_, .inl leaves.sequel⟩
      rw [activities, leaves.stack, leaves.paused, List.append_assoc]
  | resume joins _ stack paused pool =>
      refine ⟨[.joined], ?_, .inl ?_⟩
      · rw [activities, stack, paused, List.append_nil]
        exact List.perm_middle.trans (List.perm_append_comm.cons _)
      · rw [joins, pool]
        exact .bare rfl rfl (by simp)
  | @halt k w r above below creates _ parts _ _ stack paused pool =>
      refine ⟨[a], ?_, .inr ⟨⟨k, w, r, creates⟩, rfl, pool⟩⟩
      rw [activities, stack, paused, parts, List.cons_append, List.cons_append]
      refine List.perm_middle.trans (List.Perm.cons a ?_)
      simp only [List.append_assoc]
      refine List.perm_append_comm_assoc .. |>.trans (List.Perm.append_left above ?_)
      refine (List.perm_append_comm_assoc ..).trans ?_
      rw [← List.append_assoc, List.take_append_drop]

theorem hold_turn {k w : Nat} {r : Reservation} {rest : List Activity}
    (running : m.background = .running) :
    Turn e m (.answer (.create k w r)) rest
      (({ m with stack := rest } : Machine σ).hold e (.create k w r)) := by
  have parts := List.takeWhile_append_dropWhile (p := fun a : Activity => !a.isThread) (l := rest)
  have below : rest.drop (rest.takeWhile fun a => !a.isThread).length =
      rest.dropWhile fun a => !a.isThread := by
    generalize (rest.takeWhile fun a => !a.isThread) = above,
      (rest.dropWhile fun a => !a.isThread) = below at parts
    rw [← parts, List.drop_left]
  refine .halt rfl running parts.symm (fun b member => ?_) (fun b member => ?_) ?_ ?_ rfl
  · simpa using List.mem_takeWhile_imp member
  · have head := List.head?_dropWhile_not (fun a : Activity => !a.isThread) rest
    cases further : rest.dropWhile fun a => !a.isThread <;> simp_all [-Activity.isThread]
  · simp only [hold, below]
  · simp only [hold, below]

theorem join_turn (m : Machine σ) (rest : List Activity) :
    Turn e m (.perform .join) rest (({ m with stack := rest } : Machine σ).join e) := by
  have quiet (n : Machine σ)
      (quiet : Quiet { m with stack := rest } n) : Turn e m (.perform .join) rest n := by
    obtain ⟨as, leaves⟩ := quiet.leaves (e := e) (a := .perform .join) rfl rfl
    exact .goOn leaves
  unfold join
  split
  · refine .resume rfl rfl ?_ rfl rfl
    simp [push]
  · exact quiet _ (.push (.refl _) rfl (by simp))
  · exact quiet _ (.answer _ _)

/-- Every step with something to do goes on in one of these ways. -/
theorem step_turn {a : Activity} {rest : List Activity} (top : m.stack = a :: rest) :
    Turn e m a rest (m.step e) := by
  have next : m.step e = ({ m with stack := rest } : Machine σ).exec e a := by
    rw [step, top]
  rw [next]
  by_cases joins : a = .perform .join
  · subst joins
    exact m.join_turn rest
  · by_cases halts : (∃ k w r, a = .answer (.create k w r)) ∧ m.background.holdsBack = true
    · obtain ⟨⟨k, w, r, rfl⟩, back⟩ := halts
      simp only [exec, answered, back, if_true]
      refine hold_turn ?_
      cases background : m.background <;> simp_all [Background.holdsBack]
    · obtain ⟨as, leaves⟩ := exec_leaves (e := e) (m := { m with stack := rest }) a joins
        fun k w r same => Bool.eq_false_iff.2 fun back => halts ⟨⟨k, w, r, same⟩, back⟩
      exact .goOn leaves

end Machine
end ResourcePool
