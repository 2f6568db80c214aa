import ResourcePool.Proofs.Effects
import ResourcePool.Proofs.Step

/-!
What is known of each request in every state. A request is pending, or somebody holds the only right
to answer it, or it was answered, and what was decided about it says which. Exactly the pending
requests stand in line.
-/

namespace ResourcePool

attribute [-simp] Multiset.singleton_add

namespace Asset

@[simp] def course? (w : Nat) : Asset → Option (List Fate)
  | sender v course => if v = w then some course else none
  | _ => none

@[simp] def attachment? (w : Nat) : Asset → Option Bool
  | listener a => if a.waiter = w then some a.attached else none
  | _ => none

end Asset

/-- What there is of a request outside the shared state. -/
structure Ties where
  fates : List Fate := []
  /-- Who may send its outcome, with what was decided so far. -/
  senders : Multiset (List Fate) := 0
  /-- Who listens, and whether the request may still be withdrawn. -/
  listeners : Multiset Bool := 0
  sights : List Outcome := []

def Books.ties (b : Books) (w : Nat) : Ties where
  fates := b.history.fates w
  senders := b.assets.filterMap (Asset.course? w)
  listeners := b.assets.filterMap (Asset.attachment? w)
  sights := b.history.sights w

/-- What may be known of a request and its waiter. -/
inductive Standing (x : Waiter Outcome) : Ties → Prop
  | pending (state : x.state = .pending) (line : x.line = .silent) (listening : x.listening = true) :
      Standing x { listeners := {true} }
  /-- Somebody holds the right to answer. -/
  | claimed {fates : List Fate} {listeners : Multiset Bool} (state : x.state ≠ .pending)
      (line : x.line = .silent) (course : fates = [] ∨ ∃ f : Fate, fates = f.course)
      (heard : (∃ b, listeners = {b}) ∧ x.listening = true ∨
        listeners = 0 ∧ x.listening = false) :
      Standing x { fates, senders := {fates}, listeners }
  | answered {f : Fate} {o : Outcome} {b : Bool} (state : x.state ≠ .pending)
      (line : x.line = .sent o) (listening : x.listening = true) (answer : f.answer = some o) :
      Standing x { fates := f.course, listeners := {b} }
  /-- Nothing can come any more. -/
  | forsaken {f : Fate} {b : Bool} (state : x.state ≠ .pending) (line : x.line = .over)
      (answer : f.answer = some (.error .cancelled)) :
      Standing x { fates := f.course, listeners := {b} }
  /-- The outcome was or will not be seen by anybody any more. -/
  | finished {f : Fate} {o : Outcome} {sights : List Outcome} (state : x.state ≠ .pending)
      (line : x.line = .over) (answer : f.answer = some o) (seen : sights = [] ∨ sights = [o]) :
      Standing x { fates := f.course, sights }

/-- The line of a pool, and what is known of each request. -/
structure Standings (p : Pool) (t : Nat → Ties) : Prop where
  ascending : p.registry.entries.Pairwise (· < ·)
  inLine : ∀ w, w ∈ p.registry.entries ↔ ∃ x, p.waiters[w]? = some x ∧ x.state = .pending
  standing : ∀ w x, p.waiters[w]? = some x → Standing x (t w)
  beyond : ∀ w, p.waiters[w]? = none → t w = {}

namespace Fate

theorem head_course (f : Fate) : ∃ fs, f.course = f :: fs := by
  cases f <;> exact ⟨_, rfl⟩

/-- What is decided next makes a course. -/
theorem Follows.course {f : Fate} {fs : List Fate} (follows : f.Follows fs) :
    f.course = f :: fs := by
  unfold Follows at follows
  split at follows <;> first | rfl | exact follows.elim | (subst follows; rfl)

theorem eq_of_course {f g : Fate} {fs : List Fate} (same : g :: fs = f.course) : f = g := by
  obtain ⟨rest, course⟩ := f.head_course
  rw [course] at same
  exact (List.cons.inj same).1.symm

end Fate

namespace Standings

variable {p q : Pool} {t u : Nat → Ties}

theorem update {w : Nat} {x y : Waiter Outcome} (before : Standings p t)
    (found : p.waiters[w]? = some x) (waiters : q.waiters = p.waiters.modify w fun _ => y)
    (line : q.registry.entries = p.registry.entries ∧ x.state ≠ .pending ∨
      q.registry.entries = p.registry.entries.erase w)
    (settled : y.state ≠ .pending) (standing : Standing y (u w))
    (others : ∀ v, v ≠ w → u v = t v) : Standings q u := by
  have look : ∀ v, q.waiters[v]? = if v = w then some y else p.waiters[v]? := by
    intro v
    rw [waiters, List.getElem?_modify]
    by_cases same : w = v
    · subst same
      simp [found]
    · simp [same, Ne.symm same]
  have nodup : p.registry.entries.Nodup := before.ascending.imp Nat.ne_of_lt
  -- Who is not pending is not in line, so nothing is lost by erasing it.
  have entries : q.registry.entries = p.registry.entries.erase w := by
    obtain ⟨same, state⟩ | erased := line
    · rw [same, List.erase_of_not_mem]
      intro inside
      obtain ⟨x', found', pending⟩ := (before.inLine w).1 inside
      exact state (Option.some.inj (found.symm.trans found') ▸ pending)
    · exact erased
  constructor
  case ascending => exact entries ▸ before.ascending.sublist List.erase_sublist
  case inLine =>
    intro v
    rw [entries, nodup.mem_erase_iff, look]
    by_cases same : v = w
    · simp [same, settled]
    · simp only [ne_eq, same, not_false_eq_true, true_and, if_false]
      exact before.inLine v
  case standing =>
    intro v z found'
    rw [look] at found'
    by_cases same : v = w
    · subst same
      obtain rfl : y = z := by simpa using found'
      exact standing
    · rw [others v same]
      exact before.standing v z (by simpa [same] using found')
  case beyond =>
    intro v absent
    rw [look] at absent
    by_cases same : v = w
    · simp [same] at absent
    · rw [others v same]
      exact before.beyond v (by simpa [same] using absent)

theorem append {y : Waiter Outcome} (before : Standings p t)
    (waiters : q.waiters = p.waiters ++ [y])
    (line : q.registry.entries =
      p.registry.entries ++ if y.state = .pending then [p.nextWaiter] else [])
    (standing : Standing y (u p.nextWaiter)) (others : ∀ v, v ≠ p.nextWaiter → u v = t v) :
    Standings q u := by
  have look : ∀ v, q.waiters[v]? = if v = p.nextWaiter then some y else p.waiters[v]? := by
    intro v
    rw [waiters, List.getElem?_append]
    unfold Pool.nextWaiter
    obtain lt | eq | gt := Nat.lt_trichotomy v p.waiters.length
    · simp [lt, Nat.ne_of_lt lt]
    · simp [eq]
    · have further : ([y] : List (Waiter Outcome))[v - p.waiters.length]? = none := by
        refine List.getElem?_eq_none ?_
        simp only [List.length_singleton]
        omega
      simp [Nat.not_lt_of_gt gt, Nat.ne_of_gt gt, further]
  -- Waiters are numbered in order, so the new one comes after everybody in line.
  have known : ∀ v ∈ p.registry.entries, v < p.nextWaiter := by
    intro v inside
    obtain ⟨x, found, _⟩ := (before.inLine v).1 inside
    exact (List.getElem?_eq_some_iff.1 found).1
  constructor
  case ascending =>
    rw [line]
    refine List.pairwise_append.2 ⟨before.ascending, ?_, fun v inside w last => ?_⟩
    · split <;> simp
    · have : w = p.nextWaiter := by
        split at last <;> simp_all
      exact this ▸ known v inside
  case inLine =>
    intro v
    rw [line, List.mem_append, look]
    by_cases same : v = p.nextWaiter
    · subst same
      have fresh : p.nextWaiter ∉ p.registry.entries :=
        fun inside => Nat.lt_irrefl _ (known _ inside)
      by_cases pending : y.state = .pending <;> simp [pending, fresh]
    · have other : v ∉ if y.state = .pending then [p.nextWaiter] else [] := by
        split <;> simp [same]
      simp only [other, or_false, same, if_false]
      exact before.inLine v
  case standing =>
    intro v z found
    rw [look] at found
    by_cases same : v = p.nextWaiter
    · subst same
      obtain rfl : y = z := by simpa using found
      exact standing
    · rw [others v same]
      exact before.standing v z (by simpa [same] using found)
  case beyond =>
    intro v absent
    rw [look] at absent
    by_cases same : v = p.nextWaiter
    · simp [same] at absent
    · rw [others v same]
      exact before.beyond v (by simpa [same] using absent)

theorem frame (before : Standings p t) (waiters : q.waiters = p.waiters)
    (line : q.registry.entries = p.registry.entries) (same : ∀ w, u w = t w) :
    Standings q u := by
  obtain rfl : u = t := funext same
  exact ⟨line ▸ before.ascending, by rw [line, waiters]; exact before.inLine,
    waiters ▸ before.standing, waiters ▸ before.beyond⟩

variable {w : Nat} (before : Standings p t) (others : ∀ v, v ≠ w → u v = t v)
include before others

theorem retie (same : ∀ x, p.waiters[w]? = some x → Standing x (u w))
    (known : p.waiters[w]? ≠ none) : Standings p u := by
  constructor
  case ascending => exact before.ascending
  case inLine => exact before.inLine
  case standing =>
    intro v x found
    by_cases here : v = w
    · subst here
      exact same x found
    · exact others v here ▸ before.standing v x found
  case beyond =>
    intro v absent
    have elsewhere : v ≠ w := fun here => known (here ▸ absent)
    exact others v elsewhere ▸ before.beyond v absent

omit others in
/-- A request that somebody listens to, or has the right to answer, has a waiter. -/
theorem known (tied : t w ≠ {}) : ∃ x, p.waiters[w]? = some x ∧ Standing x (t w) := by
  cases found : p.waiters[w]? with
  | none => exact absurd (before.beyond w found) tied
  | some x => exact ⟨x, rfl, before.standing w x found⟩

theorem enroll (new : w = p.nextWaiter) (after : u w = { listeners := {true} }) :
    Standings p.enroll u := by
  subst new
  refine before.append (y := { id := p.nextWaiter }) rfl (by simp [Pool.enroll]) ?_ others
  rw [after]
  exact .pending rfl rfl rfl

theorem turnAway (new : w = p.nextWaiter)
    (after : u w = { fates := [.turnedAway], listeners := {false} }) :
    Standings p.turnAway u := by
  subst new
  refine before.append (q := p.turnAway) rfl (by simp [Pool.turnAway]) ?_ others
  rw [after]
  exact .answered (f := .turnedAway) (by simp) rfl rfl rfl

omit before others in
theorem pending_of_state {x : Waiter Outcome} {s : Ties} (standing : Standing x s)
    (state : x.state = .pending) :
    x.line = .silent ∧ x.listening = true ∧ s = { listeners := {true} } := by
  cases standing with
  | pending _ line listening => exact ⟨line, listening, rfl⟩
  | claimed state' | answered state' | forsaken state' | finished state' =>
      exact absurd state state'

theorem withdraw {b : Bool} {S : Multiset Bool} (listener : {b} + S = (t w).listeners)
    (cancelled : p.cancel? w = some q)
    (after : u w = { t w with
      fates := .withdrawn :: (t w).fates, listeners := {false} + S }) :
    Standings q u := by
  obtain ⟨x, found, state, rfl⟩ := Pool.cancel?_eq_some cancelled
  obtain ⟨_, _, ties⟩ := pending_of_state (before.standing w x found) state
  rw [ties] at listener
  obtain ⟨-, rfl⟩ := singleton_add_eq_singleton.1 listener
  refine before.update found rfl (.inr rfl) (by simp) ?_ others
  rw [after, ties]
  exact .forsaken (f := .withdrawn) (by simp) rfl rfl

theorem forgo {b : Bool} {S : Multiset Bool} (listener : {b} + S = (t w).listeners)
    (late : b = true → p.cancel? w = none)
    (after : u w = { t w with listeners := {false} + S }) : Standings p u := by
  obtain ⟨x, found, standing⟩ := before.known (w := w) fun none => by simp [none] at listener
  refine before.retie others (fun x' found' => ?_) (by simp [found])
  obtain rfl : x = x' := Option.some.inj (found.symm.trans found')
  rw [after]
  generalize t w = s at standing listener
  cases standing with
  | pending state =>
      -- A pending request that is attached would have been withdrawn.
      obtain ⟨rfl, -⟩ := singleton_add_eq_singleton.1 listener
      have := Pool.cancel?_of_pending found state
      simp [late rfl] at this
  | claimed state line course heard =>
      obtain ⟨⟨b', rfl⟩, listening⟩ | ⟨rfl, _⟩ := heard
      · obtain ⟨-, rfl⟩ := singleton_add_eq_singleton.1 listener
        exact .claimed state line course (.inl ⟨⟨false, rfl⟩, listening⟩)
      · exact absurd listener (singleton_add_ne_zero b S)
  | answered state line listening answer =>
      obtain ⟨-, rfl⟩ := singleton_add_eq_singleton.1 listener
      exact .answered state line listening answer
  | forsaken state line answer =>
      obtain ⟨-, rfl⟩ := singleton_add_eq_singleton.1 listener
      exact .forsaken state line answer
  | finished => exact absurd listener (singleton_add_ne_zero b S)

theorem hangUp {S : Multiset Bool} (listener : {false} + S = (t w).listeners)
    (after : u w = { t w with listeners := S }) : Standings (p.hangUp w).2 u := by
  obtain ⟨x, found, standing⟩ := before.known (w := w) fun none => by simp [none] at listener
  have moved : (p.hangUp w).2 = p.modifyWaiter w fun _ => x.hangUp.2 := by
    simp [Pool.hangUp, Pool.waiter?, found]
  have settled : x.hangUp.2.state = x.state := by
    unfold Waiter.hangUp
    split <;> rfl
  have pending : x.state ≠ .pending := by
    intro state
    rw [(pending_of_state standing state).2.2] at listener
    simp at listener
  refine before.update found (congrArg Pool.waiters moved)
    (.inl ⟨by rw [moved]; rfl, pending⟩) (settled ▸ pending) ?_ others
  rw [after]
  generalize t w = s at standing listener
  cases standing with
  | pending state => exact absurd state pending
  | claimed state line course heard =>
      obtain ⟨⟨b', rfl⟩, listening⟩ | ⟨rfl, _⟩ := heard
      · obtain ⟨-, rfl⟩ := singleton_add_eq_singleton.1 listener
        simp only [Waiter.hangUp, line]
        exact .claimed state rfl course (.inr ⟨rfl, rfl⟩)
      · exact absurd listener (singleton_add_ne_zero false S)
  | answered state line listening answer =>
      obtain ⟨-, rfl⟩ := singleton_add_eq_singleton.1 listener
      simp only [Waiter.hangUp, line]
      exact .finished state rfl answer (.inl rfl)
  | forsaken state line answer =>
      obtain ⟨-, rfl⟩ := singleton_add_eq_singleton.1 listener
      simp only [Waiter.hangUp, line]
      exact .finished state rfl answer (.inl rfl)
  | finished => exact absurd listener (singleton_add_ne_zero false S)

theorem see {b : Bool} {S : Multiset Bool} {o : Outcome}
    (listener : {b} + S = (t w).listeners)
    (found : p.receive w = (.value o, q) ∨ p.receive w = (.closed, q) ∧ o = .error .cancelled)
    (after : u w = { t w with listeners := S, sights := o :: (t w).sights }) :
    Standings q u := by
  obtain ⟨x, exists_, standing⟩ := before.known (w := w) fun none => by simp [none] at listener
  have moved : p.receive w = (x.receive.1, p.modifyWaiter w fun _ => x.receive.2) := by
    simp [Pool.receive, Pool.waiter?, exists_]
  rw [moved] at found
  have changed : q = p.modifyWaiter w fun _ => x.receive.2 := by
    obtain found | ⟨found, _⟩ := found <;> exact (congrArg Prod.snd found).symm
  have noise : x.receive.1 = .value o ∨ x.receive.1 = .closed ∧ o = .error .cancelled :=
    found.imp (congrArg Prod.fst) (And.imp_left (congrArg Prod.fst))
  have settled : x.receive.2.state = x.state := by
    unfold Waiter.receive
    split <;> rfl
  have audible : x.line ≠ .silent := by
    intro silent
    simp [Waiter.receive, silent] at noise
  have pending : x.state ≠ .pending := fun state =>
    audible (pending_of_state standing state).1
  refine before.update exists_ (congrArg Pool.waiters changed)
    (.inl ⟨by rw [changed]; rfl, pending⟩) (settled ▸ pending) ?_ others
  rw [after]
  generalize t w = s at standing listener
  cases standing with
  | pending state => exact absurd state pending
  | claimed _ line => exact absurd line audible
  | answered state line listening answer =>
      obtain ⟨-, rfl⟩ := singleton_add_eq_singleton.1 listener
      simp only [Waiter.receive, line, Reception.value.injEq, reduceCtorEq, false_and,
        or_false] at noise ⊢
      exact .finished state rfl answer (.inr (by rw [noise]))
  | forsaken state line answer =>
      obtain ⟨-, rfl⟩ := singleton_add_eq_singleton.1 listener
      simp only [Waiter.receive, line, reduceCtorEq, true_and, false_or] at noise ⊢
      exact .finished state line answer (.inr (by rw [noise]))
  | finished => exact absurd listener (singleton_add_ne_zero b S)

omit others in
theorem silent_of_sender {c : List Fate} {S : Multiset (List Fate)}
    (sender : {c} + S = (t w).senders) : ∃ x, p.waiters[w]? = some x ∧ x.line = .silent := by
  obtain ⟨x, found, standing⟩ := before.known (w := w) fun none => by simp [none] at sender
  refine ⟨x, found, ?_⟩
  generalize t w = s at standing sender
  cases standing with
  | claimed _ line => exact line
  | pending | answered | forsaken | finished => exact absurd sender (singleton_add_ne_zero c S)

/-- Who has the right to answer decides what comes next. -/
theorem foretell {f : Fate} {c : List Fate} {S : Multiset (List Fate)}
    (sender : {c} + S = (t w).senders) (follows : f.Follows c)
    (after : u w = { t w with fates := f :: (t w).fates, senders := {f :: c} + S }) :
    Standings p u := by
  obtain ⟨x, found, standing⟩ := before.known (w := w) fun none => by simp [none] at sender
  refine before.retie others (fun x' found' => ?_) (by simp [found])
  obtain rfl : x = x' := Option.some.inj (found.symm.trans found')
  rw [after]
  generalize t w = s at standing sender
  cases standing with
  | claimed state line course heard =>
      obtain ⟨rfl, rfl⟩ := singleton_add_eq_singleton.1 sender
      exact .claimed state line (.inr ⟨f, follows.course.symm⟩) heard
  | pending | answered | forsaken | finished => exact absurd sender (singleton_add_ne_zero c S)

theorem complete {f : Fate} {c : List Fate} {S : Multiset (List Fate)} {o : Outcome}
    (sender : {f :: c} + S = (t w).senders) (answer : f.answer = some o)
    (after : u w = { t w with senders := S }) : Standings (p.complete w o).2 u := by
  obtain ⟨x, found, standing⟩ := before.known (w := w) fun none => by simp [none] at sender
  have moved : (p.complete w o).2 = p.modifyWaiter w fun _ => (x.complete o).2 := by
    simp [Pool.complete, Pool.waiter?, found]
  have settled : (x.complete o).2.state = x.state := by
    unfold Waiter.complete
    split <;> rfl
  generalize ties : t w = s at standing sender
  cases standing with
  | claimed state line course heard =>
      obtain ⟨rfl, rfl⟩ := singleton_add_eq_singleton.1 sender
      obtain ⟨g, course⟩ := course.resolve_left (by simp)
      obtain rfl := Fate.eq_of_course course
      refine before.update found (congrArg Pool.waiters moved)
        (.inl ⟨by rw [moved]; rfl, state⟩) (settled ▸ state) ?_ others
      rw [after, ties, course]
      obtain ⟨⟨b, rfl⟩, listening⟩ | ⟨rfl, listening⟩ := heard <;>
        simp only [Waiter.complete, listening, if_true, Bool.false_eq_true, if_false]
      · exact .answered state rfl rfl answer
      · exact .finished state rfl answer (.inl rfl)
  | pending | answered | forsaken | finished =>
      exact absurd sender (singleton_add_ne_zero _ S)

theorem abandon {i : Item} {S : Multiset (List Fate)}
    (sender : {[.entrusted i]} + S = (t w).senders)
    (after : u w = { t w with fates := .lost i :: (t w).fates, senders := S }) :
    Standings (p.abandon w) u := by
  obtain ⟨x, found, standing⟩ := before.known (w := w) fun none => by simp [none] at sender
  have moved : p.abandon w = p.modifyWaiter w fun _ => x.abandon :=
    Pool.modifyWaiter_eq found _
  generalize ties : t w = s at standing sender
  cases standing with
  | claimed state line course heard =>
      obtain ⟨rfl, rfl⟩ := singleton_add_eq_singleton.1 sender
      refine before.update found (congrArg Pool.waiters moved) (.inl ⟨rfl, state⟩) state ?_ others
      rw [after, ties]
      obtain ⟨⟨b, rfl⟩, listening⟩ | ⟨rfl, listening⟩ := heard
      · exact .forsaken (f := .lost i) state rfl rfl
      · exact .finished (f := .lost i) state rfl rfl (.inl rfl)
  | pending | answered | forsaken | finished =>
      exact absurd sender (singleton_add_ne_zero _ S)

theorem choose {view : List Nat} (chosen : p.pick view = (some w, q))
    (after : u w = { t w with senders := {[]} + (t w).senders }) : Standings q u := by
  obtain ⟨x, found, state, rfl⟩ := Pool.pick_eq_some chosen
  obtain ⟨line, listening, ties⟩ := pending_of_state (before.standing w x found) state
  refine before.update found rfl (.inr rfl) (by simp) ?_ others
  rw [after, ties]
  exact .claimed (by simp) line (.inl rfl) (.inl ⟨⟨true, rfl⟩, listening⟩)

omit others in
theorem miss {view : List Nat} (missed : p.pick view = (none, q)) : Standings q t := by
  obtain rfl | ⟨id, settled, rfl⟩ := Pool.pick_eq_none missed
  · exact before.frame rfl rfl fun _ => rfl
  · refine before.frame rfl (List.erase_of_not_mem fun inside => ?_) fun _ => rfl
    obtain ⟨x, found, pending⟩ := (before.inLine id).1 inside
    exact settled x found pending

theorem dismiss (inside : w ∈ p.registry.entries)
    (after : u w = { t w with fates := .dismissed :: (t w).fates }) :
    Standings (p.dismiss w) u := by
  obtain ⟨x, found, state⟩ := (before.inLine w).1 inside
  obtain ⟨line, listening, ties⟩ := pending_of_state (before.standing w x found) state
  have claimed := Pool.claim?_of_pending found state
  refine before.update (y := { x with state := .fulfilled, line := .sent (.error .closed) })
    found ?_ (.inr (by simp)) (by simp) ?_ others
  · refine List.ext_getElem? fun v => ?_
    simp only [Pool.dismiss, claimed, Pool.complete, Pool.waiter?, Pool.unregister,
      Pool.modifyWaiter, List.getElem?_modify, found, Waiter.complete]
    by_cases same : w = v
    · subst same
      simp [found, listening]
    · simp [same]
  · rw [after, ties]
    exact .answered (f := .dismissed) (by simp) rfl listening rfl

omit others in
theorem dismiss_head {id : Nat} {ids : List Nat} (line : p.registry.entries = id :: ids) :
    Standings (p.dismiss id)
      (Function.update t id { t id with fates := .dismissed :: (t id).fates }) :=
  before.dismiss (w := id) (fun _ other => Function.update_of_ne other ..) (by simp [line])
    (Function.update_self ..)

omit others in
theorem foldl_dismiss {ids : List Nat} (line : p.registry.entries = ids) :
    Standings (ids.foldl Pool.dismiss p) fun w =>
      if w ∈ ids then { t w with fates := .dismissed :: (t w).fates } else t w := by
  -- Each dismissal takes the head off the line, and nobody stands in it twice.
  induction ids generalizing p t with
  | nil => simpa using before
  | cons id ids ih =>
      have nodup : (id :: ids).Nodup := line ▸ before.ascending.imp Nat.ne_of_lt
      refine (ih (before.dismiss_head line) (by simp [line])).frame rfl rfl fun w => ?_
      by_cases same : w = id
      · subst same
        simp [(List.nodup_cons.1 nodup).1]
      · simp [same]

omit others before in
theorem fates_dismissals (h : History) {ids : List Nat} (nodup : ids.Nodup) (w : Nat) :
    History.fates ((ids.map fun v => .fate v .dismissed) ++ h) w =
      if w ∈ ids then .dismissed :: h.fates w else h.fates w := by
  induction ids with
  | nil => rfl
  | cons id ids ih =>
      obtain ⟨absent, nodup⟩ := List.nodup_cons.1 nodup
      by_cases same : id = w
      · subst same
        simpa [absent] using ih nodup
      · simpa [same, Ne.symm same] using ih nodup

omit others before in
theorem filterMap_dismissals {α : Type} (f : Deed → Option α)
    (apart : ∀ v, f (.fate v .dismissed) = none) (h : History) (ids : List Nat) :
    ((ids.map fun v => Deed.fate v .dismissed) ++ h).filterMap f = h.filterMap f := by
  induction ids with
  | nil => rfl
  | cons id ids ih => simp [apart]

end Standings

namespace Move

variable {gone : Prop} {b c : Books}

theorem standings (move : Move gone b c) (before : Standings b.pool b.ties) :
    Standings c.pool c.ties := by
  cases move with
  | enroll opened =>
      refine before.enroll (w := b.pool.nextWaiter) (fun v other => ?_) rfl ?_
      · simp [Books.ties, Ne.symm other]
      · have new := before.beyond b.pool.nextWaiter (by simp [Pool.nextWaiter])
        simp_all [Books.ties]
  | turnAway closed =>
      refine before.turnAway (w := b.pool.nextWaiter) (fun v other => ?_) rfl ?_
      · simp [Books.ties, Ne.symm other]
      · have new := before.beyond b.pool.nextWaiter (by simp [Pool.nextWaiter])
        simp_all [Books.ties]
  | @withdraw a p A held attached pending =>
      refine before.withdraw (w := a.waiter) (b := a.attached)
        (S := A.filterMap (Asset.attachment? a.waiter)) (fun v other => ?_) ?_ pending ?_
      · simp [Books.ties, held, Ne.symm other]
      · simp [Books.ties, held]
      · simp [Books.ties, held]
  | @forgo a A held late =>
      refine before.forgo (w := a.waiter) (b := a.attached)
        (S := A.filterMap (Asset.attachment? a.waiter)) (fun v other => ?_) ?_ late ?_
      · simp [Books.ties, held, Ne.symm other]
      · simp [Books.ties, held]
      · simp [Books.ties, held]
  | @hangUp w A held =>
      refine before.hangUp (w := w) (S := A.filterMap (Asset.attachment? w))
        (fun v other => ?_) ?_ ?_
      · simp only [Books.ties, held]
        split <;> simp [Ne.symm other]
      · simp [Books.ties, held]
      · simp only [Books.ties, held]
        split <;> simp
  | @see a o p A held found =>
      refine before.see (w := a.waiter) (b := a.attached)
        (S := A.filterMap (Asset.attachment? a.waiter)) (fun v other => ?_) ?_ found ?_
      · simp only [Books.ties, held]
        split <;> simp [Ne.symm other]
      · simp [Books.ties, held]
      · simp only [Books.ties, held]
        split <;> simp
  | @foretell w c f A held follows =>
      refine before.foretell (w := w) (S := A.filterMap (Asset.course? w))
        (fun v other => ?_) ?_ follows ?_
      · simp [Books.ties, held, Ne.symm other]
      · simp [Books.ties, held]
      · simp [Books.ties, held]
  | @send w f c i A held answer =>
      refine before.complete (w := w) (c := c) (S := A.filterMap (Asset.course? w))
        (fun v other => ?_) ?_ answer ?_
      · simp only [Books.ties, held]
        split <;> simp [Ne.symm other]
      · simp [Books.ties, held]
      · simp only [Books.ties, held]
        split <;> simp
  | @sendError w f c e A held answer =>
      refine before.complete (w := w) (c := c) (S := A.filterMap (Asset.course? w))
        (fun v other => ?_) ?_ answer ?_
      · simp [Books.ties, held, Ne.symm other]
      · simp [Books.ties, held]
      · simp [Books.ties, held]
  | @abandon w i A held =>
      refine before.abandon (w := w) (i := i) (S := A.filterMap (Asset.course? w))
        (fun v other => ?_) ?_ ?_
      · simp [Books.ties, held, Ne.symm other]
      · simp [Books.ties, held]
      · simp [Books.ties, held]
  | @choose view w p chosen =>
      refine before.choose (w := w) (fun v other => ?_) chosen ?_
      · simp [Books.ties, Ne.symm other]
      · simp [Books.ties]
  | miss missed => exact before.miss missed
  | dismissAll duty =>
      have nodup : b.pool.registry.entries.Nodup := before.ascending.imp Nat.ne_of_lt
      -- Everybody in line is pending, so every claim of the flush succeeds.
      have everybody : (b.pool.registry.entries.filter fun w => (b.pool.claim? w).isSome) =
          b.pool.registry.entries := by
        refine List.filter_eq_self.2 fun w inside => ?_
        obtain ⟨x, found, pending⟩ := (before.inLine w).1 inside
        simp [Pool.claim?_of_pending found pending]
      refine (before.foldl_dismiss rfl).frame rfl rfl fun w => ?_
      simp only [Books.ties, everybody, Standings.fates_dismissals _ nodup, History.sights,
        Standings.filterMap_dismissals (Deed.sight? w) fun _ => rfl]
      split <;> rfl
  | trigger held | again held =>
      refine before.frame rfl rfl fun w => ?_
      simp only [Books.ties, held]
      split <;> simp
  | reserve held reserved =>
      have same := Pool.reserve?_sameLine reserved
      exact before.frame same.waiters (congrArg _ same.registry)
        fun w => by simp [Books.ties, held]
  | @unreserve n r A held =>
      have same := b.pool.unreserve_sameLine r
      exact before.frame same.waiters (congrArg _ same.registry)
        fun w => by simp [Books.ties, held]
  | @create n r A held =>
      have same := b.pool.occupy_sameLine r
      exact before.frame same.waiters (congrArg _ same.registry)
        fun w => by simp [Books.ties, held]
  | lend held lent =>
      have same := Pool.lend?_sameLine lent
      exact before.frame same.waiters (congrArg _ same.registry)
        fun w => by simp [Books.ties, held]
  | takeBack held taken =>
      have same := Pool.takeBack?_sameLine taken
      exact before.frame same.waiters (congrArg _ same.registry)
        fun w => by simp [Books.ties, held]
  | pop popped =>
      have same := Pool.popReturned?_sameLine popped
      exact before.frame same.waiters (congrArg _ same.registry)
        fun w => by simp [Books.ties]
  | close opened => exact before.frame rfl rfl fun _ => by simp [Books.ties]
  | callTrigger | takeDuty closed | tearDown =>
      exact before.frame rfl rfl fun w => by simp [Books.ties]
  | rest held _ | lendMisfit held _ | takeBackMisfit held _ | queue held _ | spend held
  | vacate held _ | detach held _ | shut held _ | oust held | leaveDuty held
  | finishTearDown held | execute held _ =>
      exact before.frame rfl rfl fun w => by simp [Books.ties, held]

end Move

end ResourcePool
