import ResourcePool.Proofs.AfterClose
import ResourcePool.Proofs.Frame

/-!
The life of a slot. A slot passes from one state to another when it is filled, lent, taken back,
given up by a holder, retired or closed, and in no other way. Each passage belongs to what the pool
does in that step, and finds its slot in the state it leads from, in the middle of operations and
during calls to the surroundings too: whoever carries it out is the only one to answer for the slot.
-/

namespace ResourcePool

attribute [-simp] Multiset.singleton_add

/-- A change of the state of a slot. -/
inductive Passage
  /-- A new resource fills the slot. -/
  | create
  /-- The resource is handed to a waiter. -/
  | deliver
  /-- The resource comes back. -/
  | checkin
  /-- The holder keeps the resource for itself. -/
  | detach
  /-- The resource was invalid and was closed. -/
  | retire
  /-- The resource is closed together with the slot. -/
  | close
  deriving DecidableEq

namespace Passage

def source : Passage → SlotState
  | create => .uninitialized
  | deliver | retire | close => .idle
  | checkin | detach => .checkedOut

def target : Passage → SlotState
  | create | checkin => .idle
  | deliver => .checkedOut
  | detach | retire => .uninitialized
  | close => .closed

/-- The slot after the passage. -/
def pass (x : Passage) (s : Slot) : Slot where
  state := x.target
  generation := s.generation + if x = .create then 1 else 0
  checkouts := s.checkouts + if x = .deliver then 1 else 0

end Passage

/-- Passages with their slots, the latest first. -/
abbrev Ledger := List (Nat × Passage)

/-- The slots of the passages of one kind. -/
def Ledger.slots (l : Ledger) (x : Passage) : List Nat :=
  l.filterMap fun y => if y.2 = x then some y.1 else none

@[simp] theorem Ledger.slots_nil (x : Passage) : Ledger.slots [] x = [] := rfl

@[simp] theorem Ledger.slots_cons (y : Nat × Passage) (l : Ledger) (x : Passage) :
    Ledger.slots (y :: l) x = (if y.2 = x then [y.1] else []) ++ l.slots x := by
  unfold slots
  by_cases kind : y.2 = x <;> simp [kind]

@[simp] theorem Ledger.slots_append (l k : Ledger) (x : Passage) :
    Ledger.slots (l ++ k) x = l.slots x ++ k.slots x :=
  List.filterMap_append

theorem sum_map_set {α : Type} (f : α → Nat) {l : List α} {i : Nat} {a : α}
    (found : l[i]? = some a) (b : α) : ((l.set i b).map f).sum + f a = (l.map f).sum + f b := by
  induction l generalizing i with
  | nil => simp at found
  | cons c l ih =>
      cases i with
      | zero =>
          obtain rfl : c = a := by simpa using found
          simp only [List.set_cons_zero, List.map_cons, List.sum_cons]
          omega
      | succ i =>
          have rest := ih (i := i) (by simpa using found)
          simp only [List.set_cons_succ, List.map_cons, List.sum_cons]
          omega

/-- The slots change by these passages, and each finds its slot in the state it leads from. -/
inductive Passes (ss : List Slot) : Ledger → List Slot → Prop
  | refl : Passes ss [] ss
  | pass {l : Ledger} {ts : List Slot} {i : Nat} {x : Passage} {s : Slot} (before : Passes ss l ts)
      (found : ts[i]? = some s) (fits : s.state = x.source) :
      Passes ss ((i, x) :: l) (ts.set i (x.pass s))

namespace Passes

variable {ss ts us : List Slot} {l k : Ledger}

theorem of_eq (same : ts = ss) : Passes ss [] ts :=
  same ▸ .refl

theorem trans (first : Passes ss l ts) (second : Passes ts k us) : Passes ss (k ++ l) us := by
  induction second with
  | refl => exact first
  | pass _ found fits ih => exact ih.pass found fits

theorem length (passes : Passes ss l ts) : ts.length = ss.length := by
  induction passes with
  | refl => rfl
  | pass _ _ _ ih => rw [List.length_set, ih]

theorem inside (passes : Passes ss l ts) : ∀ x ∈ l, x.1 < ss.length := by
  induction passes with
  | refl => simp
  | pass before found _ ih =>
      refine List.forall_mem_cons.2 ⟨?_, ih⟩
      exact before.length ▸ (List.getElem?_eq_some_iff.1 found).1

/-- A number that only one kind of passage changes, and raises by one. -/
theorem count (passes : Passes ss l ts) {f : Slot → Nat} {x : Passage}
    (raises : ∀ y s, f (Passage.pass y s) = f s + if y = x then 1 else 0) (i : Nat) :
    f (ts.getD i {}) = f (ss.getD i {}) + (l.slots x).count i := by
  induction passes with
  | refl => rfl
  | @pass l ts j y s _ found _ ih =>
      rw [List.getD_eq_getElem?_getD] at ih ⊢
      obtain ⟨bound, _⟩ := List.getElem?_eq_some_iff.1 found
      by_cases same : j = i
      · subst same
        rw [found, Option.getD_some] at ih
        rw [List.getElem?_set_self bound, Option.getD_some, raises, ih]
        by_cases kind : y = x <;> simp [kind, Nat.add_assoc]
      · rw [List.getElem?_set_ne same, ih]
        by_cases kind : y = x <;> simp [kind, same]

theorem sum (passes : Passes ss l ts) {f : Slot → Nat} {x : Passage}
    (raises : ∀ y s, f (Passage.pass y s) = f s + if y = x then 1 else 0) :
    (ts.map f).sum = (ss.map f).sum + (l.slots x).length := by
  induction passes with
  | refl => rfl
  | @pass l ts j y s _ found _ ih =>
      have changed := sum_map_set f found (y.pass s)
      rw [raises] at changed
      by_cases kind : y = x <;> simp [kind] at changed ⊢ <;> omega

theorem generation (passes : Passes ss l ts) (i : Nat) :
    (ts.getD i {}).generation = (ss.getD i {}).generation + (l.slots .create).count i :=
  passes.count (f := Slot.generation) (fun _ _ => rfl) i

theorem checkouts (passes : Passes ss l ts) (i : Nat) :
    (ts.getD i {}).checkouts = (ss.getD i {}).checkouts + (l.slots .deliver).count i :=
  passes.count (f := Slot.checkouts) (fun _ _ => rfl) i

/-- Nothing leads out of a closed slot. -/
theorem closed (passes : Passes ss l ts) {i : Nat} (shut : (ss.getD i {}).state = .closed) :
    ts.getD i {} = ss.getD i {} := by
  induction passes with
  | refl => rfl
  | @pass l ts j x s _ found fits ih =>
      rw [List.getD_eq_getElem?_getD] at ih ⊢
      by_cases same : j = i
      · subst same
        rw [found, Option.getD_some] at ih
        rw [← ih, fits] at shut
        cases x <;> cases shut
      · rw [List.getElem?_set_ne same, ih]

end Passes

/-- There is such a slot, and it is in this state. -/
def Pool.Has (p : Pool) (s : Nat) (state : SlotState) : Prop :=
  s < p.slots.length ∧ (p.slot s).state = state

theorem Pool.Has.frame {p q : Pool} {s : Nat} {state : SlotState} (here : p.Has s state)
    (slots : q.slots = p.slots) : q.Has s state := by
  unfold Has Pool.slot at here ⊢
  rwa [slots]

/-- The slot is found in the state that the passage leads from. -/
theorem Pool.Has.passes {p q : Pool} {i : Nat} {x : Passage} {f : Slot → Slot}
    (fits : p.Has i x.source) (slots : q.slots = p.slots.modify i f)
    (changes : f (p.slot i) = x.pass (p.slot i)) : Passes p.slots [(i, x)] q.slots := by
  have found : p.slots[i]? = some (p.slot i) := by
    rw [slot, List.getD_eq_getElem?_getD, List.getElem?_eq_getElem fits.1, Option.getD_some]
  have slots : q.slots = p.slots.set i (x.pass (p.slot i)) := by
    rw [slots, List.modify_eq_set_getElem?, found, ← changes]
    rfl
  rw [slots]
  exact .pass .refl found fits.2

theorem Pool.Has.modify {p q : Pool} {i : Nat} {f : Slot → Slot} {state : SlotState}
    (here : p.Has i state) (slots : q.slots = p.slots.modify i f) :
    q.Has i (f (p.slot i)).state := by
  refine ⟨?_, ?_⟩
  · rw [slots, List.length_modify]
    exact here.1
  · rw [Places.slot_of_modify here.1 slots, if_pos rfl]

namespace Activity

/-- The passage that goes right before a call: a resource is lent for a delivery, and a slot is
closed before its resource is passed on. -/
@[simp] def passage? : Activity → Option (Nat × Passage)
  | call (.schedule t) => some (t.item.slot, .deliver)
  | call (.close i (.inHand)) | call (.close i (.flush ..)) | call (.close i .teardown) =>
      some (i.slot, .close)
  | _ => none

/-- The activity may hand a resource on or close it. -/
@[simp] def handsOn : Activity → Bool
  | round .. | search .. | answer (.validate ..) | answer (.create ..) | flush .. | teardown => true
  | _ => false

end Activity

namespace Machine

variable {σ : Type} {e : Environment σ} {m m' : Machine σ}

/-- The passage with which the activity begins. -/
def passageOf (e : Environment σ) (m : Machine σ) : Activity → Option (Nat × Passage)
  | .giveBack i => some (i.slot, .checkin)
  | .perform (.detach h) =>
      match m.handles.get? h with
      | some (.guard i) => some (i.slot, .detach)
      | _ => none
  | .answer (.create _ _ r) =>
      if !m.background.holdsBack && (e.create r.slot m.env).1.isNone then some (r.slot, .create)
      else none
  | .answer (.close i (.invalid _)) => some (i.slot, .retire)
  | _ => none

/-- The passage that goes before the call that stands on top. -/
def passing (m : Machine σ) : Ledger :=
  (m.stack.head?.bind Activity.passage?).toList

/-- The passage with which the next step begins. -/
def opening (e : Environment σ) (m : Machine σ) : Ledger :=
  (m.stack.head?.bind (m.passageOf e)).toList

/-- The passages of the next step, the latest first. -/
def passages (e : Environment σ) (m : Machine σ) : Ledger :=
  (m.step e).passing ++ m.opening e

/-- Only these slots changed, by these passages, no delivery was scheduled, and no slot was found in
a wrong state. -/
structure Proceeds (m : Machine σ) (l : Ledger) (m' : Machine σ) : Prop where
  passes : Passes m.pool.slots l m'.pool.slots
  scheduled : m'.counts.scheduled = m.counts.scheduled
  proper : ∀ ev ∈ m'.trace, ev ∈ m.trace ∨ ev.isMisuse = false

theorem Bystands.proceeds (same : m.Bystands m') : m.Proceeds [] m' :=
  ⟨.of_eq same.stock.slots, same.scheduled, same.proper⟩

namespace Proceeds

variable {n : Machine σ} {l k : Ledger}

theorem trans (first : m.Proceeds l n) (second : n.Proceeds k m') : m.Proceeds (k ++ l) m' := by
  refine ⟨first.passes.trans second.passes, second.scheduled.trans first.scheduled,
    fun ev member => ?_⟩
  exact (second.proper ev member).elim (first.proper ev) .inr

theorem push (before : m.Proceeds l m') (as : List Activity) : m.Proceeds l (m'.push as) :=
  ⟨before.passes, before.scheduled, before.proper⟩

theorem note (before : m.Proceeds l m') {v : Event} (proper : v.isMisuse = false) :
    m.Proceeds l (m'.note v) := by
  refine ⟨before.passes, before.scheduled, fun ev' member => ?_⟩
  obtain rfl | member := List.mem_cons.1 member
  · exact .inr proper
  · exact before.proper ev' member

theorem of_stack (rest : List Activity)
    (proceeds : ({ m with stack := rest } : Machine σ).Proceeds l m') : m.Proceeds l m' :=
  ⟨proceeds.passes, proceeds.scheduled, proceeds.proper⟩

theorem modify {i : Nat} {x : Passage} {f : Slot → Slot} (fits : m.pool.Has i x.source)
    (changes : f (m.pool.slot i) = x.pass (m.pool.slot i)) :
    m.Proceeds [(i, x)] (m.withPool (m.pool.modifySlot i f)) :=
  ⟨fits.passes rfl changes, rfl, fun _ => .inl⟩

end Proceeds

theorem Sequel.passage?_of_head {a b : Activity} {as : List Activity} {r : List Item} {c : Bool}
    (sequel : m.Sequel e a as r c) (head : as.head? = some b) (other : a.handsOn = false) :
    b.passage? = none := by
  cases sequel with
  | bare _ _ bare | store _ _ _ bare =>
      have bare := bare b (List.mem_of_head? head)
      cases b <;> simp_all
  | lend finds =>
      obtain _ | _ | ⟨⟨⟩⟩ := finds <;> cases other
  | begin c ops =>
      cases ops with
      | nil =>
          obtain rfl : _ = b := Option.some.inj head
          rfl
      | cons op ops =>
          obtain rfl : _ = b := Option.some.inj head
          rfl
  | made | flush | wreck | stop | report | leave => cases other
  | _ =>
      obtain rfl : _ = b := Option.some.inj head
      rfl

/-- Only a call that is about to begin can have a passage before it. -/
theorem passing_eq_nil_of_call
    (calls : ∀ c below, m.stack = .call c :: below → (Activity.call c).passage? = none) :
    m.passing = [] := by
  unfold passing
  cases stack : m.stack with
  | nil => rfl
  | cons b below =>
      cases b with
      | call c =>
          rw [List.head?_cons, Option.bind_some, calls c below stack]
          rfl
      | _ => rfl

theorem passing_eq_nil (quiet : ∀ b ∈ m.stack, b.isCall = false) : m.passing = [] := by
  refine passing_eq_nil_of_call fun c below stack => ?_
  have here := quiet (.call c) (by simp [stack])
  cases here

@[simp] theorem passing_push (m : Machine σ) (a : Activity) (as : List Activity) :
    (m.push (a :: as)).passing = a.passage?.toList :=
  rfl

theorem passing_lend (m : Machine σ) (w : Nat) (i : Item) :
    (m.lend w i).passing = [(i.slot, .deliver)] := by
  obtain ⟨t, stack, _, rfl, _⟩ := m.lend_untouched w i
  rw [passing, stack]
  rfl

theorem lend_proceeds {i : Item} (idle : m.pool.Has i.slot .idle) (w : Nat) :
    m.Proceeds (m.lend w i).passing (m.lend w i) := by
  rw [passing_lend]
  unfold lend
  cases lent : m.pool.lend? i.slot with
  | none => simp [Pool.lend?, Slot.checkout?, Slot.transition?, idle.2] at lent
  | some p =>
      obtain ⟨_, rfl⟩ := Pool.lend?_eq_some lent
      have lends : m.Proceeds [(i.slot, .deliver)] (m.withPool (m.pool.modifySlot i.slot fun _ =>
          { m.pool.slot i.slot with
            state := .checkedOut, checkouts := (m.pool.slot i.slot).checkouts + 1 })) :=
        .modify idle rfl
      exact (lends.note (v := .log (.dispatching i.slot w)) rfl).push _

theorem handOut_proceeds {i : Item} (idle : m.pool.Has i.slot .idle) (k : Nat) (view : List Nat) :
    m.Proceeds (m.handOut k view i).passing (m.handOut k view i) := by
  unfold handOut
  split
  · next w p picked =>
      have same := Pool.pick_sameStock picked
      have chosen : m.Bystands ((m.withPool p).push [.round k none]) :=
        ((Bystands.refl m).withPool same).push _
      have lends := lend_proceeds (m := (m.withPool p).push [.round k none])
        (idle.frame same.slots) w
      simpa using chosen.proceeds.trans lends
  · next p picked =>
      exact (((Bystands.refl m).withPool (Pool.pick_sameStock picked)).push _).proceeds

theorem popReturned_proceeds {i : Item} {p : Pool} (popped : m.pool.popReturned? = some (i, p)) :
    m.Proceeds [] (m.withPool p) := by
  obtain ⟨_, _, rfl⟩ := Pool.popReturned?_eq_some popped
  exact ⟨.refl, rfl, fun ev => .inl⟩

theorem has_of_popReturned {i : Item} {p : Pool} (popped : m.pool.popReturned? = some (i, p))
    (idle : ∀ j ∈ m.pool.returned, m.pool.Has j.slot .idle) : p.Has i.slot .idle := by
  obtain ⟨rest, queue, rfl⟩ := Pool.popReturned?_eq_some popped
  exact idle i (queue ▸ List.mem_cons_self ..)

theorem seek_proceeds (idle : ∀ j ∈ m.pool.returned, m.pool.Has j.slot .idle) (k : Nat)
    (view : List Nat) : m.Proceeds (m.seek k view).passing (m.seek k view) := by
  unfold seek
  split
  · next i p popped =>
      have pops := popReturned_proceeds popped
      split
      · exact pops.push _
      · have hands := handOut_proceeds (m := m.withPool p) (has_of_popReturned popped idle) k view
        simpa using pops.trans hands
  · split
    · next r p reserved =>
        have slots : p.slots = m.pool.slots := by
          obtain ⟨_, _, _, _, rfl⟩ | ⟨_, _, _, rfl⟩ := Pool.reserve?_eq_some reserved <;> rfl
        unfold fill
        split
        · next w q picked =>
            have same : q.slots = m.pool.slots := (Pool.pick_sameStock picked).slots.trans slots
            exact ⟨.of_eq same, rfl, fun ev => .inl⟩
        · next q picked =>
            have same : (q.unreserve r).slots = m.pool.slots := by
              cases r <;> exact (Pool.pick_sameStock picked).slots.trans slots
            exact ⟨.of_eq same, rfl, fun ev => .inl⟩
    · exact ((Bystands.refl m).push _).proceeds

theorem shut_proceeds {i : Item} (why : Closing) (idle : m.pool.Has i.slot .idle)
    (shuts : (Activity.call (.close i why)).passage? = some (i.slot, .close)) :
    m.Proceeds (m.shut i why).passing (m.shut i why) := by
  have closes : m.Proceeds [(i.slot, .close)] (m.withPool (m.pool.setState i.slot .closed)) :=
    .modify idle rfl
  rw [shut, passing_push, shuts]
  exact closes.push _

theorem round_proceeds (idle : ∀ j ∈ m.pool.returned, m.pool.Has j.slot .idle) (k : Nat)
    (inHand : Option Item) (kept : ∀ i ∈ inHand, m.pool.Has i.slot .idle) :
    m.Proceeds (m.round k inHand).passing (m.round k inHand) := by
  have stays (as : List Activity) : m.Proceeds [] (m.push as) :=
    ((Bystands.refl m).push as).proceeds
  unfold round
  split
  · cases inHand with
    | none => exact stays _
    | some i =>
        have closes := shut_proceeds (m := m.push [.flush .matcher [], .again k]) .inHand
          (kept i rfl) rfl
        simpa using (stays _).trans closes
  · split
    · exact ⟨.refl, rfl, fun ev => .inl⟩
    · exact stays _
    · exact handOut_proceeds (kept _ rfl) k _
    · exact seek_proceeds idle k _

theorem flush_proceeds (idle : ∀ j ∈ m.pool.returned, m.pool.Has j.slot .idle) (who : Flusher)
    (failures : List CloseFailure) (quiet : m.passing = []) :
    m.Proceeds (m.flush who failures).passing (m.flush who failures) := by
  unfold flush
  split
  · next i p popped =>
      have closes := shut_proceeds (m := m.withPool p) (.flush who failures)
        (has_of_popReturned popped idle) rfl
      simpa using (popReturned_proceeds popped).trans closes
  · have dismissed := (Bystands.refl m).withPool m.pool.dismissAll_sameStock
    cases who with
    | closer => exact (dismissed.push _).proceeds
    | matcher =>
        rw [show (m.withPool m.pool.dismissAll).passing = [] from quiet]
        exact dismissed.proceeds

theorem teardown_proceeds (idle : ∀ j ∈ m.pool.returned, m.pool.Has j.slot .idle)
    (quiet : m.passing = []) : m.Proceeds m.teardown.passing m.teardown := by
  unfold teardown
  split
  · next i p popped =>
      have closes := shut_proceeds (m := (m.withPool p).push [.teardown]) .teardown
        (has_of_popReturned popped idle) rfl
      simpa using ((popReturned_proceeds popped).push _).trans closes
  · rw [quiet]
    exact (Bystands.refl m).proceeds

theorem validated_proceeds {i : Item} (idle : m.pool.Has i.slot .idle) (check : Check) :
    m.Proceeds (m.validated e i check).passing (m.validated e i check) := by
  have answered (b : Bool) :
      m.Bystands (({ m with env := (e.validate i.resource m.env).2 } : Machine σ).note
        (.valid b)) := by
    refine Bystands.note ?_ rfl
    exact .of_eq rfl rfl rfl rfl
  unfold validated
  dsimp only
  split
  · next k view _ =>
      have hands := handOut_proceeds (m := ({ m with
        env := (e.validate i.resource m.env).2 } : Machine σ).note
          (.valid (e.validate i.resource m.env).1)) idle k view
      simpa using (answered _).proceeds.trans hands
  · have stored := (answered (e.validate i.resource m.env).1).note
      (v := .log (.checkedIn i.slot)) rfl
    exact ⟨.refl, rfl, stored.proper⟩
  · have discarded := (answered (e.validate i.resource m.env).1).note
      (v := .log (.discarding i.slot)) rfl
    exact (discarded.push _).proceeds

theorem created_proceeds {r : Reservation} (vacant : m.pool.Has r.slot .uninitialized)
    (k w : Nat) :
    m.Proceeds
      ((m.created e k w r).passing ++
        if (e.create r.slot m.env).1.isNone then [(r.slot, .create)] else [])
      (m.created e k w r) := by
  unfold created
  cases e.create r.slot m.env with
  | mk refusal env =>
      cases refusal with
      | some cause =>
          have same := (m.pool.unreserve r).complete_sameStock w
            (.error (.creationFailed r.slot cause))
          have slots : (m.pool.unreserve r).slots = m.pool.slots := by cases r <;> rfl
          have failed : m.Bystands ({ m with env } : Machine σ) := .of_eq rfl rfl rfl rfl
          have noted := (failed.note (v := .createFailed) rfl).note
            (v := .log (.creationFailed r.slot w cause)) rfl
          exact ⟨.of_eq (same.slots.trans slots), rfl, noted.proper⟩
      | none =>
          have slots : (m.pool.occupy r).slots = m.pool.slots.modify r.slot Slot.populate := by
            cases r <;> rfl
          have idle : (m.pool.occupy r).Has r.slot .idle := vacant.modify slots
          have fills : m.Proceeds [(r.slot, .create)]
              { m with env, made := m.made + 1, pool := m.pool.occupy r } :=
            ⟨vacant.passes slots rfl, rfl, fun _ => .inl⟩
          have noted := (((fills.note (v := .log (.made m.made r.slot)) rfl).note
            (v := .created m.made) rfl).note (v := .log (.created r.slot)) rfl).push
              [.round k none]
          exact noted.trans (lend_proceeds (i := ⟨r.slot, { id := m.made, slot := r.slot }⟩) idle w)

theorem giveBack_proceeds {i : Item} (lent : m.pool.Has i.slot .checkedOut) :
    m.Proceeds [(i.slot, .checkin)] (m.giveBack i) := by
  unfold giveBack
  cases taken : m.pool.takeBack? i.slot with
  | none => simp [Pool.takeBack?, Slot.checkin?, Slot.transition?, lent.2] at taken
  | some p =>
      obtain ⟨_, rfl⟩ := Pool.takeBack?_eq_some taken
      have takes : m.Proceeds [(i.slot, .checkin)] (m.withPool (m.pool.modifySlot i.slot fun _ =>
          { m.pool.slot i.slot with state := .idle })) :=
        .modify lent rfl
      dsimp only
      split
      · exact takes.push _
      · have noted := takes.note (v := .log (.checkedIn i.slot)) rfl
        exact ⟨takes.passes, rfl, noted.proper⟩

theorem retire_proceeds {i : Item} (spent : m.pool.Has i.slot .idle) (check : Check) :
    m.Proceeds [(i.slot, .retire)] (m.closed e i (.invalid check)) := by
  have answered : m.Bystands { m with env := (e.close i.resource m.env).2 } :=
    .of_eq rfl rfl rfl rfl
  have noted := answered.note
    (v := if (e.close i.resource m.env).1.isNone then .closed else .closeFailed)
    (by split <;> rfl)
  have passes := spent.passes (q := m.pool.vacate i.slot) (x := .retire)
    (f := fun s => s.replace .uninitialized) rfl rfl
  unfold closed noteFailure
  dsimp only
  split
  · cases check <;> exact ⟨passes, rfl, noted.proper⟩
  · next cause _ =>
      have failed := noted.note (v := .log (.closeFailed i.slot cause)) rfl
      cases check <;> exact ⟨passes, rfl, failed.proper⟩

theorem detach_proceeds {i : Item} (lent : m.pool.Has i.slot .checkedOut) (k : Nat) :
    m.Proceeds [(i.slot, .detach)] (m.detach k i) := by
  have noted := (Bystands.refl m).note (v := .log (.detached i.slot)) rfl
  have passes := lent.passes (q := m.pool.vacate i.slot) (x := .detach)
    (f := fun s => s.replace .uninitialized) rfl rfl
  exact ⟨passes, rfl, noted.proper⟩

theorem stored_mem_stock (m : Machine σ) {i : Item} (queued : i ∈ m.pool.returned) (h : History) :
    i.stored ∈ (m.books 0 h).stock :=
  Multiset.mem_add.2 (.inr (Multiset.mem_of_le m.pool.stored_le_holdings
    (Multiset.mem_coe.2 (List.mem_map_of_mem queued))))

theorem free_mem_stock (m : Machine σ) {s : Nat} (queued : s ∈ m.pool.vacated) (h : History) :
    .free s ∈ (m.books 0 h).stock := by
  have member : Holding.free s ∈ (m.pool.vacated.map Holding.free : Multiset Holding) :=
    Multiset.mem_coe.2 (List.mem_map_of_mem queued)
  exact Multiset.mem_add.2 (.inr (Multiset.mem_add.2 (.inl (Multiset.mem_add.2 (.inr member)))))

/-- Whoever answers for a slot finds it in the state that it must be in. -/
structure FindsSlots (m : Machine σ) (a : Activity) : Prop where
  held : ∀ x ∈ a.assets, ∀ y, x.holding? = some y → m.pool.Has y.slot y.state
  vacant : ∀ k r, .matcher k (.filling r) ∈ a.assets → m.pool.Has r.slot .uninitialized
  idle : ∀ i ∈ m.pool.returned, m.pool.Has i.slot .idle
  lent : ∀ k i, m.handles.get? k = some (.guard i) → m.pool.Has i.slot .checkedOut

theorem passageOf_of_bystands {a : Activity} (bystands : a.bystands = true) :
    m.passageOf e a = none := by
  unfold passageOf
  split <;> simp_all

/-- The slots change by the passage with which the activity begins, and the one before the call to
which it leads. -/
theorem FindsSlots.exec_proceeds {a : Activity} (found : m.FindsSlots a)
    (other : ∀ t, a ≠ .call (.schedule t)) (quiet : ∀ b ∈ m.stack, b.isCall = false) :
    m.Proceeds ((if a.handsOn then (m.exec e a).passing else []) ++ (m.passageOf e a).toList)
      (m.exec e a) := by
  cases bystands : a.bystands with
  | true =>
      have proceeds := (m.exec_bystands (e := e) bystands).proceeds
      have hands : a.handsOn = false := by
        cases a with
        | answer c => cases c <;> simp_all
        | _ => simp_all
      rw [if_neg (Bool.eq_false_iff.1 hands), passageOf_of_bystands bystands]
      exact proceeds
  | false =>
      have idle := found.idle
      cases a with
      | round k inHand =>
          have proceeds := round_proceeds idle k inHand fun i kept => by
            obtain rfl : inHand = some i := kept
            exact found.held (.idle i) (by simp) i.stored rfl
          simpa [passageOf, exec] using proceeds
      | search k view => simpa [passageOf, exec] using seek_proceeds idle k view
      | flush who failures =>
          simpa [passageOf, exec] using flush_proceeds idle who failures (passing_eq_nil quiet)
      | teardown => simpa [passageOf, exec] using teardown_proceeds idle (passing_eq_nil quiet)
      | giveBack i => exact giveBack_proceeds (found.held (.guard i) (by simp) i.lent rfl)
      | trigger =>
          have proceeds : m.Proceeds [] m.trigger := by
            simp only [trigger]
            split <;> exact ⟨.refl, rfl, fun _ => .inl⟩
          simpa [passageOf, exec] using proceeds
      | again k =>
          have proceeds : m.Proceeds [] (m.again k) := by
            simp only [again]
            split <;> exact ⟨.refl, rfl, fun _ => .inl⟩
          simpa [passageOf, exec] using proceeds
      | call c =>
          cases c with
          | schedule t => exact absurd rfl (other t)
          | _ => simp at bystands
      | perform op =>
          cases op with
          | close =>
              have proceeds : m.Proceeds [] (m.onPool close) := by
                simp only [onPool, close]
                split
                · split
                  · exact ⟨.refl, rfl, fun _ => .inl⟩
                  · have closes : m.Proceeds [] (m.withPool { m.pool with closed := true }) :=
                      ⟨.refl, rfl, fun _ => .inl⟩
                    exact (closes.note (v := .log .closing) rfl).push _
                · exact ⟨.refl, rfl, fun _ => .inl⟩
              simpa [passageOf, exec, perform] using proceeds
          | detach k =>
              simp only [exec, perform, passageOf]
              cases held : m.handles.get? k with
              | none => exact ⟨.refl, rfl, fun _ => .inl⟩
              | some x =>
                  cases x with
                  | guard i => exact detach_proceeds (found.lent k i held) k
                  | _ => exact ⟨.refl, rfl, fun _ => .inl⟩
          | _ => simp at bystands
      | answer c =>
          cases c with
          | validate i check =>
              have proceeds := validated_proceeds (e := e)
                (found.held (.idle i) (by simp) i.stored rfl) check
              simpa [passageOf, exec, answered] using proceeds
          | create k w r =>
              have vacant := found.vacant k r (by simp)
              cases held : m.background.holdsBack with
              | true =>
                  have stops : (m.hold e (.create k w r)).passing = [] :=
                    passing_eq_nil fun b member => quiet b
                      (List.mem_of_mem_drop (List.mem_of_mem_drop member))
                  have proceeds : m.Proceeds [] (m.hold e (.create k w r)) :=
                    ⟨.refl, rfl, fun _ => .inl⟩
                  simpa [passageOf, exec, Machine.answered, held, stops] using proceeds
              | false =>
                  have proceeds := created_proceeds (e := e) vacant k w
                  by_cases made : (e.create r.slot m.env).1.isNone = true <;>
                    simpa [passageOf, exec, Machine.answered, held, made] using proceeds
          | close i why =>
              cases why with
              | invalid check =>
                  exact retire_proceeds (found.held (.spent i.slot) (by simp) (.spent i.slot) rfl)
                    check
              | _ => simp at bystands
          | schedule t => simp at bystands
      | _ => simp at bystands

end Machine

namespace Run

open Machine

variable {σ : Type} {e : Environment σ} {past : List (Machine σ)} {m : Machine σ}

/-- A slot that somebody answers for is in the state that it must be in. -/
theorem has (run : Run e past m) {x : Holding}
    (member : x ∈ (m.books 0 (history e past)).stock) : m.pool.Has x.slot x.state :=
  ⟨(run.places.agree x member).1.trans_le run.places.bound, (run.places.agree x member).2⟩

theorem has_of_asset (run : Run e past m) {a : Asset} {x : Holding} (member : a ∈ m.assets)
    (holding : a.holding? = some x) : m.pool.Has x.slot x.state := by
  refine run.has ?_
  rw [Books.stock, books, zero_add]
  exact Multiset.mem_add.2 (.inl ((Multiset.mem_filterMap ..).2 ⟨a, member, holding⟩))

theorem has_of_activity (run : Run e past m) {b : Activity} {a : Asset} {x : Holding}
    (member : b ∈ m.activities) (inside : a ∈ b.assets) (holding : a.holding? = some x) :
    m.pool.Has x.slot x.state :=
  run.has_of_asset (mem_assets member inside) holding

theorem idle_of_returned (run : Run e past m) : ∀ i ∈ m.pool.returned, m.pool.Has i.slot .idle :=
  fun _ queued => run.has (m.stored_mem_stock queued _)

/-- A slot that is about to be filled is blank or free. -/
theorem vacant (run : Run e past m) {k : Nat} {r : Reservation}
    (member : .matcher k (.filling r) ∈ m.assets) : m.pool.Has r.slot .uninitialized := by
  cases r with
  | vacated slot => exact run.has_of_asset member (x := .free slot) rfl
  | fresh slot =>
      obtain ⟨rfl, room⟩ := run.sound.fresh k slot
        (by simpa [books] using mem_matchings.2 member)
      exact ⟨room, congrArg Slot.state (run.places.blank _ le_rfl)⟩

theorem passing_step (run : Run e past m) {a : Activity} {rest : List Activity}
    (top : m.stack = a :: rest) (other : a.handsOn = false) : (m.step e).passing = [] := by
  refine passing_eq_nil_of_call fun c below stack => ?_
  obtain ⟨as, head, sequel⟩ := (step_turn top).called top run.callsOnTop stack
  exact sequel.passage?_of_head head other

theorem findsSlots (run : Run e past m) {a : Activity} {rest : List Activity}
    (top : m.stack = a :: rest) : ({ m with stack := rest } : Machine σ).FindsSlots a where
  held x inside y holding := run.has_of_activity (by simp [activities, top]) inside holding
  vacant k r inside := run.vacant (mem_assets (by simp [activities, top]) inside)
  idle := run.idle_of_returned
  lent k i held := run.has_of_asset (a := .guard i) (x := i.lent)
    (by rw [assets_take (m := m) held]; simp) rfl

/-- The slots change in a step by its passages. -/
theorem proceeds_step (run : Run e past m) {a : Activity} {rest : List Activity}
    (top : m.stack = a :: rest) (other : ∀ t, a ≠ .call (.schedule t)) :
    m.Proceeds (m.passages e) (m.step e) := by
  have next : m.step e = ({ m with stack := rest } : Machine σ).exec e a := by
    rw [Machine.step, top]
  have found : ({ m with stack := rest } : Machine σ).FindsSlots a := run.findsSlots top
  have proceeds := found.exec_proceeds (e := e) other fun b member =>
    run.callsOnTop b (by simp [top, show b ∈ rest from member])
  have passages : m.passages e = (m.step e).passing ++ (m.passageOf e a).toList := by
    rw [Machine.passages, opening, top]
    rfl
  rw [passages, next]
  refine .of_stack rest ?_
  by_cases hands : a.handsOn = true
  · rw [if_pos hands] at proceeds
    exact proceeds
  · rw [if_neg hands] at proceeds
    rw [← next, run.passing_step top (Bool.eq_false_iff.2 hands), next]
    exact proceeds

end Run
end ResourcePool
