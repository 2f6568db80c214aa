import ResourcePool.Proofs.Choices

/-!
Work comes to an end. Whatever there is to be done has a price: more than everything it may leave
behind. Requests in line, idle resources and queued deliveries have one too, since a matching works
on them, and so have the operations that the surroundings may still name. Every step with something
to do is paid for, so the pool comes to rest, and the fuel that a machine is given is enough.

Only the poll of all requests costs more the more of them there are. It is paid for by the number of
operations times the number of handles there may ever be.
-/

namespace ResourcePool

/-- The operation looks at one request. -/
def Op.isPoll : Op → Bool
  | poll _ => true
  | _ => false

/-- What a flush costs after its last resource: who closes the pool calls for matching then. -/
def Flusher.price : Flusher → Nat
  | closer => 13
  | matcher => 1

/-- What goes on with the answer. -/
def Call.price : Call → Nat
  | create .. => 37
  | validate _ (.checkout ..) => 9
  | validate _ .checkin => 18
  | close _ (.invalid (.checkout ..)) => 7
  | close _ (.invalid .checkin) => 12
  | close _ (.flush who _) => who.price + 1
  | close .. => 1
  | schedule _ => 30

namespace Activity

def price : Activity → Nat
  | perform op => if op.isPoll then 89 else 0
  | acquire _ => 86
  | acquired .. | joined => 40
  | put .. => 38
  | quit _ => 35
  | hangUp _ => 23
  | giveBack _ => 20
  | trigger => 11
  | round _ (some _) => 8
  | round _ none => 5
  | search .. => 6
  | call c => c.price + 1
  | answer c => c.price
  | task _ => 28
  | deliver _ => 24
  | flush who _ => who.price
  | awaited _ => 91
  | collect _ rest _ => 90 * rest.length + 1
  | refuse _ | release => 2
  | _ => 1

/-- Operations that cost more than the activities they begin with. -/
def asks : Activity → Nat
  | perform op => if op.isPoll then 0 else 1
  | _ => 0

/-- Something may be put under a number. -/
def grips : Activity → Nat
  | perform op => if op.isPoll then 0 else 1
  | acquire _ | acquired .. | joined | put .. => 1
  | _ => 0

end Activity

def Background.price : Background → Nat
  | running => 1
  | _ => 0

def Pool.price (p : Pool) : Nat :=
  34 * p.registry.size + 6 * p.returned.length + 5 * p.triggers

def total (f : Activity → Nat) (as : List Activity) : Nat :=
  (as.map f).sum

@[simp] theorem total_nil (f : Activity → Nat) : total f [] = 0 := rfl

@[simp] theorem total_cons (f : Activity → Nat) (a : Activity) (as : List Activity) :
    total f (a :: as) = f a + total f as := by
  simp [total]

@[simp] theorem total_append (f : Activity → Nat) (as bs : List Activity) :
    total f (as ++ bs) = total f as + total f bs := by
  simp [total]

namespace Pool

variable {p q : Pool}

theorem SameStock.price_eq (same : p.SameStock q) (line : q.registry = p.registry) :
    q.price = p.price := by
  rw [price, price, line, same.returned, same.triggers]

@[simp] theorem price_modifySlot (p : Pool) (i : Nat) (f : Slot → Slot) :
    (p.modifySlot i f).price = p.price := rfl

@[simp] theorem price_setState (p : Pool) (i : Nat) (s : SlotState) :
    (p.setState i s).price = p.price := rfl

@[simp] theorem price_vacate (p : Pool) (i : Nat) : (p.vacate i).price = p.price := rfl

@[simp] theorem price_turnAway (p : Pool) : p.turnAway.price = p.price := rfl

@[simp] theorem price_abandon (p : Pool) (w : Nat) : (p.abandon w).price = p.price := rfl

@[simp] theorem price_enroll (p : Pool) : p.enroll.price = p.price + 34 := by
  simp only [price, enroll, Registry.size, Registry.entries_register, List.length_append,
    List.length_singleton]
  omega

@[simp] theorem price_pushReturned (p : Pool) (i : Item) :
    (p.pushReturned i).price = p.price + 6 := by
  simp only [price, pushReturned, List.length_append, List.length_singleton]
  omega

@[simp] theorem price_occupy (p : Pool) (r : Reservation) : (p.occupy r).price = p.price := by
  cases r <;> rfl

@[simp] theorem price_unreserve (p : Pool) (r : Reservation) :
    (p.unreserve r).price = p.price := by
  cases r <;> rfl

@[simp] theorem price_complete (p : Pool) (w : Nat) (o : Outcome) :
    (p.complete w o).2.price = p.price :=
  (p.complete_sameStock w o).price_eq (p.complete_registry w o)

@[simp] theorem price_hangUp (p : Pool) (w : Nat) : (p.hangUp w).2.price = p.price :=
  (p.hangUp_sameStock w).price_eq (p.hangUp_registry w)

@[simp] theorem price_receive (p : Pool) (w : Nat) : (p.receive w).2.price = p.price :=
  (p.receive_sameStock w).price_eq (p.receive_registry w)

theorem price_popReturned? {i : Item} (popped : p.popReturned? = some (i, q)) :
    p.price = q.price + 6 := by
  obtain ⟨rest, queue, rfl⟩ := popReturned?_eq_some popped
  simp only [price, queue, List.length_cons]
  omega

theorem price_reserve? {r : Reservation} (reserved : p.reserve? = some (r, q)) :
    q.price = p.price := by
  obtain ⟨_, _, _, _, rfl⟩ | ⟨_, _, _, rfl⟩ := reserve?_eq_some reserved <;> rfl

theorem price_lend? {i : Nat} (lent : p.lend? i = some q) : q.price = p.price := by
  obtain ⟨_, rfl⟩ := lend?_eq_some lent
  rfl

theorem price_takeBack? {i : Nat} (taken : p.takeBack? i = some q) : q.price = p.price := by
  obtain ⟨_, rfl⟩ := takeBack?_eq_some taken
  rfl

theorem SameStock.price_of_entries (same : p.SameStock q) {w : Nat}
    (line : q.registry.entries = p.registry.entries.erase w) :
    q.price ≤ p.price ∧ (w ∈ p.registry.entries → q.price + 34 = p.price) := by
  simp only [price, Registry.size, line, same.returned, same.triggers]
  refine ⟨?_, fun inside => ?_⟩
  · have := List.length_erase_le (a := w) (l := p.registry.entries)
    omega
  · have := List.length_erase_of_mem inside
    have := List.length_pos_of_mem inside
    omega

theorem price_cancel? {w : Nat} (cancelled : p.cancel? w = some q) : q.price ≤ p.price := by
  obtain ⟨x, _, _, rfl⟩ := cancel?_eq_some cancelled
  exact ((p.modifyWaiter_sameStock w _).trans (unregister_sameStock _ w)).price_of_entries rfl |>.1

theorem price_dismissAll (p : Pool) : p.dismissAll.price ≤ p.price := by
  have same := p.dismissAll_sameStock
  simp only [price, Registry.size, dismissAll_entries, same.returned, same.triggers,
    List.length_nil]
  omega

theorem price_pick {view : List Nat} {chosen : Option Nat} (picked : p.pick view = (chosen, q)) :
    q.price ≤ p.price := by
  have same := pick_sameStock picked
  cases place : view[p.cursor % view.length]? with
  | none =>
      obtain rfl : q = { p with cursor := p.cursor % view.length + 1 } := by
        have := congrArg Prod.snd picked
        simpa [pick, place] using this.symm
      exact Nat.le_refl _
  | some v =>
      have line := pick_entries place
      rw [picked] at line
      exact (same.price_of_entries line).1

/-- Whoever is chosen leaves the line, and so does whoever is found first in a fresh view of it. -/
theorem price_pick_of_mem {view : List Nat} {chosen : Option Nat}
    (picked : p.pick view = (chosen, q))
    (inLine : ∀ w x, p.waiters[w]? = some x → x.state = .pending → w ∈ p.registry.entries)
    (fresh : chosen = none → view = p.registry.entries ∧ view ≠ []) :
    q.price + 34 = p.price := by
  have same := pick_sameStock picked
  cases chosen with
  | some w =>
      obtain ⟨x, found, pending, rfl⟩ := pick_eq_some picked
      exact (same.price_of_entries rfl).2 (inLine w x found pending)
  | none =>
      obtain ⟨rfl, filled⟩ := fresh rfl
      obtain ⟨v, place⟩ := p.exists_place filled
      have line := pick_entries place
      rw [picked] at line
      exact (same.price_of_entries line).2 (List.mem_of_getElem? place)

end Pool

namespace Table

variable {α : Type} {t : Table α} {key : Nat} {a b : α}

theorem length_erase_le (t : Table α) (key : Nat) :
    (t.erase key).entries.length ≤ t.entries.length :=
  List.length_filter_le ..

theorem length_of_get? (found : t.get? key = some a) :
    t.entries.length = (t.erase key).entries.length + 1 := by
  simpa using (entries_perm_of_get? found).length_eq

theorem length_insert (t : Table α) (key : Nat) (a : α) :
    (t.insert key a).entries.length = (t.erase key).entries.length + 1 := by
  simpa using (entries_insert_perm t key a).length_eq

end Table

namespace Machine

variable {σ : Type} {e : Environment σ}

/-- The operations that are there, other than looking at one request. -/
def asks (m : Machine σ) : Nat :=
  total Activity.asks m.activities

/-- The handles there may be after these operations. -/
def grips (m : Machine σ) : Nat :=
  m.handles.entries.length + total Activity.grips m.activities

/-- The price of everything but the operations. -/
def bill (m : Machine σ) : Nat :=
  total Activity.price m.activities + 29 * m.tasks.length + m.background.price + m.pool.price

/-- The price of everything, with so many operations still to be named by the surroundings. -/
def potential (k : Nat) (m : Machine σ) : Nat :=
  (m.asks + k) * (90 * (m.grips + k) + 181) + (m.bill + 90 * k)

/-- The operations that the surroundings name when the activity is carried out. -/
def namedBy (e : Environment σ) (m : Machine σ) : Activity → List Op
  | .call (.schedule t) =>
      if m.scheduler.watched then (e.enter (.schedule t.label) m.env).1 else []
  | .call c => (e.enter c.moment m.env).1
  | _ => []

/-- The operations that the surroundings name in the next step. -/
def named (e : Environment σ) (m : Machine σ) : List Op :=
  match m.stack with
  | [] => []
  | a :: _ => m.namedBy e a

/-- How many operations the surroundings name in the next steps, `n` at most. -/
def namings (e : Environment σ) (n : Nat) (m : Machine σ) : Nat :=
  ((m.trail e n).map fun v => (v.named e).length).sum

/-- So many operations were named, this many handles more may be made, and this much is added to the
bill. -/
structure Grows (e : Environment σ) (d : Nat) (m m' : Machine σ) (grip k : Nat) : Prop where
  asks : m'.asks ≤ m.asks + d
  grips : m'.grips ≤ m.grips + d + grip
  bill : m'.bill ≤ m.bill + 90 * d + k
  budget : ∀ b : Budget e, b.ops m'.env + d ≤ b.ops m.env

/-- The activity pays for what it leaves behind. -/
def Spends (e : Environment σ) (d : Nat) (m : Machine σ) (a : Activity) (m' : Machine σ) : Prop :=
  ∃ k < a.price, Grows e d m m' a.grips k

section Spends

variable {m : Machine σ}

attribute [local simp] asks grips bill activities Activity.asks Activity.grips Activity.price
  Call.price Flusher.price push log note answer withPool

theorem Grows.of_eq {n m' : Machine σ} {d g k : Nat} (grows : Grows e d n m' g k)
    (asks : n.asks ≤ m.asks) (grips : n.grips ≤ m.grips) {j : Nat}
    (bill : n.bill + k ≤ m.bill + j) (budget : ∀ b : Budget e, b.ops n.env ≤ b.ops m.env) :
    Grows e d m m' g j where
  asks := grows.asks.trans (Nat.add_le_add_right asks d)
  grips := by have := grows.grips; omega
  bill := by have := grows.bill; omega
  budget b := (grows.budget b).trans (budget b)

theorem Grows.answer (r : Reply) (g k : Nat) : Grows e 0 m (m.answer r) g k := by
  constructor <;> simp

theorem trigger_spends : Spends e 0 m .trigger m.trigger := by
  refine ⟨10, by simp, ?_⟩
  unfold trigger
  dsimp only
  split <;> constructor <;> simp [Pool.price]
  all_goals omega

theorem again_spends {n : Nat} (positive : 0 < n) : Spends e 0 m (.again n) (m.again n) := by
  refine ⟨0, by simp, ?_⟩
  unfold again
  dsimp only
  split <;> constructor <;> simp [Pool.price]
  all_goals omega

theorem giveBack_spends (i : Item) : Spends e 0 m (.giveBack i) (m.giveBack i) := by
  refine ⟨19, by simp, ?_⟩
  unfold giveBack
  split
  · constructor <;> simp
    omega
  · next p taken =>
      have same := Pool.price_takeBack? taken
      dsimp only
      split <;> constructor <;> simp [same] <;> omega

theorem flush_spends (who : Flusher) (failures : List CloseFailure) :
    Spends e 0 m (.flush who failures) (m.flush who failures) := by
  refine ⟨who.price - 1, by cases who <;> simp, ?_⟩
  unfold flush
  split
  · next i p popped =>
      have paid := Pool.price_popReturned? popped
      cases who <;> constructor <;> simp [shut] <;> omega
  · have less := m.pool.price_dismissAll
    cases who <;> constructor <;> simp <;> omega

theorem teardown_spends : Spends e 0 m .teardown m.teardown := by
  refine ⟨0, by simp, ?_⟩
  unfold teardown
  split
  · next i p popped =>
      have paid := Pool.price_popReturned? popped
      constructor <;> simp [shut]
      omega
  · constructor <;> simp

theorem release_spends : Spends e 0 m .release m.release := by
  refine ⟨1, by simp, ?_⟩
  unfold release
  split <;> constructor <;> simp
  omega

/-- The line is shorter by one, or nothing changed. -/
theorem withdraw_grows (a : Acquire) : Grows e 0 m (m.withdraw a) 0 11 := by
  unfold withdraw
  split
  · split
    · next p cancelled =>
        have less := Pool.price_cancel? cancelled
        constructor <;> simp
        omega
    · constructor <;> simp
  · constructor <;> simp

theorem quit_spends (a : Acquire) :
    Spends e 0 m (.quit a) ((m.push [.hangUp a.waiter]).withdraw a) :=
  ⟨34, by simp, (withdraw_grows a).of_eq (by simp) (by simp) (by simp; omega) fun _ => le_rfl⟩

theorem hangUp_spends (w : Nat) : Spends e 0 m (.hangUp w) (m.hangUp w) := by
  have same := m.pool.price_hangUp w
  refine ⟨22, by simp, ?_⟩
  unfold hangUp
  split <;> next found => rw [found] at same; constructor <;> simp [same]; try omega

theorem deliver_spends (t : Task) : Spends e 0 m (.deliver t) (m.complete t (.ok t.item)) := by
  have same := m.pool.price_complete t.waiter (.ok t.item)
  refine ⟨23, by simp, ?_⟩
  unfold complete
  split <;> next sent => rw [sent] at same; constructor <;> simp [same]; try omega

theorem refuse_spends (t : Task) : Spends e 0 m (.refuse t) (m.complete t (.error .closed)) := by
  have same := m.pool.price_complete t.waiter (.error .closed)
  refine ⟨1, by simp, ?_⟩
  unfold complete
  split
  · next sent =>
      rw [sent] at same
      constructor <;> simp [same]
  · next sent => exact absurd (eq_of_complete_returned sent) (by simp)
  · next sent =>
      rw [sent] at same
      constructor <;> simp [same]
      omega

theorem runTask_spends (t : Task) : Spends e 0 m (.task t) (m.runTask t) := by
  refine ⟨27, by simp, ?_⟩
  unfold runTask
  dsimp only
  split <;> constructor <;> simp <;> omega

theorem total_dropHandle (x : Handle) : total Activity.price (dropHandle x) ≤ 37 ∧
    total Activity.asks (dropHandle x) = 0 ∧ total Activity.grips (dropHandle x) = 0 := by
  obtain a | (_ | ⟨a, d⟩) | i | r := x <;> simp [dropHandle]

theorem put_spends (k : Nat) (x : Handle) : Spends e 0 m (.put k x) (m.put k x) := by
  refine ⟨37, by simp, ?_⟩
  have longer := m.handles.length_insert k x
  have shorter := m.handles.length_erase_le k
  unfold put
  dsimp only
  cases m.handles.get? k with
  | none => constructor <;> simp; omega
  | some y =>
      obtain ⟨price, asks, grips⟩ := total_dropHandle y
      constructor <;> simp [asks, grips] <;> omega

theorem request_spends (purpose : Purpose) : Spends e 0 m (.acquire purpose) (m.request purpose) := by
  refine ⟨85, by simp, ?_⟩
  unfold request
  dsimp only
  split <;> constructor <;> simp [log] <;> omega

theorem look_eq_or (w : Nat) : ((m.look w).2).asks = m.asks ∧ ((m.look w).2).grips = m.grips ∧
    ((m.look w).2).bill = m.bill ∧ (m.look w).2.handles = m.handles ∧
    (m.look w).2.env = m.env := by
  have same := m.pool.price_receive w
  unfold look
  split
  · simp
  · next found =>
      rw [found] at same
      simp [same]
  · next found =>
      rw [found] at same
      simp [same]

theorem requested_spends (a : Acquire) (purpose : Purpose) :
    Spends e 0 m (.acquired a purpose) (m.requested a purpose) := by
  refine ⟨39, by simp, ?_⟩
  unfold requested
  split
  · constructor <;> simp <;> omega
  · obtain ⟨asks, grips, bill, _, env⟩ := m.look_eq_or a.waiter
    unfold firstPoll
    split <;>
    · next found =>
        rw [found] at asks grips bill env
        constructor <;> simp_all <;> omega
  · constructor <;> simp [Background.price]
    omega

theorem lend_grows (w : Nat) (i : Item) : Grows e 0 m (m.lend w i) 0 31 := by
  unfold lend
  cases lent : m.pool.lend? i.slot with
  | none => constructor <;> simp; omega
  | some p =>
      have same := Pool.price_lend? lent
      constructor <;> simp [same]
      omega

theorem handOut_grows (n : Nat) (view : List Nat) (i : Item)
    (inLine : ∀ w x, m.pool.waiters[w]? = some x → x.state = .pending →
      w ∈ m.pool.registry.entries) :
    Grows e 0 m (m.handOut n view i) 0 8 ∧
      (view = m.pool.registry.entries → view ≠ [] → Grows e 0 m (m.handOut n view i) 0 2) := by
  unfold handOut
  split
  · next w p picked =>
      have paid := Pool.price_pick_of_mem picked inLine (by simp)
      have lent := lend_grows (e := e) (m := (m.withPool p).push [.round n none]) w i
      exact ⟨lent.of_eq (by simp) (by simp) (by simp; omega) fun _ => le_rfl,
        fun _ _ => lent.of_eq (by simp) (by simp) (by simp; omega) fun _ => le_rfl⟩
  · next p picked =>
      have less := Pool.price_pick picked
      refine ⟨by constructor <;> simp; omega, fun fresh filled => ?_⟩
      have paid := Pool.price_pick_of_mem picked inLine fun _ => ⟨fresh, filled⟩
      constructor <;> simp
      omega

theorem fill_grows (n : Nat) (view : List Nat) (r : Reservation)
    (inLine : ∀ w x, m.pool.waiters[w]? = some x → x.state = .pending →
      w ∈ m.pool.registry.entries) :
    Grows e 0 m (m.fill n view r) 0 5 ∧
      (view = m.pool.registry.entries → view ≠ [] → Grows e 0 m (m.fill n view r) 0 4) := by
  unfold fill
  split
  · next w p picked =>
      have paid := Pool.price_pick_of_mem picked inLine (by simp)
      exact ⟨by constructor <;> simp; omega, fun _ _ => by constructor <;> simp; omega⟩
  · next p picked =>
      have less := Pool.price_pick picked
      refine ⟨by constructor <;> simp; omega, fun fresh filled => ?_⟩
      have paid := Pool.price_pick_of_mem picked inLine fun _ => ⟨fresh, filled⟩
      constructor <;> simp
      omega

theorem seek_grows (n : Nat) (view : List Nat)
    (inLine : ∀ w x, m.pool.waiters[w]? = some x → x.state = .pending →
      w ∈ m.pool.registry.entries) :
    Grows e 0 m (m.seek n view) 0 5 ∧
      (view = m.pool.registry.entries → view ≠ [] → Grows e 0 m (m.seek n view) 0 4) := by
  unfold seek
  split
  · next i p popped =>
      have paid := Pool.price_popReturned? popped
      obtain ⟨rest, _, rfl⟩ := Pool.popReturned?_eq_some popped
      split
      · exact ⟨by constructor <;> simp; omega, fun _ _ => by constructor <;> simp; omega⟩
      · obtain ⟨grows, _⟩ := handOut_grows (e := e)
          (m := m.withPool { m.pool with returned := rest }) n view i inLine
        exact ⟨grows.of_eq (by simp) (by simp) (by simp; omega) fun _ => le_rfl,
          fun _ _ => grows.of_eq (by simp) (by simp) (by simp; omega) fun _ => le_rfl⟩
  · split
    · next r p reserved =>
        have same := Pool.price_reserve? reserved
        have line := Pool.reserve?_sameLine reserved
        obtain ⟨stale, fresh⟩ := fill_grows (e := e) (m := m.withPool p) n view r (by
          simpa [line.waiters, line.registry] using inLine)
        refine ⟨stale.of_eq (by simp) (by simp) (by simp [same]) fun _ => le_rfl,
          fun now filled => ?_⟩
        exact (fresh (by simpa [line.registry] using now) filled).of_eq (by simp) (by simp)
          (by simp [same]) fun _ => le_rfl
    · exact ⟨by constructor <;> simp; omega, fun _ _ => by constructor <;> simp; omega⟩

theorem round_spends (n : Nat) (inHand : Option Item)
    (inLine : ∀ w x, m.pool.waiters[w]? = some x → x.state = .pending →
      w ∈ m.pool.registry.entries) :
    Spends e 0 m (.round n inHand) (m.round n inHand) := by
  unfold round
  split
  · cases inHand with
    | none => exact ⟨2, by simp, by constructor <;> simp; omega⟩
    | some i => exact ⟨4, by simp, by constructor <;> simp [shut]; omega⟩
  · cases line : m.pool.registry.entries with
    | nil =>
        cases inHand with
        | none => exact ⟨1, by simp, by constructor <;> simp; omega⟩
        | some i => exact ⟨7, by simp, by constructor <;> simp; omega⟩
    | cons v vs =>
        cases inHand with
        | none => exact ⟨4, by simp, (seek_grows n _ inLine).2 line.symm (by simp)⟩
        | some i => exact ⟨2, by simp, (handOut_grows n _ i inLine).2 line.symm (by simp)⟩

theorem total_nested (before : Reply) (ops : List Op) :
    total Activity.asks (nested before ops) ≤ ops.length ∧
      total Activity.grips (nested before ops) ≤ ops.length ∧
      total Activity.price (nested before ops) ≤ 90 * ops.length := by
  induction ops with
  | nil => simp [nested]
  | cons op ops ih =>
      obtain ⟨asks, grips, price⟩ := ih
      unfold nested at asks grips price ⊢
      cases poll : op.isPoll <;> simp [poll] <;> omega

theorem announce_grows (c : Call) :
    Grows e (e.enter c.moment m.env).1.length m (m.announce e c) 0 c.price := by
  obtain ⟨asks, grips, price⟩ := total_nested m.reply (e.enter c.moment m.env).1
  refine ⟨?_, ?_, ?_, fun b => ?_⟩
  · simp [announce]
    omega
  · simp [announce]
    omega
  · simp [announce]
    omega
  · have less := b.enter_le c.moment m.env
    simp only [announce, push, note]
    omega

theorem call_spends (c : Call) :
    Spends e (m.namedBy e (.call c)).length m (.call c) (m.call e c) := by
  refine ⟨c.price, by simp [Activity.price], ?_⟩
  cases c with
  | schedule t =>
      unfold call namedBy
      dsimp only
      split
      · exact (announce_grows (m := { m with counts := m.counts.schedule }) (.schedule t)).of_eq
          (by simp) (by simp) (by simp) fun _ => le_rfl
      · constructor <;> simp
        omega
  | _ => exact announce_grows _

theorem scheduled_spends (t : Task) : Spends e 0 m (.answer (.schedule t)) (m.scheduled t) := by
  refine ⟨29, by simp, ?_⟩
  unfold scheduled
  split <;> constructor <;> simp <;> omega

theorem created_spends (n w : Nat) (r : Reservation) :
    Spends e 0 m (.answer (.create n w r)) (m.created e n w r) := by
  have less (b : Budget e) := b.create_le r.slot m.env
  refine ⟨36, by simp, ?_⟩
  unfold created
  split
  · next found =>
      simp only [found] at less
      exact (lend_grows w _).of_eq (by simp) (by simp) (by simp; omega) less
  · next found =>
      simp only [found] at less
      constructor <;> simp [less]
      omega

theorem total_hold (f : Activity → Nat) (c : Call) :
    total f (m.hold e c).activities = f (.answer c) + total f m.activities := by
  have parts := List.takeWhile_append_dropWhile (p := fun a : Activity => !a.isThread)
    (l := m.stack)
  have split := congrArg (total f) (List.take_append_drop 1
    (m.stack.dropWhile fun a => !a.isThread))
  have drop : m.stack.drop (m.stack.takeWhile fun a => !a.isThread).length =
      m.stack.dropWhile fun a => !a.isThread := by
    generalize (m.stack.takeWhile fun a => !a.isThread) = above,
      (m.stack.dropWhile fun a => !a.isThread) = below at parts
    rw [← parts, List.drop_left]
  replace parts := congrArg (total f) parts
  rw [total_append] at split parts
  simp only [activities, hold, drop, total_append, total_cons, List.cons_append]
  omega

/-- A thread stops once only. -/
theorem hold_spends (n w : Nat) (r : Reservation) (running : m.background = .running) :
    Spends e 0 m (.answer (.create n w r)) (m.hold e (.create n w r)) := by
  have price := m.total_hold (e := e) Activity.price (.create n w r)
  have asks := m.total_hold (e := e) Activity.asks (.create n w r)
  have grips := m.total_hold (e := e) Activity.grips (.create n w r)
  refine ⟨36, by simp, ?_, ?_, ?_, fun b => b.tell_le .hold m.env⟩
  · rw [Machine.asks, asks]
    simp
  · rw [Machine.grips, grips]
    simp [hold]
  · rw [Machine.bill, price]
    simp [hold, running, Background.price]
    omega

theorem validated_spends (i : Item) (check : Check)
    (inLine : ∀ w x, m.pool.waiters[w]? = some x → x.state = .pending →
      w ∈ m.pool.registry.entries) :
    Spends e 0 m (.answer (.validate i check)) (m.validated e i check) := by
  have less (b : Budget e) := b.validate_le i.resource m.env
  unfold validated
  dsimp only
  cases valid : (e.validate i.resource m.env).1 <;> cases check <;> dsimp only
  case false.checkout => exact ⟨8, by simp, by constructor <;> simp [discard, less]; omega⟩
  case false.checkin => exact ⟨13, by simp, by constructor <;> simp [discard, less]; omega⟩
  case true.checkout n view =>
    have grows := handOut_grows (e := e)
      (m := ({ m with env := (e.validate i.resource m.env).2 } : Machine σ).note (.valid true))
      n view i inLine
    exact ⟨8, by simp, grows.1.of_eq (by simp) (by simp) (by simp) less⟩
  case true.checkin => exact ⟨17, by simp, by constructor <;> simp [less]; omega⟩

theorem closed_spends (i : Item) (why : Closing) :
    Spends e 0 m (.answer (.close i why)) (m.closed e i why) := by
  have less (b : Budget e) := b.close_le i.resource m.env
  have cheaper : (Call.close i why).price - 1 < (Activity.answer (.close i why)).price := by
    rcases why with (_ | _) | _ | ⟨_ | _⟩ | _ | _ <;> simp
  refine ⟨(Call.close i why).price - 1, cheaper, ?_⟩
  unfold closed
  dsimp only
  rcases why with (_ | _) | _ | ⟨_ | _⟩ | _ | _ <;>
    cases (e.close i.resource m.env).1 <;> constructor <;>
    simp [noteFailure, noteClosed, proceed, less] <;> omega

theorem awaited_spends (k : Nat) : Spends e 0 m (.awaited k) (m.awaited k) := by
  refine ⟨90, by simp, ?_⟩
  unfold awaited
  split <;> constructor <;> simp [Op.isPoll]
  omega

theorem pollEach_grows (seen : List (Nat × Poll)) (rest : List Nat) :
    Grows e 0 m (m.pollEach seen rest) 0 (90 * rest.length) := by
  cases rest with
  | nil => constructor <;> simp [pollEach]
  | cons k rest =>
      constructor <;> simp [pollEach, Op.isPoll]
      omega

theorem runNext_grows (left : Option Nat) (labels : List Nat) :
    Grows e 0 m (m.runNext left labels) 0 0 := by
  unfold runNext
  split
  · constructor <;> simp
  · constructor <;> simp
  · next t rest _ queue =>
      constructor <;> simp [queue]
      omega

theorem turn_grows : Grows e 0 m m.turn 0 0 := by
  unfold turn
  split
  · constructor <;> simp
  · next t rest queue =>
      constructor <;> simp [queue]
      omega

theorem joined_spends : Spends e 0 m .joined m.joined := by
  refine ⟨39, by simp, ?_⟩
  unfold joined
  split
  · next back => constructor <;> simp [Background.price, back] <;> omega
  · exact .answer _ _ 39

theorem resolve_spends {k : Nat} {x : Handle} (found : m.handles.get? k = some x) (o : Outcome) :
    Grows e 0 m (m.resolve k o) 0 2 := by
  have shorter := Table.length_of_get? found
  have longer (y : Handle) := m.handles.length_insert k y
  cases o with
  | ok i =>
      constructor <;> simp [resolve, setHandle]
      have := longer (.guard i)
      omega
  | error e =>
      constructor <;> simp [resolve, take] <;> omega

theorem poll_spends (k : Nat) : Spends e 0 m (.perform (.poll k)) (m.poll k) := by
  refine ⟨88, by simp [Op.isPoll], ?_⟩
  unfold poll
  split
  · constructor <;> simp
  · next a found =>
      obtain ⟨asks, grips, bill, same, env⟩ := m.look_eq_or a.waiter
      split
      · next looked =>
          rw [looked] at asks grips bill env
          constructor <;> simp_all
      · next o m' looked =>
          simp only [looked] at asks grips bill same env
          have resolved := resolve_spends (e := e) (m := m') (same ▸ found) o
          exact resolved.of_eq asks.le grips.le (by omega) fun _ => env ▸ le_rfl
  · next a deadline found =>
      obtain ⟨asks, grips, bill, same, env⟩ := m.look_eq_or a.waiter
      split
      · next o m' looked =>
          simp only [looked] at asks grips bill same env
          have resolved := resolve_spends (e := e) (m := m') (same ▸ found) o
          exact resolved.of_eq asks.le grips.le (by omega) fun _ => env ▸ le_rfl
      · next m' looked =>
          simp only [looked] at asks grips bill same env
          have shorter := m.handles.length_erase_le k
          split
          · split
            · constructor <;> simp_all [expire, take] <;> omega
            · constructor <;> simp_all
          · constructor <;> simp_all
  · next found =>
      have shorter := Table.length_of_get? found
      constructor <;> simp [take] <;> omega
  · constructor <;> simp
  · constructor <;> simp

theorem Grows.onPool {f : Machine σ → Machine σ} {k : Nat} (grows : Grows e 0 m (f m) 1 k) :
    Grows e 0 m (m.onPool f) 1 k := by
  unfold Machine.onPool
  split
  · exact grows
  · exact .answer _ 1 k

theorem Grows.onFree {h : Nat} {f : Machine σ → Machine σ} {k : Nat}
    (grows : Grows e 0 m (f m) 1 k) : Grows e 0 m (m.onFree h f) 1 k := by
  refine onPool ?_
  split
  · exact .answer _ 1 k
  · exact grows

theorem Grows.onResource {h : Nat} {f : Handle → Resource → Machine σ} {k : Nat}
    (grows : ∀ x r, Grows e 0 m (f x r) 1 k) : Grows e 0 m (m.onResource h f) 1 k := by
  unfold Machine.onResource
  split
  · exact .answer _ 1 k
  · split
    · exact grows _ _
    · exact .answer _ 1 k

theorem Grows.onTask {place : Nat} {f : Machine σ → Task → Machine σ} {k : Nat}
    (grows : ∀ (n : Machine σ) (t : Task), Grows e 0 n (f n t) 1 k) :
    Grows e 0 m (m.onTask place f) 1 k := by
  unfold Machine.onTask
  split
  · next t _ found =>
      have less := List.length_eraseIdx_le m.tasks place
      exact (grows { m with tasks := m.tasks.eraseIdx place } t).of_eq (by simp) (by simp)
        (by simp; omega) fun _ => le_rfl
  · exact .answer _ 1 k

/-- The handle is given up, and what it held is dropped. -/
theorem drop_grows {h : Nat} {x : Handle} (r : Reply) :
    Grows e 0 m ((m.take h).push (dropHandle x ++ [.say r])) 1 38 := by
  have shorter := m.handles.length_erase_le h
  obtain ⟨price, asks, grips⟩ := total_dropHandle x
  constructor <;> simp [take, asks, grips] <;> omega

theorem cancel_grows (h : Nat) (a : Acquire) : Grows e 0 m (m.cancel h a) 1 52 := by
  have shorter := m.handles.length_erase_le h
  unfold cancel
  have grows := withdraw_grows (e := e) (m := (m.take h).push
    [.put h (.acquire { a with attached := false }),
      .say (.flag (a.attached && (m.pool.cancel? a.waiter).isSome)), .release]) a
  constructor
  · exact grows.asks.trans (by simp [take])
  · exact grows.grips.trans (by simp [take]; omega)
  · exact grows.bill.trans (by simp [take]; omega)
  · exact grows.budget

/-- What the other thread had to do was on the bill all the time. -/
theorem join_grows : Grows e 0 m (m.join e) 1 40 := by
  have less (b : Budget e) := b.tell_le .resume m.env
  unfold join
  split
  · next back => constructor <;> simp [Background.price, back, less] <;> omega
  · next back => constructor <;> simp <;> omega
  · exact .answer _ 1 40

/-- Whatever else an operation begins with costs at most this. -/
theorem perform_grows (op : Op) (looks : op.isPoll = false) (all : op ≠ .pollAll) :
    ∃ k ≤ 180, Grows e 0 m (m.perform e op) 1 k := by
  cases op with
  | poll k => simp [Op.isPoll] at looks
  | pollAll => exact absurd rfl all
  | acquire k =>
      refine ⟨88, by simp, .onFree ?_⟩
      constructor <;> simp <;> omega
  | get k =>
      have longer := m.handles.length_insert k (.get .unstarted)
      have shorter := m.handles.length_erase_le k
      refine ⟨0, by simp, .onFree ?_⟩
      constructor <;> simp [setHandle]
      omega
  | await k =>
      refine ⟨180, le_rfl, ?_⟩
      constructor <;> simp [perform, Op.isPoll]
      omega
  | cancel k =>
      simp only [perform]
      split
      · exact ⟨0, by simp, .answer _ 1 0⟩
      · exact ⟨52, by simp, cancel_grows k _⟩
      · exact ⟨0, by simp, .answer _ 1 0⟩
  | drop k =>
      simp only [perform]
      split
      · exact ⟨0, by simp, .answer _ 1 0⟩
      · exact ⟨38, by simp, drop_grows _⟩
  | checkin k =>
      simp only [perform]
      refine ⟨38, by simp, .onPool ?_⟩
      split
      · exact .answer _ 1 38
      · exact drop_grows _
      · exact .answer _ 1 38
  | detach k =>
      simp only [perform]
      split
      · exact ⟨0, by simp, .answer _ 1 0⟩
      · have shorter := m.handles.length_erase_le k
        refine ⟨52, by simp, ?_⟩
        constructor <;> simp [detach, take] <;> omega
      · exact ⟨0, by simp, .answer _ 1 0⟩
  | execute k statement =>
      refine ⟨0, by simp, .onResource fun x r => ?_⟩
      split
      · next n r' _ =>
          have longer := m.handles.length_insert k (x.setResource r')
          have shorter := m.handles.length_erase_le k
          constructor <;> simp [setHandle]
          omega
      · exact .answer _ 1 0
  | executed k => exact ⟨0, by simp, .onResource fun x r => .answer _ 1 0⟩
  | info k =>
      simp only [perform]
      split <;> exact ⟨0, by simp, .answer _ 1 0⟩
  | describe k =>
      simp only [perform, describe]
      split <;> exact ⟨0, by simp, .answer _ 1 0⟩
  | invalidateHeld k =>
      simp only [perform]
      split
      · next i _ =>
          have less (b : Budget e) := b.tell_le (.invalidate i.resource.id) m.env
          refine ⟨0, by simp, ?_⟩
          constructor <;> simp [less]
      · exact ⟨0, by simp, .answer _ 1 0⟩
  | tell n =>
      have less (b : Budget e) := b.tell_le n m.env
      refine ⟨0, by simp, ?_⟩
      constructor <;> simp [perform, less]
  | run limit =>
      simp only [perform, run]
      split
      · have grows := runNext_grows (e := e) (m := m) limit []
        exact ⟨0, by simp, grows.asks, grows.grips.trans (by omega), grows.bill, grows.budget⟩
      · split
        · exact ⟨0, by simp, .answer _ 1 0⟩
        · refine ⟨2, by simp, ?_⟩
          constructor <;> simp [drive]
          omega
      · exact ⟨0, by simp, .answer _ 1 0⟩
  | runAt place =>
      simp only [perform]
      refine ⟨29, by simp, .onTask fun n t => ?_⟩
      constructor <;> simp
      omega
  | dropTask place =>
      simp only [perform]
      refine ⟨24, by simp, .onTask fun n t => ?_⟩
      constructor <;> simp
      omega
  | advance ms =>
      simp only [perform, advance]
      refine ⟨2, by simp, ?_⟩
      split
      · split
        · exact .answer _ 1 2
        · constructor <;> simp [drive]
          omega
      · constructor <;> simp
  | dispatchCounts =>
      simp only [perform]
      split <;> exact ⟨0, by simp, .answer _ 1 0⟩
  | factoryCounts => exact ⟨0, by simp, .answer _ 1 0⟩
  | close =>
      refine ⟨15, by simp, .onPool ?_⟩
      unfold close
      split
      · exact .answer _ 1 15
      · constructor <;> simp [Pool.price]
        omega
  | isClosed | status | slots | config | describePool | factoryCreated =>
      simp only [perform]
      exact ⟨0, by simp, .onPool (.answer _ 1 0)⟩
  | clone =>
      simp only [perform]
      refine ⟨0, by simp, .onPool ?_⟩
      constructor <;> simp
  | dropClone =>
      simp only [perform]
      split
      · exact ⟨0, by simp, .answer _ 1 0⟩
      · refine ⟨3, by simp, ?_⟩
        constructor <;> simp [letGo]
        omega
  | dropPool =>
      simp only [perform]
      split
      · refine ⟨3, by simp, ?_⟩
        constructor <;> simp [letGo]
        omega
      · exact ⟨0, by simp, .answer _ 1 0⟩
  | background k =>
      refine ⟨91, by simp, .onFree ?_⟩
      unfold launch
      split
      · next back => constructor <;> simp [Background.price, back] <;> omega
      · exact .answer _ 1 91
  | join => exact ⟨40, by simp, join_grows⟩

/-- Every activity but the operations pays for what it leaves behind. -/
theorem exec_spends (a : Activity) (operates : ∀ op, a = .perform op → op.isPoll = true)
    (positive : ∀ n, a = .again n → 0 < n)
    (inLine : ∀ w x, m.pool.waiters[w]? = some x → x.state = .pending →
      w ∈ m.pool.registry.entries) : Spends e (m.namedBy e a).length m a (m.exec e a) := by
  cases a with
  | perform op =>
      cases op with
      | poll k => exact poll_spends k
      | _ => simp [Op.isPoll] at operates
  | finish before | say r | wentAway slot w | ran | timedOut limit | thread name =>
      exact ⟨0, by simp, by constructor <;> simp [exec, namedBy]⟩
  | release => exact release_spends
  | teardown => exact teardown_spends
  | acquire purpose => exact request_spends purpose
  | acquired a purpose => exact requested_spends a purpose
  | put k x => exact put_spends k x
  | quit a => exact quit_spends a
  | hangUp w => exact hangUp_spends w
  | abandon t => exact ⟨0, by simp, by constructor <;> simp [exec, namedBy]⟩
  | giveBack i => exact giveBack_spends i
  | trigger => exact trigger_spends
  | again n => exact again_spends (positive n rfl)
  | round n inHand => exact round_spends n inHand inLine
  | search n view => exact ⟨5, by simp, (seek_grows n view inLine).1⟩
  | call c => exact call_spends c
  | answer c =>
      cases c with
      | create n w r =>
          simp only [exec, answered]
          split
          · next back =>
              refine hold_spends n w r ?_
              cases h : m.background <;> simp_all [Background.holdsBack]
          · exact created_spends n w r
      | validate i check => exact validated_spends i check inLine
      | close i why => exact closed_spends i why
      | schedule t => exact scheduled_spends t
  | task t => exact runTask_spends t
  | deliver t => exact deliver_spends t
  | refuse t => exact refuse_spends t
  | flush who failures => exact flush_spends who failures
  | report failures =>
      refine ⟨0, by simp, ?_⟩
      simp only [exec, report]
      split <;> constructor <;> simp [namedBy]
  | awaited k => exact awaited_spends k
  | collect k rest seen =>
      exact ⟨90 * rest.length, by simp, pollEach_grows _ rest⟩
  | runNext left labels => exact ⟨0, by simp, runNext_grows left labels⟩
  | turn => exact ⟨0, by simp, turn_grows⟩
  | launched =>
      refine ⟨0, by simp, ?_⟩
      simp only [exec, launched]
      split <;> exact .answer _ _ 0
  | joined => exact joined_spends

end Spends

section Potential

variable {m m' : Machine σ}

theorem potential_lt {k k' d : Nat} (asks : m'.asks + k' + d ≤ m.asks + k)
    (grips : m'.grips + k' ≤ m.grips + k)
    (bill : m'.bill + 90 * k' < m.bill + 90 * k + d * (90 * (m.grips + k) + 181)) :
    m'.potential k' < m.potential k := by
  unfold potential
  generalize m'.asks + k' = a', m'.grips + k' = g', m'.bill + 90 * k' = c', m.asks + k = a,
    m.grips + k = g, m.bill + 90 * k = c at asks grips bill
  calc a' * (90 * g' + 181) + c'
    _ ≤ a' * (90 * g + 181) + c' := Nat.add_le_add_right (Nat.mul_le_mul_left _ (by omega)) _
    _ < a' * (90 * g + 181) + (c + d * (90 * g + 181)) := Nat.add_lt_add_left bill _
    _ = (a' + d) * (90 * g + 181) + c := by
        rw [Nat.add_mul]
        omega
    _ ≤ a * (90 * g + 181) + c := Nat.add_le_add_right (Nat.mul_le_mul_right _ asks) _

/-- A step with something to do lowers the potential, the operations named meanwhile being among
those still to be named before. -/
theorem step_potential (busy : m.stack ≠ []) (positive : ∀ n, .again n ∈ m.stack → 0 < n)
    (inLine : ∀ w x, m.pool.waiters[w]? = some x → x.state = .pending →
      w ∈ m.pool.registry.entries) :
    (∀ k, (m.step e).potential k < m.potential (k + (m.named e).length)) ∧
      ∀ b : Budget e, b.ops (m.step e).env + (m.named e).length ≤ b.ops m.env := by
  obtain ⟨a, rest, top⟩ := List.exists_cons_of_ne_nil busy
  have next : m.step e = ({ m with stack := rest } : Machine σ).exec e a := by rw [step, top]
  have asks : m.asks = a.asks + ({ m with stack := rest } : Machine σ).asks := by
    simp only [Machine.asks, activities, top, total_cons, List.cons_append]
  have grips : m.grips = a.grips + ({ m with stack := rest } : Machine σ).grips := by
    simp only [Machine.grips, activities, top, total_cons, List.cons_append]
    omega
  have bill : m.bill = a.price + ({ m with stack := rest } : Machine σ).bill := by
    simp only [Machine.bill, activities, top, total_cons, List.cons_append]
    omega
  have handles : m.handles.entries.length ≤ m.grips := by
    unfold Machine.grips
    omega
  have named : m.named e = ({ m with stack := rest } : Machine σ).namedBy e a := by
    rw [Machine.named, top]
    rfl
  have env : m.env = ({ m with stack := rest } : Machine σ).env := rfl
  rw [next, named, env]
  generalize popped : ({ m with stack := rest } : Machine σ) = n at asks grips bill
  have spends (operates : ∀ op, a = .perform op → op.isPoll = true) :
      (∀ k, (n.exec e a).potential k < m.potential (k + (n.namedBy e a).length)) ∧
        ∀ b : Budget e, b.ops (n.exec e a).env + (n.namedBy e a).length ≤ b.ops n.env := by
    obtain ⟨j, paid, grows⟩ := exec_spends (e := e) (m := n) a operates
      (fun k last => positive k (by simp [top, last])) (by rw [← popped]; exact inLine)
    have := grows.asks
    have := grows.grips
    have := grows.bill
    exact ⟨fun k => potential_lt (d := 0) (by omega) (by omega) (by omega), grows.budget⟩
  cases a with
  | perform op =>
      cases looks : op.isPoll with
      | true => exact spends fun op' same => by cases same; exact looks
      | false =>
          -- One operation less is to come, and that pays for what this one begins with.
          have begins : ∃ k ≤ 90 * m.grips + 180, Grows e 0 n (n.perform e op) 1 k := by
            by_cases all : op = .pollAll
            · subst all
              have grows := pollEach_grows (e := e) (m := n) []
                ((n.handles.entries.filter fun e => e.2.isPending).map Prod.fst)
              have fewer := List.length_filter_le (fun e => e.2.isPending) n.handles.entries
              have same : n.handles = m.handles := by rw [← popped]
              refine ⟨_, ?_, grows.asks, grows.grips.trans (by omega), grows.bill, grows.budget⟩
              rw [List.length_map]
              rw [same] at fewer ⊢
              omega
            · obtain ⟨k, most, grows⟩ := perform_grows (e := e) (m := n) op looks all
              exact ⟨k, by omega, grows⟩
          obtain ⟨j, most, grows⟩ := begins
          have := grows.asks
          have := grows.grips
          have := grows.bill
          simp only [Activity.asks, Activity.grips, Activity.price, looks, Bool.false_eq_true,
            if_false] at asks grips bill
          refine ⟨fun k => potential_lt (d := 1) ?_ ?_ ?_, grows.budget⟩ <;>
            simp only [exec, namedBy, List.length_nil] <;> omega
  | _ => exact spends (by simp)

theorem total_le_length {f : Activity → Nat} {as : List Activity} {k : Nat}
    (each : ∀ a ∈ as, f a ≤ k) : total f as ≤ k * as.length := by
  induction as with
  | nil => simp
  | cons a as ih =>
      have first := each a (List.mem_cons_self ..)
      have others := ih fun a member => each a (List.mem_cons_of_mem _ member)
      simp only [total_cons, List.length_cons, Nat.mul_add]
      omega

section

variable {b : Budget e}

theorem asks_le_pendingOps : m.asks + b.ops m.env ≤ m.pendingOps b := by
  unfold asks pendingOps
  generalize m.activities = as
  induction as with
  | nil => simp
  | cons a as ih =>
      cases a <;> simp_all [Activity.asks]
      split <;> omega

/-- The fuel is more than enough when nobody is in the middle of looking at all requests. -/
theorem potential_le_fuel (cheap : ∀ a ∈ m.activities, a.price ≤ 91) :
    m.potential (b.ops m.env) ≤ m.fuel b := by
  have asks : m.asks + b.ops m.env ≤ m.pendingOps b := asks_le_pendingOps
  have ops : b.ops m.env ≤ m.pendingOps b := Nat.le_add_right ..
  have grips : m.grips + b.ops m.env ≤ m.pendingOps b + m.load := by
    have each : ∀ a ∈ m.activities, a.grips ≤ 1 := fun a _ => by
      cases a <;> simp only [Activity.grips] <;> first | omega | (split <;> omega)
    have := total_le_length each
    unfold Machine.grips load
    omega
  have bill : m.bill + 90 * b.ops m.env ≤ 91 * (m.pendingOps b + m.load) + 1 := by
    have := total_le_length cheap
    have : m.background.price ≤ 1 := by cases m.background <;> simp [Background.price]
    unfold Machine.bill load Pool.price
    omega
  unfold potential fuel
  generalize m.pendingOps b = p, m.load = l at asks grips bill
  calc (m.asks + b.ops m.env) * (90 * (m.grips + b.ops m.env) + 181) + (m.bill + 90 * b.ops m.env)
    _ ≤ p * (90 * (p + l) + 181) + (91 * (p + l) + 1) :=
        Nat.add_le_add (Nat.mul_le_mul asks (by omega)) bill
    _ ≤ 256 * (p + 1) * (p + l + 1) := by
        generalize p + l = s
        have left : p * (90 * s + 181) = 90 * (p * s) + 181 * p := by
          rw [Nat.mul_add, Nat.mul_left_comm, Nat.mul_comm p 181]
        have right : (p + 1) * (s + 1) = p * s + p + s + 1 := by
          rw [Nat.add_mul, Nat.mul_add, Nat.mul_one, Nat.one_mul]
          omega
        rw [left, Nat.mul_assoc, right]
        omega

end

end Potential

theorem steps_of_idle {m : Machine σ} (idle : m.stack = []) (n : Nat) : m.steps e n = m := by
  cases n <;> simp [steps, idle]

theorem steps_succ {m : Machine σ} {a : Activity} {rest : List Activity}
    (stack : m.stack = a :: rest) (n : Nat) :
    m.steps e (n + 1) = (({ m with stack := rest } : Machine σ).exec e a).steps e n := by
  simp [steps, step, stack]

theorem steps_add (m : Machine σ) (j k : Nat) : m.steps e (j + k) = (m.steps e j).steps e k := by
  induction j generalizing m with
  | zero => rw [Nat.zero_add, steps]
  | succ j ih =>
      rw [Nat.succ_add, steps, steps]
      split
      · next idle => rw [steps_of_idle (List.isEmpty_iff.1 idle)]
      · exact ih _

/-- The machine comes to rest in one state only. -/
theorem steps_eq {m : Machine σ} {j k : Nat} (idle : (m.steps e j).stack = [])
    (other : (m.steps e k).stack = []) : m.steps e j = m.steps e k := by
  have first := m.steps_add (e := e) j k
  have second := m.steps_add (e := e) k j
  rw [steps_of_idle idle] at first
  rw [steps_of_idle other] at second
  rw [← first, Nat.add_comm, second]

theorem trail_of_idle {m : Machine σ} (idle : m.stack = []) (k : Nat) : m.trail e k = [] := by
  cases k <;> simp [trail, idle]

theorem trail_add (m : Machine σ) (j k : Nat) :
    m.trail e (j + k) = (m.steps e j).trail e k ++ m.trail e j := by
  induction j generalizing m with
  | zero => simp [trail, steps]
  | succ j ih =>
      rw [Nat.succ_add, trail, trail, steps]
      split
      · next idle => rw [trail_of_idle (List.isEmpty_iff.1 idle), List.append_nil]
      · rw [ih, List.append_assoc]

theorem namings_succ {m : Machine σ} (busy : m.stack ≠ []) (n : Nat) :
    m.namings e (n + 1) = (m.named e).length + (m.step e).namings e n := by
  rw [namings, trail, List.isEmpty_eq_false_iff.2 busy]
  simp [namings, Nat.add_comm]

/-- The machine comes to rest in one way only. -/
theorem trail_eq {m : Machine σ} {j k : Nat} (idle : (m.steps e j).stack = [])
    (other : (m.steps e k).stack = []) :
    m.trail e j = m.trail e k := by
  have first := m.trail_add (e := e) j k
  have second := m.trail_add (e := e) k j
  rw [trail_of_idle idle, List.nil_append] at first
  rw [trail_of_idle other, List.nil_append] at second
  rw [← first, Nat.add_comm, second]

end Machine

namespace Run

variable {σ : Type} {e : Environment σ} {past : List (Machine σ)} {m : Machine σ}

theorem again_positive (run : Run e past m) {n : Nat} (last : .again n ∈ m.stack) : 0 < n := by
  have inside : Asset.matcher n .over ∈ m.assets :=
    Machine.mem_assets (List.mem_append_left _ last) (by simp)
  obtain ⟨others, parts⟩ := Multiset.exists_cons_of_mem inside
  have matching := run.matching
  rw [parts, ← Multiset.singleton_add] at matching
  exact matching.alone.1

theorem step_potential (run : Run e past m) (busy : m.stack ≠ []) :
    (∀ k, (m.step e).potential k < m.potential (k + (m.named e).length)) ∧
      ∀ b : Budget e, b.ops (m.step e).env + (m.named e).length ≤ b.ops m.env :=
  Machine.step_potential busy (fun _ => run.again_positive)
    fun w x found pending => (run.sound.standings.inLine w).2 ⟨x, found, pending⟩

/-- A budget is never exceeded. -/
theorem namings_le (b : Budget e) (run : Run e past m) (n : Nat) :
    m.namings e n ≤ b.ops m.env := by
  induction n generalizing past m with
  | zero => exact Nat.zero_le _
  | succ n ih =>
      by_cases idle : m.stack = []
      · rw [Machine.namings, Machine.trail_of_idle idle]
        exact Nat.zero_le _
      · have := (run.step_potential idle).2 b
        have := ih run.step
        rw [Machine.namings_succ idle]
        omega

/-- When the surroundings name so many operations at most, the pool comes to rest in as many steps
as its potential says, at the latest. -/
theorem rests_of_namings (run : Run e past m) {k n : Nat} (few : ∀ n, m.namings e n ≤ k)
    (enough : m.potential k ≤ n) : (m.steps e n).stack = [] := by
  induction n generalizing past m k with
  | zero =>
      change m.stack = []
      by_contra busy
      have first := few 1
      rw [Machine.namings_succ busy] at first
      have less := (run.step_potential busy).1 (k - (m.named e).length)
      rw [Nat.sub_add_cancel (by omega)] at less
      omega
  | succ n ih =>
      by_cases idle : m.stack = []
      · rwa [Machine.steps_of_idle idle]
      · have first := few 1
        rw [Machine.namings_succ idle] at first
        have less := (run.step_potential idle).1 (k - (m.named e).length)
        rw [Nat.sub_add_cancel (by omega)] at less
        rw [Machine.steps, List.isEmpty_eq_false_iff.2 idle]
        refine ih run.step (k := k - (m.named e).length) (fun n => ?_) (by omega)
        have later := few (n + 1)
        rw [Machine.namings_succ idle] at later
        omega

theorem rests (b : Budget e) (run : Run e past m) {n : Nat}
    (enough : m.potential (b.ops m.env) ≤ n) : (m.steps e n).stack = [] :=
  run.rests_of_namings (run.namings_le b) enough

/-- An operation from outside comes to its end. -/
theorem performed (b : Budget e) (run : Run e past m) (idle : m.stack = []) (alone : m.paused = [])
    (op : Op) : (m.performed b op).stack = [] := by
  refine (run.ask op idle).rests b (Machine.potential_le_fuel fun a member => ?_)
  obtain rfl : a = .perform op := by
    simpa [Machine.activities, Machine.push, idle, alone] using member
  simp only [Activity.price]
  split <;> omega

end Run
end ResourcePool
