import ResourcePool.Proofs.Standing

/-!
The stock of a pool: for each slot in use, who answers for it. A slot is answered for by the queue
it stands in, by the asset that holds its resource, or by the outcome in which its resource waits for
a listener. Moving a resource from one of these places to another leaves the stock as it is.
-/

namespace ResourcePool

attribute [-simp] Multiset.singleton_add

/-- A slot that somebody answers for, the state it must be in, and its resource if there is one. -/
structure Holding where
  slot : Nat
  state : SlotState
  resource : Option Resource

namespace Item

def lent (i : Item) : Holding :=
  ⟨i.slot, .checkedOut, some i.resource⟩

def stored (i : Item) : Holding :=
  ⟨i.slot, .idle, some i.resource⟩

def ousted (i : Item) : Holding :=
  ⟨i.slot, .closed, some i.resource⟩

end Item

namespace Holding

/-- A slot that may be filled again. -/
def free (slot : Nat) : Holding :=
  ⟨slot, .uninitialized, none⟩

/-- A slot whose resource was passed on for closing. -/
def spent (slot : Nat) : Holding :=
  ⟨slot, .idle, none⟩

end Holding

@[simp] def Asset.holding? : Asset → Option Holding
  | guard i => some i.lent
  | idle i => some i.stored
  | spent slot => some (.spent slot)
  | ousted i => some i.ousted
  | matcher _ (.filling (.vacated slot)) => some (.free slot)
  | _ => none

def holdings (A : Multiset Asset) : Multiset Holding :=
  A.filterMap Asset.holding?

@[simp] theorem holdings_add (A B : Multiset Asset) :
    holdings (A + B) = holdings A + holdings B :=
  Multiset.filterMap_add ..

@[simp] theorem holdings_singleton (a : Asset) :
    holdings {a} = a.holding?.elim 0 singleton :=
  filterMap_singleton ..

def Waiter.parcel? (x : Waiter Outcome) : Option Item :=
  match x.line with
  | .sent (.ok i) => some i
  | _ => none

theorem coe_filterMap_cons {α β : Type} (f : α → Option β) (a : α) (l : List α) :
    ((a :: l).filterMap f : Multiset β) = (f a).elim 0 singleton + (l.filterMap f : List β) := by
  rw [List.filterMap_cons]
  cases f a
  · exact (zero_add _).symm
  · rfl

theorem coe_map_concat {α β : Type} (f : α → β) (l : List α) (a : α) :
    ((l ++ [a]).map f : Multiset β) = {f a} + (l.map f : List β) := by
  rw [List.map_append, ← Multiset.coe_add, add_comm]
  rfl

theorem coe_filterMap_modify {α β : Type} (f : α → Option β) {l : List α} {n : Nat} {a : α}
    (found : l[n]? = some a) (b : α) :
    ((l.modify n fun _ => b).filterMap f : Multiset β) + (f a).elim 0 singleton =
      (f b).elim 0 singleton + (l.filterMap f : List β) := by
  induction l generalizing n with
  | nil => simp at found
  | cons c l ih =>
      cases n with
      | zero =>
          obtain rfl : c = a := by simpa using found
          simp only [List.modify_zero_cons, coe_filterMap_cons]
          abel
      | succ n =>
          have rest := ih (n := n) (by simpa using found)
          simp only [List.modify_succ_cons, coe_filterMap_cons, add_assoc, rest]
          abel

namespace Pool

/-- The resources that wait for a listener. -/
def parcels (p : Pool) : Multiset Item :=
  (p.waiters.filterMap Waiter.parcel? : List Item)

def holdings (p : Pool) : Multiset Holding :=
  (p.returned.map Item.stored : List Holding) + (p.vacated.map Holding.free : List Holding) +
    p.parcels.map Item.lent

variable {p q : Pool}

theorem parcels_modifyWaiter {w : Nat} {x : Waiter Outcome} (found : p.waiters[w]? = some x)
    (y : Waiter Outcome) :
    (p.modifyWaiter w fun _ => y).parcels + x.parcel?.elim 0 singleton =
      y.parcel?.elim 0 singleton + p.parcels :=
  coe_filterMap_modify Waiter.parcel? found y

theorem parcels_hangUp (w : Nat) :
    p.parcels = (match (p.hangUp w).1 with
      | some (.ok i) => {i}
      | _ => 0) + (p.hangUp w).2.parcels := by
  unfold hangUp waiter?
  cases found : p.waiters[w]? with
  | none => simp
  | some x =>
      have moved := parcels_modifyWaiter found x.hangUp.2
      cases line : x.line with
      | sent o =>
          cases o with
          | error => simp_all [Waiter.hangUp, Waiter.parcel?]
          | ok i =>
              simp only [Waiter.hangUp, line] at moved ⊢
              simpa [Waiter.parcel?, line, add_comm] using moved.symm
      | _ => simp_all [Waiter.hangUp, Waiter.parcel?]

theorem parcels_receive {w : Nat} {o : Outcome}
    (found : p.receive w = (.value o, q) ∨ p.receive w = (.closed, q) ∧ o = .error .cancelled) :
    p.parcels = (match o with
      | .ok i => {i}
      | .error _ => 0) + q.parcels := by
  unfold receive waiter? at found
  cases present : p.waiters[w]? with
  | none =>
      simp only [present] at found
      obtain ⟨rfl, rfl⟩ : q = p ∧ o = .error .cancelled := by simpa [eq_comm] using found
      simp
  | some x =>
      have moved := parcels_modifyWaiter present x.receive.2
      simp only [present, Waiter.receive] at found moved
      cases line : x.line with
      | silent => simp [line] at found
      | sent o' =>
          obtain ⟨rfl, rfl⟩ : o' = o ∧ _ = q := by simpa [line] using found
          cases o' with
          | error => simpa [Waiter.parcel?, line] using moved.symm
          | ok i => simpa [Waiter.parcel?, line, add_comm] using moved.symm
      | _ =>
          obtain ⟨rfl, rfl⟩ : _ = q ∧ o = .error .cancelled := by simpa [line] using found
          simpa [Waiter.parcel?, line] using moved.symm

theorem parcels_complete {w : Nat} {x : Waiter Outcome} (found : p.waiters[w]? = some x)
    (silent : x.line = .silent) (i : Item) :
    (match (p.complete w (.ok i)).1 with
      | some (.ok j) => {j}
      | _ => 0) + (p.complete w (.ok i)).2.parcels = {i} + p.parcels := by
  have moved := parcels_modifyWaiter found (x.complete (.ok i)).2
  unfold complete waiter?
  cases listening : x.listening <;>
    simp_all [Waiter.complete, Waiter.parcel?]

theorem parcels_completeError {w : Nat} {x : Waiter Outcome} (found : p.waiters[w]? = some x)
    (silent : x.line = .silent) (e : PoolError) :
    (p.complete w (.error e)).2.parcels = p.parcels := by
  have moved := parcels_modifyWaiter found (x.complete (.error e)).2
  unfold complete waiter?
  cases listening : x.listening <;>
    simp_all [Waiter.complete, Waiter.parcel?]

theorem parcels_abandon {w : Nat} {x : Waiter Outcome} (found : p.waiters[w]? = some x)
    (silent : x.line = .silent) : (p.abandon w).parcels = p.parcels := by
  have moved := parcels_modifyWaiter found x.abandon
  rw [abandon, modifyWaiter_eq found]
  simpa [Waiter.parcel?, Waiter.abandon, silent] using moved

theorem parcels_cancel? {w : Nat} (cancelled : p.cancel? w = some q)
    (silent : ∀ x, p.waiters[w]? = some x → x.state = .pending → x.line = .silent) :
    q.parcels = p.parcels := by
  obtain ⟨x, found, pending, rfl⟩ := cancel?_eq_some cancelled
  have moved := parcels_modifyWaiter found { x with state := .cancelled, line := .over }
  simp [Waiter.parcel?, silent x found pending] at moved
  exact moved

theorem parcels_pick {view : List Nat} {chosen : Option Nat}
    (picked : p.pick view = (chosen, q)) : q.parcels = p.parcels := by
  cases chosen with
  | none => obtain rfl | ⟨_, _, rfl⟩ := pick_eq_none picked <;> rfl
  | some w =>
      obtain ⟨x, found, pending, rfl⟩ := pick_eq_some picked
      have moved := parcels_modifyWaiter found { x with state := .fulfilled }
      have same : x.parcel? = ({ x with state := .fulfilled } : Waiter Outcome).parcel? := rfl
      rw [same, add_comm] at moved
      exact add_left_cancel moved

theorem parcels_dismiss {w : Nat}
    (silent : ∀ x, p.waiters[w]? = some x → x.state = .pending → x.line = .silent) :
    (p.dismiss w).parcels = p.parcels := by
  unfold dismiss
  cases claimed : p.claim? w with
  | none => rfl
  | some q =>
      obtain ⟨x, found, pending, rfl⟩ := claim?_eq_some claimed
      have line := silent x found pending
      have moved : (p.modifyWaiter w fun _ => { x with state := .fulfilled }).parcels =
          p.parcels := by
        simpa [Waiter.parcel?, line] using
          parcels_modifyWaiter found { x with state := .fulfilled }
      refine Eq.trans ?_ moved
      exact parcels_completeError (p := p.modifyWaiter w fun _ => { x with state := .fulfilled })
        (w := w) (x := { x with state := .fulfilled }) (by simp [modifyWaiter, found]) line .closed

theorem parcels_foldl_dismiss {t : Nat → Ties} {ids : List Nat} (standings : Standings p t)
    (line : p.registry.entries = ids) : (ids.foldl dismiss p).parcels = p.parcels := by
  induction ids generalizing p t with
  | nil => rfl
  | cons id ids ih =>
      rw [List.foldl_cons, ih (standings.dismiss_head line) (by simp [line])]
      exact parcels_dismiss fun x found pending =>
        (Standings.pending_of_state (standings.standing id x found) pending).1

theorem parcels_concat {x : Waiter Outcome} (waiters : q.waiters = p.waiters ++ [x])
    (none : x.parcel? = none) : q.parcels = p.parcels := by
  simp [parcels, waiters, List.filterMap_append, none]

theorem SameStock.holdings_add (same : p.SameStock q) {P Q : Multiset Item}
    (parcels : P + q.parcels = Q + p.parcels) :
    P.map Item.lent + q.holdings = Q.map Item.lent + p.holdings := by
  have lent := congrArg (Multiset.map Item.lent) parcels
  rw [Multiset.map_add, Multiset.map_add] at lent
  rw [holdings, holdings, same.returned, same.vacated, add_left_comm, lent]
  abel

theorem SameStock.holdings (same : p.SameStock q) (parcels : q.parcels = p.parcels) :
    q.holdings = p.holdings := by
  simpa using same.holdings_add (P := 0) (Q := 0) (by simpa using parcels)

@[simp] theorem holdings_modifySlot (i : Nat) (f : Slot → Slot) :
    (p.modifySlot i f).holdings = p.holdings := rfl

@[simp] theorem holdings_setState (i : Nat) (s : SlotState) :
    (p.setState i s).holdings = p.holdings := rfl

@[simp] theorem holdings_pushReturned (i : Item) :
    (p.pushReturned i).holdings = {i.stored} + p.holdings := by
  change ((p.returned ++ [i]).map Item.stored : Multiset Holding) +
    (p.vacated.map Holding.free : List Holding) + p.parcels.map Item.lent = _
  rw [coe_map_concat, holdings]
  abel

theorem holdings_popReturned? {i : Item} (popped : p.popReturned? = some (i, q)) :
    p.holdings = {i.stored} + q.holdings := by
  obtain ⟨rest, queue, rfl⟩ := popReturned?_eq_some popped
  rw [holdings, queue, List.map_cons, ← Multiset.cons_coe, ← Multiset.singleton_add,
    add_assoc, add_assoc, holdings, add_assoc]
  rfl

@[simp] theorem holdings_vacate (slot : Nat) :
    (p.vacate slot).holdings = {.free slot} + p.holdings := by
  change (p.returned.map Item.stored : Multiset Holding) +
    ((p.vacated ++ [slot]).map Holding.free : List Holding) + p.parcels.map Item.lent = _
  rw [coe_map_concat, holdings]
  abel

theorem holdings_reserve? {r : Reservation} (reserved : p.reserve? = some (r, q)) (n : Nat) :
    p.holdings = ResourcePool.holdings {.matcher n (.filling r)} + q.holdings := by
  obtain ⟨slot, rest, queue, rfl, rfl⟩ | ⟨_, _, rfl, rfl⟩ := reserve?_eq_some reserved
  · rw [holdings, queue, List.map_cons, ← Multiset.cons_coe, ← Multiset.singleton_add,
      holdings_singleton, holdings]
    change _ = _ + (_ + (rest.map Holding.free : List Holding) + p.parcels.map Item.lent)
    simp only [Asset.holding?, Option.elim_some]
    abel
  · simp

@[simp] theorem holdings_unreserve (r : Reservation) (n : Nat) :
    (p.unreserve r).holdings =
      ResourcePool.holdings {.matcher n (.filling r)} + p.holdings := by
  cases r with
  | fresh slot => simp [unreserve]
  | vacated slot =>
      change (p.returned.map Item.stored : Multiset Holding) +
        ((p.vacated ++ [slot]).map Holding.free : List Holding) + p.parcels.map Item.lent = _
      rw [coe_map_concat, holdings]
      simp only [holdings_singleton, Asset.holding?, Option.elim_some]
      abel

@[simp] theorem holdings_occupy (r : Reservation) : (p.occupy r).holdings = p.holdings := by
  cases r <;> rfl

end Pool

def Books.stock (b : Books) : Multiset Holding :=
  holdings b.assets + b.pool.holdings

/-- Loans that wait for a listener, or cease to, leave the stock as it is. -/
theorem stock_of_parcels {b c : Books} (same : b.pool.SameStock c.pool) {P Q : Multiset Item}
    {S : Multiset Holding} (parcels : P + c.pool.parcels = Q + b.pool.parcels)
    (old : holdings b.assets = Q.map Item.lent + S)
    (new : holdings c.assets = P.map Item.lent + S) : c.stock = b.stock := by
  rw [Books.stock, Books.stock, old, new, add_right_comm, same.holdings_add parcels,
    add_right_comm]

namespace Books

variable {b : Books} {t : Nat → Ties} {p : Pool} {w : Nat} {A : Multiset Asset}

theorem stock_enroll (a : Acquire) : stock { b with
    pool := b.pool.enroll, assets := {.listener a} + ({.trigger} + b.assets) } = b.stock := by
  simp [stock, b.pool.enroll_sameStock.holdings (Pool.parcels_concat rfl rfl)]

theorem stock_turnAway (a : Acquire) : stock { b with
    pool := b.pool.turnAway, assets := {.listener a} + b.assets } = b.stock := by
  simp [stock, b.pool.turnAway_sameStock.holdings (Pool.parcels_concat rfl rfl)]

theorem stock_hangUp {a : Acquire} (held : b.assets = {.listener a} + A) : stock { b with
    pool := (b.pool.hangUp w).2
    assets := match (b.pool.hangUp w).1 with
      | some (.ok i) => {.guard i} + A
      | _ => A } = b.stock := by
  refine stock_of_parcels (b.pool.hangUp_sameStock w) (Q := 0) (S := holdings A)
    ((Pool.parcels_hangUp w).symm.trans (zero_add _).symm) (by simp [held]) ?_
  obtain _ | _ | i := (b.pool.hangUp w).1 <;> simp

theorem stock_see {a : Acquire} {o : Outcome} (held : b.assets = {.listener a} + A)
    (found : b.pool.receive w = (.value o, p) ∨
      b.pool.receive w = (.closed, p) ∧ o = .error .cancelled) : stock { b with
    pool := p
    assets := match o with
      | .ok i => {.guard i} + A
      | .error _ => A } = b.stock := by
  refine stock_of_parcels (Pool.sameStock_of_received found).1 (Q := 0) (S := holdings A)
    ((Pool.parcels_receive found).symm.trans (zero_add _).symm) (by simp [held]) ?_
  obtain _ | i := o <;> simp

theorem stock_pick {view : List Nat} {chosen : Option Nat}
    (picked : b.pool.pick view = (chosen, p)) : stock { b with pool := p } = b.stock := by
  simp [stock, (Pool.pick_sameStock picked).holdings (Pool.parcels_pick picked)]

theorem stock_reserve {n : Nat} {r : Reservation} (held : b.assets = {.matcher n .seeking} + A)
    (reserved : b.pool.reserve? = some (r, p)) : stock { b with
    pool := p, assets := {.matcher n (.filling r)} + A } = b.stock := by
  simp only [stock, held, holdings_add, Pool.holdings_reserve? reserved n]
  simp only [holdings_singleton, Asset.holding?, Option.elim_none]
  abel

theorem stock_unreserve {n : Nat} {r : Reservation}
    (held : b.assets = {.matcher n (.filling r)} + A) : stock { b with
    pool := b.pool.unreserve r, assets := {.matcher n .seeking} + A } = b.stock := by
  simp only [stock, held, holdings_add, Pool.holdings_unreserve r n]
  simp only [holdings_singleton, Asset.holding?, Option.elim_none]
  abel

theorem stock_trigger (held : b.assets = {.trigger} + A) (n : Nat) : stock { b with
    pool := { b.pool with triggers := n }
    assets := if b.pool.triggers = 0 then {.matcher 1 .seeking} + A else A } = b.stock := by
  simp only [stock, held]
  split <;> simp <;> rfl

theorem stock_again {n : Nat} (held : b.assets = {.matcher n .over} + A) (k : Nat) : stock { b with
    pool := { b.pool with triggers := k }
    assets := if k = 0 then A else {.matcher k .seeking} + A } = b.stock := by
  simp only [stock, held]
  split <;> simp <;> rfl

theorem stock_queue {i : Item} (held : b.assets = {.idle i} + A) :
    stock { b with pool := b.pool.pushReturned i, assets := A } = b.stock := by
  simp [stock, held]
  abel

theorem stock_pop {i : Item} (popped : b.pool.popReturned? = some (i, p)) :
    stock { b with pool := p, assets := {.idle i} + b.assets } = b.stock := by
  simp [stock, Pool.holdings_popReturned? popped]
  abel

section

variable (standings : Standings b.pool b.ties)
include standings

theorem stock_withdraw {a a' : Acquire} (held : b.assets = {.listener a} + A)
    (pending : b.pool.cancel? w = some p) : stock { b with
    pool := p, assets := {.listener a'} + ({.trigger} + A) } = b.stock := by
  have parcels := Pool.parcels_cancel? pending fun x found state =>
    (Standings.pending_of_state (standings.standing _ x found) state).1
  simp [stock, held, (Pool.cancel?_sameStock pending).holdings parcels]

variable {c : List Fate}

theorem stock_send {i : Item} (held : b.assets = {.guard i} + ({.sender w c} + A)) : stock { b with
    pool := (b.pool.complete w (.ok i)).2
    assets := match (b.pool.complete w (.ok i)).1 with
      | some (.ok j) => {.guard j} + A
      | _ => A } = b.stock := by
  obtain ⟨x, found, silent⟩ := standings.silent_of_sender (w := w) (c := c)
    (S := A.filterMap (Asset.course? w)) (by simp [ties, held])
  refine stock_of_parcels (b.pool.complete_sameStock w (.ok i)) (S := holdings A)
    (Pool.parcels_complete found silent i) (by simp [held]) ?_
  obtain _ | _ | j := (b.pool.complete w (.ok i)).1 <;> simp

theorem stock_sendError (held : b.assets = {.sender w c} + A) (e : PoolError) : stock { b with
    pool := (b.pool.complete w (.error e)).2, assets := A } = b.stock := by
  obtain ⟨x, found, silent⟩ := standings.silent_of_sender (w := w) (c := c)
    (S := A.filterMap (Asset.course? w)) (by simp [ties, held])
  have same := b.pool.complete_sameStock w (.error e)
  simp [stock, held, same.holdings (Pool.parcels_completeError found silent e)]

theorem stock_abandon (held : b.assets = {.sender w c} + A) :
    stock { b with pool := b.pool.abandon w, assets := A } = b.stock := by
  obtain ⟨x, found, silent⟩ := standings.silent_of_sender (w := w) (c := c)
    (S := A.filterMap (Asset.course? w)) (by simp [ties, held])
  have parcels := Pool.parcels_abandon found silent
  have same := b.pool.modifyWaiter_sameStock w Waiter.abandon
  simp [stock, held, Pool.abandon, same.holdings parcels]

theorem stock_dismissAll : stock { b with pool := b.pool.dismissAll } = b.stock := by
  have parcels := Pool.parcels_foldl_dismiss standings rfl
  simp [stock, b.pool.dismissAll_sameStock.holdings parcels]

end
end Books
end ResourcePool
