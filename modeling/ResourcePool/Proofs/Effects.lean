import ResourcePool.Pool

/-!
The shared state has two parts: the stock, which is the slots with the queues of their numbers and
resources, and the line, which is the waiters with the order in which they stand. Each change to the
shared state concerns only one of them.
-/

namespace ResourcePool.Pool

/-- Only the line may be different. -/
structure SameStock (p q : Pool) : Prop where
  config : q.config = p.config
  slots : q.slots = p.slots
  created : q.created = p.created
  vacated : q.vacated = p.vacated
  returned : q.returned = p.returned
  triggers : q.triggers = p.triggers
  closed : q.closed = p.closed

/-- Only the stock may be different. -/
structure SameLine (p q : Pool) : Prop where
  config : q.config = p.config
  waiters : q.waiters = p.waiters
  registry : q.registry = p.registry
  triggers : q.triggers = p.triggers
  cursor : q.cursor = p.cursor
  closed : q.closed = p.closed

theorem SameStock.refl (p : Pool) : p.SameStock p :=
  ⟨rfl, rfl, rfl, rfl, rfl, rfl, rfl⟩

theorem SameStock.trans {p q r : Pool} (first : p.SameStock q) (second : q.SameStock r) :
    p.SameStock r :=
  ⟨second.config.trans first.config, second.slots.trans first.slots,
    second.created.trans first.created, second.vacated.trans first.vacated,
    second.returned.trans first.returned, second.triggers.trans first.triggers,
    second.closed.trans first.closed⟩

theorem enroll_sameStock (p : Pool) : p.SameStock p.enroll :=
  ⟨rfl, rfl, rfl, rfl, rfl, rfl, rfl⟩

theorem turnAway_sameStock (p : Pool) : p.SameStock p.turnAway :=
  ⟨rfl, rfl, rfl, rfl, rfl, rfl, rfl⟩

theorem modifyWaiter_sameStock (p : Pool) (id : Nat) (f : Waiter Outcome → Waiter Outcome) :
    p.SameStock (p.modifyWaiter id f) :=
  ⟨rfl, rfl, rfl, rfl, rfl, rfl, rfl⟩

theorem unregister_sameStock (p : Pool) (id : Nat) : p.SameStock (p.unregister id) :=
  ⟨rfl, rfl, rfl, rfl, rfl, rfl, rfl⟩

theorem modifyWaiter_eq {p : Pool} {id : Nat} {x : Waiter Outcome}
    (found : p.waiters[id]? = some x) (f : Waiter Outcome → Waiter Outcome) :
    p.modifyWaiter id f = p.modifyWaiter id fun _ => f x := by
  have same : p.waiters.modify id f = p.waiters.modify id fun _ => f x := by
    refine List.ext_getElem? fun v => ?_
    simp only [List.getElem?_modify]
    by_cases here : id = v
    · subst here
      simp [found]
    · simp [here]
  rw [modifyWaiter, same]
  rfl

theorem claim?_eq_some {p q : Pool} {id : Nat} (claimed : p.claim? id = some q) :
    ∃ x, p.waiters[id]? = some x ∧ x.state = .pending ∧
      q = p.modifyWaiter id fun _ => { x with state := .fulfilled } := by
  unfold claim? waiter? at claimed
  cases found : p.waiters[id]? with
  | none => simp [found] at claimed
  | some x =>
      cases won : x.claim? with
      | none => simp [found, won] at claimed
      | some y =>
          obtain ⟨pending, rfl⟩ := Waiter.claim?_eq_some_iff.1 won
          simp only [found, Option.bind_some, won, Option.some.injEq] at claimed
          exact ⟨x, rfl, pending, claimed.symm⟩

theorem claim?_of_pending {p : Pool} {id : Nat} {x : Waiter Outcome}
    (found : p.waiters[id]? = some x) (pending : x.state = .pending) :
    p.claim? id = some (p.modifyWaiter id fun _ => { x with state := .fulfilled }) := by
  simp [claim?, waiter?, found, Waiter.claim?, pending]

theorem cancel?_eq_some {p q : Pool} {id : Nat} (cancelled : p.cancel? id = some q) :
    ∃ x, p.waiters[id]? = some x ∧ x.state = .pending ∧
      q = (p.modifyWaiter id fun _ => { x with state := .cancelled, line := .over }).unregister
        id := by
  unfold cancel? waiter? at cancelled
  cases found : p.waiters[id]? with
  | none => simp [found] at cancelled
  | some x =>
      cases won : x.cancel? with
      | none => simp [found, won] at cancelled
      | some y =>
          obtain ⟨pending, rfl⟩ := Waiter.cancel?_eq_some_iff.1 won
          simp only [found, Option.bind_some, won, Option.some.injEq] at cancelled
          exact ⟨x, rfl, pending, cancelled.symm⟩

theorem cancel?_of_pending {p : Pool} {id : Nat} {x : Waiter Outcome}
    (found : p.waiters[id]? = some x) (pending : x.state = .pending) :
    (p.cancel? id).isSome = true := by
  simp [cancel?, waiter?, found, Waiter.cancel?, pending]

theorem cancel?_sameStock {p q : Pool} {id : Nat} (cancelled : p.cancel? id = some q) :
    p.SameStock q := by
  obtain ⟨x, _, _, rfl⟩ := cancel?_eq_some cancelled
  exact (p.modifyWaiter_sameStock id _).trans (unregister_sameStock _ id)

theorem complete_sameStock (p : Pool) (id : Nat) (o : Outcome) :
    p.SameStock (p.complete id o).2 := by
  unfold complete
  split
  · exact p.modifyWaiter_sameStock id _
  · exact .refl p

theorem hangUp_sameStock (p : Pool) (id : Nat) : p.SameStock (p.hangUp id).2 := by
  unfold hangUp
  split
  · exact p.modifyWaiter_sameStock id _
  · exact .refl p

theorem receive_sameStock (p : Pool) (id : Nat) : p.SameStock (p.receive id).2 := by
  unfold receive
  split
  · exact p.modifyWaiter_sameStock id _
  · exact .refl p

@[simp] theorem receive_registry (p : Pool) (id : Nat) :
    (p.receive id).2.registry = p.registry := by
  unfold receive
  split <;> rfl

@[simp] theorem receive_cursor (p : Pool) (id : Nat) : (p.receive id).2.cursor = p.cursor := by
  unfold receive
  split <;> rfl

theorem sameStock_of_received {p q : Pool} {id : Nat} {o : Outcome}
    (found : p.receive id = (.value o, q) ∨ p.receive id = (.closed, q) ∧ o = .error .cancelled) :
    p.SameStock q ∧ q.registry = p.registry := by
  have same : q = (p.receive id).2 := by
    obtain found | ⟨found, _⟩ := found <;> rw [found]
  rw [same]
  exact ⟨p.receive_sameStock id, p.receive_registry id⟩

theorem pick_eq_some {p q : Pool} {view : List Nat} {id : Nat}
    (chosen : p.pick view = (some id, q)) :
    ∃ x, p.waiters[id]? = some x ∧ x.state = .pending ∧
      q = (({ p with cursor := p.cursor % view.length + 1 } : Pool).modifyWaiter id
        fun _ => { x with state := .fulfilled }).unregister id := by
  unfold pick at chosen
  simp only at chosen
  split at chosen
  · simp at chosen
  · split at chosen
    · next claimed =>
        simp only [Prod.mk.injEq, Option.some.injEq] at chosen
        obtain ⟨rfl, rfl⟩ := chosen
        obtain ⟨x, found, pending, rfl⟩ := claim?_eq_some claimed
        exact ⟨x, found, pending, rfl⟩
    · simp at chosen

theorem pick_eq_none {p q : Pool} {view : List Nat} (missed : p.pick view = (none, q)) :
    q = { p with cursor := p.cursor % view.length + 1 } ∨ ∃ id,
      (∀ x, p.waiters[id]? = some x → x.state ≠ .pending) ∧
        q = ({ p with cursor := p.cursor % view.length + 1 } : Pool).unregister id := by
  unfold pick at missed
  simp only at missed
  split at missed
  · simp only [Prod.mk.injEq, true_and] at missed
    exact .inl missed.symm
  · next id _ =>
      split at missed
      · simp at missed
      · next unclaimed =>
          simp only [Prod.mk.injEq, true_and] at missed
          refine .inr ⟨id, fun x found pending => ?_, missed.symm⟩
          have claimed := claim?_of_pending
            (p := { p with cursor := p.cursor % view.length + 1 }) found pending
          simp [claimed] at unclaimed

theorem pick_sameStock {p q : Pool} {view : List Nat} {chosen : Option Nat}
    (picked : p.pick view = (chosen, q)) : p.SameStock q := by
  cases chosen with
  | none =>
      obtain rfl | ⟨id, _, rfl⟩ := pick_eq_none picked <;>
        exact ⟨rfl, rfl, rfl, rfl, rfl, rfl, rfl⟩
  | some id =>
      obtain ⟨x, _, _, rfl⟩ := pick_eq_some picked
      exact ⟨rfl, rfl, rfl, rfl, rfl, rfl, rfl⟩

theorem dismiss_sameStock (p : Pool) (id : Nat) : p.SameStock (p.dismiss id) := by
  unfold dismiss
  split
  · next q claimed =>
      obtain ⟨x, _, _, rfl⟩ := claim?_eq_some claimed
      exact ((p.modifyWaiter_sameStock id _).trans (complete_sameStock _ id _)).trans
        (unregister_sameStock _ id)
  · exact unregister_sameStock p id

theorem foldl_dismiss_sameStock (p : Pool) (ids : List Nat) :
    p.SameStock (ids.foldl dismiss p) := by
  induction ids generalizing p with
  | nil => exact .refl p
  | cons id ids ih => exact (p.dismiss_sameStock id).trans (ih (p.dismiss id))

theorem dismissAll_sameStock (p : Pool) : p.SameStock p.dismissAll :=
  p.foldl_dismiss_sameStock p.registry.entries

@[simp] theorem complete_registry (p : Pool) (id : Nat) (o : Outcome) :
    (p.complete id o).2.registry = p.registry := by
  unfold complete
  split <;> rfl

@[simp] theorem hangUp_registry (p : Pool) (id : Nat) :
    (p.hangUp id).2.registry = p.registry := by
  unfold hangUp
  split <;> rfl

@[simp] theorem complete_cursor (p : Pool) (id : Nat) (o : Outcome) :
    (p.complete id o).2.cursor = p.cursor := by
  unfold complete
  split <;> rfl

@[simp] theorem hangUp_cursor (p : Pool) (id : Nat) : (p.hangUp id).2.cursor = p.cursor := by
  unfold hangUp
  split <;> rfl

@[simp] theorem dismiss_registry (p : Pool) (id : Nat) :
    (p.dismiss id).registry = p.registry.unregister id := by
  unfold dismiss
  split
  · next claimed =>
      obtain ⟨x, _, _, rfl⟩ := claim?_eq_some claimed
      simp only [unregister, complete_registry]
      rfl
  · rfl

theorem foldl_dismiss_entries {p : Pool} {ids : List Nat} (line : p.registry.entries = ids) :
    (ids.foldl dismiss p).registry.entries = [] := by
  induction ids generalizing p with
  | nil => exact line
  | cons id ids ih => exact ih (by simp [line])

@[simp] theorem dismiss_cursor (p : Pool) (id : Nat) : (p.dismiss id).cursor = p.cursor := by
  unfold dismiss
  split
  · next claimed =>
      obtain ⟨x, _, _, rfl⟩ := claim?_eq_some claimed
      exact complete_cursor ..
  · rfl

theorem foldl_dismiss_cursor (p : Pool) (ids : List Nat) :
    (ids.foldl dismiss p).cursor = p.cursor := by
  induction ids generalizing p with
  | nil => rfl
  | cons id ids ih => exact (ih (p.dismiss id)).trans (p.dismiss_cursor id)

@[simp] theorem dismissAll_cursor (p : Pool) : p.dismissAll.cursor = p.cursor :=
  p.foldl_dismiss_cursor p.registry.entries

@[simp] theorem dismissAll_entries (p : Pool) : p.dismissAll.registry.entries = [] :=
  foldl_dismiss_entries rfl

theorem mem_of_mem_pick {p q : Pool} {view : List Nat} {chosen : Option Nat} {w : Nat}
    (picked : p.pick view = (chosen, q)) (inside : w ∈ q.registry.entries) :
    w ∈ p.registry.entries := by
  cases chosen with
  | none =>
      obtain rfl | ⟨id, _, rfl⟩ := pick_eq_none picked
      · exact inside
      · exact List.mem_of_mem_erase inside
  | some id =>
      obtain ⟨x, _, _, rfl⟩ := pick_eq_some picked
      exact List.mem_of_mem_erase inside

theorem modifySlot_sameLine (p : Pool) (i : Nat) (f : Slot → Slot) :
    p.SameLine (p.modifySlot i f) :=
  ⟨rfl, rfl, rfl, rfl, rfl, rfl⟩

theorem lend?_eq_some {p q : Pool} {i : Nat} (lent : p.lend? i = some q) :
    (p.slot i).state = .idle ∧ q = p.modifySlot i fun _ =>
      { p.slot i with state := .checkedOut, checkouts := (p.slot i).checkouts + 1 } := by
  unfold lend? at lent
  obtain ⟨s, changed, rfl⟩ := Option.map_eq_some_iff.1 lent
  obtain ⟨idle, rfl⟩ := Slot.checkout?_eq_some_iff.1 changed
  exact ⟨idle, rfl⟩

theorem takeBack?_eq_some {p q : Pool} {i : Nat} (taken : p.takeBack? i = some q) :
    (p.slot i).state = .checkedOut ∧
      q = p.modifySlot i fun _ => { p.slot i with state := .idle } := by
  unfold takeBack? at taken
  obtain ⟨s, changed, rfl⟩ := Option.map_eq_some_iff.1 taken
  obtain ⟨lent, rfl⟩ := Slot.checkin?_eq_some_iff.1 changed
  exact ⟨lent, rfl⟩

theorem reserve?_eq_some {p q : Pool} {r : Reservation} (reserved : p.reserve? = some (r, q)) :
    (∃ slot rest, p.vacated = slot :: rest ∧ r = .vacated slot ∧
        q = { p with vacated := rest }) ∨
      p.vacated = [] ∧ p.created < p.slots.length ∧ r = .fresh p.created ∧ q = p := by
  unfold reserve? at reserved
  split at reserved
  · next slot rest queue =>
      simp only [Option.some.injEq, Prod.mk.injEq] at reserved
      obtain ⟨rfl, rfl⟩ := reserved
      exact .inl ⟨slot, rest, queue, rfl, rfl⟩
  · next empty =>
      split at reserved
      · next room =>
          simp only [Option.some.injEq, Prod.mk.injEq] at reserved
          obtain ⟨rfl, rfl⟩ := reserved
          exact .inr ⟨empty, room, rfl, rfl⟩
      · simp at reserved

theorem popReturned?_eq_some {p q : Pool} {i : Item} (popped : p.popReturned? = some (i, q)) :
    ∃ rest, p.returned = i :: rest ∧ q = { p with returned := rest } := by
  unfold popReturned? at popped
  split at popped
  · next j rest queue =>
      simp only [Option.some.injEq, Prod.mk.injEq] at popped
      obtain ⟨rfl, rfl⟩ := popped
      exact ⟨rest, queue, rfl⟩
  · simp at popped

theorem occupy_sameLine (p : Pool) (r : Reservation) : p.SameLine (p.occupy r) := by
  cases r <;> exact ⟨rfl, rfl, rfl, rfl, rfl, rfl⟩

theorem unreserve_sameLine (p : Pool) (r : Reservation) : p.SameLine (p.unreserve r) := by
  cases r <;> exact ⟨rfl, rfl, rfl, rfl, rfl, rfl⟩

theorem lend?_sameLine {p q : Pool} {i : Nat} (lent : p.lend? i = some q) : p.SameLine q := by
  obtain ⟨_, rfl⟩ := lend?_eq_some lent
  exact p.modifySlot_sameLine i _

theorem takeBack?_sameLine {p q : Pool} {i : Nat} (taken : p.takeBack? i = some q) :
    p.SameLine q := by
  obtain ⟨_, rfl⟩ := takeBack?_eq_some taken
  exact p.modifySlot_sameLine i _

theorem reserve?_sameLine {p q : Pool} {r : Reservation} (reserved : p.reserve? = some (r, q)) :
    p.SameLine q := by
  obtain ⟨_, _, _, _, rfl⟩ | ⟨_, _, _, rfl⟩ := reserve?_eq_some reserved <;>
    exact ⟨rfl, rfl, rfl, rfl, rfl, rfl⟩

theorem popReturned?_sameLine {p q : Pool} {i : Item} (popped : p.popReturned? = some (i, q)) :
    p.SameLine q := by
  obtain ⟨_, _, rfl⟩ := popReturned?_eq_some popped
  exact ⟨rfl, rfl, rfl, rfl, rfl, rfl⟩

end ResourcePool.Pool
