import ResourcePool.Proofs.Closing

/-!
Choices from the line. A matching chooses from its view of the line, which may be older than the
line is by then. Whoever is chosen leaves the line, and the cursor moves behind the place of the
choice; no other step moves the cursor.
-/

namespace ResourcePool

namespace Pool

variable {p : Pool} {view : List Nat}

theorem SameLine.refl (p : Pool) : p.SameLine p :=
  ⟨rfl, rfl, rfl, rfl, rfl, rfl⟩

@[simp] theorem pick_cursor (p : Pool) (view : List Nat) :
    (p.pick view).2.cursor = p.cursor % view.length + 1 := by
  cases picked : p.pick view with
  | mk chosen q =>
      cases chosen with
      | none => obtain rfl | ⟨id, _, rfl⟩ := pick_eq_none picked <;> rfl
      | some id =>
          obtain ⟨x, _, _, rfl⟩ := pick_eq_some picked
          rfl

theorem pick_entries {v : Nat} (here : view[p.cursor % view.length]? = some v) :
    (p.pick view).2.registry.entries = p.registry.entries.erase v := by
  unfold pick
  simp only [here]
  split
  · next claimed =>
      obtain ⟨x, _, _, rfl⟩ := claim?_eq_some claimed
      rfl
  · rfl

theorem pick_of_pending {v : Nat} {x : Waiter Outcome}
    (here : view[p.cursor % view.length]? = some v) (found : p.waiters[v]? = some x)
    (pending : x.state = .pending) :
    p.pick view = (some v, (({ p with cursor := p.cursor % view.length + 1 } : Pool).modifyWaiter v
      fun _ => { x with state := .fulfilled }).unregister v) := by
  have claimed := claim?_of_pending
    (p := { p with cursor := p.cursor % view.length + 1 }) found pending
  simp only [pick, here, claimed]

@[simp] theorem modifyWaiter_nextWaiter (p : Pool) (id : Nat)
    (f : Waiter Outcome → Waiter Outcome) : (p.modifyWaiter id f).nextWaiter = p.nextWaiter :=
  List.length_modify ..

@[simp] theorem hangUp_nextWaiter (p : Pool) (id : Nat) :
    (p.hangUp id).2.nextWaiter = p.nextWaiter := by
  unfold hangUp
  split <;> simp

@[simp] theorem receive_nextWaiter (p : Pool) (id : Nat) :
    (p.receive id).2.nextWaiter = p.nextWaiter := by
  unfold receive
  split <;> simp

@[simp] theorem complete_nextWaiter (p : Pool) (id : Nat) (o : Outcome) :
    (p.complete id o).2.nextWaiter = p.nextWaiter := by
  unfold complete
  split <;> simp

theorem dismiss_nextWaiter (p : Pool) (id : Nat) : (p.dismiss id).nextWaiter = p.nextWaiter := by
  unfold dismiss
  split
  · next claimed =>
      obtain ⟨x, _, _, rfl⟩ := claim?_eq_some claimed
      exact (complete_nextWaiter ..).trans (modifyWaiter_nextWaiter ..)
  · rfl

theorem foldl_dismiss_nextWaiter (p : Pool) (ids : List Nat) :
    (ids.foldl dismiss p).nextWaiter = p.nextWaiter := by
  induction ids generalizing p with
  | nil => rfl
  | cons id ids ih => exact (ih (p.dismiss id)).trans (p.dismiss_nextWaiter id)

theorem exists_place (p : Pool) (filled : view ≠ []) :
    ∃ v, view[p.cursor % view.length]? = some v :=
  ⟨_, List.getElem?_eq_getElem (Nat.mod_lt _ (List.length_pos_iff.2 filled))⟩

end Pool

/-- What becomes of the shared state: somebody is chosen from a view of the line, and the rest of
the line stays as it was, or the cursor does not move. -/
def Pool.Advances (p : Pool) : Option (List Nat) → Pool → Prop
  | some view, q => ∃ r, p.SameLine r ∧ (r.pick view).2.SameLine q
  | none, q => q.cursor = p.cursor

/-- The view of the line that a call keeps for the matching that waits for the answer. -/
@[simp] def Call.view? : Call → Option (List Nat)
  | .validate _ (.checkout _ view) | .close _ (.invalid (.checkout _ view)) => some view
  | _ => none

@[simp] def Activity.view? : Activity → Option (List Nat)
  | search _ view => some view
  | call c | answer c => c.view?
  | _ => none

theorem Activity.view?_of_isBare {a : Activity} (bare : a.isBare = true) : a.view? = none := by
  cases a <;> simp_all

theorem Activity.not_calm_of_view? {a : Activity} {view : List Nat} (keeps : a.view? = some view) :
    a.isCalm = false := by
  have keepsView : a.keepsView = true := by
    cases a with
    | search => rfl
    | call c | answer c =>
        obtain _ | ⟨i, _ | _⟩ | ⟨i, (_ | _) | _ | _ | _ | _⟩ | t := c <;> simp_all
    | _ => simp at keeps
  rw [isCalm, keepsView]
  rfl

namespace Machine

variable {σ : Type} {e : Environment σ} {m : Machine σ}

/-- The view, if there is something to hand out that need not be looked at first. -/
def offers (m : Machine σ) (view : List Nat) : Option (List Nat) :=
  match m.pool.popReturned? with
  | some _ => if m.pool.config.testOnCheckout then none else some view
  | none => if m.pool.reserve?.isSome then some view else none

/-- The view of the line from which the activity chooses somebody, if it does. -/
def choiceOf (e : Environment σ) (m : Machine σ) : Activity → Option (List Nat)
  | .round _ inHand =>
      if m.pool.closed then none
      else
        match m.pool.registry.entries, inHand with
        | [], _ => none
        | view, some _ => some view
        | view, none => m.offers view
  | .search _ view => m.offers view
  | .answer (.validate i (.checkout _ view)) =>
      if (e.validate i.resource m.env).1 then some view else none
  | _ => none

/-- The view of the line from which the next step chooses somebody, if it does. -/
def choice? (e : Environment σ) (m : Machine σ) : Option (List Nat) :=
  match m.stack with
  | [] => none
  | a :: _ => m.choiceOf e a

theorem lend_sameLine (m : Machine σ) (w : Nat) (i : Item) : m.pool.SameLine (m.lend w i).pool := by
  unfold lend
  cases lent : m.pool.lend? i.slot with
  | none => exact .refl m.pool
  | some p => exact Pool.lend?_sameLine lent

theorem handOut_sameLine (m : Machine σ) (n : Nat) (view : List Nat) (i : Item) :
    (m.pool.pick view).2.SameLine (m.handOut n view i).pool := by
  unfold handOut
  split
  · next w p picked =>
      rw [picked]
      exact ((m.withPool p).push [.round n none]).lend_sameLine w i
  · next p picked =>
      rw [picked]
      exact .refl p

theorem fill_sameLine (m : Machine σ) (n : Nat) (view : List Nat) (r : Reservation) :
    (m.pool.pick view).2.SameLine (m.fill n view r).pool := by
  unfold fill
  split
  · next w p picked =>
      rw [picked]
      exact .refl p
  · next p picked =>
      rw [picked]
      exact p.unreserve_sameLine r

theorem seek_advances (m : Machine σ) (n : Nat) (view : List Nat) :
    m.pool.Advances (m.offers view) (m.seek n view).pool := by
  unfold seek offers
  cases popped : m.pool.popReturned? with
  | some found =>
      obtain ⟨i, p⟩ := found
      have same := Pool.popReturned?_sameLine popped
      dsimp only
      rw [← same.config]
      cases p.config.testOnCheckout with
      | true => exact same.cursor
      | false => exact ⟨p, same, (m.withPool p).handOut_sameLine n view i⟩
  | none =>
      cases reserved : m.pool.reserve? with
      | none => exact rfl
      | some found =>
          obtain ⟨r, p⟩ := found
          exact ⟨p, Pool.reserve?_sameLine reserved, (m.withPool p).fill_sameLine n view r⟩

theorem round_advances (m : Machine σ) (n : Nat) (inHand : Option Item) :
    m.pool.Advances (m.choiceOf e (.round n inHand)) (m.round n inHand).pool := by
  unfold round choiceOf
  cases m.pool.closed with
  | true => cases inHand <;> exact rfl
  | false =>
      cases m.pool.registry.entries with
      | nil => cases inHand <;> exact rfl
      | cons w ws =>
          cases inHand with
          | none => exact m.seek_advances n (w :: ws)
          | some i => exact ⟨m.pool, .refl m.pool, m.handOut_sameLine n (w :: ws) i⟩

theorem validated_advances (m : Machine σ) (i : Item) (check : Check) :
    m.pool.Advances (m.choiceOf e (.answer (.validate i check))) (m.validated e i check).pool := by
  simp only [validated]
  cases check with
  | checkin => cases (e.validate i.resource m.env).1 <;> exact rfl
  | checkout n view =>
      simp only [choiceOf]
      cases (e.validate i.resource m.env).1 with
      | false => exact rfl
      | true =>
          exact ⟨m.pool, .refl m.pool, Machine.handOut_sameLine ({ m with
            env := (e.validate i.resource m.env).2 }.note (.valid true)) n view i⟩

theorem created_cursor (m : Machine σ) (n w : Nat) (r : Reservation) :
    (m.created e n w r).pool.cursor = m.pool.cursor := by
  unfold created
  split
  · exact (lend_sameLine _ w _).cursor.trans (m.pool.occupy_sameLine r).cursor
  · exact (Pool.complete_cursor ..).trans (m.pool.unreserve_sameLine r).cursor

theorem closed_cursor (m : Machine σ) (i : Item) (why : Closing) :
    (m.closed e i why).pool.cursor = m.pool.cursor := by
  cases why with
  | invalid check =>
      cases check <;> exact (noteFailure_untouched _ i.slot (e.close i.resource m.env).1).cursor
  | misfit => exact (noteFailure_untouched _ i.slot (e.close i.resource m.env).1).cursor
  | _ => exact (noteClosed_untouched _ i.slot (e.close i.resource m.env).1).cursor

theorem perform_cursor (m : Machine σ) (op : Op) :
    (m.perform e op).pool.cursor = m.pool.cursor := by
  by_cases closes : op = .close
  · subst closes
    simp only [perform, onPool]
    split
    · unfold close
      split <;> rfl
    · rfl
  by_cases joins : op = .join
  · subst joins
    simp only [perform, join]
    split <;> rfl
  obtain ⟨_, same, _⟩ := perform_quiet (m := m) (e := e) closes joins
  exact same.cursor

/-- Carrying out an activity moves the cursor only by a choice. -/
theorem exec_advances (m : Machine σ) (a : Activity) :
    m.pool.Advances (m.choiceOf e a) (m.exec e a).pool := by
  cases a with
  | round n inHand => exact m.round_advances n inHand
  | search n view => exact m.seek_advances n view
  | perform op => exact m.perform_cursor op
  | answer c =>
      cases c with
      | create n w r =>
          simp only [exec, answered]
          split
          · exact rfl
          · exact m.created_cursor n w r
      | validate i check => exact m.validated_advances i check
      | close i why => exact m.closed_cursor i why
      | schedule t =>
          simp only [exec, answered, scheduled]
          split <;> exact rfl
  | release =>
      simp only [exec, release]
      split <;> exact rfl
  | teardown =>
      simp only [exec, teardown]
      split
      · next popped => exact (Pool.popReturned?_sameLine popped).cursor
      · exact rfl
  | acquire purpose =>
      simp only [exec, request]
      split <;> exact rfl
  | acquired a purpose =>
      cases purpose with
      | get k =>
          simp only [exec, requested, firstPoll]
          have same := (m.look_untouched a.waiter).cursor
          split <;> next seen => exact (congrArg (·.2.pool.cursor) seen).symm.trans same
      | _ => exact rfl
  | quit a => exact ((m.push [.hangUp a.waiter]).withdraw_untouched a).1.cursor
  | hangUp w =>
      simp only [exec, hangUp]
      split <;> next left =>
        exact (congrArg (·.2.cursor) left).symm.trans (m.pool.hangUp_cursor w)
  | giveBack i =>
      simp only [exec, giveBack]
      split
      · exact rfl
      · next taken =>
          have same := (Pool.takeBack?_sameLine taken).cursor
          split <;> exact same
  | trigger =>
      simp only [exec, trigger]
      split <;> exact rfl
  | again n =>
      simp only [exec, again]
      split <;> exact rfl
  | call c =>
      simp only [exec, call]
      split
      · split <;> exact rfl
      · exact rfl
  | task t =>
      simp only [exec, runTask]
      split <;> exact rfl
  | deliver t | refuse t =>
      simp only [exec, complete]
      split <;> next sent =>
        exact (congrArg (·.2.cursor) sent).symm.trans (m.pool.complete_cursor t.waiter _)
  | flush who failures =>
      simp only [exec, flush]
      split
      · next popped => exact (Pool.popReturned?_sameLine popped).cursor
      · cases who <;> exact m.pool.dismissAll_cursor
  | report failures =>
      simp only [exec, report]
      split <;> exact rfl
  | awaited k =>
      simp only [exec, awaited]
      split <;> exact rfl
  | collect k rest seen => exact (m.pollEach_quiet _ rest).choose_spec.1.cursor
  | runNext left labels => exact (m.runNext_quiet left labels).choose_spec.1.cursor
  | turn => exact m.turn_quiet.choose_spec.1.cursor
  | launched =>
      simp only [exec, launched]
      split <;> exact rfl
  | joined =>
      simp only [exec, joined]
      split <;> exact rfl
  | _ => exact rfl

theorem step_advances (m : Machine σ) : m.pool.Advances (m.choice? e) (m.step e).pool := by
  unfold choice? step
  cases m.stack with
  | nil => exact rfl
  | cons a rest => exact exec_advances { m with stack := rest } a

theorem view_of_offers {m : Machine σ} {view seen : List Nat} (offers : m.offers view = some seen) :
    seen = view := by
  unfold Machine.offers at offers
  split at offers <;> split at offers <;> simp_all

/-- Who chooses took its view of the line earlier, or looks at the line anew. -/
theorem view_of_choice {a : Activity} {view : List Nat} (choice : m.choiceOf e a = some view) :
    a.view? = some view ∨
      (∃ n inHand, a = .round n inHand) ∧ view = m.pool.registry.entries ∧ view ≠ [] := by
  unfold choiceOf at choice
  split at choice
  · split at choice
    · simp at choice
    · split at choice
      · simp at choice
      · next filled _ => exact .inr ⟨⟨_, _, rfl⟩, (Option.some.inj choice).symm, by simp_all⟩
      · next filled =>
          obtain rfl := view_of_offers choice
          exact .inr ⟨⟨_, _, rfl⟩, rfl, filled⟩
  · exact .inl (congrArg some (view_of_offers choice).symm)
  · split at choice
    · exact .inl choice
    · simp at choice
  · simp at choice

/-- What is left to be done keeps a view only if nobody was chosen. -/
theorem Sequel.view? {a b : Activity} {as : List Activity} {r : List Item} {c : Bool}
    {view : List Nat} (sequel : m.Sequel e a as r c) (member : b ∈ as)
    (keeps : b.view? = some view) : m.choiceOf e a = none ∧ (a.view? = some view ∨
      (∃ n inHand, a = .round n inHand) ∧ view = m.pool.registry.entries ∧ view ≠ []) := by
  cases sequel with
  | bare _ _ bare | store _ _ _ bare =>
      rw [Activity.view?_of_isBare (bare b member)] at keeps
      cases keeps
  | checkout looks queue tested =>
      obtain rfl := List.mem_singleton.1 member
      obtain rfl := Option.some.inj keeps
      have waits : ∀ seen, m.offers seen = none := by
        simp [offers, Pool.popReturned?, queue, tested]
      cases looks with
      | afresh opened line =>
          refine ⟨?_, .inr ⟨⟨_, _, rfl⟩, rfl, line⟩⟩
          simp only [choiceOf, opened]
          cases entries : m.pool.registry.entries <;> simp [waits]
      | again => exact ⟨waits _, .inl rfl⟩
  | @discard i check invalid =>
      obtain rfl := List.mem_singleton.1 member
      cases check with
      | checkout n seen => exact ⟨by simp [choiceOf, invalid], .inl keeps⟩
      | checkin => simp at keeps
  | search =>
      obtain rfl := List.mem_singleton.1 member
      exact ⟨rfl, .inl keeps⟩
  | @begin call ops =>
      obtain ⟨op, rfl⟩ | rfl | rfl := mem_begun member
      · simp at keeps
      · simp at keeps
      · exact ⟨rfl, .inl keeps⟩
  | @stop n inHand =>
      obtain ⟨i, rfl⟩ | rfl | rfl := mem_stopped member <;> simp at keeps
  | leave => cases member
  | lend | made | report | wreck | close =>
      simp only [List.mem_cons, List.not_mem_nil, or_false] at member
      obtain rfl | rfl := member <;> simp at keeps
  | _ =>
      obtain rfl := List.mem_singleton.1 member
      simp at keeps

/-- Nobody looks at the line anew in a closed pool. -/
theorem Sequel.view?_of_closed {a b : Activity} {as : List Activity} {r : List Item} {c : Bool}
    {view : List Nat} (sequel : m.Sequel e a as r c) (closed : m.pool.closed = true)
    (member : b ∈ as) (keeps : b.view? = some view) : a.view? = some view := by
  obtain ⟨_, kept | ⟨⟨n, inHand, rfl⟩, _⟩⟩ := sequel.view? member keeps
  · exact kept
  · -- A matching that begins a round reads the flag first, and stops.
    cases sequel with
    | bare _ _ bare | store _ _ _ bare =>
        rw [Activity.view?_of_isBare (bare b member)] at keeps
        cases keeps
    | lend finds | retain finds => exact absurd (finds.keepsView closed) (by simp)
    | checkout looks | fill looks => exact absurd (looks.keepsView closed) (by simp)
    | stop =>
        obtain ⟨i, rfl⟩ | rfl | rfl := mem_stopped member <;> simp at keeps

end Machine
end ResourcePool
