import ResourcePool.Proofs.Closing
import ResourcePool.Proofs.Enrolment
import ResourcePool.Proofs.Pending

/-!
A waiter whose listener left. Nobody listens for it again, whatever is asked for later: it is in no
line, no outcome waits for it, and no poll shows one.
-/

namespace ResourcePool

attribute [-simp] Multiset.singleton_add

/-- Nobody listens for a waiter, and this is all that polls showed of its request. -/
structure Books.Unheard (b : Books) (w : Nat) (seen : List Outcome) : Prop where
  known : w < b.pool.nextWaiter
  listeners : (b.ties w).listeners = 0
  sights : (b.ties w).sights = seen

theorem Move.nextWaiter_le {gone : Prop} {b c : Books} (move : Move gone b c) :
    b.pool.nextWaiter ≤ c.pool.nextWaiter := by
  cases move with
  | enroll | turnAway => exact (List.length_append ..).ge.trans' (Nat.le_add_right ..)
  | withdraw _ _ pending => exact (Pool.cancel?_nextWaiter pending).ge
  | hangUp => exact (Pool.hangUp_nextWaiter ..).ge
  | @see a o p A _ found =>
      have same := b.pool.receive_nextWaiter a.waiter
      obtain found | ⟨found, _⟩ := found <;> exact (found ▸ same).ge
  | send | sendError => exact (Pool.complete_nextWaiter ..).ge
  | abandon => exact (Pool.modifyWaiter_nextWaiter ..).ge
  | @choose view w p picked | @miss view p picked =>
      have same := b.pool.pick_nextWaiter view
      exact (picked ▸ same).ge
  | reserve _ reserved => exact (Pool.reserve?_sameLine reserved).nextWaiter.ge
  | unreserve => exact (b.pool.unreserve_sameLine _).nextWaiter.ge
  | create => exact (b.pool.occupy_sameLine _).nextWaiter.ge
  | lend _ lent => exact (Pool.lend?_sameLine lent).nextWaiter.ge
  | takeBack _ taken => exact (Pool.takeBack?_sameLine taken).nextWaiter.ge
  | pop popped => exact (Pool.popReturned?_sameLine popped).nextWaiter.ge
  | dismissAll => exact (Pool.foldl_dismiss_nextWaiter ..).ge
  | _ => exact le_rfl

theorem Move.unheard {gone : Prop} {b c : Books} {w : Nat} {seen : List Outcome}
    (move : Move gone b c) (before : b.Unheard w seen) : c.Unheard w seen := by
  obtain ⟨known, listeners, sights⟩ := before
  simp only [Books.ties] at listeners sights
  refine ⟨known.trans_le move.nextWaiter_le, ?_, ?_⟩
  · simp only [Books.ties]
    cases move with
    | enroll | turnAway => simpa [known.ne'] using listeners
    | @withdraw a _ _ held | @forgo a _ held =>
        by_cases same : a.waiter = w
        · simp [held, same] at listeners
        · simp_all
    | @hangUp v _ held =>
        by_cases same : v = w
        · simp [held, same] at listeners
        · simp_all
          split <;> simp_all
    | @see a _ _ _ held =>
        by_cases same : a.waiter = w
        · simp [held, same] at listeners
        · simp_all
          split <;> simp_all
    | trigger held | again held | send held =>
        simp_all
        split <;> simp_all
    | choose | miss | dismissAll | pop | close | callTrigger | takeDuty | tearDown =>
        simpa using listeners
    | foretell held | sendError held | abandon held | rest held | reserve held | unreserve held
    | create held | lend held | lendMisfit held | takeBack held | takeBackMisfit held | queue held
    | spend held | vacate held | detach held | shut held | oust held | leaveDuty held
    | finishTearDown held | execute held => simpa [held] using listeners
  · simp only [Books.ties]
    cases move with
    | @see a _ _ _ held =>
        by_cases same : a.waiter = w
        · simp [held, same] at listeners
        · simpa [same] using sights
    | dismissAll =>
        exact (Standings.filterMap_dismissals (Deed.sight? w) (fun _ => rfl) _ _).trans sights
    | _ => exact sights

namespace Run

open Machine

variable {σ : Type} {e : Environment σ} {past : List (Machine σ)} {m n : Machine σ}

/-- Nobody listens for a waiter again, and no poll shows how its request ended. -/
theorem unheard {later earlier : List (Machine σ)} {w : Nat} {seen : List Outcome}
    (run : Run e past m) (parts : past = later ++ n :: earlier)
    (before : ((n.step e).books 0 (history e (n :: earlier))).Unheard w seen) :
    (m.books 0 (history e past)).Unheard w seen := by
  induction run generalizing later with
  | start => simp at parts
  | ask op run idle ih | threads run idle _ ih =>
      rw [books_push, held_cons, held_nil]
      exact ih parts
  | @step past m run ih =>
      cases later with
      | nil =>
          obtain ⟨rfl, rfl⟩ := List.cons.inj parts
          exact before
      | cons v later =>
          obtain ⟨rfl, rfl⟩ := List.cons.inj parts
          exact run.keepsNext (fun move => move.unheard) (ih rfl)

end Run

namespace Machine

variable {σ : Type} {m : Machine σ} {w : Nat} {h : History}

/-- Nobody keeps the request, or is about to give it up. -/
theorem request_ne_of_unheard {seen : List Outcome} (unheard : (m.books 0 h).Unheard w seen)
    {a : Acquire} (member : a ∈ m.allRequests) : a.waiter ≠ w := by
  intro same
  have none := unheard.listeners
  simp only [Books.ties, books, zero_add, ← coe_attachments, Multiset.coe_eq_zero,
    List.map_eq_nil_iff, List.filter_eq_nil_iff] at none
  exact none a member (by simpa using same)

end Machine

/-- A waiter for whom nobody listens is not in line, and no outcome waits for it. -/
theorem Standing.of_unheard {x : Waiter Outcome} {t : Ties} (standing : Standing x t)
    (none : t.listeners = 0) : x.state ≠ .pending ∧ (∀ o, x.line ≠ .sent o) ∧
      (t.senders ≠ 0 → x.line = .silent ∧ x.listening = false) := by
  cases standing with
  | pending | answered | forsaken => simp at none
  | claimed state line _ heard =>
      refine ⟨state, by simp [line], fun _ => ⟨line, ?_⟩⟩
      obtain ⟨⟨b, one⟩, _⟩ | ⟨_, deaf⟩ := heard
      · simp [one] at none
      · exact deaf
  | finished state line => exact ⟨state, by simp [line], by simp⟩

end ResourcePool
