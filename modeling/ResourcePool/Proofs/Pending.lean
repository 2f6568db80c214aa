import ResourcePool.Proofs.Fairness
import ResourcePool.Proofs.Outcomes

/-!
The line is the list of pending waiters. Claiming or withdrawing a waiter and taking it out of the
line are separate changes, and a matching may hold a view that is older than the line; but in every
state in which the surroundings could look, nobody stands in line who is not pending, and nobody is
pending who does not stand in line.
-/

namespace ResourcePool

attribute [-simp] Multiset.singleton_add

namespace Pool

/-- The waiter was neither claimed nor withdrawn. -/
def isPending (p : Pool) (w : Nat) : Bool :=
  (p.waiter? w).any fun x => x.state = .pending

/-- The pending waiters, in the order in which they were registered. -/
def pending (p : Pool) : List Nat :=
  (List.range p.nextWaiter).filter p.isPending

variable {p : Pool} {w : Nat}

theorem isPending_iff :
    p.isPending w = true ↔ ∃ x, p.waiters[w]? = some x ∧ x.state = .pending := by
  simp [isPending, waiter?, Option.any_eq_true]

theorem mem_pending : w ∈ p.pending ↔ p.isPending w = true := by
  rw [pending, List.mem_filter, List.mem_range, and_iff_right_iff_imp, isPending_iff]
  rintro ⟨x, found, _⟩
  exact (List.getElem?_eq_some_iff.1 found).1

theorem ascending_pending (p : Pool) : p.pending.Pairwise (· < ·) :=
  List.pairwise_lt_range.filter _

theorem claim?_of_not_pending (settled : p.isPending w = false) : p.claim? w = none := by
  cases claimed : p.claim? w with
  | none => rfl
  | some q =>
      obtain ⟨x, found, pending, _⟩ := claim?_eq_some claimed
      rw [isPending_iff.2 ⟨x, found, pending⟩] at settled
      cases settled

/-- The number of a waiter is its place. -/
def Numbered (p : Pool) : Prop :=
  ∀ (w : Nat) (x : Waiter Outcome), p.waiters[w]? = some x → x.id = w

namespace Numbered

variable {q : Pool}

theorem modify {f : Waiter Outcome → Waiter Outcome} (before : p.Numbered)
    (same : ∀ x, p.waiters[w]? = some x → (f x).id = x.id) : (p.modifyWaiter w f).Numbered := by
  intro v y found
  simp only [modifyWaiter, List.getElem?_modify, Option.map_eq_map, Option.map_eq_some_iff] at found
  obtain ⟨x, found, rfl⟩ := found
  split
  · next here =>
      subst here
      exact (same x found).trans (before w x found)
  · exact before v x found

theorem settle {x y : Waiter Outcome} (before : p.Numbered)
    (found : p.waiters[w]? = some x) (same : y.id = x.id) :
    (p.modifyWaiter w fun _ => y).Numbered := by
  refine before.modify fun z here => ?_
  obtain rfl : x = z := Option.some.inj (found.symm.trans here)
  exact same

theorem append {y : Waiter Outcome} (before : p.Numbered)
    (waiters : q.waiters = p.waiters ++ [y]) (number : y.id = p.nextWaiter) : q.Numbered := by
  intro v x found
  rw [waiters, List.getElem?_append] at found
  split at found
  · exact before v x found
  · next beyond =>
      obtain ⟨last, rfl⟩ : v - p.waiters.length = 0 ∧ y = x := by
        simpa [List.getElem?_singleton] using found
      rw [number, nextWaiter]
      omega

theorem of_eq (before : p.Numbered) (same : q.waiters = p.waiters) : q.Numbered := by
  rwa [Numbered, same]

theorem complete (before : p.Numbered) (w : Nat) (o : Outcome) : (p.complete w o).2.Numbered := by
  unfold Pool.complete
  split
  · next x found =>
      refine before.settle found ?_
      unfold Waiter.complete
      split <;> rfl
  · exact before

theorem hangUp (before : p.Numbered) (w : Nat) : (p.hangUp w).2.Numbered := by
  unfold Pool.hangUp
  split
  · next x found =>
      refine before.settle found ?_
      unfold Waiter.hangUp
      split <;> rfl
  · exact before

theorem receive (before : p.Numbered) (w : Nat) : (p.receive w).2.Numbered := by
  unfold Pool.receive
  split
  · next x found =>
      refine before.settle found ?_
      unfold Waiter.receive
      split <;> rfl
  · exact before

theorem foldl_dismiss (before : p.Numbered) (ids : List Nat) : (ids.foldl dismiss p).Numbered := by
  induction ids generalizing p with
  | nil => exact before
  | cons id ids ih =>
      refine ih ?_
      unfold dismiss
      split
      · next claimed =>
          obtain ⟨x, found, _, rfl⟩ := claim?_eq_some claimed
          exact ((before.settle found (by rfl)).complete id _).of_eq rfl
      · exact before.of_eq rfl

theorem ids (numbered : p.Numbered) : p.waiters.map Waiter.id = List.range p.nextWaiter := by
  refine List.ext_getElem (by simp [nextWaiter]) fun w _ _ => ?_
  simpa using numbered w _ (List.getElem?_eq_getElem _)

end Numbered
end Pool

theorem Move.numbered {gone : Prop} {b c : Books} (move : Move gone b c)
    (before : b.pool.Numbered) : c.pool.Numbered := by
  cases move with
  | enroll | turnAway => exact before.append rfl rfl
  | withdraw _ _ pending =>
      obtain ⟨x, found, _, rfl⟩ := Pool.cancel?_eq_some pending
      exact (before.settle found (by rfl)).of_eq rfl
  | hangUp => exact before.hangUp _
  | @see a o p A _ found =>
      have same : p = (b.pool.receive a.waiter).2 := by
        obtain found | ⟨found, _⟩ := found <;> rw [found]
      exact same ▸ before.receive a.waiter
  | send | sendError => exact before.complete _ _
  | abandon => exact before.modify fun _ _ => rfl
  | choose picked =>
      obtain ⟨x, found, _, rfl⟩ := Pool.pick_eq_some picked
      exact (before.settle found (by rfl)).of_eq rfl
  | miss picked =>
      obtain rfl | ⟨id, _, rfl⟩ := Pool.pick_eq_none picked <;> exact before.of_eq rfl
  | reserve _ reserved => exact before.of_eq (Pool.reserve?_sameLine reserved).waiters
  | unreserve => exact before.of_eq (b.pool.unreserve_sameLine _).waiters
  | create => exact before.of_eq (b.pool.occupy_sameLine _).waiters
  | lend _ lent => exact before.of_eq (Pool.lend?_sameLine lent).waiters
  | takeBack _ taken => exact before.of_eq (Pool.takeBack?_sameLine taken).waiters
  | pop popped => exact before.of_eq (Pool.popReturned?_sameLine popped).waiters
  | dismissAll => exact before.foldl_dismiss _
  | _ => exact before.of_eq rfl

@[simp] def Asset.request? : Asset → Option Acquire
  | listener a => some a
  | _ => none

/-- The request that the activity makes or gives up. -/
def Activity.request? : Activity → Option Acquire
  | acquired a _ | quit a => some a
  | put _ x => x.request?
  | hangUp w => some ⟨w, false⟩
  | _ => none

theorem Handle.filterMap_request? (x : Handle) :
    x.assets.filterMap Asset.request? = x.request?.elim 0 singleton := by
  obtain a | (_ | ⟨a, deadline⟩) | i | r := x <;> simp [request?]

theorem Background.filterMap_request? (b : Background) :
    b.assets.filterMap Asset.request? = b.request?.elim 0 singleton := by
  cases b <;> simp [request?]

theorem Call.filterMap_request? (c : Call) :
    c.before.filterMap Asset.request? = 0 ∧ c.during.filterMap Asset.request? = 0 := by
  obtain _ | ⟨i, check⟩ | ⟨i, why⟩ | t := c
  · simp
  · cases check <;> simp
  · obtain check | _ | _ | _ | _ := why
    · cases check <;> simp
    all_goals simp
  · simp

theorem Activity.filterMap_request? (a : Activity) :
    a.assets.filterMap Asset.request? = a.request?.elim 0 singleton := by
  cases a with
  | acquire p | acquired _ p => cases p <;> simp [request?]
  | put k x => exact x.filterMap_request?
  | round n inHand => cases inHand <;> simp [request?]
  | call c => exact c.filterMap_request?.1
  | answer c => exact c.filterMap_request?.2
  | _ => simp [request?]

namespace Machine

variable {σ : Type} {e : Environment σ} {m : Machine σ} {w : Nat}

/-- All requests that somebody listens to, with those that are being made or given up. -/
def allRequests (m : Machine σ) : List Acquire :=
  m.activities.filterMap Activity.request? ++ m.requests

theorem coe_allRequests (m : Machine σ) :
    (m.allRequests : Multiset Acquire) = m.assets.filterMap Asset.request? := by
  have active (as : List Activity) : (held as).filterMap Asset.request? =
      (as.filterMap Activity.request? : List Acquire) :=
    filterMap_sum_map fun a _ => a.filterMap_request?
  have handles : m.handles.assets.filterMap Asset.request? =
      (m.handles.entries.filterMap fun e => e.2.request? : List Acquire) :=
    filterMap_sum_map fun e _ => e.2.filterMap_request?
  have tasks : (m.tasks.map Task.assets).sum.filterMap Asset.request? =
      (m.tasks.filterMap fun _ => none : List Acquire) :=
    filterMap_sum_map fun t _ => by simp
  have back : (m.background.request?.toList : Multiset Acquire) =
      m.background.assets.filterMap Asset.request? := by
    rw [m.background.filterMap_request?]
    cases m.background.request? <;> rfl
  rw [assets, Multiset.filterMap_add, Multiset.filterMap_add, Multiset.filterMap_add,
    Multiset.filterMap_add, active, active, handles, tasks, ← back]
  simp only [allRequests, requests, activities, List.filterMap_append, List.filterMap_none,
    Multiset.coe_nil, add_zero, ← Multiset.coe_add, add_assoc]

/-- The requests that belong to one waiter, by whether they may still be withdrawn. -/
theorem coe_attachments (m : Machine σ) (w : Nat) :
    (((m.allRequests.filter fun a => a.waiter = w).map Acquire.attached : List Bool) :
      Multiset Bool) = m.assets.filterMap (Asset.attachment? w) := by
  have same : (fun a => (Asset.request? a).bind fun b => if b.waiter = w then some b.attached else
      none) = Asset.attachment? w := by
    funext a
    cases a <;> rfl
  rw [← same, ← Multiset.filterMap_filterMap, ← coe_allRequests, Multiset.filterMap_coe,
    ← List.filterMap_eq_map, List.filterMap_filter]
  simp

end Machine

namespace Run

open Machine

variable {σ : Type} {e : Environment σ} {past : List (Machine σ)} {m n : Machine σ}

theorem numbered (run : Run e past m) : m.pool.Numbered := by
  refine run.byTurns (I := fun _ m => m.pool.Numbered) (fun fresh _ _ w x found => ?_)
    (fun _ _ _ before => before) (fun _ before => before)
    fun run _ _ before => run.keepsNext (I := fun b => b.pool.Numbered) Move.numbered before
  simp [fresh, Pool.ofConfig] at found

theorem line_eq_pending (run : Run e past m) : m.pool.registry.entries = m.pool.pending := by
  have standings := run.sound.standings
  have antisymm (a b : Nat) (less : a < b) (more : b < a) : a = b :=
    absurd less (Nat.not_lt.2 more.le)
  refine List.Perm.eq_of_pairwise (fun a b _ _ => antisymm a b) standings.ascending
    m.pool.ascending_pending ?_
  refine (List.perm_ext_iff_of_nodup (standings.ascending.imp Nat.ne_of_lt)
    (m.pool.ascending_pending.imp Nat.ne_of_lt)).2 fun w => ?_
  exact (standings.inLine w).trans (Pool.isPending_iff.symm.trans Pool.mem_pending.symm)

/-- Each pending waiter is waited for in one request. -/
theorem pendingRequests_perm (run : Run e past m) :
    ((m.allRequests.filter fun a => m.pool.isPending a.waiter).map Acquire.waiter).Perm
      m.pool.pending := by
  refine List.perm_iff_count.2 fun w => ?_
  have nodup : m.pool.pending.Nodup := m.pool.ascending_pending.imp Nat.ne_of_lt
  rw [nodup.count, List.count, List.countP_map, List.countP_filter]
  by_cases pending : m.pool.isPending w = true
  · obtain ⟨x, found, state⟩ := Pool.isPending_iff.1 pending
    have listening := congrArg Ties.listeners
      (Standings.pending_of_state (run.standing found) state).2.2
    have one := congrArg Multiset.card ((m.coe_attachments w).trans (by
      simpa [Books.ties, books] using listening))
    rw [if_pos (Pool.mem_pending.2 pending)]
    simp only [Multiset.coe_card, List.length_map, Multiset.card_singleton,
      ← List.countP_eq_length_filter] at one
    refine (List.countP_congr fun a _ => ?_).trans one
    by_cases same : a.waiter = w <;> simp [same, pending]
  · rw [if_neg (mt Pool.mem_pending.1 pending), List.countP_eq_zero]
    intro a _ both
    obtain ⟨rfl, here⟩ : a.waiter = w ∧ m.pool.isPending a.waiter = true := by simpa using both
    exact pending here

/-- A view that a matching keeps is the line as it once was. -/
theorem line_of_view (run : Run e past m) : ∀ a ∈ m.activities, ∀ view, a.view? = some view →
    ∃ n ∈ past, view = n.pool.registry.entries := by
  refine run.byActivities (P := fun past a _ => ∀ view, a.view? = some view →
    ∃ n ∈ past, view = n.pool.registry.entries) (fun bare view keeps => ?_)
    (fun before view keeps => ?_) (fun _ before view keeps => ?_)
    fun {past m a rest as b} _ _ sequel new _ before view keeps => ?_
  · rw [Activity.view?_of_isBare bare] at keeps
    cases keeps
  · obtain ⟨n, member, same⟩ := before view keeps
    exact ⟨n, List.mem_cons_of_mem _ member, same⟩
  · obtain ⟨n, member, same⟩ := before view keeps
    exact ⟨n, List.mem_cons_of_mem _ member, same⟩
  · obtain ⟨_, keeps | ⟨_, rfl, _⟩⟩ := sequel.view? new keeps
    · obtain ⟨n, member, same⟩ := before view keeps
      exact ⟨n, List.mem_cons_of_mem _ member, same⟩
    · exact ⟨m, List.mem_cons_self .., rfl⟩

theorem not_pending_of_missing (run : Run e past m) {w : Nat}
    (missing : w ∉ m.pool.registry.entries) : m.pool.isPending w = false := by
  rw [run.line_eq_pending, Pool.mem_pending] at missing
  exact Bool.eq_false_iff.2 missing

theorem nextWaiter_mono (run : Run e past m) (member : n ∈ past) :
    n.pool.nextWaiter ≤ m.pool.nextWaiter := by
  obtain ⟨later, earlier, parts⟩ := List.append_of_mem member
  exact run.keepsPool (P := fun p => n.pool.nextWaiter ≤ p.nextWaiter) parts
    (fun run before => before.trans run.joins_step.grows) le_rfl

/-- Whoever stood in line once and does so no more was claimed or withdrawn. -/
theorem settled_of_missing (run : Run e past m) (member : n ∈ past) {w : Nat}
    (stood : w ∈ n.pool.registry.entries) (missing : w ∉ m.pool.registry.entries) :
    ∃ x, m.pool.waiters[w]? = some x ∧ x.state ≠ .pending := by
  obtain ⟨later, earlier, parts⟩ := List.append_of_mem member
  obtain ⟨y, found, _⟩ := ((run.before_of_append parts).sound.standings.inLine w).1 stood
  have known : w < m.pool.nextWaiter :=
    (List.getElem?_eq_some_iff.1 found).1.trans_le (run.nextWaiter_mono member)
  refine ⟨_, List.getElem?_eq_getElem known, fun pending => ?_⟩
  exact missing ((run.sound.standings.inLine w).2 ⟨_, List.getElem?_eq_getElem known, pending⟩)

/-- The line holds exactly the pending waiters, each once and in the order of their numbers, and
each belongs to one pending request. Whoever is missing from it although an older view has it can
not be claimed any more. -/
theorem line_exact (run : Run e past m) :
    m.pool.registry.entries = m.pool.pending ∧
      m.pool.registry.entries.Pairwise (· < ·) ∧
      m.pool.waiters.map Waiter.id = List.range m.pool.nextWaiter ∧
      ((m.allRequests.filter fun a => m.pool.isPending a.waiter).map Acquire.waiter).Perm
        m.pool.registry.entries ∧
      m.pool.status.waiting = m.allRequests.countP (fun a => m.pool.isPending a.waiter) ∧
      (∀ a ∈ m.activities, ∀ view, a.view? = some view →
        ∃ n ∈ past, view = n.pool.registry.entries) ∧
      ∀ n ∈ past, ∀ w ∈ n.pool.registry.entries, w ∉ m.pool.registry.entries →
        (∃ x, m.pool.waiters[w]? = some x ∧ x.state ≠ .pending) ∧ m.pool.claim? w = none := by
  have requests := run.pendingRequests_perm
  rw [← run.line_eq_pending] at requests
  refine ⟨run.line_eq_pending, run.sound.standings.ascending, run.numbered.ids, requests, ?_,
    run.line_of_view, fun n member w stood missing => ⟨run.settled_of_missing member stood missing,
      Pool.claim?_of_not_pending (run.not_pending_of_missing missing)⟩⟩
  rw [List.countP_eq_length_filter, ← List.length_map Acquire.waiter, requests.length_eq]
  rfl

/-- While a resource is looked at for the first of two in line, the surroundings cancel that
request: the view still has it, the line does not. -/
theorem line_exact_stale : ∃ (past : List (Machine Bench.Rig)) (n m : Machine Bench.Rig),
    Run Bench.environment past m ∧ n ∈ past ∧ m.activities.findSome? Activity.view? = some [1, 2] ∧
      n.pool.registry.entries = [1, 2] ∧ m.pool.registry.entries = [2] ∧
      m.pool.status.waiting = m.allRequests.countP (fun a => m.pool.isPending a.waiter) ∧
      m.pool.claim? 1 = none := by
  have start := hooked (c := { maxSize := 1 }) rfl [⟨.validate, 0, [.cancel 1]⟩]
  have first := (start.ask (.acquire 0) rfl).steps 40
  have second := ((first.ask (.run none) rfl).steps 40).ask (.poll 0) rfl
  have third := ((second.steps 40).ask (.acquire 1) rfl).steps 40
  have asked := (third.ask (.acquire 2) rfl).steps 40
  have stale := (asked.ask (.drop 0) rfl).steps 6
  have holds := stale.line_exact
  refine ⟨_, _, _, stale, List.mem_of_getElem? (i := 5) rfl, rfl, rfl, rfl, holds.2.2.2.2.1, ?_⟩
  exact (holds.2.2.2.2.2.2 _ (List.mem_of_getElem? (i := 5) rfl) 1 (by decide) (by decide)).2

end Run
end ResourcePool
