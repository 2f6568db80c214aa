import Mathlib.Data.List.Dedup
import ResourcePool.Proofs.Enrolment
import ResourcePool.Proofs.Pending
import ResourcePool.Proofs.SlotHistories

/-!
Resources are made on demand. The factory is asked for one only when nothing idle is left, for the
first slot that can be filled, and on behalf of somebody who waited in line until then. Nobody is
asked for twice, so there are no more such calls than requests, and the slots are filled for the
first time in their order.
-/

namespace ResourcePool

attribute [-simp] Multiset.singleton_add

/-- The slots below the mark were filled for the first time in their order. -/
def Populated (b : Books) : Prop :=
  (b.history.creations.map Prod.snd).dedup = (List.range b.pool.created).reverse

theorem Move.populated {gone : Prop} {b c : Books} (move : Move gone b c) (sound : Sound b)
    (before : Populated b) : Populated c := by
  have filled (s : Nat) : s ∈ b.history.creations.map Prod.snd ↔ s < b.pool.created := by
    rw [← List.mem_dedup, before, List.mem_reverse, List.mem_range]
  obtain ⟨created, creations⟩ | ⟨n, r, A, held, pool, creations⟩ := move.keeps_or_creates
  · rw [Populated, created, creations]
    exact before
  · rw [Populated, creations, pool, List.map_cons]
    cases r with
    | fresh slot =>
        obtain ⟨rfl, _⟩ := sound.fresh n slot (by simp [held])
        have new : b.pool.created ∉ b.history.creations.map Prod.snd := by simp [filled]
        calc (b.pool.created :: b.history.creations.map Prod.snd).dedup
            = b.pool.created :: (List.range b.pool.created).reverse := by
              rw [List.dedup_cons_of_notMem new, before]
          _ = (List.range (b.pool.created + 1)).reverse := by simp [List.range_succ]
    | vacated slot =>
        -- A slot that became free was filled before.
        have reserved : Holding.free slot ∈ b.stock := by simp [Books.stock, held]
        have old := (filled slot).2 (sound.balanced.places.agree _ reserved).1
        exact (List.dedup_cons_of_mem old).trans before

namespace Pool

/-- Somebody in line is claimed and the first free slot reserved, while nothing idle is left. -/
structure Asks (p q : Pool) (w : Nat) (r : Reservation) : Prop where
  returned : q.returned = []
  waited : w ∈ p.registry.entries
  left : q.registry.entries = p.registry.entries.erase w
  claimed : ∃ x, p.waiters[w]? = some x ∧ x.state = .pending ∧
    q.waiters = p.waiters.modify w fun _ => { x with state := .fulfilled }
  slot : (∃ s rest, p.vacated = s :: rest ∧ r = .vacated s ∧ q.vacated = rest) ∨
    p.vacated = [] ∧ r = .fresh p.created ∧ p.created < p.config.maxSize ∧ q.vacated = []
  created : q.created = p.created

theorem Asks.of_pick {p p' q : Pool} {view : List Nat} {w : Nat} {r : Reservation}
    (returned : p.returned = []) (reserved : p.reserve? = some (r, p'))
    (picked : p'.pick view = (some w, q)) (size : p.slots.length = p.config.maxSize)
    (inLine : ∀ w x, p.waiters[w]? = some x → x.state = .pending → w ∈ p.registry.entries) :
    p.Asks q w r := by
  have line := reserve?_sameLine reserved
  have stock := pick_sameStock picked
  obtain ⟨x, found, pending, after⟩ := pick_eq_some picked
  have found : p.waiters[w]? = some x := line.waiters ▸ found
  have left : q.registry.entries = p.registry.entries.erase w := by
    rw [after, ← line.registry]
    rfl
  have claimed : q.waiters = p.waiters.modify w fun _ => { x with state := .fulfilled } := by
    rw [after, ← line.waiters]
    rfl
  obtain ⟨s, rest, queue, rfl, rfl⟩ | ⟨empty, room, rfl, rfl⟩ := reserve?_eq_some reserved
  · exact ⟨stock.returned.trans returned, inLine w x found pending, left,
      ⟨x, found, pending, claimed⟩, .inl ⟨s, rest, queue, rfl, stock.vacated⟩, stock.created⟩
  · exact ⟨stock.returned.trans returned, inLine w x found pending, left,
      ⟨x, found, pending, claimed⟩, .inr ⟨empty, rfl, size ▸ room, stock.vacated.trans empty⟩,
      stock.created⟩

end Pool

namespace Machine

variable {σ : Type} {e : Environment σ} {m : Machine σ}

/-- The waiter and the slot for which the factory is about to be asked for a resource. -/
def asks? (m : Machine σ) : Option (Nat × Reservation) :=
  match m.stack with
  | .call (.create _ w r) :: _ => some (w, r)
  | _ => none

theorem asks?_eq_some {w : Nat} {r : Reservation} (asks : m.asks? = some (w, r)) :
    ∃ n rest, m.stack = .call (.create n w r) :: rest := by
  unfold asks? at asks
  split at asks
  · obtain ⟨rfl, rfl⟩ := Prod.mk.inj (Option.some.inj asks)
    exact ⟨_, _, by assumption⟩
  · cases asks

theorem Sequel.looks_of_create {a : Activity} {as : List Activity} {l : List Item} {c : Bool}
    {n w : Nat} {r : Reservation} (sequel : m.Sequel e a as l c)
    (head : as.head? = some (.call (.create n w r))) : ∃ k view, m.Looks a k view := by
  cases sequel with
  | bare _ _ bare | store _ _ _ bare =>
      cases bare _ (List.mem_of_head? head)
  | fill looks => exact ⟨_, _, looks⟩
  | begin c ops => cases ops <;> cases head
  | @stop n inHand => cases inHand <;> cases head
  | _ => cases head

theorem Looks.exec {a : Activity} {n : Nat} {view : List Nat} (looks : m.Looks a n view) :
    m.exec e a = m.seek n view := by
  cases looks with
  | afresh opened line => exact round_none opened line n
  | again => rfl

theorem handOut_head (m : Machine σ) (k : Nat) (view : List Nat) (i : Item) (n w : Nat)
    (r : Reservation) : (m.handOut k view i).stack.head? ≠ some (.call (.create n w r)) := by
  unfold handOut
  split
  · next v p picked =>
      obtain ⟨t, stack, _⟩ := ((m.withPool p).push [.round k none]).lend_untouched v i
      simp [stack]
  · simp [push]

/-- Who looks for something to hand out asks for a new resource only when nothing idle is left, for
the slot that is next and for the waiter that was chosen. -/
theorem create_of_seek {k n w : Nat} {view : List Nat} {r : Reservation}
    (asks : (m.seek k view).stack.head? = some (.call (.create n w r))) :
    m.pool.returned = [] ∧ ∃ p, m.pool.reserve? = some (r, p) ∧
      p.pick view = (some w, (m.seek k view).pool) := by
  unfold seek at asks ⊢
  cases popped : m.pool.popReturned? with
  | some found =>
      obtain ⟨i, p⟩ := found
      rw [popped] at asks
      dsimp only at asks
      split at asks
      · simp [push] at asks
      · exact absurd asks (handOut_head (m.withPool p) k view i n w r)
  | none =>
      have returned : m.pool.returned = [] := by
        unfold Pool.popReturned? at popped
        split at popped
        · cases popped
        · assumption
      refine ⟨returned, ?_⟩
      cases reserved : m.pool.reserve? with
      | none => simp [popped, reserved, push] at asks
      | some found =>
          obtain ⟨r', p⟩ := found
          cases picked : p.pick view with
          | mk chosen q =>
              cases chosen with
              | none => simp [popped, reserved, fill, picked, push, withPool] at asks
              | some v =>
                  obtain ⟨rfl, rfl, rfl⟩ : k = n ∧ v = w ∧ r' = r := by
                    simpa [popped, reserved, fill, picked, push, withPool] using asks
                  exact ⟨p, rfl, by simp [fill, withPool, push, picked]⟩

end Machine

/-- The calls for a new resource, the latest first: for whom they were made, and for which slot. -/
def asked {σ : Type} (past : List (Machine σ)) : List (Nat × Reservation) :=
  past.filterMap Machine.asks?

namespace Run

open Machine

variable {σ : Type} {e : Environment σ} {past : List (Machine σ)} {m : Machine σ}

theorem asks_step (run : Run e past m) {n w : Nat} {r : Reservation} {rest : List Activity}
    (calls : (m.step e).stack = .call (.create n w r) :: rest) :
    m.pool.Asks (m.step e).pool w r := by
  cases top : m.stack with
  | nil =>
      rw [Machine.step, top, top] at calls
      cases calls
  | cons a below =>
      obtain ⟨as, head, sequel⟩ := (step_turn top).called top run.callsOnTop calls
      obtain ⟨k, view, looks⟩ := sequel.looks_of_create head
      have next : m.step e = ({ m with stack := below } : Machine σ).seek k view := by
        rw [← looks.exec (e := e), Machine.step, top]
      rw [next] at calls ⊢
      obtain ⟨returned, p, reserved, picked⟩ := create_of_seek (by rw [calls]; rfl)
      exact .of_pick returned reserved picked run.places.size fun v x found pending =>
        (run.sound.standings.inLine v).2 ⟨x, found, pending⟩

/-- A call that is about to be made was prepared in the step before. -/
theorem asked_for (run : Run e past m) {n w : Nat} {r : Reservation} {rest : List Activity}
    (calls : m.stack = .call (.create n w r) :: rest) :
    ∃ u earlier, past = u :: earlier ∧ m = u.step e ∧ u.pool.Asks m.pool w r := by
  cases run with
  | start built =>
      unfold build at built
      split at built
      · simp at built
      · obtain rfl := Except.ok.inj built
        cases calls
  | ask op run idle | threads run idle => simp [push] at calls
  | step run => exact ⟨_, _, rfl, rfl, run.asks_step calls⟩

/-- Whoever was asked for once has left the line, and is not asked for again. -/
theorem asked_left (run : Run e past m) : ((asked (m :: past)).map Prod.fst).Nodup ∧
    ∀ w ∈ (asked (m :: past)).map Prod.fst,
      w < m.pool.nextWaiter ∧ w ∉ m.pool.registry.entries := by
  have quiet {m : Machine σ} {past : List (Machine σ)} (none : m.asks? = none) :
      asked (m :: past) = asked past :=
    List.filterMap_cons_none none
  have empty {m : Machine σ} (stack : m.stack = []) : m.asks? = none := by rw [asks?, stack]
  refine run.byTurns (I := fun past m => ((asked (m :: past)).map Prod.fst).Nodup ∧
    ∀ w ∈ (asked (m :: past)).map Prod.fst, w < m.pool.nextWaiter ∧ w ∉ m.pool.registry.entries)
    (fun _ stack _ => ?_) (fun {past m} a stack bare before => ?_)
    (fun stack before => ?_) fun {past m a rest} run top turn before => ?_
  · rw [quiet (empty stack)]
    simp [asked]
  · have none : (m.push [a]).asks? = none := by
      unfold asks? push
      split
      · next calls => simp_all
      · rfl
    rw [quiet none, ← quiet (empty stack)]
    exact before
  · rw [quiet (empty stack)]
    exact before
  · have joins := run.joins_step
    have left : ∀ w ∈ (asked (m :: past)).map Prod.fst,
        w < (m.step e).pool.nextWaiter ∧ w ∉ (m.step e).pool.registry.entries := fun w member => by
      obtain ⟨known, missing⟩ := before.2 w member
      refine ⟨known.trans_le joins.grows, fun inside => ?_⟩
      exact (joins.joined w inside).elim missing fun new => absurd known (Nat.not_lt.2 new)
    cases asks : (m.step e).asks? with
    | none =>
        rw [quiet asks]
        exact ⟨before.1, left⟩
    | some found =>
        obtain ⟨w, r⟩ := found
        obtain ⟨n, rest, calls⟩ := asks?_eq_some asks
        have asked := run.asks_step calls
        have apart := fun member => (before.2 w member).2 asked.waited
        have gone : w ∉ (m.step e).pool.registry.entries := by
          rw [asked.left]
          exact run.nodup_line.not_mem_erase
        have known : w < (m.step e).pool.nextWaiter := by
          obtain ⟨x, found, _⟩ := asked.claimed
          exact (List.getElem?_eq_some_iff.1 found).1.trans_le joins.grows
        have cons : (ResourcePool.asked (m.step e :: m :: past)).map Prod.fst =
            w :: (ResourcePool.asked (m :: past)).map Prod.fst := by
          rw [ResourcePool.asked, List.filterMap_cons_some asks]
          rfl
        rw [cons]
        exact ⟨List.nodup_cons.2 ⟨apart, before.1⟩, List.forall_mem_cons.2 ⟨⟨known, gone⟩, left⟩⟩

theorem length_asked_le (run : Run e past m) :
    (asked (m :: past)).length ≤ m.pool.nextWaiter := by
  obtain ⟨distinct, left⟩ := run.asked_left
  calc (asked (m :: past)).length
      = ((asked (m :: past)).map Prod.fst).length := (List.length_map ..).symm
    _ ≤ (List.range m.pool.nextWaiter).length :=
        (distinct.subperm fun w member => List.mem_range.2 (left w member).1).length_le
    _ = m.pool.nextWaiter := List.length_range

theorem populated (run : Run e past m) :
    ((history e past).creations.map Prod.snd).dedup = (List.range m.pool.created).reverse := by
  have both := run.keeps (I := fun b => Sound b ∧ Populated b)
    (fun c => ⟨Books.start_sound c, rfl⟩)
    fun move before => ⟨move.sound before.1, move.populated before.1 before.2⟩
  exact both.2

/-- The factory is asked for a resource only when nothing idle is left, for the slot that became
free first, or else the next that was never filled, and for one waiter who was pending until the
step before. No waiter is asked for twice, so there are no more such calls than requests. The slots
are filled for the first time in their order. -/
theorem made_on_demand (run : Run e past m) :
    (∀ n w r rest, m.stack = .call (.create n w r) :: rest →
      ∃ u earlier, past = u :: earlier ∧ m = u.step e ∧ u.pool.Asks m.pool w r) ∧
      ((asked (m :: past)).map Prod.fst).Nodup ∧
      (asked (m :: past)).length ≤ past.countP Machine.demands ∧
      ((history e past).creations.map Prod.snd).dedup = (List.range m.pool.created).reverse :=
  ⟨fun _ _ _ _ => run.asked_for, run.asked_left.1, run.nextWaiter_eq ▸ run.length_asked_le,
    run.populated⟩

/-- A resource is kept by its holder, and another request is made while its slot is being filled
again. -/
theorem made_on_demand_refilled : ∃ (past : List (Machine Bench.Rig)) (u m : Machine Bench.Rig)
    (rest : List Activity), Run Bench.environment (u :: past) m ∧
      m.stack = .call (.create 1 2 (.fresh 1)) :: rest ∧ m = u.step Bench.environment ∧
      u.pool.Asks m.pool 2 (.fresh 1) ∧
      asked (m :: u :: past) = [(2, .fresh 1), (1, .vacated 0), (0, .fresh 0)] ∧
      ((asked (m :: u :: past)).map Prod.fst).Nodup ∧
      (asked (m :: u :: past)).length ≤ (u :: past).countP Machine.demands ∧
      ((history Bench.environment (u :: past)).creations.map Prod.snd).dedup =
        (List.range m.pool.created).reverse := by
  have lent := ((hooked (c := { maxSize := 2 }) rfl [⟨.create, 1, [.acquire 2]⟩]).ask
    (.acquire 0) rfl).steps 40
  have shown := (((lent.ask (.run none) rfl).steps 40).ask (.poll 0) rfl).steps 40
  have kept := (shown.ask (.detach 0) rfl).steps 40
  have asking := (kept.ask (.acquire 1) rfl).steps 17
  obtain ⟨prepared, distinct, few, order⟩ := asking.made_on_demand
  obtain ⟨u, earlier, parts, next, asks⟩ := prepared 1 2 (.fresh 1) _ rfl
  rw [parts] at asking distinct few order
  exact ⟨earlier, u, _, _, asking, rfl, next, asks, by rw [← parts]; rfl, distinct, few, order⟩

end Run
end ResourcePool
