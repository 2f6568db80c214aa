import ResourcePool.Proofs.Capacity
import ResourcePool.Proofs.Ownership
import ResourcePool.Proofs.WorkConservation

/-!
No resource is lost and none is closed twice. Every resource made is passed on for closing at most
once, never while it is on loan or after it was detached, and whenever nothing is in progress it is
in one place. The last reference to the pool takes the pool down, and taking it down empties the
queue of idle resources, so then every resource was closed or detached.
-/

namespace ResourcePool

attribute [-simp] Multiset.singleton_add

/-- What became of a resource. -/
inductive Lot
  | closed
  | detached
  /-- It is in the queue of idle resources. -/
  | idle
  /-- It is on loan. -/
  | lent
  deriving DecidableEq

/-- The resource was or is in this place, once, and in no other. -/
structure Machine.Accounted {σ : Type} (m : Machine σ) (h : History) (id : Nat) (lot : Lot) :
    Prop where
  closed : h.closings.count id = if lot = .closed then 1 else 0
  detached : h.detachments.count id = if lot = .detached then 1 else 0
  idle : (m.pool.returned.map fun i => i.resource.id).count id = if lot = .idle then 1 else 0
  lent : (m.guards.map fun i => i.resource.id).count id = if lot = .lent then 1 else 0

namespace Machine

variable {σ : Type} {m : Machine σ}

theorem Accounted.unique {h : History} {id : Nat} {lot other : Lot}
    (one : m.Accounted h id lot) (another : m.Accounted h id other) : other = lot := by
  have closed := one.closed.symm.trans another.closed
  have detached := one.detached.symm.trans another.detached
  have idle := one.idle.symm.trans another.idle
  have lent := one.lent.symm.trans another.lent
  cases lot <;> cases other <;> simp_all

/-- Who closes resources of a pool that is being taken down empties the queue. -/
def Wrecked (m : Machine σ) : Prop :=
  m.pool.returned = [] ∨ .teardown ∈ m.stack

theorem teardown_wrecked (m : Machine σ) : m.teardown.Wrecked := by
  unfold teardown
  split
  · exact .inr (by simp [shut, push, withPool])
  · next unpopped =>
      refine .inl ?_
      unfold Pool.popReturned? at unpopped
      split at unpopped <;> simp_all

/-- Nothing but the teardown changes the queue of a pool that nobody refers to. -/
theorem Turn.wrecked {e : Environment σ} {m' : Machine σ} {a : Activity} {rest : List Activity}
    (turn : Turn e m a rest m') (harmless : a.refersToPool = false) (stays : a ≠ .teardown)
    (before : m.pool.returned = [] ∨ .teardown ∈ rest) : m'.Wrecked := by
  cases turn with
  | goOn leaves =>
      have kept : m'.pool.returned = m.pool.returned := by
        have sequel := leaves.sequel
        generalize m'.pool.returned = r, m'.pool.closed = c at sequel
        cases sequel with
        | bare | begin | close => rfl
        | store _ _ refers => exact absurd (harmless.symm.trans refers) (by simp)
        | lend finds | retain finds =>
            have borrows := finds.borrows
            simp [harmless] at borrows
        | checkout looks | fill looks =>
            have borrows := looks.borrows
            simp [harmless] at borrows
        | wreck => exact absurd rfl stays
        | _ => simp [Activity.refersToPool, Call.refersToPool] at harmless
      refine before.imp kept.trans fun member => ?_
      rw [leaves.stack]
      exact List.mem_append.2 (.inr member)
  | resume _ _ stack _ pool =>
      refine before.imp (fun empty => pool ▸ empty) fun member => ?_
      rw [stack]
      exact List.mem_append.2 (.inr (List.mem_cons_of_mem _ member))
  | halt creates => simp [creates, Activity.refersToPool, Call.refersToPool] at harmless

theorem step_wrecked {e : Environment σ} (one : m.assets.count .permit = 1)
    (unreferenced : m.torn = true → m.Unreferenced) (before : m.torn = true → m.Wrecked)
    (torn : (m.step e).torn = true) : (m.step e).Wrecked := by
  cases top : m.stack with
  | nil =>
      simp only [step, top] at torn ⊢
      exact before torn
  | cons a rest =>
      have next : m.step e = ({ m with stack := rest } : Machine σ).exec e a := by
        rw [step, top]
      cases already : m.torn with
      | false =>
          -- The pool is taken down in this step.
          have letsGo : m.LetsGo := by
            by_contra stays
            have same := (step_moves e m [] one).keeps (I := fun b => b.torn = m.torn)
              (fun move same => (move.torn_of_not_gone stays).trans same) rfl
            exact absurd (already.symm.trans (same.symm.trans torn)) (by simp)
          obtain ⟨rest', top', last⟩ := letsGo
          obtain ⟨rfl, rfl⟩ := List.cons.inj (top.symm.trans top')
          rw [next]
          simp only [exec, release]
          rw [last, Bool.false_or, if_neg (Bool.eq_false_iff.1 already)]
          exact .inr (by simp [push])
      | true =>
          have harmless := (unreferenced already).activities a (by simp [activities, top])
          by_cases wrecks : a = .teardown
          · subst wrecks
            rw [next]
            exact teardown_wrecked _
          · refine (step_turn top).wrecked harmless wrecks <|
              (before already).imp id fun member => ?_
            rw [top] at member
            exact (List.mem_cons.1 member).resolve_left fun same => wrecks same.symm

end Machine

namespace Run

open Machine

variable {σ : Type} {e : Environment σ} {past : List (Machine σ)} {m : Machine σ}

theorem wrecked (run : Run e past m) (torn : m.torn = true) : m.Wrecked := by
  induction run with
  | start built =>
      have fresh := congrArg Books.torn (books_of_build built)
      exact absurd (torn.symm.trans fresh) (by simp [Books.start])
  | ask op run idle ih | threads run idle onThreads ih =>
      refine (ih torn).imp id fun member => ?_
      simp [idle] at member
  | step run ih => exact step_wrecked run.count_permit run.unreferenced ih torn

theorem guards_eq_nil (run : Run e past m) (rest : m.AtRest)
    (unreferenced : m.Unreferenced) : m.guards = [] := by
  have handles : m.handles.entries.filterMap (fun x => x.2.guard?) = [] := by
    refine List.filterMap_eq_nil_iff.2 fun x member => ?_
    have harmless := unreferenced.handles x member
    cases held : x.2 <;> simp_all [Handle.refersToPool, Handle.guard?]
  have parcels : m.pool.waiters.filterMap Waiter.parcel? = [] := by
    refine List.filterMap_eq_nil_iff.2 fun x member => ?_
    obtain ⟨w, inside, rfl⟩ := List.getElem_of_mem member
    have standing := run.sound.standings.standing w _ (List.getElem?_eq_getElem inside)
    have nobody : ((m.books 0 (history e past)).ties w).listeners = 0 := by
      refine Multiset.eq_zero_of_forall_notMem fun b member => ?_
      obtain ⟨a, held, attached⟩ := (Multiset.mem_filterMap ..).1 member
      cases a with
      | listener a => exact rest.not_listener unreferenced a (by simpa [books] using held)
      | _ => simp at attached
    generalize (m.books 0 (history e past)).ties w = t at standing nobody
    -- An outcome that was not taken has a listener.
    cases standing with
    | answered => simp at nobody
    | pending _ line | claimed _ line | forsaken _ line | finished _ line =>
        simp_all [Waiter.parcel?]
  rw [guards, handles, parcels, unreferenced.tasks, show m.activities = [] from rest]
  rfl

theorem nodup_accounts (run : Run e past m) :
    ((m.guards.map fun i => i.resource.id : Multiset Nat) + (history e past).closings +
      (history e past).detachments).Nodup := by
  have ids := run.accounts.ids
  have all := Multiset.nodup_range m.made
  rw [← ids] at all
  refine Multiset.nodup_of_le (add_le_add_left (add_le_add_left ?_ _) _) all
  have lent := Multiset.filterMap_le_filterMap Holding.id? (m.lent_le_stock (history e past))
  simpa [Function.comp_def, Holding.id?, Item.lent] using lent

/-- Whenever nothing is in progress, each resource is counted once. -/
theorem count_accounts (run : Run e past m) (rest : m.AtRest) {id : Nat}
    (known : id ∈ (history e past).creations.map Prod.fst) :
    (history e past).closings.count id + (history e past).detachments.count id +
      (m.pool.returned.map fun i => i.resource.id).count id +
        (m.guards.map fun i => i.resource.id).count id = 1 := by
  have ids := congrArg (Multiset.count id) run.accounts.ids
  rw [run.accounts.creations, List.mem_reverse, List.mem_range] at known
  rw [rest.stock, Multiset.count_eq_one_of_mem (Multiset.nodup_range _)
    (Multiset.mem_range.2 known)] at ids
  have lent : (m.guards.map Item.lent).filterMap Holding.id? =
      m.guards.map fun i => i.resource.id := by
    simp [Function.comp_def, Holding.id?, Item.lent]
  have idle : (m.pool.returned.map Item.stored).filterMap Holding.id? =
      m.pool.returned.map fun i => i.resource.id := by
    simp [Function.comp_def, Holding.id?, Item.stored]
  have free : (m.pool.vacated.map Holding.free).filterMap Holding.id? = [] := by
    simp [Holding.id?, Holding.free]
  simp only [Multiset.filterMap_add, Multiset.filterMap_coe, lent, idle, free,
    Multiset.count_add, Multiset.coe_count, List.count_nil] at ids
  omega

theorem accounted (run : Run e past m) (rest : m.AtRest) {id : Nat}
    (known : id ∈ (history e past).creations.map Prod.fst) :
    ∃ lot, m.Accounted (history e past) id lot := by
  have once := run.count_accounts rest known
  by_cases closed : 0 < (history e past).closings.count id
  · refine ⟨.closed, ?_, ?_, ?_, ?_⟩ <;> simp <;> omega
  by_cases detached : 0 < (history e past).detachments.count id
  · refine ⟨.detached, ?_, ?_, ?_, ?_⟩ <;> simp <;> omega
  by_cases idle : 0 < (m.pool.returned.map fun i => i.resource.id).count id
  · refine ⟨.idle, ?_, ?_, ?_, ?_⟩ <;> simp <;> omega
  · refine ⟨.lent, ?_, ?_, ?_, ?_⟩ <;> simp <;> omega

/-- A resource that is passed on for closing was not passed on before, was not detached, and is not
on loan. -/
theorem apart_of_closing (run : Run e past m) {i : Item} {why : Closing} {rest : List Activity}
    (top : m.stack = .call (.close i why) :: rest) :
    i.resource.id ∉ (history e past).closings ∧ i.resource.id ∉ (history e past).detachments ∧
      ∀ j ∈ m.guards, j.resource.id ≠ i.resource.id := by
  obtain ⟨x, held, id, state⟩ : ∃ x ∈ (m.books 0 (history e past)).stock,
      x.id? = some i.resource.id ∧ x.state ≠ .checkedOut := by
    obtain check | _ | _ | _ | _ := why
    · exact ⟨i.stored, by simp [Books.stock, books, assets, top], rfl, by simp [Item.stored]⟩
    all_goals
      exact ⟨i.ousted, by simp [Books.stock, books, assets, top], rfl, by simp [Item.ousted]⟩
  obtain ⟨S, stock⟩ := Multiset.exists_cons_of_mem held
  have all := Multiset.nodup_range m.made
  rw [← run.accounts.ids, stock, Multiset.filterMap_cons_some _ _ _ id, Multiset.cons_add,
    Multiset.cons_add, Multiset.nodup_cons] at all
  simp only [Multiset.mem_add, Multiset.mem_coe, not_or] at all
  obtain ⟨⟨⟨elsewhere, unclosed⟩, attached⟩, _⟩ := all
  refine ⟨unclosed, attached, fun j lent same => elsewhere ?_⟩
  have inside : j.lent ∈ (m.books 0 (history e past)).stock :=
    Multiset.mem_of_le (m.lent_le_stock _) (Multiset.mem_coe.2 (List.mem_map_of_mem lent))
  rw [stock, Multiset.mem_cons] at inside
  obtain rfl | inside := inside
  · exact absurd rfl state
  · exact (Multiset.mem_filterMap ..).2 ⟨j.lent, inside, congrArg some same⟩

/-- A resource is closed at most once, is in one place whenever nothing is in progress, and is
closed or detached when the last reference to the pool is gone. -/
theorem conserved (run : Run e past m) :
    (∀ i why rest, m.stack = .call (.close i why) :: rest →
      i.resource.id ∉ (history e past).closings ∧ i.resource.id ∉ (history e past).detachments ∧
        ∀ j ∈ m.guards, j.resource.id ≠ i.resource.id) ∧
      (history e past).closings.Nodup ∧
      (m.AtRest → ∀ id ∈ (history e past).creations.map Prod.fst,
        ∃! lot, m.Accounted (history e past) id lot) ∧
      (m.AtRest → m.isReferenced = false → ∀ id ∈ (history e past).creations.map Prod.fst,
        m.Accounted (history e past) id .closed ∨ m.Accounted (history e past) id .detached) := by
  refine ⟨fun i why rest => run.apart_of_closing, ?_, fun rest id known => ?_,
    fun rest unreferenced id known => ?_⟩
  · have nodup := run.nodup_accounts
    rw [Multiset.nodup_add, Multiset.nodup_add, Multiset.coe_nodup, Multiset.coe_nodup] at nodup
    exact nodup.1.2.1
  · obtain ⟨lot, here⟩ := run.accounted rest known
    exact ⟨lot, here, fun other there => here.unique there⟩
  · have empty : m.pool.returned = [] := by
      refine (run.wrecked (run.torn_iff.2 unreferenced)).resolve_right fun member => ?_
      rw [(List.append_eq_nil_iff.1 rest).1] at member
      cases member
    have guards := run.guards_eq_nil rest (unreferenced_iff.1 unreferenced)
    obtain ⟨lot, here⟩ := run.accounted rest known
    cases lot with
    | closed => exact .inl here
    | detached => exact .inr here
    | idle => simpa [empty] using here.idle
    | lent => simpa [guards] using here.lent

/-- Of two resources one is detached; the other comes back and is closed, in vain, when the pool is
dropped. -/
theorem conserved_two : ∃ (past : List (Machine Bench.Rig)) (m : Machine Bench.Rig),
    Run Bench.environment past m ∧ m.AtRest ∧ m.isReferenced = false ∧ m.pool.closed = false ∧
      (history Bench.environment past).creations = [(1, 1), (0, 0)] ∧
      (∀ id ∈ (history Bench.environment past).creations.map Prod.fst,
        m.Accounted (history Bench.environment past) id .closed ∨
          m.Accounted (history Bench.environment past) id .detached) ∧
      ∃ (before : List (Machine Bench.Rig)) (n : Machine Bench.Rig) (i : Item),
        Run Bench.environment before n ∧ n.stack = [.call (.close i .teardown), .teardown,
          .say (.flag true)] ∧ ∀ j ∈ n.guards, j.resource.id ≠ i.resource.id := by
  have first := ((bench (c := { maxSize := 2 }) rfl).ask (.acquire 0) rfl).steps 40
  have second := (first.ask (.acquire 1) rfl).steps 40
  have delivered := (second.ask (.run none) rfl).steps 40
  have polled := (delivered.ask .pollAll rfl).steps 40
  have detached := (polled.ask (.detach 0) rfl).steps 40
  have returned := (detached.ask (.drop 1) rfl).steps 40
  have failing := (returned.ask (.tell (.failCloses true)) rfl).steps 40
  have dropped := failing.ask .dropPool rfl
  have closing := dropped.steps 3
  have ended := dropped.steps 40
  exact ⟨_, _, ended, rfl, rfl, rfl, rfl, ended.conserved.2.2.2 rfl rfl, _, _, _, closing, rfl,
    (closing.conserved.1 _ _ _ rfl).2.2⟩

end Run
end ResourcePool
