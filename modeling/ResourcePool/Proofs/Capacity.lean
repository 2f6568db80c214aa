import ResourcePool.Proofs.Guards

/-!
Capacity: at every instant, also in the middle of an operation and during a call to the
surroundings, at most as many resources are alive as the pool has slots, and no two loans share a
slot or a resource.
-/

namespace ResourcePool

attribute [-simp] Multiset.singleton_add

/-- The resources made that were neither passed on for closing nor detached. -/
def History.alive (h : History) : List Nat :=
  (h.creations.map Prod.fst).filter fun id => id ∉ h.closings ∧ id ∉ h.detachments

namespace Pool

variable (p : Pool)

theorem map_slot_range : (List.range p.slots.length).map p.slot = p.slots := by
  refine List.ext_getElem (by simp) fun s _ inside => ?_
  simp [slot, List.getD_eq_getElem?_getD, inside]

theorem countP_slots (test : SlotState → Bool) : (p.slots.countP fun t => test t.state) =
    ((List.range p.slots.length).filter fun s => test (p.slot s).state).length := by
  conv_lhs => rw [← p.map_slot_range]
  rw [List.countP_map, List.countP_eq_length_filter]
  rfl

theorem stored_le_holdings : (p.returned.map Item.stored : Multiset Holding) ≤ p.holdings := by
  rw [holdings, add_assoc]
  exact Multiset.le_add_right ..

end Pool

namespace Places

variable {p : Pool} {torn : Bool} {S : Multiset Holding}

theorem slots_le (places : Places p torn S) : S.map Holding.slot ≤ Multiset.range p.created :=
  (Multiset.le_iff_subset places.apart).2 fun s member => by
    obtain ⟨x, inside, rfl⟩ := Multiset.mem_map.1 member
    exact Multiset.mem_range.2 (places.agree x inside).1

theorem card_le (places : Places p torn S) : S.card ≤ p.created := by
  simpa using Multiset.card_le_card places.slots_le

/-- Idle resources and lent slots are apart, and both count as filled. -/
theorem available_add_inUse_le (places : Places p torn S)
    (stored : (p.returned.map Item.stored : Multiset Holding) ≤ S) :
    p.status.available + p.status.inUse ≤ p.created := by
  let busy := (List.range p.slots.length).filter fun s => (p.slot s).state.isBusy
  have idle : ∀ s ∈ p.returned.map Item.slot, s < p.created ∧ (p.slot s).state = .idle := by
    intro s member
    obtain ⟨i, inside, rfl⟩ := List.mem_map.1 member
    exact places.agree i.stored
      (Multiset.mem_of_le stored (Multiset.mem_coe.2 (List.mem_map_of_mem inside)))
  have lent : ∀ s ∈ busy, s < p.created ∧ (p.slot s).state = .checkedOut := by
    intro s member
    have state : (p.slot s).state = .checkedOut := by
      simpa [SlotState.isBusy] using (List.mem_filter.1 member).2
    refine ⟨Nat.lt_of_not_le fun unfilled => ?_, state⟩
    rw [places.blank s unfilled] at state
    cases state
  have nodup : (p.returned.map Item.slot ++ busy).Nodup := by
    refine List.nodup_append'.2 ⟨?_, List.nodup_range.filter _, fun s here there => ?_⟩
    · have slots := Multiset.nodup_of_le (Multiset.map_le_map stored) places.apart
      simpa [Function.comp_def, Item.stored] using slots
    · have := (idle s here).2.symm.trans (lent s there).2
      cases this
  have inside : p.returned.map Item.slot ++ busy ⊆ List.range p.created := by
    refine fun s member => List.mem_range.2 ?_
    exact (List.mem_append.1 member).elim (fun here => (idle s here).1) fun there =>
      (lent s there).1
  have bound := (nodup.subperm inside).length_le
  rw [List.length_append, List.length_map, List.length_range] at bound
  simp only [Pool.status, Pool.countP_slots]
  exact bound

end Places

namespace Accounts

variable {S : Multiset Holding} {made : Nat} {h : History}

theorem nodup_ids (accounts : Accounts S made h) : (S.filterMap Holding.id?).Nodup := by
  have all := Multiset.nodup_range made
  rw [← accounts.ids, add_assoc] at all
  exact (Multiset.nodup_add.1 all).1

/-- A resource in stock was made for its slot, and was neither passed on for closing nor
detached. -/
theorem alive_of_mem (accounts : Accounts S made h) {x : Holding} {r : Resource} (member : x ∈ S)
    (resource : x.resource = some r) : r.id ∈ h.alive := by
  have id : x.id? = some r.id := congrArg (Option.map Resource.id) resource
  have held : r.id ∈ S.filterMap Holding.id? := (Multiset.mem_filterMap ..).2 ⟨x, member, id⟩
  have all := Multiset.nodup_range made
  rw [← accounts.ids, add_assoc, Multiset.nodup_add, Multiset.disjoint_left] at all
  have gone := all.2.2 held
  simp only [Multiset.mem_add, Multiset.mem_coe, not_or] at gone
  refine List.mem_filter.2 ⟨?_, by simpa using gone⟩
  exact List.mem_map.2 ⟨_, (accounts.origin x member r resource).2, rfl⟩

theorem alive_le (accounts : Accounts S made h) : h.alive.length ≤ S.card := by
  have nodup : (h.alive : Multiset Nat).Nodup := by
    rw [Multiset.coe_nodup, History.alive, accounts.creations]
    exact (List.nodup_reverse.2 List.nodup_range).filter _
  have held : (h.alive : Multiset Nat) ≤ S.filterMap Holding.id? := by
    refine (Multiset.le_iff_subset nodup).2 fun id member => ?_
    obtain ⟨created, present⟩ := List.mem_filter.1 (Multiset.mem_coe.1 member)
    obtain ⟨unclosed, attached⟩ : id ∉ h.closings ∧ id ∉ h.detachments := by simpa using present
    -- Each resource made is in stock, was passed on for closing, or was detached.
    have known : id ∈ Multiset.range made := by
      simpa [accounts.creations] using created
    rw [← accounts.ids] at known
    simpa [unclosed, attached] using known
  refine (Multiset.card_le_card held).trans ?_
  induction S using Quot.inductionOn
  exact List.length_filterMap_le ..

end Accounts

namespace Run

variable {σ : Type} {e : Environment σ} {past : List (Machine σ)} {m : Machine σ}

/-- At every instant of a run the pool keeps to its capacity. -/
theorem capacity (run : Run e past m) :
    (history e past).alive.length ≤ m.pool.config.maxSize ∧
      ((m.guards.map Item.slot).Nodup ∧ (m.guards.map fun i => i.resource.id).Nodup ∧
        m.guards.length ≤ m.pool.config.maxSize) ∧
      m.pool.status.available + m.pool.status.inUse ≤ m.pool.status.created ∧
      m.pool.status.created ≤ m.pool.status.max := by
  have places := run.places
  have accounts := run.accounts
  have lent := m.lent_le_stock (history e past)
  have filled : m.pool.created ≤ m.pool.config.maxSize := places.bound.trans_eq places.size
  have loans : m.guards.length ≤ m.pool.created := by
    simpa using (Multiset.card_le_card lent).trans places.card_le
  refine ⟨?_, ⟨?_, ?_, loans.trans filled⟩, ?_, places.bound⟩
  · exact (accounts.alive_le.trans places.card_le).trans filled
  · have slots := Multiset.nodup_of_le (Multiset.map_le_map lent) places.apart
    simpa [Function.comp_def, Item.lent] using slots
  · have ids := Multiset.nodup_of_le (Multiset.filterMap_le_filterMap Holding.id? lent)
      accounts.nodup_ids
    simpa [Function.comp_def, Holding.id?, Item.lent] using ids
  · refine places.available_add_inUse_le (m.pool.stored_le_holdings.trans ?_)
    exact Multiset.le_add_left ..

/-- The second of two resources is being given to the scheduler, the first is in its queue. -/
theorem capacity_two : ∃ (past : List (Machine Bench.Rig)) (m : Machine Bench.Rig),
    Run Bench.environment past m ∧ m.stack.isEmpty = false ∧ m.guards.map Item.slot = [1, 0] ∧
      ((history Bench.environment past).alive.length ≤ m.pool.config.maxSize ∧
        ((m.guards.map Item.slot).Nodup ∧ (m.guards.map fun i => i.resource.id).Nodup ∧
          m.guards.length ≤ m.pool.config.maxSize) ∧
        m.pool.status.available + m.pool.status.inUse ≤ m.pool.status.created ∧
        m.pool.status.created ≤ m.pool.status.max) := by
  have first := ((bench (c := { maxSize := 2 }) rfl).ask (.acquire 0) rfl).steps 40
  have second := (first.ask (.acquire 1) rfl).steps 7
  exact ⟨_, _, second, rfl, rfl, second.capacity⟩

end Run
end ResourcePool
