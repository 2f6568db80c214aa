import ResourcePool.Proofs.Capacity

/-!
When nothing is in progress, each slot is in one place: never filled, free to be filled again, idle
in the queue, on loan, or closed for good. Its recorded state says which.
-/

namespace ResourcePool

attribute [-simp] Multiset.singleton_add

/-- Where a slot is. -/
inductive Place
  /-- It was never filled. -/
  | blank
  /-- It may be filled again. -/
  | vacant
  /-- Its resource is in the queue of idle resources. -/
  | idle
  /-- Its resource is on loan. -/
  | lent
  /-- Its resource was closed for good. -/
  | shut
  deriving DecidableEq

def Place.state : Place → SlotState
  | blank | vacant => .uninitialized
  | idle => .idle
  | lent => .checkedOut
  | shut => .closed

/-- The slot is in this place and in no other. -/
structure Machine.InPlace {σ : Type} (m : Machine σ) (s : Nat) (place : Place) : Prop where
  state : (m.pool.slot s).state = place.state
  filled : s < m.pool.created ↔ place ≠ .blank
  generation : place = .blank → (m.pool.slot s).generation = 0
  vacated : m.pool.vacated.count s = if place = .vacant then 1 else 0
  returned : (m.pool.returned.map Item.slot).count s = if place = .idle then 1 else 0
  guards : (m.guards.map Item.slot).count s = if place = .lent then 1 else 0

namespace Machine

variable {σ : Type} {m : Machine σ}

theorem InPlace.unique {s : Nat} {c d : Place} (here : m.InPlace s c) (there : m.InPlace s d) :
    d = c := by
  have state := here.state.symm.trans there.state
  have filled := here.filled.symm.trans there.filled
  cases c <;> cases d <;> simp [Place.state] at state filled ⊢

section

variable {s : Nat} {c : Place} (here : m.InPlace s c)
include here

theorem InPlace.mem_vacated : s ∈ m.pool.vacated ↔ c = .vacant := by
  rw [← List.count_pos_iff, here.vacated]
  split <;> simp_all

theorem InPlace.mem_returned : s ∈ m.pool.returned.map Item.slot ↔ c = .idle := by
  rw [← List.count_pos_iff, here.returned]
  split <;> simp_all

theorem InPlace.mem_guards : s ∈ m.guards.map Item.slot ↔ c = .lent := by
  rw [← List.count_pos_iff, here.guards]
  split <;> simp_all

end

namespace AtRest

variable (rest : m.AtRest) (h : History)
include rest

theorem slots : (m.books 0 h).stock.map Holding.slot =
    (m.guards.map Item.slot ++ m.pool.returned.map Item.slot ++ m.pool.vacated : List Nat) := by
  rw [rest.stock h, Multiset.map_add, Multiset.map_add]
  simp [Function.comp_def, Item.lent, Item.stored, Holding.free]

theorem mem_stock {x : Holding} : x ∈ (m.books 0 h).stock ↔
    (∃ i ∈ m.guards, i.lent = x) ∨ (∃ i ∈ m.pool.returned, i.stored = x) ∨
      ∃ s ∈ m.pool.vacated, .free s = x := by
  rw [rest.stock h]
  simp

end AtRest
end Machine

namespace Run

variable {σ : Type} {e : Environment σ} {past : List (Machine σ)} {m : Machine σ}

theorem nodup_slots (run : Run e past m) (rest : m.AtRest) :
    (m.guards.map Item.slot ++ m.pool.returned.map Item.slot ++ m.pool.vacated).Nodup := by
  rw [← Multiset.coe_nodup, ← rest.slots (history e past)]
  exact run.places.apart

theorem inPlace (run : Run e past m) (rest : m.AtRest) (s : Nat) : ∃ c, m.InPlace s c := by
  have places := run.places
  have lent : s ∈ m.guards.map Item.slot →
      s < m.pool.created ∧ (m.pool.slot s).state = .checkedOut := by
    intro member
    obtain ⟨i, inside, rfl⟩ := List.mem_map.1 member
    exact places.agree i.lent ((rest.mem_stock _).2 (.inl ⟨i, inside, rfl⟩))
  have idle : s ∈ m.pool.returned.map Item.slot →
      s < m.pool.created ∧ (m.pool.slot s).state = .idle := by
    intro member
    obtain ⟨i, inside, rfl⟩ := List.mem_map.1 member
    exact places.agree i.stored ((rest.mem_stock _).2 (.inr (.inl ⟨i, inside, rfl⟩)))
  have vacant : s ∈ m.pool.vacated →
      s < m.pool.created ∧ (m.pool.slot s).state = .uninitialized := fun member =>
    places.agree (.free s) ((rest.mem_stock _).2 (.inr (.inr ⟨s, member, rfl⟩)))
  have once : (m.guards.map Item.slot).count s + (m.pool.returned.map Item.slot).count s +
      m.pool.vacated.count s ≤ 1 := by
    simpa only [List.count_append] using List.nodup_iff_count_le_one.1 (run.nodup_slots rest) s
  -- The slot stands in one of three lists at most, and if in none of them it is closed.
  by_cases filled : s < m.pool.created
  · have covered := places.covered s filled
    rw [rest.slots, Multiset.mem_coe, List.mem_append, List.mem_append] at covered
    obtain ((member | member) | member) | closed := covered
    · have := List.count_pos_iff.2 member
      refine ⟨.lent, (lent member).2, by simp [filled], by simp, ?_, ?_, ?_⟩ <;> simp <;> omega
    · have := List.count_pos_iff.2 member
      refine ⟨.idle, (idle member).2, by simp [filled], by simp, ?_, ?_, ?_⟩ <;> simp <;> omega
    · have := List.count_pos_iff.2 member
      refine ⟨.vacant, (vacant member).2, by simp [filled], by simp, ?_, ?_, ?_⟩ <;> simp <;> omega
    · have apart {state : SlotState} (other : (m.pool.slot s).state = state) :
          state = .closed := other.symm.trans closed
      refine ⟨.shut, closed, by simp [filled], by simp, ?_, ?_, ?_⟩ <;>
        refine List.count_eq_zero.2 fun member => ?_
      · cases apart (vacant member).2
      · cases apart (idle member).2
      · cases apart (lent member).2
  · have blank := places.blank s (Nat.le_of_not_lt filled)
    refine ⟨.blank, by rw [blank]; rfl, by simp [filled], fun _ => by rw [blank], ?_, ?_, ?_⟩ <;>
      refine List.count_eq_zero.2 fun member => filled ?_
    · exact (vacant member).1
    · exact (idle member).1
    · exact (lent member).1

theorem busy_perm (run : Run e past m) (rest : m.AtRest) :
    ((List.range m.pool.slots.length).filter fun s => (m.pool.slot s).state.isBusy).Perm
      (m.guards.map Item.slot) := by
  have nodup := (List.nodup_append.1 (List.nodup_append.1 (run.nodup_slots rest)).1).1
  refine (List.perm_ext_iff_of_nodup (List.nodup_range.filter _) nodup).2 fun s => ?_
  obtain ⟨c, here⟩ := run.inPlace rest s
  have bound := run.places.bound
  have filled := here.filled
  rw [List.mem_filter, List.mem_range, here.mem_guards, here.state]
  cases c <;> simp [Place.state, SlotState.isBusy] at filled ⊢
  omega

theorem filled_perm (run : Run e past m) (rest : m.AtRest) :
    (List.range m.pool.created).Perm (m.guards.map Item.slot ++ m.pool.returned.map Item.slot ++
      m.pool.vacated ++
        (List.range m.pool.slots.length).filter fun s => (m.pool.slot s).state = .closed) := by
  have nodup : (m.guards.map Item.slot ++ m.pool.returned.map Item.slot ++ m.pool.vacated ++
      (List.range m.pool.slots.length).filter fun s => (m.pool.slot s).state = .closed).Nodup := by
    refine List.nodup_append'.2 ⟨run.nodup_slots rest, List.nodup_range.filter _,
      fun s held closed => ?_⟩
    obtain ⟨c, here⟩ := run.inPlace rest s
    have shut := (List.mem_filter.1 closed).2
    rw [List.mem_append, List.mem_append, here.mem_guards, here.mem_returned,
      here.mem_vacated] at held
    rw [here.state] at shut
    cases c <;> simp [Place.state] at held shut
  refine (List.perm_ext_iff_of_nodup List.nodup_range nodup).2 fun s => ?_
  obtain ⟨c, here⟩ := run.inPlace rest s
  have bound := run.places.bound
  have filled := here.filled
  rw [List.mem_append, List.mem_append, List.mem_append, List.mem_filter, List.mem_range,
    List.mem_range, here.mem_guards, here.mem_returned, here.mem_vacated, here.state]
  cases c <;> simp [Place.state] at filled ⊢ <;> omega

/-- Whenever nothing is in progress, the slots are distributed over the places. -/
theorem partition (run : Run e past m) (rest : m.AtRest) :
    (∀ s < m.pool.config.maxSize, ∃! c, m.InPlace s c) ∧
      (∀ i ∈ m.pool.returned ++ m.guards,
        i.resource.slot = i.slot ∧ (i.resource.id, i.slot) ∈ (history e past).creations) ∧
      m.pool.created = m.pool.status.available + m.pool.status.inUse + m.pool.vacated.length +
        m.pool.slots.countP (fun t => t.state = .closed) ∧
      m.pool.created ≤ m.pool.config.maxSize := by
  have places := run.places
  refine ⟨fun s _ => ?_, fun i member => ?_, ?_, places.bound.trans_eq places.size⟩
  · obtain ⟨c, here⟩ := run.inPlace rest s
    exact ⟨c, here, fun d there => here.unique there⟩
  · have origin := run.accounts.origin
    obtain inside | inside := List.mem_append.1 member
    · exact origin i.stored ((rest.mem_stock _).2 (.inr (.inl ⟨i, inside, rfl⟩))) _ rfl
    · exact origin i.lent ((rest.mem_stock _).2 (.inl ⟨i, inside, rfl⟩)) _ rfl
  · have filled := (run.filled_perm rest).length_eq
    have busy := (run.busy_perm rest).length_eq
    have closed := m.pool.countP_slots fun state => state = .closed
    have lent := m.pool.countP_slots SlotState.isBusy
    simp only [List.length_append, List.length_map, List.length_range] at filled busy
    simp only [Pool.status]
    omega

/-- Of three slots one was filled for an outcome that nobody took yet, one lost its resource, and one
was never filled. -/
theorem partition_three : ∃ (past : List (Machine Bench.Rig)) (m : Machine Bench.Rig),
    Run Bench.environment past m ∧ m.AtRest ∧ m.guards.map Item.slot = [0] ∧
      m.pool.vacated = [1] ∧ m.pool.created = 2 ∧
      ((∀ s < m.pool.config.maxSize, ∃! c, m.InPlace s c) ∧
        (∀ i ∈ m.pool.returned ++ m.guards, i.resource.slot = i.slot ∧
          (i.resource.id, i.slot) ∈ (history Bench.environment past).creations) ∧
        m.pool.created = m.pool.status.available + m.pool.status.inUse + m.pool.vacated.length +
          m.pool.slots.countP (fun t => t.state = .closed) ∧
        m.pool.created ≤ m.pool.config.maxSize) := by
  have first := ((bench (c := { maxSize := 3 }) rfl).ask (.acquire 0) rfl).steps 40
  have second := (first.ask (.acquire 1) rfl).steps 40
  have delivered := (second.ask (.run none) rfl).steps 40
  have polled := (delivered.ask (.poll 1) rfl).steps 40
  have detached := (polled.ask (.detach 1) rfl).steps 40
  exact ⟨_, _, detached, rfl, rfl, rfl, rfl, detached.partition rfl⟩

end Run
end ResourcePool
