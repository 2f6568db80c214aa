import ResourcePool.Proofs.Choices
import ResourcePool.Proofs.SingleFlight
import ResourcePool.Proofs.SlotHistories

/-!
What the pool never does, whatever the callbacks do meanwhile: take back a resource that was not
lent, lend one that is not idle, use a slot that does not exist, choose from an empty view of the
line, or touch a resource through a loan that is over.
-/

namespace ResourcePool

attribute [-simp] Multiset.singleton_add

/-- In this state and its next step nothing is misused. -/
structure Machine.Unmisused {σ : Type} (e : Environment σ) (m : Machine σ) (h : History) :
    Prop where
  noted : ∀ ev ∈ m.trace, ev.isMisuse = false
  misfit : ∀ i, .call (.close i .misfit) ∉ m.activities
  /-- What comes back is on loan. -/
  checkin : ∀ i rest, m.stack = .giveBack i :: rest →
    m.pool.Has i.slot .checkedOut ∧ (m.pool.takeBack? i.slot).isSome = true
  /-- What is handed out is idle, if need be after the step has filled the slot. -/
  deliver : ∀ s, (s, .deliver) ∈ m.passages e →
    ∃ ts, Passes m.pool.slots (m.opening e) ts ∧ ∃ t, ts[s]? = some t ∧ t.state = .idle
  size : m.pool.slots.length = m.pool.config.maxSize
  passage : ∀ x ∈ m.passages e, x.1 < m.pool.config.maxSize
  returned : ∀ i ∈ m.pool.returned, i.slot < m.pool.config.maxSize
  vacated : ∀ s ∈ m.pool.vacated, s < m.pool.config.maxSize
  creating : ∀ k w r,
    .call (.create k w r) ∈ m.activities ∨ .answer (.create k w r) ∈ m.activities →
      r.slot < m.pool.config.maxSize
  /-- Somebody is in the view, and the place of the choice is in it. -/
  choice : ∀ view, m.choice? e = some view →
    view ≠ [] ∧ m.pool.cursor % view.length < view.length
  /-- A matching answers calls that were counted. -/
  matched : ∀ k rest, m.stack = .again k :: rest → 0 < k ∧ k ≤ m.pool.triggers
  held : ∀ h i, m.handles.get? h = some (.guard i) → i ∈ m.guards
  /-- The resource of a loan was made for its slot and is neither closed nor detached. -/
  loan : ∀ i ∈ m.guards, i.slot < m.pool.config.maxSize ∧
    (m.pool.slot i.slot).state = .checkedOut ∧ i.resource.id ∈ h.alive ∧
      i.resource.slot = i.slot
  /-- No two loans have the same resource. -/
  apart : (m.guards.map fun i => i.resource.id).Nodup

namespace Run

open Machine

variable {σ : Type} {e : Environment σ} {past : List (Machine σ)} {m : Machine σ}

/-- No slot was ever found in a wrong state. -/
theorem proper (run : Run e past m) : ∀ ev ∈ m.trace, ev.isMisuse = false := by
  induction run with
  | start built =>
      unfold build at built
      split at built
      · simp at built
      · obtain rfl := Except.ok.inj built
        simp [log, note]
  | ask op run idle ih | threads run idle onThreads ih => exact ih
  | step run ih =>
      intro ev member
      exact (run.step_tallies.2.2 ev member).elim (ih ev) id

/-- Only a resource found invalid, or of a closed slot, is passed on for closing. -/
theorem not_misfit (run : Run e past m) (i : Item) : .call (.close i .misfit) ∉ m.activities :=
  run.warranted _

theorem slots_length (run : Run e past m) : m.pool.slots.length = m.pool.config.maxSize :=
  run.places.size

/-- A matching that took its view of the line earlier found somebody in line. -/
theorem view_ne_nil (run : Run e past m) :
    ∀ a ∈ m.activities, ∀ view, a.view? = some view → view ≠ [] := by
  refine run.byActivities (P := fun _ a _ => ∀ view, a.view? = some view → view ≠ [])
    (fun bare view keeps => ?_) id (fun _ before => before)
    fun run top sequel new _ before view keeps => ?_
  · rw [Activity.view?_of_isBare bare] at keeps
    cases keeps
  · obtain ⟨_, kept | ⟨_, _, line⟩⟩ := sequel.view? new keeps
    · exact before view kept
    · exact line

theorem choice_ne_nil (run : Run e past m) {view : List Nat} (choice : m.choice? e = some view) :
    view ≠ [] := by
  unfold choice? at choice
  cases top : m.stack with
  | nil => simp [top] at choice
  | cons a rest =>
      simp only [top] at choice
      obtain kept | ⟨_, _, line⟩ := Machine.view_of_choice choice
      · exact run.view_ne_nil a (by simp [activities, top]) view kept
      · exact line

theorem lent_mem (_run : Run e past m) {i : Item} (lent : i ∈ m.guards) :
    i.lent ∈ (m.books 0 (history e past)).stock :=
  Multiset.mem_of_le (m.lent_le_stock _) (Multiset.mem_coe.2 (List.mem_map_of_mem lent))

/-- The resource of a loan is alive, and its slot is checked out. -/
theorem loan (run : Run e past m) {i : Item} (lent : i ∈ m.guards) :
    m.pool.Has i.slot .checkedOut ∧ i.resource.id ∈ (history e past).alive ∧
      i.resource.slot = i.slot :=
  ⟨run.has (run.lent_mem lent), run.accounts.alive_of_mem (run.lent_mem lent) rfl,
    (run.accounts.origin _ (run.lent_mem lent) _ rfl).1⟩

theorem mem_guards_of_handle (_run : Run e past m) {h : Nat} {i : Item}
    (held : m.handles.get? h = some (.guard i)) : i ∈ m.guards := by
  have entry := (Table.entries_perm_of_get? held).mem_iff.2 (List.mem_cons_self ..)
  have guard : i ∈ m.handles.entries.filterMap fun e => e.2.guard? :=
    List.mem_filterMap.2 ⟨_, entry, rfl⟩
  simp only [guards, List.mem_append]
  tauto

theorem slot_of_guard (run : Run e past m) {i : Item} (lent : i ∈ m.guards) :
    i.slot < m.pool.config.maxSize :=
  run.slots_length ▸ (run.loan lent).1.1

theorem slot_of_returned (run : Run e past m) {i : Item} (queued : i ∈ m.pool.returned) :
    i.slot < m.pool.config.maxSize :=
  run.slots_length ▸ (run.idle_of_returned i queued).1

theorem slot_of_vacated (run : Run e past m) {s : Nat} (free : s ∈ m.pool.vacated) :
    s < m.pool.config.maxSize :=
  run.slots_length ▸ (run.has (m.free_mem_stock free _)).1

theorem slot_of_creating (run : Run e past m) {k w : Nat} {r : Reservation}
    (asks : .call (.create k w r) ∈ m.activities ∨ .answer (.create k w r) ∈ m.activities) :
    r.slot < m.pool.config.maxSize := by
  have reserved : .matcher k (.filling r) ∈ m.assets :=
    asks.elim (fun here => mem_assets here (by simp)) fun here => mem_assets here (by simp)
  exact run.slots_length ▸ (run.vacant reserved).1

/-- A resource that is handed to a waiter was idle, if need be after it has filled its slot. -/
theorem idle_of_deliver (run : Run e past m) {s : Nat} (delivers : (s, .deliver) ∈ m.passages e) :
    ∃ ts, Passes m.pool.slots (m.opening e) ts ∧ ∃ t, ts[s]? = some t ∧ t.state = .idle := by
  have handed : (s, .deliver) ∈ (m.step e).passing := by
    refine (List.mem_append.1 delivers).resolve_right fun opens => ?_
    have none := slots_opening_deliver e m
    have some : s ∈ (m.opening e).slots .deliver := List.mem_filterMap.2 ⟨_, opens, if_pos rfl⟩
    rw [none] at some
    cases some
  have one : (m.step e).passing = [(s, .deliver)] := by
    unfold passing at handed ⊢
    rw [Option.mem_toList] at handed
    rw [handed]
    rfl
  have passes := run.step_passes
  rw [Machine.passages, one] at passes
  generalize (Machine.step e m).pool.slots = after at passes
  cases passes with
  | pass before found fits => exact ⟨_, before, _, found, fits⟩

theorem loans_apart (run : Run e past m) : (m.guards.map fun i => i.resource.id).Nodup := by
  have ids := Multiset.nodup_of_le
    (Multiset.filterMap_le_filterMap Holding.id? (m.lent_le_stock (history e past)))
    run.accounts.nodup_ids
  simpa [Function.comp_def, Holding.id?, Item.lent] using ids

/-- The misuse branches are not reached: whatever comes back is on loan, whatever is handed out is
idle, slots are within the pool, there is somebody to choose from, a matching answers only calls
that were counted, and the resource of a loan is there. -/
theorem no_misuse (run : Run e past m) : m.Unmisused e (history e past) where
  noted := run.proper
  misfit := run.not_misfit
  checkin i rest top := by
    refine ⟨(run.findsSlots top).held (.guard i) (by simp) i.lent rfl, ?_⟩
    exact Option.isSome_iff_ne_none.2 (run.takeBack_isSome top)
  deliver s := run.idle_of_deliver
  size := run.slots_length
  passage x member := run.slots_length ▸ run.step_passes.inside x member
  returned i := run.slot_of_returned
  vacated s := run.slot_of_vacated
  creating k w r := run.slot_of_creating
  choice view choice := by
    have filled := run.choice_ne_nil choice
    exact ⟨filled, Nat.mod_lt _ (List.length_pos_iff.2 filled)⟩
  matched k rest top := by
    have one := run.rounds_of_ends ⟨rest, top⟩
    obtain ⟨none, _⟩ | ⟨j, same, bounds⟩ := run.rounds
    · simp [none] at one
    · obtain rfl : j = k := by simpa [same] using one
      exact bounds
  held h i := run.mem_guards_of_handle
  loan i lent := ⟨run.slot_of_guard lent, (run.loan lent).1.2, (run.loan lent).2⟩
  apart := run.loans_apart

/-- A resource is on its way back in the middle of an operation that a callback carries out. -/
theorem no_misuse_nested : ∃ (past : List (Machine Bench.Rig)) (m : Machine Bench.Rig),
    Run Bench.environment past m ∧ (∃ i rest, m.stack = .giveBack i :: rest ∧ rest.length = 6) ∧
      m.Unmisused Bench.environment (history Bench.environment past) := by
  have lent := ((hooked (c := { maxSize := 2 }) rfl [⟨.create, 1, [.drop 0]⟩]).ask
    (.acquire 0) rfl).steps 40
  have shown := (((lent.ask (.run none) rfl).steps 40).ask (.poll 0) rfl).steps 40
  have back := (shown.ask (.acquire 1) rfl).steps 6
  exact ⟨_, _, back, ⟨_, _, rfl, rfl⟩, back.no_misuse⟩

end Run
end ResourcePool
