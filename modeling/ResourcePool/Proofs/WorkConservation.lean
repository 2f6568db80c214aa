import ResourcePool.Proofs.Guards

/-!
No lost wake-ups: in an open pool nobody stands in line while something could be handed out.
-/

namespace ResourcePool

attribute [-simp] Multiset.singleton_add

theorem Sound.listener_of_line {b : Books} (sound : Sound b) {w : Nat}
    (inside : w ∈ b.pool.registry.entries) : .listener ⟨w, true⟩ ∈ b.assets := by
  obtain ⟨x, found, state⟩ := (sound.standings.inLine w).1 inside
  have ties := (Standings.pending_of_state (sound.standings.standing w x found) state).2.2
  have listens : true ∈ b.assets.filterMap (Asset.attachment? w) := by
    rw [show b.assets.filterMap (Asset.attachment? w) = {true} from congrArg Ties.listeners ties]
    exact Multiset.mem_singleton_self true
  obtain ⟨a, member, attached⟩ := (Multiset.mem_filterMap ..).1 listens
  cases a with
  | listener a =>
      obtain ⟨v, attachment⟩ := a
      obtain ⟨rfl, rfl⟩ : v = w ∧ attachment = true := by simpa using attached
      exact member
  | _ => simp at attached

/-- Nobody listens to a pool that nothing refers to. -/
theorem Machine.AtRest.not_listener {σ : Type} {m : Machine σ} (rest : m.AtRest)
    (unreferenced : m.Unreferenced) (a : Acquire) : .listener a ∉ m.assets := by
  intro member
  obtain ⟨⟨k, x⟩, held, inside⟩ | ⟨t, queued, _⟩ | inside := rest.mem_assets.1 member
  · have harmless := unreferenced.handles _ held
    obtain b | (_ | ⟨b, deadline⟩) | i | r := x <;> simp [Handle.refersToPool] at harmless inside
  · simp [unreferenced.tasks] at queued
  · cases back : m.background with
    | done h b => exact unreferenced.background h b back
    | _ => simp [back] at inside

namespace Run

variable {σ : Type} {e : Environment σ} {past : List (Machine σ)} {m : Machine σ}

theorem not_torn_of_line (run : Run e past m) (rest : m.AtRest)
    (line : m.pool.registry.entries ≠ []) : m.torn = false := by
  refine Bool.eq_false_iff.2 fun torn => ?_
  obtain ⟨w, inside⟩ := List.exists_mem_of_ne_nil _ line
  have listener := run.sound.listener_of_line inside
  refine rest.not_listener (run.unreferenced torn) ⟨w, true⟩ ?_
  simpa [Machine.books] using listener

/-- Whenever nothing is in progress in an open pool and somebody stands in line, every slot is
lent. -/
theorem lent_of_line (run : Run e past m) (rest : m.AtRest) (opened : m.pool.closed = false)
    (line : m.pool.registry.entries ≠ []) :
    m.pool.returned = [] ∧ m.pool.vacated = [] ∧ m.pool.created = m.pool.config.maxSize ∧
      ∀ s < m.pool.config.maxSize, (m.pool.slot s).state = .checkedOut := by
  -- Otherwise matching would be called for, but nothing is in progress.
  have exhausted : m.pool.Exhausted := by
    by_contra stock
    refine rest.not_alert m.pool.triggers ?_
    simpa [Machine.books] using run.sound.matching.noticed ⟨opened, line, stock⟩
  have places := run.places
  have created : m.pool.created = m.pool.config.maxSize :=
    (Nat.le_antisymm places.bound exhausted.created).trans places.size
  refine ⟨exhausted.returned, exhausted.vacated, created, fun s inside => ?_⟩
  obtain lent | closed := places.covered s (created ▸ inside)
  · rw [rest.stock, exhausted.returned, exhausted.vacated] at lent
    obtain ⟨x, member, rfl⟩ := Multiset.mem_map.1 lent
    have agree := (places.agree x (by rwa [rest.stock, exhausted.returned, exhausted.vacated])).2
    obtain ⟨i, _, rfl⟩ : ∃ i ∈ m.guards, i.lent = x := by simpa using member
    exact agree
  · -- A slot is closed only with its pool, and nobody stands in line at a pool taken down.
    obtain shut | torn := places.shut s closed
    · exact absurd (opened.symm.trans shut) Bool.false_ne_true
    · exact absurd ((run.not_torn_of_line rest line).symm.trans torn) Bool.false_ne_true

/-- The only resource is on its way to the first of two requests; the other one waits. -/
theorem lent_of_line_second : ∃ (past : List (Machine Bench.Rig)) (m : Machine Bench.Rig),
    Run Bench.environment past m ∧ m.AtRest ∧ m.pool.closed = false ∧
      m.pool.registry.entries = [1] ∧
      (m.pool.returned = [] ∧ m.pool.vacated = [] ∧ m.pool.created = m.pool.config.maxSize ∧
        ∀ s < m.pool.config.maxSize, (m.pool.slot s).state = .checkedOut) := by
  have first := ((bench (c := { maxSize := 1 }) rfl).ask (.acquire 0) rfl).steps 40
  have second := (first.ask (.acquire 1) rfl).steps 40
  exact ⟨_, _, second, rfl, rfl, rfl, second.lent_of_line rfl rfl (by decide)⟩

end Run
end ResourcePool
