import ResourcePool.Proofs.Guards

/-!
The queue of a closed pool does not stay filled. While idle resources lie in it, somebody is bound
to empty it, or a call for matching is on its way and the matching will read the closed flag.
-/

namespace ResourcePool

attribute [-simp] Multiset.singleton_add

/-- The idle resources of a closed pool will be closed. -/
def Flushing (p : Pool) (A : Multiset Asset) : Prop :=
  p.closed = true → p.returned ≠ [] → .flusher ∈ A ∨ Alert p.triggers A

namespace Flushing

variable {p q : Pool} {A B : Multiset Asset}

theorem of_open (opened : p.closed = false) : Flushing p A :=
  fun closed => absurd (opened.symm.trans closed) Bool.false_ne_true

theorem of_empty (empty : p.returned = []) : Flushing p A :=
  fun _ filled => absurd empty filled

theorem of_alert (alert : Alert p.triggers A) : Flushing p A :=
  fun _ _ => .inr alert

theorem of_duty (duty : .flusher ∈ A) : Flushing p A :=
  fun _ _ => .inl duty

theorem frame (before : Flushing p A) (closed : q.closed = p.closed)
    (triggers : q.triggers = p.triggers) (returned : p.returned = [] → q.returned = [])
    (others : matchings B = matchings A) (calls : .trigger ∈ A → .trigger ∈ B)
    (duty : .flusher ∈ A → .flusher ∈ B) : Flushing q B := by
  intro shut filled
  refine (before (closed ▸ shut) fun empty => filled (returned empty)).imp duty fun alert => ?_
  unfold Alert
  rw [others, triggers]
  exact alert.imp_left calls

theorem frameLine (before : Flushing p A) (same : p.SameStock q)
    (others : matchings B = matchings A) (calls : .trigger ∈ A → .trigger ∈ B)
    (duty : .flusher ∈ A → .flusher ∈ B) : Flushing q B :=
  before.frame same.closed same.triggers same.returned.trans others calls duty

theorem frameAssets (before : Flushing p A) (others : matchings B = matchings A)
    (calls : .trigger ∈ A → .trigger ∈ B) (duty : .flusher ∈ A → .flusher ∈ B) : Flushing p B :=
  before.frame rfl rfl id others calls duty

end Flushing

theorem Alert.of_matching (n : Nat) (stage : Stage) {triggers : Nat} {A : Multiset Asset}
    (inside : .matcher n stage ∈ A) (goesOn : stage ≠ .over) : Alert triggers A :=
  .inr ⟨n, stage, mem_matchings.2 inside, fun ended => absurd ended goesOn⟩

theorem Move.flushing {gone : Prop} {b c : Books} (move : Move gone b c)
    (matching : Matching b.pool b.assets) (before : Flushing b.pool b.assets) :
    Flushing c.pool c.assets := by
  cases move with
  | enroll opened => exact .of_open opened
  | turnAway closed =>
      exact before.frameLine b.pool.turnAway_sameStock (by simp) (by simp) (by simp)
  | withdraw => exact .of_alert (.inl (by simp))
  | forgo held => exact before.frameAssets (by simp [held]) (by simp [held]) (by simp [held])
  | @hangUp w A held =>
      refine before.frameLine (b.pool.hangUp_sameStock w) ?_ ?_ ?_ <;>
        simp only [held] <;> split <;> simp
  | @see a o p A held found =>
      refine before.frameLine (Pool.sameStock_of_received found).1 ?_ ?_ ?_ <;>
        simp only [held] <;> split <;> simp
  | foretell held =>
      exact before.frameAssets (by simp [held]) (by simp [held]) (by simp [held])
  | @send w f c i A held =>
      refine before.frameLine (b.pool.complete_sameStock w _) ?_ ?_ ?_ <;>
        simp only [held] <;> split <;> simp
  | sendError held =>
      exact before.frameLine (Pool.complete_sameStock ..) (by simp [held]) (by simp [held])
        (by simp [held])
  | abandon held =>
      exact before.frameLine (Pool.modifyWaiter_sameStock ..) (by simp [held]) (by simp [held])
        (by simp [held])
  | @trigger A held =>
      obtain ⟨none, zero⟩ | ⟨n, stage, one, positive, bound⟩ := matching.single
      · simp only [zero, if_true]
        exact .of_alert (.of_matching 1 .seeking (by simp) (by simp))
      · -- The matching in progress answers for fewer calls than there are now.
        have started : b.pool.triggers ≠ 0 := by omega
        simp only [held, matchings_add, matchings_singleton, Asset.matching?, Option.elim_none,
          zero_add] at one
        simp only [started, if_false]
        exact .of_alert (.inr ⟨n, stage, by simp [one], fun _ => by simp only; omega⟩)
  | rest held idle =>
      obtain ⟨_, duty⟩ | ⟨opened, _⟩ | exhausted := idle
      · exact .of_duty (by simp [duty])
      · exact .of_open opened
      · exact .of_empty exhausted.returned
  | @again n A held =>
      obtain ⟨positive, bound, others⟩ := (held ▸ matching).alone
      by_cases done : b.pool.triggers - n = 0
      · simp only [done, if_true]
        intro closed filled
        obtain duty | call | ⟨k, stage, inside, later⟩ := before closed filled
        · exact .inl (by simpa [held] using duty)
        · exact .inr (.inl (by simpa [held] using call))
        · simp only [held, matchings_add, others, add_zero, matchings_singleton, Asset.matching?,
            Option.elim_some, Multiset.mem_singleton, Prod.mk.injEq] at inside
          have := later inside.2
          omega
      · simp only [done, if_false]
        exact .of_alert (.of_matching (b.pool.triggers - n) .seeking (by simp) (by simp))
  | choose chosen =>
      exact before.frameLine (Pool.pick_sameStock chosen) (by simp) (by simp) (by simp)
  | miss missed => exact before.frameLine (Pool.pick_sameStock missed) rfl id id
  | @reserve n r p A held reserved =>
      exact .of_alert (.of_matching n (.filling r) (by simp) (by simp))
  | @unreserve n r A held | @create n r A held =>
      exact .of_alert (.of_matching n .seeking (by simp) (by simp))
  | lend held lent =>
      obtain ⟨_, rfl⟩ := Pool.lend?_eq_some lent
      exact before.frame rfl rfl id (by simp [held]) (by simp [held]) (by simp [held])
  | takeBack held taken =>
      obtain ⟨_, rfl⟩ := Pool.takeBack?_eq_some taken
      exact before.frame rfl rfl id (by simp [held]) (by simp [held]) (by simp [held])
  | queue held noticed =>
      obtain awake | ⟨opened, _⟩ := noticed
      · exact .of_alert (awake.alert _)
      · exact .of_open opened
  | pop popped =>
      obtain ⟨rest, queue, rfl⟩ := Pool.popReturned?_eq_some popped
      refine before.frame rfl rfl (fun empty => ?_) (by simp) (by simp) (by simp)
      exact absurd (queue.symm.trans empty) (by simp)
  | vacate held | detach held | shut held =>
      exact before.frame rfl rfl id (by simp [held]) (by simp [held]) (by simp [held])
  | dismissAll => exact before.frameLine b.pool.dismissAll_sameStock rfl id id
  | close => exact .of_duty (by simp)
  | callTrigger => exact .of_alert (.inl (by simp))
  | takeDuty => exact .of_duty (by simp)
  | leaveDuty _ empty => exact .of_empty empty
  | tearDown => exact before.frameAssets (by simp) (by simp) (by simp)
  | lendMisfit held | takeBackMisfit held | spend held | oust held | finishTearDown held
  | execute held =>
      exact before.frameAssets (by simp [held]) (by simp [held]) (by simp [held])

namespace Run

variable {σ : Type} {e : Environment σ} {past : List (Machine σ)} {m : Machine σ}

theorem flushing (run : Run e past m) : Flushing m.pool m.assets := by
  have kept := run.keeps (I := fun b => Sound b ∧ Flushing b.pool b.assets)
    (fun c => ⟨Books.start_sound c, .of_open rfl⟩)
    fun move before => ⟨move.sound before.1, move.flushing before.1.matching before.2⟩
  simpa [Machine.books] using kept.2

/-- Whenever nothing is in progress, the queue of a closed pool is empty. -/
theorem returned_of_closed (run : Run e past m) (rest : m.AtRest) (closed : m.pool.closed = true) :
    m.pool.returned = [] := by
  by_contra filled
  obtain duty | alert := run.flushing closed filled
  · cases rest.still duty
  · exact rest.not_alert _ alert

end Run
end ResourcePool
