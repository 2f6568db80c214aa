import ResourcePool.Proofs.Effects
import ResourcePool.Proofs.Step

/-!
Calls for matching are not lost. At most one matching is in progress at a time, it answers for calls
that were counted, and while somebody is in line and something could be handed out, a call for
matching is on its way or the matching in progress will look again.
-/

namespace ResourcePool

attribute [-simp] Multiset.singleton_add

@[simp] def Asset.matching? : Asset → Option (Nat × Stage)
  | matcher answered stage => some (answered, stage)
  | _ => none

def matchings (A : Multiset Asset) : Multiset (Nat × Stage) :=
  A.filterMap Asset.matching?

@[simp] theorem matchings_add (A B : Multiset Asset) :
    matchings (A + B) = matchings A + matchings B :=
  Multiset.filterMap_add ..

@[simp] theorem matchings_singleton (a : Asset) :
    matchings {a} = a.matching?.elim 0 singleton :=
  filterMap_singleton ..

theorem mem_matchings {n : Nat} {stage : Stage} {A : Multiset Asset} :
    (n, stage) ∈ matchings A ↔ .matcher n stage ∈ A := by
  unfold matchings
  rw [Multiset.mem_filterMap]
  constructor
  · rintro ⟨a, inside, found⟩
    cases a <;> simp at found
    obtain ⟨rfl, rfl⟩ := found
    exact inside
  · exact fun inside => ⟨_, inside, rfl⟩

/-- Somebody is in line while there is something to hand out. -/
structure Pool.Unmatched (p : Pool) : Prop where
  opened : p.closed = false
  line : p.registry.entries ≠ []
  stock : ¬p.Exhausted

/-- The line and the stock will be looked at once more. -/
def Alert (triggers : Nat) (A : Multiset Asset) : Prop :=
  .trigger ∈ A ∨ ∃ n stage, (n, stage) ∈ matchings A ∧ (stage = .over → n < triggers)

theorem Awake.alert {A : Multiset Asset} (awake : Awake A) (triggers : Nat) :
    Alert triggers A := by
  obtain call | ⟨n, inside⟩ := awake
  · exact .inl call
  · exact .inr ⟨n, .seeking, mem_matchings.2 inside, by simp⟩

theorem Pool.Exhausted.of_eq {p q : Pool} (exhausted : p.Exhausted)
    (returned : q.returned = p.returned) (vacated : q.vacated = p.vacated)
    (created : q.created = p.created) (slots : q.slots.length = p.slots.length) :
    q.Exhausted :=
  ⟨returned.trans exhausted.returned, vacated.trans exhausted.vacated,
    by rw [slots, created]; exact exhausted.created⟩

theorem Pool.Exhausted.modifySlot {p : Pool} (exhausted : p.Exhausted) (i : Nat)
    (f : Slot → Slot) : (p.modifySlot i f).Exhausted :=
  exhausted.of_eq rfl rfl rfl (List.length_modify ..)

structure Matching (p : Pool) (A : Multiset Asset) : Prop where
  single : matchings A = 0 ∧ p.triggers = 0 ∨
    ∃ n stage, matchings A = {(n, stage)} ∧ 0 < n ∧ n ≤ p.triggers
  noticed : p.Unmatched → Alert p.triggers A

namespace Matching

variable {p q : Pool} {A B : Multiset Asset}

theorem frame (matching : Matching p A) (same : matchings B = matchings A)
    (triggers : q.triggers = p.triggers)
    (noticed : q.Unmatched → Alert q.triggers B ∨ p.Unmatched ∧ (.trigger ∈ A → .trigger ∈ B)) :
    Matching q B := by
  refine ⟨?_, fun unmatched => ?_⟩
  · rw [same, triggers]
    exact matching.single
  · obtain alert | ⟨before, calls⟩ := noticed unmatched
    · exact alert
    · unfold Alert
      rw [same, triggers]
      exact (matching.noticed before).imp_left calls

theorem alone {n : Nat} {stage : Stage} (matching : Matching p ({.matcher n stage} + A)) :
    0 < n ∧ n ≤ p.triggers ∧ matchings A = 0 := by
  obtain ⟨none, _⟩ | ⟨k, s, one, positive, bound⟩ := matching.single
  · simp at none
  · simp at one
    obtain ⟨⟨rfl, rfl⟩, none⟩ := one
    exact ⟨positive, bound, none⟩

theorem restage {n : Nat} {s t : Stage} (matching : Matching p ({.matcher n s} + A))
    (triggers : q.triggers = p.triggers) (noticed : q.Unmatched → t ≠ .over) :
    Matching q ({.matcher n t} + A) := by
  obtain ⟨positive, bound, others⟩ := matching.alone
  refine ⟨.inr ⟨n, t, by simp [others], positive, triggers ▸ bound⟩, fun unmatched => ?_⟩
  exact .inr ⟨n, t, by simp, fun last => absurd last (noticed unmatched)⟩

end Matching

theorem Pool.SameStock.unmatched {p q : Pool} (same : p.SameStock q)
    (line : ∀ w ∈ q.registry.entries, w ∈ p.registry.entries) (unmatched : q.Unmatched) :
    p.Unmatched := by
  refine ⟨same.closed ▸ unmatched.opened, fun empty => unmatched.line ?_, fun exhausted => ?_⟩
  · exact List.eq_nil_iff_forall_not_mem.2 fun w inside => by simpa [empty] using line w inside
  · exact unmatched.stock ⟨same.returned.trans exhausted.returned,
      same.vacated.trans exhausted.vacated, by rw [same.slots, same.created]; exact exhausted.created⟩

theorem Pool.SameLine.unmatched {p q : Pool} (same : p.SameLine q)
    (stock : p.Exhausted → q.Exhausted) (unmatched : q.Unmatched) : p.Unmatched :=
  ⟨same.closed ▸ unmatched.opened, same.registry ▸ unmatched.line,
    fun exhausted => unmatched.stock (stock exhausted)⟩

namespace Matching

variable {p q : Pool} {A B : Multiset Asset}

theorem frameLine (before : Matching p A) (same : p.SameStock q)
    (line : ∀ w ∈ q.registry.entries, w ∈ p.registry.entries)
    (others : matchings B = matchings A) (calls : .trigger ∈ A → .trigger ∈ B) : Matching q B :=
  before.frame others same.triggers fun unmatched => .inr ⟨same.unmatched line unmatched, calls⟩

theorem frameStock (before : Matching p A) (same : p.SameLine q)
    (stock : p.Exhausted → q.Exhausted) (others : matchings B = matchings A)
    (calls : .trigger ∈ A → .trigger ∈ B) : Matching q B :=
  before.frame others same.triggers fun unmatched => .inr ⟨same.unmatched stock unmatched, calls⟩

theorem frameAssets (before : Matching p A) (others : matchings B = matchings A)
    (calls : .trigger ∈ A → .trigger ∈ B) : Matching p B :=
  before.frame others rfl fun unmatched => .inr ⟨unmatched, calls⟩

theorem frameAwake (before : Matching p A) (triggers : q.triggers = p.triggers)
    (others : matchings B = matchings A) (awake : Awake B) : Matching q B :=
  before.frame others triggers fun _ => .inl (awake.alert q.triggers)

/-- A call for matching is counted; it starts matching if nobody matches. -/
theorem trigger (before : Matching p ({.trigger} + A)) :
    Matching { p with triggers := p.triggers + 1 }
      (if p.triggers = 0 then {.matcher 1 .seeking} + A else A) := by
  obtain ⟨none, zero⟩ | ⟨n, stage, one, positive, bound⟩ := before.single
  · simp at none
    simp only [zero, if_true]
    refine ⟨.inr ⟨1, .seeking, by simp [none], by simp⟩, fun _ => ?_⟩
    exact .inr ⟨1, .seeking, by simp, by simp⟩
  · -- The matching in progress answers for fewer calls than there are now.
    simp at one
    have started : p.triggers ≠ 0 := by omega
    simp only [started, if_false]
    refine ⟨.inr ⟨n, stage, one, positive, by simp only; omega⟩, fun _ => ?_⟩
    exact .inr ⟨n, stage, by simp [one], fun _ => by simp only; omega⟩

/-- The end of a round: calls that came meanwhile begin another one. -/
theorem again {n : Nat} (before : Matching p ({.matcher n .over} + A)) :
    Matching { p with triggers := p.triggers - n }
      (if p.triggers - n = 0 then A else {.matcher (p.triggers - n) .seeking} + A) := by
  obtain ⟨positive, bound, others⟩ := before.alone
  by_cases done : p.triggers - n = 0
  · simp only [done, if_true]
    refine ⟨.inl ⟨others, rfl⟩, fun unmatched => ?_⟩
    have unmatched' : p.Unmatched := ⟨unmatched.opened, unmatched.line, fun exhausted =>
      unmatched.stock (exhausted.of_eq rfl rfl rfl rfl)⟩
    -- No call came meanwhile, so if somebody was left in line a call is on its way.
    obtain call | ⟨k, stage, inside, later⟩ := before.noticed unmatched'
    · exact .inl (by simpa using call)
    · simp only [matchings_add, others, add_zero, matchings_singleton, Asset.matching?,
        Option.elim_some, Multiset.mem_singleton, Prod.mk.injEq] at inside
      have := later inside.2
      omega
  · simp only [done, if_false]
    refine ⟨.inr ⟨p.triggers - n, .seeking, by simp [others], by omega, le_rfl⟩, fun _ => ?_⟩
    exact .inr ⟨p.triggers - n, .seeking, by simp, by simp⟩

end Matching

namespace Move

variable {gone : Prop} {b c : Books}

theorem matching (move : Move gone b c) (before : Matching b.pool b.assets) :
    Matching c.pool c.assets := by
  cases move with
  | enroll opened =>
      exact before.frameAwake (by rfl) (by simp) (.inl (by simp))
  | turnAway closed =>
      exact before.frameLine b.pool.turnAway_sameStock (fun _ inside => inside) (by simp)
        (by simp)
  | withdraw held attached pending =>
      exact before.frameAwake (Pool.cancel?_sameStock pending).triggers (by simp [held])
        (.inl (by simp))
  | forgo held late => exact before.frameAssets (by simp [held]) (by simp [held])
  | @hangUp waiter A held =>
      refine before.frameLine (b.pool.hangUp_sameStock waiter) (by simp) ?_ ?_ <;>
        simp only [held] <;> split <;> simp
  | @see a o p A held found =>
      obtain ⟨same, registry⟩ := Pool.sameStock_of_received found
      refine before.frameLine same (by simp [registry]) ?_ ?_ <;>
        simp only [held] <;> split <;> simp
  | foretell held follows => exact before.frameAssets (by simp [held]) (by simp [held])
  | @send waiter f fs i A held answer =>
      refine before.frameLine (b.pool.complete_sameStock waiter _) (by simp) ?_ ?_ <;>
        simp only [held] <;> split <;> simp
  | @sendError waiter f fs e A held answer =>
      exact before.frameLine (b.pool.complete_sameStock waiter _) (by simp) (by simp [held])
        (by simp [held])
  | @abandon waiter i A held =>
      exact before.frameLine (b.pool.modifyWaiter_sameStock waiter _) (fun _ inside => inside)
        (by simp [held]) (by simp [held])
  | trigger held => exact (held ▸ before).trigger
  | rest held idle =>
      refine (held ▸ before).restage rfl fun unmatched _ => ?_
      obtain ⟨closed, _⟩ | ⟨_, empty⟩ | exhausted := idle
      · exact absurd (closed.symm.trans unmatched.opened) (by simp)
      · exact unmatched.line empty
      · exact unmatched.stock exhausted
  | again held => exact (held ▸ before).again
  | choose chosen =>
      exact before.frameLine (Pool.pick_sameStock chosen)
        (fun _ => Pool.mem_of_mem_pick chosen) (by simp) (by simp)
  | miss missed =>
      exact before.frameLine (Pool.pick_sameStock missed) (fun _ => Pool.mem_of_mem_pick missed)
        rfl id
  | reserve held reserved =>
      exact (held ▸ before).restage (Pool.reserve?_sameLine reserved).triggers (by simp)
  | @unreserve n r A held =>
      exact (held ▸ before).restage (b.pool.unreserve_sameLine r).triggers (by simp)
  | @create n r A held =>
      have created := (held ▸ before).restage (q := b.pool.occupy r) (t := .seeking)
        (b.pool.occupy_sameLine r).triggers (by simp)
      exact created.frameAssets (by simp) (by simp)
  | lend held lent =>
      obtain ⟨_, rfl⟩ := Pool.lend?_eq_some lent
      exact before.frameStock (Pool.lend?_sameLine lent) (fun exhausted => exhausted.modifySlot ..)
        (by simp [held]) (by simp [held])
  | lendMisfit held misfit => exact before.frameAssets (by simp [held]) (by simp [held])
  | takeBack held taken =>
      obtain ⟨_, rfl⟩ := Pool.takeBack?_eq_some taken
      exact before.frameStock (Pool.takeBack?_sameLine taken)
        (fun exhausted => exhausted.modifySlot ..) (by simp [held]) (by simp [held])
  | takeBackMisfit held misfit => exact before.frameAssets (by simp [held]) (by simp [held])
  | queue held noticed =>
      refine before.frame (by simp [held]) rfl fun unmatched => .inl ?_
      obtain awake | ⟨_, empty⟩ := noticed
      · exact awake.alert _
      · exact absurd empty unmatched.line
  | pop popped =>
      obtain ⟨rest, queue, rfl⟩ := Pool.popReturned?_eq_some popped
      refine before.frameStock (Pool.popReturned?_sameLine popped) (fun exhausted => ?_)
        (by simp) (by simp)
      exact absurd (queue.symm.trans exhausted.returned) (by simp)
  | spend held => exact before.frameAssets (by simp [held]) (by simp [held])
  | vacate held noticed => exact before.frameAwake rfl (by simp [held]) noticed
  | detach held noticed => exact before.frameAwake rfl (by simp [held]) noticed
  | shut held mayClose =>
      exact before.frameStock (b.pool.modifySlot_sameLine _ _)
        (fun exhausted => exhausted.modifySlot ..) (by simp [held]) (by simp [held])
  | oust held => exact before.frameAssets (by simp [held]) (by simp [held])
  | dismissAll duty =>
      exact before.frameLine b.pool.dismissAll_sameStock (by simp) rfl id
  | close opened =>
      exact before.frame (by simp) rfl fun unmatched => absurd unmatched.opened (by simp)
  | callTrigger => exact before.frameAwake rfl (by simp) (.inl (by simp))
  | takeDuty closed => exact before.frameAssets (by simp) (by simp)
  | leaveDuty held _ => exact before.frameAssets (by simp [held]) (by simp [held])
  | tearDown => exact before.frameAssets (by simp) (by simp)
  | finishTearDown held => exact before.frameAssets (by simp [held]) (by simp [held])
  | execute held executed => exact before.frameAssets (by simp [held]) (by simp [held])

end Move

end ResourcePool
