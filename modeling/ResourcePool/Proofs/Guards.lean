import ResourcePool.Proofs.Invariant
import ResourcePool.Proofs.References

/-!
The loans of a pool, wherever they are: with a caller, in a queued delivery, on their way in the
middle of an operation, or in an outcome that was not taken yet. They are part of the stock. When
nothing is in progress, the stock is made up of them and of what lies in the queues.
-/

namespace ResourcePool

attribute [-simp] Multiset.singleton_add

theorem filterMap_sum_map {α β γ : Type} {f : β → Option γ} {g : α → Multiset β}
    {k : α → Option γ} {l : List α}
    (each : ∀ a ∈ l, (g a).filterMap f = (k a).elim 0 singleton) :
    (l.map g).sum.filterMap f = (l.filterMap k : List γ) := by
  induction l with
  | nil => rfl
  | cons a l ih =>
      rw [List.map_cons, List.sum_cons, Multiset.filterMap_add, coe_filterMap_cons,
        each a (List.mem_cons_self ..), ih fun b member => each b (List.mem_cons_of_mem a member)]

@[simp] def Asset.guard? : Asset → Option Item
  | guard i => some i
  | _ => none

def Handle.guard? : Handle → Option Item
  | guard i => some i
  | _ => none

def Call.guard? : Call → Option Item
  | schedule t => some t.item
  | _ => none

def Activity.guard? : Activity → Option Item
  | put _ x => x.guard?
  | giveBack i => some i
  | call c | answer c => c.guard?
  | task t | deliver t => some t.item
  | _ => none

namespace Machine

variable {σ : Type}

/-- All loans. -/
def guards (m : Machine σ) : List Item :=
  m.activities.filterMap Activity.guard? ++ m.handles.entries.filterMap (fun e => e.2.guard?) ++
    m.tasks.map Task.item ++ m.pool.waiters.filterMap Waiter.parcel?

end Machine

theorem Handle.filterMap_guard? (x : Handle) :
    x.assets.filterMap Asset.guard? = x.guard?.elim 0 singleton := by
  obtain a | _ | i | r := x
  · simp [guard?]
  · next g => cases g <;> simp [guard?]
  · simp [guard?]
  · simp [guard?]

theorem Call.filterMap_guard? (c : Call) :
    c.before.filterMap Asset.guard? = c.guard?.elim 0 singleton ∧
      c.during.filterMap Asset.guard? = c.guard?.elim 0 singleton := by
  obtain _ | ⟨i, check⟩ | ⟨i, why⟩ | t := c
  · simp [guard?]
  · cases check <;> simp [guard?]
  · obtain check | _ | _ | _ | _ := why
    · cases check <;> simp [guard?]
    all_goals simp [guard?]
  · simp [guard?]

theorem Activity.filterMap_guard? (a : Activity) :
    a.assets.filterMap Asset.guard? = a.guard?.elim 0 singleton := by
  cases a with
  | acquire p | acquired _ p => cases p <;> simp [guard?]
  | put k x => exact x.filterMap_guard?
  | round n inHand => cases inHand <;> simp [guard?]
  | call c => exact c.filterMap_guard?.1
  | answer c => exact c.filterMap_guard?.2
  | _ => simp [guard?]

namespace Machine

variable {σ : Type} {m : Machine σ}

/-- The loans are the ones in the books and those that wait for a listener. -/
theorem coe_guards (m : Machine σ) :
    (m.guards : Multiset Item) = m.assets.filterMap Asset.guard? + m.pool.parcels := by
  have back : m.background.assets.filterMap Asset.guard? = 0 := by
    cases m.background <;> simp
  have active (as : List Activity) : (held as).filterMap Asset.guard? =
      (as.filterMap Activity.guard? : List Item) :=
    filterMap_sum_map fun a _ => a.filterMap_guard?
  have handles : m.handles.assets.filterMap Asset.guard? =
      (m.handles.entries.filterMap fun e => e.2.guard? : List Item) :=
    filterMap_sum_map fun e _ => e.2.filterMap_guard?
  have tasks : (m.tasks.map Task.assets).sum.filterMap Asset.guard? =
      (m.tasks.filterMap (some ∘ Task.item) : List Item) :=
    filterMap_sum_map fun t _ => by simp
  rw [assets, Multiset.filterMap_add, Multiset.filterMap_add, Multiset.filterMap_add,
    Multiset.filterMap_add, active, active, handles, tasks, back, List.filterMap_eq_map]
  simp only [guards, activities, List.filterMap_append, ← Multiset.coe_add, add_zero, Pool.parcels]

theorem lent_le_stock (m : Machine σ) (h : History) :
    (m.guards.map Item.lent : Multiset Holding) ≤ (m.books 0 h).stock := by
  -- Asset by asset: a loan counts on both sides, anything else at most on the right.
  have held : (m.assets.filterMap Asset.guard?).map Item.lent ≤ holdings m.assets := by
    induction m.assets using Multiset.induction with
    | empty => exact le_rfl
    | cons a A ih =>
        rw [← Multiset.singleton_add, holdings_add, Multiset.filterMap_add, Multiset.map_add]
        refine add_le_add ?_ ih
        cases a with
        | guard i => simp
        | _ =>
            simp only [filterMap_singleton, Asset.guard?, Option.elim_none, Multiset.map_zero]
            exact Multiset.zero_le _
  have parcels : m.pool.parcels.map Item.lent ≤ m.pool.holdings :=
    Multiset.le_add_left ..
  rw [← Multiset.map_coe, coe_guards, Multiset.map_add, Books.stock, books, zero_add]
  exact add_le_add held parcels

end Machine

theorem mem_sum_map {α β : Type} {f : α → Multiset β} {l : List α} {b : β} :
    b ∈ (l.map f).sum ↔ ∃ a ∈ l, b ∈ f a := by
  induction l with
  | nil => simp
  | cons a l ih => simp [ih]

/-- What is held while nothing is in progress. -/
inductive Asset.Still : Asset → Prop
  | guard (i : Item) : Still (.guard i)
  | listener (a : Acquire) : Still (.listener a)
  | sender (waiter : Nat) (i : Item) : Still (.sender waiter [.entrusted i])
  | permit : Still .permit

theorem Handle.still {x : Handle} {a : Asset} (member : a ∈ x.assets) : a.Still := by
  obtain b | (_ | ⟨b, deadline⟩) | i | r := x <;> simp at member <;> subst member <;> constructor

theorem Task.still {t : Task} {a : Asset} (member : a ∈ t.assets) : a.Still := by
  simp only [Task.assets, Multiset.mem_add, Multiset.mem_singleton] at member
  obtain rfl | rfl := member <;> constructor

theorem Background.still {b : Background} {a : Asset} (member : a ∈ b.assets) : a.Still := by
  cases b <;> simp at member
  · subst member
    exact .permit
  · obtain rfl | rfl := member <;> constructor

namespace Machine.AtRest

variable {σ : Type} {m : Machine σ} (rest : m.AtRest)
include rest

theorem assets :
    m.assets = m.handles.assets + (m.tasks.map Task.assets).sum + m.background.assets := by
  simp only [Machine.assets, rest.stack, rest.paused, held_nil, zero_add]

theorem mem_assets {a : Asset} :
    a ∈ m.assets ↔ (∃ e ∈ m.handles.entries, a ∈ e.2.assets) ∨ (∃ t ∈ m.tasks, a ∈ t.assets) ∨
      a ∈ m.background.assets := by
  rw [rest.assets, Multiset.mem_add, Multiset.mem_add, Table.assets, mem_sum_map, mem_sum_map,
    or_assoc]

theorem still {a : Asset} (member : a ∈ m.assets) : a.Still := by
  obtain ⟨e, _, inside⟩ | ⟨t, _, inside⟩ | inside := rest.mem_assets.1 member
  · exact Handle.still inside
  · exact Task.still inside
  · exact Background.still inside

theorem not_alert (triggers : Nat) : ¬Alert triggers m.assets := by
  rintro (call | ⟨n, stage, inside, _⟩)
  · cases rest.still call
  · cases rest.still (mem_matchings.1 inside)

/-- The stock lies in the queues or is on loan. -/
theorem stock (h : History) :
    (m.books 0 h).stock = (m.guards.map Item.lent : List Holding) +
      (m.pool.returned.map Item.stored : List Holding) +
      (m.pool.vacated.map Holding.free : List Holding) := by
  have held : holdings m.assets = (m.assets.filterMap Asset.guard?).map Item.lent := by
    have still : ∀ a ∈ m.assets, a.Still := fun _ => rest.still
    rw [Multiset.map_filterMap, holdings]
    generalize m.assets = A at still
    induction A using Multiset.induction with
    | empty => rfl
    | cons a A ih =>
        rw [← Multiset.singleton_add, Multiset.filterMap_add, Multiset.filterMap_add,
          ih fun b member => still b (Multiset.mem_cons_of_mem member)]
        cases still a (Multiset.mem_cons_self a A) <;> simp
  have lent : (m.guards.map Item.lent : Multiset Holding) =
      (m.guards : Multiset Item).map Item.lent := (Multiset.map_coe ..).symm
  rw [lent, coe_guards, Multiset.map_add, Books.stock, books, zero_add, held, Pool.holdings]
  abel

/-- Who will answer a request is a queued delivery. -/
theorem courses (w : Nat) : m.assets.filterMap (Asset.course? w) =
    ((m.tasks.filter fun t => t.waiter = w).map fun t => [Fate.entrusted t.item] :
      List (List Fate)) := by
  have handles : m.handles.assets.filterMap (Asset.course? w) =
      (m.handles.entries.filterMap fun _ => none : List (List Fate)) := by
    refine filterMap_sum_map fun e _ => ?_
    obtain ⟨_, a | (_ | ⟨a, deadline⟩) | i | r⟩ := e <;> simp
  have tasks : (m.tasks.map Task.assets).sum.filterMap (Asset.course? w) =
      (m.tasks.filterMap fun t => if t.waiter = w then some [Fate.entrusted t.item] else none :
        List (List Fate)) :=
    filterMap_sum_map fun t _ => by simp
  have back : m.background.assets.filterMap (Asset.course? w) = 0 := by
    cases m.background <;> simp
  rw [rest.assets, Multiset.filterMap_add, Multiset.filterMap_add, handles, tasks, back]
  simp [← List.filterMap_eq_map, List.filterMap_filter]

end Machine.AtRest
end ResourcePool
