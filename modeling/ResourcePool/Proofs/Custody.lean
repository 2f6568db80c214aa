import ResourcePool.Proofs.Capacity

/-!
The pool passes resources on as they are. However often a resource comes back, is queued, is checked,
is handed on or waits for somebody to take it, the statements it keeps are those that the holders of
its loans executed on it, in their order, and it is in the slot it was made for. A move makes a new
resource, or has a holder execute a statement on one, or leaves all resources unaltered.
-/

namespace ResourcePool

attribute [-simp] Multiset.singleton_add

namespace Deed

@[simp] def statement? (id : Nat) : Deed → Option String
  | executed i s => if i = id then some s else none
  | _ => none

end Deed

namespace History

/-- The statements executed on a resource by the holders of its loans, the latest first. -/
def statements (h : History) (id : Nat) : List String :=
  h.filterMap (Deed.statement? id)

@[simp] theorem statements_cons (h : History) (d : Deed) (id : Nat) :
    statements (d :: h) id = (d.statement? id).toList ++ h.statements id :=
  filterMap_cons_toList ..

end History

theorem Resource.execute_eq_ok {r r' : Resource} {s : String} {n : Nat}
    (executed : r.execute s = .ok (n, r')) : r' = { r with executed := r.executed ++ [s] } := by
  unfold execute at executed
  split at executed
  · cases executed
  · exact (Prod.mk.inj (Except.ok.inj executed)).2.symm

/-- The resources that the pool answers for, wherever they are. -/
def Books.resources (b : Books) : Multiset Resource :=
  b.stock.filterMap Holding.resource

/-- What a move does to the resources. -/
inductive Treats (b c : Books) : Prop
  | passes (kept : c.resources ≤ b.resources) (made : c.made = b.made)
      (silent : ∀ id, c.history.statements id = b.history.statements id)
  | makes (slot : Nat) (new : c.resources = {{ id := b.made, slot }} + b.resources)
      (made : c.made = b.made + 1) (silent : ∀ id, c.history.statements id = b.history.statements id)
  | executes {r : Resource} {s : String} {S : Multiset Resource} (old : b.resources = {r} + S)
      (new : c.resources = {{ r with executed := r.executed ++ [s] }} + S) (made : c.made = b.made)
      (history : c.history = .executed r.id s :: b.history)

/-- The resources are where they were. -/
theorem Treats.of_stock {b c : Books} (stock : c.stock = b.stock) (made : c.made = b.made)
    (silent : ∀ id, c.history.statements id = b.history.statements id) : Treats b c :=
  .passes (congrArg (Multiset.filterMap Holding.resource) stock).le made silent

theorem Move.treats {gone : Prop} {b c : Books} (move : Move gone b c)
    (standings : Standings b.pool b.ties) : Treats b c := by
  have dismissals (ws : List Nat) (id : Nat) :
      History.statements (ws.map (fun w => .fate w .dismissed) ++ b.history) id =
        b.history.statements id :=
    Standings.filterMap_dismissals _ (fun _ => rfl) ..
  cases move with
  | enroll => exact .of_stock (b.stock_enroll _) rfl fun _ => rfl
  | turnAway => exact .of_stock (b.stock_turnAway _) rfl (by simp)
  | withdraw held _ pending =>
      exact .of_stock (Books.stock_withdraw standings held pending) rfl (by simp)
  | hangUp held => exact .of_stock (Books.stock_hangUp held) rfl fun _ => rfl
  | @see a o p A held found =>
      refine .of_stock ?_ rfl (by simp)
      cases o <;> exact Books.stock_see held found
  | send held => exact .of_stock (Books.stock_send standings held) rfl fun _ => rfl
  | sendError held => exact .of_stock (Books.stock_sendError standings held _) rfl fun _ => rfl
  | abandon held => exact .of_stock (Books.stock_abandon standings held) rfl (by simp)
  | choose picked =>
      exact .of_stock (.trans (by simp [Books.stock]) (Books.stock_pick picked)) rfl fun _ => rfl
  | miss picked => exact .of_stock (Books.stock_pick picked) rfl fun _ => rfl
  | dismissAll => exact .of_stock (Books.stock_dismissAll standings) rfl (dismissals _)
  | trigger held => exact .of_stock (Books.stock_trigger held _) rfl fun _ => rfl
  | again held => exact .of_stock (Books.stock_again held _) rfl fun _ => rfl
  | reserve held reserved => exact .of_stock (Books.stock_reserve held reserved) rfl fun _ => rfl
  | unreserve held => exact .of_stock (Books.stock_unreserve held) rfl fun _ => rfl
  | queue held => exact .of_stock (Books.stock_queue held) rfl fun _ => rfl
  | pop popped => exact .of_stock (Books.stock_pop popped) rfl fun _ => rfl
  | forgo held | foretell held | rest held | leaveDuty held | finishTearDown held =>
      exact .of_stock (by simp [Books.stock, held]) rfl (by simp)
  | callTrigger | takeDuty | tearDown => exact .of_stock (by simp [Books.stock]) rfl fun _ => rfl
  | close =>
      refine .of_stock ?_ rfl fun _ => rfl
      simp [Books.stock]
      rfl
  | @create n r A held =>
      refine .makes r.slot ?_ rfl (by simp)
      cases r <;> simp [Books.resources, Books.stock, held, Holding.free, Item.stored, add_assoc]
  | @lend i p A held lent =>
      obtain ⟨-, rfl⟩ := Pool.lend?_eq_some lent
      refine .passes (le_of_eq ?_) rfl fun _ => rfl
      simp [Books.resources, Books.stock, held, Item.lent, Item.stored]
  | @takeBack i p A held taken =>
      obtain ⟨-, rfl⟩ := Pool.takeBack?_eq_some taken
      refine .passes (le_of_eq ?_) rfl fun _ => rfl
      simp [Books.resources, Books.stock, held, Item.lent, Item.stored]
  | lendMisfit held | takeBackMisfit held | shut held =>
      refine .passes (le_of_eq ?_) rfl fun _ => rfl
      simp [Books.resources, Books.stock, held, Item.lent, Item.stored, Item.ousted]
  | vacate held =>
      refine .passes (le_of_eq ?_) rfl fun _ => rfl
      simp [Books.resources, Books.stock, held, Holding.spent, Holding.free]
  | @spend i _ held | @detach i _ held | @oust i _ held =>
      refine .passes (le_of_le_of_eq (Multiset.le_add_left _ {i.resource}) ?_) rfl (by simp)
      simp [Books.resources, Books.stock, held, Holding.spent, Holding.free, Item.stored,
        Item.lent, Item.ousted, add_assoc]
  | @execute i s n r A held executed =>
      obtain rfl := Resource.execute_eq_ok executed
      refine .executes (r := i.resource) (s := s)
        (S := (holdings A).filterMap Holding.resource + b.pool.holdings.filterMap Holding.resource)
        ?_ ?_ rfl rfl
      · simp [Books.resources, Books.stock, held, Item.lent, add_assoc]
      · simp [Books.resources, Books.stock, Item.lent, add_assoc]

/-- The resources keep what was executed on them. -/
structure Recorded (b : Books) : Prop where
  logs : ∀ r ∈ b.resources, r.executed = (b.history.statements r.id).reverse
  /-- Nothing was executed on resources that do not exist yet. -/
  unborn : ∀ id, b.made ≤ id → b.history.statements id = []

namespace Accounts

variable {b : Books} (accounts : Accounts b.stock b.made b.history)
include accounts

theorem nodup_resources : (b.resources.map Resource.id).Nodup := by
  have same : b.resources.map Resource.id = b.stock.filterMap Holding.id? :=
    Multiset.map_filterMap ..
  exact same ▸ accounts.nodup_ids

theorem lt_made {r : Resource} (member : r ∈ b.resources) : r.id < b.made := by
  obtain ⟨x, inside, resource⟩ := (Multiset.mem_filterMap ..).1 member
  have alive := List.mem_of_mem_filter (accounts.alive_of_mem inside resource)
  rw [accounts.creations] at alive
  simpa using alive

end Accounts

theorem Treats.recorded {b c : Books} (treats : Treats b c)
    (accounts : Accounts b.stock b.made b.history) (before : Recorded b) : Recorded c := by
  cases treats with
  | passes kept made silent =>
      refine ⟨fun r member => ?_, fun id unmade => ?_⟩
      · rw [silent]
        exact before.logs r (Multiset.mem_of_le kept member)
      · rw [silent]
        exact before.unborn id (made ▸ unmade)
  | makes slot new made silent =>
      refine ⟨fun r member => ?_, fun id unmade => ?_⟩
      · rw [silent]
        obtain here | there := Multiset.mem_add.1 (new ▸ member)
        · obtain rfl := Multiset.mem_singleton.1 here
          rw [before.unborn b.made le_rfl]
          rfl
        · exact before.logs r there
      · rw [silent]
        exact before.unborn id (Nat.le_of_succ_le (made.symm.le.trans unmade))
  | @executes r s S old new made history =>
      have nodup := accounts.nodup_resources
      rw [old, Multiset.map_add, Multiset.map_singleton, Multiset.singleton_add,
        Multiset.nodup_cons] at nodup
      have here : r ∈ b.resources := old ▸ Multiset.mem_add.2 (.inl (Multiset.mem_singleton_self r))
      refine ⟨fun q member => ?_, fun id unmade => ?_⟩
      · rw [history, History.statements_cons]
        obtain same | other := Multiset.mem_add.1 (new ▸ member)
        · obtain rfl := Multiset.mem_singleton.1 same
          simp [before.logs r here]
        · have apart : r.id ≠ q.id := fun same =>
            nodup.1 (same ▸ Multiset.mem_map_of_mem Resource.id other)
          simp [apart, before.logs q (old ▸ Multiset.mem_add.2 (.inr other))]
      · have apart : r.id ≠ id := Nat.ne_of_lt (Nat.lt_of_lt_of_le (accounts.lt_made here)
          (made ▸ unmade))
        simp [history, apart, before.unborn id (made ▸ unmade)]

namespace Run

variable {σ : Type} {e : Environment σ} {past : List (Machine σ)} {m : Machine σ}

theorem recorded (run : Run e past m) : Recorded (m.books 0 (history e past)) := by
  refine (run.keeps (I := fun b => Sound b ∧ Recorded b) (fun c => ⟨Books.start_sound c, ?_⟩)
    fun move before => ⟨move.sound before.1,
      (move.treats before.1.standings).recorded before.1.balanced.accounts before.2⟩).2
  refine ⟨fun r member => ?_, fun _ _ => rfl⟩
  have empty : (Books.start c).resources = 0 := by
    simp [Books.resources, Books.stock, Books.start, Pool.holdings, Pool.parcels, Pool.ofConfig]
  simp [empty] at member

/-- The pool never alters a resource. Whenever there is a loan, wherever it is, its resource keeps
exactly the statements that the holders of its loans executed on it since it was made, in their
order. It is in the slot that it was made for, and it was neither detached nor passed on for
closing. -/
theorem unaltered (run : Run e past m) {i : Item} (lent : i ∈ m.guards) :
    i.resource.executed = ((history e past).statements i.resource.id).reverse ∧
      i.resource.slot = i.slot ∧ i.resource.id ∈ (history e past).alive := by
  have stocked : i.lent ∈ (m.books 0 (history e past)).stock :=
    Multiset.mem_of_le (m.lent_le_stock _) (Multiset.mem_coe.2 (List.mem_map_of_mem lent))
  have place := (run.accounts.origin i.lent stocked i.resource rfl).1
  exact ⟨run.recorded.logs _ ((Multiset.mem_filterMap ..).2 ⟨i.lent, stocked, rfl⟩), place,
    run.accounts.alive_of_mem stocked rfl⟩

/-- Two resources on loan, one of them for the second time. Each holder executed statements, and one
of these was refused. -/
theorem unaltered_two : ∃ (past : List (Machine Bench.Rig)) (m : Machine Bench.Rig) (i j : Item),
    Run Bench.environment past m ∧ m.handles.get? 2 = some (.guard i) ∧ i ∈ m.guards ∧
      m.handles.get? 1 = some (.guard j) ∧ j ∈ m.guards ∧
      i.resource.executed = ["a", "b", "e"] ∧ j.resource.executed = ["c"] ∧
      i.resource.executed =
        ((history Bench.environment past).statements i.resource.id).reverse ∧
      j.resource.executed =
        ((history Bench.environment past).statements j.resource.id).reverse ∧
      i.resource.slot = i.slot ∧ j.resource.slot = j.slot := by
  have asked := (((bench (c := { maxSize := 2 }) rfl).ask (.acquire 0) rfl).steps 40).ask
    (.acquire 1) rfl
  have lent := ((((((asked.steps 40).ask (.run none) rfl).steps 40).ask (.poll 0) rfl).steps 40).ask
    (.poll 1) rfl).steps 40
  have used := ((((((lent.ask (.execute 0 "a") rfl).steps 9).ask (.execute 0 "FAIL") rfl).steps 9).ask
    (.execute 1 "c") rfl).steps 9).ask (.execute 0 "b") rfl
  have again := ((((used.steps 9).ask (.drop 0) rfl).steps 40).ask (.acquire 2) rfl).steps 40
  have held := ((again.ask (.run none) rfl).steps 40).ask (.poll 2) rfl
  have run := ((held.steps 40).ask (.execute 2 "e") rfl).steps 9
  have first := run.unaltered (i := ⟨0, { id := 0, slot := 0, executed := ["a", "b", "e"] }⟩)
    (List.mem_of_getElem? (i := 1) rfl)
  have second := run.unaltered (i := ⟨1, { id := 1, slot := 1, executed := ["c"] }⟩)
    (List.mem_of_getElem? (i := 0) rfl)
  exact ⟨_, _, _, _, run, rfl, List.mem_of_getElem? (i := 1) rfl, rfl,
    List.mem_of_getElem? (i := 0) rfl, rfl, rfl, first.1, second.1, first.2.1, second.2.1⟩

end Run
end ResourcePool
