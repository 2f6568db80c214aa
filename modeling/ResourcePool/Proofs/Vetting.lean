import ResourcePool.Proofs.Misuse

/-!
Checks of resources. With checks before lending, a resource that was idle is lent only right after a
check found it valid: since then it was in hand, and nothing but choices that missed happened. A
resource that a check finds invalid is closed, once, and is gone from then on. The next that happens
to its slot is that it becomes free, and then that another resource fills it.
-/

namespace ResourcePool

attribute [-simp] Multiset.singleton_add

namespace Passage

/-- These passages, the latest first, lead from one state of a slot to another. -/
@[simp] def Leads (source : SlotState) : List Passage → SlotState → Prop
  | [], target => target = source
  | x :: l, target => target = x.target ∧ Leads source l x.source

/-- No passage leads back to where it began. -/
theorem target_ne_source (x : Passage) : x.target ≠ x.source := by
  cases x <;> exact SlotState.noConfusion

theorem Leads.of_append {a b : SlotState} {k l : List Passage} (leads : Leads a (k ++ l) b) :
    ∃ c, Leads a l c := by
  induction k generalizing b with
  | nil => exact ⟨b, leads⟩
  | cons x k ih => exact ih leads.2

/-- After its resource was retired, a slot is filled before anything else happens to it. -/
theorem Leads.after_retire {a b : SlotState} {l : List Passage} (leads : Leads a l b)
    (retired : l.getLast? = some .retire) : l.reverse.take 2 <+: [.retire, .create] := by
  obtain ⟨k, rfl⟩ := List.getLast?_eq_some_iff.1 retired
  obtain rfl | ⟨j, x, rfl⟩ := List.eq_nil_or_concat' k
  · exact ⟨[.create], rfl⟩
  · rw [List.append_assoc] at leads
    obtain ⟨_, _, next, _⟩ := leads.of_append
    obtain rfl : x = .create := by cases x <;> simp_all [source, target]
    simp

end Passage

/-- The passages of one slot, the latest first. -/
def Ledger.life (l : Ledger) (s : Nat) : List Passage :=
  l.filterMap fun y => if y.1 = s then some y.2 else none

namespace Ledger

@[simp] theorem life_nil (s : Nat) : Ledger.life [] s = [] := rfl

@[simp] theorem life_cons (y : Nat × Passage) (l : Ledger) (s : Nat) :
    Ledger.life (y :: l) s = (if y.1 = s then [y.2] else []) ++ l.life s := by
  unfold life
  by_cases same : y.1 = s <;> simp [same]

@[simp] theorem life_append (l k : Ledger) (s : Nat) :
    Ledger.life (l ++ k) s = l.life s ++ k.life s :=
  List.filterMap_append

@[simp] theorem mem_life {l : Ledger} {s : Nat} {x : Passage} : x ∈ l.life s ↔ (s, x) ∈ l := by
  simp [life]

theorem count_life (l : Ledger) (s : Nat) (x : Passage) :
    (l.life s).count x = (l.slots x).count s := by
  induction l with
  | nil => rfl
  | cons y l ih => by_cases same : y.1 = s <;> by_cases kind : y.2 = x <;> simp [same, kind, ih]

end Ledger

/-- The passages of a slot lead from the state that it was in to the one that it is in. -/
theorem Passes.leads {ss ts : List Slot} {l : Ledger} (passes : Passes ss l ts) (s : Nat) :
    Passage.Leads (ss.getD s {}).state (l.life s) (ts.getD s {}).state := by
  induction passes with
  | refl => rfl
  | @pass l ts j x t _ found fits ih =>
      simp only [List.getD_eq_getElem?_getD] at ih ⊢
      by_cases same : j = s
      · subst same
        obtain ⟨bound, _⟩ := List.getElem?_eq_some_iff.1 found
        rw [found, Option.getD_some, fits] at ih
        simpa [List.getElem?_set_self bound, Passage.pass] using ih
      · simpa [List.getElem?_set_ne same, same] using ih

/-- A matching that goes on with a resource in hand. -/
@[simp] def Activity.holdsOn : Activity → Bool
  | round _ (some _) => true
  | _ => false

theorem Activity.holdsOn_of_isBare {a : Activity} (bare : a.isBare = true) : a.holdsOn = false := by
  unfold holdsOn
  split
  · cases bare
  · rfl

namespace Machine

variable {σ : Type} {e : Environment σ} {m m' : Machine σ}

/-- The resource in hand is offered to whoever is chosen. -/
def Offers (m : Machine σ) (i : Item) : Prop :=
  ∃ k rest, m.stack = .round k (some i) :: rest

/-- A check before lending finds the resource valid. -/
def Accepts (e : Environment σ) (m : Machine σ) (i : Item) : Prop :=
  (∃ k view rest, m.stack = .answer (.validate i (.checkout k view)) :: rest) ∧
    (e.validate i.resource m.env).1 = true

/-- In these steps, the latest first, a check found the resource valid. Since then it was not in the
queue, and nothing happened but that it was offered to somebody who was out of the race. -/
def Vetted (e : Environment σ) (steps : List (Machine σ)) (i : Item) : Prop :=
  ∃ between u before, steps = between ++ u :: before ∧ u.Accepts e i ∧
    (∀ v ∈ between, v.Offers i) ∧
    ∀ v ∈ between ++ [u], ∀ j ∈ v.pool.returned, j.resource.id ≠ i.resource.id

/-- The factory has made the resource just now for this waiter; it was never idle. -/
def Supplies (m : Machine σ) (past : List (Machine σ)) (t : Task) : Prop :=
  (∃ k r rest, m.stack = .answer (.create k t.waiter r) :: rest) ∧
    ∀ v ∈ m :: past, ∀ j ∈ v.pool.returned, j.resource.id ≠ t.item.resource.id

theorem Vetted.offer {past : List (Machine σ)} {i : Item} (vetted : Vetted e past i)
    (offers : m.Offers i)
    (away : ∀ j ∈ m.pool.returned, j.resource.id ≠ i.resource.id) : Vetted e (m :: past) i := by
  obtain ⟨between, u, before, rfl, accepts, offered, absent⟩ := vetted
  exact ⟨m :: between, u, before, rfl, accepts, List.forall_mem_cons.2 ⟨offers, offered⟩,
    List.forall_mem_cons.2 ⟨away, absent⟩⟩

theorem Sequel.holdsOn_of_mem_tail {a : Activity} {as : List Activity} {r : List Item} {c : Bool}
    (sequel : m.Sequel e a as r c) : ∀ b ∈ as.tail, b.holdsOn = false := by
  cases sequel with
  | bare _ _ bare | store _ _ _ bare =>
      exact fun b member => Activity.holdsOn_of_isBare (bare b (List.mem_of_mem_tail member))
  | @stop n inHand closed => cases inHand <;> simp
  | @begin c ops =>
      intro b member
      obtain ⟨op, rfl⟩ | rfl | rfl := mem_begun (List.mem_of_mem_tail member) <;> rfl
  | _ => simp

/-- With checks before lending, what comes out of the queue is looked at. -/
theorem Looks.validates {a : Activity} {rest : List Activity} {k : Nat} {view : List Nat} {i : Item}
    {r : List Item} (looks : ({ m with stack := rest } : Machine σ).Looks a k view)
    (top : m.stack = a :: rest) (queue : m.pool.returned = i :: r)
    (tested : m.pool.config.testOnCheckout = true) :
    (m.step e).stack = .call (.validate i (.checkout k view)) :: rest := by
  have next : m.step e = ({ m with stack := rest } : Machine σ).seek k view := by
    rw [step, top]
    cases looks with
    | afresh opened line => exact round_none opened line k
    | again => rfl
  rw [next]
  simp [seek, Pool.popReturned?, queue, tested, push, withPool]

/-- What a check finds invalid is passed on for closing. -/
theorem Rejects.closes {i : Item} {check : Check} (rejects : m.Rejects e i check) :
    (m.step e).Closes i (.invalid check) := by
  obtain ⟨⟨rest, top⟩, invalid⟩ := rejects
  refine ⟨rest, ?_⟩
  simp only [step, top, exec, answered, validated, invalid]
  cases check <;> rfl

/-- A check changes no slot. -/
theorem Rejects.passages {i : Item} {check : Check} (rejects : m.Rejects e i check) :
    m.passages e = [] := by
  obtain ⟨rest, calls⟩ := rejects.closes
  obtain ⟨⟨below, top⟩, _⟩ := rejects
  rw [Machine.passages, passing, calls, opening, top]
  rfl

/-- What has become of a resource since a check found it invalid in the step from `n`. -/
structure Condemned (e : Environment σ) (m n : Machine σ) (past later : List (Machine σ)) (i : Item)
    (check : Check) : Prop where
  /-- Its closing begins at once. -/
  closes : later = [] → m.Closes i (.invalid check)
  once : later ≠ [] → (history e past).closings.count i.resource.id = 1
  /-- No delivery of it is scheduled or runs. -/
  delivered : ∀ v ∈ m :: later, ∀ t rest,
    v.stack = .call (.schedule t) :: rest ∨ v.stack = .task t :: rest →
      t.item.resource.id ≠ i.resource.id
  lent : ∀ v ∈ m :: later, ∀ j ∈ v.guards, j.resource.id ≠ i.resource.id
  queued : ∀ v ∈ m :: later, ∀ j ∈ v.pool.returned, j.resource.id ≠ i.resource.id
  /-- The next passages of its slot are its retirement and a new filling. -/
  slot : ((ledger e later).life i.slot).reverse.take 2 <+: [.retire, .create]
  retired : m.AtRest → .retire ∈ (ledger e later).life i.slot
  generation : (m.pool.slot i.slot).generation =
    (n.pool.slot i.slot).generation + ((ledger e later).life i.slot).count .create
  another : ∀ c ∈ (history e later).creations, c.1 ≠ i.resource.id

/-- The rejected resource is about to be closed, or is being closed. -/
def Retiring (m : Machine σ) (i : Item) (check : Check) : Prop :=
  .call (.close i (.invalid check)) ∈ m.activities ∨
    .answer (.close i (.invalid check)) ∈ m.activities

theorem Retiring.step {i : Item} {check : Check} (retiring : m.Retiring i check) :
    (m.step e).Retiring i check ∨
      ∃ rest, m.stack = .answer (.close i (.invalid check)) :: rest := by
  cases top : m.stack with
  | nil =>
      rw [Machine.step, top]
      exact .inl retiring
  | cons a rest =>
      obtain ⟨as, perm, _⟩ := (step_turn (e := e) top).perm
      have below {b : Activity} (member : b ∈ rest ++ m.paused) : b ∈ (m.step e).activities :=
        perm.mem_iff.2 (List.mem_append_right _ member)
      rw [Retiring, activities, top, List.cons_append, List.mem_cons, List.mem_cons] at retiring
      obtain (rfl | member) | rfl | member := retiring
      · exact .inl (.inr (Closes.answer_mem ⟨rest, top⟩))
      · exact .inl (.inl (below member))
      · exact .inr ⟨rest, rfl⟩
      · exact .inl (.inr (below member))

theorem target_of_passing {s : Nat} {x : Passage} (passes : (s, x) ∈ m.passing) :
    x.target ≠ .idle := by
  rw [passing, Option.mem_toList] at passes
  obtain ⟨a, _, before⟩ := Option.bind_eq_some_iff.1 passes
  unfold Activity.passage? at before
  split at before
  all_goals
    cases before
    try exact SlotState.noConfusion

end Machine

namespace Run

open Machine

variable {σ : Type} {e : Environment σ} {past : List (Machine σ)} {m : Machine σ}

/-- What is in somebody's hand is not in the queue. -/
theorem not_queued (run : Run e past m) {a : Asset} (held : a ∈ m.assets) {x : Holding}
    (holding : a.holding? = some x) {id : Nat} (resource : x.id? = some id) :
    ∀ j ∈ m.pool.returned, j.resource.id ≠ id := by
  have ids := run.accounts.nodup_ids
  rw [Books.stock, Multiset.filterMap_add, Multiset.nodup_add, Multiset.disjoint_left] at ids
  intro j queued same
  have inside : j.stored ∈ m.pool.holdings :=
    Multiset.mem_of_le m.pool.stored_le_holdings (Multiset.mem_coe.2 (List.mem_map_of_mem queued))
  have outside : x ∈ holdings (m.books 0 (history e past)).assets :=
    (Multiset.mem_filterMap ..).2 ⟨a, by simpa [books] using held, holding⟩
  exact ids.2.2 ((Multiset.mem_filterMap ..).2 ⟨x, outside, resource⟩)
    ((Multiset.mem_filterMap ..).2 ⟨j.stored, inside, congrArg some same⟩)

theorem not_queued_of_inHand (run : Run e past m) {a : Activity} (member : a ∈ m.activities)
    {i : Item} (inHand : .idle i ∈ a.assets) :
    ∀ j ∈ m.pool.returned, j.resource.id ≠ i.resource.id :=
  run.not_queued (mem_assets member inHand) (x := i.stored) rfl rfl

/-- With checks before lending, a matching that hands on what it has in hand had it checked. -/
theorem vetted_of_finds (run : Run e past m) (tested : m.pool.config.testOnCheckout = true)
    {a b : Activity} {rest below : List Activity} {k : Nat} {view : List Nat} {i : Item}
    {r : List Item} (top : m.stack = a :: rest)
    (finds : ({ m with stack := rest } : Machine σ).Finds a k view i r)
    (offered : m.Offers i → Vetted e past i) (next : (m.step e).stack = b :: below)
    (looked : ∀ check, b ≠ .call (.validate i check)) (kept : ∀ why, b ≠ .call (.close i why)) :
    Vetted e (m :: past) i := by
  have member : a ∈ m.activities := by simp [activities, top]
  cases finds with
  | inHand =>
      have offers : m.Offers i := ⟨k, rest, top⟩
      exact (offered offers).offer offers (run.not_queued_of_inHand member (by simp))
  | valid =>
      have accepts : m.Accepts e i := by
        refine ⟨⟨k, view, rest, top⟩, Bool.of_not_eq_false fun invalid => ?_⟩
        obtain ⟨_, closes⟩ := Rejects.closes (e := e) ⟨⟨rest, top⟩, invalid⟩
        exact kept _ (List.cons.inj (next.symm.trans closes)).1
      refine ⟨[], m, past, rfl, accepts, by simp, ?_⟩
      simpa using run.not_queued_of_inHand member (i := i) (by simp)
  | queued looks queue =>
      have validates := looks.validates (e := e) top queue tested
      exact absurd (List.cons.inj (next.symm.trans validates)).1 (looked _)

theorem holdsOnTop (run : Run e past m) : m.OnTop Activity.holdsOn := by
  refine run.byTurns (I := fun _ m => m.OnTop Activity.holdsOn) (fun _ stack paused => ?_)
    (fun a empty _ before => ?_) (fun _ before => before)
    fun _ top turn before => turn.onTop top before (fun sequel => sequel.holdsOn_of_mem_tail)
      (fun _ => rfl) rfl
  · simp [OnTop, stack, paused]
  · simpa [OnTop, push, empty] using before

/-- With checks before lending, what is offered was checked. -/
theorem vetted (run : Run e past m) : m.pool.config.testOnCheckout = true →
    ∀ {i}, m.Offers i → Vetted e past i := by
  refine run.byTurns (I := fun past m => m.pool.config.testOnCheckout = true →
    ∀ {i}, m.Offers i → Vetted e past i) (fun _ stack _ _ i offers => ?_)
    (fun a empty bare before tested i offers => ?_) (fun empty _ _ i offers => ?_)
    fun {past m a rest} run top turn before tested i offers => ?_
  · obtain ⟨k, rest, top⟩ := offers
    rw [stack] at top
    cases top
  · obtain ⟨k, rest, top⟩ := offers
    obtain ⟨rfl, _⟩ := List.cons.inj top
    cases bare
  · obtain ⟨k, rest, top⟩ := offers
    rw [empty] at top
    cases top
  · obtain ⟨k, below, next⟩ := offers
    obtain ⟨as, head, sequel⟩ := turn.put top run.holdsOnTop (b := .round k (some i)) rfl rfl next
    rw [run.config_step] at tested
    generalize (Machine.step e m).pool.returned = q, (Machine.step e m).pool.closed = c at sequel
    cases sequel with
    | bare _ _ bare | store _ _ _ bare => cases bare _ (List.mem_of_head? head)
    | retain finds =>
        obtain ⟨_, same⟩ : _ = k ∧ _ = i := by simpa using head
        exact run.vetted_of_finds tested top (same ▸ finds) (before tested) next
          (fun _ => Activity.noConfusion) fun _ => Activity.noConfusion
    | @stop n inHand => cases inHand <;> cases head
    | @begin c ops => cases ops <;> cases head
    | _ => cases head

theorem made_le (run : Run e past m) {later earlier : List (Machine σ)} {n : Machine σ}
    (parts : past = later ++ n :: earlier) : n.made ≤ m.made := by
  have now := congrArg List.length run.accounts.creations
  have then_ := congrArg List.length (run.before_of_append parts).accounts.creations
  simp only [parts, history, List.flatMap_append, List.flatMap_cons, History.creations_append,
    List.map_append, List.length_append, List.length_map, List.length_reverse,
    List.length_range] at now then_
  omega

/-- Whatever was ever idle was made before. -/
theorem queued_lt (run : Run e past m) :
    ∀ v ∈ m :: past, ∀ j ∈ v.pool.returned, j.resource.id < m.made := by
  intro v member j queued
  obtain ⟨later, earlier, parts⟩ := List.append_of_mem member
  have there : Run e earlier v := run.step.before_of_append parts
  have older : v.made ≤ m.made := by
    cases later with
    | nil => exact (List.cons.inj parts).1 ▸ le_rfl
    | cons _ later => exact run.made_le (List.cons.inj parts).2
  have known : j.resource.id ∈ Multiset.range v.made := by
    rw [← there.accounts.ids, add_assoc]
    exact Multiset.mem_add.2 (.inl ((Multiset.mem_filterMap ..).2
      ⟨j.stored, v.stored_mem_stock queued _, rfl⟩))
  exact (Multiset.mem_range.1 known).trans_le older

/-- A delivery is scheduled for a resource that was made just now, or, with checks before lending,
was checked. -/
theorem supplied_or_vetted (run : Run e past m) (tested : m.pool.config.testOnCheckout = true)
    {t : Task} {below : List Activity} (calls : (m.step e).stack = .call (.schedule t) :: below) :
    m.Supplies past t ∨ Vetted e (m :: past) t.item := by
  cases top : m.stack with
  | nil =>
      rw [Machine.step, top] at calls
      rw [top] at calls
      cases calls
  | cons a rest =>
      obtain ⟨as, head, sequel⟩ := (step_turn top).called top run.callsOnTop calls
      generalize (Machine.step e m).pool.returned = q, (Machine.step e m).pool.closed = c at sequel
      cases sequel with
      | bare _ _ bare | store _ _ _ bare => cases bare _ (List.mem_of_head? head)
      | lend finds =>
          obtain rfl : _ = t := by simpa using head
          exact .inr (run.vetted_of_finds tested top finds (run.vetted tested) calls
            (fun _ => by simp) fun _ => by simp)
      | made fresh =>
          obtain rfl : _ = t := by simpa using head
          refine .inl ⟨⟨_, _, rest, top⟩, fun v member j queued same => ?_⟩
          have older := run.queued_lt v member j queued
          rw [same, fresh] at older
          exact Nat.lt_irrefl _ older
      | @stop n inHand => cases inHand <;> cases head
      | @begin c ops => cases ops <;> cases head
      | _ => cases head

variable {n : Machine σ} {later earlier : List (Machine σ)} {i : Item} {check : Check}

/-- What holds whenever a machine was reached since then holds of all machines since then. -/
theorem atEach (run : Run e past m) (parts : past = later ++ n :: earlier) {T : Machine σ → Prop}
    (each : ∀ {later m}, Run e (later ++ n :: earlier) m → T m) : ∀ v ∈ m :: later, T v := by
  refine List.forall_mem_cons.2 ⟨each (parts ▸ run), fun v member => ?_⟩
  obtain ⟨after, before, rfl⟩ := List.append_of_mem member
  rw [List.append_assoc] at parts
  exact each (run.before_of_append parts)

/-- The closing of a rejected resource begins at once, and then it was passed on for closing. -/
theorem closing_of_rejects (run : Run e past m) (parts : past = later ++ n :: earlier)
    (rejects : n.Rejects e i check) :
    later = [] ∧ m.Closes i (.invalid check) ∨
      later ≠ [] ∧ i.resource.id ∈ (history e past).closings := by
  subst parts
  refine run.since (T := fun later m => later = [] ∧ m.Closes i (.invalid check) ∨
    later ≠ [] ∧ i.resource.id ∈ (history e (later ++ n :: earlier)).closings) rfl
    (.inl ⟨rfl, rejects.closes⟩) (fun a empty _ before => ?_) fun {later m} _ before => ?_
  · refine before.imp_left ?_
    rintro ⟨_, _, top⟩
    rw [empty] at top
    cases top
  · refine .inr ⟨List.cons_ne_nil _ _, ?_⟩
    rw [List.cons_append, history_cons, History.closings, List.filterMap_append, List.mem_append]
    refine before.imp (fun ⟨_, _, top⟩ => ?_) fun passed => passed.2
    simp [deeds, top, deedsOf]

/-- A rejected resource is neither lent nor idle any more. -/
theorem gone_of_rejects (run : Run e past m) (parts : past = later ++ n :: earlier)
    (rejects : n.Rejects e i check) :
    (∀ j ∈ m.guards, j.resource.id ≠ i.resource.id) ∧
      ∀ j ∈ m.pool.returned, j.resource.id ≠ i.resource.id := by
  obtain ⟨_, rest, top⟩ | ⟨_, passed⟩ := run.closing_of_rejects parts rejects
  · refine ⟨(run.apart_of_closing top).2.2, ?_⟩
    exact run.not_queued_of_inHand (a := .call (.close i (.invalid check)))
      (by simp [activities, top]) (by simp)
  · have absent {x : Holding} {r : Resource} (member : x ∈ (m.books 0 (history e past)).stock)
        (resource : x.resource = some r) : r.id ≠ i.resource.id := by
      intro same
      have alive := run.accounts.alive_of_mem member resource
      rw [same, History.alive, List.mem_filter] at alive
      simp [passed] at alive
    exact ⟨fun j lent => absent (run.lent_mem lent) rfl,
      fun j queued => absent (m.stored_mem_stock queued _) rfl⟩

theorem idle_of_retiring (run : Run e past m) (retiring : m.Retiring i check) :
    m.pool.Has i.slot .idle := by
  obtain calls | answers := retiring
  · exact run.has_of_activity calls (a := .idle i) (by simp) (x := i.stored) rfl
  · exact run.has_of_activity answers (a := .spent i.slot) (by simp) (x := .spent i.slot) rfl

/-- Nothing happens in a step to a slot that is idle before and after. -/
theorem life_of_idle (run : Run e past m) {s : Nat} (before : m.pool.Has s .idle)
    (after : (m.step e).pool.Has s .idle) : (m.passages e).life s = [] := by
  have leads : Passage.Leads (m.pool.slot s).state ((m.passages e).life s)
      ((m.step e).pool.slot s).state := run.step_passes.leads s
  rw [before.2, after.2, Machine.passages, Ledger.life_append] at leads
  rw [Machine.passages, Ledger.life_append]
  cases last : (m.step e).passing.life s with
  | cons x l =>
      rw [last] at leads
      have passes : (s, x) ∈ (m.step e).passing := Ledger.mem_life.1 (last ▸ List.mem_cons_self ..)
      exact absurd leads.1.symm (target_of_passing passes)
  | nil =>
      rw [last, opening] at leads
      rw [opening]
      cases first : m.stack.head?.bind (m.passageOf e) with
      | none => rfl
      | some y =>
          by_cases here : y.1 = s
          · rw [first, Option.toList_some, Ledger.life_cons, if_pos here] at leads
            exact absurd (leads.1.symm.trans leads.2.symm) y.2.target_ne_source
          · simp [here]

/-- The next that happens to the slot of a rejected resource is that it becomes free. -/
theorem life_of_rejects (run : Run e past m) (parts : past = later ++ n :: earlier)
    (rejects : n.Rejects e i check) :
    m.Retiring i check ∧ (ledger e later).life i.slot = [] ∨
      ((ledger e later).life i.slot).getLast? = some .retire := by
  refine run.since (T := fun later m => m.Retiring i check ∧ (ledger e later).life i.slot = [] ∨
    ((ledger e later).life i.slot).getLast? = some .retire) parts (.inl ⟨.inl ?_, rfl⟩)
    (fun a _ _ before => ?_) fun {later m} run before => ?_
  · obtain ⟨rest, calls⟩ := rejects.closes
    simp [activities, calls]
  · exact before.imp_left fun ⟨retiring, nothing⟩ =>
      ⟨retiring.imp (List.mem_cons_of_mem a) (List.mem_cons_of_mem a), nothing⟩
  · rw [ledger_cons, Ledger.life_append]
    obtain ⟨retiring, nothing⟩ | retired := before
    · rw [nothing, List.append_nil]
      obtain again | ⟨rest, answers⟩ := retiring.step (e := e)
      · refine .inl ⟨again, run.life_of_idle (run.idle_of_retiring retiring) ?_⟩
        exact run.step.idle_of_retiring again
      · refine .inr ?_
        have retires : m.opening e = [(i.slot, .retire)] := by
          rw [opening, answers]
          rfl
        simp [Machine.passages, retires]
    · exact .inr (by rw [List.getLast?_append, retired, Option.some_or])

theorem passes_of_rejects (run : Run e past m) (parts : past = later ++ n :: earlier)
    (rejects : n.Rejects e i check) : Passes n.pool.slots (ledger e later) m.pool.slots := by
  have passes := run.passes_from parts
  rwa [rejects.passages, List.append_nil] at passes

theorem inHand_of_rejects (rejects : n.Rejects e i check) : .idle i ∈ n.assets := by
  obtain ⟨⟨rest, top⟩, _⟩ := rejects
  exact mem_assets (a := .answer (.validate i check)) (by simp [activities, top]) (by simp)

/-- The passages of the slot of a rejected resource begin with its retirement and a new filling. -/
theorem slot_of_rejects (run : Run e past m) (parts : past = later ++ n :: earlier)
    (rejects : n.Rejects e i check) :
    ((ledger e later).life i.slot).reverse.take 2 <+: [.retire, .create] := by
  have idle : n.pool.Has i.slot .idle :=
    (run.before_of_append parts).has_of_asset (inHand_of_rejects rejects) (x := i.stored) rfl
  have leads : Passage.Leads (n.pool.slot i.slot).state ((ledger e later).life i.slot)
      (m.pool.slot i.slot).state := (run.passes_of_rejects parts rejects).leads i.slot
  rw [idle.2] at leads
  obtain ⟨_, nothing⟩ | retired := run.life_of_rejects parts rejects
  · simp [nothing]
  · exact leads.after_retire retired

/-- Every resource made later is another one. -/
theorem fresh_of_rejects (run : Run e past m) (parts : past = later ++ n :: earlier)
    (rejects : n.Rejects e i check) : ∀ c ∈ (history e later).creations, c.1 ≠ i.resource.id := by
  have early := run.before_of_append parts
  have made : (i.resource.id, i.slot) ∈ (history e earlier).creations := by
    have inStock : i.stored ∈ (n.books 0 (history e earlier)).stock :=
      Multiset.mem_add.2 (.inl ((Multiset.mem_filterMap ..).2
        ⟨.idle i, by simpa [books] using inHand_of_rejects rejects, rfl⟩))
    exact (early.accounts.origin _ inStock _ rfl).2
  have once : ((history e past).creations.map Prod.fst).Nodup := by
    rw [run.accounts.creations]
    exact List.nodup_reverse.2 List.nodup_range
  rw [parts, history, List.flatMap_append, List.flatMap_cons, History.creations_append,
    History.creations_append, List.map_append, List.map_append, List.nodup_append] at once
  intro c member same
  refine once.2.2 c.1 (List.mem_map_of_mem member) i.resource.id ?_ same
  exact List.mem_append_right _ (List.mem_map_of_mem (f := Prod.fst) made)

theorem condemned (run : Run e past m) (parts : past = later ++ n :: earlier)
    (rejects : n.Rejects e i check) : m.Condemned e n past later i check where
  closes none := by
    obtain ⟨_, closes⟩ | ⟨some, _⟩ := run.closing_of_rejects parts rejects
    · exact closes
    · exact absurd none some
  once some := by
    have nodup := run.nodup_accounts
    rw [Multiset.nodup_add, Multiset.nodup_add, Multiset.coe_nodup, Multiset.coe_nodup] at nodup
    obtain ⟨none, _⟩ | ⟨_, passed⟩ := run.closing_of_rejects parts rejects
    · exact absurd none some
    · exact List.count_eq_one_of_mem nodup.1.2.1 passed
  delivered v member t rest top := by
    have gone := run.atEach parts (fun run => (run.gone_of_rejects rfl rejects).1) v member
    refine gone t.item ?_
    obtain top | top := top <;> simp [guards, activities, top, Activity.guard?, Call.guard?]
  lent := run.atEach parts fun run => (run.gone_of_rejects rfl rejects).1
  queued := run.atEach parts fun run => (run.gone_of_rejects rfl rejects).2
  slot := run.slot_of_rejects parts rejects
  retired still := by
    obtain ⟨calls | answers, _⟩ | last := run.life_of_rejects parts rejects
    · rw [still] at calls
      cases calls
    · rw [still] at answers
      cases answers
    · exact List.mem_of_getLast? last
  generation := by
    rw [Ledger.count_life]
    exact (run.passes_of_rejects parts rejects).generation i.slot
  another := run.fresh_of_rejects parts rejects

/-- With checks before lending, a resource that was idle is handed out only right after a check
found it valid. A resource that a check found invalid is closed once and never handed out again; its
slot is retired and, before it is used again, filled with another resource. -/
theorem vetted_reuse (run : Run e past m) :
    (m.pool.config.testOnCheckout = true → ∀ t below,
      (m.step e).stack = .call (.schedule t) :: below →
        m.Supplies past t ∨ Vetted e (m :: past) t.item) ∧
      ∀ later n earlier i check, past = later ++ n :: earlier → n.Rejects e i check →
        m.Condemned e n past later i check :=
  ⟨fun tested _ _ calls => run.supplied_or_vetted tested calls,
    fun _ _ _ _ _ parts rejects => run.condemned parts rejects⟩

set_option maxRecDepth 4000 in
/-- One resource is found invalid and its slot filled again. During the check of the other one the
request that it is meant for is cancelled and another one made, so it is offered twice. -/
theorem vetted_reuse_offered : ∃ (past later earlier : List (Machine Bench.Rig))
    (m n : Machine Bench.Rig) (t : Task) (below : List Activity) (i : Item) (check : Check),
    Run Bench.environment past m ∧ m.pool.config.testOnCheckout = true ∧
      (m.step Bench.environment).stack = .call (.schedule t) :: below ∧ m.Offers t.item ∧
      past = later ++ n :: earlier ∧ n.Rejects Bench.environment i check ∧
      ((ledger Bench.environment later).life i.slot).reverse = [.retire, .create, .deliver] ∧
      (m.Supplies past t ∨ Vetted Bench.environment (m :: past) t.item) ∧
      m.Condemned Bench.environment n past later i check := by
  have start := hooked (c := { maxSize := 2, testOnCheckout := true }) rfl
    [⟨.validate, 1, [.cancel 2, .acquire 4]⟩]
  have first := (start.ask (.acquire 0) rfl).steps 40
  have second := (first.ask (.acquire 1) rfl).steps 40
  have delivered := (second.ask (.run none) rfl).steps 40
  have polled := (delivered.ask .pollAll rfl).steps 40
  have spoilt := (polled.ask (.invalidateHeld 0) rfl).steps 40
  have third := (spoilt.ask (.acquire 2) rfl).steps 40
  have fourth := (third.ask (.acquire 3) rfl).steps 40
  have checked := (fourth.ask (.drop 0) rfl).steps 5
  have refilled := checked.step.steps 40
  have offered := (refilled.ask (.drop 1) rfl).steps 20
  obtain ⟨vetted, condemned⟩ := offered.vetted_reuse
  exact ⟨_, _, _, _, _, _, _, _, _, offered, rfl, rfl, ⟨_, _, rfl⟩, (List.append_assoc ..).symm,
    ⟨⟨_, rfl⟩, rfl⟩, rfl, vetted rfl _ _ rfl,
    condemned _ _ _ _ _ (List.append_assoc ..).symm ⟨⟨_, rfl⟩, rfl⟩⟩

end Run
end ResourcePool
