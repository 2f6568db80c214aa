import ResourcePool.Proofs.Ownership
import ResourcePool.Proofs.Passages

/-!
Slots over a whole run. All passages of a run, one after the other, lead from blank slots to the
present ones, so the counts that the slots keep are those of what happened: of the resources made
for them and of the deliveries given to the scheduler.
-/

namespace ResourcePool

attribute [-simp] Multiset.singleton_add

namespace Deed

@[simp] def entrusted? : Deed → Option Nat
  | fate _ (.entrusted i) => some i.slot
  | _ => none

/-- Nothing was made or given to the scheduler. -/
def isPlain : Deed → Bool
  | fate _ (.entrusted _) | created .. => false
  | _ => true

end Deed

/-- The slots of the deliveries given to the scheduler. -/
def History.entrusted (h : History) : List Nat :=
  h.filterMap Deed.entrusted?

theorem Deed.nothing_of_isPlain {h : History} (plain : h.all Deed.isPlain = true) :
    h.entrusted = [] ∧ h.creations = [] := by
  have each := List.all_eq_true.1 plain
  refine ⟨List.filterMap_eq_nil_iff.2 fun d member => ?_,
    List.filterMap_eq_nil_iff.2 fun d member => ?_⟩
  all_goals
    have plain := each d member
    unfold isPlain at plain
    split at plain <;> simp_all

theorem History.entrusted_append (h k : History) :
    entrusted (h ++ k) = h.entrusted ++ k.entrusted :=
  List.filterMap_append

/-- The passages in the steps from these machines. -/
def ledger {σ : Type} (e : Environment σ) (past : List (Machine σ)) : Ledger :=
  past.flatMap (Machine.passages e)

@[simp] theorem ledger_nil {σ : Type} (e : Environment σ) : ledger e [] = [] := rfl

@[simp] theorem ledger_cons {σ : Type} (e : Environment σ) (m : Machine σ)
    (past : List (Machine σ)) : ledger e (m :: past) = m.passages e ++ ledger e past := by
  simp [ledger]

/-- Each slot below the mark was filled at some time. -/
def Filled (b : Books) : Prop :=
  ∀ s < b.pool.created, s ∈ b.history.creations.map Prod.snd

/-- The mark and the resources made stay as they are, or a reserved slot is filled. -/
theorem Move.keeps_or_creates {gone : Prop} {b c : Books} (move : Move gone b c) :
    (c.pool.created = b.pool.created ∧ c.history.creations = b.history.creations) ∨
      ∃ n r A, b.assets = {.matcher n (.filling r)} + A ∧ c.pool = b.pool.occupy r ∧
        c.history.creations = (b.made, r.slot) :: b.history.creations := by
  cases move with
  | @create n r A held => exact .inr ⟨n, r, A, held, rfl, by simp⟩
  | turnAway | foretell | abandon | spend | detach | oust | execute => exact .inl ⟨rfl, by simp⟩
  | withdraw _ _ pending => exact .inl ⟨(Pool.cancel?_sameStock pending).created, by simp⟩
  | hangUp => exact .inl ⟨(Pool.hangUp_sameStock ..).created, rfl⟩
  | see _ found => exact .inl ⟨(Pool.sameStock_of_received found).1.created, by simp⟩
  | send | sendError => exact .inl ⟨(Pool.complete_sameStock ..).created, rfl⟩
  | choose picked | miss picked => exact .inl ⟨(Pool.pick_sameStock picked).created, rfl⟩
  | dismissAll =>
      exact .inl ⟨(Pool.dismissAll_sameStock _).created,
        Standings.filterMap_dismissals _ (fun _ => rfl) ..⟩
  | reserve _ reserved =>
      obtain ⟨_, _, _, _, rfl⟩ | ⟨_, _, _, rfl⟩ := Pool.reserve?_eq_some reserved <;>
        exact .inl ⟨rfl, rfl⟩
  | @unreserve _ r => cases r <;> exact .inl ⟨rfl, rfl⟩
  | lend _ lent =>
      obtain ⟨_, rfl⟩ := Pool.lend?_eq_some lent
      exact .inl ⟨rfl, rfl⟩
  | takeBack _ taken =>
      obtain ⟨_, rfl⟩ := Pool.takeBack?_eq_some taken
      exact .inl ⟨rfl, rfl⟩
  | pop popped =>
      obtain ⟨_, _, rfl⟩ := Pool.popReturned?_eq_some popped
      exact .inl ⟨rfl, rfl⟩
  | _ => exact .inl ⟨rfl, rfl⟩

theorem Move.filled {gone : Prop} {b c : Books} (move : Move gone b c) (fresh : Fresh b)
    (before : Filled b) : Filled c := by
  obtain ⟨created, creations⟩ | ⟨n, r, A, held, pool, creations⟩ := move.keeps_or_creates
  · rw [Filled, created, creations]
    exact before
  · rw [Filled, pool, creations, List.map_cons]
    cases r with
    | vacated slot => exact fun s below => List.mem_cons_of_mem _ (before s below)
    | fresh slot =>
        obtain ⟨rfl, _⟩ := fresh n slot (by simp [held])
        intro s below
        obtain earlier | rfl := Nat.lt_succ_iff_lt_or_eq.1 below
        · exact List.mem_cons_of_mem _ (before s earlier)
        · exact List.mem_cons_self ..

namespace Machine

variable {σ : Type} {e : Environment σ} {m : Machine σ}

theorem isPlain_withdrawal (m : Machine σ) (a : Acquire) :
    (m.withdrawal a).all Deed.isPlain = true := by
  unfold withdrawal
  split <;> rfl

theorem isPlain_sight (m : Machine σ) (w : Nat) : (m.sight w).all Deed.isPlain = true := by
  unfold sight
  cases (m.look w).1 <;> rfl

theorem isPlain_deedsOfOp (m : Machine σ) (op : Op) :
    (m.deedsOfOp op).all Deed.isPlain = true := by
  unfold deedsOfOp
  split
  · split
    · exact m.isPlain_withdrawal _
    · rfl
  · split
    · exact m.isPlain_sight _
    · exact m.isPlain_sight _
    · rfl
  · split <;> rfl
  · split
    · split <;> rfl
    · rfl
  · rfl

/-- Neither resources are made nor deliveries scheduled. -/
structure Uneventful (e : Environment σ) (m : Machine σ) (a : Activity) : Prop where
  deeds : (m.deedsOf e a).all Deed.isPlain = true
  calls : a.passage? = none
  creates : Ledger.slots (m.passageOf e a).toList .create = []

theorem uneventful_perform (m : Machine σ) (op : Op) : m.Uneventful e (.perform op) := by
  refine ⟨m.isPlain_deedsOfOp op, rfl, ?_⟩
  cases op with
  | detach k =>
      simp only [passageOf]
      split <;> rfl
  | _ => rfl

/-- Resources are made and deliveries are scheduled only in calls to the surroundings. -/
theorem uneventful_or_call (m : Machine σ) (a : Activity) :
    m.Uneventful e a ∨ (∃ c, a = .call c) ∨ ∃ c, a = .answer c := by
  cases a with
  | call c => exact .inr (.inl ⟨c, rfl⟩)
  | answer c => exact .inr (.inr ⟨c, rfl⟩)
  | perform op => exact .inl (m.uneventful_perform op)
  | acquire purpose =>
      refine .inl ⟨?_, rfl, rfl⟩
      simp only [deedsOf]
      split <;> rfl
  | acquired a purpose =>
      refine .inl ⟨?_, rfl, rfl⟩
      cases purpose with
      | get k => exact m.isPlain_sight a.waiter
      | _ => rfl
  | quit a => exact .inl ⟨m.isPlain_withdrawal a, rfl, rfl⟩
  | task t =>
      refine .inl ⟨?_, rfl, rfl⟩
      simp only [deedsOf]
      split <;> rfl
  | flush who failures =>
      refine .inl ⟨?_, rfl, rfl⟩
      simp only [deedsOf]
      split
      · simp [Deed.isPlain]
      · rfl
  | _ => exact .inl ⟨rfl, rfl, rfl⟩

/-- A delivery is scheduled by the call that stands on top, and a slot is filled when the factory
has made a resource for it. -/
theorem deeds_of_passages (e : Environment σ) (m : Machine σ) :
    History.entrusted (m.deeds e) = m.passing.slots .deliver ∧
      (History.creations (m.deeds e)).map Prod.snd = (m.opening e).slots .create := by
  unfold deeds passing opening
  cases m.stack with
  | nil => exact ⟨rfl, rfl⟩
  | cons a rest =>
      obtain quiet | ⟨c, rfl⟩ | ⟨c, rfl⟩ :=
        ({ m with stack := rest } : Machine σ).uneventful_or_call (e := e) a
      · obtain ⟨entrusted, made⟩ := Deed.nothing_of_isPlain quiet.deeds
        dsimp only [List.head?_cons, Option.bind_some]
        rw [entrusted, made, quiet.calls]
        exact ⟨rfl, quiet.creates.symm⟩
      · cases c with
        | close i why => cases why <;> exact ⟨rfl, rfl⟩
        | _ => exact ⟨rfl, rfl⟩
      · cases c with
        | create k w r =>
            simp only [deedsOf, deedsOfCreation, passageOf, List.head?_cons, Option.bind_some]
            cases m.background.holdsBack
            · cases (e.create r.slot m.env).1 <;> exact ⟨rfl, rfl⟩
            · exact ⟨rfl, rfl⟩
        | close i why => cases why <;> exact ⟨rfl, rfl⟩
        | _ => exact ⟨rfl, rfl⟩

theorem slots_passing_create (m : Machine σ) : m.passing.slots .create = [] := by
  unfold passing
  cases m.stack with
  | nil => rfl
  | cons a rest =>
      rw [List.head?_cons, Option.bind_some]
      unfold Activity.passage?
      split <;> rfl

theorem slots_opening_deliver (e : Environment σ) (m : Machine σ) :
    (m.opening e).slots .deliver = [] := by
  unfold opening
  cases m.stack with
  | nil => rfl
  | cons a rest =>
      rw [List.head?_cons, Option.bind_some]
      unfold passageOf
      split
      · rfl
      · split <;> rfl
      · split <;> rfl
      · rfl
      · rfl

theorem slots_passages_create (e : Environment σ) (m : Machine σ) :
    (m.passages e).slots .create = (History.creations (m.deeds e)).map Prod.snd := by
  rw [passages, Ledger.slots_append, slots_passing_create, List.nil_append,
    (m.deeds_of_passages e).2]

theorem slots_passages_deliver (e : Environment σ) (m : Machine σ) :
    (m.passages e).slots .deliver = (m.step e).passing.slots .deliver := by
  rw [passages, Ledger.slots_append, slots_opening_deliver, List.append_nil]

theorem schedule_proceeds (m : Machine σ) (t : Task) :
    ({ m with counts := m.counts.schedule } : Machine σ).Proceeds [] (m.call e (.schedule t)) := by
  unfold call
  dsimp only
  split
  · exact (announce_bystands _ _).proceeds
  · exact ((Bystands.refl _).push _).proceeds

end Machine

namespace Run

open Machine

variable {σ : Type} {e : Environment σ} {past : List (Machine σ)} {m : Machine σ}

/-- What a step does to the slots, how many deliveries it schedules, and that it finds no slot in a
wrong state. -/
theorem step_tallies (run : Run e past m) :
    Passes m.pool.slots (m.passages e) (m.step e).pool.slots ∧
    (m.step e).counts.scheduled =
      m.counts.scheduled + (History.entrusted (m.deeds e)).length ∧
    ∀ ev ∈ (m.step e).trace, ev ∈ m.trace ∨ ev.isMisuse = false := by
  rw [(m.deeds_of_passages e).1]
  cases top : m.stack with
  | nil =>
      have same : m.step e = m := by rw [Machine.step, top]
      have none : m.passing = [] := by rw [passing, top]; rfl
      have nothing : m.passages e = [] := by
        rw [passages, same, none, opening, top]
        rfl
      rw [nothing, same, none]
      exact ⟨.refl, rfl, fun ev => .inl⟩
  | cons a rest =>
      by_cases schedules : ∃ t, a = .call (.schedule t)
      · obtain ⟨t, rfl⟩ := schedules
        have proceeds := schedule_proceeds (e := e) ({ m with stack := rest } : Machine σ) t
        have next : m.step e = ({ m with stack := rest } : Machine σ).call e (.schedule t) := by
          rw [Machine.step, top]
          rfl
        have nothing : m.passages e = [] := by
          rw [passages, run.passing_step top rfl, opening, top]
          rfl
        have one : m.passing.slots .deliver = [t.item.slot] := by
          rw [passing, top]
          rfl
        rw [nothing, one, next]
        exact ⟨proceeds.passes, proceeds.scheduled, proceeds.proper⟩
      · have proceeds := run.proceeds_step top fun t same => schedules ⟨t, same⟩
        have none : m.passing.slots .deliver = [] := by
          rw [passing, top, List.head?_cons, Option.bind_some]
          unfold Activity.passage?
          split
          · next t => exact absurd ⟨t, rfl⟩ schedules
          all_goals rfl
        rw [none]
        exact ⟨proceeds.passes, proceeds.scheduled, proceeds.proper⟩

theorem step_passes (run : Run e past m) :
    Passes m.pool.slots (m.passages e) (m.step e).pool.slots :=
  run.step_tallies.1

/-- All passages of a run lead from blank slots to the present ones. -/
theorem passes (run : Run e past m) :
    Passes (List.replicate m.pool.config.maxSize {}) (ledger e past) m.pool.slots := by
  induction run with
  | start built =>
      unfold build at built
      split at built
      · simp at built
      · obtain rfl := Except.ok.inj built
        exact .refl
  | ask op run idle ih | threads run idle onThreads ih => exact ih
  | step run ih =>
      rw [ledger_cons, run.config_step]
      exact ih.trans run.step_passes

/-- The passages since then lead from the slots of an earlier machine to the present ones. -/
theorem passes_since (run : Run e past m) {n : Machine σ} {later earlier : List (Machine σ)}
    (parts : past = later ++ n :: earlier) :
    Passes (n.step e).pool.slots (ledger e later) m.pool.slots :=
  run.since (T := fun later m => Passes (n.step e).pool.slots (ledger e later) m.pool.slots) parts
    .refl (fun _ _ _ before => before) fun run before => before.trans run.step_passes

theorem slots_create (run : Run e past m) :
    (ledger e past).slots .create = (history e past).creations.map Prod.snd := by
  induction run with
  | start built => rfl
  | ask op run idle ih | threads run idle onThreads ih => exact ih
  | @step past m run ih =>
      rw [ledger_cons, Ledger.slots_append, slots_passages_create, ih, history_cons,
        History.creations_append, List.map_append]

/-- What was handed to a waiter was given to the scheduler, or is about to be. -/
theorem slots_deliver (run : Run e past m) :
    (ledger e past).slots .deliver = m.passing.slots .deliver ++ (history e past).entrusted := by
  induction run with
  | start built =>
      unfold build at built
      split at built
      · simp at built
      · obtain rfl := Except.ok.inj built
        rfl
  | @ask past m op run idle ih | @threads past m run idle onThreads ih =>
      have none : m.passing = [] := by rw [passing, idle]; rfl
      rw [ih, none, passing_push]
      rfl
  | @step past m run ih =>
      rw [ledger_cons, Ledger.slots_append, slots_passages_deliver, ih, history_cons,
        History.entrusted_append, (m.deeds_of_passages e).1]

/-- The scheduler was given one task for each delivery. -/
theorem scheduled (run : Run e past m) :
    m.counts.scheduled = (history e past).entrusted.length := by
  induction run with
  | start built =>
      unfold build at built
      split at built
      · simp at built
      · obtain rfl := Except.ok.inj built
        rfl
  | ask op run idle ih | threads run idle onThreads ih => exact ih
  | @step past m run ih =>
      rw [run.step_tallies.2.1, ih, history_cons, History.entrusted_append, List.length_append,
        Nat.add_comm]

theorem filled (run : Run e past m) : Filled (m.books 0 (history e past)) := by
  have both := run.keeps (I := fun b => Sound b ∧ Filled b)
    (fun c => ⟨Books.start_sound c, fun s below => absurd below (Nat.not_lt_zero s)⟩)
    fun move before => ⟨move.sound before.1, move.filled before.1.fresh before.2⟩
  exact both.2

theorem generation (run : Run e past m) (s : Nat) :
    (m.pool.slot s).generation = ((history e past).creations.map Prod.snd).count s := by
  have blank : ((List.replicate m.pool.config.maxSize {}).getD s {} : Slot) = {} :=
    slot_ofConfig m.pool.config s
  have count := run.passes.generation s
  rwa [blank, Nat.zero_add, run.slots_create] at count

/-- The slots below the mark are those that were filled. -/
theorem generation_pos (run : Run e past m) (s : Nat) :
    0 < (m.pool.slot s).generation ↔ s < m.pool.created := by
  refine ⟨fun filled => ?_, fun below => ?_⟩
  · by_contra beyond
    rw [run.places.blank s (Nat.le_of_not_lt beyond)] at filled
    cases filled
  · rw [run.generation]
    exact List.count_pos_iff.2 (run.filled s below)

theorem created_eq (run : Run e past m) :
    m.pool.created = m.pool.slots.countP fun t => 0 < t.generation := by
  obtain ⟨k, size⟩ := Nat.exists_eq_add_of_le run.places.bound
  symm
  calc m.pool.slots.countP (fun t => 0 < t.generation)
      = (List.range m.pool.slots.length).countP fun s => 0 < (m.pool.slot s).generation := by
        conv_lhs => rw [← m.pool.map_slot_range, List.countP_map]
        rfl
    _ = (List.range m.pool.slots.length).countP fun s => s < m.pool.created :=
        List.countP_congr fun s _ => by simpa using run.generation_pos s
    _ = m.pool.created := by
        rw [size, List.range_add, List.countP_append, List.countP_eq_length.2 (by simp),
          List.countP_eq_zero.2 (by simp), List.length_range, Nat.add_zero]

theorem checkouts (run : Run e past m) (rest : m.AtRest) (s : Nat) :
    (m.pool.slot s).checkouts = (history e past).entrusted.count s := by
  have blank : ((List.replicate m.pool.config.maxSize {}).getD s {} : Slot) = {} :=
    slot_ofConfig m.pool.config s
  have none : m.passing = [] := by
    rw [passing, rest.stack]
    rfl
  have count := run.passes.checkouts s
  rwa [blank, Nat.zero_add, run.slots_deliver, none] at count

theorem sum_checkouts (run : Run e past m) (rest : m.AtRest) :
    (m.pool.slots.map Slot.checkouts).sum = m.counts.scheduled := by
  have none : m.passing = [] := by
    rw [passing, rest.stack]
    rfl
  have sum := run.passes.sum (f := Slot.checkouts) (x := .deliver) fun _ _ => rfl
  rw [run.slots_deliver, none] at sum
  rw [run.scheduled]
  simpa using sum

variable {n : Machine σ} {later earlier : List (Machine σ)}

theorem passes_from (run : Run e past m) (parts : past = later ++ n :: earlier) :
    Passes n.pool.slots (ledger e later ++ n.passages e) m.pool.slots :=
  (run.before_of_append parts).step_passes.trans (run.passes_since parts)

/-- The mark, the generations and the counts of checkouts never fall, and a closed slot stays as it
is. -/
theorem grows (run : Run e past m) (parts : past = later ++ n :: earlier) :
    n.pool.created ≤ m.pool.created ∧ ∀ s,
      (n.pool.slot s).generation ≤ (m.pool.slot s).generation ∧
      (n.pool.slot s).checkouts ≤ (m.pool.slot s).checkouts ∧
      ((n.pool.slot s).state = .closed → m.pool.slot s = n.pool.slot s) := by
  have passes := run.passes_from parts
  have early := run.before_of_append parts
  have generations (s : Nat) : (n.pool.slot s).generation ≤ (m.pool.slot s).generation :=
    (passes.generation s).symm ▸ Nat.le_add_right ..
  refine ⟨?_, fun s => ⟨generations s, ?_, passes.closed⟩⟩
  · by_contra fewer
    have filled := (early.generation_pos m.pool.created).2 (Nat.lt_of_not_le fewer)
    exact Nat.lt_irrefl _ ((run.generation_pos _).1 (filled.trans_le (generations _)))
  · exact (passes.checkouts s).symm ▸ Nat.le_add_right ..

/-- Only in a pool that is closed, or that nobody refers to any more, is a slot closed. -/
theorem not_shut (run : Run e past m) (opened : m.pool.closed = false)
    (alive : m.isReferenced = true) (s : Nat) : (m.pool.slot s).state ≠ .closed := by
  intro shut
  obtain closed | torn := run.places.shut s shut
  · rw [opened] at closed
    cases closed
  · rw [run.torn_iff.1 torn] at alive
    cases alive

/-- Slots change only by passages that find them in the state they lead from, closed slots do not
change any more, and in an open pool that is still referred to none is closed. A slot was filled as
often as its generation says, the slots below the mark are those that were filled, and when nothing
is in progress a slot was lent as often as deliveries were scheduled for it. None of these counts
ever falls. -/
theorem slot_histories (run : Run e past m) :
    Passes (List.replicate m.pool.config.maxSize {}) (ledger e past) m.pool.slots ∧
      (∀ later n earlier, past = later ++ n :: earlier →
        Passes n.pool.slots (n.passages e) (n.step e).pool.slots ∧
        Passes (n.step e).pool.slots (ledger e later) m.pool.slots ∧
        n.pool.created ≤ m.pool.created ∧ ∀ s,
          (n.pool.slot s).generation ≤ (m.pool.slot s).generation ∧
          (n.pool.slot s).checkouts ≤ (m.pool.slot s).checkouts ∧
          ((n.pool.slot s).state = .closed → m.pool.slot s = n.pool.slot s)) ∧
      (m.pool.closed = false → m.isReferenced = true →
        ∀ s, (m.pool.slot s).state ≠ .closed) ∧
      (∀ s, (m.pool.slot s).generation = ((history e past).creations.map Prod.snd).count s) ∧
      m.pool.created = m.pool.slots.countP (fun t => 0 < t.generation) ∧
      (m.AtRest →
        (∀ s, (m.pool.slot s).checkouts = (history e past).entrusted.count s) ∧
        (m.pool.slots.map Slot.checkouts).sum = m.counts.scheduled ∧
        m.counts.scheduled = (history e past).entrusted.length) := by
  refine ⟨run.passes, fun later n earlier parts => ?_, run.not_shut, run.generation,
    run.created_eq, fun rest => ⟨run.checkouts rest, run.sum_checkouts rest, run.scheduled⟩⟩
  exact ⟨(run.before_of_append parts).step_passes, run.passes_since parts, run.grows parts⟩

/-- A resource that came back is found invalid, and another request is made during its check; the
slot is filled again. -/
theorem slot_histories_refilled : ∃ (past : List (Machine Bench.Rig)) (m : Machine Bench.Rig),
    Run Bench.environment past m ∧ m.AtRest ∧ m.pool.closed = false ∧ m.isReferenced = true ∧
      (ledger Bench.environment past).map Prod.snd =
        [.deliver, .create, .retire, .checkin, .deliver, .create] ∧
      (∀ s, (m.pool.slot s).state ≠ .closed) ∧
      (∀ s, (m.pool.slot s).generation =
        ((history Bench.environment past).creations.map Prod.snd).count s) ∧
      (m.pool.slots.map Slot.checkouts).sum = m.counts.scheduled := by
  have lent := ((hooked (c := { maxSize := 1 }) rfl [⟨.validate, 0, [.acquire 2]⟩]).ask
    (.acquire 0) rfl).steps 40
  have shown := (((lent.ask (.run none) rfl).steps 40).ask (.poll 0) rfl).steps 40
  have back := (((shown.ask (.invalidateHeld 0) rfl).steps 40).ask (.drop 0) rfl).steps 40
  have ended := (back.ask (.acquire 1) rfl).steps 60
  obtain ⟨_, _, open_, filled, _, counts⟩ := ended.slot_histories
  exact ⟨_, _, ended, rfl, rfl, rfl, rfl, open_ rfl rfl, filled, (counts rfl).2.1⟩

end Run
end ResourcePool
