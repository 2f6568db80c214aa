import ResourcePool.Proofs.Guards
import ResourcePool.Proofs.Turns

/-!
A pool that is closed while a matching is at work. The matching has read the closed flag before, and
its view of the line may be out of date. But whoever closed the pool stands above it and empties the
queue first, and after that nobody is in line: the matching chooses nobody any more. On the other
thread a matching can only stand at a call for a new resource, and it reads the flag after it.
-/

namespace ResourcePool

attribute [-simp] Multiset.singleton_add

namespace Activity

/-- A new resource is being made. -/
@[simp] def creates : Activity → Bool
  | call (.create ..) | answer (.create ..) => true
  | _ => false

/-- Whoever is chosen from the line in this activity was in line when the pool was open. -/
@[simp] def isCalm (a : Activity) : Bool :=
  !a.keepsView && !a.creates

theorem isCalm_of_isBare {a : Activity} (bare : a.isBare = true) : a.isCalm = true := by
  cases a <;> simp_all

theorem not_flushes_of_keepsView {a : Activity} (keeps : a.keepsView = true) :
    a.flushes ≠ true := by
  cases a with
  | search => simp
  | call c | answer c =>
      obtain _ | _ | ⟨i, why⟩ | _ := c
      case close => cases why <;> simp_all
      all_goals simp
  | _ => exact absurd keeps (by simp)

/-- Only a matching chooses. -/
theorem matches_of_not_isCalm {a : Activity} (chooses : a.isCalm = false) :
    ∃ n stage, .matcher n stage ∈ a.assets := by
  cases a with
  | search => simp
  | call c | answer c =>
      obtain _ | ⟨i, _ | _⟩ | ⟨i, (_ | _) | _ | _ | _ | _⟩ | t := c <;> simp_all
  | _ => simp at chooses

end Activity

/-- Somebody on the stack empties the queue, and nobody above chooses from the line. -/
@[simp] def Shielding : List Activity → Prop
  | [] => False
  | a :: as => a.flushes = true ∨ a.isCalm = true ∧ Shielding as

theorem Shielding.append {as bs : List Activity} (calm : ∀ a ∈ as, a.isCalm = true)
    (shielding : Shielding bs) : Shielding (as ++ bs) := by
  induction as with
  | nil => exact shielding
  | cons a as ih =>
      exact .inr ⟨calm a (List.mem_cons_self ..), ih fun b member =>
        calm b (List.mem_cons_of_mem a member)⟩

namespace Machine

variable {σ : Type} {e : Environment σ} {m m' : Machine σ}

theorem Looks.keepsView {a : Activity} {n : Nat} {view : List Nat} (looks : m.Looks a n view)
    (closed : m.pool.closed = true) : a.keepsView = true := by
  cases looks with
  | afresh opened => exact absurd (opened.symm.trans closed) Bool.false_ne_true
  | again => rfl

theorem Finds.keepsView {a : Activity} {n : Nat} {view : List Nat} {i : Item} {rest : List Item}
    (finds : m.Finds a n view i rest) (closed : m.pool.closed = true) : a.keepsView = true := by
  cases finds with
  | inHand opened => exact absurd (opened.symm.trans closed) Bool.false_ne_true
  | valid => rfl
  | queued looks => exact looks.keepsView closed

theorem Looks.flushes {a : Activity} {n : Nat} {view : List Nat} (looks : m.Looks a n view) :
    a.flushes = false := by
  cases looks <;> rfl

theorem Finds.flushes {a : Activity} {n : Nat} {view : List Nat} {i : Item} {rest : List Item}
    (finds : m.Finds a n view i rest) : a.flushes = false := by
  cases finds with
  | inHand | valid => rfl
  | queued looks => exact looks.flushes

theorem isCalm_of_mem_nested {r : Reply} {ops : List Op} {b : Activity}
    (member : b ∈ nested r ops) : b.isCalm = true := by
  obtain ⟨op, rfl⟩ | rfl := nested_of_mem member <;> rfl

namespace Sequel

variable {a : Activity} {as : List Activity} {r : List Item} {c : Bool}

/-- What does not choose leaves nothing that chooses, in a closed pool. -/
theorem shielding {rest : List Activity} (sequel : m.Sequel e a as r c)
    (closed : m.pool.closed = true) (idle : a.flushes = false) (calm : a.isCalm = true)
    (below : Shielding rest) : Shielding (as ++ rest) := by
  have stale (keeps : a.keepsView = true) : False := by
    rw [Activity.isCalm, keeps] at calm
    exact Bool.false_ne_true calm
  cases sequel with
  | bare _ _ bare | store _ _ _ bare =>
      exact below.append fun b member => Activity.isCalm_of_isBare (bare b member)
  | lend finds | retain finds => exact (stale (finds.keepsView closed)).elim
  | checkout looks | fill looks => exact (stale (looks.keepsView closed)).elim
  | search | made => simp at calm
  | flush | flushed | report | leave => simp at idle
  | close opened => exact absurd (opened.symm.trans closed) Bool.false_ne_true
  | checkin | misfit | wreck => simp [below]
  | @discard i check => simpa [below] using calm
  | @stop n inHand => cases inHand <;> simp
  | @begin c ops =>
      rw [List.append_assoc]
      refine Shielding.append (fun b => isCalm_of_mem_nested) ?_
      cases c <;> simp_all

/-- Who empties the queue goes on until it is empty. -/
theorem shielding_of_flushes {rest : List Activity} (sequel : m.Sequel e a as r c)
    (flushes : a.flushes = true) :
    Shielding (as ++ rest) ∨ m.pool.returned = [] ∧ ∃ who failures, a = .flush who failures := by
  cases sequel with
  | bare _ idle | store _ idle => exact absurd (idle.symm.trans flushes) Bool.false_ne_true
  | lend finds | retain finds =>
      exact absurd (finds.flushes.symm.trans flushes) Bool.false_ne_true
  | checkout looks | fill looks =>
      exact absurd (looks.flushes.symm.trans flushes) Bool.false_ne_true
  | flush | flushed => simp
  | report empty | leave empty => exact .inr ⟨empty, _, _, rfl⟩
  | @begin c ops =>
      rw [List.append_assoc]
      refine .inl (Shielding.append (fun b => isCalm_of_mem_nested) (.inl ?_))
      obtain _ | _ | ⟨i, why⟩ | _ := c
      case close => cases why <;> first | rfl | exact flushes
      all_goals exact flushes
  | _ => simp at flushes

/-- After a new resource was made, the closed flag is read anew. -/
theorem calm_of_created {k w : Nat} {q : Reservation}
    (sequel : m.Sequel e (.answer (.create k w q)) as r c) : ∀ b ∈ as, b.isCalm = true := by
  cases sequel with
  | bare _ _ bare => exact fun b member => Activity.isCalm_of_isBare (bare b member)
  | store inHand => simp at inHand
  | lend finds | retain finds =>
      cases finds with
      | queued looks => cases looks
  | checkout looks | fill looks => cases looks
  | made => simp

end Sequel

theorem mem_assets {a : Activity} {x : Asset} (member : a ∈ m.activities) (inside : x ∈ a.assets) :
    x ∈ m.assets := by
  have held : x ∈ held (m.stack ++ m.paused) := mem_sum_map.2 ⟨a, member, inside⟩
  rw [held_append] at held
  simp only [assets, Multiset.mem_add] at held ⊢
  tauto

/-- There is one matching, so what stands below it does not choose. -/
theorem isCalm_below {a : Activity} {rest : List Activity} (matching : Matching m.pool m.assets)
    (top : m.stack = a :: rest) (atWork : ∃ n stage, .matcher n stage ∈ a.assets) :
    ∀ b ∈ rest ++ m.paused, b.isCalm = true := by
  intro b member
  by_contra stale
  obtain ⟨n, stage, here⟩ := atWork
  obtain ⟨k, other, there⟩ := Activity.matches_of_not_isCalm (Bool.eq_false_iff.2 stale)
  have inside : .matcher k other ∈ held (rest ++ m.paused) := mem_sum_map.2 ⟨b, member, there⟩
  have total : matchings m.assets = matchings a.assets + (matchings (held (rest ++ m.paused)) +
      matchings (m.handles.assets + (m.tasks.map Task.assets).sum + m.background.assets)) := by
    simp only [assets, top, held_cons, held_append, matchings_add]
    abel
  have first := Multiset.card_pos_iff_exists_mem.2 ⟨_, mem_matchings.2 here⟩
  have second := Multiset.card_pos_iff_exists_mem.2 ⟨_, mem_matchings.2 inside⟩
  have count := congrArg Multiset.card total
  rw [Multiset.card_add, Multiset.card_add] at count
  obtain ⟨none, _⟩ | ⟨_, _, one, _⟩ := matching.single
  · rw [none, Multiset.card_zero] at count
    omega
  · rw [one, Multiset.card_singleton] at count
    omega

/-- The other thread can only have stopped at a call for a new resource. -/
def Stopped (m : Machine σ) : Prop :=
  m.paused = [] ∨ ∃ k w r as, m.paused = .answer (.create k w r) :: as ∧
    ∀ b ∈ as, b.isCalm = true

theorem Turn.stopped {a : Activity} {rest : List Activity} (turn : Turn e m a rest m')
    (matching : Matching m.pool m.assets) (top : m.stack = a :: rest) (before : m.Stopped) :
    m'.Stopped := by
  cases turn with
  | goOn leaves =>
      unfold Stopped
      rw [leaves.paused]
      exact before
  | resume _ _ _ paused => exact .inl paused
  | @halt k w r above below creates _ parts _ _ _ paused =>
      refine .inr ⟨k, w, r, above ++ below.take 1 ++ m.paused, ?_, fun b member => ?_⟩
      · rw [paused, creates]
        rfl
      · refine isCalm_below matching top (Activity.matches_of_not_isCalm (by simp [creates])) b ?_
        rw [parts]
        simp only [List.mem_append] at member ⊢
        exact member.imp_left (·.imp_right List.mem_of_mem_take)

/-- The queue is being emptied before anything is chosen, unless a new resource comes first. -/
def Shielded (m : Machine σ) : Prop :=
  Shielding m.stack ∨ ∃ k w r rest, m.stack = .answer (.create k w r) :: rest ∧
    m.background = .resumed ∧ Shielding rest

theorem Shielded.keepsView {a : Activity} {rest : List Activity} (shielded : m.Shielded)
    (top : m.stack = a :: rest) : a.keepsView = false := by
  by_contra keeps
  have keeps := Bool.not_eq_false _ ▸ keeps
  obtain shielding | ⟨k, v, r, below, creates, _⟩ := shielded
  · rw [top] at shielding
    obtain flushes | ⟨calm, _⟩ := shielding
    · exact Activity.not_flushes_of_keepsView keeps flushes
    · simp only [Activity.isCalm, keeps] at calm
      exact Bool.false_ne_true calm
  · obtain ⟨rfl, _⟩ := List.cons.inj (top.symm.trans creates)
    exact Bool.false_ne_true keeps

theorem Shielded.busy (shielded : m.Shielded) : m.stack ≠ [] := by
  intro empty
  simp [Shielded, empty] at shielded

/-- Whoever empties the queue refers to the pool. -/
theorem Shielded.refersToPool (shielded : m.Shielded) :
    ∃ a ∈ m.activities, a.refersToPool = true := by
  have flushing : ∀ as : List Activity, Shielding as → ∃ a ∈ as, a.refersToPool = true := by
    intro as shielding
    induction as with
    | nil => exact shielding.elim
    | cons a as ih =>
        obtain flushes | ⟨_, below⟩ := shielding
        · refine ⟨a, List.mem_cons_self .., ?_⟩
          cases a with
          | flush => rfl
          | call c | answer c =>
              obtain _ | _ | ⟨i, why⟩ | _ := c
              case close => cases why <;> first | rfl | simp at flushes
              all_goals simp at flushes
          | _ => simp at flushes
        · obtain ⟨b, member, refers⟩ := ih below
          exact ⟨b, List.mem_cons_of_mem a member, refers⟩
  obtain shielding | ⟨k, v, r, below, creates, _⟩ := shielded
  · obtain ⟨a, member, refers⟩ := flushing _ shielding
    exact ⟨a, List.mem_append_left _ member, refers⟩
  · exact ⟨.answer (.create k v r), by simp [activities, creates], rfl⟩

theorem Turn.shielded {a : Activity} {rest : List Activity} (turn : Turn e m a rest m')
    (top : m.stack = a :: rest) (closed : m.pool.closed = true) (stopped : m.Stopped)
    (before : m.Shielded) :
    m'.Shielded ∨ m.pool.returned = [] ∧ ∃ who failures, a = .flush who failures := by
  unfold Shielded at before
  obtain shielding | ⟨k, w, r, below, creates, resumed, shielding⟩ := before
  · rw [top] at shielding
    cases turn with
    | goOn leaves =>
        cases flushes : a.flushes with
        | true =>
            obtain further | empty := leaves.sequel.shielding_of_flushes flushes
            · exact .inl (.inl (leaves.stack ▸ further))
            · exact .inr empty
        | false =>
            obtain ⟨calm, below⟩ := shielding.resolve_left (Bool.eq_false_iff.1 flushes)
            exact .inl (.inl (leaves.stack ▸ leaves.sequel.shielding closed flushes calm below))
    | resume joins resumed stack =>
        have below : Shielding (.joined :: rest) := by
          subst joins
          exact .inr ⟨rfl, (shielding.resolve_left (by simp)).2⟩
        refine .inl ?_
        obtain none | ⟨k, w, r, as, paused, calm⟩ := stopped
        · exact .inl (by simpa [stack, none] using below)
        · exact .inr ⟨k, w, r, as ++ .joined :: rest, by rw [stack, paused]; rfl, resumed,
            below.append calm⟩
    | halt creates => simp [creates] at shielding
  · obtain ⟨rfl, rfl⟩ := List.cons.inj (top.symm.trans creates)
    cases turn with
    | goOn leaves =>
        exact .inl (.inl (leaves.stack ▸ shielding.append leaves.sequel.calm_of_created))
    | resume joins => cases joins
    | halt _ running => exact absurd (resumed.symm.trans running) (by simp)

/-- Who closes a pool empties the queue. -/
theorem Turn.shielding_of_close {a : Activity} {rest : List Activity} (turn : Turn e m a rest m')
    (opened : m.pool.closed = false) (closed : m'.pool.closed = true) : Shielding m'.stack := by
  cases turn with
  | goOn leaves =>
      have sequel := leaves.sequel
      rw [leaves.stack]
      generalize m'.pool.returned = r, m'.pool.closed = c at sequel closed
      cases sequel with
      | close => simp
      | _ => exact absurd (opened.symm.trans closed) Bool.false_ne_true
  | resume _ _ _ _ pool | halt _ _ _ _ _ _ _ pool =>
      rw [pool] at closed
      exact absurd (opened.symm.trans closed) Bool.false_ne_true

theorem line_of_flush {who : Flusher} {failures : List CloseFailure} {rest : List Activity}
    (top : m.stack = .flush who failures :: rest) (empty : m.pool.returned = []) :
    (m.step e).pool.registry.entries = [] := by
  have unpopped : m.pool.popReturned? = none := by
    unfold Pool.popReturned?
    rw [empty]
  simp only [step, top, exec, flush, unpopped]
  cases who <;> simp [push, withPool]

end Machine

/-- Nobody joins the line of a closed pool. -/
theorem Move.line {gone : Prop} {b c : Books} (move : Move gone b c)
    (closed : b.pool.closed = true) (empty : b.pool.registry.entries = []) :
    c.pool.registry.entries = [] := by
  -- Who is in line after the move was in line before.
  have same {p : Pool} (line : b.pool.SameLine p) : p.registry.entries = [] :=
    (congrArg Registry.entries line.registry).trans empty
  have fewer {p : Pool} (sub : p.registry.entries ⊆ b.pool.registry.entries) :
      p.registry.entries = [] := List.subset_nil.1 (empty ▸ sub)
  cases move with
  | enroll opened => exact absurd (opened.symm.trans closed) Bool.false_ne_true
  | withdraw _ _ pending =>
      obtain ⟨x, _, _, rfl⟩ := Pool.cancel?_eq_some pending
      exact fewer fun w => List.mem_of_mem_erase
  | hangUp | send | sendError => simpa using empty
  | see _ found =>
      exact (congrArg Registry.entries (Pool.sameStock_of_received found).2).trans empty
  | choose picked | miss picked => exact fewer fun w => Pool.mem_of_mem_pick picked
  | reserve _ reserved => exact same (Pool.reserve?_sameLine reserved)
  | unreserve => exact same (b.pool.unreserve_sameLine _)
  | create => exact same (b.pool.occupy_sameLine _)
  | lend _ lent => exact same (Pool.lend?_sameLine lent)
  | takeBack _ taken => exact same (Pool.takeBack?_sameLine taken)
  | pop popped => exact same (Pool.popReturned?_sameLine popped)
  | dismissAll => simp
  | _ => exact empty

theorem Pool.slot_modifySlot_of_ne {p : Pool} {i s : Nat} (other : s ≠ i) (f : Slot → Slot) :
    (p.modifySlot i f).slot s = p.slot s := by
  unfold Pool.slot Pool.modifySlot
  rw [List.getD_eq_getElem?_getD, List.getD_eq_getElem?_getD, List.getElem?_modify]
  simp [Ne.symm other]

/-- A closed slot stays closed: nobody answers for it any more. -/
theorem Move.slot_closed {gone : Prop} {b c : Books} (move : Move gone b c) (fresh : Fresh b)
    (places : Places b.pool b.torn b.stock) {s : Nat} (shut : (b.pool.slot s).state = .closed) :
    (c.pool.slot s).state = .closed := by
  have other {i : Nat} {f : Slot → Slot} {state : SlotState}
      (now : (b.pool.slot i).state = state) (alive : state ≠ .closed) :
      ((b.pool.modifySlot i f).slot s).state = .closed := by
    rwa [Pool.slot_modifySlot_of_ne]
    rintro rfl
    exact alive (now.symm.trans shut)
  have kept {p : Pool} (same : p.slots = b.pool.slots) : (p.slot s).state = .closed := by
    rwa [Pool.slot, same]
  cases move with
  | withdraw _ _ pending => exact kept (Pool.cancel?_sameStock pending).slots
  | hangUp => exact kept (Pool.hangUp_sameStock ..).slots
  | see _ found => exact kept (Pool.sameStock_of_received found).1.slots
  | send | sendError => exact kept (Pool.complete_sameStock ..).slots
  | choose picked | miss picked => exact kept (Pool.pick_sameStock picked).slots
  | dismissAll => exact kept (Pool.dismissAll_sameStock _).slots
  | reserve _ reserved =>
      obtain ⟨_, _, _, _, rfl⟩ | ⟨_, _, _, rfl⟩ := Pool.reserve?_eq_some reserved <;> exact shut
  | @unreserve _ r => cases r <;> exact shut
  | @create n r A held =>
      cases r with
      | fresh slot =>
          obtain ⟨rfl, _⟩ := fresh n slot (by simp [held])
          exact other (congrArg Slot.state (places.blank _ le_rfl)) (by simp)
      | vacated slot =>
          exact other (places.agree (.free slot) (by simp [Books.stock, held])).2
            (by simp [Holding.free])
  | lend _ lent =>
      obtain ⟨idle, rfl⟩ := Pool.lend?_eq_some lent
      exact other idle (by simp)
  | takeBack _ taken =>
      obtain ⟨lent, rfl⟩ := Pool.takeBack?_eq_some taken
      exact other lent (by simp)
  | pop popped =>
      obtain ⟨_, _, rfl⟩ := Pool.popReturned?_eq_some popped
      exact shut
  | @vacate slot A held =>
      exact other (places.agree (.spent slot) (by simp [Books.stock, held])).2
        (by simp [Holding.spent])
  | @detach i A held =>
      exact other (places.agree i.lent (by simp [Books.stock, held])).2 (by simp [Item.lent])
  | @shut i A held =>
      exact other (places.agree i.stored (by simp [Books.stock, held])).2 (by simp [Item.stored])
  | _ => exact shut

namespace Run

open Machine

variable {σ : Type} {e : Environment σ} {past : List (Machine σ)} {m : Machine σ}

/-- A pool stays closed. -/
theorem closed_step (run : Run e past m) (closed : m.pool.closed = true) :
    (m.step e).pool.closed = true :=
  run.keepsNext (I := fun b => b.pool.closed = true) Move.closed closed

theorem line_step (run : Run e past m) (closed : m.pool.closed = true)
    (empty : m.pool.registry.entries = []) : (m.step e).pool.registry.entries = [] := by
  have kept := run.keepsNext
    (I := fun b => b.pool.closed = true ∧ b.pool.registry.entries = [])
    (fun move before => ⟨move.closed before.1, move.line before.1 before.2⟩) ⟨closed, empty⟩
  exact kept.2

theorem slot_closed_step (run : Run e past m) {s : Nat} (shut : (m.pool.slot s).state = .closed) :
    ((m.step e).pool.slot s).state = .closed := by
  have kept := run.keepsNext (I := fun b => Sound b ∧ (b.pool.slot s).state = .closed)
    (fun move before => ⟨move.sound before.1,
      move.slot_closed before.1.fresh before.1.balanced.places before.2⟩) ⟨run.sound, shut⟩
  exact kept.2

theorem matching (run : Run e past m) : Matching m.pool m.assets := by
  simpa [books] using run.sound.matching

theorem stopped (run : Run e past m) : m.Stopped :=
  run.byTurns (I := fun _ m => m.Stopped) (fun _ _ paused => .inl paused)
    (fun _ _ _ before => before) (fun _ before => before)
    fun run top turn => turn.stopped run.matching top

/-- In a closed pool nobody is in line, or the queue is emptied before anybody is chosen. -/
theorem shielded (run : Run e past m) :
    m.pool.closed = true → m.pool.registry.entries = [] ∨ m.Shielded := by
  refine run.byTurns
    (I := fun _ m => m.pool.closed = true → m.pool.registry.entries = [] ∨ m.Shielded)
    (fun fresh _ _ closed => ?_) (fun a empty _ before closed => ?_) (fun _ before => before)
    fun {past m a rest} run top turn before closed => ?_
  · simp [fresh, Pool.ofConfig] at closed
  · exact .inl ((before closed).resolve_right fun shielded => shielded.busy empty)
  · cases already : m.pool.closed with
    | false => exact .inr (.inl (turn.shielding_of_close already closed))
    | true =>
        obtain none | shielded := before already
        · exact .inl (run.line_step already none)
        · obtain further | ⟨empty, who, failures, rfl⟩ :=
            turn.shielded top already run.stopped shielded
          · exact .inr further
          · exact .inl (line_of_flush top empty)

/-- In a closed pool a matching finds nobody that it could choose. -/
theorem not_pending (run : Run e past m) (closed : m.pool.closed = true) {a : Activity}
    {rest : List Activity} (top : m.stack = a :: rest) (keeps : a.keepsView = true) (w : Nat) :
    ¬m.Pending w := by
  intro pending
  have inLine := (run.sound.standings.inLine w).2 pending
  obtain none | shielded := run.shielded closed
  · exact absurd (none ▸ inLine) List.not_mem_nil
  · exact Bool.false_ne_true ((shielded.keepsView top).symm.trans keeps)

/-- Unless a resource is closed as invalid, its slot was closed before. -/
theorem shut_of_call (run : Run e past m) {i : Item} {why : Closing}
    (member : .call (.close i why) ∈ m.activities) (valid : ∀ check, why ≠ .invalid check) :
    (m.pool.slot i.slot).state = .closed := by
  have ousted : .ousted i ∈ m.assets := by
    refine mem_assets member ?_
    cases why with
    | invalid check => exact absurd rfl (valid check)
    | _ => simp
  refine (run.places.agree i.ousted ?_).2
  simp only [Books.stock, books, zero_add, holdings, Multiset.mem_add]
  exact .inl ((Multiset.mem_filterMap ..).2 ⟨_, ousted, rfl⟩)

theorem shut_of_closes (run : Run e past m) {i : Item} {why : Closing} (closes : m.Closes i why)
    (valid : ∀ check, why ≠ .invalid check) : (m.pool.slot i.slot).state = .closed := by
  obtain ⟨rest, top⟩ := closes
  exact run.shut_of_call (by simp [activities, top]) valid

/-- No call for a new resource begins in a closed pool. -/
theorem not_creating (run : Run e past m) : m.pool.closed = true →
    ∀ k w r rest, m.stack ≠ .call (.create k w r) :: rest := by
  refine run.byTurns
    (I := fun _ m => m.pool.closed = true → ∀ k w r rest, m.stack ≠ .call (.create k w r) :: rest)
    (fun fresh _ _ closed => ?_) (fun a empty bare _ _ k w r rest top => ?_)
    (fun _ before => before) fun {past m a below} run top turn before closed k w r rest calls => ?_
  · simp [fresh, Pool.ofConfig] at closed
  · obtain ⟨rfl, _⟩ : a = _ ∧ _ := by simpa [push, empty] using top
    simp at bare
  · obtain ⟨as, head, sequel⟩ := turn.called top run.callsOnTop calls
    generalize (Machine.step e m).pool.returned = q, (Machine.step e m).pool.closed = c
      at sequel closed
    cases sequel with
    | bare _ _ bare | store _ _ _ bare =>
        have := bare _ (List.mem_of_head? head)
        simp at this
    | fill looks pending => exact run.not_pending closed top (looks.keepsView closed) _ pending
    | @stop n inHand => cases inHand <;> simp at head
    | @begin c ops => cases ops <;> simp [nested] at head
    | _ => simp at head

end Run
end ResourcePool
