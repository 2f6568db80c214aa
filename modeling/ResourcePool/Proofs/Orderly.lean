import ResourcePool.Proofs.Choices
import ResourcePool.Proofs.Shadow

/-!
A pool that is used from outside alone, one operation after the other: the surroundings answer as
they like but name no operations of their own. What is left to be done is then always of a few
kinds, deliveries are made only while the pool is open, and everybody whose delivery is queued
listens.
-/

namespace ResourcePool

/-- Asking for resources, giving them back, using them, closing the pool, and faults to come. -/
def Op.isPlain : Op → Bool
  | .acquire _ | .poll _ | .cancel _ | .drop _ | .checkin _ | .detach _ | .execute .. => true
  | .close | .tell _ | .invalidateHeld _ => true
  | _ => false

def Handle.isGet : Handle → Bool
  | get _ => true
  | _ => false

/-- The call can be in progress with no operation but the outermost under way. -/
def Call.fits (closed : Bool) : Call → Bool
  | create .. | schedule _ | validate _ (.checkout ..) | close _ (.invalid (.checkout ..)) =>
      !closed
  | close _ .inHand | close _ (.flush ..) => closed
  | close _ .teardown => false
  | validate _ .checkin | close _ (.invalid .checkin) | close _ .misfit => true

def Flusher.replies : Flusher → Bool
  | closer => true
  | matcher => false

def Closing.replies : Closing → Bool
  | flush who _ => who.replies
  | _ => false

def Call.replies : Call → Bool
  | close _ why => why.replies
  | _ => false

theorem Call.fits_invalid (closed : Bool) (i : Item) (check : Check) :
    (close i (.invalid check)).fits closed = (validate i check).fits closed := by
  cases check <;> rfl

namespace Activity

/-- What may be left to be done when an operation has begun, in an open and in a closed pool. -/
def fits (closed : Bool) : Activity → Bool
  | say _ | release | acquire (.handle _) | acquired _ (.handle _) | hangUp _ | giveBack _ => true
  | trigger | again _ | round .. | report _ => true
  | put _ x => !x.isGet
  | search .. => !closed
  | flush .. => closed
  | call c | answer c => c.fits closed
  | _ => false

/-- The number under which something will be put. -/
def target? : Activity → Option Nat
  | acquire (.handle k) | acquired _ (.handle k) | put k _ => some k
  | _ => none

/-- The operation will be answered in the end. -/
def replies : Activity → Bool
  | say _ | report _ | acquire (.handle _) | acquired _ (.handle _) => true
  | flush who _ => who.replies
  | call c | answer c => c.replies
  | _ => false

/-- The reply that is given. -/
def reply? : Activity → Option Reply
  | say r => some r
  | report failures =>
      some (if failures.isEmpty then .ok else .failed (.closeFailed failures))
  | _ => none

end Activity

/-- What has to come of an activity in the end: something put under a number, a reply. -/
structure Duty where
  target : Option Nat := none
  replies : Bool := false

def Activity.duty (a : Activity) : Duty where
  target := a.target?
  replies := a.replies

/-- The surroundings name no operations, in these states and in those they get into. -/
structure Environment.Silent {σ : Type} (e : Environment σ) (P : σ → Prop) : Prop where
  names : ∀ c s, P s → (e.enter c s).1 = []
  enter : ∀ c s, P s → P (e.enter c s).2
  create : ∀ n s, P s → P (e.create n s).2
  validate : ∀ r s, P s → P (e.validate r s).2
  close : ∀ r s, P s → P (e.close r s).2
  tell : ∀ n s, P s → P (e.tell n s)

namespace Pool

/-- No line falls silent, nobody stops listening to a silent one, and new waiters listen. -/
structure Heeds (p q : Pool) : Prop where
  known : ∀ (w : Nat) (x : Waiter Outcome), p.waiters[w]? = some x →
    ∃ y : Waiter Outcome, q.waiters[w]? = some y ∧
      (y.line = .silent → x.line = .silent ∧ (x.listening = true → y.listening = true))
  new : ∀ (w : Nat) (y : Waiter Outcome), p.waiters[w]? = none → q.waiters[w]? = some y →
    y.line = .silent → y.listening = true

/-- Everybody to whom something may still be sent listens. -/
def Listened (p : Pool) : Prop :=
  ∀ (w : Nat) (x : Waiter Outcome), p.waiters[w]? = some x → x.line = .silent →
    x.listening = true

variable {p q r : Pool}

theorem Heeds.of_waiters (same : q.waiters = p.waiters) : p.Heeds q :=
  ⟨fun w x found => ⟨x, by rw [same, found], fun silent => ⟨silent, id⟩⟩,
    fun w y absent found _ => by simp [same, absent] at found⟩

theorem Heeds.trans (first : p.Heeds q) (second : q.Heeds r) : p.Heeds r := by
  refine ⟨fun w x found => ?_, fun w z absent found silent => ?_⟩
  · obtain ⟨y, found, kept⟩ := first.known w x found
    obtain ⟨z, found, kept'⟩ := second.known w y found
    exact ⟨z, found, fun silent => ⟨(kept (kept' silent).1).1, fun listening =>
      (kept' silent).2 ((kept (kept' silent).1).2 listening)⟩⟩
  · cases found' : q.waiters[w]? with
    | none => exact second.new w z found' found silent
    | some y =>
        obtain ⟨z', found'', kept⟩ := second.known w y found'
        obtain rfl : z = z' := Option.some.inj (found.symm.trans found'')
        exact (kept silent).2 (first.new w y absent found' (kept silent).1)

theorem Heeds.modifyWaiter {w : Nat} {f : Waiter Outcome → Waiter Outcome}
    (kept : ∀ x, p.waiters[w]? = some x → (f x).line = .silent →
      x.line = .silent ∧ (x.listening = true → (f x).listening = true)) :
    p.Heeds (p.modifyWaiter w f) := by
  refine ⟨fun v x found => ?_, fun v y absent found _ => ?_⟩
  · by_cases same : w = v
    · subst same
      exact ⟨f x, by simp [Pool.modifyWaiter, found], kept x found⟩
    · exact ⟨x, by simp [Pool.modifyWaiter, found, same], fun silent => ⟨silent, id⟩⟩
  · simp [Pool.modifyWaiter, List.getElem?_modify, absent] at found

theorem Heeds.listened (heeds : p.Heeds q) (before : p.Listened) : q.Listened := by
  intro w y found silent
  cases found' : p.waiters[w]? with
  | none => exact heeds.new w y found' found silent
  | some x =>
      obtain ⟨y', found'', kept⟩ := heeds.known w x found'
      obtain rfl : y = y' := Option.some.inj (found.symm.trans found'')
      exact (kept silent).2 (before w x found' (kept silent).1)

theorem enroll_heeds (p : Pool) : p.Heeds p.enroll := by
  refine ⟨fun w x found => ⟨x, ?_, fun silent => ⟨silent, id⟩⟩, fun w y absent found _ => ?_⟩
  · simp only [enroll, List.getElem?_append, (List.getElem?_eq_some_iff.1 found).1, if_true, found]
  · have beyond := List.getElem?_eq_none_iff.1 absent
    simp only [enroll, List.getElem?_append, Nat.not_lt_of_ge beyond, if_false] at found
    obtain rfl := List.mem_singleton.1 (List.mem_of_getElem? found)
    rfl

theorem pick_heeds {view : List Nat} {chosen : Option Nat} (picked : p.pick view = (chosen, q)) :
    p.Heeds q := by
  cases chosen with
  | none => obtain rfl | ⟨id, _, rfl⟩ := pick_eq_none picked <;> exact .of_waiters rfl
  | some w =>
      obtain ⟨x, found, _, rfl⟩ := pick_eq_some picked
      refine Heeds.trans (.modifyWaiter (w := w) fun y found' silent => ?_) (.of_waiters rfl)
      obtain rfl : x = y := Option.some.inj (found.symm.trans found')
      exact ⟨silent, id⟩

theorem complete_heeds (p : Pool) (w : Nat) (o : Outcome) : p.Heeds (p.complete w o).2 := by
  unfold complete waiter?
  cases found : p.waiters[w]? with
  | none => exact .of_waiters rfl
  | some x =>
      refine .modifyWaiter fun y _ silent => ?_
      unfold Waiter.complete at silent
      split at silent <;> simp at silent

theorem hangUp_heeds {w : Nat} (heard : ∀ x, p.waiters[w]? = some x → x.line ≠ .silent) :
    p.Heeds (p.hangUp w).2 := by
  unfold hangUp waiter?
  cases found : p.waiters[w]? with
  | none => exact .of_waiters rfl
  | some x =>
      refine .modifyWaiter fun y _ silent => ?_
      unfold Waiter.hangUp at silent
      split at silent
      · simp at silent
      · exact absurd silent (heard x found)

end Pool

namespace Machine

variable {σ : Type} {e : Environment σ} {P : σ → Prop} {m m' n : Machine σ}

/-- Only the stack and the pool with its surroundings may be different, and nobody stopped listening
who waits for something. -/
structure Retains (P : σ → Prop) (m m' : Machine σ) : Prop where
  owned : m'.mainHandle = m.mainHandle
  background : m'.background = m.background
  paused : m'.paused = m.paused
  scheduler : m'.scheduler = m.scheduler
  tasks : m'.tasks = m.tasks
  handles : m'.handles = m.handles
  reply : m'.reply = m.reply
  closed : m'.pool.closed = m.pool.closed
  env : P m'.env
  heeds : m.pool.closed = false → m.pool.Heeds m'.pool

theorem Retains.trans (first : m.Retains P n) (second : n.Retains P m') : m.Retains P m' where
  owned := second.owned.trans first.owned
  background := second.background.trans first.background
  paused := second.paused.trans first.paused
  scheduler := second.scheduler.trans first.scheduler
  tasks := second.tasks.trans first.tasks
  handles := second.handles.trans first.handles
  reply := second.reply.trans first.reply
  closed := second.closed.trans first.closed
  env := second.env
  heeds opened := (first.heeds opened).trans (second.heeds (first.closed.trans opened))

/-- These activities may take the place of one with this duty. -/
structure Follow (closed : Bool) (d : Duty) (as : List Activity) : Prop where
  fits : ∀ b ∈ as, b.fits closed = true
  targets : as.filterMap Activity.target? = d.target.toList
  replies : d.replies = true → ∃ b ∈ as, b.replies = true
  stays : ∀ w, .hangUp w ∉ as

/-- Carrying out the activity leaves others behind that fit the state of the pool. -/
structure GoesOn (P : σ → Prop) (m : Machine σ) (d : Duty) (m' : Machine σ) : Prop where
  keeps : m.Retains P m'
  follow : ∃ as, m'.stack = as ++ m.stack ∧ Follow m.pool.closed d as

theorem Retains.push (keeps : m.Retains P n) (as : List Activity) : m.Retains P (n.push as) :=
  { keeps with }

theorem Retains.note (keeps : m.Retains P n) (ev : Event) : m.Retains P (n.note ev) :=
  { keeps with }

theorem Retains.log (keeps : m.Retains P n) (entry : LogEntry) : m.Retains P (n.log entry) :=
  { keeps with }

/-- What has nothing to do with waiters keeps them listening. -/
theorem Retains.stock (keeps : m.Retains P n) {p : Pool} (closed : p.closed = n.pool.closed)
    (waiters : p.waiters = n.pool.waiters) : m.Retains P (n.withPool p) :=
  { keeps with
    closed := closed.trans keeps.closed
    heeds := fun opened => (keeps.heeds opened).trans (.of_waiters waiters) }

theorem GoesOn.push {d : Duty} (keeps : m.Retains P n) (same : n.stack = m.stack)
    {as : List Activity} (follow : Follow m.pool.closed d as) :
    GoesOn P m d (n.push as) :=
  ⟨keeps.push as, as, congrArg _ same, follow⟩

theorem GoesOn.still (keeps : m.Retains P n) (same : n.stack = m.stack) : GoesOn P m {} n :=
  ⟨keeps, [], same, ⟨by simp, rfl, by simp, by simp⟩⟩

section GoesOn

variable (holds : P m.env)
include holds

theorem Retains.refl : m.Retains P m :=
  ⟨rfl, rfl, rfl, rfl, rfl, rfl, rfl, rfl, holds, fun _ => .of_waiters rfl⟩

theorem Retains.withPool {p : Pool} (closed : p.closed = m.pool.closed)
    (heeds : m.pool.closed = false → m.pool.Heeds p) : m.Retains P (m.withPool p) :=
  ⟨rfl, rfl, rfl, rfl, rfl, rfl, rfl, closed, holds, heeds⟩

theorem lend_retains (w : Nat) (i : Item) : m.Retains P (m.lend w i) := by
  unfold lend
  cases lent : m.pool.lend? i.slot with
  | none => exact ⟨rfl, rfl, rfl, rfl, rfl, rfl, rfl, rfl, holds, fun _ => .of_waiters rfl⟩
  | some p =>
      have same := Pool.lend?_sameLine lent
      exact ⟨rfl, rfl, rfl, rfl, rfl, rfl, rfl, same.closed, holds,
        fun _ => .of_waiters same.waiters⟩

attribute [local simp] Activity.fits Call.fits Activity.target? Activity.replies Call.replies
  Closing.replies Flusher.replies Activity.duty List.filterMap_cons

omit holds in
theorem lend_goesOn (kept : m.Retains P n) (same : n.stack = m.stack) (k w : Nat) (i : Item)
    (opened : m.pool.closed = false) : GoesOn P m {} ((n.push [.round k none]).lend w i) := by
  obtain ⟨t, stack, _⟩ := (n.push [.round k none]).lend_untouched w i
  have lent := lend_retains (m := n.push [.round k none]) kept.env w i
  refine ⟨(kept.push [.round k none]).trans lent, [.call (.schedule t), .round k none], ?_, ?_⟩
  · rw [stack, ← same]
    rfl
  · constructor <;> simp [opened]

theorem handOut_goesOn (k : Nat) (view : List Nat) (i : Item) (opened : m.pool.closed = false) :
    GoesOn P m {} (m.handOut k view i) := by
  unfold handOut
  split
  · next w p picked =>
      exact lend_goesOn (.withPool holds (Pool.pick_sameStock picked).closed
        fun _ => Pool.pick_heeds picked) rfl k w i opened
  · next p picked =>
      refine .push (.withPool holds (Pool.pick_sameStock picked).closed
        fun _ => Pool.pick_heeds picked) rfl ?_
      constructor <;> simp

theorem fill_goesOn (k : Nat) (view : List Nat) (r : Reservation)
    (opened : m.pool.closed = false) :
    GoesOn P m {} (m.fill k view r) := by
  unfold fill
  split
  · next w p picked =>
      refine .push (.withPool holds (Pool.pick_sameStock picked).closed
        fun _ => Pool.pick_heeds picked) rfl ?_
      constructor <;> simp [opened]
  · next p picked =>
      have line := p.unreserve_sameLine r
      refine .push (.withPool holds (line.closed.trans (Pool.pick_sameStock picked).closed)
        fun _ => (Pool.pick_heeds picked).trans (.of_waiters line.waiters)) rfl ?_
      constructor <;> simp

theorem seek_goesOn (k : Nat) (view : List Nat) (opened : m.pool.closed = false) :
    GoesOn P m {} (m.seek k view) := by
  unfold seek
  split
  · next i p popped =>
      have line := Pool.popReturned?_sameLine popped
      have kept : m.Retains P (m.withPool p) :=
        .stock (.refl holds) line.closed line.waiters
      split
      · refine .push kept rfl ?_
        constructor <;> simp [opened]
      · obtain ⟨keeps, as, stack, follow⟩ := handOut_goesOn (P := P) (m := m.withPool p)
          holds k view i (line.closed.trans opened)
        exact ⟨kept.trans keeps, as, stack, line.closed ▸ follow⟩
  · split
    · next r p reserved =>
        have line := Pool.reserve?_sameLine reserved
        have kept : m.Retains P (m.withPool p) :=
          .stock (.refl holds) line.closed line.waiters
        obtain ⟨keeps, as, stack, follow⟩ := fill_goesOn (P := P) (m := m.withPool p)
          holds k view r (line.closed.trans opened)
        exact ⟨kept.trans keeps, as, stack, line.closed ▸ follow⟩
    · refine .push (.refl holds) rfl ?_
      constructor <;> simp

theorem round_goesOn (k : Nat) (inHand : Option Item) :
    GoesOn P m {} (m.round k inHand) := by
  unfold round
  split
  · next closed =>
      cases inHand with
      | none =>
          refine .push (.refl holds) rfl ?_
          constructor <;> simp [closed]
      | some i =>
          change GoesOn P m {} ((m.withPool (m.pool.setState i.slot .closed)).push
            [.call (.close i .inHand), .flush .matcher [], .again k])
          refine .push (.stock (p := m.pool.setState i.slot .closed) (.refl holds) rfl rfl) rfl ?_
          constructor <;> simp [closed]
  · next opened =>
      have opened := Bool.eq_false_iff.2 opened
      split
      · next i _ =>
          refine .push (.stock (p := m.pool.pushReturned i) (.refl holds) rfl rfl) rfl ?_
          constructor <;> simp
      · refine .push (.refl holds) rfl ?_
        constructor <;> simp
      · exact handOut_goesOn holds k _ _ opened
      · exact seek_goesOn holds k _ opened

theorem trigger_goesOn : GoesOn P m {} m.trigger := by
  have kept : m.Retains P (m.withPool { m.pool with triggers := m.pool.triggers + 1 }) :=
    .stock (.refl holds) rfl rfl
  unfold trigger
  dsimp only
  split
  · refine .push kept rfl ?_
    constructor <;> simp
  · exact .still kept rfl

theorem again_goesOn (k : Nat) : GoesOn P m {} (m.again k) := by
  have kept : m.Retains P (m.withPool { m.pool with triggers := m.pool.triggers - k }) :=
    .stock (.refl holds) rfl rfl
  unfold again
  dsimp only
  split
  · exact .still kept rfl
  · refine .push kept rfl ?_
    constructor <;> simp

theorem giveBack_goesOn (i : Item) : GoesOn P m {} (m.giveBack i) := by
  unfold giveBack
  split
  · refine .push (.log (.refl holds) _) rfl ?_
    constructor <;> simp
  · next p taken =>
      have line := Pool.takeBack?_sameLine taken
      have kept : m.Retains P (m.withPool p) := .stock (.refl holds) line.closed line.waiters
      dsimp only
      split
      · refine .push kept rfl ?_
        constructor <;> simp
      · refine .push ((kept.log _).stock (p := p.pushReturned i) rfl rfl) rfl ?_
        constructor <;> simp

theorem flush_goesOn (who : Flusher) (failures : List CloseFailure)
    (closed : m.pool.closed = true) :
    GoesOn P m { replies := who.replies } (m.flush who failures) := by
  have late {q : Pool} (same : q.closed = m.pool.closed) : m.Retains P (m.withPool q) :=
    .withPool holds same fun opened => absurd (closed.symm.trans opened) (by simp)
  unfold flush
  split
  · next i p popped =>
      have line := Pool.popReturned?_sameLine popped
      refine .push (n := m.withPool (p.setState i.slot .closed)) (late line.closed) rfl ?_
      constructor <;> simp [closed]
  · have kept := late m.pool.dismissAll_sameStock.closed
    cases who with
    | closer =>
        refine .push kept rfl ?_
        constructor <;> simp
    | matcher => exact .still kept rfl

theorem hangUp_goesOn {w : Nat} (heard : m.pool.closed = false →
    ∀ x, m.pool.waiters[w]? = some x → x.line ≠ .silent) : GoesOn P m {} (m.hangUp w) := by
  have kept : m.Retains P (m.withPool (m.pool.hangUp w).2) :=
    .withPool holds (m.pool.hangUp_sameStock w).closed
      fun opened => Pool.hangUp_heeds (heard opened)
  unfold hangUp
  split
  · next i p left =>
      rw [left] at kept
      refine .push kept rfl ?_
      constructor <;> simp
  · next left =>
      rw [left] at kept
      exact .still kept rfl

theorem request_goesOn (k : Nat) :
    GoesOn P m { target := some k, replies := true } (m.request (.handle k)) := by
  unfold request
  dsimp only
  split
  · next closed =>
      refine .push (.withPool holds (p := m.pool.turnAway) rfl
        fun opened => absurd (closed.symm.trans opened) (by simp)) rfl ?_
      constructor <;> simp
  · refine .push (.log (.withPool (p := m.pool.enroll) holds rfl
      fun _ => m.pool.enroll_heeds) _) rfl ?_
    constructor <;> simp

theorem call_goesOn (silent : e.Silent P) {c : Call} (fits : c.fits m.pool.closed = true) :
    GoesOn P m { replies := c.replies } (m.call e c) := by
  have announced (n : Machine σ) (same : m.Retains P n) (stack : n.stack = m.stack) :
      GoesOn P m { replies := c.replies } (n.announce e c) := by
    unfold announce
    simp only [silent.names c.moment n.env same.env]
    have entered : m.Retains P { n with env := (e.enter c.moment n.env).2 } :=
      { same with env := silent.enter c.moment n.env same.env }
    refine .push (entered.note _) stack ?_
    constructor <;> simp [nested, fits, -Call.fits]
  unfold call
  split
  · dsimp only
    split
    · exact announced _ { Retains.refl holds with } rfl
    · refine .push (n := { m with counts := m.counts.schedule }) { Retains.refl holds with } rfl ?_
      constructor <;> simp_all
  · exact announced m (.refl holds) rfl

theorem created_goesOn (silent : e.Silent P) (k w : Nat) (r : Reservation)
    (opened : m.pool.closed = false) : GoesOn P m {} (m.created e k w r) := by
  have holds' := silent.create r.slot m.env holds
  unfold created
  split
  · next env made =>
      rw [made] at holds'
      have line := m.pool.occupy_sameLine r
      have kept : m.Retains P { m with env, made := m.made + 1 } :=
        { Retains.refl holds with env := holds' }
      exact lend_goesOn ((((kept.log _).note _).stock line.closed line.waiters).log _) rfl k w _
        opened
  · next cause env failed =>
      rw [failed] at holds'
      have line := m.pool.unreserve_sameLine r
      have sent := (m.pool.unreserve r).complete_sameStock w
        (.error (.creationFailed r.slot cause))
      have heeds := (m.pool.unreserve r).complete_heeds w (.error (.creationFailed r.slot cause))
      have kept : m.Retains P { m with env } := { Retains.refl holds with env := holds' }
      have freed := ((kept.note .createFailed).stock (p := m.pool.unreserve r) line.closed
        line.waiters).log (.creationFailed r.slot w cause)
      refine .push (freed.trans (.withPool holds' sent.closed fun _ => heeds)) rfl ?_
      constructor <;> simp

theorem validated_goesOn (silent : e.Silent P) (i : Item) (check : Check)
    (fits : (Call.validate i check).fits m.pool.closed = true) :
    GoesOn P m {} (m.validated e i check) := by
  have holds' := silent.validate i.resource m.env holds
  have kept : m.Retains P { m with env := (e.validate i.resource m.env).2 } :=
    { Retains.refl holds with env := holds' }
  unfold validated
  dsimp only
  split
  · obtain ⟨keeps, as, stack, follow⟩ := handOut_goesOn (P := P)
      (m := ({ m with env := (e.validate i.resource m.env).2 } : Machine σ).note
        (.valid (e.validate i.resource m.env).1)) holds' _ _ i
      (show m.pool.closed = false by simpa using fits)
    exact ⟨(kept.note _).trans keeps, as, stack, follow⟩
  · refine .push (((kept.note _).log _).stock (p := m.pool.pushReturned i) rfl rfl) rfl ?_
    constructor <;> simp
  · refine .push ((kept.note _).log _) rfl ⟨fun b member => ?_, rfl, by simp, by simp⟩
    obtain rfl := List.mem_singleton.1 member
    exact (Call.fits_invalid ..).trans fits

omit holds in
theorem Retains.noteClosed (kept : m.Retains P n) (slot : Nat) (f : Option Failure) :
    m.Retains P (n.noteClosed slot f) := by
  cases f <;> exact { kept with }

omit holds in
theorem Retains.noteFailure (kept : m.Retains P n) (slot : Nat) (f : Option Failure) :
    m.Retains P (n.noteFailure slot f) := by
  cases f <;> exact { kept with }

theorem closed_goesOn (silent : e.Silent P) (i : Item) (why : Closing)
    (fits : (Call.close i why).fits m.pool.closed = true) :
    GoesOn P m { replies := why.replies } (m.closed e i why) := by
  have holds' := silent.close i.resource m.env holds
  unfold closed
  dsimp only
  generalize noted : ({ m with env := (e.close i.resource m.env).2 } : Machine σ).note _ = n
  have kept : m.Retains P n := noted ▸ { Retains.refl holds with env := holds' }
  have same : n.stack = m.stack := noted ▸ rfl
  have closed := (n.noteClosed_untouched i.slot (e.close i.resource m.env).1).stack.trans same
  have failed := (n.noteFailure_untouched i.slot (e.close i.resource m.env).1).stack.trans same
  have kept' := kept.noteFailure i.slot (e.close i.resource m.env).1
  cases why with
  | invalid check =>
      have vacated : m.Retains P ((n.noteFailure i.slot (e.close i.resource m.env).1).withPool
          ((n.noteFailure i.slot (e.close i.resource m.env).1).pool.vacate i.slot)) :=
        kept'.stock rfl rfl
      cases check with
      | checkout k view =>
          refine .push vacated failed ?_
          constructor <;> simp_all
      | checkin =>
          refine .push vacated failed ?_
          constructor <;> simp
  | misfit => exact .still kept' failed
  | inHand | teardown => exact .still (kept.noteClosed _ _) closed
  | flush who failures =>
      refine .push (kept.noteClosed _ _) closed ?_
      constructor <;> simp_all

/-- Every activity that fits, apart from those that put something away and those that reply. -/
theorem exec_goesOn (silent : e.Silent P) {a : Activity} (fits : a.fits m.pool.closed = true)
    (owned : m.mainHandle = true) (alone : m.background = .absent)
    (heard : ∀ w, a = .hangUp w → m.pool.closed = false →
      ∀ x, m.pool.waiters[w]? = some x → x.line ≠ .silent)
    (noPut : ∀ k x, a ≠ .put k x) (noTask : ∀ t, a ≠ .answer (.schedule t))
    (quiet : a.reply? = none) : GoesOn P m a.duty (m.exec e a) := by
  have kept : m.Retains P m := .refl holds
  cases a with
  | say r => cases quiet
  | release =>
      have referenced : m.release = m := by simp [release, isReferenced, owned]
      change GoesOn P m {} m.release
      rw [referenced]
      exact .still kept rfl
  | acquire purpose =>
      cases purpose with
      | handle k => exact request_goesOn holds k
      | get k | background k => simp at fits
  | acquired a purpose =>
      cases purpose with
      | handle k =>
          refine .push kept rfl ?_
          constructor <;> simp [Handle.isGet]
      | get k | background k => simp at fits
  | put k x => exact absurd rfl (noPut k x)
  | hangUp w => exact hangUp_goesOn holds (heard w rfl)
  | giveBack i => exact giveBack_goesOn holds i
  | trigger => exact trigger_goesOn holds
  | again k => exact again_goesOn holds k
  | round k inHand => exact round_goesOn holds k inHand
  | search k view => exact seek_goesOn holds k view (by simpa using fits)
  | call c => exact call_goesOn holds silent fits
  | answer c =>
      cases c with
      | create k w r =>
          have goes := created_goesOn holds silent k w r (by simpa using fits)
          simpa [exec, answered, alone, Background.holdsBack] using goes
      | validate i check => exact validated_goesOn holds silent i check fits
      | close i why => exact closed_goesOn holds silent i why fits
      | schedule t => exact absurd rfl (noTask t)
  | flush who failures => exact flush_goesOn holds who failures fits
  | report failures => cases quiet
  | perform _ | finish _ | teardown | quit _ | abandon _ | task _ | deliver _ | refuse _
  | wentAway _ _ | ran | timedOut _ | awaited _ | collect _ _ _ | runNext _ _ | turn | thread _
  | launched | joined => simp at fits

end GoesOn

theorem exec_of_reply (m : Machine σ) {a : Activity} {r : Reply} (replied : a.reply? = some r) :
    ∃ entries, m.exec e a = { m with reply := r, trace := entries ++ m.trace } := by
  cases a with
  | say s =>
      obtain rfl := Option.some.inj replied
      exact ⟨[], rfl⟩
  | report failures =>
      obtain rfl := Option.some.inj replied
      simp only [exec, report]
      split
      · exact ⟨[], rfl⟩
      · exact ⟨[_], rfl⟩
  | _ => cases replied

/-- A pool that is used from outside alone and queues its deliveries. -/
structure Undisturbed (P : σ → Prop) (m : Machine σ) : Prop where
  queueing : m.scheduler.dispatcher = .manual
  owned : m.mainHandle = true
  alone : m.background = .absent
  unpaused : m.paused = []
  env : P m.env
  asked : ∀ k g, m.handles.get? k ≠ some (.get g)
  done : m.pool.closed = true → m.tasks = []
  listened : m.pool.closed = false → m.pool.Listened

theorem Undisturbed.of_retains (calm : m.Undisturbed P) (keeps : m.Retains P m') :
    m'.Undisturbed P where
  queueing := keeps.scheduler ▸ calm.queueing
  owned := keeps.owned.trans calm.owned
  alone := keeps.background.trans calm.alone
  unpaused := keeps.paused.trans calm.unpaused
  env := keeps.env
  asked := keeps.handles ▸ calm.asked
  done closed := keeps.tasks.trans (calm.done (keeps.closed ▸ closed))
  listened opened :=
    have opened := keeps.closed ▸ opened
    (keeps.heeds opened).listened (calm.listened opened)

/-- Such a pool in the middle of an operation. -/
structure Orderly (P : σ → Prop) (m : Machine σ) : Prop extends Undisturbed P m where
  fits : ∀ a ∈ m.stack, a.fits m.pool.closed = true
  targets : (m.stack.filterMap Activity.target?).Nodup
  free : ∀ k ∈ m.stack.filterMap Activity.target?, m.handles.get? k = none
  heard : m.pool.closed = false → ∀ w, .hangUp w ∈ m.stack →
    ∃ x, m.pool.waiters[w]? = some x ∧ x.line ≠ .silent

namespace Orderly

variable {a : Activity} {rest : List Activity}

theorem of_goesOn (before : m.Orderly P) (stack : m.stack = a :: rest)
    (goes : GoesOn P { m with stack := rest } a.duty m') : m'.Orderly P := by
  obtain ⟨keeps, as, stack', follow⟩ := goes
  have kept : m.Retains P m' := { keeps with }
  have targets : m'.stack.filterMap Activity.target? = m.stack.filterMap Activity.target? := by
    rw [stack', List.filterMap_append, follow.targets, stack]
    cases target : a.target? <;> simp [Activity.duty, target]
  constructor
  case toUndisturbed => exact before.toUndisturbed.of_retains kept
  case fits =>
    intro b member
    rw [stack', List.mem_append] at member
    rw [kept.closed]
    obtain new | old := member
    · exact follow.fits b new
    · exact before.fits b (stack ▸ List.mem_cons_of_mem a old)
  case targets => exact targets ▸ before.targets
  case free => exact targets ▸ kept.handles ▸ before.free
  case heard =>
    intro opened w member
    rw [stack', List.mem_append] at member
    have opened' := kept.closed ▸ opened
    obtain ⟨x, found, heard⟩ := before.heard opened' w
      (stack ▸ List.mem_cons_of_mem a (member.resolve_left (follow.stays w)))
    obtain ⟨y, found', silent⟩ := (kept.heeds opened').known w x found
    exact ⟨y, found', fun fell => heard (silent fell).1⟩

theorem of_put {k : Nat} {x : Handle} (before : m.Orderly P) (stack : m.stack = .put k x :: rest) :
    (({ m with stack := rest } : Machine σ).put k x).Orderly P := by
  have stays : ∀ b ∈ rest, b ∈ m.stack := fun b member => stack ▸ List.mem_cons_of_mem _ member
  have fits := before.fits (.put k x) (stack ▸ List.mem_cons_self ..)
  have targets : m.stack.filterMap Activity.target? = k :: rest.filterMap Activity.target? := by
    rw [stack]
    rfl
  have fresh := before.targets
  rw [targets, List.nodup_cons] at fresh
  have free : ∀ l ∈ k :: rest.filterMap Activity.target?, m.handles.get? l = none :=
    targets ▸ before.free
  have after : ({ m with stack := rest } : Machine σ).put k x =
      { m with stack := rest, handles := m.handles.insert k x } := by
    simp [Machine.put, free k (List.mem_cons_self ..), push]
  rw [after]
  refine { before with
    asked := fun l g => ?_
    fits := fun b member => before.fits b (stays b member)
    targets := fresh.2
    free := fun l member => ?_
    heard := fun opened w member => before.heard opened w (stays _ member) }
  · rw [Table.get?_insert]
    split
    · intro same
      obtain rfl := Option.some.inj same
      simp [Activity.fits, Handle.isGet] at fits
    · exact before.asked l g
  · have other : l ≠ k := fun same => fresh.1 (same ▸ member)
    rw [Table.get?_insert, if_neg other]
    exact free l (List.mem_cons_of_mem k member)

theorem of_task {t : Task} (before : m.Orderly P)
    (stack : m.stack = .answer (.schedule t) :: rest) :
    (({ m with stack := rest } : Machine σ).scheduled t).Orderly P := by
  have stays : ∀ b ∈ rest, b ∈ m.stack := fun b member => stack ▸ List.mem_cons_of_mem _ member
  have fits := before.fits (.answer (.schedule t)) (stack ▸ List.mem_cons_self ..)
  have targets : m.stack.filterMap Activity.target? = rest.filterMap Activity.target? := by
    rw [stack]
    rfl
  have after : ({ m with stack := rest } : Machine σ).scheduled t =
      { m with stack := rest, tasks := m.tasks ++ [t] } := by
    simp [scheduled, before.queueing]
  rw [after]
  refine { before with
    fits := fun b member => before.fits b (stays b member)
    targets := targets ▸ before.targets
    free := targets ▸ before.free
    done := fun closed => ?_
    heard := fun opened w member => before.heard opened w (stays _ member) }
  rw [show m.pool.closed = true from closed] at fits
  simp [Activity.fits, Call.fits] at fits

theorem of_reply {r : Reply} (before : m.Orderly P) (stack : m.stack = a :: rest)
    (replied : a.reply? = some r) :
    (({ m with stack := rest } : Machine σ).exec e a).Orderly P := by
  have stays : ∀ b ∈ rest, b ∈ m.stack := fun b member => stack ▸ List.mem_cons_of_mem _ member
  have targets : m.stack.filterMap Activity.target? = rest.filterMap Activity.target? := by
    rw [stack, List.filterMap_cons]
    cases a <;> first | rfl | cases replied
  obtain ⟨entries, after⟩ := exec_of_reply (e := e) { m with stack := rest } replied
  rw [after]
  exact { before with
    fits := fun b member => before.fits b (stays b member)
    targets := targets ▸ before.targets
    free := targets ▸ before.free
    heard := fun opened w member => before.heard opened w (stays _ member) }

theorem goesOn (silent : e.Silent P) (before : m.Orderly P) (stack : m.stack = a :: rest)
    (noPut : ∀ k x, a ≠ .put k x) (noTask : ∀ t, a ≠ .answer (.schedule t))
    (quiet : a.reply? = none) :
    GoesOn P { m with stack := rest } a.duty (({ m with stack := rest } : Machine σ).exec e a) := by
  refine exec_goesOn (m := { m with stack := rest }) before.env silent
    (before.fits a (stack ▸ List.mem_cons_self ..)) before.owned before.alone ?_ noPut noTask quiet
  rintro w rfl opened x found
  obtain ⟨y, found', loud⟩ := before.heard opened w (stack ▸ List.mem_cons_self ..)
  obtain rfl : x = y := Option.some.inj (found.symm.trans found')
  exact loud

/-- A step of an operation. -/
theorem step (silent : e.Silent P) (before : m.Orderly P) : (m.step e).Orderly P := by
  unfold Machine.step
  split
  · exact before
  · next a rest stack =>
      by_cases put : ∃ k x, a = .put k x
      · obtain ⟨k, x, rfl⟩ := put
        exact before.of_put stack
      by_cases task : ∃ t, a = .answer (.schedule t)
      · obtain ⟨t, rfl⟩ := task
        exact before.of_task stack
      by_cases replied : ∃ r, a.reply? = some r
      · exact before.of_reply stack replied.choose_spec
      exact before.of_goesOn stack (before.goesOn silent stack (fun k x same => put ⟨k, x, same⟩)
        (fun t same => task ⟨t, same⟩)
        (Option.eq_none_iff_forall_ne_some.2 fun r same => replied ⟨r, same⟩))

theorem steps (silent : e.Silent P) (before : m.Orderly P) (n : Nat) : (m.steps e n).Orderly P := by
  induction n generalizing m with
  | zero => exact before
  | succ n ih =>
      unfold Machine.steps
      split
      · exact before
      · exact ih (before.step silent)

end Orderly

end Machine
end ResourcePool
