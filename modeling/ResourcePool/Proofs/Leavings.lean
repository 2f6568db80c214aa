import ResourcePool.Proofs.Closing
import ResourcePool.Proofs.Outcomes

/-!
What an activity leaves behind, apart from calls to the surroundings. A call for matching stands on
top of all that is left with it. Only looking for a resource ends a round of matching, and only the
first poll of a request with a limit makes one that waits for its time.
-/

namespace ResourcePool

namespace Activity

@[simp] def isTrigger : Activity → Bool
  | trigger => true
  | _ => false

/-- Only looking for a resource leaves it, or the first poll of a request with a limit. -/
@[simp] def isRare : Activity → Bool
  | again _ | put _ (.get (.waiting ..)) => true
  | _ => false

end Activity

/-- No request waits with a limit that did not before. -/
def Table.Waits (t t' : Table Handle) : Prop :=
  ∀ k r d, t'.get? k = some (.get (.waiting r d)) → t.get? k = some (.get (.waiting r d))

namespace Table.Waits

theorem refl (t : Table Handle) : t.Waits t :=
  fun _ _ _ found => found

theorem erase (t : Table Handle) (key : Nat) : t.Waits (t.erase key) := by
  intro k r d found
  rw [get?_erase] at found
  split at found
  · cases found
  · exact found

theorem insert (t : Table Handle) (key : Nat) {x : Handle}
    (other : ∀ r d, x ≠ .get (.waiting r d)) : t.Waits (t.insert key x) := by
  intro k r d found
  rw [get?_insert] at found
  split at found
  · exact absurd (Option.some.inj found) (other r d)
  · exact found

end Table.Waits

namespace Machine

variable {σ : Type} {e : Environment σ} {m m' n : Machine σ}

/-- Nothing rare is left, calls for matching stand on top, and no request starts to wait. -/
structure Tidy (m m' : Machine σ) : Prop where
  left : ∃ as, m'.stack = as ++ m.stack ∧ (∀ b ∈ as, b.isRare = false) ∧
    ∀ b ∈ as.tail, b.isTrigger = false
  handles : m.handles.Waits m'.handles

namespace Tidy

theorem push {as : List Activity} (stack : n.stack = m.stack)
    (handles : m.handles.Waits n.handles) (plain : ∀ b ∈ as, b.isRare = false)
    (calls : ∀ b ∈ as.tail, b.isTrigger = false) : m.Tidy (n.push as) where
  left := ⟨as, congrArg (as ++ ·) stack, plain, calls⟩
  handles := handles

theorem still (stack : n.stack = m.stack) (handles : n.handles = m.handles) : m.Tidy n where
  left := ⟨[], stack, by simp, by simp⟩
  handles := handles ▸ .refl _

theorem onPool {f : Machine σ → Machine σ} (tidy : m.Tidy (f m)) : m.Tidy (m.onPool f) := by
  unfold Machine.onPool
  split
  · exact tidy
  · exact .still rfl rfl

theorem onFree {k : Nat} {f : Machine σ → Machine σ} (tidy : m.Tidy (f m)) :
    m.Tidy (m.onFree k f) := by
  refine onPool ?_
  split
  · exact .still rfl rfl
  · exact tidy

theorem onResource {k : Nat} {f : Handle → Resource → Machine σ}
    (tidy : ∀ x r, x.resource? = some r → m.Tidy (f x r)) : m.Tidy (m.onResource k f) := by
  unfold Machine.onResource
  split
  · exact .still rfl rfl
  · split
    · next r shown => exact tidy _ r shown
    · exact .still rfl rfl

theorem onTask {place : Nat} {as : Task → List Activity}
    (plain : ∀ t, ∀ b ∈ as t, b.isRare = false)
    (calls : ∀ t, ∀ b ∈ (as t).tail, b.isTrigger = false) :
    m.Tidy (m.onTask place fun m t => m.push (as t)) := by
  unfold Machine.onTask
  split
  · next t _ _ =>
      exact push (n := { m with tasks := m.tasks.eraseIdx place }) rfl (.refl _) (plain t) (calls t)
  · exact .still rfl rfl

end Tidy

theorem look_apart (m : Machine σ) (w : Nat) :
    (m.look w).2.stack = m.stack ∧ (m.look w).2.handles = m.handles := by
  unfold look
  split <;> exact ⟨rfl, rfl⟩

theorem withdraw_handles (m : Machine σ) (a : Acquire) : (m.withdraw a).handles = m.handles := by
  unfold withdraw
  split
  · split <;> rfl
  · rfl

theorem isRare_of_mem_dropHandle (x : Handle) {b : Activity} (member : b ∈ dropHandle x) :
    b.isRare = false ∧ b.isTrigger = false := by
  obtain a | (_ | ⟨a, d⟩) | i | r := x <;> simp [dropHandle] at member
  · obtain rfl | rfl := member <;> exact ⟨rfl, rfl⟩
  · obtain rfl := member
    exact ⟨rfl, rfl⟩
  · obtain rfl | rfl := member <;> exact ⟨rfl, rfl⟩
  · obtain rfl | rfl := member <;> exact ⟨rfl, rfl⟩

theorem drop_tidy (m : Machine σ) (k : Nat) (x : Handle) (r : Reply) :
    m.Tidy ((m.take k).push (dropHandle x ++ [.say r])) := by
  have inside : ∀ b ∈ dropHandle x ++ [.say r], b.isRare = false ∧ b.isTrigger = false := by
    intro b member
    obtain member | last := List.mem_append.1 member
    · exact isRare_of_mem_dropHandle x member
    · obtain rfl := List.mem_singleton.1 last
      exact ⟨rfl, rfl⟩
  exact .push rfl (.erase _ k) (fun b member => (inside b member).1)
    fun b member => (inside b (List.mem_of_mem_tail member)).2

theorem resolve_tidy (stack : n.stack = m.stack) (handles : n.handles = m.handles) (k : Nat)
    (o : Outcome) : m.Tidy (n.resolve k o) := by
  cases o with
  | ok i =>
      exact ⟨⟨[], stack, by simp, by simp⟩, handles ▸ .insert _ k (by simp)⟩
  | error f =>
      exact .push (n := (n.take k).answer _) stack (handles ▸ .erase _ k) (by simp) (by simp)

theorem poll_tidy (m : Machine σ) (k : Nat) : m.Tidy (m.poll k) := by
  unfold poll
  split
  · exact .still rfl rfl
  · next a _ =>
      obtain ⟨stack, handles⟩ := m.look_apart a.waiter
      split <;> next seen =>
        rw [seen] at stack handles
        first | exact .still stack handles | exact resolve_tidy stack handles k _
  · next a deadline _ =>
      obtain ⟨stack, handles⟩ := m.look_apart a.waiter
      split
      · next seen =>
          rw [seen] at stack handles
          exact resolve_tidy stack handles k _
      · next n seen =>
          rw [seen] at stack handles
          have waits : m.Tidy (n.answer (.poll .pending)) := .still stack handles
          split
          · split
            · exact .push (n := n.take k) stack (handles ▸ .erase _ k) (by simp) (by simp)
            · exact waits
          · exact waits
  · exact .push (n := m.take k) rfl (.erase _ k) (by simp) (by simp)
  · exact .still rfl rfl
  · exact .still rfl rfl

theorem cancel_tidy (m : Machine σ) (k : Nat) (a : Acquire) : m.Tidy (m.cancel k a) := by
  refine ⟨⟨_, (withdraw_stack a).trans (List.append_assoc ..).symm, ?_, ?_⟩, ?_⟩
  · intro b member
    split at member <;> aesop
  · split <;> simp
  · unfold cancel
    dsimp only
    rw [withdraw_handles]
    exact .erase _ k

theorem runNext_tidy (m : Machine σ) (left : Option Nat) (labels : List Nat) :
    m.Tidy (m.runNext left labels) := by
  unfold runNext
  split
  · exact .still rfl rfl
  · exact .still rfl rfl
  · next t rest _ _ =>
      exact .push (n := { m with tasks := rest }) rfl (.refl _) (by simp) (by simp)

theorem perform_tidy (m : Machine σ) {op : Op} (alone : op ≠ .join) : m.Tidy (m.perform e op) := by
  cases op with
  | join => exact absurd rfl alone
  | acquire k => exact .onFree (.push rfl (.refl _) (by simp) (by simp))
  | get k => exact .onFree ⟨⟨[], rfl, by simp, by simp⟩, .insert _ k (by simp)⟩
  | poll k => exact m.poll_tidy k
  | await k => exact .push rfl (.refl _) (by simp) (by simp)
  | pollAll =>
      simp only [perform]
      cases ((m.handles.entries.filter fun e => e.2.isPending).map Prod.fst) with
      | nil => exact .still rfl rfl
      | cons h rest => exact .push rfl (.refl _) (by simp) (by simp)
  | cancel k =>
      simp only [perform]
      split
      · exact .still rfl rfl
      · exact m.cancel_tidy k _
      · exact .still rfl rfl
  | drop k =>
      simp only [perform]
      split
      · exact .still rfl rfl
      · exact m.drop_tidy k _ _
  | checkin k =>
      simp only [perform]
      refine .onPool ?_
      split
      · exact .still rfl rfl
      · exact m.drop_tidy k _ _
      · exact .still rfl rfl
  | detach k =>
      simp only [perform]
      split
      · exact .still rfl rfl
      · exact .push (n := ((m.take k).log _).withPool _) rfl (.erase _ k) (by simp) (by simp)
      · exact .still rfl rfl
  | execute k statement =>
      refine .onResource fun x r shown => ?_
      split
      · refine ⟨⟨[], rfl, by simp, by simp⟩, .insert _ k fun q d waits => ?_⟩
        cases x with
        | guard | detached => cases waits
        | acquire | get => cases shown
      · exact .still rfl rfl
  | executed k => exact .onResource fun _ _ _ => .still rfl rfl
  | run limit =>
      simp only [perform, run]
      split
      · exact m.runNext_tidy limit []
      · split
        · exact .still rfl rfl
        · exact .push rfl (.refl _) (by simp) (by simp)
      · exact .still rfl rfl
  | runAt place => exact .onTask (by simp) (by simp)
  | dropTask place => exact .onTask (by simp) (by simp)
  | advance ms =>
      simp only [perform, advance]
      split
      · split
        · exact .still rfl rfl
        · exact .push (n := { m with clock := m.clock + ms }) rfl (.refl _) (by simp) (by simp)
      · exact .still rfl rfl
  | close =>
      refine .onPool ?_
      unfold close
      split
      · exact .still rfl rfl
      · exact .push (n := (m.withPool { m.pool with closed := true }).log .closing) rfl (.refl _)
          (by simp) (by simp)
  | dropClone =>
      simp only [perform]
      split
      · exact .still rfl rfl
      · exact .push (n := { m with clones := m.clones - 1 }) rfl (.refl _) (by simp) (by simp)
  | dropPool =>
      simp only [perform]
      split
      · exact .push (n := { m with mainHandle := false }) rfl (.refl _) (by simp) (by simp)
      · exact .still rfl rfl
  | background k =>
      refine .onFree ?_
      unfold launch
      split
      · exact .push (n := { m with background := .running }) rfl (.refl _) (by simp) (by simp)
      · exact .still rfl rfl
  | isClosed | status | slots | config | describePool | factoryCreated | clone =>
      simp only [perform]
      exact .onPool (.still rfl rfl)
  | tell | factoryCounts => exact .still rfl rfl
  | info | describe | invalidateHeld | dispatchCounts =>
      simp only [perform, describe]
      split <;> exact .still rfl rfl

theorem lend_left (m : Machine σ) (w : Nat) (i : Item) :
    (∃ t, (m.lend w i).stack = .call (.schedule t) :: m.stack) ∧
      (m.lend w i).handles = m.handles := by
  unfold lend
  cases m.pool.lend? i.slot <;> exact ⟨⟨_, rfl⟩, rfl⟩

theorem lend_tidy {k : Nat} (stack : n.stack = .round k none :: m.stack)
    (handles : n.handles = m.handles) (w : Nat) (i : Item) : m.Tidy (n.lend w i) := by
  obtain ⟨⟨t, pushed⟩, same⟩ := n.lend_left w i
  exact ⟨⟨[.call (.schedule t), .round k none], pushed.trans (congrArg _ stack), by simp, by simp⟩,
    (same.trans handles) ▸ .refl _⟩

theorem handOut_tidy (stack : n.stack = m.stack) (handles : n.handles = m.handles) (k : Nat)
    (view : List Nat) (i : Item) : m.Tidy (n.handOut k view i) := by
  unfold handOut
  split
  · next w p _ =>
      exact lend_tidy (n := (n.withPool p).push [.round k none])
        (congrArg (Activity.round k none :: ·) stack) handles w i
  · exact .push (n := n.withPool _) stack (handles ▸ .refl _) (by simp) (by simp)

/-- Looking for a resource ends the round if there is none. -/
theorem seek_tidy (m : Machine σ) (k : Nat) (view : List Nat) :
    m.Tidy (m.seek k view) ∨ m.seek k view = m.push [.again k] := by
  unfold seek
  split
  · next i p _ =>
      refine .inl ?_
      split
      · exact .push (n := m.withPool p) rfl (.refl _) (by simp) (by simp)
      · apply handOut_tidy <;> rfl
  · split
    · next r p _ =>
        refine .inl ?_
        unfold fill
        split <;> exact .push (n := m.withPool _) rfl (.refl _) (by simp) (by simp)
    · exact .inr rfl

theorem round_tidy (opened : m.pool.closed = false) (k : Nat) (inHand : Option Item) :
    m.Tidy (m.round k inHand) ∨ ∃ p, m.round k inHand = (m.withPool p).push [.again k] := by
  unfold round
  simp only [opened, Bool.false_eq_true, if_false]
  split
  · exact .inr ⟨_, rfl⟩
  · exact .inr ⟨m.pool, rfl⟩
  · exact .inl (handOut_tidy rfl rfl k _ _)
  · exact (m.seek_tidy k _).imp_right fun ended => ⟨m.pool, ended⟩

/-- In a closed pool a round empties the queue before it ends. -/
theorem round_closed (closed : m.pool.closed = true) (k : Nat) (inHand : Option Item) :
    (m.round k inHand).stack = ((inHand.toList.map fun i => .call (.close i .inHand)) ++
      [.flush .matcher [], .again k]) ++ m.stack ∧ (m.round k inHand).handles = m.handles := by
  unfold round
  simp only [closed, if_true]
  cases inHand <;> exact ⟨rfl, rfl⟩

theorem mem_nested_tidy {before : Reply} {ops : List Op} {c : Call} {b : Activity}
    (member : b ∈ nested before ops ++ [.answer c]) : b.isRare = false ∧ b.isTrigger = false := by
  obtain ⟨op, rfl⟩ | rfl | rfl := mem_begun member <;> exact ⟨rfl, rfl⟩

theorem call_tidy (m : Machine σ) (c : Call) : m.Tidy (m.call e c) := by
  have announces (counts : DispatchCounts) :
      m.Tidy (({ m with counts } : Machine σ).announce e c) :=
    ⟨⟨_, rfl, fun _ member => (mem_nested_tidy member).1,
      fun _ member => (mem_nested_tidy (List.mem_of_mem_tail member)).2⟩, .refl _⟩
  unfold call
  split
  · dsimp only
    split
    · exact announces _
    · exact .push (n := { m with counts := m.counts.schedule }) rfl (.refl _) (by simp) (by simp)
  · exact announces m.counts

theorem created_tidy (m : Machine σ) (k w : Nat) (r : Reservation) :
    m.Tidy (m.created e k w r) := by
  unfold created
  split
  · apply lend_tidy <;> rfl
  · exact ⟨⟨[_], rfl, by simp, by simp⟩, .refl _⟩

theorem validated_tidy (m : Machine σ) (i : Item) (check : Check) :
    m.Tidy (m.validated e i check) := by
  unfold validated
  dsimp only
  split
  · apply handOut_tidy <;> rfl
  · exact ⟨⟨[_], rfl, by simp, by simp⟩, .refl _⟩
  · exact ⟨⟨[_], rfl, by simp, by simp⟩, .refl _⟩

theorem closed_tidy (m : Machine σ) (i : Item) (why : Closing) : m.Tidy (m.closed e i why) := by
  unfold closed
  dsimp only
  cases (e.close i.resource m.env).1 with
  | none | some cause =>
      cases why with
      | invalid check => cases check <;> exact ⟨⟨[_], rfl, by simp, by simp⟩, .refl _⟩
      | misfit | inHand | teardown => exact .still rfl rfl
      | flush who failures => exact ⟨⟨[_], rfl, by simp, by simp⟩, .refl _⟩

theorem complete_tidy (m : Machine σ) (t : Task) (o : Outcome) : m.Tidy (m.complete t o) := by
  unfold complete
  split
  · exact .still rfl rfl
  · exact .push (n := m.withPool _) rfl (.refl _) (by simp) (by simp)
  · exact .push (n := m.withPool _) rfl (.refl _) (by simp) (by simp)

theorem quit_tidy (m : Machine σ) (a : Acquire) :
    m.Tidy ((m.push [.hangUp a.waiter]).withdraw a) := by
  refine ⟨⟨_, (withdraw_stack a).trans (List.append_assoc ..).symm, ?_, ?_⟩, ?_⟩
  · split <;> simp
  · split <;> simp
  · rw [withdraw_handles]
    exact .refl _

theorem answered_tidy (m : Machine σ) {c : Call}
    (awake : ∀ k w r, c = .create k w r → m.background.holdsBack = false) :
    m.Tidy (m.answered e c) := by
  cases c with
  | create k w r =>
      simp only [answered, awake k w r rfl, Bool.false_eq_true, if_false]
      exact m.created_tidy k w r
  | validate i check => exact m.validated_tidy i check
  | close i why => exact m.closed_tidy i why
  | schedule t =>
      simp only [answered, scheduled]
      split
      · exact .push rfl (.refl _) (by simp) (by simp)
      · exact .still rfl rfl

theorem exec_tidy (m : Machine σ) (a : Activity) (alone : a ≠ .perform .join)
    (awake : ∀ k w r, a = .answer (.create k w r) → m.background.holdsBack = false)
    (rounds : ∀ k i, a ≠ .round k i) (searches : ∀ k view, a ≠ .search k view)
    (first : ∀ r k, a ≠ .acquired r (.get k)) (puts : ∀ k x, a ≠ .put k x) :
    m.Tidy (m.exec e a) := by
  cases a with
  | perform op => exact m.perform_tidy fun joins => alone (congrArg _ joins)
  | round k i => exact absurd rfl (rounds k i)
  | search k view => exact absurd rfl (searches k view)
  | put k x => exact absurd rfl (puts k x)
  | acquire purpose =>
      simp only [exec, request]
      split
      · exact .push (n := m.withPool _) rfl (.refl _) (by simp) (by simp)
      · exact .push (n := (m.withPool _).log _) rfl (.refl _) (by simp) (by simp)
  | acquired r purpose =>
      cases purpose with
      | get k => exact absurd rfl (first r k)
      | handle k => exact .push rfl (.refl _) (by simp) (by simp)
      | background k => exact .still rfl rfl
  | quit r => exact m.quit_tidy r
  | hangUp w =>
      simp only [exec, hangUp]
      split
      · exact .push (n := m.withPool _) rfl (.refl _) (by simp) (by simp)
      · exact .still rfl rfl
  | giveBack i =>
      simp only [exec, giveBack]
      split
      · exact .push (n := m.log _) rfl (.refl _) (by simp) (by simp)
      · split
        · exact .push (n := m.withPool _) rfl (.refl _) (by simp) (by simp)
        · exact .push (n := ((m.withPool _).log _).withPool _) rfl (.refl _) (by simp) (by simp)
  | trigger =>
      simp only [exec, trigger]
      split
      · exact .push (n := m.withPool _) rfl (.refl _) (by simp) (by simp)
      · exact .still rfl rfl
  | again k =>
      simp only [exec, again]
      split
      · exact .still rfl rfl
      · exact .push (n := m.withPool _) rfl (.refl _) (by simp) (by simp)
  | call c => exact m.call_tidy c
  | answer c => exact m.answered_tidy fun k w r create => awake k w r (congrArg _ create)
  | task t =>
      simp only [exec, runTask]
      split <;> exact .push (n := { m with counts := _ }) rfl (.refl _) (by simp) (by simp)
  | deliver t | refuse t => exact m.complete_tidy t _
  | flush who failures =>
      simp only [exec, flush]
      split
      · exact .push (n := (m.withPool _).withPool _) rfl (.refl _) (by simp) (by simp)
      · cases who with
        | closer => exact .push (n := m.withPool _) rfl (.refl _) (by simp) (by simp)
        | matcher => exact .still rfl rfl
  | teardown =>
      simp only [exec, teardown]
      split
      · exact ⟨⟨[_, _], rfl, by simp, by simp⟩, .refl _⟩
      · exact .still rfl rfl
  | release =>
      simp only [exec, release]
      split
      · exact .still rfl rfl
      · exact .push (n := { m with torn := true }) rfl (.refl _) (by simp) (by simp)
  | report failures =>
      simp only [exec, report]
      split <;> exact .still rfl rfl
  | awaited k =>
      simp only [exec, awaited]
      split
      · exact .push rfl (.refl _) (by simp) (by simp)
      · exact .still rfl rfl
  | collect k rest seen =>
      cases rest with
      | nil => exact .still rfl rfl
      | cons h rest => exact .push rfl (.refl _) (by simp) (by simp)
  | runNext left labels => exact m.runNext_tidy left labels
  | turn =>
      simp only [exec, turn]
      split
      · exact .still rfl rfl
      · next t rest _ =>
          exact .push (n := { m with tasks := rest }) rfl (.refl _) (by simp) (by simp)
  | launched =>
      simp only [exec, launched]
      split <;> exact .still rfl rfl
  | joined =>
      simp only [exec, joined]
      split
      · exact .push (n := { m with background := .absent }) rfl (.refl _) (by simp) (by simp)
      · exact .still rfl rfl
  | finish | say | abandon | wentAway | ran | timedOut | thread => exact .still rfl rfl

end Machine
end ResourcePool
