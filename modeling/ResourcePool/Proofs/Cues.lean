import ResourcePool.Proofs.Leavings
import ResourcePool.Proofs.SingleFlight

/-!
Where a call for matching and the end of a round can stand: a call only on top, the end of a round
on top or right below the closing of idle resources that it waits for. So whenever nobody matches
there is nothing to match, also while other work is interrupted by a call: either nobody is in line,
or the pool is open and has nothing to hand out. Only a pool that was closed in the last step may
still have somebody in line, and it tells them next.
-/

namespace ResourcePool

attribute [-simp] Multiset.singleton_add

namespace Activity

/-- It empties the queue of a closed pool before a round ends. -/
@[simp] def empties : Activity → Bool
  | flush .matcher _ | call (.close _ (.flush .matcher _))
  | answer (.close _ (.flush .matcher _)) => true
  | _ => false

/-- The second may stand right below the first. -/
@[simp] def covers (a : Activity) : Activity → Bool
  | trigger => false
  | again _ => a.empties
  | _ => true

theorem covers_of_plain {a b : Activity} (rare : b.isRare = false) (call : b.isTrigger = false) :
    a.covers b = true := by
  cases b with
  | trigger => simp at call
  | again => simp at rare
  | _ => rfl

theorem eq_trigger {a : Activity} (inside : .trigger ∈ a.assets) : a = .trigger := by
  cases a with
  | trigger => rfl
  | put k x => exact absurd (Handle.still inside) (by rintro ⟨⟩)
  | acquire purpose => cases purpose <;> simp at inside
  | acquired r purpose => cases purpose <;> simp at inside
  | round k i => cases i <;> simp at inside
  | call c | answer c =>
      obtain _ | ⟨i, _ | _⟩ | ⟨i, ⟨_ | _⟩ | _ | _ | _ | _⟩ | _ := c <;> simp at inside
  | _ => simp at inside

theorem flushes_of_empties {a : Activity} (empties : a.empties = true) : a.flushes = true := by
  cases a with
  | flush => rfl
  | call c | answer c =>
      obtain _ | _ | ⟨i, _ | _ | _ | _ | _⟩ | _ := c
      all_goals first | rfl | simp at empties
  | _ => simp at empties

end Activity

/-- Each activity may stand where it stands. -/
abbrev Stacked (as : List Activity) : Prop :=
  as.IsChain fun a b => a.covers b = true

theorem Stacked.of_plain {as : List Activity} (plain : ∀ b ∈ as, b.isRare = false)
    (calls : ∀ b ∈ as.tail, b.isTrigger = false) : Stacked as := by
  refine List.isChain_iff_forall_rel_of_append_cons_cons.2 fun a b above below parts => ?_
  have inside : b ∈ as.tail := by
    subst parts
    cases above <;> simp
  exact Activity.covers_of_plain (plain b (List.mem_of_mem_tail inside)) (calls b inside)

namespace Machine

variable {σ : Type} {e : Environment σ} {m m' : Machine σ}

/-- A thread that goes on has its call answered. -/
theorem Leaves.awake {a : Activity} {rest as : List Activity}
    (leaves : Leaves e { m with stack := rest } a as (m.step e)) (top : m.stack = a :: rest)
    (k w : Nat) (r : Reservation) (creates : a = .answer (.create k w r)) :
    m.background.holdsBack = false := by
  by_contra holds
  have paused := congrArg List.length leaves.paused
  rw [Bool.not_eq_false] at holds
  simp only [step, top, creates, exec, answered, holds, if_true, hold, List.length_append,
    List.length_cons] at paused
  omega

theorem mem_assets_of_moving {x : Asset} (inside : x ∈ m.assets) (moving : ¬x.Still) :
    ∃ a ∈ m.activities, x ∈ a.assets := by
  simp only [assets, Multiset.mem_add] at inside
  obtain (((inside | inside) | inside) | inside) | inside := inside
  · obtain ⟨a, member, inside⟩ := mem_sum_map.1 inside
    exact ⟨a, List.mem_append_left _ member, inside⟩
  · obtain ⟨a, member, inside⟩ := mem_sum_map.1 inside
    exact ⟨a, List.mem_append_right _ member, inside⟩
  · obtain ⟨entry, _, inside⟩ := mem_sum_map.1 inside
    exact absurd (Handle.still inside) moving
  · obtain ⟨t, _, inside⟩ := mem_sum_map.1 inside
    exact absurd (Task.still inside) moving
  · exact absurd (Background.still inside) moving

theorem Sequel.closed {a : Activity} {as : List Activity} {r : List Item} {c : Bool}
    (sequel : m.Sequel e a as r c) (stays : a ≠ .perform .close) : c = m.pool.closed := by
  cases sequel with
  | close => exact absurd rfl stays
  | _ => rfl

/-- The emptying of the queue is followed by nothing else until it is over. -/
theorem Sequel.empties {a b : Activity} {as : List Activity} {r : List Item} {c : Bool}
    (sequel : m.Sequel e a as r c) (empties : a.empties = true) (last : b ∈ as.getLast?) :
    b.empties = true := by
  have flushes := Activity.flushes_of_empties empties
  cases sequel with
  | bare _ idle | store _ idle => exact absurd (idle.symm.trans flushes) Bool.false_ne_true
  | lend finds | retain finds =>
      exact absurd (finds.flushes.symm.trans flushes) Bool.false_ne_true
  | checkout looks | fill looks =>
      exact absurd (looks.flushes.symm.trans flushes) Bool.false_ne_true
  | begin call ops =>
      rw [List.getLast?_concat] at last
      obtain rfl := Option.some.inj last
      obtain _ | _ | ⟨i, _ | _ | ⟨_ | _, _⟩ | _ | _⟩ | _ := call
      all_goals first | rfl | simp at empties
  | @flush who | @flushed _ who =>
      cases who with
      | closer => simp at empties
      | matcher =>
          obtain rfl := Option.some.inj last
          rfl
  | leave => simp at last
  | _ => simp at empties

/-- What an activity leaves may stand above what was below it. An end of a round on top of it is
left by looking for a resource. -/
theorem exec_stacked {a : Activity} (paused : Stacked m.paused) (stopped : m.Stopped)
    (awake : ∀ k w r, a = .answer (.create k w r) → m.background.holdsBack = false) :
    ∃ as, (m.exec e a).stack = as ++ m.stack ∧ Stacked as ∧
      ∀ n, as.head? = some (.again n) →
        (∃ k i, a = .round k i ∧ m.pool.closed = false) ∨ ∃ k view, a = .search k view := by
  have plain {m' : Machine σ} (tidy : m.Tidy m') : ∃ as, m'.stack = as ++ m.stack ∧ Stacked as ∧
      ∀ n, as.head? ≠ some (.again n) := by
    obtain ⟨as, stack, rare, calls⟩ := tidy.left
    refine ⟨as, stack, .of_plain rare calls, fun n head => ?_⟩
    simpa using rare _ (List.mem_of_head? head)
  have left {m' : Machine σ} (tidy : m.Tidy m') : ∃ as, m'.stack = as ++ m.stack ∧ Stacked as ∧
      ∀ n, as.head? = some (.again n) →
        (∃ k i, a = .round k i ∧ m.pool.closed = false) ∨ ∃ k view, a = .search k view := by
    obtain ⟨as, stack, stacked, other⟩ := plain tidy
    exact ⟨as, stack, stacked, fun n head => absurd head (other n)⟩
  cases a with
  | round k inHand =>
      cases closed : m.pool.closed with
      | true =>
          refine ⟨_, (round_closed closed k inHand).1, ?_, fun n head => ?_⟩
          · cases inHand <;> simp [List.isChain_cons_cons]
          · cases inHand <;> simp at head
      | false =>
          obtain tidy | ⟨p, ended⟩ := round_tidy closed k inHand
          · obtain ⟨as, stack, stacked, other⟩ := plain tidy
            exact ⟨as, stack, stacked, fun n head => absurd head (other n)⟩
          · refine ⟨[.again k], ?_, List.isChain_singleton _, fun _ _ => .inl ⟨k, inHand, rfl, rfl⟩⟩
            rw [exec, ended]
            rfl
  | search k view =>
      obtain tidy | ended := m.seek_tidy k view
      · exact left tidy
      · refine ⟨[.again k], ?_, List.isChain_singleton _, fun _ _ => .inr ⟨k, view, rfl⟩⟩
        rw [exec, ended]
        rfl
  | acquired r purpose =>
      cases purpose with
      | get k =>
          obtain ⟨stack, _⟩ := m.look_apart r.waiter
          simp only [exec, requested, firstPoll]
          split <;> next seen =>
            rw [seen] at stack
            first
            | exact ⟨[_, _], congrArg ([_, _] ++ ·) stack, by simp, by simp⟩
            | exact ⟨[], stack, List.isChain_nil, by simp⟩
      | _ => exact left (m.exec_tidy _ (by simp) (by simp) (by simp) (by simp) (by simp) (by simp))
  | put k x =>
      have inside : ∀ b ∈ (m.handles.get? k).toList.flatMap dropHandle,
          b.isRare = false ∧ b.isTrigger = false := by
        intro b member
        obtain ⟨y, _, dropped⟩ := List.mem_flatMap.1 member
        exact isRare_of_mem_dropHandle y dropped
      refine ⟨_, rfl, .of_plain (fun b member => (inside b member).1)
        fun b member => (inside b (List.mem_of_mem_tail member)).2, fun n head => ?_⟩
      simpa using (inside _ (List.mem_of_head? head)).1
  | perform op =>
      by_cases joins : op = .join
      · subst joins
        simp only [exec, perform, join]
        split
        · refine ⟨m.paused ++ [.joined], rfl, List.isChain_append.2 ⟨paused,
            List.isChain_singleton _, by simp⟩, fun n head => ?_⟩
          obtain none | ⟨k, w, r, as, stands, _⟩ := stopped
          · simp [none] at head
          · simp [stands] at head
        · exact left (.push rfl (.refl _) (by simp) (by simp))
        · exact left (.still rfl rfl)
      · exact left (m.perform_tidy joins)
  | _ => exact left (m.exec_tidy _ (by simp) awake (by simp) (by simp) (by simp) (by simp))

/-- Only the end of a round forgets calls for matching. -/
theorem triggers_le {a : Activity} {rest : List Activity} (top : m.stack = a :: rest)
    (goesOn : ∀ n, a ≠ .again n) : m.pool.triggers ≤ (m.step e).pool.triggers := by
  rw [step, top]
  by_cases calls : a = .trigger
  · subst calls
    simp only [exec, trigger]
    split <;> exact Nat.le_succ _
  · exact (exec_triggers { m with stack := rest } a calls goesOn).ge

/-- A step that closes the pool begins to empty its queue. -/
theorem close_step {a : Activity} {rest : List Activity} (top : m.stack = a :: rest)
    (opened : m.pool.closed = false) (closed : (m.step e).pool.closed = true) :
    a = .perform .close ∧ m.step e = (({ m with
      stack := rest, pool := { m.pool with closed := true } } : Machine σ).log .closing).push
        [.flush .closer [], .release] := by
  have closes : a = .perform .close := by
    by_contra other
    have same : (m.step e).pool.closed = m.pool.closed := by
      cases step_turn (e := e) top with
      | goOn leaves => exact leaves.sequel.closed other
      | resume _ _ _ _ pool | halt _ _ _ _ _ _ _ pool => rw [pool]
    exact Bool.false_ne_true (opened.symm.trans (same.symm.trans closed))
  subst closes
  refine ⟨rfl, ?_⟩
  rw [step, top] at closed ⊢
  simp only [exec, perform, onPool, close, opened, Bool.false_eq_true, if_false] at closed ⊢
  split at closed
  · next owned => simp [owned, withPool]
  · exact absurd (opened.symm.trans closed) Bool.false_ne_true

/-- Activities stand where they may. When a round ends in a closed pool, nobody is in line. -/
structure Cued (m : Machine σ) : Prop where
  stack : Stacked m.stack
  paused : Stacked m.paused
  ended : m.pool.closed = true → ∀ n below, m.stack = .again n :: below →
    m.pool.registry.entries = []

end Machine

namespace Run

open Machine

variable {σ : Type} {e : Environment σ} {past : List (Machine σ)} {m : Machine σ}

theorem cued_step (run : Run e past m) {a : Activity} {rest : List Activity}
    (top : m.stack = a :: rest) (before : m.Cued) : (m.step e).Cued := by
  have whole : Stacked (a :: rest) := top ▸ before.stack
  obtain ⟨next, below⟩ := List.isChain_cons.1 whole
  cases step_turn (e := e) top with
  | @goOn as leaves =>
      obtain ⟨bs, stack, stacked, ends⟩ := exec_stacked (e := e) (m := { m with stack := rest })
        (a := a) before.paused run.stopped (leaves.awake top)
      have same : (m.step e).stack = bs ++ rest := by
        rw [Machine.step, top]
        exact stack
      obtain rfl := List.append_cancel_right (leaves.stack.symm.trans same)
      refine ⟨?_, leaves.paused ▸ before.paused, fun closed n under again => ?_⟩
      · rw [leaves.stack]
        refine List.isChain_append.2 ⟨stacked, below, fun x last y head => ?_⟩
        have covers := next y head
        cases y with
        | trigger => cases covers
        | again n => exact leaves.sequel.empties covers last
        | _ => rfl
      · -- Either the end of the round stood right below, or looking for a resource left it.
        have sequel := leaves.sequel
        rw [same] at again
        cases as with
        | nil =>
            have empties : a.empties = true := next (.again n) (by
              rw [show rest = .again n :: under from again]
              rfl)
            have flushes := Activity.flushes_of_empties empties
            generalize (m.step e).pool.returned = r, (m.step e).pool.closed = c,
              left_eq : ([] : List Activity) = left at sequel
            cases sequel with
            | bare _ idle | store _ idle =>
                exact absurd (idle.symm.trans flushes) Bool.false_ne_true
            | leave empty => exact line_of_flush top empty
            | stop | begin => simp at left_eq
            | _ => cases left_eq
        | cons b bs =>
            obtain ⟨rfl, _⟩ := List.cons.inj again
            obtain ⟨k, i, rfl, opened⟩ | ⟨k, view, rfl⟩ := ends n rfl
            · exact absurd (opened.symm.trans ((sequel.closed (by simp)).symm.trans closed))
                Bool.false_ne_true
            · have shut : m.pool.closed = true := (sequel.closed (by simp)).symm.trans closed
              refine run.line_step shut ((run.shielded shut).resolve_right fun shielded => ?_)
              exact absurd (shielded.keepsView top) (by simp)
  | resume joins resumed stack paused pool =>
      subst joins
      refine ⟨?_, paused ▸ List.isChain_nil, fun closed n under again => ?_⟩
      · rw [stack]
        refine List.isChain_append.2 ⟨before.paused, List.isChain_cons.2 ⟨fun y head => ?_, below⟩,
          fun x _ y head => ?_⟩
        · have covers := next y head
          cases y with
          | trigger | again => cases covers
          | _ => rfl
        · obtain rfl := Option.some.inj head
          rfl
      · rw [stack] at again
        obtain none | ⟨k, w, r, as, stands, _⟩ := run.stopped
        · simp [none] at again
        · simp [stands] at again
  | @halt k w r above under creates _ parts _ mark stack paused pool =>
      subst parts creates
      refine ⟨?_, ?_, fun closed n less again => ?_⟩
      · rw [stack]
        exact below.suffix ((List.drop_suffix ..).trans (List.suffix_append ..))
      · rw [paused]
        refine List.isChain_append.2 ⟨?_, before.paused, fun x _ y head => ?_⟩
        · refine List.IsChain.prefix whole ?_
          rw [List.cons_append, List.cons_prefix_cons, List.prefix_append_right_inj]
          exact ⟨rfl, List.take_prefix ..⟩
        · obtain none | ⟨k', w', r', as, stands, _⟩ := run.stopped
          · simp [none] at head
          · rw [stands] at head
            obtain rfl := Option.some.inj head
            rfl
      · rw [stack] at again
        cases under with
        | nil => simp at again
        | cons b bs =>
            have thread := mark b (by simp)
            have covers := (List.isChain_append.1 below).2.1
            rw [show bs = .again n :: less from again, List.isChain_cons_cons] at covers
            cases b with
            | thread => exact absurd covers.1 Bool.false_ne_true
            | _ => cases thread

theorem cued (run : Run e past m) : m.Cued := by
  induction run with
  | start built =>
      unfold build at built
      split at built
      · simp at built
      · obtain rfl := Except.ok.inj built
        exact ⟨List.isChain_nil, List.isChain_nil, fun _ _ _ again => by cases again⟩
  | ask op run idle ih | threads run idle _ ih =>
      refine ⟨?_, ih.paused, by simp [push]⟩
      simp only [push, idle]
      exact List.isChain_singleton _
  | @step past m run ih =>
      cases top : m.stack with
      | nil =>
          rw [Machine.step, top]
          exact ih
      | cons a rest => exact run.cued_step top ih

/-- A call for matching is carried out at once. -/
theorem triggered (run : Run e past m) (call : .trigger ∈ m.assets) :
    ∃ rest, m.stack = .trigger :: rest := by
  obtain ⟨a, member, inside⟩ := mem_assets_of_moving call (fun still => by cases still)
  obtain rfl := Activity.eq_trigger inside
  obtain ⟨stack, paused, _⟩ := run.cued
  -- Nothing covers it, so it is the first.
  have first {as : List Activity} (stacked : Stacked as) (member : .trigger ∈ as) :
      ∃ rest, as = .trigger :: rest := by
    obtain ⟨above, below, rfl⟩ := List.append_of_mem member
    cases above using List.reverseRecOn with
    | nil => exact ⟨below, rfl⟩
    | append_singleton as b =>
        rw [List.append_assoc] at stacked
        have covers := (List.isChain_cons_cons.1 (List.isChain_append.1 stacked).2.1).1
        exact absurd covers Bool.false_ne_true
  obtain member | member := List.mem_append.1 member
  · exact first stack member
  · obtain ⟨rest, top⟩ := first paused member
    obtain none | ⟨k, w, r, as, stands, _⟩ := run.stopped
    · rw [none] at top
      cases top
    · rw [stands] at top
      cases top

/-- While nobody matches and no call for it is about to be counted, there is nothing to match. -/
theorem matched_of_idle (run : Run e past m) (idle : m.pool.triggers = 0)
    (uncalled : ∀ rest, m.stack ≠ .trigger :: rest) : ¬m.pool.Unmatched := by
  intro unmatched
  obtain call | ⟨n, stage, matching, _⟩ := run.matching.noticed unmatched
  · obtain ⟨rest, top⟩ := run.triggered call
    exact uncalled rest top
  · obtain ⟨none, _⟩ | ⟨_, _, _, some, bound⟩ := run.matching.single
    · rw [none] at matching
      exact Multiset.notMem_zero _ matching
    · omega

/-- While nobody matches, nobody is in the line of a closed pool, unless the pool was closed in the
last step; then it has nothing idle, and everybody in line is told next. -/
theorem line_of_idle (run : Run e past m) (closed : m.pool.closed = true)
    (idle : m.pool.triggers = 0) (line : m.pool.registry.entries ≠ []) :
    m.pool.returned = [] ∧ ∃ who failures rest, m.stack = .flush who failures :: rest := by
  induction run with
  | start built =>
      unfold build at built
      split at built
      · simp at built
      · obtain rfl := Except.ok.inj built
        exact absurd closed Bool.false_ne_true
  | ask op run empty ih | threads run empty _ ih =>
      obtain ⟨_, who, failures, rest, top⟩ := ih closed idle line
      rw [empty] at top
      cases top
  | @step past m run ih =>
      cases top : m.stack with
      | nil =>
          have still : m.step e = m := by rw [Machine.step, top]
          rw [still] at closed idle line ⊢
          exact ih closed idle line
      | cons a rest =>
          cases before : m.pool.closed with
          | true =>
              have stood : m.pool.registry.entries ≠ [] := fun empty =>
                line (run.line_step before empty)
              by_cases still : m.pool.triggers = 0
              · -- Everybody in line was told in this step.
                obtain ⟨empty, who, failures, rest, flushes⟩ := ih before still stood
                exact absurd (line_of_flush flushes empty) line
              · -- The matching came to its end in this step.
                obtain ⟨n, rfl⟩ : ∃ n, a = .again n := by
                  by_contra other
                  have kept := triggers_le (e := e) top (not_exists.1 other)
                  omega
                exact absurd (run.cued.ended before n rest top) stood
          | false =>
              -- The pool was closed in this step; it had nothing to hand out.
              obtain ⟨rfl, next⟩ := close_step top before closed
              rw [next] at idle line ⊢
              refine ⟨?_, .closer, [], .release :: rest, rfl⟩
              have matched := run.matched_of_idle idle (by simp [top])
              by_contra some
              exact matched ⟨before, line, fun exhausted => some exhausted.returned⟩

end Run
end ResourcePool
