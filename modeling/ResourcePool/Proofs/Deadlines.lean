import ResourcePool.Proofs.Cues

/-!
When a request with a limit gives up. Its deadline is set by its first poll, and nothing changes it
while the request waits: not what is asked for meanwhile, and not the settings, which stay the same.
-/

namespace ResourcePool

namespace Machine

variable {σ : Type} {e : Environment σ} {m : Machine σ}

/-- A request waits under this number until the deadline, or is about to. -/
def Awaits (m : Machine σ) (k : Nat) (r : Acquire) (d : Option Deadline) : Prop :=
  m.handles.get? k = some (.get (.waiting r d)) ∨ .put k (.get (.waiting r d)) ∈ m.activities

/-- The first poll of a request with a limit looks for its outcome. -/
def PollsFirst (m : Machine σ) (k : Nat) (r : Acquire) : Prop :=
  ∃ below, m.stack = .acquired r (.get k) :: below

theorem look_of_pool {n : Machine σ} (same : n.pool = m.pool) (w : Nat) :
    (n.look w).1 = (m.look w).1 :=
  look_of_waiters (by rw [same]) w

/-- Only putting it there makes a request wait under a number. -/
theorem exec_handles (m : Machine σ) (a : Activity) {k : Nat} {r : Acquire} {d : Option Deadline}
    (found : (m.exec e a).handles.get? k = some (.get (.waiting r d))) :
    m.handles.get? k = some (.get (.waiting r d)) ∨ a = .put k (.get (.waiting r d)) := by
  have tidy {m' : Machine σ} (tidy : m.Tidy m')
      (found : m'.handles.get? k = some (.get (.waiting r d))) :
      m.handles.get? k = some (.get (.waiting r d)) := tidy.handles k r d found
  cases a with
  | put j x =>
      simp only [exec, put, push, Table.get?_insert] at found
      split at found
      · next same =>
          rw [same, Option.some.inj found]
          exact .inr rfl
      · exact .inl found
  | round n i =>
      refine .inl ?_
      cases closed : m.pool.closed with
      | true =>
          rw [exec, (round_closed closed n i).2] at found
          exact found
      | false =>
          obtain kept | ⟨p, ended⟩ := round_tidy closed n i
          · exact tidy kept found
          · rw [exec, ended] at found
            exact found
  | search n view =>
      obtain kept | ended := m.seek_tidy n view
      · exact .inl (tidy kept found)
      · rw [exec, ended] at found
        exact .inl found
  | acquired b purpose =>
      cases purpose with
      | get j =>
          obtain ⟨_, handles⟩ := m.look_apart b.waiter
          simp only [exec, requested, firstPoll] at found
          split at found <;> next seen =>
            rw [seen] at handles
            exact .inl (handles ▸ found)
      | _ => exact .inl found
  | perform op =>
      by_cases joins : op = .join
      · subst joins
        simp only [exec, perform, join] at found
        split at found <;> exact .inl found
      · exact .inl (tidy (m.perform_tidy joins) found)
  | answer c =>
      by_cases holds : (∃ n w q, c = .create n w q) ∧ m.background.holdsBack = true
      · obtain ⟨⟨n, w, q, rfl⟩, back⟩ := holds
        simp only [exec, answered, back, if_true] at found
        exact .inl found
      · exact .inl (tidy (m.answered_tidy fun n w q create =>
          Bool.eq_false_iff.2 fun back => holds ⟨⟨n, w, q, create⟩, back⟩) found)
  | _ =>
      exact .inl (tidy (m.exec_tidy _ (by simp) (by simp) (by simp) (by simp) (by simp) (by simp))
        found)

/-- Only the first poll is about to make a request wait, with the deadline of that moment. -/
theorem exec_puts {a : Activity}
    (awake : ∀ n w q, a = .answer (.create n w q) → m.background.holdsBack = false) :
    ∃ as, (m.exec e a).stack = as ++ m.stack ∧ ∀ k r d, .put k (.get (.waiting r d)) ∈ as →
      .put k (.get (.waiting r d)) ∈ m.paused ∨
        a = .acquired r (.get k) ∧ (m.look r.waiter).1 = none ∧ d = m.deadline := by
  have tidy {m' : Machine σ} (tidy : m.Tidy m') : ∃ as, m'.stack = as ++ m.stack ∧
      ∀ k r d, .put k (.get (.waiting r d)) ∈ as →
        .put k (.get (.waiting r d)) ∈ m.paused ∨
          a = .acquired r (.get k) ∧ (m.look r.waiter).1 = none ∧ d = m.deadline := by
    obtain ⟨as, stack, rare, _⟩ := tidy.left
    exact ⟨as, stack, fun k r d member => absurd (rare _ member) (by simp)⟩
  cases a with
  | put j x =>
      refine ⟨_, rfl, fun k r d member => ?_⟩
      obtain ⟨y, _, dropped⟩ := List.mem_flatMap.1 member
      exact absurd (isRare_of_mem_dropHandle y dropped).1 (by simp)
  | round n i =>
      cases closed : m.pool.closed with
      | true =>
          refine ⟨_, (round_closed closed n i).1, fun k r d member => ?_⟩
          cases i <;> simp at member
      | false =>
          obtain kept | ⟨p, ended⟩ := round_tidy closed n i
          · exact tidy kept
          · exact ⟨[.again n], by rw [exec, ended]; rfl, by simp⟩
  | search n view =>
      obtain kept | ended := m.seek_tidy n view
      · exact tidy kept
      · exact ⟨[.again n], by rw [exec, ended]; rfl, by simp⟩
  | acquired b purpose =>
      cases purpose with
      | get j =>
          obtain ⟨stack, _⟩ := m.look_apart b.waiter
          simp only [exec, requested, firstPoll]
          split <;> next seen =>
            rw [seen] at stack
            first
            | obtain rfl := look_eq_none seen
              refine ⟨[_, _], rfl, fun k r d member => .inr ?_⟩
              simp only [List.mem_cons, Activity.put.injEq, Handle.get.injEq, Get.waiting.injEq,
                reduceCtorEq, List.not_mem_nil, or_false] at member
              obtain ⟨rfl, rfl, rfl⟩ := member
              exact ⟨rfl, congrArg Prod.fst seen, rfl⟩
            | exact ⟨[_, _], congrArg ([_, _] ++ ·) stack, by simp⟩
            | exact ⟨[], stack, by simp⟩
      | _ => exact tidy (m.exec_tidy _ (by simp) (by simp) (by simp) (by simp) (by simp) (by simp))
  | perform op =>
      by_cases joins : op = .join
      · subst joins
        simp only [exec, perform, join]
        split
        · exact ⟨m.paused ++ [.joined], rfl, fun k r d member => .inl (by simpa using member)⟩
        · exact tidy (.push rfl (.refl _) (by simp) (by simp))
        · exact tidy (.still rfl rfl)
      · exact tidy (m.perform_tidy joins)
  | _ => exact tidy (m.exec_tidy _ (by simp) awake (by simp) (by simp) (by simp) (by simp))

/-- A request that waits did so before, or is polled for the first time. -/
theorem awaits_step {k : Nat} {r : Acquire} {d : Option Deadline}
    (awaits : (m.step e).Awaits k r d) :
    m.Awaits k r d ∨ m.PollsFirst k r ∧ (m.look r.waiter).1 = none ∧ d = m.deadline := by
  cases top : m.stack with
  | nil =>
      rw [step, top] at awaits
      exact .inl awaits
  | cons a rest =>
      have next : m.step e = ({ m with stack := rest } : Machine σ).exec e a := by rw [step, top]
      have below {b : Activity} (member : b ∈ rest ∨ b ∈ m.paused) : b ∈ m.activities := by
        simp only [activities, top, List.cons_append, List.mem_cons, List.mem_append]
        exact .inr member
      obtain found | member := awaits
      · rw [next] at found
        obtain old | rfl := exec_handles _ a found
        · exact .inl (.inl old)
        · exact .inl (.inr (by simp [activities, top]))
      · cases step_turn (e := e) top with
        | @goOn as leaves =>
            obtain ⟨bs, stack, puts⟩ := exec_puts (e := e) (m := { m with stack := rest }) (a := a)
              (leaves.awake top)
            rw [← next] at stack
            obtain rfl := List.append_cancel_right (leaves.stack.symm.trans stack)
            rw [activities, stack, leaves.paused, List.append_assoc, List.mem_append,
              List.mem_append] at member
            obtain new | old := member
            · obtain paused | ⟨rfl, unseen, same⟩ := puts k r d new
              · exact .inl (.inr (below (.inr paused)))
              · have unseen : (m.look r.waiter).1 = none :=
                  (look_of_pool (n := m) (m := { m with stack := rest }) rfl _).trans unseen
                exact .inr ⟨⟨rest, top⟩, unseen, same⟩
            · exact .inl (.inr (below old))
        | resume _ _ stack paused =>
            rw [activities, stack, paused, List.append_nil, List.mem_append,
              List.mem_cons] at member
            obtain old | new | old := member
            · exact .inl (.inr (below (.inr old)))
            · cases new
            · exact .inl (.inr (below (.inl old)))
        | @halt _ _ _ above under creates _ parts _ _ stack paused =>
            simp only [activities, stack, paused, creates, List.mem_append, List.mem_cons,
              reduceCtorEq, false_or] at member
            refine .inl (.inr (below ?_))
            rw [parts, List.mem_append]
            obtain old | (old | old) | old := member
            · exact .inl (.inr (List.mem_of_mem_drop old))
            · exact .inl (.inl old)
            · exact .inl (.inr (List.mem_of_mem_take old))
            · exact .inr old

end Machine

namespace Run

open Machine

variable {σ : Type} {e : Environment σ} {past : List (Machine σ)} {m : Machine σ}

/-- A request that waits found nothing when it was first polled, and its deadline was set then. -/
theorem first_poll (run : Run e past m) {k : Nat} {r : Acquire} {d : Option Deadline}
    (awaits : m.Awaits k r d) : ∃ later n earlier, past = later ++ n :: earlier ∧
      n.PollsFirst k r ∧ (n.look r.waiter).1 = none ∧ d = n.deadline := by
  induction run with
  | start built =>
      unfold build at built
      split at built
      · simp at built
      · obtain rfl := Except.ok.inj built
        obtain found | member := awaits
        · cases found
        · cases member
  | ask op run idle ih | threads run idle _ ih =>
      refine ih (awaits.imp_right fun member => ?_)
      simpa [activities, push] using member
  | @step past m run ih =>
      obtain old | ⟨polls, unseen, same⟩ := m.awaits_step awaits
      · obtain ⟨later, n, earlier, parts, first⟩ := ih old
        exact ⟨m :: later, n, earlier, congrArg (m :: ·) parts, first⟩
      · exact ⟨[], m, past, rfl, polls, unseen, same⟩

end Run
end ResourcePool
