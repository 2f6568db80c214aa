import Mathlib.Data.List.Induction
import ResourcePool.Proofs.Parts
import ResourcePool.Proofs.Transcript

/-!
The protocol around one waiter, for every order of the moves. What counts in a transcript takes one
of eight courses, and the waiter is as its course leaves it; so the answers given so far decide what
the next move answers.
-/

namespace ResourcePool.Waiter

open Transcript

variable {α : Type}

section Moves

variable (w : Waiter (Except PoolError α))

theorem isOutstanding_iff : w.isOutstanding = true ↔ w.state = .fulfilled ∧ w.line = .silent := by
  unfold isOutstanding
  split <;> simp_all

theorem act_claim : w.act .claim =
    if w.state = .pending then (.flag true, { w with state := .fulfilled })
    else (.flag false, w) := by
  by_cases pending : w.state = .pending <;> simp [act, claim?, pending]

theorem act_cancel : w.act .cancel =
    if w.state = .pending then (.flag true, { w with state := .cancelled, line := .over })
    else (.flag false, w) := by
  by_cases pending : w.state = .pending <;> simp [act, cancel?, pending]

theorem act_complete (o : Except PoolError α) : w.act (.complete o) =
    if w.isOutstanding then
      if w.listening then (.delivered, { w with line := .sent o })
      else (.returned o, { w with line := .over })
    else (.noCompletion, w) := by
  cases outstanding : w.isOutstanding <;> cases heard : w.listening <;>
    simp [act, complete, outstanding, heard]

theorem hangUp_listening : w.hangUp.2.listening = false := by
  unfold hangUp
  split <;> rfl

theorem receive_listening : w.receive.2.listening = w.listening := by
  unfold receive
  split <;> rfl

/-- Nothing is left on the line for whoever looks a second time. -/
theorem receive_line_ne (o : Except PoolError α) : w.receive.2.line ≠ .sent o := by
  unfold receive
  split <;> simp_all

theorem receive_eq_value_iff (o : Except PoolError α) :
    w.receive.1 = .value o ↔ w.line = .sent o := by
  unfold receive
  split <;> simp_all

theorem receive_eq_empty_iff : w.receive.1 = .empty ↔ w.line = .silent := by
  unfold receive
  split <;> simp_all

theorem receive_eq_closed_iff : w.receive.1 = .closed ↔ w.line = .over := by
  unfold receive
  split <;> simp_all

/-- Only dropping the receiver ends the listening. -/
theorem listening_act (a : Action α) :
    (w.act a).2.listening = true ↔
      w.listening = true ∧ (a, (w.act a).1) ≠ (.dropReceiver, .flag true) := by
  cases a with
  | claim => by_cases pending : w.state = .pending <;> simp [act_claim, pending]
  | cancel => by_cases pending : w.state = .pending <;> simp [act_cancel, pending]
  | complete o =>
      cases outstanding : w.isOutstanding <;> cases heard : w.listening <;>
        simp [act_complete, outstanding, heard]
  | dropCompletion => cases outstanding : w.isOutstanding <;> simp [act, abandon, outstanding]
  | dropReceiver => cases heard : w.listening <;> simp [act, heard, hangUp_listening]
  | receive => cases heard : w.listening <;> simp [act, heard, receive_listening]
  | id => simp [act]

end Moves

variable {id : Nat} {t m : Transcript α} {w : Waiter (Except PoolError α)}

/-- An outcome is on the line from when it is delivered until somebody looks. -/
theorem sent_act (silent : w.state = .pending → w.line = .silent) (a : Action α)
    (listening : (w.act a).2.listening = true) (o : Except PoolError α) :
    (w.act a).2.line = .sent o ↔
      (a, (w.act a).1) = (.complete o, .delivered) ∨ w.line = .sent o ∧ a ≠ .receive := by
  have heard := (w.listening_act a).1 listening
  -- Whoever can still cancel, complete or give up finds the line silent, so no outcome is cut off.
  cases a with
  | claim => by_cases pending : w.state = .pending <;> simp [act_claim, pending]
  | cancel => by_cases pending : w.state = .pending <;> simp [act_cancel, pending, silent]
  | complete o' =>
      by_cases outstanding : w.isOutstanding = true
      · have unsent := (w.isOutstanding_iff.1 outstanding).2
        simp [act_complete, outstanding, heard.1, unsent]
      · simp [act_complete, outstanding]
  | dropCompletion =>
      by_cases outstanding : w.isOutstanding = true
      · have unsent := (w.isOutstanding_iff.1 outstanding).2
        simp [act, abandon, outstanding, unsent]
      · simp [act, outstanding]
  | dropReceiver => simp [act, heard.1] at heard
  | receive => simp [act, heard.1, receive_line_ne]
  | id => simp [act]

/-- The waiter that is left by what counts. -/
inductive Course (id : Nat) : Waiter (Except PoolError α) → Transcript α → Prop
  | pending (listening : Bool) : Course id { id, listening } []
  | cancelled (listening : Bool) :
      Course id { id, state := .cancelled, line := .over, listening } [(.cancel, .flag true)]
  | claimed (listening : Bool) :
      Course id { id, state := .fulfilled, listening } [(.claim, .flag true)]
  | abandoned (listening : Bool) :
      Course id { id, state := .fulfilled, line := .over, listening }
        [(.claim, .flag true), (.dropCompletion, .flag true)]
  /-- Nobody listened any more when the outcome came. -/
  | returned (o : Except PoolError α) :
      Course id { id, state := .fulfilled, line := .over, listening := false }
        [(.claim, .flag true), (.complete o, .returned o)]
  | delivered (o : Except PoolError α) :
      Course id { id, state := .fulfilled, line := .sent o }
        [(.claim, .flag true), (.complete o, .delivered)]
  /-- The receiver was dropped without having looked. -/
  | lost (o : Except PoolError α) :
      Course id { id, state := .fulfilled, line := .over, listening := false }
        [(.claim, .flag true), (.complete o, .delivered)]
  | received (o : Except PoolError α) (listening : Bool) :
      Course id { id, state := .fulfilled, line := .over, listening }
        [(.claim, .flag true), (.complete o, .delivered), (.receive, .received (.value o))]

namespace Course

/-- A move goes on with the course if it counts, and leaves it as it is otherwise. -/
theorem act (course : Course id w m) (a : Action α) :
    Course id (w.act a).2 (m ++ marks [(a, (w.act a).1)]) := by
  -- Whether somebody listens matters to two of the moves only, and is carried along otherwise.
  cases course with
  | pending b =>
      cases a with
      | claim => exact .claimed b
      | cancel => exact .cancelled b
      | dropReceiver | receive => cases b <;> exact .pending _
      | complete _ | dropCompletion | id => exact .pending b
  | cancelled b =>
      cases a with
      | dropReceiver | receive => cases b <;> exact .cancelled _
      | _ => exact .cancelled b
  | claimed b =>
      cases a with
      | complete o =>
          cases b with
          | false => exact .returned o
          | true => exact .delivered o
      | dropCompletion => exact .abandoned b
      | dropReceiver | receive => cases b <;> exact .claimed _
      | claim | cancel | id => exact .claimed b
  | abandoned b =>
      cases a with
      | dropReceiver | receive => cases b <;> exact .abandoned _
      | _ => exact .abandoned b
  | returned o => cases a <;> exact .returned o
  | delivered o =>
      cases a with
      | receive => exact .received o true
      | dropReceiver => exact .lost o
      | _ => exact .delivered o
  | lost o => cases a <;> exact .lost o
  | received o b =>
      cases a with
      | dropReceiver | receive => cases b <;> exact .received o _
      | _ => exact .received o b

theorem silent_of_pending (course : Course id w m) (pending : w.state = .pending) :
    w.line = .silent := by
  cases course with
  | pending => rfl
  | _ => cases pending

theorem claimed_iff (course : Course id w m) : m.Claimed ↔ w.state = .fulfilled := by
  cases course <;> simp [Claimed]

theorem cancelled_iff (course : Course id w m) : m.Cancelled ↔ w.state = .cancelled := by
  cases course <;> simp [Cancelled]

theorem open_iff (course : Course id w m) : m.Open ↔ w.state = .pending := by
  rw [Open, course.claimed_iff, course.cancelled_iff]
  cases w.state <;> simp

theorem outstanding_iff (course : Course id w m) : m.Outstanding ↔ w.isOutstanding = true := by
  cases course <;> simp [Outstanding, Claimed, Abandoned, Completed, isOutstanding]

theorem silent_iff (course : Course id w m) : w.line = .silent ↔ m.Open ∨ m.Outstanding := by
  rw [course.open_iff, course.outstanding_iff]
  cases course <;> simp [isOutstanding]

/-- While somebody listens, nothing is left to come for one of three reasons only. -/
theorem over_iff (course : Course id w m) (listening : w.listening = true) :
    w.line = .over ↔ m.Cancelled ∨ m.Abandoned ∨ ∃ o, m.Received o := by
  cases course with
  | returned | lost => cases listening
  | _ => simp [Cancelled, Abandoned, Received]

theorem wins_le (course : Course id w m) : m.countP Exchange.wins ≤ 1 := by
  cases course <;> simp [List.countP_cons, Exchange.wins]

theorem takes_le (course : Course id w m) : m.countP Exchange.takes ≤ 1 := by
  cases course <;> simp [List.countP_cons, Exchange.takes]

end Course

/-- What a transcript tells of the waiter at its end. -/
structure Tells (id : Nat) (t : Transcript α) (w : Waiter (Except PoolError α)) : Prop where
  course : Course id w t.marks
  heard : w.listening = true ↔ ¬t.HungUp
  sent : w.listening = true → ∀ o, w.line = .sent o ↔ t.Awaits o

namespace Tells

theorem act (tells : Tells id t w) (a : Action α) :
    Tells id (t ++ [(a, (w.act a).1)]) (w.act a).2 where
  course := by
    rw [marks, List.filter_append]
    exact tells.course.act a
  heard := by
    rw [listening_act, tells.heard, hungUp_concat, not_or]
  sent listening o := by
    have before := ((w.listening_act a).1 listening).1
    rw [sent_act tells.course.silent_of_pending a listening, tells.sent before, awaits_concat]

theorem pending_iff (tells : Tells id t w) : w.state = .pending ↔ t.Open :=
  tells.course.open_iff.symm.trans open_marks

theorem outstanding_iff (tells : Tells id t w) : w.isOutstanding = true ↔ t.Outstanding :=
  tells.course.outstanding_iff.symm.trans outstanding_marks

theorem hungUp_iff (tells : Tells id t w) : t.HungUp ↔ w.listening = false := by
  rw [← Bool.not_eq_true, tells.heard, not_not]

theorem receives_iff (tells : Tells id t w) (r : Reception (Except PoolError α)) :
    (w.act .receive).1 = .received r ↔ ¬t.HungUp ∧ w.receive.1 = r := by
  rw [← tells.heard]
  cases heard : w.listening <;> simp [Waiter.act, heard]

end Tells

theorem tells (id : Nat) (moves : List (Action α)) :
    Tells id (transcript { id } moves) (after { id } moves) := by
  -- From the end, since all moves before the last one decide what that one answers.
  induction moves using List.reverseRecOn with
  | nil =>
      exact ⟨.pending true, by simp [transcript, after, HungUp],
        by simp [transcript, after, Awaits]⟩
  | append_singleton earlier a ih =>
      rw [transcript_concat, after_concat]
      exact ih.act a

/-- What is promised to those around a waiter, of the moves made so far and of the next one. -/
structure Protocol (t : Transcript α) (w : Waiter (Except PoolError α)) : Prop where
  /-- At most one claim or cancellation succeeds, -/
  once : t.countP Exchange.wins ≤ 1
  /-- and its kind is the state from then on. -/
  pending : w.state = .pending ↔ t.Open
  fulfilled : w.state = .fulfilled ↔ t.Claimed
  cancelled : w.state = .cancelled ↔ t.Cancelled
  claim : (w.act .claim).1 = .flag true ↔ t.Open
  cancel : (w.act .cancel).1 = .flag true ↔ t.Open
  /-- An outcome comes back unchanged exactly if the receiver was dropped before, -/
  returned : ∀ o back, (w.act (.complete o)).1 = .returned back ↔
    t.Outstanding ∧ t.HungUp ∧ back = o
  /-- and is delivered otherwise. -/
  delivered : ∀ o, (w.act (.complete o)).1 = .delivered ↔ t.Outstanding ∧ ¬t.HungUp
  abandon : (w.act .dropCompletion).1 = .flag true ↔ t.Outstanding
  hangUp : (w.act .dropReceiver).1 = .flag true ↔ ¬t.HungUp
  /-- At most once an outcome is received, -/
  received : t.countP Exchange.takes ≤ 1
  /-- by whoever looks first after it was delivered. -/
  value : ∀ o, (w.act .receive).1 = .received (.value o) ↔ ¬t.HungUp ∧ t.Awaits o
  empty : (w.act .receive).1 = .received .empty ↔ ¬t.HungUp ∧ (t.Open ∨ t.Outstanding)
  closed : (w.act .receive).1 = .received .closed ↔
    ¬t.HungUp ∧ (t.Cancelled ∨ t.Abandoned ∨ ∃ o, t.Received o)

theorem Tells.observed (tells : Tells id t w) : Protocol t w where
  once := by
    rw [← countP_marks Exchange.counts_of_wins]
    exact tells.course.wins_le
  pending := tells.pending_iff
  fulfilled := tells.course.claimed_iff.symm.trans claimed_marks
  cancelled := tells.course.cancelled_iff.symm.trans cancelled_marks
  claim := by
    rw [← tells.pending_iff, act_claim]
    split <;> simp_all
  cancel := by
    rw [← tells.pending_iff, act_cancel]
    split <;> simp_all
  returned o back := by
    rw [← tells.outstanding_iff, tells.hungUp_iff, act_complete]
    cases w.isOutstanding <;> cases w.listening <;> simp [eq_comm]
  delivered o := by
    rw [← tells.outstanding_iff, ← tells.heard, act_complete]
    cases w.isOutstanding <;> cases w.listening <;> simp
  abandon := by
    rw [← tells.outstanding_iff]
    cases outstanding : w.isOutstanding <;> simp [Waiter.act, outstanding]
  hangUp := by
    rw [← tells.heard]
    cases heard : w.listening <;> simp [Waiter.act, heard]
  received := by
    rw [← countP_marks Exchange.counts_of_takes]
    exact tells.course.takes_le
  value o := by
    rw [tells.receives_iff, receive_eq_value_iff]
    exact and_congr_right fun heard => tells.sent (tells.heard.2 heard) o
  empty := by
    rw [tells.receives_iff, receive_eq_empty_iff, tells.course.silent_iff, open_marks,
      outstanding_marks]
  closed := by
    rw [tells.receives_iff, receive_eq_closed_iff]
    refine and_congr_right fun heard => ?_
    simpa using tells.course.over_iff (tells.heard.2 heard)

/-- The protocol holds for the moves in any order. At most one claim or cancellation succeeds, and
decides the state. A completed outcome comes back if the receiver is gone; otherwise it is received
at most once, unchanged, by whoever looks first. A look finds nothing exactly while an outcome may
still come, and the end of the line exactly if the waiter was cancelled, its completion was dropped
unused, or its outcome was received before. The flag, the cell, the completion and the channel give
the same answers as the waiter, and stay in step. -/
theorem protocol (id : Nat) (moves : List (Action α)) :
    Protocol (transcript { id } moves) (after { id } moves) ∧
      (Parts.run { id } moves).map (fun s => (s.1, s.2.whole)) = run { id } moves ∧
      ∀ s ∈ Parts.run { id } moves, s.2.Sound := by
  have sound : Parts.Sound ({ id } : Parts α) := .inCell id false
  exact ⟨(tells id moves).observed, sound.run_whole moves, sound.run moves⟩

/-- A claim comes before a cancellation, and the second of three looks receives the outcome. -/
theorem protocol_received : ∃ (moves : List (Action Nat)) (w : Waiter (Except PoolError Nat)),
    transcript { id := 5 } moves = [(.claim, .flag true), (.cancel, .flag false),
      (.receive, .received .empty), (.complete (.ok 7), .delivered),
      (.receive, .received (.value (.ok 7)))] ∧
    after { id := 5 } moves = w ∧ w.state = .fulfilled ∧ (w.act .receive).1 = .received .closed ∧
    (Parts.run { id := 5 } moves).map (fun s => (s.2.cell, s.2.completion)) =
      [(false, true), (false, true), (false, true), (false, false), (false, false)] ∧
    ∀ s ∈ Parts.run { id := 5 } moves, s.2.Sound := by
  let moves : List (Action Nat) := [.claim, .cancel, .receive, .complete (.ok 7), .receive]
  obtain ⟨promised, -, sound⟩ := protocol 5 moves
  have listens : ¬HungUp (transcript { id := 5 } moves) := by
    simp [HungUp, moves, transcript, run, act, claim?, cancel?, isOutstanding, receive, complete]
  have seen : Received (transcript { id := 5 } moves) (.ok 7) := .tail _ (.tail _ (.tail _
    (.tail _ (.head _))))
  have claimed : Claimed (transcript { id := 5 } moves) := .head _
  exact ⟨moves, _, rfl, rfl, promised.fulfilled.2 claimed,
    promised.closed.2 ⟨listens, .inr (.inr ⟨_, seen⟩)⟩, rfl, sound⟩

end ResourcePool.Waiter
