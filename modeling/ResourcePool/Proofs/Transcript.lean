import Mathlib.Data.List.Basic
import ResourcePool.Waiter.Action

/-!
Transcripts of the moves around a waiter, with what each move answered. What is said of a transcript
is read off the answers alone. All but two of these things are decided by the few exchanges that
count. Whether the receiver was dropped, and whether an outcome still waits for whoever looks next,
is followed from move to move.
-/

namespace ResourcePool.Waiter

variable {α : Type}

/-- A move and its answer. -/
abbrev Exchange (α : Type) := Action α × Answer α

namespace Exchange

/-- A claim or a cancellation that succeeded. -/
def wins : Exchange α → Bool
  | (.claim, .flag b) | (.cancel, .flag b) => b
  | _ => false

/-- An outcome was received. -/
def takes : Exchange α → Bool
  | (.receive, .received (.value _)) => true
  | _ => false

/-- Somebody won, used or dropped the right to send, or received an outcome. -/
def counts : Exchange α → Bool
  | (.claim, .flag b) | (.cancel, .flag b) | (.dropCompletion, .flag b) => b
  | (.complete _, .delivered) | (.complete _, .returned _) => true
  | (.receive, .received (.value _)) => true
  | _ => false

theorem counts_of_wins (e : Exchange α) (wins : wins e = true) : counts e = true := by
  unfold Exchange.wins at wins
  split at wins
  · exact wins
  · exact wins
  · cases wins

theorem counts_of_takes (e : Exchange α) (takes : takes e = true) : counts e = true := by
  unfold Exchange.takes at takes
  split at takes
  · rfl
  · cases takes

end Exchange

abbrev Transcript (α : Type) := List (Exchange α)

def transcript (w : Waiter (Except PoolError α)) (moves : List (Action α)) : Transcript α :=
  moves.zip ((w.run moves).map Prod.fst)

def after (w : Waiter (Except PoolError α)) (moves : List (Action α)) :
    Waiter (Except PoolError α) :=
  moves.foldl (fun v a => (v.act a).2) w

theorem length_run (w : Waiter (Except PoolError α)) (moves : List (Action α)) :
    (w.run moves).length = moves.length := by
  induction moves generalizing w with
  | nil => rfl
  | cons a rest ih => simp only [run, List.length_cons, ih]

theorem run_append (w : Waiter (Except PoolError α)) (moves later : List (Action α)) :
    w.run (moves ++ later) = w.run moves ++ (w.after moves).run later := by
  induction moves generalizing w with
  | nil => rfl
  | cons a rest ih => simp only [List.cons_append, run, ih, after, List.foldl_cons]

theorem transcript_concat (w : Waiter (Except PoolError α)) (moves : List (Action α))
    (a : Action α) :
    w.transcript (moves ++ [a]) = w.transcript moves ++ [(a, ((w.after moves).act a).1)] := by
  have lengths : moves.length = ((w.run moves).map Prod.fst).length := by
    rw [List.length_map, length_run]
  rw [transcript, run_append, List.map_append, List.zip_append lengths]
  rfl

theorem after_concat (w : Waiter (Except PoolError α)) (moves : List (Action α)) (a : Action α) :
    w.after (moves ++ [a]) = ((w.after moves).act a).2 := by
  rw [after, List.foldl_append]
  rfl

namespace Transcript

def Claimed (t : Transcript α) : Prop :=
  (.claim, .flag true) ∈ t

def Cancelled (t : Transcript α) : Prop :=
  (.cancel, .flag true) ∈ t

/-- Neither claimed nor cancelled so far. -/
def Open (t : Transcript α) : Prop :=
  ¬t.Claimed ∧ ¬t.Cancelled

/-- The completion was dropped unused. -/
def Abandoned (t : Transcript α) : Prop :=
  (.dropCompletion, .flag true) ∈ t

/-- The completion was used, wherever the outcome went. -/
def Completed (t : Transcript α) : Prop :=
  ∃ o, (.complete o, .delivered) ∈ t ∨ (.complete o, .returned o) ∈ t

/-- Whoever claimed still holds the completion. -/
def Outstanding (t : Transcript α) : Prop :=
  t.Claimed ∧ ¬t.Abandoned ∧ ¬t.Completed

/-- The receiver was dropped. -/
def HungUp (t : Transcript α) : Prop :=
  (.dropReceiver, .flag true) ∈ t

def Received (t : Transcript α) (o : Except PoolError α) : Prop :=
  (.receive, .received (.value o)) ∈ t

/-- The outcome was delivered, and nobody looked since. -/
def Awaits (t : Transcript α) (o : Except PoolError α) : Prop :=
  ∃ before since, t = before ++ (.complete o, .delivered) :: since ∧
    ∀ e ∈ since, e.1 ≠ .receive

/-- The exchanges that count. -/
def marks (t : Transcript α) : Transcript α :=
  t.filter Exchange.counts

variable {t : Transcript α}

theorem mem_marks {e : Exchange α} (counts : Exchange.counts e = true) : e ∈ t.marks ↔ e ∈ t := by
  rw [marks, List.mem_filter]
  exact and_iff_left counts

theorem countP_marks {f : Exchange α → Bool}
    (counts : ∀ e, f e = true → Exchange.counts e = true) : t.marks.countP f = t.countP f := by
  rw [marks, List.countP_filter]
  exact List.countP_congr fun e _ => by simpa using counts e

@[simp] theorem claimed_marks : t.marks.Claimed ↔ t.Claimed :=
  mem_marks rfl

@[simp] theorem cancelled_marks : t.marks.Cancelled ↔ t.Cancelled :=
  mem_marks rfl

@[simp] theorem abandoned_marks : t.marks.Abandoned ↔ t.Abandoned :=
  mem_marks rfl

@[simp] theorem completed_marks : t.marks.Completed ↔ t.Completed :=
  exists_congr fun _ => or_congr (mem_marks rfl) (mem_marks rfl)

@[simp] theorem received_marks (o : Except PoolError α) : t.marks.Received o ↔ t.Received o :=
  mem_marks rfl

@[simp] theorem open_marks : t.marks.Open ↔ t.Open := by
  simp [Open]

@[simp] theorem outstanding_marks : t.marks.Outstanding ↔ t.Outstanding := by
  simp [Outstanding]

theorem hungUp_concat (e : Exchange α) :
    HungUp (t ++ [e]) ↔ t.HungUp ∨ e = (.dropReceiver, .flag true) := by
  simp [HungUp, eq_comm]

theorem awaits_concat (e : Exchange α) (o : Except PoolError α) :
    Awaits (t ++ [e]) o ↔ e = (.complete o, .delivered) ∨ t.Awaits o ∧ e.1 ≠ .receive := by
  constructor
  · rintro ⟨before, since, parts, unseen⟩
    obtain rfl | ⟨earlier, last, rfl⟩ := since.eq_nil_or_concat'
    · exact .inl (List.singleton_inj.1 (List.append_inj' parts rfl).2)
    · rw [← List.cons_append, ← List.append_assoc] at parts
      obtain ⟨rfl, one⟩ := List.append_inj' parts rfl
      obtain rfl := List.singleton_inj.1 one
      obtain ⟨unseen, blind⟩ := List.forall_mem_append.1 unseen
      exact .inr ⟨⟨before, earlier, rfl, unseen⟩, blind e (List.mem_singleton_self e)⟩
  · rintro (rfl | ⟨⟨before, since, rfl, unseen⟩, blind⟩)
    · exact ⟨t, [], rfl, fun _ inside => absurd inside List.not_mem_nil⟩
    · exact ⟨before, since ++ [e], by simp, List.forall_mem_append.2
        ⟨unseen, List.forall_mem_singleton.2 blind⟩⟩

end Transcript
end ResourcePool.Waiter
