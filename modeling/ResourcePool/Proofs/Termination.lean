import ResourcePool.Proofs.Potential

/-!
Every operation ends. If the surroundings name only so many operations, whatever they answer, then
from every state the work comes to rest, and on the way each activity comes to its end: a call for
matching with all its rounds, a single round, a search through the idle resources, the flush of a
closed pool. Only a thread whose call for a new resource is held back stops before the end, until it
is taken up again.
-/

namespace ResourcePool

namespace Machine

variable {σ : Type} {e : Environment σ} {m m' : Machine σ}

/-- The other thread is about to stop: the answer to its call for a new resource is held back. -/
def Stops (m : Machine σ) : Prop :=
  ∃ n w r rest, m.stack = .answer (.create n w r) :: rest ∧ m.background = .running

/-- What stands above is carried out to its end, or until the thread that it runs on stops. -/
def Finishes (e : Environment σ) (m : Machine σ) (below : List Activity) : Prop :=
  ∃ n, (m.steps e n).stack = below ∨ ∃ above, (m.steps e n).stack = above ++ below ∧
    (∀ b ∈ above, b.isThread = false) ∧ (m.steps e n).Stops

/-- What is below stays there, unless the thread that it belongs to stops. -/
theorem Turn.above {a : Activity} {above below : List Activity}
    (turn : Turn e m a (above ++ below) m') : (∃ above', m'.stack = above' ++ below) ∨
      m.background = .running ∧ (∃ n w r, a = .answer (.create n w r)) ∧
        ∀ b ∈ above, b.isThread = false := by
  cases turn with
  | @goOn as leaves => exact .inl ⟨as ++ above, by rw [leaves.stack, List.append_assoc]⟩
  | resume _ _ stack =>
      exact .inl ⟨m.paused ++ .joined :: above, by rw [stack, List.append_assoc, List.cons_append]⟩
  | @halt n w r own rest creates running parts unmarked mark stack =>
      obtain ⟨part, rfl, rfl⟩ | ⟨part, rfl, rfl⟩ := List.append_eq_append_iff.1 parts
      · exact .inr ⟨running, ⟨n, w, r, creates⟩,
          fun b member => unmarked b (List.mem_append_left _ member)⟩
      · -- The thread that stops stands above, unless it is the one that everything runs on.
        cases part with
        | nil =>
            refine .inr ⟨running, ⟨n, w, r, creates⟩, fun b member => unmarked b ?_⟩
            simpa using member
        | cons b part => exact .inl ⟨part, stack⟩

/-- What comes to rest carries out everything that it stands on in between. -/
theorem finishes_of_rests {above below : List Activity} {n : Nat}
    (stack : m.stack = above ++ below) (rests : (m.steps e n).stack = []) :
    m.Finishes e below := by
  induction n generalizing m above with
  | zero =>
      obtain ⟨-, rfl⟩ := List.append_eq_nil_iff.1 (stack.symm.trans rests)
      exact ⟨0, .inl rests⟩
  | succ n ih =>
      cases above with
      | nil => exact ⟨0, .inl stack⟩
      | cons a above =>
          have busy : m.stack.isEmpty = false := by rw [stack]; rfl
          have further (k : Nat) : m.steps e (k + 1) = (m.step e).steps e k := by
            rw [steps, busy]
            rfl
          obtain ⟨above', next⟩ | ⟨running, ⟨k, w, r, rfl⟩, unmarked⟩ :=
            (step_turn (e := e) stack).above
          · obtain ⟨k, ends⟩ := ih next (further n ▸ rests)
            exact ⟨k + 1, by rwa [further]⟩
          · refine ⟨0, .inr ⟨_, stack, ?_, k, w, r, _, stack, running⟩⟩
            exact List.forall_mem_cons.2 ⟨rfl, unmarked⟩

end Machine

namespace Run

open Machine

variable {σ : Type} {e : Environment σ} {past : List (Machine σ)} {m : Machine σ}

/-- Every operation ends. In every state, whatever the surroundings answer and wherever deliveries
run: if the surroundings name a limited number of operations from there on, the work comes to rest,
and whatever is being done comes to its end, or to the point where its thread stops. -/
theorem terminates (run : Run e past m) {k : Nat} (few : ∀ n, m.namings e n ≤ k) :
    (∃ n, (m.steps e n).stack = []) ∧
      ∀ a below, m.stack = a :: below → m.Finishes e below := by
  have rests := run.rests_of_namings few le_rfl
  exact ⟨⟨_, rests⟩, fun a below top =>
    finishes_of_rests (show m.stack = [a] ++ below from top) rests⟩

/-- A matching is under way whose deliveries run inside it. The call for a new resource will bring
another request, which calls for one more round. -/
theorem terminates_inline : ∃ (past : List (Machine Bench.Rig)) (m : Machine Bench.Rig)
    (below : List Activity), Run Bench.environment past m ∧
      m.scheduler.dispatcher = .inline ∧ m.stack = .round 1 none :: below ∧
      (∀ n, m.namings Bench.environment n ≤ 1) ∧ m.namings Bench.environment 5 = 1 ∧
      (∃ n, (m.steps Bench.environment n).stack = []) ∧ m.Finishes Bench.environment below := by
  have start : Run Bench.environment [] (({ scheduler := { dispatcher := .inline }
                                            pool := .ofConfig { maxSize := 2 }
                                            env := { hooks := [⟨.create, 0, [.acquire 1]⟩] } } :
      Machine Bench.Rig).log (.poolCreated 2)) := .start (c := { maxSize := 2 }) rfl
  have run := (start.ask (.acquire 0) rfl).steps 3
  have few := run.namings_le Bench.budget
  have ends := run.terminates (k := 1) few
  exact ⟨_, _, _, run, rfl, rfl, few, rfl, ends.1, ends.2 _ _ rfl⟩

end Run
end ResourcePool
