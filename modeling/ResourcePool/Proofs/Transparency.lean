import ResourcePool.Proofs.AfterClose
import ResourcePool.Proofs.Unchecked

/-!
Checks that find nothing show nothing. Two pools that differ only in the checks they ask for do the
same, operation after operation, when every check finds its resource valid, names no operation and
leaves no trace in what the surroundings do later. For a pool with checks takes the steps of one
without: where it makes a check, it only takes two steps more.
-/

namespace ResourcePool

namespace Bench

/-- The rig without the checks that were counted. -/
def Rig.unchecked (r : Rig) : Rig :=
  { r with calls := r.calls.filter (· ≠ .validate) }

/-- The bench with a factory that finds every resource valid, and then fails to make the next. -/
def fickle : Environment Rig :=
  { environment with
    enter := fun _ r => ([], r)
    validate := fun _ r => (true, r.tell (.failCreates 1)) }

end Bench

/-- What comes next from outside, once nothing is left to be done. -/
inductive Prompt
  | ask (op : Op)
  /-- What was given to threads runs. -/
  | threads

def Prompt.activity : Prompt → Activity
  | ask op => .perform op
  | threads => .turn

/-- What can be seen of a pool. -/
structure Snapshot where
  reply : Reply
  status : Status
  slots : List (Nat × Slot)
  /-- The deliveries that are queued. -/
  tasks : List Task
  /-- All that happened, the latest event first. -/
  events : List Event

/-- Checks are left out of what happened, and of the configuration that is shown. -/
def Snapshot.unchecked (s : Snapshot) : Snapshot :=
  { s with reply := s.reply.unchecked, events := uncheckedTrace s.events }

namespace Machine

variable {σ τ : Type}

def snapshot (m : Machine σ) : Snapshot where
  reply := m.reply
  status := m.pool.status
  slots := m.pool.slotList
  tasks := m.tasks
  events := m.trace

def Admits (m : Machine σ) : Prompt → Prop
  | .ask _ => True
  | .threads => m.scheduler.dispatcher = .runner .threads

/-- Nothing is left to be done in the end. -/
def Settles (e : Environment σ) (m m' : Machine σ) : Prop :=
  ∃ n, m.steps e n = m' ∧ m'.stack = []

/-- What is seen after each prompt, when nothing is left to be done. -/
inductive Plays (e : Environment σ) : Machine σ → List Prompt → List Snapshot → Prop
  | nil {m : Machine σ} : Plays e m [] []
  | cons {m m' : Machine σ} {p : Prompt} {ps : List Prompt} {shown : List Snapshot}
      (admits : m.Admits p) (settles : (m.push [p.activity]).Settles e m')
      (later : Plays e m' ps shown) : Plays e m (p :: ps) (m'.snapshot :: shown)

variable {e : Environment σ} {e' : Environment τ} {view : σ → τ} {m : Machine σ}
  {past : List (Machine τ)}

/-- A run without checks has none to make. -/
theorem checks_of_run (run : Run e' past (m.unchecked view)) {a : Activity}
    (member : a ∈ m.activities) : a.checks = false := by
  have listed : a.unchecked ∈ (m.unchecked view).activities := by
    simp only [activities, unchecked, ← List.map_append]
    exact List.mem_map_of_mem member
  have warranted := run.warranted _ listed
  cases a with
  | call c | answer c =>
      cases c with
      | validate i check => cases check <;> exact absurd warranted Bool.false_ne_true
      | _ => rfl
  | _ => rfl

/-- With the checks that it makes, the machine takes the steps that it takes without. -/
theorem steps_unchecked (overlooks : e.Overlooks e' view)
    (run : Run e' past (m.unchecked view)) (k : Nat) :
    ∃ j, k ≤ j ∧ (m.steps e j).unchecked view = (m.unchecked view).steps e' k := by
  -- By induction on the steps without checks: each is one step, and two more if a check begins.
  induction k generalizing m past with
  | zero => exact ⟨0, le_rfl, rfl⟩
  | succ k ih =>
      cases top : m.stack with
      | nil =>
          have idle : (m.unchecked view).stack = [] := by simp [unchecked, top]
          exact ⟨k + 1, le_rfl, by rw [steps_of_idle top, steps_of_idle idle]⟩
      | cons a rest =>
          have calm := checks_of_run run (a := a) (by simp [activities, top])
          obtain ⟨j, reached⟩ := exec_unchecked { m with stack := rest } overlooks calm
          have below : (m.unchecked view).stack = a.unchecked :: rest.map Activity.unchecked := by
            simp [unchecked, top]
          have next : (m.unchecked view).step e' =
              ((({ m with stack := rest } : Machine σ).exec e a).steps e j).unchecked view := by
            rw [reached, step, below]
            rfl
          obtain ⟨i, late, same⟩ := ih (next ▸ run.step)
          refine ⟨j + i + 1, by omega, ?_⟩
          rw [steps_succ top, steps_add, same, reached, steps_succ below]
          rfl

theorem Settles.unique {n n' : Machine σ} (settles : m.Settles e n) (other : m.Settles e n') :
    n = n' := by
  obtain ⟨k, rfl, idle⟩ := settles
  obtain ⟨j, rfl, idle'⟩ := other
  exact steps_eq idle idle'

theorem Settles.unchecked {m' : Machine σ} (settles : m.Settles e m')
    (overlooks : e.Overlooks e' view) (run : Run e' past (m.unchecked view)) :
    (m.unchecked view).Settles e' (m'.unchecked view) := by
  obtain ⟨k, rfl, idle⟩ := settles
  obtain ⟨j, late, same⟩ := steps_unchecked overlooks run k
  have rests : m.steps e j = m.steps e k := by
    rw [← Nat.add_sub_cancel' late, steps_add, steps_of_idle idle]
  exact ⟨k, by rw [← same, rests], by simp [Machine.unchecked, idle]⟩

theorem prompt_unchecked (m : Machine σ) (view : σ → τ) (p : Prompt) :
    (m.push [p.activity]).unchecked view = (m.unchecked view).push [p.activity] := by
  rw [push_unchecked]
  cases p <;> rfl

end Machine

namespace Run

open Machine

variable {σ : Type} {e : Environment σ} {past : List (Machine σ)} {m : Machine σ}

theorem prompt (run : Run e past m) (idle : m.stack = []) {p : Prompt} (admits : m.Admits p) :
    Run e past (m.push [p.activity]) := by
  cases p with
  | ask op => exact run.ask op idle
  | threads => exact run.threads idle admits

theorem settles {m' : Machine σ} (run : Run e past m) (settles : m.Settles e m') :
    ∃ past', Run e past' m' := by
  obtain ⟨n, rfl, -⟩ := settles
  exact ⟨_, run.steps n⟩

end Run

namespace Machine

variable {σ τ : Type} {e : Environment σ} {e' : Environment τ} {view : σ → τ} {m : Machine σ}
  {past : List (Machine τ)}

theorem Plays.unchecked {ps : List Prompt} {shown : List Snapshot} (plays : m.Plays e ps shown)
    (overlooks : e.Overlooks e' view) (run : Run e' past (m.unchecked view))
    (idle : m.stack = []) :
    (m.unchecked view).Plays e' ps (shown.map Snapshot.unchecked) := by
  induction plays generalizing past with
  | nil => exact .nil
  | @cons m m' p ps shown admits settles later ih =>
      have rest : m'.stack = [] := settles.choose_spec.2
      have prompted := run.prompt (p := p) (by simp [Machine.unchecked, idle]) admits
      rw [← prompt_unchecked] at prompted
      have settled := settles.unchecked overlooks prompted
      obtain ⟨_, further⟩ := prompted.settles settled
      rw [prompt_unchecked] at settled
      exact Plays.cons (m := m.unchecked view) admits settled (ih further rest)

/-- What is seen is determined by what was asked. -/
theorem Plays.unique {ps : List Prompt} {shown shown' : List Snapshot}
    (plays : m.Plays e ps shown) (other : m.Plays e ps shown') : shown = shown' := by
  induction plays generalizing shown' with
  | nil => cases other; rfl
  | cons _ settles _ ih =>
      cases other with
      | cons _ settles' later =>
          obtain rfl := settles.unique settles'
          rw [ih later]

end Machine

namespace Bench

open Machine

end Bench
end ResourcePool
