import ResourcePool.Session

/-!
Runs of a pool, and what happens to requests and resources in them. A run begins with a new pool and
goes on one activity at a time; operations from outside come when nothing is left to be done. The
surroundings answer as they like, and name operations of their own at every call.

What a step does is read off the activity on top of the stack and the state in which it is carried
out. The history of a run is the list of these deeds, the latest first.
-/

namespace ResourcePool

/-- What a request comes to. -/
inductive Fate
  /-- It was cancelled or dropped while its waiter was pending. -/
  | withdrawn
  /-- The pool was closed when it was made. -/
  | turnedAway
  /-- The flush of a closed pool claimed its waiter. -/
  | dismissed
  | creationFailed (slot : Nat) (cause : Failure)
  /-- A delivery was given to the scheduler. -/
  | entrusted (i : Item)
  /-- The delivery ran while the pool was open. -/
  | delivered (i : Item)
  /-- The delivery ran after the pool was closed. -/
  | refused (i : Item)
  /-- The delivery was given up before it ran. -/
  | lost (i : Item)
  deriving DecidableEq

namespace Fate

/-- What the listener of the request finds from then on; nothing yet while a delivery is under
way. -/
def answer : Fate → Option Outcome
  | withdrawn | lost _ => some (.error .cancelled)
  | turnedAway | dismissed | refused _ => some (.error .closed)
  | creationFailed slot cause => some (.error (.creationFailed slot cause))
  | entrusted _ => none
  | delivered i => some (.ok i)

/-- All that was decided about the request, the latest first. -/
def course : Fate → List Fate
  | delivered i => [delivered i, entrusted i]
  | refused i => [refused i, entrusted i]
  | lost i => [lost i, entrusted i]
  | f => [f]

end Fate

/-- What a step does to a request or a resource. -/
inductive Deed
  /-- Something is decided about the request of a waiter. -/
  | fate (waiter : Nat) (f : Fate)
  /-- A poll shows how the request of a waiter ended. -/
  | seen (waiter : Nat) (o : Outcome)
  /-- The factory made a resource for a slot. -/
  | created (id slot : Nat)
  /-- A resource is passed to the factory for closing. -/
  | closing (id : Nat)
  | detached (id : Nat)
  /-- The holder of a loan executed a statement. -/
  | executed (id : Nat) (statement : String)

namespace Deed

@[simp] def fate? (waiter : Nat) : Deed → Option Fate
  | fate w f => if w = waiter then some f else none
  | _ => none

@[simp] def sight? (waiter : Nat) : Deed → Option Outcome
  | seen w o => if w = waiter then some o else none
  | _ => none

@[simp] def creation? : Deed → Option (Nat × Nat)
  | created id slot => some (id, slot)
  | _ => none

@[simp] def closing? : Deed → Option Nat
  | closing id => some id
  | _ => none

@[simp] def detachment? : Deed → Option Nat
  | detached id => some id
  | _ => none

end Deed

/-- Deeds, the latest first. -/
abbrev History := List Deed

theorem filterMap_cons_toList {α β : Type} (f : α → Option β) (a : α) (l : List α) :
    (a :: l).filterMap f = (f a).toList ++ l.filterMap f := by
  rw [List.filterMap_cons]
  cases f a <;> rfl

namespace History

/-- What was decided about the request of a waiter. -/
def fates (h : History) (waiter : Nat) : List Fate :=
  h.filterMap (Deed.fate? waiter)

def sights (h : History) (waiter : Nat) : List Outcome :=
  h.filterMap (Deed.sight? waiter)

/-- The resources made, with their slots. -/
def creations (h : History) : List (Nat × Nat) :=
  h.filterMap Deed.creation?

def closings (h : History) : List Nat :=
  h.filterMap Deed.closing?

def detachments (h : History) : List Nat :=
  h.filterMap Deed.detachment?

/-- How the request of a waiter will answer, if that is decided. -/
def answer (h : History) (waiter : Nat) : Option Outcome :=
  (h.fates waiter).head?.bind Fate.answer

variable (h : History) (d : Deed) (w : Nat)

@[simp] theorem fates_cons : fates (d :: h) w = (d.fate? w).toList ++ h.fates w :=
  filterMap_cons_toList ..

@[simp] theorem sights_cons : sights (d :: h) w = (d.sight? w).toList ++ h.sights w :=
  filterMap_cons_toList ..

@[simp] theorem creations_cons : creations (d :: h) = d.creation?.toList ++ h.creations :=
  filterMap_cons_toList ..

@[simp] theorem closings_cons : closings (d :: h) = d.closing?.toList ++ h.closings :=
  filterMap_cons_toList ..

@[simp] theorem detachments_cons :
    detachments (d :: h) = d.detachment?.toList ++ h.detachments :=
  filterMap_cons_toList ..

theorem creations_append (k : History) : creations (h ++ k) = h.creations ++ k.creations :=
  List.filterMap_append

end History

namespace Machine

variable {σ : Type}

/-- The withdrawal of a request, if it can still be withdrawn. -/
def withdrawal (m : Machine σ) (a : Acquire) : List Deed :=
  if a.attached && (m.pool.cancel? a.waiter).isSome then [.fate a.waiter .withdrawn] else []

def sight (m : Machine σ) (waiter : Nat) : List Deed :=
  (m.look waiter).1.toList.map (.seen waiter)

/-- What an operation does at once, without further activities. -/
def deedsOfOp (m : Machine σ) : Op → List Deed
  | .cancel h =>
      match m.handles.get? h with
      | some (.acquire a) => m.withdrawal a
      | _ => []
  | .poll h =>
      match m.handles.get? h with
      | some (.acquire a) | some (.get (.waiting a _)) => m.sight a.waiter
      | _ => []
  | .detach h =>
      match m.handles.get? h with
      | some (.guard i) => [.detached i.resource.id]
      | _ => []
  | .execute h statement =>
      match m.handles.get? h with
      | some (.guard i) =>
          match i.resource.execute statement with
          | .ok _ => [.executed i.resource.id statement]
          | .error _ => []
      | _ => []
  | _ => []

/-- What the answer to a call for a new resource does. -/
def deedsOfCreation (e : Environment σ) (m : Machine σ) (waiter : Nat) (r : Reservation) :
    List Deed :=
  if m.background.holdsBack then []
  else
    match (e.create r.slot m.env).1 with
    | none => [.created m.made r.slot]
    | some cause => [.fate waiter (.creationFailed r.slot cause)]

/-- What carrying out an activity does. -/
def deedsOf (e : Environment σ) (m : Machine σ) : Activity → List Deed
  | .perform op => m.deedsOfOp op
  | .acquire _ => if m.pool.closed then [.fate m.pool.nextWaiter .turnedAway] else []
  | .acquired a (.get _) => m.sight a.waiter
  | .quit a => m.withdrawal a
  | .abandon t => [.fate t.waiter (.lost t.item)]
  | .task t =>
      [.fate t.waiter (if m.pool.closed then .refused t.item else .delivered t.item)]
  | .flush _ _ =>
      match m.pool.returned with
      | [] => (m.pool.registry.entries.filter fun w => (m.pool.claim? w).isSome).map
          fun w => .fate w .dismissed
      | _ => []
  | .call (.schedule t) => [.fate t.waiter (.entrusted t.item)]
  | .call (.close i _) => [.closing i.resource.id]
  | .answer (.create _ waiter r) => m.deedsOfCreation e waiter r
  | _ => []

/-- What the next step does. -/
def deeds (e : Environment σ) (m : Machine σ) : List Deed :=
  match m.stack with
  | [] => []
  | a :: rest => { m with stack := rest }.deedsOf e a

/-- The machines before each of the next steps, `n` at most, the latest first. -/
def trail (e : Environment σ) : Nat → Machine σ → List (Machine σ)
  | 0, _ => []
  | n + 1, m => if m.stack.isEmpty then [] else trail e n (m.step e) ++ [m]

/-- No operation is in progress, neither here nor on the other thread. -/
def AtRest (m : Machine σ) : Prop :=
  m.activities = []

theorem AtRest.stack {m : Machine σ} (rest : m.AtRest) : m.stack = [] :=
  (List.append_eq_nil_iff.1 rest).1

theorem AtRest.paused {m : Machine σ} (rest : m.AtRest) : m.paused = [] :=
  (List.append_eq_nil_iff.1 rest).2

end Machine

variable {σ : Type}

/-- The runs of a pool in its surroundings: the machines before each step, the latest first, and the
machine that was reached. -/
inductive Run (e : Environment σ) : List (Machine σ) → Machine σ → Prop
  | start {c : Config} {scheduler : Scheduler} {env : σ} {m : Machine σ}
      (built : Machine.build c scheduler env = .ok m) : Run e [] m
  | ask {past : List (Machine σ)} {m : Machine σ} (op : Op)
      (run : Run e past m) (idle : m.stack = []) : Run e past (m.push [.perform op])
  /-- What was given to threads runs between two operations. -/
  | threads {past : List (Machine σ)} {m : Machine σ}
      (run : Run e past m) (idle : m.stack = [])
      (onThreads : m.scheduler.dispatcher = .runner .threads) : Run e past (m.push [.turn])
  | step {past : List (Machine σ)} {m : Machine σ}
      (run : Run e past m) : Run e (m :: past) (m.step e)

namespace Run

variable {e : Environment σ}

theorem steps {past : List (Machine σ)} {m : Machine σ} (run : Run e past m) (n : Nat) :
    Run e (m.trail e n ++ past) (m.steps e n) := by
  induction n generalizing m past with
  | zero => exact run
  | succ n ih =>
      unfold Machine.trail Machine.steps
      split
      · exact run
      · rw [List.append_assoc]
        exact ih run.step

theorem bench {c : Config} (valid : c.validate = .ok ()) :
    Run Bench.environment [] (({ scheduler := {}, pool := .ofConfig c, env := {} } :
      Machine Bench.Rig).log (.poolCreated c.maxSize)) :=
  .start (by rw [Machine.build, valid])

theorem hooked {c : Config} (valid : c.validate = .ok ()) (hooks : List Bench.Hook) :
    Run Bench.environment [] (({ scheduler := {}, pool := .ofConfig c, env := { hooks } } :
      Machine Bench.Rig).log (.poolCreated c.maxSize)) :=
  .start (by rw [Machine.build, valid])

/-- The machines that a run went through were reached by runs. -/
theorem of_suffix {past earlier : List (Machine σ)} {m : Machine σ} (run : Run e past m)
    (part : earlier <:+ past) : ∃ m', Run e earlier m' := by
  induction run with
  | start built =>
      obtain rfl := List.suffix_nil.1 part
      exact ⟨_, .start built⟩
  | ask op run idle ih => exact ih part
  | threads run idle onThreads ih => exact ih part
  | step run ih =>
      obtain rfl | part := List.suffix_cons_iff.1 part
      · exact ⟨_, run.step⟩
      · exact ih part

end Run

/-- What happened in the steps from these machines. -/
def history (e : Environment σ) (past : List (Machine σ)) : History :=
  past.flatMap (Machine.deeds e)

@[simp] theorem history_nil (e : Environment σ) : history e [] = [] := rfl

@[simp] theorem history_cons (e : Environment σ) (m : Machine σ) (past : List (Machine σ)) :
    history e (m :: past) = m.deeds e ++ history e past := by
  simp [history]

theorem history_append (e : Environment σ) (later earlier : List (Machine σ)) :
    history e (later ++ earlier) = history e later ++ history e earlier :=
  List.flatMap_append

end ResourcePool
