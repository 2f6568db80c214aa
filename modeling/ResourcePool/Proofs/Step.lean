import ResourcePool.Proofs.Operations

/-!
A step of the machine is a sequence of moves that records the deeds of the step. What every move
keeps therefore holds in every state of a run.
-/

namespace ResourcePool

attribute [-simp] Multiset.singleton_add

/-- There is one permit for requests on another thread. -/
theorem Move.count_permit {gone : Prop} {b c : Books} (move : Move gone b c) :
    c.assets.count .permit = b.assets.count .permit := by
  cases move with
  | hangUp held | send held answer =>
      simp only [held]
      split <;> simp
  | see held found =>
      simp only [held]
      split <;> simp
  | trigger held | again held =>
      simp only [held]
      split <;> simp
  | _ => simp_all

namespace Machine

variable {gone : Prop} {σ : Type} (e : Environment σ) (m : Machine σ) (L : Multiset Asset) (h : History)

/-- The assets of an activity become those that carrying it out leaves behind. -/
theorem exec_moves (a : Activity)
    (absent : ∀ b k, a = .acquired b (.background k) → m.background.assets = 0)
    (last : a = .release → m.isReferenced = false → gone) :
    Moves gone (m.books (a.assets + L) h) ((m.exec e a).books L (m.deedsOf e a ++ h)) := by
  have withPermit : ∀ {B : Books}, Moves gone (m.books L h) B → Moves gone (m.books (0 + L) h) B :=
    fun moves => by simpa only [zero_add] using moves
  cases a with
  | perform op => exact withPermit (perform_moves e m L h op)
  | finish before => exact withPermit (.rearrange rfl)
  | say r => exact withPermit (.rearrange rfl)
  | release => exact withPermit (release_moves m L h (last rfl))
  | teardown => exact teardown_moves m L h
  | acquire purpose => exact request_moves m L h purpose
  | acquired b purpose =>
      refine .trans (.rearrange ?_) (requested_moves e m L h b purpose fun k same => ?_)
      · simp only [Activity.assets]; abel
      · exact absent b k (same ▸ rfl)
  | put k x => exact put_moves m L h k x
  | quit b =>
      refine .trans (withdraw_moves m L h b) ?_
      simp only [exec]
      rw [books_withdraw_push]
      exact .rearrange (by simp)
  | hangUp waiter => exact hangUp_moves m L h waiter
  | abandon t =>
      refine .head (.abandon (w := t.waiter) (i := t.item) (A := L + m.assets)
        (by simp only [books, Activity.assets]; abel)) ?_
      exact .rearrange rfl
  | giveBack i => exact giveBack_moves m L h i
  | trigger => exact trigger_moves m L h
  | again n => exact again_moves m L h n
  | round n inHand => exact round_moves m L h n inHand
  | search n view => exact seek_moves m L h n view
  | call c => exact call_moves e m L h c
  | answer c => exact answered_moves e m L h c
  | task t => exact runTask_moves m L h t
  | deliver t =>
      refine .trans (.rearrange ?_)
        (complete_moves m L h t t.item (.delivered t.item) [.entrusted t.item] rfl)
      simp only [Activity.assets]; abel
  | refuse t =>
      exact completeError_moves m L h t .closed (.refused t.item) [.entrusted t.item] rfl
  | wentAway slot waiter => exact withPermit (.rearrange rfl)
  | ran => exact withPermit (.rearrange rfl)
  | flush who failures => exact flush_moves m L h e who failures
  | report failures => exact withPermit (report_moves m L h failures)
  | timedOut limit => exact withPermit (.rearrange rfl)
  | awaited k => exact withPermit (awaited_moves m L h k)
  | collect k rest seen => exact withPermit (pollEach_moves m L h _ rest)
  | runNext left labels => exact withPermit (runNext_moves m L h left labels)
  | turn => exact withPermit (turn_moves m L h)
  | thread name => exact withPermit (.rearrange rfl)
  | launched => exact withPermit (launched_moves m L h)
  | joined => exact withPermit (joined_moves m L h)

/-- The next step gives up the last reference to the pool. -/
def LetsGo : Prop :=
  ∃ rest, m.stack = .release :: rest ∧ ({ m with stack := rest } : Machine σ).isReferenced = false

/-- A step is a sequence of moves that records the deeds of the step. -/
theorem step_moves (one : m.assets.count .permit = 1) :
    Moves m.LetsGo (m.books 0 h) ((m.step e).books 0 (m.deeds e ++ h)) := by
  cases stack : m.stack with
  | nil =>
      simp only [step, deeds, stack]
      exact .rearrange rfl
  | cons a rest =>
      simp only [step, deeds, stack]
      have parts : m.assets = a.assets + ({ m with stack := rest } : Machine σ).assets := by
        simp only [assets, stack, held_cons]
        abel
      refine .trans (.rearrange ?_) (exec_moves e { m with stack := rest } 0 h a ?_ ?_)
      · rw [parts]; abel
      · -- The one permit is with this request, so the other thread has none to hand back.
        rintro b k rfl
        rw [parts] at one
        cases back : m.background <;> simp_all [assets]
      · rintro rfl unreferenced
        exact ⟨rest, stack, unreferenced⟩

end Machine

variable {σ : Type}

/-- The books of a new pool. -/
def Books.start (c : Config) : Books :=
  ⟨.ofConfig c, 0, false, {.permit}, []⟩

theorem books_of_build {c : Config} {scheduler : Scheduler} {env : σ} {m : Machine σ}
    (built : Machine.build c scheduler env = .ok m) : m.books 0 [] = .start c := by
  unfold Machine.build at built
  split at built
  · simp at built
  · obtain rfl := Except.ok.inj built
    rfl

namespace Run

variable {e : Environment σ} {past : List (Machine σ)} {m : Machine σ}

theorem count_permit (run : Run e past m) : m.assets.count .permit = 1 := by
  -- This comes before `keeps`: a step is known to be a sequence of moves only with one permit.
  induction run with
  | start built =>
      have books := congrArg Books.assets (books_of_build built)
      simp only [Machine.books, zero_add] at books
      simp [books, Books.start]
  | ask op run idle ih => simpa using ih
  | threads run idle onThreads ih => simpa using ih
  | step run ih =>
      have kept := (Machine.step_moves e _ [] ih).keeps
        (I := fun b => b.assets.count .permit = 1) (fun move one => move.count_permit.trans one)
      simpa [Machine.books] using kept (by simpa [Machine.books] using ih)

/-- What holds in the books of a new pool and is kept by every move holds in every state. -/
theorem keeps {I : Books → Prop} (start : ∀ c, I (.start c))
    (kept : ∀ {gone b c}, Move gone b c → I b → I c) (run : Run e past m) :
    I (m.books 0 (history e past)) := by
  induction run with
  | start built => exact books_of_build built ▸ start _
  | ask op run idle ih => simpa [Machine.books_push] using ih
  | threads run idle onThreads ih => simpa [Machine.books_push] using ih
  | step run ih =>
      rw [history_cons]
      exact (Machine.step_moves e _ _ run.count_permit).keeps kept ih

end Run
end ResourcePool
