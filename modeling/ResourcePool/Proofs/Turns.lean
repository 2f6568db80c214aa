import ResourcePool.Proofs.Sequel
import ResourcePool.Proofs.Step

/-!
Runs turn by turn. What holds in a new pool and is kept by every turn holds in every state, and what
is kept from a machine on holds ever after. Calls begin on top of the stack, right after the turn
that put them there, and nothing comes to rest before all that was left to be done was carried out.
-/

namespace ResourcePool

attribute [-simp] Multiset.singleton_add

namespace Activity

@[simp] def isCall : Activity → Bool
  | call _ => true
  | _ => false

theorem isCall_of_isBare {a : Activity} (bare : a.isBare = true) : a.isCall = false := by
  cases a <;> simp_all

end Activity

namespace Machine

variable {σ : Type} {e : Environment σ} {m m' : Machine σ}

theorem mem_of_below {a b : Activity} {rest : List Activity} (top : m.stack = a :: rest)
    (below : b ∈ rest ++ m.paused) : b ∈ m.activities := by
  rw [activities, top]
  exact List.mem_cons_of_mem a below

/-- What is to be done after a turn was left to be done by it, was stopped, or was there before. -/
theorem Turn.mem {a b : Activity} {rest : List Activity} (turn : Turn e m a rest m')
    (member : b ∈ m'.activities) : (∃ as, b ∈ as ∧
      ({ m with stack := rest } : Machine σ).Sequel e a as m'.pool.returned m'.pool.closed) ∨
        (b = a ∧ ∃ k w r, a = .answer (.create k w r)) ∨ b ∈ rest ++ m.paused := by
  obtain ⟨as, perm, sequel⟩ := turn.perm
  obtain new | old := List.mem_append.1 (perm.mem_iff.1 member)
  · obtain sequel | ⟨stopped, rfl, _⟩ := sequel
    · exact .inl ⟨as, new, sequel⟩
    · exact .inr (.inl ⟨List.mem_singleton.1 new, stopped⟩)
  · exact .inr (.inr old)

/-- A call is made at once. -/
theorem Sequel.isCall_of_mem_tail {a : Activity} {as : List Activity} {r : List Item} {c : Bool}
    (sequel : m.Sequel e a as r c) :
    ∀ b ∈ as.tail, b.isCall = false := by
  cases sequel with
  | bare _ _ bare | store _ _ _ bare =>
      exact fun b member => Activity.isCall_of_isBare (bare b (List.mem_of_mem_tail member))
  | @stop n inHand closed => cases inHand <;> simp
  | @begin c ops =>
      intro b member
      obtain ⟨op, rfl⟩ | rfl | rfl := mem_begun (List.mem_of_mem_tail member) <;> rfl
  | _ => simp

/-- Activities of a kind stand nowhere but on top: not below, and not on the other thread. -/
def OnTop (kind : Activity → Bool) (m : Machine σ) : Prop :=
  ∀ b ∈ m.stack.tail ++ m.paused, kind b = false

/-- What stands on top is carried out at once; what was put on top only stays there. -/
theorem Turn.onTop {kind : Activity → Bool} {a : Activity} {rest : List Activity}
    (turn : Turn e m a rest m') (top : m.stack = a :: rest) (before : m.OnTop kind)
    (tail : ∀ {as r c}, ({ m with stack := rest } : Machine σ).Sequel e a as r c →
      ∀ b ∈ as.tail, kind b = false)
    (answers : ∀ c, kind (.answer c) = false) (joined : kind .joined = false) :
    m'.OnTop kind := by
  unfold OnTop at before ⊢
  simp only [top, List.tail_cons, List.mem_append] at before
  intro b member
  rw [List.mem_append] at member
  cases turn with
  | @goOn as leaves =>
      obtain member | member := member
      · rw [leaves.stack] at member
        cases as with
        | nil => exact before b (.inl (List.mem_of_mem_tail member))
        | cons c cs =>
            obtain member | member := List.mem_append.1 member
            · exact tail leaves.sequel b member
            · exact before b (.inl member)
      · exact before b (.inr (leaves.paused ▸ member))
  | resume _ _ stack paused =>
      obtain member | member := member
      · rw [stack] at member
        obtain member | member := List.mem_append.1 (List.mem_of_mem_tail member)
        · exact before b (.inr member)
        · obtain rfl | member := List.mem_cons.1 member
          · exact joined
          · exact before b (.inl member)
      · simp [paused] at member
  | @halt k w q above below creates _ parts _ _ stack paused =>
      obtain member | member := member
      · rw [stack] at member
        exact before b (.inl (parts ▸ List.mem_append_right _
          (List.mem_of_mem_drop (List.mem_of_mem_tail member))))
      · simp only [paused, creates, List.mem_append, List.mem_cons] at member
        obtain ((rfl | member) | member) | member := member
        · exact answers _
        · exact before b (.inl (parts ▸ List.mem_append_left _ member))
        · exact before b (.inl (parts ▸ List.mem_append_right _ (List.mem_of_mem_take member)))
        · exact before b (.inr member)

/-- What stands nowhere but on top was put there in the last turn. -/
theorem Turn.put {kind : Activity → Bool} {a b : Activity} {rest below : List Activity}
    (turn : Turn e m a rest m') (top : m.stack = a :: rest) (onTop : m.OnTop kind)
    (here : kind b = true) (joined : kind .joined = false) (stack : m'.stack = b :: below) :
    ∃ as, as.head? = some b ∧
      ({ m with stack := rest } : Machine σ).Sequel e a as m'.pool.returned m'.pool.closed := by
  have old : b ∉ rest ++ m.paused := by
    intro member
    rw [OnTop, top, List.tail_cons] at onTop
    rw [onTop b member] at here
    cases here
  have mem : b ∈ m'.stack := stack ▸ List.mem_cons_self ..
  cases turn with
  | @goOn as leaves =>
      refine ⟨as, ?_, leaves.sequel⟩
      rw [leaves.stack] at stack mem
      cases as with
      | nil => exact absurd (List.mem_append_left _ mem) old
      | cons c cs => exact congrArg some (List.cons.inj stack).1
  | resume _ _ resumed =>
      rw [resumed, List.mem_append, List.mem_cons] at mem
      refine absurd (List.mem_append.2 ?_) old
      refine mem.symm.imp_left fun mem => mem.resolve_left ?_
      rintro rfl
      rw [joined] at here
      cases here
  | halt _ _ parts _ _ halted =>
      refine absurd (List.mem_append_left _ ?_) old
      exact parts ▸ List.mem_append_right _ (List.mem_of_mem_drop (halted ▸ mem))

/-- Nobody below the topmost activity, or on the other thread, begins a call. -/
def CallsOnTop (m : Machine σ) : Prop :=
  ∀ b ∈ m.stack.tail ++ m.paused, b.isCall = false

theorem Turn.callsOnTop {a : Activity} {rest : List Activity} (turn : Turn e m a rest m')
    (top : m.stack = a :: rest) (before : m.CallsOnTop) : m'.CallsOnTop :=
  turn.onTop top before (fun sequel => sequel.isCall_of_mem_tail) (fun _ => rfl) rfl

/-- A call that is about to begin was put there in the last turn. -/
theorem Turn.called {a : Activity} {rest below : List Activity} {c : Call}
    (turn : Turn e m a rest m') (top : m.stack = a :: rest) (onTop : m.CallsOnTop)
    (calls : m'.stack = .call c :: below) :
    ∃ as, as.head? = some (.call c) ∧
      ({ m with stack := rest } : Machine σ).Sequel e a as m'.pool.returned m'.pool.closed :=
  turn.put top onTop rfl rfl calls

/-- A call to close the resource begins. -/
def Closes (m : Machine σ) (i : Item) (why : Closing) : Prop :=
  ∃ rest, m.stack = .call (.close i why) :: rest

/-- After the call the answer is waited for. -/
theorem answer_mem {c : Call} {rest : List Activity} (top : m.stack = .call c :: rest) :
    .answer c ∈ (m.step e).activities := by
  have announced (m : Machine σ) : .answer c ∈ (m.announce e c).activities := by
    simp [activities, announce, note, push]
  simp only [step, top, exec]
  cases c with
  | schedule t =>
      simp only [call]
      split
      · exact announced _
      · simp [activities, push]
  | create | validate | close => exact announced _

theorem Closes.answer_mem {i : Item} {why : Closing} (closes : m.Closes i why) :
    .answer (.close i why) ∈ (m.step e).activities :=
  let ⟨_, top⟩ := closes
  Machine.answer_mem top

end Machine

namespace Run

open Machine

variable {σ : Type} {e : Environment σ} {past : List (Machine σ)} {m : Machine σ}

theorem keepsNext {I : Books → Prop} (run : Run e past m)
    (kept : ∀ {gone b c}, Move gone b c → I b → I c) (before : I (m.books 0 (history e past))) :
    I ((m.step e).books 0 (history e (m :: past))) := by
  rw [history_cons]
  exact (step_moves e _ _ run.count_permit).keeps kept before

/-- What holds in a new pool, whatever is asked for next, and is kept by every turn, holds in every
state. -/
theorem byTurns {I : List (Machine σ) → Machine σ → Prop} (run : Run e past m)
    (start : ∀ {c m}, m.pool = .ofConfig c → m.stack = [] → m.paused = [] → I [] m)
    (ask : ∀ {past m} a, m.stack = [] → a.isBare = true → I past m → I past (m.push [a]))
    (idle : ∀ {past m}, m.stack = [] → I past m → I (m :: past) m)
    (turn : ∀ {past m a rest}, Run e past m → m.stack = a :: rest →
      Turn e m a rest (m.step e) → I past m → I (m :: past) (m.step e)) : I past m := by
  induction run with
  | start built =>
      unfold build at built
      split at built
      · simp at built
      · obtain rfl := Except.ok.inj built
        exact start rfl rfl rfl
  | ask op run empty ih => exact ask _ empty rfl ih
  | threads run empty onThreads ih => exact ask _ empty rfl ih
  | @step past m run ih =>
      cases top : m.stack with
      | nil =>
          rw [Machine.step, top]
          exact idle top ih
      | cons a rest => exact turn run top (step_turn top) ih

/-- What holds of every bare activity, is kept by every step and is handed on to what is left to be
done holds of everything that is to be done. -/
theorem byActivities {P : List (Machine σ) → Activity → Pool → Prop} (run : Run e past m)
    (bare : ∀ {past a p}, a.isBare = true → P past a p)
    (idle : ∀ {past m a}, P past a m.pool → P (m :: past) a m.pool)
    (kept : ∀ {past m a}, Run e past m → P past a m.pool → P (m :: past) a (m.step e).pool)
    (left : ∀ {past m a rest as b}, Run e past m → m.stack = a :: rest →
      ({ m with stack := rest } : Machine σ).Sequel e a as (m.step e).pool.returned
        (m.step e).pool.closed → b ∈ as → b ∈ (m.step e).activities → P past a m.pool →
      P (m :: past) b (m.step e).pool) : ∀ a ∈ m.activities, P past a m.pool := by
  refine run.byTurns (I := fun past m => ∀ a ∈ m.activities, P past a m.pool)
    (fun _ stack paused => ?_) (fun a empty isBare before b member => ?_)
    (fun _ before a member => idle (before a member))
    fun {past m a rest} run top turn before b member => ?_
  · simp [activities, stack, paused]
  · obtain rfl | member := List.mem_cons.1 member
    · exact bare isBare
    · exact before b member
  · have here := before a (by simp [activities, top])
    obtain ⟨as, new, sequel⟩ | ⟨rfl, _⟩ | old := turn.mem member
    · exact left run top sequel new member here
    · exact kept run here
    · exact kept run (before b (mem_of_below top old))

theorem callsOnTop (run : Run e past m) : m.CallsOnTop := by
  refine run.byTurns (I := fun _ m => m.CallsOnTop) (fun _ stack paused => ?_)
    (fun a empty _ before => ?_) (fun _ before => before) fun _ top turn => turn.callsOnTop top
  · simp [CallsOnTop, stack, paused]
  · simpa [CallsOnTop, push, empty] using before

theorem before {n : Machine σ} (run : Run e (n :: past) m) : Run e past n := by
  generalize whole : n :: past = all at run
  induction run with
  | start => cases whole
  | ask _ _ _ ih | threads _ _ _ ih => exact ih whole
  | step run =>
      obtain ⟨rfl, rfl⟩ := List.cons.inj whole
      exact run

/-- What is kept from a machine on holds from its next step on. -/
theorem since {T : List (Machine σ) → Machine σ → Prop} {n : Machine σ}
    {earlier later : List (Machine σ)} (run : Run e past m) (parts : past = later ++ n :: earlier)
    (start : T [] (n.step e))
    (ask : ∀ {later m} a, m.stack = [] → a.isBare = true → T later m → T later (m.push [a]))
    (step : ∀ {later m}, Run e (later ++ n :: earlier) m → T later m →
      T (m :: later) (m.step e)) : T later m := by
  induction run generalizing later with
  | start => simp at parts
  | ask op run idle ih => exact ask _ idle rfl (ih parts)
  | threads run idle onThreads ih => exact ask _ idle rfl (ih parts)
  | @step past m run ih =>
      cases later with
      | nil =>
          obtain ⟨rfl, rfl⟩ := List.cons.inj parts
          exact start
      | cons m' later =>
          obtain ⟨rfl, rfl⟩ := List.cons.inj parts
          exact step run (ih rfl)

variable {n : Machine σ} {later earlier : List (Machine σ)}

theorem sinceTurns {T : List (Machine σ) → Machine σ → Prop} (run : Run e past m)
    (parts : past = later ++ n :: earlier) (start : T [] (n.step e))
    (ask : ∀ {later m} a, m.stack = [] → a.isBare = true → T later m → T later (m.push [a]))
    (idle : ∀ {later m}, m.stack = [] → T later m → T (m :: later) m)
    (turn : ∀ {later m a rest}, Run e (later ++ n :: earlier) m → m.stack = a :: rest →
      Turn e m a rest (m.step e) → T later m → T (m :: later) (m.step e)) : T later m := by
  refine run.since parts start ask fun {later m} run before => ?_
  cases top : m.stack with
  | nil =>
      rw [Machine.step, top]
      exact idle top before
  | cons a rest => exact turn run top (step_turn top) before

theorem suffix_of_append (parts : past = later ++ n :: earlier) : n :: earlier <:+ past :=
  ⟨later, parts.symm⟩

theorem before_of_append (run : Run e past m) (parts : past = later ++ n :: earlier) :
    Run e earlier n := by
  obtain ⟨m', early⟩ := run.of_suffix (suffix_of_append parts)
  exact early.before

/-- What every step keeps of the shared state holds from a machine on. -/
theorem keepsPool {P : Pool → Prop} (run : Run e past m) (parts : past = later ++ n :: earlier)
    (step : ∀ {past m}, Run e past m → P m.pool → P (m.step e).pool) (here : P n.pool) :
    P m.pool :=
  run.since (T := fun _ m => P m.pool) parts (step (run.before_of_append parts) here)
    (fun _ _ _ before => before) step

/-- What is left to be done waits until it is carried out. -/
theorem waits_or_done (run : Run e past m) (parts : past = later ++ n :: earlier) {a : Activity}
    (member : a ∈ (n.step e).activities) :
    a ∈ m.activities ∨ ∃ v ∈ later, ∃ rest, v.stack = a :: rest := by
  refine run.sinceTurns (T := fun later m => a ∈ m.activities ∨ ∃ v ∈ later, ∃ rest,
    v.stack = a :: rest) parts (.inl member)
    (fun b _ _ before => before.imp_left (List.mem_cons_of_mem b))
    (fun _ before => before.imp_right fun ⟨v, member, top⟩ =>
      ⟨v, List.mem_cons_of_mem _ member, top⟩) ?_
  rintro later m b below run top turn (member | ⟨v, member, done⟩)
  · obtain ⟨as, perm, _⟩ := turn.perm
    rw [activities, top, List.cons_append] at member
    obtain rfl | member := List.mem_cons.1 member
    · exact .inr ⟨m, List.mem_cons_self .., below, top⟩
    · exact .inl (perm.mem_iff.2 (List.mem_append_right _ member))
  · exact .inr ⟨v, List.mem_cons_of_mem m member, done⟩

end Run
end ResourcePool
