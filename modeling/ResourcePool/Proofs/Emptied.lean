import ResourcePool.Proofs.AfterClose
import ResourcePool.Proofs.Partition
import ResourcePool.Proofs.Pending
import ResourcePool.Proofs.Reports

/-!
Closing a pool is complete. When whoever closes it is told what failed, nothing is idle and nobody
stands in line: each request that was pending failed, unless it was withdrawn meanwhile, and no
resource on loan was closed, unless it came back meanwhile. From then on nothing is idle and nobody
stands in line whenever nothing is in progress, and once the last loan is over every resource was
closed or detached.
-/

namespace ResourcePool

attribute [-simp] Multiset.singleton_add

/-- The right to answer that nobody has used yet is with a call. -/
theorem Activity.silent_sender {a : Activity} {w : Nat} (inside : .sender w [] ∈ a.assets) :
    (∃ n r, a = .call (.create n w r) ∨ a = .answer (.create n w r)) ∨
      ∃ t, a = .call (.schedule t) ∧ t.waiter = w := by
  cases a with
  | acquire p | acquired _ p => cases p <;> simp at inside
  | put k x => obtain b | (_ | ⟨b, deadline⟩) | i | r := x <;> simp at inside
  | round n inHand => cases inHand <;> simp at inside
  | call c | answer c =>
      obtain ⟨n, v, r⟩ | ⟨i, check⟩ | ⟨i, why⟩ | t := c
      case validate => cases check <;> simp at inside
      case close => obtain (_ | _) | _ | _ | _ | _ := why <;> simp at inside
      all_goals simp_all
  | _ => simp at inside

/-- A flush answers at once. -/
theorem Activity.not_dismissed {a : Activity} {w : Nat} {c : List Fate}
    (inside : .sender w c ∈ a.assets) : .dismissed ∉ c := by
  cases a with
  | acquire p | acquired _ p => cases p <;> simp at inside
  | put k x => obtain b | (_ | ⟨b, deadline⟩) | i | r := x <;> simp at inside
  | round n inHand => cases inHand <;> simp at inside
  | call d | answer d =>
      obtain ⟨n, v, r⟩ | ⟨i, check⟩ | ⟨i, why⟩ | t := d
      case validate => cases check <;> simp at inside
      case close => obtain (_ | _) | _ | _ | _ | _ := why <;> simp at inside
      all_goals simp_all
  | _ => simp_all

theorem Activity.eq_giveBack_of_isBare {a : Activity} {i : Item} (bare : a.isBare = true)
    (inHand : a.inHand? = some i) : a = .giveBack i := by
  cases a with
  | round n hand => cases hand <;> simp_all
  | _ => simp_all

/-- What is in hand is part of the stock, and not on loan unless it was just given back. -/
theorem Activity.holding_of_inHand {a : Activity} {i : Item} (inHand : a.inHand? = some i)
    (other : a ≠ .giveBack i) : .idle i ∈ a.assets ∨ .ousted i ∈ a.assets := by
  cases a with
  | round n hand => cases hand <;> simp_all
  | call c | answer c =>
      obtain _ | ⟨j, check⟩ | ⟨j, check | _ | _ | _ | _⟩ | t := c <;> simp_all
  | _ => simp_all

namespace Machine

variable {σ : Type} {e : Environment σ} {m m' : Machine σ}

/-- The request failed because the pool was closed: nothing else was seen of it, and whoever listens
to it finds so. -/
structure Dismissed (m : Machine σ) (h : History) (w : Nat) : Prop where
  decided : h.fates w = [.dismissed]
  seen : ∀ o ∈ h.sights w, o = .error .closed
  shown : ∀ a ∈ m.allRequests, a.waiter = w → (m.look w).1 = some (.error .closed)

/-- The resource with this number comes back from loan. -/
def TakesBack (m : Machine σ) (id : Nat) : Prop :=
  ∃ i rest, m.stack = .giveBack i :: rest ∧ i.resource.id = id

/-- The resource with this number is not idle, nor in the hand of anybody to whom it was not just
given back. -/
structure Spares (m : Machine σ) (id : Nat) : Prop where
  queue : ∀ i ∈ m.pool.returned, i.resource.id ≠ id
  hands : ∀ a ∈ m.activities, ∀ i, a.inHand? = some i → a ≠ .giveBack i → i.resource.id ≠ id

/-- What may be left to be done before it is told what failed: a last call for matching, which finds
nothing to do. -/
inductive Homeward (p : Pool) : List Activity → Prop
  | call : Homeward p [.trigger]
  | round (only : p.triggers = 1) : Homeward p [.round 1 none]
  | flush (only : p.triggers = 1) : Homeward p [.flush .matcher [], .again 1]
  | ended (only : p.triggers = 1) : Homeward p [.again 1]
  | home : Homeward p []

/-- Whoever closes the pool has emptied the queue and the line, and nobody else does so. -/
structure Closed (m : Machine σ) (f : List CloseFailure) : Prop where
  closed : m.pool.closed = true
  returned : m.pool.returned = []
  line : m.pool.registry.entries = []
  homeward : ∃ above below, m.stack = above ++ .report f :: below ∧ Homeward m.pool above ∧
    ∀ g, .report g ∉ below ++ m.paused

/-- A resource on loan stays so until it comes back. -/
theorem Sequel.spares {a : Activity} {as : List Activity} {r : List Item} {c : Bool} {id : Nat}
    (sequel : m.Sequel e a as r c) (queue : ∀ i ∈ m.pool.returned, i.resource.id ≠ id)
    (hand : ∀ i, a.inHand? = some i → i.resource.id ≠ id) : (∀ i ∈ r, i.resource.id ≠ id) ∧
      ∀ b ∈ as, ∀ i, b.inHand? = some i → b ≠ .giveBack i → i.resource.id ≠ id := by
  have bare {bs : List Activity} (bare : ∀ b ∈ bs, b.isBare = true) :
      ∀ b ∈ bs, ∀ i, b.inHand? = some i → b ≠ .giveBack i → i.resource.id ≠ id :=
    fun b member i inHand other =>
      absurd (Activity.eq_giveBack_of_isBare (bare b member) inHand) other
  have popped {i : Item} {rest : List Item} (popped : m.pool.returned = i :: rest) :
      i.resource.id ≠ id ∧ ∀ j ∈ rest, j.resource.id ≠ id := by
    rw [popped] at queue
    exact List.forall_mem_cons.1 queue
  have found {n : Nat} {view : List Nat} {i : Item} {rest : List Item}
      (finds : m.Finds a n view i rest) : i.resource.id ≠ id ∧ ∀ j ∈ rest, j.resource.id ≠ id := by
    cases finds with
    | inHand | valid => exact ⟨hand i rfl, queue⟩
    | queued _ same => exact popped same
  cases sequel with
  | bare _ _ all => exact ⟨queue, bare all⟩
  | store inHand _ _ all =>
      refine ⟨fun i member => ?_, bare all⟩
      obtain old | new := List.mem_append.1 member
      · exact queue i old
      · exact List.mem_singleton.1 new ▸ hand _ inHand
  | lend finds => exact ⟨(found finds).2, by simp⟩
  | retain finds => exact ⟨(found finds).2, by simpa using (found finds).1⟩
  | checkout _ same | flush same => exact ⟨(popped same).2, by simpa using (popped same).1⟩
  | wreck same => exact ⟨(popped same).2, by simpa using (popped same).1⟩
  | @stop n inHand => cases inHand <;> simp_all
  | @begin d ops =>
      refine ⟨queue, fun b member i inHand _ => ?_⟩
      obtain ⟨op, rfl⟩ | rfl | rfl := mem_begun member
      · cases inHand
      · cases inHand
      · cases d with
        | validate => exact hand i inHand
        | _ => cases inHand
  | report | leave => simp
  | checkin | discard | misfit => exact ⟨queue, by simpa using hand⟩
  | _ => exact ⟨queue, by simp⟩

/-- Only whoever closes the pool tells what failed, and has found the queue empty. -/
theorem Sequel.flush_of_report {a : Activity} {as : List Activity} {r : List Item} {c : Bool}
    {f : List CloseFailure} (sequel : m.Sequel e a as r c) (member : .report f ∈ as) :
    a = .flush .closer f ∧ as = [.trigger, .report f] ∧ r = [] ∧ m.pool.returned = [] := by
  cases sequel with
  | bare _ _ bare | store _ _ _ bare => simpa using bare _ member
  | @begin c ops =>
      obtain ⟨op, same⟩ | same | same := mem_begun member <;> cases same
  | @stop n inHand => cases inHand <;> simp at member
  | report empty =>
      obtain rfl : f = _ := by simpa using member
      exact ⟨rfl, rfl, rfl, empty⟩
  | _ => simp at member

theorem dismissAll_of_empty {p : Pool} (empty : p.registry.entries = []) : p.dismissAll = p := by
  simp [Pool.dismissAll, empty]

/-- Whoever closes the pool finds the queue empty, and turns to the line. -/
theorem closed_of_flush {f : List CloseFailure} {rest : List Activity}
    (top : m.stack = .flush .closer f :: rest) (closed : m.pool.closed = true)
    (empty : m.pool.returned = []) (alone : ∀ g, .report g ∉ rest ++ m.paused) :
    (m.step e).Closed f := by
  have unpopped : m.pool.popReturned? = none := by
    unfold Pool.popReturned?
    rw [empty]
  have same := m.pool.dismissAll_sameStock
  simp only [step, top, exec, Machine.flush, unpopped]
  exact ⟨same.closed.trans closed, same.returned.trans empty, by simp [push, withPool], [.trigger],
    rest, rfl, .call, alone⟩

/-- Until it is told what failed, every step leads there. -/
theorem Closed.step_homeward {f : List CloseFailure} {a : Activity} {above below : List Activity}
    (closed : m.pool.closed = true) (returned : m.pool.returned = [])
    (line : m.pool.registry.entries = [])
    (top : m.stack = a :: (above ++ .report f :: below)) (way : Homeward m.pool (a :: above))
    (alone : ∀ g, .report g ∉ below ++ m.paused) : (m.step e).Closed f := by
  cases way with
  | call =>
      by_cases idle : m.pool.triggers = 0
      · simp only [step, top, exec, trigger, idle, if_true]
        exact ⟨closed, returned, line, _, below, rfl, .round rfl, alone⟩
      · simp only [step, top, exec, trigger, idle, if_false]
        exact ⟨closed, returned, line, [], below, rfl, .home, alone⟩
  | round only =>
      simp only [step, top, exec, Machine.round, closed, if_true]
      exact ⟨closed, returned, line, _, below, rfl, .flush only, alone⟩
  | flush only =>
      have unpopped : m.pool.popReturned? = none := by
        unfold Pool.popReturned?
        rw [returned]
      simp only [step, top, exec, Machine.flush, unpopped, dismissAll_of_empty line]
      exact ⟨closed, returned, line, _, below, rfl, .ended only, alone⟩
  | ended only =>
      simp only [step, top, exec, again, only, Nat.sub_self, if_true]
      exact ⟨closed, returned, line, [], below, rfl, .home, alone⟩

/-- Only who has the right to answer decides about a request, apart from those that are withdrawn,
dismissed by a flush, or turned away at once. -/
theorem sender_of_deed (m : Machine σ) {a : Activity} {w : Nat} {f : Fate}
    (deed : .fate w f ∈ m.deedsOf e a) : f = .withdrawn ∨ f = .dismissed ∨
      w = m.pool.nextWaiter ∨ ∃ c, .sender w c ∈ a.assets := by
  have withdrawal {b : Acquire} (deed : .fate w f ∈ m.withdrawal b) : f = .withdrawn := by
    unfold Machine.withdrawal at deed
    split at deed <;> simp_all
  have sight {v : Nat} : .fate w f ∉ m.sight v := by simp [Machine.sight]
  cases a with
  | perform op =>
      refine .inl ?_
      simp only [deedsOf, deedsOfOp] at deed
      split at deed
      · split at deed
        · exact withdrawal deed
        · cases deed
      · split at deed
        · exact absurd deed sight
        · exact absurd deed sight
        · cases deed
      · split at deed <;> simp at deed
      · split at deed
        · split at deed <;> simp at deed
        · cases deed
      · cases deed
  | acquire purpose =>
      simp only [deedsOf] at deed
      split at deed <;> simp_all
  | acquired a purpose =>
      cases purpose with
      | get k => exact absurd deed sight
      | _ => cases deed
  | quit a => exact .inl (withdrawal deed)
  | abandon t | task t =>
      obtain ⟨rfl, _⟩ : w = t.waiter ∧ _ := by simpa [deedsOf] using deed
      exact .inr (.inr (.inr ⟨[.entrusted t.item], by simp⟩))
  | flush who failures =>
      simp only [deedsOf] at deed
      split at deed
      · obtain ⟨v, _, same⟩ := List.mem_map.1 deed
        cases same
        exact .inr (.inl rfl)
      · cases deed
  | call c =>
      cases c with
      | schedule t =>
          obtain ⟨rfl, _⟩ : w = t.waiter ∧ _ := by simpa [deedsOf] using deed
          exact .inr (.inr (.inr ⟨[], by simp⟩))
      | _ => simp [deedsOf] at deed
  | answer c =>
      cases c with
      | create n v r =>
          obtain rfl : w = v := by
            simp only [deedsOf, deedsOfCreation] at deed
            split at deed
            · cases deed
            · split at deed <;> simp_all
          exact .inr (.inr (.inr ⟨[], by simp⟩))
      | _ => cases deed
  | _ => cases deed

theorem active_or_still {x : Asset} (inside : x ∈ m.assets) :
    (∃ a ∈ m.activities, x ∈ a.assets) ∨ x.Still := by
  rw [assets, Multiset.mem_add, Multiset.mem_add, Multiset.mem_add, Multiset.mem_add] at inside
  obtain (((inside | inside) | inside) | inside) | inside := inside
  · obtain ⟨a, member, inside⟩ := mem_sum_map.1 inside
    exact .inl ⟨a, List.mem_append_left _ member, inside⟩
  · obtain ⟨a, member, inside⟩ := mem_sum_map.1 inside
    exact .inl ⟨a, List.mem_append_right _ member, inside⟩
  · obtain ⟨x, _, inside⟩ := mem_sum_map.1 inside
    exact .inr (Handle.still inside)
  · obtain ⟨t, _, inside⟩ := mem_sum_map.1 inside
    exact .inr (Task.still inside)
  · exact .inr (Background.still inside)

/-- In a closed pool nobody is given the right to answer a pending request. -/
theorem Sequel.not_silent_sender {a b : Activity} {as : List Activity} {r : List Item} {c : Bool}
    {w : Nat} (sequel : m.Sequel e a as r c) (closed : m.pool.closed = true)
    (stale : a.keepsView = true → ∀ v, ¬m.Pending v) (pending : m.Pending w)
    (nobody : ∀ c, .sender w c ∉ a.assets) (member : b ∈ as) : .sender w [] ∉ b.assets := by
  intro inside
  cases sequel with
  | bare _ _ bare | store _ _ _ bare =>
      have bare := bare b member
      obtain ⟨n, r, rfl | rfl⟩ | ⟨t, rfl, _⟩ := Activity.silent_sender inside <;> simp at bare
  | lend finds | retain finds => exact stale (finds.keepsView closed) w pending
  | checkout looks | fill looks => exact stale (looks.keepsView closed) w pending
  | @made n r t =>
      obtain ⟨n, r, rfl | rfl⟩ | ⟨t, rfl, rfl⟩ := Activity.silent_sender inside
      · simp at member
      · simp at member
      · obtain rfl : t = _ := by simpa using member
        exact nobody [] (by simp)
  | @begin c ops =>
      obtain ⟨op, rfl⟩ | rfl | rfl := mem_begun member
      · simp at inside
      · simp at inside
      · obtain ⟨n, r, same | same⟩ | ⟨t, same, rfl⟩ := Activity.silent_sender inside
        · cases same
        · cases same
          exact nobody [] (by simp)
        · cases same
  | @stop n inHand =>
      obtain ⟨i, rfl⟩ | rfl | rfl := mem_stopped member <;> simp at inside
  | _ =>
      obtain ⟨n, r, rfl | rfl⟩ | ⟨t, rfl, _⟩ := Activity.silent_sender inside <;> simp at member

end Machine

namespace Run

open Machine

variable {σ : Type} {e : Environment σ} {past : List (Machine σ)} {m : Machine σ}

theorem not_sender_of_pending (run : Run e past m) {w : Nat} (pending : m.Pending w)
    (c : List Fate) : .sender w c ∉ m.assets := by
  intro inside
  obtain ⟨x, found, state⟩ := pending
  obtain ⟨y, found', settled, _⟩ := run.sender inside
  obtain rfl : x = y := Option.some.inj (found.symm.trans found')
  exact settled state

theorem fates_of_pending (run : Run e past m) {w : Nat} (pending : m.Pending w) :
    (history e past).fates w = [] := by
  obtain ⟨x, found, state⟩ := pending
  exact congrArg Ties.fates (Standings.pending_of_state (run.standing found) state).2.2

/-- In a closed pool a pending request stays so until it is withdrawn or dismissed. -/
theorem pending_step (run : Run e past m) (closed : m.pool.closed = true) {w : Nat}
    (pending : m.Pending w) : (m.step e).Pending w ∨
      (history e (m :: past)).fates w = [.dismissed] ∨
      (history e (m :: past)).fates w = [.withdrawn] := by
  obtain ⟨x, found, _⟩ := id pending
  have known : w < (m.step e).pool.nextWaiter :=
    (List.getElem?_eq_some_iff.1 found).1.trans_le run.joins_step.grows
  have standing := run.step.standing (List.getElem?_eq_getElem known)
  have nobody := run.not_sender_of_pending pending
  obtain none | ⟨f, decided⟩ := run.step.fates_course w
  · -- Nothing was decided, so nobody else can have claimed the waiter than a matching.
    refine .inl ⟨_, List.getElem?_eq_getElem known, ?_⟩
    by_contra state
    have sends : [] ∈ (((m.step e).books 0 (history e (m :: past))).ties w).senders := by
      have fates : (((m.step e).books 0 (history e (m :: past))).ties w).fates = [] := none
      generalize ((m.step e).books 0 (history e (m :: past))).ties w = t at standing fates
      cases standing with
      | pending here => exact absurd here state
      | claimed =>
          obtain rfl := fates
          exact Multiset.mem_singleton_self []
      | @answered f | @forsaken f | @finished f =>
          obtain ⟨fs, course⟩ := f.head_course
          exact absurd (course.symm.trans fates) (by simp)
    have inside : .sender w [] ∈ (m.step e).assets := by
      obtain ⟨a, inside, right⟩ := (Multiset.mem_filterMap ..).1 sends
      cases a with
      | sender v c =>
          obtain ⟨rfl, rfl⟩ : v = w ∧ c = [] := by simpa using right
          simpa [books] using inside
      | _ => simp at right
    obtain ⟨b, member, inside⟩ := (active_or_still inside).resolve_right (by rintro ⟨⟩)
    have before {a : Activity} (old : a ∈ m.activities) {c : List Fate} : .sender w c ∉ a.assets :=
      fun inside => nobody c (mem_assets old inside)
    cases top : m.stack with
    | nil =>
        rw [Machine.step, top] at member
        exact before member inside
    | cons a rest =>
        have here : a ∈ m.activities := by simp [activities, top]
        obtain ⟨as, new, sequel⟩ | ⟨rfl, _⟩ | old := (step_turn (e := e) top).mem member
        · exact sequel.not_silent_sender closed (run.not_pending closed top) pending
            (fun c => before here) new inside
        · exact before here inside
        · exact before (mem_of_below top old) inside
  · obtain ⟨fs, course⟩ := f.head_course
    have deed : .fate w f ∈ m.deeds e := by
      have first : f ∈ (history e (m :: past)).fates w := by
        rw [decided, course]
        exact List.mem_cons_self ..
      rw [history_cons, History.fates, List.filterMap_append, List.mem_append] at first
      obtain ⟨d, member, fate⟩ := List.mem_filterMap.1 (first.resolve_right fun old => by
        rw [← History.fates, run.fates_of_pending pending] at old
        cases old)
      cases d with
      | fate v g =>
          obtain ⟨rfl, rfl⟩ : v = w ∧ g = f := by simpa using fate
          exact member
      | _ => simp at fate
    cases top : m.stack with
    | nil => simp [deeds, top] at deed
    | cons a rest =>
        simp only [deeds, top] at deed
        obtain rfl | rfl | new | ⟨c, right⟩ := sender_of_deed _ deed
        · exact .inr (.inr decided)
        · exact .inr (.inl decided)
        · exact absurd (List.getElem?_eq_some_iff.1 found).1 (Nat.not_lt.2 new.ge)
        · exact absurd (mem_assets (by simp [activities, top]) right) (nobody c)

variable {n : Machine σ} {later earlier : List (Machine σ)}

/-- A request that is pending when the pool is closed stays so until it is withdrawn or
dismissed. -/
theorem pending_or_failed (run : Run e past m) (parts : past = later ++ n :: earlier)
    {below : List Activity} (closing : n.stack = .perform .close :: below)
    (handle : n.mainHandle = true) (opened : n.pool.closed = false) {w : Nat}
    (pending : n.Pending w) : m.Pending w ∨ (history e past).fates w = [.dismissed] ∨
      (history e past).fates w = [.withdrawn] := by
  subst parts
  have early := run.before_of_append rfl
  have kept := run.since (T := fun later m => m.pool.closed = true ∧ (m.Pending w ∨
    (history e (later ++ n :: earlier)).fates w = [.dismissed] ∨
    (history e (later ++ n :: earlier)).fates w = [.withdrawn])) rfl ?_
    (fun _ _ _ before => before) fun {later m} run before => ?_
  · exact kept.2
  · rw [step_close closing handle opened]
    exact ⟨rfl, .inl pending⟩
  · obtain ⟨closed, before⟩ := before
    refine ⟨run.closed_step closed, ?_⟩
    obtain pending | decided := before
    · exact run.pending_step closed pending
    · have same {f : Fate} (course : f.course = [f]) (answer : f.answer ≠ none)
          (decided : (history e (later ++ n :: earlier)).fates w = [f]) :
          (history e (m :: later ++ n :: earlier)).fates w = [f] := by
        obtain none | ⟨g, h, before, now, _, settled⟩ :=
          run.step.persists (List.suffix_cons m _) w
        · simp [none] at decided
        · obtain rfl : g = f := Fate.eq_of_course (decided.symm.trans before)
          rw [settled answer, course] at now
          exact now
      exact .inr (decided.imp (same rfl (by simp [Fate.answer])) (same rfl (by simp [Fate.answer])))

theorem dismissed_of_fates (run : Run e past m) {w : Nat}
    (decided : (history e past).fates w = [.dismissed]) : m.Dismissed (history e past) w := by
  refine ⟨decided, fun o member => ?_, ?_⟩
  · have seen := (run.sights_le w).2 o member
    simpa [History.answer, decided, Fate.answer, eq_comm] using seen
  rintro a member rfl
  have listens : a.attached ∈ ((m.books 0 (history e past)).ties a.waiter).listeners := by
    have request : a ∈ m.assets.filterMap Asset.request? :=
      m.coe_allRequests ▸ Multiset.mem_coe.2 member
    obtain ⟨x, held, request⟩ := (Multiset.mem_filterMap ..).1 request
    cases x with
    | listener b =>
        obtain rfl : b = a := by simpa using request
        exact (Multiset.mem_filterMap ..).2 ⟨.listener b, by simpa [books] using held, by simp⟩
    | _ => simp at request
  obtain ⟨x, found, standing⟩ := run.sound.standings.known (w := a.waiter) fun none => by
    simp [none] at listens
  have look := m.look_eq found
  have fates : ((m.books 0 (history e past)).ties a.waiter).fates = [.dismissed] := decided
  have senders : ∀ c ∈ ((m.books 0 (history e past)).ties a.waiter).senders, .dismissed ∉ c := by
    intro c sends
    obtain ⟨y, inside, right⟩ := (Multiset.mem_filterMap ..).1 sends
    cases y with
    | sender v d =>
        obtain ⟨rfl, rfl⟩ : v = a.waiter ∧ d = c := by simpa using right
        obtain ⟨b, _, inside⟩ | still := active_or_still (by simpa [books] using inside)
        · exact Activity.not_dismissed inside
        · cases still
          simp
    | _ => simp at right
  generalize (m.books 0 (history e past)).ties a.waiter = t at standing listens fates senders
  cases standing with
  | pending => cases fates
  | @claimed fs =>
      obtain rfl : fs = _ := fates
      exact absurd (List.mem_singleton_self _) (senders _ (Multiset.mem_singleton_self _))
  | @answered f o b state line listening answer =>
      obtain rfl : f = .dismissed := Fate.eq_of_course fates.symm
      obtain rfl : _ = o := Option.some.inj answer
      rw [look, line]
  | @forsaken f b state line answer =>
      obtain rfl : f = .dismissed := Fate.eq_of_course fates.symm
      cases answer
  | finished => simp at listens

/-- What is on loan is nowhere else in the stock. -/
theorem eq_lent_of_id (run : Run e past m) {i : Item} (lent : i ∈ m.guards) {x : Holding}
    (held : x ∈ (m.books 0 (history e past)).stock) (same : x.id? = some i.resource.id) :
    x = i.lent := by
  have inside : i.lent ∈ (m.books 0 (history e past)).stock :=
    Multiset.mem_of_le (m.lent_le_stock _) (Multiset.mem_coe.2 (List.mem_map_of_mem lent))
  obtain ⟨S, stock⟩ := Multiset.exists_cons_of_mem held
  have all := Multiset.nodup_range m.made
  rw [← run.accounts.ids, stock, Multiset.filterMap_cons_some _ _ _ same, Multiset.cons_add,
    Multiset.cons_add, Multiset.nodup_cons] at all
  simp only [Multiset.mem_add, not_or] at all
  rw [stock, Multiset.mem_cons] at inside
  refine (inside.resolve_right fun elsewhere => ?_).symm
  exact all.1.1.1 ((Multiset.mem_filterMap ..).2 ⟨i.lent, elsewhere, rfl⟩)

theorem spares_of_guard (run : Run e past m) {i : Item} (lent : i ∈ m.guards) :
    m.Spares i.resource.id := by
  have apart {x : Holding} (held : x ∈ (m.books 0 (history e past)).stock)
      (state : x.state ≠ .checkedOut) : x.id? ≠ some i.resource.id := fun same =>
    state (congrArg Holding.state (run.eq_lent_of_id lent held same))
  constructor
  · intro j queued same
    have held : j.stored ∈ (m.books 0 (history e past)).stock :=
      Multiset.mem_add.2 (.inr (Multiset.mem_of_le m.pool.stored_le_holdings
        (List.mem_map_of_mem queued)))
    exact apart held (by simp [Item.stored]) (congrArg some same)
  · intro a member j inHand other same
    have part {x : Asset} {y : Holding} (inside : x ∈ a.assets) (is : x.holding? = some y) :
        y ∈ (m.books 0 (history e past)).stock := by
      refine Multiset.mem_add.2 (.inl ((Multiset.mem_filterMap ..).2 ⟨x, ?_, is⟩))
      simpa [books] using mem_assets member inside
    obtain idle | ousted := Activity.holding_of_inHand inHand other
    · exact apart (part idle rfl) (by simp [Item.stored]) (congrArg some same)
    · exact apart (part ousted rfl) (by simp [Item.ousted]) (congrArg some same)

/-- A resource on loan comes back or stays on loan. -/
theorem spares_step {id : Nat} (before : m.Spares id) : m.TakesBack id ∨ (m.step e).Spares id := by
  by_cases back : m.TakesBack id
  · exact .inl back
  refine .inr ?_
  cases top : m.stack with
  | nil =>
      rw [Machine.step, top]
      exact before
  | cons a rest =>
      have hand : ∀ i, a.inHand? = some i → i.resource.id ≠ id := fun i inHand same => by
        by_cases given : a = .giveBack i
        · exact back ⟨i, rest, given ▸ top, same⟩
        · exact before.hands a (by simp [activities, top]) i inHand given same
      obtain ⟨as, perm, sequel⟩ := (step_turn (e := e) top).perm
      have old {b : Activity} (member : b ∈ rest ++ m.paused) :=
        before.hands b (mem_of_below top member)
      obtain sequel | ⟨_, rfl, pool⟩ := sequel
      · obtain ⟨queue, new⟩ := sequel.spares before.queue hand
        exact ⟨queue, fun b member =>
          (List.mem_append.1 (perm.mem_iff.1 member)).elim (new b) old⟩
      · refine ⟨pool ▸ before.queue, fun b member => ?_⟩
        obtain here | below := List.mem_append.1 (perm.mem_iff.1 member)
        · exact before.hands b (by simp_all [activities])
        · exact old below

/-- What is on loan is not closed before it comes back. -/
theorem takesBack_of_closes (run : Run e past m) (parts : past = later ++ n :: earlier)
    {i j : Item} {why : Closing} (lent : i ∈ n.guards) (calm : ¬n.TakesBack i.resource.id)
    (closes : m.Closes j why) (same : j.resource.id = i.resource.id) :
    ∃ v ∈ later, v.TakesBack i.resource.id := by
  have kept := run.since (T := fun later m => (∃ v ∈ later, v.TakesBack i.resource.id) ∨
    m.Spares i.resource.id) parts ?_ ?_ ?_
  · refine kept.resolve_right fun spares => ?_
    obtain ⟨rest, top⟩ := closes
    have member : .call (.close j why) ∈ m.activities := by simp [activities, top]
    exact spares.hands _ member j rfl (by simp) same
  · exact .inr ((spares_step ((run.before_of_append parts).spares_of_guard lent)).resolve_left calm)
  · rintro later m a _ bare (back | spares)
    · exact .inl back
    · refine .inr ⟨spares.queue, fun b member k inHand other => ?_⟩
      obtain rfl | member := List.mem_cons.1 member
      · exact absurd (Activity.eq_giveBack_of_isBare bare inHand) other
      · exact spares.hands b member k inHand other
  · rintro later m run (⟨v, member, back⟩ | spares)
    · exact .inl ⟨v, List.mem_cons_of_mem m member, back⟩
    · exact (spares_step spares).imp_left fun back => ⟨m, List.mem_cons_self .., back⟩

/-- When it is told what failed, nothing is idle and nobody stands in line. -/
theorem closed_of_report (run : Run e past m) :
    ∀ f, .report f ∈ m.activities → m.Closed f := by
  refine run.byTurns (I := fun _ m => ∀ f, .report f ∈ m.activities → m.Closed f)
    (fun _ stack paused f member => ?_) (fun a empty bare before f member => ?_)
    (fun _ before => before) fun {past m a rest} run top turn before f member => ?_
  · simp [activities, stack, paused] at member
  · obtain rfl | member := List.mem_cons.1 member
    · simp at bare
    · obtain ⟨above, below, stack, _⟩ := (before f member).homeward
      simp [empty] at stack
  · have old {g : List CloseFailure} (inside : .report g ∈ rest ++ m.paused) :
        ∃ above below, rest = above ++ .report g :: below ∧ Homeward m.pool (a :: above) ∧
          ∀ h, .report h ∉ below ++ m.paused := by
      obtain ⟨above, below, stack, way, alone⟩ := (before g (mem_of_below top inside)).homeward
      cases above with
      | nil =>
          obtain ⟨-, rfl⟩ := List.cons.inj (top.symm.trans stack)
          exact absurd inside (alone g)
      | cons b above =>
          obtain ⟨rfl, rfl⟩ := List.cons.inj (top.symm.trans stack)
          exact ⟨above, below, rfl, way, alone⟩
    obtain ⟨as, new, sequel⟩ | ⟨rfl, _, _, _, same⟩ | inside := turn.mem member
    · obtain ⟨rfl, rfl, returned, empty⟩ := sequel.flush_of_report new
      have alone : ∀ g, .report g ∉ rest ++ m.paused := fun g inside => by
        obtain ⟨above, below, _, way, _⟩ := old inside
        cases way
      have closed : m.pool.closed = true := by
        by_contra opened
        have notes := (run.tally.opened (Bool.not_eq_true _ ▸ opened)).1
        simp [notes_cons top] at notes
      exact closed_of_flush top closed empty alone
    · cases same
    · obtain ⟨above, below, rfl, way, alone⟩ := old inside
      have here := before f (mem_of_below top inside)
      exact Closed.step_homeward here.closed here.returned here.line top way alone

theorem fates_later (run : Run e past m) (parts : past = later ++ n :: earlier)
    {below : List Activity} (closing : n.stack = .perform .close :: below) {w : Nat}
    (pending : n.Pending w) : (history e past).fates w = (history e later).fates w := by
  have none : n.deeds e = [] := by simp [deeds, closing, deedsOf, deedsOfOp]
  have early := (run.before_of_append parts).fates_of_pending pending
  rw [parts, history, List.flatMap_append, List.flatMap_cons, none, List.nil_append, ← history,
    ← history, History.fates, List.filterMap_append, ← History.fates, ← History.fates, early,
    List.append_nil]

/-- Whenever nothing is in progress in a closed pool, nothing is idle and nobody stands in line. -/
theorem empty_of_closed (run : Run e past m) (rest : m.AtRest) (closed : m.pool.closed = true) :
    m.pool.returned = [] ∧ m.pool.registry.entries = [] := by
  refine ⟨run.returned_of_closed rest closed, ?_⟩
  refine (run.shielded closed).resolve_right fun shielded => ?_
  exact shielded.busy rest.stack

/-- Each slot of a closed pool is free, closed for good, or lent once. -/
theorem slot_of_closed (run : Run e past m) (rest : m.AtRest) (closed : m.pool.closed = true)
    (s : Nat) : (m.pool.slot s).state = .uninitialized ∨ (m.pool.slot s).state = .closed ∨
      (m.pool.slot s).state = .checkedOut ∧ (m.guards.map Item.slot).count s = 1 := by
  obtain ⟨c, here⟩ := run.inPlace rest s
  have state := here.state
  cases c with
  | blank | vacant => exact .inl state
  | shut => exact .inr (.inl state)
  | lent => exact .inr (.inr ⟨state, here.guards⟩)
  | idle =>
      have queued := here.returned
      simp [run.returned_of_closed rest closed] at queued

/-- Once the last loan is over, every resource of a closed pool was closed or detached. -/
theorem disposed_of_closed (run : Run e past m) (rest : m.AtRest) (closed : m.pool.closed = true)
    (free : m.guards = []) : (∀ s, (m.pool.slot s).state ≠ .checkedOut) ∧
      ∀ id ∈ (history e past).creations.map Prod.fst,
        m.Accounted (history e past) id .closed ∨ m.Accounted (history e past) id .detached := by
  refine ⟨fun s lent => ?_, fun id known => ?_⟩
  · obtain state | state | ⟨_, once⟩ := run.slot_of_closed rest closed s
    · cases lent.symm.trans state
    · cases lent.symm.trans state
    · simp [free] at once
  · obtain ⟨lot, here⟩ := run.accounted rest known
    cases lot with
    | closed => exact .inl here
    | detached => exact .inr here
    | idle => simpa [run.returned_of_closed rest closed] using here.idle
    | lent => simpa [free] using here.lent

/-- When the call that closed the pool returns, nothing is idle and nobody stands in line. Each
request that was pending when the pool was closed has failed, unless it was withdrawn meanwhile, and
what was on loan is not closed unless it came back before. From then on, whenever nothing is in
progress, nothing is idle, nobody stands in line, and each slot is free, closed or lent; once the
last loan is over, every resource was closed or detached. -/
theorem close_complete (run : Run e past m) (parts : past = later ++ n :: earlier)
    {below : List Activity} (closing : n.stack = .perform .close :: below)
    (handle : n.mainHandle = true) (opened : n.pool.closed = false) :
    (∀ f rest, m.stack = .report f :: rest →
      m.pool.returned = [] ∧ m.pool.registry.entries = [] ∧
        (∀ w, n.Pending w →
          m.Dismissed (history e past) w ∨ (history e later).fates w = [.withdrawn]) ∧
        ∀ i ∈ n.guards, ∀ after v between j why, later = after ++ v :: between →
          v.Closes j why → j.resource.id = i.resource.id →
            ∃ u ∈ between, u.TakesBack i.resource.id) ∧
      (m.AtRest →
        m.pool.returned = [] ∧ m.pool.registry.entries = [] ∧
          (∀ s < m.pool.slots.length, (m.pool.slot s).state = .uninitialized ∨
            (m.pool.slot s).state = .closed ∨
              (m.pool.slot s).state = .checkedOut ∧ (m.guards.map Item.slot).count s = 1) ∧
          (m.guards = [] → (∀ s < m.pool.slots.length, (m.pool.slot s).state ≠ .checkedOut) ∧
            ∀ id ∈ (history e past).creations.map Prod.fst,
              m.Accounted (history e past) id .closed ∨
                m.Accounted (history e past) id .detached)) := by
  refine ⟨fun f rest top => ?_, fun rest => ?_⟩
  · have done := run.closed_of_report f (by simp [activities, top])
    refine ⟨done.returned, done.line, fun w pending => ?_, ?_⟩
    · obtain still | dismissed | withdrawn :=
        run.pending_or_failed parts closing handle opened pending
      · have inside : w ∈ m.pool.registry.entries := (run.sound.standings.inLine w).2 still
        rw [done.line] at inside
        cases inside
      · exact .inl (run.dismissed_of_fates dismissed)
      · exact .inr (run.fates_later parts closing pending ▸ withdrawn)
    · intro i lent after v between j why split closes same
      have calm : ¬n.TakesBack i.resource.id := by
        rintro ⟨k, _, back, _⟩
        simp [closing] at back
      have there : past = after ++ v :: (between ++ n :: earlier) := by simp [parts, split]
      exact (run.before_of_append there).takesBack_of_closes rfl lent calm closes same
  · have closed : m.pool.closed = true := by
      refine run.since (T := fun _ m => m.pool.closed = true) parts ?_
        (fun _ _ _ before => before) closed_step
      rw [step_close closing handle opened]
      rfl
    have empty := run.empty_of_closed rest closed
    have disposed := run.disposed_of_closed rest closed
    exact ⟨empty.1, empty.2, fun s _ => run.slot_of_closed rest closed s, fun free =>
      ⟨fun s _ => (disposed free).1 s, (disposed free).2⟩⟩

set_option maxRecDepth 4000 in
/-- While a resource is looked at for two in line, another one comes back and the pool is closed.
While that one is closed the first request is cancelled; the second fails. When the last loan is
over, all three resources have been closed. -/
theorem close_complete_nested : ∃ (past later earlier : List (Machine Bench.Rig))
    (m n : Machine Bench.Rig) (below rest : List Activity),
    Run Bench.environment past m ∧ past = later ++ n :: earlier ∧
      n.stack = .perform .close :: below ∧ n.pool.closed = false ∧ n.Pending 4 ∧
      m.stack = .report [] :: rest ∧ m.pool.returned = [] ∧ m.pool.registry.entries = [] ∧
      (history Bench.environment later).fates 3 = [.withdrawn] ∧
      m.Dismissed (history Bench.environment past) 4 ∧
      ∃ (past : List (Machine Bench.Rig)) (m : Machine Bench.Rig),
        Run Bench.environment past m ∧ m.AtRest ∧ m.guards = [] ∧
          (history Bench.environment past).creations = [(2, 2), (1, 1), (0, 0)] ∧
          ∀ id ∈ (history Bench.environment past).creations.map Prod.fst,
            m.Accounted (history Bench.environment past) id .closed ∨
              m.Accounted (history Bench.environment past) id .detached := by
  have start := hooked (c := { maxSize := 3 }) rfl
    [⟨.validate, 0, [.drop 2, .close]⟩, ⟨.close, 0, [.cancel 3]⟩]
  have first := (start.ask (.acquire 0) rfl).steps 40
  have second := (first.ask (.acquire 1) rfl).steps 40
  have third := (second.ask (.acquire 2) rfl).steps 40
  have delivered := (third.ask (.run none) rfl).steps 40
  have polled := (delivered.ask .pollAll rfl).steps 40
  have fourth := (polled.ask (.acquire 3) rfl).steps 40
  have fifth := (fourth.ask (.acquire 4) rfl).steps 40
  have closing := (fifth.ask (.drop 1) rfl).steps 11
  have closed := closing.step.steps 11
  have ended := closed.steps 40
  have returned := (ended.ask (.drop 0) rfl).steps 40
  obtain ⟨reports, _⟩ := closed.close_complete rfl rfl rfl rfl
  obtain ⟨idle, line, failed, _⟩ := reports _ _ rfl
  have regroup {A B C D : List (Machine Bench.Rig)} :
      A ++ (B ++ (C ++ D)) = A ++ (B ++ C) ++ D := by
    simp
  obtain ⟨_, rests⟩ := returned.close_complete regroup rfl rfl rfl
  exact ⟨_, _, _, _, _, _, _, closed, rfl, rfl, rfl, ⟨_, rfl, rfl⟩, rfl, idle, line, rfl,
    (failed 4 ⟨_, rfl, rfl⟩).resolve_right (by decide), _, _, returned, rfl, rfl, rfl,
    ((rests rfl).2.2.2 rfl).2⟩

end Run
end ResourcePool
