import ResourcePool.Proofs.Choices

/-!
How often somebody in line is passed over. A choice is made behind the place of the last one, or at
the front if that place was the end of the view. As long as no view is shorter than the cursor,
every choice either comes nearer to the end of the view or leaves fewer in line before whoever is
passed over, and the line is gone through in turn. A choice from a shorter view may begin anywhere.
-/

namespace ResourcePool

/-- Who stands in line stood there before, or was enrolled meanwhile. -/
structure Pool.Joins (p q : Pool) : Prop where
  grows : p.nextWaiter ≤ q.nextWaiter
  joined : ∀ v ∈ q.registry.entries, v ∈ p.registry.entries ∨ p.nextWaiter ≤ v

theorem Pool.Joins.refl (p : Pool) : p.Joins p :=
  ⟨le_rfl, fun _ => .inl⟩

theorem Pool.Joins.trans {p q r : Pool} (first : p.Joins q) (second : q.Joins r) : p.Joins r :=
  ⟨first.grows.trans second.grows, fun v member =>
    (second.joined v member).elim (first.joined v) fun new => .inr (first.grows.trans new)⟩

theorem Pool.Joins.of_subset {p q : Pool} (next : q.nextWaiter = p.nextWaiter)
    (line : q.registry.entries ⊆ p.registry.entries) : p.Joins q :=
  ⟨next.ge, fun _ member => .inl (line member)⟩

theorem Pool.SameLine.joins {p q : Pool} (same : p.SameLine q) : p.Joins q :=
  .of_subset (congrArg List.length same.waiters) (same.registry ▸ List.Subset.refl _)

theorem Move.joins {gone : Prop} {b c : Books} (move : Move gone b c) : b.pool.Joins c.pool := by
  cases move with
  | enroll opened =>
      refine ⟨by simp [Pool.enroll, Pool.nextWaiter], fun v member => ?_⟩
      obtain old | new := List.mem_append.1 member
      · exact .inl old
      · exact .inr (List.mem_singleton.1 new).ge
  | turnAway => exact ⟨by simp [Pool.turnAway, Pool.nextWaiter], fun _ => .inl⟩
  | withdraw _ _ pending =>
      obtain ⟨x, _, _, rfl⟩ := Pool.cancel?_eq_some pending
      exact .of_subset (Pool.modifyWaiter_nextWaiter ..) List.erase_subset
  | hangUp => exact .of_subset (by simp) (by simp)
  | see _ found =>
      obtain same := (Pool.sameStock_of_received found).2
      refine .of_subset ?_ (same ▸ List.Subset.refl _)
      obtain found | ⟨found, _⟩ := found <;>
        exact (congrArg (·.2.nextWaiter) found).symm.trans (Pool.receive_nextWaiter ..)
  | send | sendError => exact .of_subset (by simp) (by simp)
  | abandon => exact .of_subset (Pool.modifyWaiter_nextWaiter ..) (List.Subset.refl _)
  | choose picked =>
      obtain ⟨x, _, _, rfl⟩ := Pool.pick_eq_some picked
      exact .of_subset (Pool.modifyWaiter_nextWaiter ..) List.erase_subset
  | miss picked =>
      obtain rfl | ⟨id, _, rfl⟩ := Pool.pick_eq_none picked
      · exact .of_subset rfl (List.Subset.refl _)
      · exact .of_subset rfl List.erase_subset
  | reserve _ reserved => exact (Pool.reserve?_sameLine reserved).joins
  | unreserve => exact (b.pool.unreserve_sameLine _).joins
  | create => exact (b.pool.occupy_sameLine _).joins
  | lend _ lent => exact (Pool.lend?_sameLine lent).joins
  | takeBack _ taken => exact (Pool.takeBack?_sameLine taken).joins
  | pop popped => exact (Pool.popReturned?_sameLine popped).joins
  | dismissAll => exact .of_subset (Pool.foldl_dismiss_nextWaiter ..) (by simp)
  | _ => exact .of_subset rfl (List.Subset.refl _)

/-- A view of the line, which may be older than the line is; at most `N` were in it. -/
structure Pool.View (p : Pool) (N : Nat) (view : List Nat) : Prop where
  filled : view ≠ []
  ascending : view.Pairwise (· < ·)
  bounded : view.length ≤ N
  known : ∀ u ∈ view, u < p.nextWaiter
  later : ∀ v ∈ p.registry.entries, v ∈ view ∨ ∀ u ∈ view, u < v

theorem Pool.View.mono {p q : Pool} {N : Nat} {view : List Nat} (before : p.View N view)
    (joins : p.Joins q) : q.View N view where
  filled := before.filled
  ascending := before.ascending
  bounded := before.bounded
  known u member := (before.known u member).trans_le joins.grows
  later v member := (joins.joined v member).elim (before.later v) fun new =>
    .inr fun u inside => (before.known u inside).trans_le new

/-- How much `w` has to put up with: every choice that passes it over takes one away, unless it is
made from a view that is shorter than the cursor. -/
def patience (N w : Nat) (view : List Nat) (cursor : Nat) : Nat :=
  if w ∈ view then view.countP (· < w) * (N + 1) + (N - cursor) else N * (N + 1)

variable {N w cursor : Nat} {view line : List Nat}

theorem patience_lt (inside : w ∈ line) (small : line.length ≤ N) :
    patience N w line cursor < N * (N + 1) := by
  have before : line.countP (· < w) < line.length :=
    List.countP_lt_length_iff.2 ⟨w, inside, by simp⟩
  rw [patience, if_pos inside]
  calc line.countP (· < w) * (N + 1) + (N - cursor)
      < line.countP (· < w) * (N + 1) + (N + 1) := by omega
    _ = (line.countP (· < w) + 1) * (N + 1) := (Nat.succ_mul ..).symm
    _ ≤ N * (N + 1) := Nat.mul_le_mul_right _ (by omega)

theorem countP_le_of_subset (nodup : line.Nodup) (earlier : ∀ v ∈ line, v < w → v ∈ view) :
    line.countP (· < w) ≤ view.countP (· < w) := by
  rw [List.countP_eq_length_filter, List.countP_eq_length_filter]
  refine ((nodup.filter _).subperm fun v member => ?_).length_le
  obtain ⟨member, below⟩ := List.mem_filter.1 member
  exact List.mem_filter.2 ⟨earlier v member (of_decide_eq_true below), below⟩

namespace Pool.View

variable {p : Pool}

theorem mem_of_lt (known : p.View N view) (seen : w ∈ view) :
    ∀ v ∈ p.registry.entries, v < w → v ∈ view := fun v member below =>
  (known.later v member).resolve_right fun after => absurd (after w seen) (Nat.not_lt.2 below.le)

theorem patience_le_max (known : p.View N view) : patience N w view cursor ≤ N * (N + 1) := by
  by_cases seen : w ∈ view
  · exact (patience_lt seen known.bounded).le
  · exact (if_neg seen).le

/-- The line is not worse than a view of it. -/
theorem patience_le (known : p.View N view) (nodup : p.registry.entries.Nodup)
    (inside : w ∈ p.registry.entries) (small : p.registry.entries.length ≤ N) :
    patience N w p.registry.entries cursor ≤ patience N w view cursor := by
  by_cases seen : w ∈ view
  · simp only [patience, if_pos inside, if_pos seen]
    have fewer := countP_le_of_subset nodup (known.mem_of_lt seen)
    have := Nat.mul_le_mul_right (N + 1) fewer
    omega
  · rw [patience.eq_1 N w view, if_neg seen]
    exact (patience_lt inside small).le

/-- Every choice of somebody else takes one away, unless the cursor is beyond the view. -/
theorem patience_lt_of_choice (known : p.View N view) (nodup : p.registry.entries.Nodup)
    (inside : w ∈ p.registry.entries) (small : p.registry.entries.length ≤ N)
    (within : cursor ≤ N) {v : Nat} (place : view[cursor % view.length]? = some v)
    (left : v ∉ p.registry.entries) :
    patience N w p.registry.entries (cursor % view.length + 1) + 1 ≤
      patience N w view cursor + if view.length < cursor then N else 0 := by
  have member : v ∈ view := List.mem_of_getElem? place
  have short : cursor % view.length < view.length :=
    Nat.mod_lt _ (List.length_pos_iff.2 known.filled)
  have bounded := known.bounded
  by_cases seen : w ∈ view
  · have other : v ≠ w := fun same => left (same ▸ inside)
    have fewer : p.registry.entries.countP (· < w) ≤ (view.erase v).countP (· < w) := by
      refine countP_le_of_subset nodup fun u there below => ?_
      exact (List.mem_erase_of_ne (ne_of_mem_of_not_mem there left)).2
        (known.mem_of_lt seen u there below)
    rw [List.countP_erase] at fewer
    simp only [patience, if_pos inside, if_pos seen]
    obtain below | above := Nat.lt_or_gt_of_ne other
    · -- One less is in line before `w`.
      have some : 0 < view.countP (· < w) :=
        List.countP_pos_iff.2 ⟨v, member, decide_eq_true below⟩
      simp only [member, below, decide_true, and_self, if_true] at fewer
      have := Nat.mul_le_mul_right (N + 1) (Nat.add_le_of_le_sub some fewer)
      rw [Nat.succ_mul] at this
      split <;> omega
    · -- The choice comes nearer to the end of the view, or the view was too short for it.
      have := Nat.mul_le_mul_right (N + 1) (fewer.trans (Nat.sub_le ..))
      obtain inside | last | beyond := Nat.lt_trichotomy cursor view.length
      · rw [Nat.mod_eq_of_lt inside] at short ⊢
        split <;> omega
      · -- From the end the choice goes on at the front, where nobody comes after `w`.
        rw [last, Nat.mod_self] at place
        obtain ⟨u, rest, rfl⟩ := List.exists_cons_of_ne_nil known.filled
        obtain rfl : u = v := by simpa using place
        have front := (List.pairwise_cons.1 known.ascending).1
        obtain rfl | behind := List.mem_cons.1 seen
        · exact absurd rfl other
        · exact absurd (front w behind) (Nat.not_lt.2 above.le)
      · rw [if_pos beyond]
        omega
  · rw [patience.eq_1 N w view, if_neg seen]
    have : patience N w p.registry.entries (cursor % view.length + 1) < N * (N + 1) :=
      patience_lt inside small
    omega

end Pool.View

namespace Machine

variable {σ : Type} {e : Environment σ} {m : Machine σ}

/-- Somebody else is chosen while `w` stays in line. -/
def passes (e : Environment σ) (w : Nat) (m : Machine σ) : Bool :=
  (m.choice? e).any fun view => (m.pool.pick view).1.any (· != w)

/-- Somebody is chosen from a view that is shorter than the cursor. -/
def overruns (e : Environment σ) (m : Machine σ) : Bool :=
  (m.choice? e).any fun view => view.length < m.pool.cursor

/-- The line as the next choice will see it: the view of the matching at work, or the line itself if
none was taken. -/
def Sees (m : Machine σ) (view : List Nat) : Prop :=
  (∃ a ∈ m.activities, a.view? = some view) ∨
    view = m.pool.registry.entries ∧ ∀ a ∈ m.activities, a.view? = none

theorem Sees.exists (m : Machine σ) : ∃ view, m.Sees view := by
  by_cases viewed : ∃ a ∈ m.activities, ∃ view, a.view? = some view
  · obtain ⟨a, member, view, seen⟩ := viewed
    exact ⟨view, .inl ⟨a, member, seen⟩⟩
  · refine ⟨_, .inr ⟨rfl, fun a member => ?_⟩⟩
    by_contra other
    obtain ⟨view, seen⟩ := Option.ne_none_iff_exists'.1 other
    exact viewed ⟨a, member, view, seen⟩

theorem Sees.of_push {a : Activity} {view : List Nat} (sees : (m.push [a]).Sees view)
    (bare : a.view? = none) : m.Sees view := by
  refine sees.imp (fun ⟨b, member, keeps⟩ => ?_) fun ⟨line, others⟩ =>
    ⟨line, fun b member => others b (List.mem_cons_of_mem a member)⟩
  obtain rfl | member := List.mem_cons.1 member
  · exact absurd (bare.symm.trans keeps) (by simp)
  · exact ⟨b, member, keeps⟩

/-- Nobody but the matching at work keeps a view. -/
theorem view?_below {a : Activity} {rest : List Activity} (matching : Matching m.pool m.assets)
    (top : m.stack = a :: rest) (atWork : ∃ n stage, .matcher n stage ∈ a.assets) :
    ∀ b ∈ rest ++ m.paused, b.view? = none := by
  intro b member
  by_contra other
  obtain ⟨view, keeps⟩ := Option.ne_none_iff_exists'.1 other
  have calm := isCalm_below matching top atWork b member
  rw [Activity.not_calm_of_view? keeps] at calm
  cases calm

theorem matches_of_view {a : Activity} {view : List Nat} (seen : a.view? = some view ∨
    (∃ n inHand, a = .round n inHand) ∧ view = m.pool.registry.entries ∧ view ≠ []) :
    ∃ n stage, .matcher n stage ∈ a.assets := by
  obtain keeps | ⟨⟨n, inHand, rfl⟩, _⟩ := seen
  · exact Activity.matches_of_not_isCalm (Activity.not_calm_of_view? keeps)
  · exact ⟨n, .seeking, by cases inHand <;> simp⟩

/-- Whoever looks at the line sees it as the next choice will. -/
theorem sees_of_view {a : Activity} {rest : List Activity} {view : List Nat}
    (matching : Matching m.pool m.assets) (top : m.stack = a :: rest)
    (seen : a.view? = some view ∨
      (∃ n inHand, a = .round n inHand) ∧ view = m.pool.registry.entries ∧ view ≠ []) :
    m.Sees view := by
  obtain keeps | ⟨⟨n, inHand, rfl⟩, rfl, _⟩ := id seen
  · exact .inl ⟨a, by simp [activities, top], keeps⟩
  · refine .inr ⟨rfl, fun b member => ?_⟩
    rw [activities, top] at member
    obtain rfl | below := List.mem_cons.1 member
    · rfl
    · exact view?_below matching top (matches_of_view seen) b below

end Machine

namespace Run

open Machine

variable {σ : Type} {e : Environment σ} {past : List (Machine σ)} {m n : Machine σ}

theorem joins_step (run : Run e past m) : m.pool.Joins (m.step e).pool :=
  run.keepsNext (I := fun b => m.pool.Joins b.pool) (fun move before => before.trans move.joins)
    (.refl m.pool)

theorem nodup_line (run : Run e past m) : m.pool.registry.entries.Nodup :=
  run.sound.standings.ascending.imp Nat.ne_of_lt

theorem view_of_line (run : Run e past m) (line : m.pool.registry.entries ≠ [])
    (small : m.pool.registry.entries.length ≤ N) : m.pool.View N m.pool.registry.entries where
  filled := line
  ascending := run.sound.standings.ascending
  bounded := small
  known u member := by
    obtain ⟨x, found, _⟩ := (run.sound.standings.inLine u).1 member
    exact (List.getElem?_eq_some_iff.1 found).1
  later v member := .inl member

/-- Views are views of the line. -/
theorem views (run : Run e past m) (small : ∀ n ∈ past, n.pool.registry.entries.length ≤ N) :
    ∀ a ∈ m.activities, ∀ view, a.view? = some view → m.pool.View N view := by
  refine fun a member => run.byActivities (P := fun past a p =>
    (∀ n ∈ past, n.pool.registry.entries.length ≤ N) → ∀ view, a.view? = some view →
      p.View N view) (fun bare _ view keeps => ?_) (fun before small => ?_)
    (fun run before small view keeps => ?_)
    (fun run top sequel new _ before small view keeps => ?_) a member small
  · rw [Activity.view?_of_isBare bare] at keeps
    cases keeps
  · exact before (List.forall_mem_cons.1 small).2
  · exact (before (List.forall_mem_cons.1 small).2 view keeps).mono run.joins_step
  · obtain ⟨here, small⟩ := List.forall_mem_cons.1 small
    obtain ⟨_, keeps | ⟨_, rfl, line⟩⟩ := sequel.view? new keeps
    · exact (before small view keeps).mono run.joins_step
    · exact (run.view_of_line line here).mono run.joins_step

theorem view_of_choice (run : Run e past m)
    (small : ∀ n ∈ m :: past, n.pool.registry.entries.length ≤ N)
    (choice : m.choice? e = some view) : m.Sees view ∧ m.pool.View N view := by
  cases top : m.stack with
  | nil => simp [choice?, top] at choice
  | cons a rest =>
      simp only [choice?, top] at choice
      have seen := Machine.view_of_choice choice
      obtain ⟨here, small⟩ := List.forall_mem_cons.1 small
      refine ⟨sees_of_view run.matching top seen, ?_⟩
      obtain keeps | ⟨_, rfl, line⟩ := seen
      · exact run.views small a (by simp [activities, top]) view keeps
      · exact run.view_of_line line here

theorem cursor_le (run : Run e past m) : (∀ n ∈ past, n.pool.registry.entries.length ≤ N) →
    m.pool.cursor ≤ N := by
  refine run.byTurns (I := fun past m => (∀ n ∈ past, n.pool.registry.entries.length ≤ N) →
    m.pool.cursor ≤ N) (fun fresh _ _ _ => ?_) (fun _ _ _ before => before)
    (fun _ before small => before (List.forall_mem_cons.1 small).2)
    fun {past m a rest} run top turn before small => ?_
  · simp [fresh, Pool.ofConfig]
  · have advances := m.step_advances (e := e)
    cases choice : m.choice? e with
    | none =>
        rw [choice] at advances
        exact advances.trans_le (before (List.forall_mem_cons.1 small).2)
    | some view =>
        rw [choice] at advances
        obtain ⟨p, _, after⟩ := advances
        obtain ⟨_, known⟩ := run.view_of_choice small choice
        have place : p.cursor % view.length < view.length :=
          Nat.mod_lt _ (List.length_pos_iff.2 known.filled)
        have := known.bounded
        rw [after.cursor, Pool.pick_cursor]
        omega

/-- What the next choice sees is what it saw before, or the line after somebody was chosen or the
matching was over. -/
theorem sees_step (run : Run e past m) {a : Activity} {rest : List Activity}
    (top : m.stack = a :: rest) (turn : Turn e m a rest (m.step e)) (sees : (m.step e).Sees view) :
    m.Sees view ∧ m.choice? e = none ∨ view = (m.step e).pool.registry.entries := by
  refine sees.imp (fun ⟨b, member, keeps⟩ => ?_) And.left
  simp only [choice?, top]
  obtain ⟨as, new, sequel⟩ | ⟨rfl, k, v, r, rfl⟩ | old := turn.mem member
  · obtain ⟨none, seen⟩ := sequel.view? new keeps
    exact ⟨sees_of_view run.matching top seen, none⟩
  · simp at keeps
  · refine ⟨.inl ⟨b, mem_of_below top old, keeps⟩, ?_⟩
    by_contra other
    obtain ⟨seen, choice⟩ := Option.ne_none_iff_exists'.1 other
    have atWork := matches_of_view (Machine.view_of_choice choice)
    rw [view?_below run.matching top atWork b old] at keeps
    cases keeps

theorem view_of_sees (run : Run e past m)
    (small : ∀ n ∈ m :: past, n.pool.registry.entries.length ≤ N)
    (inside : w ∈ m.pool.registry.entries) (sees : m.Sees view) : m.pool.View N view := by
  obtain ⟨here, small⟩ := List.forall_mem_cons.1 small
  obtain ⟨a, member, keeps⟩ | ⟨rfl, _⟩ := sees
  · exact run.views small a member view keeps
  · exact run.view_of_line (List.ne_nil_of_mem inside) here

/-- A step takes from the patience of whoever stays in line if it passes it over, and gives
something back only by an overrun. -/
theorem patience_step (run : Run e past m)
    (small : ∀ n ∈ m.step e :: m :: past, n.pool.registry.entries.length ≤ N)
    (inside : w ∈ m.pool.registry.entries) (stays : w ∈ (m.step e).pool.registry.entries)
    (sees : (m.step e).Sees view) : ∃ seen, m.Sees seen ∧
      patience N w view (m.step e).pool.cursor + (if m.passes e w then 1 else 0) ≤
        patience N w seen m.pool.cursor + (if m.overruns e then N else 0) := by
  obtain ⟨bounded, before⟩ := List.forall_mem_cons.1 small
  have nodup := run.step.nodup_line
  have advances := m.step_advances (e := e)
  have next : m.Sees view ∧ m.choice? e = none ∨
      view = (m.step e).pool.registry.entries := by
    cases top : m.stack with
    | nil =>
        rw [Machine.step, top] at sees
        exact .inl ⟨sees, by rw [choice?, top]⟩
    | cons a rest => exact run.sees_step top (step_turn top) sees
  cases choice : m.choice? e with
  | none =>
      rw [choice] at advances
      have same : (m.step e).pool.cursor = m.pool.cursor := advances
      simp only [passes, overruns, choice, same]
      obtain ⟨same, _⟩ | rfl := next
      · exact ⟨view, same, le_rfl⟩
      · obtain ⟨seen, sees⟩ := Sees.exists m
        have known := (run.view_of_sees before inside sees).mono run.joins_step
        exact ⟨seen, sees, known.patience_le nodup stays bounded⟩
  | some seen =>
      rw [choice] at advances
      obtain ⟨p, same, after⟩ := advances
      obtain rfl := next.resolve_left fun unchosen => by simp [choice] at unchosen
      obtain ⟨sees, known⟩ := run.view_of_choice before choice
      obtain ⟨v, place⟩ := m.pool.exists_place known.filled
      have line : (m.step e).pool.registry.entries = m.pool.registry.entries.erase v := by
        rw [after.registry, Pool.pick_entries (same.cursor ▸ place), same.registry]
      have left : v ∉ (m.step e).pool.registry.entries :=
        line ▸ run.nodup_line.not_mem_erase
      have within := run.cursor_le (List.forall_mem_cons.1 before).2
      refine ⟨seen, sees, ?_⟩
      have less := (known.mono run.joins_step).patience_lt_of_choice nodup stays bounded within
        place left
      rw [after.cursor, Pool.pick_cursor, same.cursor]
      simp only [overruns, choice, Option.any_some, decide_eq_true_eq]
      split <;> omega

/-- Between two steps nothing changes that a choice depends on. -/
theorem last (run : Run e (n :: past) m) :
    m.pool = (n.step e).pool ∧ ∀ view, m.Sees view → (n.step e).Sees view := by
  generalize whole : n :: past = all at run
  induction run with
  | start => cases whole
  | ask op run idle ih =>
      exact ⟨(ih whole).1, fun view sees => (ih whole).2 view (sees.of_push rfl)⟩
  | threads run idle onThreads ih =>
      exact ⟨(ih whole).1, fun view sees => (ih whole).2 view (sees.of_push rfl)⟩
  | step run =>
      obtain ⟨rfl, rfl⟩ := List.cons.inj whole
      exact ⟨rfl, fun _ sees => sees⟩

theorem passes_add_patience_le {recent earlier : List (Machine σ)}
    (run : Run e (recent ++ earlier) m)
    (small : ∀ n ∈ m :: (recent ++ earlier), n.pool.registry.entries.length ≤ N)
    (waits : ∀ n ∈ m :: recent, w ∈ n.pool.registry.entries) (sees : m.Sees view) :
    recent.countP (passes e w) + patience N w view m.pool.cursor ≤
      N * (N + 1) + N * recent.countP (overruns e) := by
  induction recent generalizing m view with
  | nil =>
      have known := run.view_of_sees small (waits m (List.mem_cons_self ..)) sees
      simpa using known.patience_le_max
  | cons n recent ih =>
      obtain ⟨pool, seen⟩ := run.last
      obtain ⟨here, small⟩ := List.forall_mem_cons.1 small
      obtain ⟨stays, waits⟩ := List.forall_mem_cons.1 waits
      have earlier := run.before
      obtain ⟨seen, sees, less⟩ := earlier.patience_step
        (List.forall_mem_cons.2 ⟨pool ▸ here, small⟩) (waits n (List.mem_cons_self ..))
        (pool ▸ stays) (seen view sees)
      have before := ih earlier small waits sees
      rw [pool, List.countP_cons, List.countP_cons, Nat.mul_add N (recent.countP _), mul_ite,
        mul_one, mul_zero]
      omega

/-- Who stays in a line of at most `N` is passed over at most `N * (N + 1)` times, and at most `N`
times more for every choice that is made from a view shorter than the cursor. -/
theorem passes_le {recent earlier : List (Machine σ)} (run : Run e past m)
    (parts : past = recent ++ earlier) (small : ∀ n ∈ m :: past, n.pool.registry.size ≤ N)
    (waits : ∀ n ∈ m :: recent, w ∈ n.pool.registry.entries) :
    recent.countP (passes e w) ≤ N * (N + 1) + N * recent.countP (overruns e) := by
  subst parts
  obtain ⟨view, sees⟩ := Sees.exists m
  exact (Nat.le_add_right ..).trans (run.passes_add_patience_le small waits sees)

/-- The first of two who wait is passed over once. -/
theorem passes_le_once : ∃ (past recent earlier : List (Machine Bench.Rig)) (m : Machine Bench.Rig),
    Run Bench.environment past m ∧ past = recent ++ earlier ∧
      (∀ n ∈ m :: past, n.pool.registry.size ≤ 2) ∧
      (∀ n ∈ m :: recent, 1 ∈ n.pool.registry.entries) ∧
      recent.countP (passes Bench.environment 1) = 1 ∧
      recent.countP (passes Bench.environment 1) ≤
        2 * (2 + 1) + 2 * recent.countP (overruns Bench.environment) := by
  have first := ((bench (c := { maxSize := 1 }) rfl).ask (.acquire 0) rfl).steps 40
  have second := (first.ask (.acquire 1) rfl).steps 40
  have third := (second.ask (.acquire 2) rfl).steps 40
  have chosen := (third.ask (.dropTask 0) rfl).steps 40
  exact ⟨_, _, _, _, chosen, rfl, by decide, by decide, by decide,
    chosen.passes_le rfl (by decide) (by decide)⟩

end Run
end ResourcePool
