import Mathlib.Algebra.BigOperators.Group.List.Basic
import ResourcePool.Proofs.Books

/-!
The assets of a machine: what its activities, the callers' handles, the queued deliveries and the
other thread hold.
-/

namespace ResourcePool

attribute [-simp] Multiset.singleton_add

@[simp] def Purpose.assets : Purpose → Multiset Asset
  | .background _ => {.permit}
  | _ => 0

/-- What a check keeps for the work after it. -/
@[simp] def Check.assets : Check → Multiset Asset
  | .checkout answered _ => {.matcher answered .seeking}
  | .checkin => 0

/-- Before the resource is passed on for closing. -/
@[simp] def Closing.before (i : Item) : Closing → Multiset Asset
  | .invalid check => {.idle i} + check.assets
  | .flush .. => {.ousted i} + {.flusher}
  | _ => {.ousted i}

/-- After the resource was passed on for closing. -/
@[simp] def Closing.after (i : Item) : Closing → Multiset Asset
  | .invalid check => {.spent i.slot} + check.assets
  | .flush .. => {.flusher}
  | _ => 0

@[simp] def Task.assets (t : Task) : Multiset Asset :=
  {.guard t.item} + {.sender t.waiter [.entrusted t.item]}

/-- Before the call begins. -/
@[simp] def Call.before : Call → Multiset Asset
  | .create answered waiter r => {.matcher answered (.filling r)} + {.sender waiter []}
  | .validate i check => {.idle i} + check.assets
  | .close i why => why.before i
  | .schedule t => {.guard t.item} + {.sender t.waiter []}

/-- While the call is in progress. -/
@[simp] def Call.during : Call → Multiset Asset
  | .close i why => why.after i
  | .schedule t => t.assets
  | c => c.before

@[simp] def Handle.assets : Handle → Multiset Asset
  | .acquire a | .get (.waiting a _) => {.listener a}
  | .guard i => {.guard i}
  | _ => 0

@[simp] def Activity.assets : Activity → Multiset Asset
  | .acquire purpose => purpose.assets
  | .acquired a purpose => {.listener a} + purpose.assets
  | .put _ x => x.assets
  | .quit a => {.listener a}
  | .hangUp waiter => {.listener ⟨waiter, false⟩}
  | .abandon t => {.sender t.waiter [.entrusted t.item]}
  | .giveBack i => {.guard i}
  | .trigger => {.trigger}
  | .again answered => {.matcher answered .over}
  | .round answered none | .search answered _ => {.matcher answered .seeking}
  | .round answered (some i) => {.idle i} + {.matcher answered .seeking}
  | .call c => c.before
  | .answer c => c.during
  | .task t => t.assets
  | .deliver t => {.guard t.item} + {.sender t.waiter [.delivered t.item, .entrusted t.item]}
  | .refuse t => {.sender t.waiter [.refused t.item, .entrusted t.item]}
  | .flush .. => {.flusher}
  | .teardown => {.wrecker}
  | _ => 0

@[simp] def Background.assets : Background → Multiset Asset
  | .absent => {.permit}
  | .done _ a => {.permit} + {.listener a}
  | _ => 0

def held (as : List Activity) : Multiset Asset :=
  (as.map Activity.assets).sum

def Table.assets (handles : Table Handle) : Multiset Asset :=
  (handles.entries.map fun e => e.2.assets).sum

@[simp] theorem held_nil : held [] = 0 := rfl

@[simp] theorem held_cons (a : Activity) (as : List Activity) :
    held (a :: as) = a.assets + held as := by
  simp [held]

@[simp] theorem held_append (as bs : List Activity) : held (as ++ bs) = held as + held bs := by
  simp [held]

namespace Table

theorem entries_erase_of_get?_eq_none {α : Type} {t : Table α} {key : Nat}
    (free : t.get? key = none) : (t.erase key).entries = t.entries := by
  refine List.filter_eq_self.2 fun e he => ?_
  have absent : (key == e.1) = false := by simpa using List.lookup_eq_none_iff.1 free e he
  rw [bne, Bool.beq_comm, absent, Bool.not_false]

theorem entries_perm_of_get? {α : Type} {t : Table α} {key : Nat} {a : α}
    (found : t.get? key = some a) : t.entries.Perm ((key, a) :: (t.erase key).entries) := by
  obtain ⟨entries, ascending⟩ := t
  unfold get? at found
  simp only [erase]
  induction entries with
  | nil => simp at found
  | cons e es ih =>
      obtain ⟨k, b⟩ := e
      obtain ⟨below, rest⟩ := List.pairwise_cons.1 ascending
      by_cases same : key = k
      · subst same
        obtain rfl : b = a := by simpa using found
        have others : es.filter (fun e => e.1 != key) = es := by
          refine List.filter_eq_self.2 fun e he => ?_
          have := below e he
          simp only [bne_iff_ne, ne_eq]
          omega
        simp [others]
      · have other : (key == k) = false := by simpa using same
        have keep : (k != key) = true := by rw [bne, Bool.beq_comm, other, Bool.not_false]
        have further : es.lookup key = some a := by
          simpa [List.lookup_cons, other] using found
        rw [List.filter_cons, if_pos keep]
        exact ((ih rest further).cons _).trans (.swap ..)

theorem entries_insert_perm {α : Type} (t : Table α) (key : Nat) (a : α) :
    (t.insert key a).entries.Perm ((key, a) :: (t.erase key).entries) := by
  have parts : ∀ es : List (Nat × α),
      (es.filter (fun e => decide (e.1 < key)) ++ es.filter (fun e => decide (key < e.1))).Perm
        (es.filter fun e => e.1 != key) := by
    intro es
    induction es with
    | nil => simp
    | cons e es ih =>
        obtain lt | eq | gt := Nat.lt_trichotomy e.1 key
        · simpa [lt, Nat.not_lt_of_gt lt, Nat.ne_of_lt lt] using ih
        · simpa [eq] using ih
        · simp only [List.filter_cons, Nat.not_lt_of_gt gt, gt, bne_iff_ne, ne_eq,
            Nat.ne_of_gt gt, not_false_eq_true, decide_true, decide_false, if_true]
          exact List.perm_middle.trans (ih.cons e)
  exact List.perm_middle.trans ((parts t.entries).cons _)

theorem assets_erase_of_get?_eq_none {t : Table Handle} {key : Nat}
    (free : t.get? key = none) : (t.erase key).assets = t.assets := by
  rw [assets, assets, entries_erase_of_get?_eq_none free]

theorem assets_of_get? {t : Table Handle} {key : Nat} {x : Handle}
    (found : t.get? key = some x) : t.assets = x.assets + (t.erase key).assets := by
  have perm := (entries_perm_of_get? found).map fun e => e.2.assets
  simpa [assets] using perm.sum_eq

@[simp] theorem assets_insert (t : Table Handle) (key : Nat) (x : Handle) :
    (t.insert key x).assets = x.assets + (t.erase key).assets := by
  have perm := (entries_insert_perm t key x).map fun e => e.2.assets
  simpa [assets] using perm.sum_eq

end Table

namespace Machine

variable {σ : Type}

def assets (m : Machine σ) : Multiset Asset :=
  held m.stack + held m.paused + m.handles.assets + (m.tasks.map Task.assets).sum +
    m.background.assets

/-- The books of a machine in the middle of a step, with assets that it did not put anywhere yet. -/
def books (m : Machine σ) (loose : Multiset Asset) (h : History) : Books :=
  ⟨m.pool, m.made, m.torn, loose + m.assets, h⟩

variable (m : Machine σ)

theorem assets_books (X L : Multiset Asset) (h : History) :
    (m.books (X + L) h).assets = X + (L + m.assets) :=
  add_assoc X L m.assets

@[simp] theorem assets_push (as : List Activity) : (m.push as).assets = held as + m.assets := by
  simp only [assets, push, held_append]
  abel

theorem books_push (as : List Activity) (L : Multiset Asset) (h : History) :
    (m.push as).books L h = m.books (held as + L) h := by
  simp only [books, assets_push, add_left_comm, add_assoc]
  rfl

@[simp] theorem assets_note (e : Event) : (m.note e).assets = m.assets := rfl

@[simp] theorem assets_log (e : LogEntry) : (m.log e).assets = m.assets := rfl

@[simp] theorem assets_answer (r : Reply) : (m.answer r).assets = m.assets := rfl

@[simp] theorem assets_withPool (p : Pool) : (m.withPool p).assets = m.assets := rfl

@[simp] theorem assets_take_withPool (p : Pool) (k : Nat) :
    ((m.withPool p).take k).assets = (m.take k).assets := rfl

@[simp] theorem assets_torn (t : Bool) : ({ m with torn := t } : Machine σ).assets = m.assets :=
  rfl

@[simp] theorem assets_counts (c : DispatchCounts) :
    ({ m with counts := c } : Machine σ).assets = m.assets := rfl

@[simp] theorem assets_env (env : σ) : ({ m with env } : Machine σ).assets = m.assets := rfl

@[simp] theorem assets_made (env : σ) (made : Nat) :
    ({ m with env, made } : Machine σ).assets = m.assets := rfl

@[simp] theorem assets_setHandle (h : Nat) (x : Handle) :
    (m.setHandle h x).assets = x.assets + (m.take h).assets := by
  simp only [assets, setHandle, take, Table.assets_insert]
  abel

theorem assets_take {m : Machine σ} {h : Nat} {x : Handle} (found : m.handles.get? h = some x) :
    m.assets = x.assets + (m.take h).assets := by
  simp only [assets, take, Table.assets_of_get? found]
  abel

theorem assets_take_of_free {m : Machine σ} {h : Nat} (free : m.handles.get? h = none) :
    (m.take h).assets = m.assets := by
  simp only [assets, take, Table.assets_erase_of_get?_eq_none free]

theorem held_dropHandle (x : Handle) : held (dropHandle x) = x.assets := by
  obtain a | (_ | ⟨a, d⟩) | i | r := x <;>
    simp [dropHandle]

theorem assets_tasks_eraseIdx {m : Machine σ} {place : Nat} {t : Task}
    (found : m.tasks[place]? = some t) :
    m.assets = t.assets + ({ m with tasks := m.tasks.eraseIdx place } : Machine σ).assets := by
  obtain ⟨bound, rfl⟩ := List.getElem?_eq_some_iff.1 found
  have perm := (List.getElem_cons_eraseIdx_perm bound).map Task.assets
  have total := perm.sum_eq
  simp only [List.map_cons, List.sum_cons] at total
  simp only [assets, ← total]
  abel

end Machine
end ResourcePool
