import ResourcePool.Proofs.Calls

/-!
The moves of operations. What an operation takes from a handle it leaves to the activities that
remain of it.
-/

namespace ResourcePool.Machine

attribute [-simp] Multiset.singleton_add

variable {gone : Prop} {σ : Type} (e : Environment σ) (m : Machine σ) (L : Multiset Asset) (h : History)

theorem request_moves (purpose : Purpose) :
    Moves gone (m.books (purpose.assets + L) h) ((m.request purpose).books L
      ((if m.pool.closed then [.fate m.pool.nextWaiter .turnedAway] else []) ++ h)) := by
  unfold request
  cases closed : m.pool.closed
  · exact .head (.enroll closed) (.rearrange (by simp [books]; abel))
  · exact .head (.turnAway closed) (.rearrange (by simp [books]; abel))

theorem look_eq_none {m m' : Machine σ} {waiter : Nat} (found : m.look waiter = (none, m')) :
    m' = m := by
  unfold look at found
  split at found <;> simp_all

theorem look_eq_some {m m' : Machine σ} {waiter : Nat} {o : Outcome}
    (found : m.look waiter = (some o, m')) :
    ∃ p, m' = m.withPool p ∧ (m.pool.receive waiter = (.value o, p) ∨
      m.pool.receive waiter = (.closed, p) ∧ o = .error .cancelled) := by
  unfold look at found
  split at found
  · simp at found
  · next received =>
      simp only [Prod.mk.injEq, Option.some.injEq] at found
      obtain ⟨rfl, rfl⟩ := found
      exact ⟨_, rfl, .inl received⟩
  · next received =>
      simp only [Prod.mk.injEq, Option.some.injEq] at found
      obtain ⟨rfl, rfl⟩ := found
      exact ⟨_, rfl, .inr ⟨received, rfl⟩⟩

theorem firstPoll_moves (k : Nat) (a : Acquire) :
    Moves gone (m.books ({.listener a} + L) h)
      ((m.firstPoll k a).books L (m.sight a.waiter ++ h)) := by
  unfold firstPoll sight
  cases found : m.look a.waiter with
  | mk seen m' =>
      cases seen with
      | none =>
          obtain rfl := look_eq_none found
          exact .rearrange (by simp; abel)
      | some o =>
          obtain ⟨p, rfl, received⟩ := look_eq_some found
          refine .head (.see (assets_books ..) received) ?_
          cases o with
          | error => exact .rearrange rfl
          | ok i => exact .rearrange (by simp; abel)

theorem requested_moves (a : Acquire) (purpose : Purpose)
    (absent : ∀ k, purpose = .background k → m.background.assets = 0) :
    Moves gone (m.books ({.listener a} + (purpose.assets + L)) h)
      ((m.requested a purpose).books L (m.deedsOf e (.acquired a purpose) ++ h)) := by
  cases purpose with
  | handle k => exact .rearrange (by simp [requested]; abel)
  | get k =>
      refine .trans ?_ (firstPoll_moves m L h k a)
      exact .rearrange (by simp)
  | background k =>
      have stored : (Background.done k a).assets = {.permit} + {.listener a} := rfl
      refine .rearrange ?_
      simp only [assets, requested, absent k rfl, Purpose.assets, stored]
      abel

theorem resolve_moves {k : Nat} {x : Handle} {a : Acquire} (stored : m.handles.get? k = some x)
    (request : x.assets = {.listener a}) {o : Outcome} {m' : Machine σ}
    (found : m.look a.waiter = (some o, m')) :
    Moves gone (m.books L h) ((m'.resolve k o).books L (.seen a.waiter o :: h)) := by
  obtain ⟨p, rfl, received⟩ := look_eq_some found
  refine .head (.see (a := a) (A := L + (m.take k).assets)
    (by simp only [books, assets_take stored, request]; abel) received) ?_
  cases o with
  | error => exact .rearrange (by simp [resolve])
  | ok i => exact .rearrange (by simp [resolve]; abel)

theorem expire_moves {k : Nat} {x : Handle} {a : Acquire} (stored : m.handles.get? k = some x)
    (request : x.assets = {.listener a}) (limit : Duration) :
    Moves gone (m.books L h) ((m.expire k a limit).books L h) := by
  refine .rearrange ?_
  simp only [expire, assets_push, assets_take stored, request, held_cons, held_nil,
    Activity.assets, add_zero]

theorem poll_moves (k : Nat) :
    Moves gone (m.books L h) ((m.poll k).books L (m.deedsOfOp (.poll k) ++ h)) := by
  unfold poll deedsOfOp
  cases stored : m.handles.get? k with
  | none =>
      simp only [stored]
      exact .rearrange rfl
  | some x =>
      cases x with
      | acquire a =>
          simp only [stored, sight]
          cases found : m.look a.waiter with
          | mk seen m' =>
              cases seen with
              | none =>
                  obtain rfl := look_eq_none found
                  exact .rearrange rfl
              | some o => exact resolve_moves m L h stored rfl found
      | get g =>
          cases g with
          | unstarted =>
              simp only [stored]
              exact .rearrange (by simp [assets_take stored])
          | waiting a limit =>
              simp only [stored, sight]
              cases found : m.look a.waiter with
              | mk seen m' =>
                  cases seen with
                  | none =>
                      obtain rfl := look_eq_none found
                      cases limit with
                      | none => exact .rearrange rfl
                      | some d =>
                          by_cases late : d.time ≤ m'.clock
                          · simp only [late, if_true]
                            exact expire_moves m' L h stored rfl d.limit
                          · simp only [late, if_false]
                            exact .rearrange rfl
                  | some o => exact resolve_moves m L h stored rfl found
      | guard | detached =>
          simp only [stored]
          exact .rearrange rfl

theorem books_withdraw_push (as : List Activity) (a : Acquire) :
    ((m.push as).withdraw a).books L h = (m.withdraw a).books (held as + L) h := by
  have unchanged : (m.push as).pool = m.pool := rfl
  unfold withdraw
  cases attached : a.attached
  · exact books_push m as L h
  · cases pending : m.pool.cancel? a.waiter with
    | none =>
        simp only [if_true, unchanged, pending]
        exact books_push m as L h
    | some p =>
        simp only [if_true, unchanged, pending]
        exact Books.ext rfl rfl rfl (by simp [books]; abel) rfl

theorem cancel_moves {k : Nat} {a : Acquire} (stored : m.handles.get? k = some (.acquire a)) :
    Moves gone (m.books L h) ((m.cancel k a).books L (m.withdrawal a ++ h)) := by
  refine .trans (.rearrange ?_) (.trans (withdraw_moves (m.take k) L h a) ?_)
  · simp [assets_take stored]; abel
  · unfold cancel
    rw [books_withdraw_push]
    exact .rearrange (by simp)

theorem drop_moves {k : Nat} {x : Handle} (stored : m.handles.get? k = some x) (r : Reply) :
    Moves gone (m.books L h) (((m.take k).push (dropHandle x ++ [.say r])).books L h) := by
  refine .rearrange ?_
  simp only [assets_push, held_append, held_dropHandle, assets_take stored, held_cons, held_nil,
    Activity.assets]
  abel

theorem detach_moves {k : Nat} {i : Item} (stored : m.handles.get? k = some (.guard i)) :
    Moves gone (m.books L h) ((m.detach k i).books L (.detached i.resource.id :: h)) := by
  refine .head .callTrigger ?_
  refine .head (.detach (i := i) (A := {.trigger} + (L + (m.take k).assets))
    (by simp only [books, assets_take stored, Handle.assets]; abel) (.inl (by simp))) ?_
  exact .rearrange (by simp [detach]; abel)

theorem execute_moves (k : Nat) (statement : String) :
    Moves gone (m.books L h) ((m.execute k statement).books L
      (m.deedsOfOp (.execute k statement) ++ h)) := by
  unfold execute onResource deedsOfOp
  cases stored : m.handles.get? k with
  | none =>
      simp only [stored]
      exact .rearrange rfl
  | some x =>
      cases x with
      | acquire | get =>
          simp only [stored, Handle.resource?]
          exact .rearrange rfl
      | guard i =>
          simp only [stored, Handle.resource?]
          cases done : i.resource.execute statement with
          | error f => exact .rearrange rfl
          | ok answer =>
              refine .head (.execute (i := i) (A := L + (m.take k).assets)
                (by simp only [books, assets_take stored, Handle.assets]; abel) done) ?_
              exact .rearrange (by simp [Handle.setResource]; abel)
      | detached r =>
          -- What the holder does to a resource that left the pool is no deed of the pool.
          simp only [stored, Handle.resource?]
          cases done : r.execute statement with
          | error f => exact .rearrange rfl
          | ok answer => exact .rearrange (by simp [Handle.setResource, assets_take stored])

theorem assets_tasks_cons {t : Task} {rest : List Task} (queue : m.tasks = t :: rest) :
    m.assets = t.assets + ({ m with tasks := rest } : Machine σ).assets := by
  simp only [assets, queue, List.map_cons, List.sum_cons]
  abel

theorem runNext_moves (left : Option Nat) (labels : List Nat) :
    Moves gone (m.books L h) ((m.runNext left labels).books L h) := by
  unfold runNext
  split
  · exact .rearrange rfl
  · exact .rearrange rfl
  · next t rest _ queue =>
      exact .rearrange (by simp [assets_tasks_cons m queue])

theorem turn_moves : Moves gone (m.books L h) (m.turn.books L h) := by
  unfold turn
  split
  · exact .rearrange rfl
  · next t rest queue => exact .rearrange (by simp [assets_tasks_cons m queue])

theorem onTask_moves (place : Nat) {f : Machine σ → Task → Machine σ}
    (moves : ∀ (m' : Machine σ) (t : Task), Moves gone (m'.books (t.assets + L) h) ((f m' t).books L h)) :
    Moves gone (m.books L h) ((m.onTask place f).books L h) := by
  unfold onTask
  split
  · next t _ found =>
      refine .trans (.rearrange ?_)
        (moves ({ m with tasks := m.tasks.eraseIdx place } : Machine σ) t)
      rw [assets_tasks_eraseIdx found]
      abel
  · exact .rearrange rfl

theorem close_op_moves : Moves gone (m.books L h) (m.close.books L h) := by
  unfold close
  cases opened : m.pool.closed
  · exact .head (.close opened) (.rearrange (by simp [books]; abel))
  · exact .rearrange rfl

/-- The permit goes with the request on another thread and comes back with what it asked for. -/
theorem launch_moves (k : Nat) : Moves gone (m.books L h) ((m.launch k).books L h) := by
  unfold launch
  cases back : m.background <;> simp only
  · exact .rearrange (by rw [assets_push]; simp [assets, back]; abel)
  all_goals exact .rearrange rfl

theorem launched_moves : Moves gone (m.books L h) (m.launched.books L h) := by
  unfold launched
  cases m.background <;> exact .rearrange rfl

theorem join_moves : Moves gone (m.books L h) ((m.join e).books L h) := by
  unfold join
  cases back : m.background <;> simp only
  case held => exact .rearrange (by rw [assets_push]; simp [assets, back]; abel)
  case done => exact .rearrange (by simp)
  all_goals exact .rearrange rfl

theorem joined_moves : Moves gone (m.books L h) (m.joined.books L h) := by
  unfold joined
  cases back : m.background <;> simp only
  case done => exact .rearrange (by rw [assets_push]; simp [assets, back]; abel)
  all_goals exact .rearrange rfl

theorem pollEach_moves (seen : List (Nat × Poll)) (rest : List Nat) :
    Moves gone (m.books L h) ((m.pollEach seen rest).books L h) := by
  cases rest
  · exact .rearrange rfl
  · exact .rearrange (by simp [pollEach])

theorem awaited_moves (k : Nat) : Moves gone (m.books L h) ((m.awaited k).books L h) := by
  unfold awaited
  split
  · exact .rearrange (by simp)
  · exact .rearrange rfl

theorem report_moves (failures : List CloseFailure) :
    Moves gone (m.books L h) ((m.report failures).books L h) := by
  unfold report
  split <;> exact .rearrange rfl

theorem drive_moves : Moves gone (m.books L h) (m.drive.books L h) :=
  .rearrange (by simp [drive])

theorem run_moves (limit : Option Nat) : Moves gone (m.books L h) ((m.run limit).books L h) := by
  unfold run
  split
  · exact runNext_moves m L h limit []
  · split
    · exact .rearrange rfl
    · exact drive_moves m L h
  · exact .rearrange rfl

theorem advance_moves (ms : Nat) : Moves gone (m.books L h) ((m.advance ms).books L h) := by
  unfold advance
  split
  · split
    · exact .rearrange rfl
    · exact drive_moves { m with clock := m.clock + ms } L h
  · exact .rearrange rfl

theorem onPool_moves {f : Machine σ → Machine σ} (moves : Moves gone (m.books L h) ((f m).books L h)) :
    Moves gone (m.books L h) ((m.onPool f).books L h) := by
  unfold onPool
  split
  · exact moves
  · exact .rearrange rfl

theorem onFree_moves {k : Nat} {f : Machine σ → Machine σ}
    (moves : m.handles.get? k = none → Moves gone (m.books L h) ((f m).books L h)) :
    Moves gone (m.books L h) ((m.onFree k f).books L h) := by
  refine onPool_moves m L h ?_
  cases stored : m.handles.get? k
  · simpa [Table.contains, stored] using moves stored
  · simp only [Table.contains, stored, Option.isSome_some, if_true]
    exact .rearrange rfl

theorem onResource_moves {k : Nat} {f : Handle → Resource → Machine σ}
    (moves : ∀ x r, Moves gone (m.books L h) ((f x r).books L h)) :
    Moves gone (m.books L h) ((m.onResource k f).books L h) := by
  unfold onResource
  split
  · exact .rearrange rfl
  · split
    · exact moves _ _
    · exact .rearrange rfl

/-- An operation is a sequence of moves that records what it does at once. -/
theorem perform_moves (op : Op) :
    Moves gone (m.books L h) ((m.perform e op).books L (m.deedsOfOp op ++ h)) := by
  cases op with
  | acquire k => exact onFree_moves m L h fun _ => .rearrange (by simp)
  | get k =>
      refine onFree_moves m L h fun free => .rearrange ?_
      simp [assets_take_of_free free]
  | poll k => exact poll_moves m L h k
  | await k => exact .rearrange (by simp [perform])
  | pollAll => exact pollEach_moves m L h [] _
  | cancel k =>
      simp only [perform, deedsOfOp]
      cases stored : m.handles.get? k with
      | none => exact .rearrange rfl
      | some x =>
          cases x with
          | acquire a => exact cancel_moves m L h stored
          | _ => exact .rearrange rfl
  | drop k =>
      simp only [perform]
      cases stored : m.handles.get? k with
      | none => exact .rearrange rfl
      | some x => exact drop_moves m L h stored .nothing
  | checkin k =>
      refine onPool_moves m L h ?_
      cases stored : m.handles.get? k with
      | none => exact .rearrange rfl
      | some x =>
          cases x with
          | guard i => exact drop_moves m L h stored .nothing
          | _ => exact .rearrange rfl
  | detach k =>
      simp only [perform, deedsOfOp]
      cases stored : m.handles.get? k with
      | none => exact .rearrange rfl
      | some x =>
          cases x with
          | guard i => exact detach_moves m L h stored
          | _ => exact .rearrange rfl
  | execute k statement => exact execute_moves m L h k statement
  | executed k => exact onResource_moves m L h fun _ _ => .rearrange rfl
  | info k =>
      simp only [perform]
      split <;> exact .rearrange rfl
  | describe k =>
      simp only [perform, describe]
      split <;> exact .rearrange rfl
  | invalidateHeld k =>
      simp only [perform]
      split <;> exact .rearrange rfl
  | tell n => exact .rearrange rfl
  | run limit => exact run_moves m L h limit
  | runAt place =>
      refine onTask_moves m L h place fun m' t => .rearrange ?_
      simp; abel
  | dropTask place =>
      refine onTask_moves m L h place fun m' t => .rearrange ?_
      simp; abel
  | advance ms => exact advance_moves m L h ms
  | dispatchCounts =>
      simp only [perform]
      split <;> exact .rearrange rfl
  | factoryCounts => exact .rearrange rfl
  | close => exact onPool_moves m L h (close_op_moves m L h)
  | isClosed | status | slots | config | describePool | factoryCreated | clone =>
      exact onPool_moves m L h (.rearrange rfl)
  | dropClone =>
      simp only [perform]
      split
      · exact .rearrange rfl
      · exact .rearrange (by simp [letGo]; rfl)
  | dropPool =>
      simp only [perform]
      split
      · exact .rearrange (by simp [letGo]; rfl)
      · exact .rearrange rfl
  | background k => exact onFree_moves m L h fun _ => launch_moves m L h k
  | join => exact join_moves e m L h

end ResourcePool.Machine
