import ResourcePool.Proofs.Assets
import ResourcePool.Proofs.Effects

/-!
The moves of lending and of taking resources back: each function of the machine turns the assets it
is handed into those it leaves behind.
-/

namespace ResourcePool.Machine

attribute [-simp] Multiset.singleton_add

variable {gone : Prop} {σ : Type} (m : Machine σ) (L : Multiset Asset) (h : History)

theorem lend_moves (waiter : Nat) (i : Item) :
    Moves gone (m.books ({.idle i} + ({.sender waiter []} + L)) h) ((m.lend waiter i).books L h) := by
  unfold lend
  cases lent : m.pool.lend? i.slot with
  | none =>
      refine .head (.lendMisfit (assets_books ..) lent) ?_
      exact .rearrange (by simp; abel)
  | some p =>
      refine .head (.lend (assets_books ..) lent) ?_
      exact .rearrange (by simp; abel)

theorem handOut_moves (answered : Nat) (view : List Nat) (i : Item) :
    Moves gone (m.books ({.idle i} + ({.matcher answered .seeking} + L)) h)
      ((m.handOut answered view i).books L h) := by
  unfold handOut
  split
  · next waiter p chosen =>
      refine .head (.choose chosen) ?_
      refine .trans (.rearrange ?_)
        (lend_moves ((m.withPool p).push [.round answered none]) L h waiter i)
      simp [books]; abel
  · next p missed =>
      refine .head (.miss missed) (.rearrange ?_)
      simp [books]; abel

theorem fill_moves (answered : Nat) (view : List Nat) (r : Reservation) :
    Moves gone (m.books ({.matcher answered (.filling r)} + L) h)
      ((m.fill answered view r).books L h) := by
  unfold fill
  split
  · next waiter p chosen =>
      refine .head (.choose chosen) (.rearrange ?_)
      simp [books]; abel
  · next p missed =>
      refine .head (.miss missed) ?_
      refine .head (.unreserve (assets_books m _ L h)) (.rearrange ?_)
      simp; abel

theorem exhausted_of_nothing {p : Pool} (unreturned : p.popReturned? = none)
    (unreserved : p.reserve? = none) : p.Exhausted := by
  unfold Pool.popReturned? at unreturned
  unfold Pool.reserve? at unreserved
  split at unreturned
  · simp at unreturned
  · next empty =>
      split at unreserved
      · simp at unreserved
      · next none =>
          split at unreserved
          · simp at unreserved
          · next full => exact ⟨empty, none, Nat.le_of_not_lt full⟩

theorem seek_moves (answered : Nat) (view : List Nat) :
    Moves gone (m.books ({.matcher answered .seeking} + L) h)
      ((m.seek answered view).books L h) := by
  unfold seek
  split
  · next i p popped =>
      refine .head (.pop popped) ?_
      split
      · exact .rearrange (by simp [books]; abel)
      · refine .trans (.rearrange ?_) (handOut_moves (m.withPool p) L h answered view i)
        simp [books]; abel
  · next unreturned =>
      split
      · next r p reserved =>
          refine .head (.reserve (assets_books ..) reserved) ?_
          refine .trans (.rearrange ?_) (fill_moves (m.withPool p) L h answered view r)
          simp; abel
      · next unreserved =>
          have exhausted := exhausted_of_nothing unreturned unreserved
          refine .head (.rest (assets_books ..) (.inr (.inr exhausted))) ?_
          exact .rearrange (by simp; abel)

/-- Closing an idle resource leaves the closing itself, with the duty that goes on after it. -/
theorem shut_moves (i : Item) (why : Closing) {D : Multiset Asset}
    (before : why.before i = {.ousted i} + D) (mayClose : MayClose (D + L + m.assets)) :
    Moves gone (m.books ({.idle i} + (D + L)) h) ((m.shut i why).books L h) := by
  unfold shut
  refine .head (.shut (assets_books ..) mayClose) (.rearrange ?_)
  simp only [assets_push, held_cons, held_nil, Activity.assets, Call.before, before,
    assets_withPool]
  abel

theorem discard_moves (i : Item) (check : Check) :
    Moves gone (m.books ({.idle i} + (check.assets + L)) h) ((m.discard i check).books L h) :=
  .rearrange (by simp [discard]; abel)

/-- A matching that finds the pool closed leaves the queue to be emptied. -/
theorem closedRound_moves (answered : Nat) (closed : m.pool.closed = true) :
    Moves gone (m.books ({.matcher answered .seeking} + L) h)
      ((m.push [.flush .matcher [], .again answered]).books L h) := by
  refine .head (.takeDuty closed) ?_
  refine .head (.rest (n := answered) (A := {.flusher} + (L + m.assets)) (by simp [books]; abel)
    (.inl ⟨closed, by simp⟩)) (.rearrange ?_)
  simp; abel

theorem round_moves (answered : Nat) (inHand : Option Item) :
    Moves gone (m.books ((Activity.round answered inHand).assets + L) h)
      ((m.round answered inHand).books L h) := by
  unfold round
  split
  · next closed =>
      cases inHand with
      | none => exact closedRound_moves m L h answered closed
      | some i =>
          have mayClose : MayClose
              (0 + L + (m.push [.flush .matcher [], .again answered]).assets) :=
            .inl (by simp)
          -- Somebody is bound to empty the queue, so the resource in hand may be closed too.
          refine .trans (.rearrange ?_) (.trans
            (closedRound_moves m ({.idle i} + (0 + L)) h answered closed)
            (shut_moves _ L h i .inHand (by simp) mayClose))
          simp; abel
  · next opened =>
      have opened := Bool.eq_false_iff.2 opened
      cases line : m.pool.registry.entries with
      | nil =>
          cases inHand with
          | none =>
              refine .head (.rest (assets_books ..) (.inr (.inl ⟨opened, line⟩))) (.rearrange ?_)
              simp; abel
          | some i =>
              -- With nobody in line the resource may be queued without a call for matching.
              refine .head (.rest (n := answered) (A := {.idle i} + (L + m.assets))
                (by simp [books]; abel) (.inr (.inl ⟨opened, line⟩))) ?_
              refine .head (.queue (i := i) (A := {.matcher answered .over} + (L + m.assets))
                (by simp; abel) (.inr ⟨opened, line⟩)) (.rearrange ?_)
              simp; abel
      | cons w ws =>
          cases inHand with
          | none => exact seek_moves m L h answered (w :: ws)
          | some i =>
              refine .trans (.rearrange ?_) (handOut_moves m L h answered (w :: ws) i)
              simp; abel

theorem trigger_moves :
    Moves gone (m.books ({.trigger} + L) h) (m.trigger.books L h) := by
  unfold trigger
  refine .head (.trigger (assets_books ..)) ?_
  by_cases none : m.pool.triggers = 0
  · simp only [if_pos none]
    exact .rearrange (by simp [books, none]; abel)
  · simp only [if_neg none]
    exact .rearrange (by simp [books, none])

theorem again_moves (answered : Nat) :
    Moves gone (m.books ({.matcher answered .over} + L) h) ((m.again answered).books L h) := by
  unfold again
  refine .head (.again (assets_books ..)) ?_
  by_cases none : m.pool.triggers - answered = 0
  · simp only [if_pos none]
    exact .rearrange (by simp [books, none])
  · simp only [if_neg none]
    exact .rearrange (by simp [books, none]; abel)

theorem queue_moves (i : Item) :
    Moves gone (m.books ({.idle i} + L) h)
      (((m.withPool (m.pool.pushReturned i)).push [.trigger]).books L h) := by
  refine .head .callTrigger ?_
  refine .head (.queue (i := i) (A := {.trigger} + (L + m.assets))
    (by simp only [books]; abel) (.inl (.inl (by simp)))) (.rearrange ?_)
  simp; abel

theorem giveBack_moves (i : Item) :
    Moves gone (m.books ({.guard i} + L) h) ((m.giveBack i).books L h) := by
  unfold giveBack
  split
  · next misfit =>
      refine .head (.takeBackMisfit (assets_books ..) misfit) (.rearrange ?_)
      simp; abel
  · next p taken =>
      refine .head (.takeBack (assets_books ..) taken) ?_
      dsimp only
      split
      · exact .rearrange (by simp; abel)
      · exact .trans (.rearrange (by simp; abel))
          (queue_moves ((m.withPool p).log (.checkedIn i.slot)) L h i)

theorem flush_moves (e : Environment σ) (who : Flusher) (failures : List CloseFailure) :
    Moves gone (m.books ({.flusher} + L) h)
      ((m.flush who failures).books L (m.deedsOf e (.flush who failures) ++ h)) := by
  unfold flush Pool.popReturned?
  simp only [deedsOf]
  cases queue : m.pool.returned with
  | nil =>
      refine .head (.dismissAll (by simp [books])) ?_
      refine .head (.leaveDuty (assets_books m _ L h)
        (m.pool.dismissAll_sameStock.returned.trans queue)) ?_
      cases who with
      | closer => exact .head .callTrigger (.rearrange (by simp; abel))
      | matcher => exact .rearrange rfl
  | cons i rest =>
      have popped : m.pool.popReturned? = some (i, { m.pool with returned := rest }) := by
        simp [Pool.popReturned?, queue]
      refine .head (.pop popped) ?_
      refine .trans (.rearrange ?_) (shut_moves (m.withPool { m.pool with returned := rest })
        L h i (.flush who failures) rfl (.inl (by simp)))
      simp [books]; abel

theorem teardown_moves :
    Moves gone (m.books ({.wrecker} + L) h) (m.teardown.books L h) := by
  unfold teardown
  split
  · next i p popped =>
      refine .head (.pop popped) ?_
      have mayClose : MayClose (0 + L + ((m.withPool p).push [.teardown]).assets) :=
        .inr (by simp)
      refine .trans (.rearrange ?_) (shut_moves _ L h i .teardown (by simp) mayClose)
      simp [books]; abel
  · exact .head (.finishTearDown (assets_books ..))
      (.rearrange rfl)

theorem release_moves (last : m.isReferenced = false → gone) :
    Moves gone (m.books L h) (m.release.books L h) := by
  unfold release
  split
  · exact .rearrange rfl
  · next unreferenced =>
      simp only [Bool.or_eq_true, not_or, Bool.not_eq_true] at unreferenced
      exact .head (.tearDown (last unreferenced.1)) (.rearrange (by simp [books]; abel))

theorem withdraw_moves (a : Acquire) :
    Moves gone (m.books ({.listener a} + L) h)
      ((m.withdraw a).books ({.listener { a with attached := false }} + L)
        (m.withdrawal a ++ h)) := by
  unfold withdraw withdrawal
  by_cases attached : a.attached = true
  · cases pending : m.pool.cancel? a.waiter with
    | none =>
        refine .head (.forgo (assets_books ..) fun _ => pending) ?_
        simp only [attached, Option.isSome_none, Bool.and_false, if_true]
        exact .rearrange (by abel)
    | some p =>
        refine .head (.withdraw (assets_books ..) attached pending) ?_
        simp only [attached, Option.isSome_some, Bool.and_true, if_true]
        exact .rearrange (by simp; abel)
  · refine .head (.forgo (assets_books ..) fun is => absurd is attached) ?_
    simp only [attached, Bool.false_and, if_false, Bool.false_eq_true]
    exact .rearrange (by abel)

theorem hangUp_moves (waiter : Nat) :
    Moves gone (m.books ({.listener ⟨waiter, false⟩} + L) h) ((m.hangUp waiter).books L h) := by
  unfold hangUp
  refine .head (.hangUp (assets_books ..)) ?_
  cases left : m.pool.hangUp waiter with
  | mk fallen p =>
      simp only [books, left]
      cases fallen with
      | none => exact .rearrange rfl
      | some o =>
          cases o with
          | error => exact .rearrange rfl
          | ok i => exact .rearrange (by simp; abel)

theorem eq_of_complete_returned {p p' : Pool} {waiter : Nat} {o o' : Outcome}
    (returned : p.complete waiter o = (some o', p')) : o' = o := by
  unfold Pool.complete Waiter.complete at returned
  split at returned
  · split at returned <;> simp_all
  · simp at returned

theorem complete_moves (t : Task) (i : Item) (f : Fate) (fs : List Fate)
    (answer : f.answer = some (.ok i)) :
    Moves gone (m.books ({.guard i} + ({.sender t.waiter (f :: fs)} + L)) h)
      ((m.complete t (.ok i)).books L h) := by
  unfold complete
  refine .head (.send (i := i) (A := L + m.assets) (by simp only [books]; abel) answer) ?_
  cases sent : m.pool.complete t.waiter (.ok i) with
  | mk back p =>
      simp only [books, sent]
      cases back with
      | none => exact .rearrange rfl
      | some o =>
          cases o with
          | error => exact .rearrange (by simp)
          | ok j => exact .rearrange (by simp; abel)

theorem completeError_moves (t : Task) (e : PoolError) (f : Fate) (fs : List Fate)
    (answer : f.answer = some (.error e)) :
    Moves gone (m.books ({.sender t.waiter (f :: fs)} + L) h)
      ((m.complete t (.error e)).books L h) := by
  unfold complete
  refine .head (.sendError (assets_books ..) answer) ?_
  cases sent : m.pool.complete t.waiter (.error e) with
  | mk back p =>
      simp only [books, sent]
      cases back with
      | none => exact .rearrange rfl
      | some o =>
          -- An error that nobody hears comes back as it is, never as a loan.
          obtain rfl := eq_of_complete_returned sent
          exact .rearrange (by simp)

theorem runTask_moves (t : Task) :
    Moves gone (m.books (t.assets + L) h) ((m.runTask t).books L
      (.fate t.waiter (if m.pool.closed then .refused t.item else .delivered t.item) :: h)) := by
  unfold runTask
  cases closed : m.pool.closed
  · refine .head (.foretell (w := t.waiter) (f := .delivered t.item)
      (c := [.entrusted t.item])
      (A := {.guard t.item} + (L + m.assets)) (by simp only [books, Task.assets]; abel) rfl) ?_
    simp only [closed]
    exact .rearrange (by simp; abel)
  · refine .head (.foretell (w := t.waiter) (f := .refused t.item)
      (c := [.entrusted t.item])
      (A := {.guard t.item} + (L + m.assets)) (by simp only [books, Task.assets]; abel) rfl) ?_
    simp only [closed]
    exact .rearrange (by simp; abel)

theorem put_moves (key : Nat) (x : Handle) :
    Moves gone (m.books (x.assets + L) h) ((m.put key x).books L h) := by
  refine .rearrange ?_
  have replaced : (m.put key x).assets = held ((m.handles.get? key).toList.flatMap dropHandle) +
      (x.assets + (m.take key).assets) := by
    simp only [put, assets_push]
    congr 1
    exact assets_setHandle m key x
  cases old : m.handles.get? key with
  | none =>
      simp [replaced, old, assets_take_of_free old]
      abel
  | some y =>
      simp [replaced, old, assets_take old, held_dropHandle]
      abel

end ResourcePool.Machine
