import ResourcePool.Proofs.Lending

/-!
The moves of calls to the surroundings and of their answers. The operations that are carried out
during a call hold nothing when they begin.
-/

namespace ResourcePool.Machine

attribute [-simp] Multiset.singleton_add

variable {gone : Prop} {σ : Type} (e : Environment σ) (m : Machine σ) (L : Multiset Asset) (h : History)

@[simp] theorem held_nested (before : Reply) (ops : List Op) : held (nested before ops) = 0 := by
  induction ops with
  | nil => rfl
  | cons op ops ih => simpa [nested] using ih

@[simp] theorem assets_announce (c : Call) :
    (m.announce e c).assets = c.during + m.assets := by
  simp only [announce, assets_push, held_append, held_nested, held_cons, held_nil, assets_note,
    assets_env, Activity.assets]
  abel

theorem close_moves (i : Item) (why : Closing) :
    Moves gone (m.books (why.before i + L) h)
      ((m.announce e (.close i why)).books L (.closing i.resource.id :: h)) := by
  cases why with
  | invalid check =>
      refine .head (.spend (i := i) (A := check.assets + (L + m.assets))
        (by simp only [books, Closing.before]; abel)) (.rearrange ?_)
      simp only [assets_announce, Call.during, Closing.after]
      abel
  | flush who failures =>
      exact .head (.oust (i := i) (A := {.flusher} + (L + m.assets))
        (by simp only [books, Closing.before]; abel)) (.rearrange (by simp; abel))
  | inHand | teardown | misfit => exact .head (.oust (assets_books ..)) (.rearrange (by simp))

theorem schedule_moves (t : Task) :
    Moves gone (m.books ((Call.schedule t).before + L) h)
      ((m.call e (.schedule t)).books L (.fate t.waiter (.entrusted t.item) :: h)) := by
  refine .head (.foretell (w := t.waiter) (c := []) (f := .entrusted t.item)
    (A := {.guard t.item} + (L + m.assets)) (by simp only [books, Call.before]; abel)
    (by trivial)) ?_
  unfold call
  cases watched : m.scheduler.watched
  · simp only [watched, Bool.false_eq_true, if_false]
    exact .rearrange (by simp; abel)
  · simp only [watched, if_true]
    exact .rearrange (by simp; abel)

theorem call_moves (c : Call) :
    Moves gone (m.books (c.before + L) h) ((m.call e c).books L (m.deedsOf e (.call c) ++ h)) := by
  cases c with
  | create n w r => exact .rearrange (by simp [call]; abel)
  | validate i check => exact .rearrange (by simp [call]; abel)
  | close i why => exact close_moves e m L h i why
  | schedule t => exact schedule_moves e m L h t

/-- The other thread keeps what it had to do when it stops at a call. -/
theorem assets_hold (c : Call) (back : m.background.holdsBack = true) :
    (m.hold e c).assets = c.during + m.assets := by
  have running : m.background.assets = 0 := by
    cases background : m.background <;> simp_all [Background.holdsBack]
  have waiting : Background.held.assets = 0 := rfl
  -- What stands above the mark of the thread is set aside; the rest of the stack goes on.
  unfold hold
  generalize above_eq : (m.stack.takeWhile fun a => !a.isThread) = above
  have whole : above ++ m.stack.drop above.length = m.stack :=
    List.prefix_iff_eq_append.1 (above_eq ▸ List.takeWhile_prefix _)
  have parts : held m.stack = held above + (held ((m.stack.drop above.length).take 1) +
      held ((m.stack.drop above.length).drop 1)) := by
    rw [← held_append, List.take_append_drop, ← held_append, whole]
  simp only [assets, parts, held_append, held_cons, Activity.assets, running, waiting]
  abel

theorem created_moves (answered waiter : Nat) (r : Reservation) :
    Moves gone (m.books ({.matcher answered (.filling r)} + ({.sender waiter []} + L)) h)
      ((m.created e answered waiter r).books L
        ((match (e.create r.slot m.env).1 with
          | none => [.created m.made r.slot]
          | some cause => [.fate waiter (.creationFailed r.slot cause)]) ++ h)) := by
  unfold created
  cases made : e.create r.slot m.env with
  | mk failure env =>
      cases failure with
      | none =>
          refine .head (.create (assets_books ..)) ?_
          dsimp only
          refine .trans ?_ (lend_moves _ L _ waiter _)
          exact .rearrange (by simp [books]; abel)
      | some cause =>
          refine .head (.unreserve (assets_books ..)) ?_
          refine .head (.foretell (w := waiter) (c := []) (f := .creationFailed r.slot cause)
            (A := {.matcher answered .seeking} + (L + m.assets)) (by simp only; abel)
            (by trivial)) ?_
          refine .head (.sendError (w := waiter) (A := {.matcher answered .seeking} +
            (L + m.assets)) rfl rfl) (.rearrange ?_)
          simp; abel

theorem validated_moves (i : Item) (check : Check) :
    Moves gone (m.books ({.idle i} + (check.assets + L)) h)
      ((m.validated e i check).books L h) := by
  unfold validated
  cases answer : e.validate i.resource m.env with
  | mk valid env =>
      cases valid with
      | false =>
          cases check <;> refine .trans ?_ (discard_moves _ L h i _) <;>
            exact .rearrange (by simp)
      | true =>
          cases check with
          | checkout n view =>
              refine .trans ?_ (handOut_moves _ L h n view i)
              exact .rearrange (by simp)
          | checkin =>
              refine .trans ?_ (queue_moves _ L h i)
              exact .rearrange (by simp)

/-- After a closing the slot of an invalid resource is free; its vacancy does not go unnoticed. -/
theorem proceed_moves (slot : Nat) (check : Check) :
    Moves gone (m.books ({.spent slot} + (check.assets + L)) h)
      (((m.withPool (m.pool.vacate slot)).proceed check).books L h) := by
  unfold proceed
  cases check with
  | checkout n view =>
      refine .head (.vacate (s := slot) (A := {.matcher n .seeking} + (L + m.assets))
        (by simp [books]; abel) (.inr ⟨n, by simp⟩)) (.rearrange ?_)
      simp; abel
  | checkin =>
      refine .head .callTrigger ?_
      refine .head (.vacate (s := slot) (A := {.trigger} + (L + m.assets))
        (by simp [books]; abel) (.inl (by simp))) (.rearrange ?_)
      simp; abel

theorem books_noteClosed (slot : Nat) (f : Option Failure) :
    (m.noteClosed slot f).books L h = m.books L h := by
  cases f <;> rfl

theorem books_noteFailure (slot : Nat) (f : Option Failure) :
    (m.noteFailure slot f).books L h = m.books L h := by
  cases f <;> rfl

theorem closed_moves (i : Item) (why : Closing) :
    Moves gone (m.books (why.after i + L) h) ((m.closed e i why).books L h) := by
  unfold closed
  cases why with
  | invalid check =>
      refine .trans ?_ (proceed_moves _ L h i.slot check)
      rw [books_noteFailure]
      exact .rearrange (by simp only [Closing.after, assets_note, assets_env]; abel)
  | inHand | teardown =>
      dsimp only
      rw [books_noteClosed]
      exact .rearrange (by simp)
  | flush who failures =>
      dsimp only
      rw [books_push, books_noteClosed]
      exact .rearrange (by simp)
  | misfit =>
      dsimp only
      rw [books_noteFailure]
      exact .rearrange (by simp)

theorem scheduled_moves (t : Task) :
    Moves gone (m.books (t.assets + L) h) ((m.scheduled t).books L h) := by
  unfold scheduled
  split
  · exact .rearrange (by simp; abel)
  · exact .rearrange (by simp [assets]; abel)

theorem answered_moves (c : Call) :
    Moves gone (m.books (c.during + L) h)
      ((m.answered e c).books L (m.deedsOf e (.answer c) ++ h)) := by
  cases c with
  | create n w r =>
      unfold answered
      simp only [deedsOf, deedsOfCreation]
      by_cases back : m.background.holdsBack = true
      · simp only [if_pos back]
        exact .rearrange (by rw [assets_hold e m _ back]; abel)
      · simp only [if_neg back]
        refine .trans ?_ (created_moves e m L h n w r)
        exact .rearrange (by simp; abel)
  | validate i check =>
      refine .trans ?_ (validated_moves e m L h i check)
      exact .rearrange (by simp; abel)
  | close i why => exact closed_moves e m L h i why
  | schedule t => exact scheduled_moves m L h t

end ResourcePool.Machine
