import ResourcePool.Waiter.Parts

/-!
The parts of a waiter stay in step. There is one sending end, and it is in one place: in the cell
while the waiter is pending, then with the completion, until it is spent. So a waiter and its parts
give the same answers to all moves.
-/

namespace ResourcePool.Waiter

variable {α : Type}

/-- What a channel amounts to for whoever listens. -/
def Channel.line (c : Channel α) : Line α :=
  match c.spent, c.value with
  | false, _ => .silent
  | true, some a => .sent a
  | true, none => .over

namespace Parts

/-- Where the one sending end is, and what the other parts are meanwhile. -/
inductive Sound : Parts α → Prop
  | inCell (id : Nat) (deaf : Bool) : Sound { id, channel := { deaf } }
  | held (id : Nat) (deaf : Bool) :
      Sound { id, flag := .fulfilled, cell := false, completion := true, channel := { deaf } }
  | spent (id : Nat) {flag : WaiterState} (settled : flag ≠ .pending)
      (value : Option (Except PoolError α)) (deaf : Bool) :
      Sound { id, flag, cell := false, channel := { value, spent := true, deaf } }

/-- The waiter that has these parts. -/
def whole (p : Parts α) : Waiter (Except PoolError α) where
  id := p.id
  state := p.flag
  line := p.channel.line
  listening := !p.channel.deaf

variable {p : Parts α}

theorem Sound.act (sound : p.Sound) (a : Action α) : (p.act a).2.Sound := by
  cases sound with
  | inCell id deaf =>
      cases a with
      | claim => exact .held id deaf
      | cancel => exact .spent id (by simp) none deaf
      | dropReceiver => cases deaf <;> exact .inCell id true
      | receive => cases deaf <;> exact .inCell id _
      | complete _ | dropCompletion | id => exact .inCell id deaf
  | held id deaf =>
      cases a with
      | complete o =>
          cases deaf with
          | false => exact .spent id (by simp) (some o) false
          | true => exact .spent id (by simp) none true
      | dropCompletion => exact .spent id (by simp) none deaf
      | dropReceiver => cases deaf <;> exact .held id true
      | receive => cases deaf <;> exact .held id _
      | claim | cancel | id => exact .held id deaf
  | spent id settled value deaf =>
      cases a with
      | dropReceiver =>
          cases deaf with
          | false => exact .spent id settled none true
          | true => exact .spent id settled value true
      | receive =>
          cases deaf with
          | false => cases value <;> exact .spent id settled none false
          | true => exact .spent id settled value true
      | claim | cancel =>
          simp only [Parts.act, Parts.claim, Parts.cancel, if_neg settled]
          exact .spent id settled value deaf
      | complete _ | dropCompletion | id => exact .spent id settled value deaf

/-- The parts answer a move as the waiter does, and go on as its parts. -/
theorem Sound.act_whole (sound : p.Sound) (a : Action α) :
    ((p.act a).1, (p.act a).2.whole) = p.whole.act a := by
  cases sound with
  | inCell id deaf | held id deaf => cases a <;> cases deaf <;> rfl
  | @spent id flag settled value deaf =>
      have nothing : (whole { id, flag, cell := false, channel := { value, spent := true, deaf } } :
          Waiter (Except PoolError α)).isOutstanding = false := by
        cases flag <;> cases value <;> rfl
      cases a with
      | claim => simp [Parts.act, Parts.claim, Waiter.act, claim?, whole, settled]
      | cancel => simp [Parts.act, Parts.cancel, Waiter.act, cancel?, whole, settled]
      | complete _ | dropCompletion => simp [Parts.act, Waiter.act, nothing]
      | dropReceiver | receive => cases value <;> cases deaf <;> rfl
      | id => rfl

theorem Sound.run_whole (sound : p.Sound) (moves : List (Action α)) :
    (p.run moves).map (fun s => (s.1, s.2.whole)) = p.whole.run moves := by
  induction moves generalizing p with
  | nil => rfl
  | cons a rest ih =>
      simp only [Parts.run, Waiter.run, List.map_cons, ← sound.act_whole a, ih (sound.act a)]

theorem Sound.run (sound : p.Sound) (moves : List (Action α)) :
    ∀ s ∈ p.run moves, s.2.Sound := by
  induction moves generalizing p with
  | nil => simp [Parts.run]
  | cons a rest ih => exact List.forall_mem_cons.2 ⟨sound.act a, ih (sound.act a)⟩

end Parts
end ResourcePool.Waiter
