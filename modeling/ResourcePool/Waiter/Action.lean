import ResourcePool.Error
import ResourcePool.Waiter

/-!
The moves of the parties around one waiter: the one who claims or withdraws it, the one who holds
the right to send, and the listener.
-/

namespace ResourcePool.Waiter

inductive Action (α : Type)
  | claim
  | cancel
  | complete (outcome : Except PoolError α)
  | dropCompletion
  | dropReceiver
  | receive
  | id

inductive Answer (α : Type)
  | flag (b : Bool)
  | number (n : Nat)
  | delivered
  | returned (outcome : Except PoolError α)
  | noCompletion
  | received (r : Reception (Except PoolError α))
  | noReceiver

variable {α : Type}

def act (w : Waiter (Except PoolError α)) : Action α → Answer α × Waiter (Except PoolError α)
  | .claim =>
      match w.claim? with
      | some w' => (.flag true, w')
      | none => (.flag false, w)
  | .cancel =>
      match w.cancel? with
      | some w' => (.flag true, w')
      | none => (.flag false, w)
  | .complete outcome =>
      if w.isOutstanding then
        match w.complete outcome with
        | (none, w') => (.delivered, w')
        | (some back, w') => (.returned back, w')
      else (.noCompletion, w)
  | .dropCompletion =>
      if w.isOutstanding then (.flag true, w.abandon) else (.flag false, w)
  | .dropReceiver =>
      if w.listening then (.flag true, w.hangUp.2) else (.flag false, w)
  | .receive =>
      if w.listening then (.received w.receive.1, w.receive.2) else (.noReceiver, w)
  | .id => (.number w.id, w)

def run (w : Waiter (Except PoolError α)) :
    List (Action α) → List (Answer α × Waiter (Except PoolError α))
  | [] => []
  | a :: rest => w.act a :: (w.act a).2.run rest

end ResourcePool.Waiter
