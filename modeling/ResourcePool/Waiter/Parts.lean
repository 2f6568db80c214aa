import ResourcePool.Waiter.Action

/-!
A waiter in its parts: the flag for which claims and cancellations race, the cell in which the
sending end of a channel lies until one of them takes it, the completion that holds it from then on,
and the channel. Each part is changed on its own.
-/

namespace ResourcePool.Waiter

variable {α : Type}

/-- Carries one value. -/
structure Channel (α : Type) where
  value : Option α := none
  /-- The sending end was used or dropped. -/
  spent : Bool := false
  /-- The receiving end was dropped. -/
  deaf : Bool := false

namespace Channel

/-- Uses up the sending end. The value comes back if the receiving end is gone. -/
def send (c : Channel α) (a : α) : Option α × Channel α :=
  if c.deaf then (some a, { c with spent := true })
  else (none, { c with value := some a, spent := true })

def dropSender (c : Channel α) : Channel α :=
  { c with spent := true }

/-- A value that was not received yet is lost. -/
def dropReceiver (c : Channel α) : Channel α :=
  { c with value := none, deaf := true }

def receive (c : Channel α) : Reception α × Channel α :=
  match c.spent, c.value with
  | false, _ => (.empty, c)
  | true, some a => (.value a, { c with value := none })
  | true, none => (.closed, c)

end Channel

structure Parts (α : Type) where
  id : Nat
  flag : WaiterState := .pending
  /-- The sending end lies in the cell. -/
  cell : Bool := true
  /-- Whoever claimed the waiter holds the sending end. -/
  completion : Bool := false
  channel : Channel (Except PoolError α) := {}

namespace Parts

/-- Whoever turns the flag takes what lies in the cell, and has claimed the waiter if that is the
sending end. -/
def claim (p : Parts α) : Bool × Parts α :=
  if p.flag = .pending then
    (p.cell, { p with
      flag := .fulfilled
      cell := false
      completion := p.completion || p.cell })
  else (false, p)

/-- Whoever turns the flag drops what lies in the cell. -/
def cancel (p : Parts α) : Bool × Parts α :=
  if p.flag = .pending then
    (true, { p with
      flag := .cancelled
      cell := false
      channel := if p.cell then p.channel.dropSender else p.channel })
  else (false, p)

def act (p : Parts α) : Action α → Answer α × Parts α
  | .claim => (.flag p.claim.1, p.claim.2)
  | .cancel => (.flag p.cancel.1, p.cancel.2)
  | .complete outcome =>
      if p.completion then
        match p.channel.send outcome with
        | (none, c) => (.delivered, { p with completion := false, channel := c })
        | (some back, c) => (.returned back, { p with completion := false, channel := c })
      else (.noCompletion, p)
  | .dropCompletion =>
      if p.completion then
        (.flag true, { p with completion := false, channel := p.channel.dropSender })
      else (.flag false, p)
  | .dropReceiver =>
      if p.channel.deaf then (.flag false, p)
      else (.flag true, { p with channel := p.channel.dropReceiver })
  | .receive =>
      if p.channel.deaf then (.noReceiver, p)
      else (.received p.channel.receive.1, { p with channel := p.channel.receive.2 })
  | .id => (.number p.id, p)

def run (p : Parts α) : List (Action α) → List (Answer α × Parts α)
  | [] => []
  | a :: rest => p.act a :: (p.act a).2.run rest

end Parts
end ResourcePool.Waiter
