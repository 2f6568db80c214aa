import ResourcePool.Config
import ResourcePool.Registry
import ResourcePool.Resource
import ResourcePool.Slot
import ResourcePool.Waiter

/-!
The shared state of a pool and the changes to it that ask nobody outside: enrolling and choosing
waiters, reserving slots, lending and taking back, closing the line of waiters.
-/

namespace ResourcePool

/-- A resource together with the slot it fills. A caller who holds one has it on loan. -/
structure Item where
  slot : Nat
  resource : Resource
  deriving DecidableEq

abbrev Outcome := Except PoolError Item

/-- A slot about to be filled. -/
inductive Reservation
  /-- The first slot that was never filled. -/
  | fresh (slot : Nat)
  /-- A slot whose resource is gone. -/
  | vacated (slot : Nat)
  deriving DecidableEq

def Reservation.slot : Reservation → Nat
  | fresh slot | vacated slot => slot

structure Status where
  available : Nat
  inUse : Nat
  /-- The number of slots filled so far. -/
  created : Nat
  waiting : Nat
  max : Nat
  deriving DecidableEq

def Status.written (s : Status) : String :=
  Text.record "PoolStatus" [
    ("available", toString s.available),
    ("in_use", toString s.inUse),
    ("created", toString s.created),
    ("waiting", toString s.waiting),
    ("max", toString s.max)]

structure Pool where
  config : Config
  slots : List Slot
  /-- All slots below were filled at some time, the others never. -/
  created : Nat := 0
  /-- Slots that may be filled again, in the order they became free. -/
  vacated : List Nat := []
  /-- Idle resources, in the order they came back. -/
  returned : List Item := []
  registry : Registry Nat := .empty
  /-- Every waiter there ever was; the place in the list is its number. -/
  waiters : List (Waiter Outcome) := []
  /-- Calls for matching not yet worked off; not zero exactly while somebody matches. -/
  triggers : Nat := 0
  /-- Where in the line the next choice begins. -/
  cursor : Nat := 0
  closed : Bool := false

namespace Pool

def ofConfig (c : Config) : Pool where
  config := c
  slots := List.replicate c.maxSize {}

def status (p : Pool) : Status where
  available := p.returned.length
  inUse := p.slots.countP fun s => s.state.isBusy
  created := p.created
  waiting := p.registry.size
  max := p.slots.length

def written (p : Pool) : String :=
  Text.record "Pool" [
    ("name", Text.quoted p.config.name),
    ("closed", Text.truth p.closed),
    ("status", p.status.written)]

def slotList (p : Pool) : List (Nat × Slot) :=
  p.slots.zipIdx.map fun e => (e.2, e.1)

def slot (p : Pool) (i : Nat) : Slot :=
  p.slots.getD i {}

def modifySlot (p : Pool) (i : Nat) (f : Slot → Slot) : Pool :=
  { p with slots := p.slots.modify i f }

def setState (p : Pool) (i : Nat) (s : SlotState) : Pool :=
  p.modifySlot i fun t => t.replace s

def waiter? (p : Pool) (id : Nat) : Option (Waiter Outcome) :=
  p.waiters[id]?

def modifyWaiter (p : Pool) (id : Nat) (f : Waiter Outcome → Waiter Outcome) : Pool :=
  { p with waiters := p.waiters.modify id f }

def nextWaiter (p : Pool) : Nat :=
  p.waiters.length

def enroll (p : Pool) : Pool :=
  { p with
    waiters := p.waiters ++ [{ id := p.nextWaiter }]
    registry := p.registry.register p.nextWaiter }

/-- A new waiter is told at once that the pool is closed. -/
def turnAway (p : Pool) : Pool :=
  { p with waiters := p.waiters ++
      [{ id := p.nextWaiter, state := .fulfilled, line := .sent (.error .closed) }] }

def unregister (p : Pool) (id : Nat) : Pool :=
  { p with registry := p.registry.unregister id }

def claim? (p : Pool) (id : Nat) : Option Pool :=
  match (p.waiter? id).bind Waiter.claim? with
  | some w => some (p.modifyWaiter id fun _ => w)
  | none => none

def cancel? (p : Pool) (id : Nat) : Option Pool :=
  match (p.waiter? id).bind Waiter.cancel? with
  | some w => some ((p.modifyWaiter id fun _ => w).unregister id)
  | none => none

/-- Sends a waiter its outcome, or hands it back. -/
def complete (p : Pool) (id : Nat) (o : Outcome) : Option Outcome × Pool :=
  match p.waiter? id with
  | some w => ((w.complete o).1, p.modifyWaiter id fun _ => (w.complete o).2)
  | none => (none, p)

def abandon (p : Pool) (id : Nat) : Pool :=
  p.modifyWaiter id Waiter.abandon

def hangUp (p : Pool) (id : Nat) : Option Outcome × Pool :=
  match p.waiter? id with
  | some w => (w.hangUp.1, p.modifyWaiter id fun _ => w.hangUp.2)
  | none => (none, p)

def receive (p : Pool) (id : Nat) : Reception Outcome × Pool :=
  match p.waiter? id with
  | some w => (w.receive.1, p.modifyWaiter id fun _ => w.receive.2)
  | none => (.closed, p)

/-- Round-robin choice from a view of the line. Whoever is chosen leaves the line, and is claimed
unless it was claimed or withdrawn since the view was taken. -/
def pick (p : Pool) (view : List Nat) : Option Nat × Pool :=
  let place := p.cursor % view.length
  let p := { p with cursor := place + 1 }
  match view[place]? with
  | none => (none, p)
  | some id =>
      match p.claim? id with
      | some p => (some id, p.unregister id)
      | none => (none, p.unregister id)

/-- Slots that became free come before slots never filled. -/
def reserve? (p : Pool) : Option (Reservation × Pool) :=
  match p.vacated with
  | slot :: rest => some (.vacated slot, { p with vacated := rest })
  | [] => if p.created < p.slots.length then some (.fresh p.created, p) else none

def unreserve (p : Pool) : Reservation → Pool
  | .fresh _ => p
  | .vacated slot => { p with vacated := p.vacated ++ [slot] }

def occupy (p : Pool) (r : Reservation) : Pool :=
  let p := match r with
    | .fresh slot => { p with created := slot + 1 }
    | .vacated _ => p
  p.modifySlot r.slot Slot.populate

/-- The slot loses its resource and may be filled again. -/
def vacate (p : Pool) (slot : Nat) : Pool :=
  let p := p.setState slot .uninitialized
  { p with vacated := p.vacated ++ [slot] }

def pushReturned (p : Pool) (i : Item) : Pool :=
  { p with returned := p.returned ++ [i] }

def popReturned? (p : Pool) : Option (Item × Pool) :=
  match p.returned with
  | i :: rest => some (i, { p with returned := rest })
  | [] => none

def lend? (p : Pool) (slot : Nat) : Option Pool :=
  (p.slot slot).checkout?.map fun s => p.modifySlot slot fun _ => s

def takeBack? (p : Pool) (slot : Nat) : Option Pool :=
  (p.slot slot).checkin?.map fun s => p.modifySlot slot fun _ => s

/-- One waiter is told that the pool is closed. -/
def dismiss (p : Pool) (id : Nat) : Pool :=
  let p := match p.claim? id with
    | some p => (p.complete id (.error .closed)).2
    | none => p
  p.unregister id

def dismissAll (p : Pool) : Pool :=
  p.registry.entries.foldl dismiss p

end Pool
end ResourcePool
