import ResourcePool.Slot

/-!
What can be done to a slot, and what each act answers.
-/

namespace ResourcePool.Slot

inductive Action
  | created
  | checkout
  | checkin
  | replace (state : SlotState)
  | transition (source target : SlotState)

inductive Answer
  | nothing
  | flag (b : Bool)
  | previous (s : SlotState)

/-- Keeps the slot if the change was refused. -/
def settle (s : Slot) : Option Slot → Answer × Slot
  | some t => (.flag true, t)
  | none => (.flag false, s)

def act (s : Slot) : Action → Answer × Slot
  | .created => (.nothing, s.populate)
  | .checkout => s.settle s.checkout?
  | .checkin => s.settle s.checkin?
  | .replace state => (.previous s.state, s.replace state)
  | .transition source target => s.settle (s.transition? source target)

def run (s : Slot) : List Action → List (Answer × Slot)
  | [] => []
  | a :: rest => s.act a :: (s.act a).2.run rest

def after (s : Slot) (actions : List Action) : Slot :=
  actions.foldl (fun t a => (t.act a).2) s

end ResourcePool.Slot
