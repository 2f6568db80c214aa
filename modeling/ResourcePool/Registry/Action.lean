import ResourcePool.Registry

/-!
A registry in use: entries are numbered as they are made and carry a label, and views of the line
are kept under a number for later.
-/

namespace ResourcePool.Registry

structure Ledger where
  /-- The labels of all entries made so far; the place in the list is the entry. -/
  labels : List String := []
  registry : Registry Nat := .empty
  /-- Kept views, the latest first. -/
  saved : List (Nat × List Nat) := []

inductive Action
  | new (label : String)
  | register (entry : Nat)
  | unregister (entry : Nat)
  /-- Unregisters another entry with the same label. -/
  | unregisterTwin (entry : Nat)
  | save (key : Nat)
  | recall (key : Nat)

inductive Answer
  | nothing
  | flag (b : Bool)
  | entries (es : List (Nat × String))
  | noEntry
  | noSnapshot

namespace Ledger

def listing (l : Ledger) (es : List Nat) : List (Nat × String) :=
  es.map fun e => (e, l.labels.getD e "")

/-- The number of the next entry: nothing registered so far is that entry. -/
def fresh (l : Ledger) : Nat := l.labels.length

def unregister (l : Ledger) (entry : Nat) : Answer × Ledger :=
  (.flag (l.registry.contains entry), { l with registry := l.registry.unregister entry })

def act (l : Ledger) : Action → Answer × Ledger
  | .new label =>
      (.nothing, { l with
        labels := l.labels ++ [label], registry := l.registry.register l.fresh })
  | .register entry =>
      if entry < l.fresh then (.nothing, { l with registry := l.registry.register entry })
      else (.noEntry, l)
  | .unregister entry =>
      if entry < l.fresh then l.unregister entry else (.noEntry, l)
  | .unregisterTwin entry =>
      if entry < l.fresh then l.unregister l.fresh else (.noEntry, l)
  | .save key => (.nothing, { l with saved := (key, l.registry.entries) :: l.saved })
  | .recall key =>
      match l.saved.lookup key with
      | some es => (.entries (l.listing es), l)
      | none => (.noSnapshot, l)

def run (l : Ledger) : List Action → List (Answer × Ledger)
  | [] => []
  | a :: rest => l.act a :: (l.act a).2.run rest

def after (l : Ledger) (actions : List Action) : Ledger :=
  actions.foldl (fun t a => (t.act a).2) l

end Ledger
end ResourcePool.Registry
