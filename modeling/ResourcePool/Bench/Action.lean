import ResourcePool.Bench.Factory
import ResourcePool.Bench.Gauge
import ResourcePool.Table

/-!
The bench without a pool: resources made and closed by hand, and uses counted by the gauge.
-/

namespace ResourcePool.Bench

structure Stand where
  factory : Factory := {}
  resources : Table Resource := {}
  gauge : Gauge := {}
  /-- The uses that go on, by number. -/
  uses : Table Unit := {}

inductive Action
  | create (handle slot : Nat)
  | close (handle : Nat)
  | isValid (handle : Nat)
  | execute (handle : Nat) (statement : String)
  | executed (handle : Nat)
  | describe (handle : Nat)
  | tell (notice : Notice)
  | counts
  | enter (use : Nat)
  | leave (use : Nat)

inductive Answer
  | nothing
  | flag (b : Bool)
  | number (n : Nat)
  | text (s : String)
  | statements (ss : List String)
  | resource (id slot : Nat)
  | fault (f : Fault)
  | counts (c : FactoryCounts)
  | noHandle

namespace Stand

/-- Answers about the resource at a handle, if there is one. -/
def withResource (s : Stand) (handle : Nat) (f : Resource → Answer × Stand) : Answer × Stand :=
  match s.resources.get? handle with
  | some r => f r
  | none => (.noHandle, s)

def act (s : Stand) : Action → Answer × Stand
  | .create handle slot =>
      match s.factory.create slot with
      | (.ok r, factory) =>
          (.resource r.id r.slot, { s with factory, resources := s.resources.insert handle r })
      | (.error f, factory) => (.fault f, { s with factory })
  | .close handle => s.withResource handle fun r =>
      match s.factory.close r.id with
      | (some f, factory) => (.fault f, { s with factory, resources := s.resources.erase handle })
      | (none, factory) => (.nothing, { s with factory, resources := s.resources.erase handle })
  | .isValid handle => s.withResource handle fun r => (.flag (s.factory.isValid r.id), s)
  | .execute handle statement => s.withResource handle fun r =>
      match r.execute statement with
      | .ok (n, r') => (.number n, { s with resources := s.resources.insert handle r' })
      | .error f => (.fault f, s)
  | .executed handle => s.withResource handle fun r => (.statements r.executed, s)
  | .describe handle => s.withResource handle fun r => (.text r.written, s)
  | .tell notice => (.nothing, { s with factory := s.factory.tell notice })
  | .counts => (.counts s.factory.counts, s)
  | .enter use =>
      let gauge := s.gauge.enter
      (.nothing, { s with
        gauge := if s.uses.contains use then gauge.leave else gauge
        uses := s.uses.insert use () })
  | .leave use =>
      if s.uses.contains use then
        (.flag true, { s with gauge := s.gauge.leave, uses := s.uses.erase use })
      else (.flag false, s)

def run (s : Stand) : List Action → List (Answer × Stand)
  | [] => []
  | a :: rest => s.act a :: (s.act a).2.run rest

def after (s : Stand) (actions : List Action) : Stand :=
  actions.foldl (fun t a => (t.act a).2) s

end Stand
end ResourcePool.Bench
