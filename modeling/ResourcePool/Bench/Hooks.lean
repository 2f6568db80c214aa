import ResourcePool.Environment

/-!
The bench around a pool: its factory, and hooks that carry out operations during chosen calls. A
hook is used up when it fires, so the bench names only as many operations as its hooks hold.
-/

namespace ResourcePool.Bench

inductive CallKind
  | create
  | validate
  | close
  | schedule
  deriving DecidableEq

def CallKind.ofMoment : Moment → CallKind
  | .create _ => create
  | .validate _ => validate
  | .close _ => close
  | .schedule _ => schedule

/-- Operations to carry out during the call of a kind with this place among its kind. -/
structure Hook where
  kind : CallKind
  place : Nat
  ops : List Op

structure Rig where
  factory : Factory := {}
  hooks : List Hook := []
  /-- All calls so far. -/
  calls : List CallKind := []

namespace Rig

/-- How many operations the hooks hold. -/
def hookLoad : List Hook → Nat
  | [] => 0
  | h :: rest => h.ops.length + hookLoad rest

def extract (test : Hook → Bool) : List Hook → Option (Hook × List Hook)
  | [] => none
  | h :: rest =>
      if test h then some (h, rest)
      else (extract test rest).map fun found => (found.1, h :: found.2)

theorem hookLoad_extract {test : Hook → Bool} {hooks : List Hook} {h : Hook} {rest : List Hook}
    (found : extract test hooks = some (h, rest)) :
    h.ops.length + hookLoad rest = hookLoad hooks := by
  induction hooks generalizing h rest with
  | nil => simp [extract] at found
  | cons k ks ih =>
      simp only [extract] at found
      split at found
      · simp only [Option.some.injEq, Prod.mk.injEq] at found
        obtain ⟨rfl, rfl⟩ := found
        simp [hookLoad]
      · simp only [Option.map_eq_some_iff, Prod.mk.injEq] at found
        obtain ⟨⟨h', rest'⟩, hf, rfl, rfl⟩ := found
        have := ih hf
        simp only [hookLoad]
        omega

/-- The call is counted, and the first hook that waits for it fires. -/
def enter (c : Moment) (r : Rig) : List Op × Rig :=
  let kind := CallKind.ofMoment c
  let place := r.calls.count kind
  let r := { r with calls := kind :: r.calls }
  match extract (fun h => h.kind == kind && h.place == place) r.hooks with
  | some (h, rest) => (h.ops, { r with hooks := rest })
  | none => ([], r)

def create (slot : Nat) (r : Rig) : Option Failure × Rig :=
  match r.factory.create slot with
  | (.ok _, factory) => (none, { r with factory })
  | (.error f, factory) => (some f.toFailure, { r with factory })

def close (resource : Resource) (r : Rig) : Option Failure × Rig :=
  let answer := r.factory.close resource.id
  (answer.1.map Fault.toFailure, { r with factory := answer.2 })

def tell (n : Notice) (r : Rig) : Rig :=
  { r with factory := r.factory.tell n }

end Rig

def environment : Environment Rig where
  enter := Rig.enter
  create := Rig.create
  validate resource r := (r.factory.isValid resource.id, r)
  close := Rig.close
  tell := Rig.tell
  counts r := r.factory.counts

/-- What the hooks hold bounds what the bench names. -/
def budget : Budget environment where
  ops r := Rig.hookLoad r.hooks
  enter_le c r := by
    simp only [environment, Rig.enter]
    split
    · next found => exact Nat.le_of_eq (Rig.hookLoad_extract found)
    · simp
  create_le n r := by
    simp only [environment, Rig.create]
    split <;> exact Nat.le_refl _
  validate_le _ _ := Nat.le_refl _
  close_le _ _ := Nat.le_refl _
  tell_le _ _ := Nat.le_refl _

end ResourcePool.Bench
