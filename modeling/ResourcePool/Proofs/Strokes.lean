import ResourcePool.Proofs.Choices
import ResourcePool.Proofs.Passages

/-!
The strokes of matching. Each lends a resource that came back, retires an invalid one, or asks for a
new one, which is made or not. A series of strokes serves the line in turn, takes from the queue of
idle resources in order, and uses up free slots and frees others.
-/

namespace ResourcePool

inductive Stroke
  /-- A resource that came back goes to a waiter. -/
  | lend (w : Nat) (i : Item)
  /-- A resource that came back is invalid and is closed. -/
  | retire (i : Item)
  /-- A new resource goes to a waiter. -/
  | fill (w : Nat) (i : Item)
  /-- No resource is made, and the waiter is told so. -/
  | fail (w slot : Nat) (cause : Failure)

namespace Stroke

@[simp] def chosen? : Stroke → Option Nat
  | lend w _ | fill w _ | fail w _ _ => some w
  | retire _ => none

/-- What comes out of the queue of idle resources. -/
@[simp] def taken? : Stroke → Option Item
  | lend _ i | retire i => some i
  | _ => none

@[simp] def lent? : Stroke → Option Item
  | lend _ i => some i
  | _ => none

@[simp] def retired? : Stroke → Option Item
  | retire i => some i
  | _ => none

@[simp] def filled? : Stroke → Option Item
  | fill _ i => some i
  | _ => none

@[simp] def failed? : Stroke → Option Nat
  | fail w _ _ => some w
  | _ => none

@[simp] def delivery? : Stroke → Option (Nat × Item)
  | lend w i | fill w i => some (w, i)
  | _ => none

/-- The factory is asked for a resource. -/
@[simp] def asks : Stroke → Bool
  | fill .. | fail .. => true
  | _ => false

/-- The latest first. -/
@[simp] def passages : Stroke → Ledger
  | lend _ i => [(i.slot, .deliver)]
  | retire i => [(i.slot, .retire)]
  | fill _ i => [(i.slot, .deliver), (i.slot, .create)]
  | fail .. => []

/-- The latest first. -/
@[simp] def deeds : Stroke → History
  | lend w i => [.fate w (.entrusted i)]
  | retire i => [.closing i.resource.id]
  | fill w i => [.fate w (.entrusted i), .created i.resource.id i.slot]
  | fail w slot cause => [.fate w (.creationFailed slot cause)]

/-- What the waiter that was chosen has been told. -/
@[simp] def told : Stroke → Line Outcome
  | fail _ slot cause => .sent (.error (.creationFailed slot cause))
  | _ => .silent

/-- The waiter that was chosen is claimed. -/
def Settles (d : Stroke) (p : Pool) : Prop :=
  ∀ w ∈ d.chosen?, ∃ x, p.waiters[w]? = some x ∧ x.state = .fulfilled ∧ x.line = d.told

theorem Settles.frame {d : Stroke} {p q : Pool} (settles : d.Settles p)
    (same : ∀ w ∈ d.chosen?, q.waiters[w]? = p.waiters[w]?) : d.Settles q :=
  fun w chosen => same w chosen ▸ settles w chosen

end Stroke

/-- Choosing these from the line, one after the other and each behind the one before, changes the
cursor and the line so. -/
inductive Rota : Nat → List Nat → List Nat → Nat → List Nat → Prop
  | nil {c : Nat} {l : List Nat} : Rota c l [] c l
  | cons {c c' w : Nat} {l l' ws : List Nat} (here : l[c % l.length]? = some w)
      (rest : Rota (c % l.length + 1) (l.erase w) ws c' l') : Rota c l (w :: ws) c' l'

namespace Rota

variable {c c' c'' : Nat} {l l' l'' ws vs : List Nat}

theorem trans (first : Rota c l ws c' l') (second : Rota c' l' vs c'' l'') :
    Rota c l (ws ++ vs) c'' l'' := by
  induction first with
  | nil => exact second
  | cons here _ ih => exact .cons here (ih second)

/-- Everybody in line was chosen or still stands there. -/
theorem perm (rota : Rota c l ws c' l') : (ws ++ l').Perm l := by
  induction rota with
  | nil => exact .refl _
  | cons here _ ih =>
      exact (ih.cons _).trans (List.perm_cons_erase (List.mem_of_getElem? here)).symm

theorem sublist (rota : Rota c l ws c' l') : l'.Sublist l := by
  induction rota with
  | nil => exact .refl _
  | cons _ _ ih => exact ih.trans List.erase_sublist

end Rota

namespace Pool

variable {p q r : Pool} {ds fs : List Stroke}

/-- The slots that can be filled, in the order in which they are. -/
def free (p : Pool) : List Nat :=
  p.vacated ++ List.range' p.created (p.slots.length - p.created)

/-- Whoever stands in line is there once, is pending and is listened to. -/
structure Lined (p : Pool) : Prop where
  distinct : p.registry.entries.Nodup
  waiting : ∀ w ∈ p.registry.entries, ∃ x, p.waiters[w]? = some x ∧ x.state = .pending ∧
    x.line = .silent ∧ x.listening = true

/-- No slot is in two places: those of the queue are idle and those that can be filled are empty. -/
structure Stocked (p : Pool) : Prop where
  size : p.slots.length = p.config.maxSize
  apart : (p.returned.map Item.slot).Nodup
  idle : ∀ i ∈ p.returned, p.Has i.slot .idle
  single : p.free.Nodup
  vacant : ∀ s ∈ p.free, p.Has s .uninitialized

/-- The strokes serve those who stand in line, in turn, and nobody else. -/
structure Assigns (p : Pool) (ds : List Stroke) (q : Pool) : Prop where
  rota : Rota p.cursor p.registry.entries (ds.filterMap Stroke.chosen?) q.cursor
    q.registry.entries
  settled : ∀ d ∈ ds, d.Settles q
  others : ∀ w ∉ ds.filterMap Stroke.chosen?, q.waiters[w]? = p.waiters[w]?

/-- The strokes take from the front of the queue, and use and free slots. -/
structure Provides (p : Pool) (ds : List Stroke) (q : Pool) : Prop where
  returned : p.returned = ds.filterMap Stroke.taken? ++ q.returned
  free : ((ds.filterMap Stroke.filled?).map Item.slot ++ q.free).Perm
    (p.free ++ (ds.filterMap Stroke.retired?).map Item.slot)
  slots : Passes p.slots (ds.reverse.flatMap Stroke.passages) q.slots

theorem SameLine.assigns (same : p.SameLine q) (nobody : ∀ d ∈ ds, d.chosen? = none) :
    p.Assigns ds q where
  rota := by
    rw [same.cursor, same.registry, List.filterMap_eq_nil_iff.2 nobody]
    exact .nil
  settled d member w chosen := by
    rw [nobody d member] at chosen
    cases chosen
  others w _ := by rw [same.waiters]

theorem SameStock.free (same : p.SameStock q) : q.free = p.free := by
  rw [Pool.free, Pool.free, same.vacated, same.created, same.slots]

theorem SameStock.provides (same : p.SameStock q) : p.Provides [] q where
  returned := same.returned.symm
  free := by simp [same.free]
  slots := .of_eq same.slots

theorem Assigns.frame {p' q' : Pool} (assigns : p.Assigns ds q) (before : p'.SameLine p)
    (after : q.SameLine q') : p'.Assigns ds q' where
  rota := by
    rw [← before.cursor, ← before.registry, after.cursor, after.registry]
    exact assigns.rota
  settled d member := (assigns.settled d member).frame fun w _ => by rw [after.waiters]
  others w other := by rw [after.waiters, assigns.others w other, before.waiters]

theorem Assigns.trans (lined : p.Lined) (first : p.Assigns ds q) (second : q.Assigns fs r) :
    p.Assigns (ds ++ fs) r where
  rota := by
    rw [List.filterMap_append]
    exact first.rota.trans second.rota
  settled d member := by
    obtain early | late := List.mem_append.1 member
    · refine (first.settled d early).frame fun w chosen => second.others w fun again => ?_
      -- Whoever was chosen has left the line, and is not chosen again.
      have apart := (first.rota.perm.nodup_iff.2 lined.distinct)
      rw [List.nodup_append] at apart
      refine apart.2.2 w (List.mem_filterMap.2 ⟨d, early, chosen⟩) w ?_ rfl
      exact second.rota.perm.mem_iff.1 (List.mem_append_left _ again)
    · exact second.settled d late
  others w other := by
    rw [List.filterMap_append, List.mem_append, not_or] at other
    rw [second.others w other.2, first.others w other.1]

theorem Assigns.lined (assigns : p.Assigns ds q) (lined : p.Lined) : q.Lined where
  distinct := lined.distinct.sublist assigns.rota.sublist
  waiting w inLine := by
    have apart := assigns.rota.perm.nodup_iff.2 lined.distinct
    rw [List.nodup_append] at apart
    rw [assigns.others w fun chosen => apart.2.2 w chosen w inLine rfl]
    exact lined.waiting w (assigns.rota.sublist.subset inLine)

theorem Lined.frame (lined : p.Lined) (same : p.SameLine q) : q.Lined := by
  constructor
  · rw [same.registry]
    exact lined.distinct
  · rw [same.registry, same.waiters]
    exact lined.waiting

theorem Provides.trans (first : p.Provides ds q) (second : q.Provides fs r) :
    p.Provides (ds ++ fs) r where
  returned := by
    rw [first.returned, second.returned, List.filterMap_append, List.append_assoc]
  free := by
    simp only [List.filterMap_append, List.map_append, List.append_assoc]
    refine (second.free.append_left _).trans ?_
    rw [← List.append_assoc, ← List.append_assoc]
    exact first.free.append_right _
  slots := by
    rw [List.reverse_append, List.flatMap_append]
    exact first.slots.trans second.slots

/-- The waiter was chosen and claimed. -/
def serve (p : Pool) (w : Nat) (x : Waiter Outcome) : Pool :=
  (({ p with cursor := p.cursor % p.registry.entries.length + 1 } : Pool).modifyWaiter w
    fun _ => { x with state := .fulfilled }).unregister w

theorem serve_sameStock (p : Pool) (w : Nat) (x : Waiter Outcome) : p.SameStock (p.serve w x) :=
  ⟨rfl, rfl, rfl, rfl, rfl, rfl, rfl⟩

/-- The waiter is next in turn, and nothing was sent to it. -/
structure Next (p : Pool) (w : Nat) (x : Waiter Outcome) : Prop where
  here : p.registry.entries[p.cursor % p.registry.entries.length]? = some w
  found : p.waiters[w]? = some x
  silent : x.line = .silent
  listening : x.listening = true
  pick : p.pick p.registry.entries = (some w, p.serve w x)

/-- Somebody in line is next. -/
theorem Lined.exists_next (lined : p.Lined) (line : p.registry.entries ≠ []) :
    ∃ w x, p.Next w x := by
  obtain ⟨w, here⟩ := p.exists_place line
  obtain ⟨x, found, pending, silent, listening⟩ :=
    lined.waiting w (List.mem_of_getElem? here)
  exact ⟨w, x, here, found, silent, listening, pick_of_pending here found pending⟩

/-- Whoever is next is chosen and claimed, and maybe told something. -/
theorem Next.assigns {d : Stroke} {w : Nat} {x y : Waiter Outcome} (next : p.Next w x)
    (chosen : d.chosen? = some w) (cursor : q.cursor = (p.serve w x).cursor)
    (entries : q.registry.entries = (p.serve w x).registry.entries)
    (waiters : q.waiters = p.waiters.modify w fun _ => y) (state : y.state = .fulfilled)
    (line : y.line = d.told) : p.Assigns [d] q where
  rota := by
    simp only [List.filterMap_cons, chosen, List.filterMap_nil]
    rw [cursor, entries]
    exact .cons next.here .nil
  settled d' member := by
    obtain rfl := List.mem_singleton.1 member
    intro v chosen'
    obtain rfl : w = v := Option.some.inj (chosen.symm.trans chosen')
    exact ⟨y, by simp [waiters, next.found], state, line⟩
  others v other := by
    have apart : w ≠ v := by
      rintro rfl
      exact other (List.mem_filterMap.2 ⟨d, List.mem_singleton_self d, chosen⟩)
    simp [waiters, apart]

/-- The resource of the slot goes to the waiter that was chosen. -/
def hand (p : Pool) (w : Nat) (x : Waiter Outcome) (s : Nat) : Pool :=
  (p.serve w x).modifySlot s fun _ => Passage.deliver.pass (p.slot s)

/-- The slot is filled, and its resource goes to the waiter that was chosen. -/
def furnish (p : Pool) (w : Nat) (x : Waiter Outcome) (r : Reservation) : Pool :=
  ((p.serve w x).occupy r).modifySlot r.slot fun _ =>
    Passage.deliver.pass (((p.serve w x).occupy r).slot r.slot)

/-- The waiter that was chosen is told that the slot could not be filled. -/
def excuse (p : Pool) (w : Nat) (x : Waiter Outcome) (r : Reservation) (cause : Failure) : Pool :=
  (((p.serve w x).unreserve r).complete w (.error (.creationFailed r.slot cause))).2

theorem Next.hand {w : Nat} {x : Waiter Outcome} (next : p.Next w x) (i : Item) :
    p.Assigns [.lend w i] (p.hand w x i.slot) :=
  next.assigns (d := .lend w i) rfl rfl rfl rfl rfl next.silent

theorem Next.furnish {w : Nat} {x : Waiter Outcome} (next : p.Next w x) (r : Reservation)
    (i : Item) : p.Assigns [.fill w i] (p.furnish w x r) := by
  have serves : p.Assigns [.fill w i] (p.serve w x) :=
    next.assigns (d := .fill w i) rfl rfl rfl rfl rfl next.silent
  have same := (p.serve w x).occupy_sameLine r
  exact serves.frame (.refl p)
    ⟨same.config, same.waiters, same.registry, same.triggers, same.cursor, same.closed⟩

theorem Next.excuse {w : Nat} {x : Waiter Outcome} (next : p.Next w x) (r : Reservation)
    (cause : Failure) : p.Assigns [.fail w r.slot cause] (p.excuse w x r cause) := by
  have same := (p.serve w x).unreserve_sameLine r
  have found : ((p.serve w x).unreserve r).waiters[w]? =
      some { x with state := .fulfilled } := by
    rw [same.waiters]
    simp [Pool.serve, modifyWaiter, unregister, next.found]
  refine next.assigns (y := { x with
    state := .fulfilled
    line := .sent (.error (.creationFailed r.slot cause)) }) rfl ?_ ?_ ?_ rfl rfl
  · rw [← same.cursor]
    exact complete_cursor ..
  · rw [← same.registry]
    exact congrArg _ (complete_registry ..)
  · rw [Pool.excuse, complete, waiter?, found]
    simp only [modifyWaiter, Waiter.complete, next.listening, if_true, same.waiters]
    rw [Pool.serve]
    simp only [modifyWaiter, unregister, List.modify_modify_eq]
    rfl

theorem Stocked.length_free (stocked : p.Stocked) :
    p.free.length = p.vacated.length + (p.config.maxSize - p.created) := by
  rw [Pool.free, List.length_append, List.length_range', stocked.size]

/-- A change that concerns one slot, and takes it out of the queue. -/
theorem Stocked.change {s : Nat} (stocked : p.Stocked) (config : q.config = p.config)
    (length : q.slots.length = p.slots.length) (others : ∀ t ≠ s, q.slot t = p.slot t)
    (returned : q.returned.Sublist p.returned) (away : ∀ i ∈ q.returned, i.slot ≠ s)
    (single : q.free.Nodup) (free : ∀ t ∈ q.free, t ≠ s → t ∈ p.free)
    (here : s ∈ q.free → q.Has s .uninitialized) : q.Stocked where
  size := by rw [length, config, stocked.size]
  apart := stocked.apart.sublist (returned.map Item.slot)
  idle i queued := by
    have before := stocked.idle i (returned.subset queued)
    exact ⟨length ▸ before.1, (others i.slot (away i queued)).symm ▸ before.2⟩
  single := single
  vacant t inside := by
    by_cases same : t = s
    · exact same ▸ here (same ▸ inside)
    · have before := stocked.vacant t (free t inside same)
      exact ⟨length ▸ before.1, (others t same).symm ▸ before.2⟩

section

variable {i : Item} {rest : List Item}

/-- Slots that can be filled do not have an idle resource. -/
theorem Stocked.ne_of_free (stocked : p.Stocked) (queued : i ∈ p.returned) {s : Nat}
    (inside : s ∈ p.free) : s ≠ i.slot := by
  rintro rfl
  have idle := (stocked.idle i queued).2
  rw [(stocked.vacant _ inside).2] at idle
  cases idle

theorem Stocked.away (stocked : p.Stocked) (queue : p.returned = i :: rest) :
    ∀ j ∈ rest, j.slot ≠ i.slot := by
  have apart := stocked.apart
  rw [queue, List.map_cons, List.nodup_cons] at apart
  intro j queued same
  exact apart.1 (same ▸ List.mem_map_of_mem queued)

theorem Stocked.has_of_pop (stocked : p.Stocked) (popped : p.popReturned? = some (i, q)) :
    q.Has i.slot .idle := by
  obtain ⟨rest, queue, rfl⟩ := popReturned?_eq_some popped
  exact stocked.idle i (queue ▸ List.mem_cons_self ..)

/-- What was at the front of the queue goes to a waiter. -/
theorem Stocked.hand (stocked : p.Stocked) (popped : p.popReturned? = some (i, q))
    (w : Nat) (x : Waiter Outcome) :
    p.Provides [.lend w i] (q.hand w x i.slot) ∧ (q.hand w x i.slot).Stocked := by
  obtain ⟨rest, queue, rfl⟩ := popReturned?_eq_some popped
  have queued : i ∈ p.returned := queue ▸ List.mem_cons_self ..
  have idle := stocked.idle i queued
  have length : p.slots.length = (p.slots.modify i.slot fun _ =>
    Passage.deliver.pass (p.slot i.slot)).length := (List.length_modify ..).symm
  have free : (({ p with returned := rest } : Pool).hand w x i.slot).free = p.free := by
    rw [Pool.free, Pool.free, length]
    rfl
  refine ⟨⟨queue, by simp [List.filterMap_cons, free], idle.passes rfl rfl⟩, ?_⟩
  refine stocked.change (s := i.slot) rfl length.symm ?_ ?_ ?_ (free ▸ stocked.single) ?_ ?_
  · intro t other
    exact (Places.slot_of_modify idle.1 rfl t).trans (if_neg other)
  · exact queue ▸ List.sublist_cons_self i rest
  · exact stocked.away queue
  · intro t inside _
    exact free ▸ inside
  · intro inside
    exact absurd rfl (stocked.ne_of_free queued (free ▸ inside))

/-- What was at the front of the queue is closed, and its slot becomes free. -/
theorem Stocked.vacate (stocked : p.Stocked) (popped : p.popReturned? = some (i, q)) :
    p.Provides [.retire i] (q.vacate i.slot) ∧ (q.vacate i.slot).Stocked := by
  obtain ⟨rest, queue, rfl⟩ := popReturned?_eq_some popped
  have queued : i ∈ p.returned := queue ▸ List.mem_cons_self ..
  have idle := stocked.idle i queued
  have length : p.slots.length = (p.slots.modify i.slot fun s =>
    s.replace .uninitialized).length := (List.length_modify ..).symm
  have free : (({ p with returned := rest } : Pool).vacate i.slot).free.Perm
      (p.free ++ [i.slot]) := by
    rw [Pool.free, Pool.free, length, List.append_assoc]
    refine .trans (.of_eq (List.append_assoc ..)) ?_
    exact List.perm_append_comm.append_left _
  refine ⟨⟨queue, by simpa [List.filterMap_cons] using free, idle.passes rfl rfl⟩, ?_⟩
  refine stocked.change (s := i.slot) rfl length.symm ?_ ?_ ?_ ?_ ?_ ?_
  · intro t other
    exact (Places.slot_of_modify idle.1 rfl t).trans (if_neg other)
  · exact queue ▸ List.sublist_cons_self i rest
  · exact stocked.away queue
  · rw [free.nodup_iff, List.nodup_append_comm, List.singleton_append, List.nodup_cons]
    exact ⟨fun inside => stocked.ne_of_free queued inside rfl, stocked.single⟩
  · intro t inside other
    exact (List.mem_append.1 (free.mem_iff.1 inside)).resolve_right (by simpa using other)
  · intro _
    exact idle.modify (f := fun s => s.replace .uninitialized) rfl

end

theorem exists_pop {i : Item} {rest : List Item} (queue : p.returned = i :: rest) :
    ∃ q, p.popReturned? = some (i, q) :=
  ⟨_, by rw [popReturned?, queue]⟩

theorem reserve?_keeps {r : Reservation} (reserved : p.reserve? = some (r, q)) :
    q.config = p.config ∧ q.slots = p.slots ∧ q.returned = p.returned := by
  obtain ⟨slot, rest, _, _, rfl⟩ | ⟨_, _, _, rfl⟩ := reserve?_eq_some reserved <;>
    exact ⟨rfl, rfl, rfl⟩

/-- Whatever is reserved is the first slot that can be filled. -/
theorem exists_reserve (free : p.free ≠ []) : ∃ r q, p.reserve? = some (r, q) := by
  unfold reserve?
  cases queue : p.vacated with
  | cons s rest => exact ⟨_, _, rfl⟩
  | nil =>
      have room : p.created < p.slots.length := by
        by_contra full
        refine free ?_
        rw [Pool.free, queue, Nat.sub_eq_zero_of_le (Nat.le_of_not_lt full)]
        rfl
      exact ⟨_, _, if_pos room⟩

theorem reserve?_eq_none (free : p.free = []) : p.reserve? = none := by
  obtain ⟨vacated, fresh⟩ := List.append_eq_nil_iff.1 free
  unfold reserve?
  rw [vacated]
  refine if_neg fun room => ?_
  rw [List.range'_eq_nil_iff] at fresh
  omega

/-- A slot that is not filled is the last to be filled again, or still the next. -/
theorem free_unreserve {s : Reservation} (reserved : p.reserve? = some (s, q))
    (same : q.SameStock r) : (r.unreserve s).free.Perm p.free := by
  obtain ⟨slot, rest, queue, rfl, rfl⟩ | ⟨empty, _, rfl, rfl⟩ := reserve?_eq_some reserved
  · simp only [Pool.free, unreserve, same.vacated, same.created, same.slots, queue]
    rw [List.append_assoc]
    exact List.perm_middle
  · exact same.free ▸ .refl _

theorem free_occupy {s : Reservation} (reserved : p.reserve? = some (s, q))
    (same : q.SameStock r) : p.free = s.slot :: (r.occupy s).free := by
  obtain ⟨slot, rest, queue, rfl, rfl⟩ | ⟨empty, room, rfl, rfl⟩ := reserve?_eq_some reserved
  · simp [Pool.free, occupy, modifySlot, same.vacated, same.created, same.slots, queue,
      Reservation.slot]
  · obtain ⟨k, more⟩ := Nat.exists_eq_add_of_lt room
    have left : q.slots.length - q.created = k + 1 := by omega
    have next : q.slots.length - (q.created + 1) = k := by omega
    simp [Pool.free, occupy, modifySlot, same.vacated, same.slots, empty, left, next,
      Reservation.slot, List.range'_succ]

theorem slots_occupy (p : Pool) (s : Reservation) :
    (p.occupy s).slots = p.slots.modify s.slot Slot.populate := by
  cases s <;> rfl

theorem Stocked.has_of_reserve {r : Reservation} (stocked : p.Stocked)
    (reserved : p.reserve? = some (r, q)) : q.Has r.slot .uninitialized := by
  have first := free_occupy reserved (.refl q)
  exact (stocked.vacant r.slot (first ▸ List.mem_cons_self ..)).frame (reserve?_keeps reserved).2.1

/-- A slot is filled and its resource goes to a waiter. -/
theorem Stocked.furnish {r : Reservation} (stocked : p.Stocked)
    (reserved : p.reserve? = some (r, q)) (w : Nat) (x : Waiter Outcome) (resource : Resource) :
    p.Provides [.fill w ⟨r.slot, resource⟩] (q.furnish w x r) ∧ (q.furnish w x r).Stocked := by
  have free := free_occupy reserved (q.serve_sameStock w x)
  have single := stocked.single
  rw [free, List.nodup_cons] at single
  have vacant := stocked.vacant r.slot (free ▸ List.mem_cons_self ..)
  obtain ⟨config, slots, returned⟩ := reserve?_keeps reserved
  have filled : ((q.serve w x).occupy r).slots = p.slots.modify r.slot Slot.populate :=
    slots ▸ (q.serve w x).slots_occupy r
  have idle : ((q.serve w x).occupy r).Has r.slot .idle := vacant.modify filled
  have passes := (vacant.passes (x := .create) filled rfl).trans
    (idle.passes (q := q.furnish w x r) (x := .deliver) rfl rfl)
  have length : (q.furnish w x r).slots.length = ((q.serve w x).occupy r).slots.length :=
    List.length_modify ..
  have same : (q.furnish w x r).free = ((q.serve w x).occupy r).free := by
    rw [Pool.free, Pool.free, length]
    rfl
  have queue : (q.furnish w x r).returned = p.returned := by
    rw [← returned]
    cases r <;> rfl
  refine ⟨⟨queue.symm, by simp [List.filterMap_cons, free, same], passes⟩, ?_⟩
  refine stocked.change (s := r.slot) ?_ passes.length ?_ (queue ▸ List.Sublist.refl _) ?_
    (same ▸ single.2) ?_ ?_
  · rw [← config]
    cases r <;> rfl
  · intro t other
    calc (q.furnish w x r).slot t = ((q.serve w x).occupy r).slot t :=
          (Places.slot_of_modify idle.1 rfl t).trans (if_neg other)
      _ = p.slot t := (Places.slot_of_modify vacant.1 filled t).trans (if_neg other)
  · intro j queued occupied
    exact stocked.ne_of_free (queue ▸ queued) (free ▸ List.mem_cons_self ..) occupied.symm
  · intro t inside _
    exact free ▸ List.mem_cons_of_mem _ (same ▸ inside)
  · intro inside
    exact absurd (same ▸ inside) single.1

/-- A slot could not be filled, and the waiter is told so. -/
theorem Stocked.excuse {r : Reservation} (stocked : p.Stocked)
    (reserved : p.reserve? = some (r, q)) (w : Nat) (x : Waiter Outcome) (cause : Failure) :
    p.Provides [.fail w r.slot cause] (q.excuse w x r cause) ∧ (q.excuse w x r cause).Stocked := by
  have same := ((q.serve w x).unreserve r).complete_sameStock w
    (.error (.creationFailed r.slot cause))
  have free : (q.excuse w x r cause).free.Perm p.free :=
    same.free ▸ free_unreserve reserved (q.serve_sameStock w x)
  obtain ⟨config, slots, returned⟩ := reserve?_keeps reserved
  have kept : (q.excuse w x r cause).config = p.config ∧ (q.excuse w x r cause).slots = p.slots ∧
      (q.excuse w x r cause).returned = p.returned := by
    rw [← config, ← slots, ← returned]
    refine ⟨same.config.trans ?_, same.slots.trans ?_, same.returned.trans ?_⟩ <;> cases r <;> rfl
  have has {t : Nat} {state : SlotState} (here : p.Has t state) :
      (q.excuse w x r cause).Has t state := here.frame kept.2.1
  refine ⟨⟨kept.2.2.symm, by simpa [List.filterMap_cons] using free, .of_eq kept.2.1⟩, ?_⟩
  exact ⟨by rw [kept.2.1, kept.1, stocked.size], kept.2.2 ▸ stocked.apart,
    fun j queued => has (stocked.idle j (kept.2.2 ▸ queued)), free.nodup_iff.2 stocked.single,
    fun t inside => has (stocked.vacant t (free.mem_iff.1 inside))⟩

end Pool

namespace Run

open Machine

variable {σ : Type} {e : Environment σ} {past : List (Machine σ)} {m : Machine σ}

theorem lined (run : Run e past m) : m.pool.Lined where
  distinct := run.sound.standings.ascending.imp Nat.ne_of_lt
  waiting w inLine := by
    obtain ⟨x, found, pending⟩ := (run.sound.standings.inLine w).1 inLine
    have standing := run.sound.standings.standing w x found
    generalize (m.books 0 (history e past)).ties w = t at standing
    cases standing with
    | pending _ line listening => exact ⟨x, found, pending, line, listening⟩
    | claimed state | answered state | forsaken state | finished state => exact absurd pending state

theorem stocked (run : Run e past m) : m.pool.Stocked := by
  have apart : (m.pool.returned.map Item.slot).Nodup ∧ m.pool.vacated.Nodup := by
    have all := run.places.apart
    have parts : (m.pool.returned.map Item.stored : Multiset Holding) +
        (m.pool.vacated.map Holding.free : List Holding) ≤ (m.books 0 (history e past)).stock :=
      (Multiset.le_add_right ..).trans (Multiset.le_add_left ..)
    have both := Multiset.nodup_of_le (Multiset.map_le_map parts) all
    simp only [Multiset.map_add, Multiset.map_coe, List.map_map, Multiset.nodup_add,
      Multiset.coe_nodup] at both
    exact ⟨both.1, by simpa [Function.comp_def, Holding.free] using both.2.1⟩
  have vacated {s : Nat} (inside : s ∈ m.pool.vacated) :=
    run.places.agree _ (m.free_mem_stock inside (history e past))
  refine ⟨run.places.size, apart.1, run.idle_of_returned, ?_, fun s inside => ?_⟩
  · refine List.nodup_append.2 ⟨apart.2, List.nodup_range', fun s inside t beyond same => ?_⟩
    have below := (vacated inside).1
    have above := (List.mem_range'_1.1 beyond).1
    simp only [Holding.free] at below
    omega
  · obtain inside | beyond := List.mem_append.1 inside
    · exact ⟨(vacated inside).1.trans_le run.places.bound, (vacated inside).2⟩
    · have bounds := List.mem_range'_1.1 beyond
      exact ⟨by omega, congrArg Slot.state (run.places.blank s bounds.1)⟩

end Run
end ResourcePool
