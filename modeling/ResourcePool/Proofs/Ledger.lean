import Mathlib.Data.Multiset.Range
import ResourcePool.Proofs.Matching
import ResourcePool.Proofs.Stock

/-!
Each slot is in one place. The slots filled so far are answered for exactly once or were closed for
good, those never filled are blank, and every resource made is either in stock or was passed on for
closing or detached, once.
-/

namespace ResourcePool

attribute [-simp] Multiset.singleton_add

def Holding.id? (x : Holding) : Option Nat :=
  x.resource.map Resource.id

/-- The slots agree with the stock. -/
structure Places (p : Pool) (torn : Bool) (S : Multiset Holding) : Prop where
  size : p.slots.length = p.config.maxSize
  bound : p.created ≤ p.slots.length
  agree : ∀ x ∈ S, x.slot < p.created ∧ (p.slot x.slot).state = x.state
  apart : (S.map Holding.slot).Nodup
  covered : ∀ s < p.created, s ∈ S.map Holding.slot ∨ (p.slot s).state = .closed
  blank : ∀ s, p.created ≤ s → p.slot s = {}
  /-- Slots are closed only when the pool is closed or taken down. -/
  shut : ∀ s, (p.slot s).state = .closed → p.closed = true ∨ torn = true

namespace Places

variable {p q : Pool} {torn : Bool} {S : Multiset Holding} {x y : Holding}

theorem slot_of_modify {i : Nat} {f : Slot → Slot} (inside : i < p.slots.length)
    (slots : q.slots = p.slots.modify i f) (s : Nat) :
    q.slot s = if s = i then f (p.slot i) else p.slot s := by
  unfold Pool.slot
  rw [List.getD_eq_getElem?_getD, List.getD_eq_getElem?_getD, slots, List.getElem?_modify]
  by_cases same : i = s
  · subst same
    simp [List.getElem?_eq_getElem inside]
  · simp [same, Ne.symm same]

theorem exchange {f : Slot → Slot} (before : Places p torn ({x} + S)) (slot : y.slot = x.slot)
    (slots : q.slots = p.slots.modify x.slot f) (state : (f (p.slot x.slot)).state = y.state)
    (config : q.config = p.config) (created : q.created = p.created)
    (closed : q.closed = p.closed)
    (mayClose : y.state = .closed → p.closed = true ∨ torn = true) :
    Places q torn ({y} + S) := by
  have used : x.slot < p.created := (before.agree x (by simp)).1
  have inside : x.slot < p.slots.length := used.trans_le before.bound
  have look := slot_of_modify inside slots
  -- Nobody else answers for the slot that changes.
  have others : ∀ z ∈ S, z.slot ≠ x.slot := by
    intro z member same
    have nodup := before.apart
    rw [Multiset.map_add, Multiset.map_singleton, Multiset.singleton_add,
      Multiset.nodup_cons] at nodup
    exact nodup.1 (Multiset.mem_map.2 ⟨z, member, same⟩)
  constructor
  case size =>
    rw [slots, List.length_modify, config]
    exact before.size
  case bound =>
    rw [slots, List.length_modify, created]
    exact before.bound
  case agree =>
    intro z member
    rw [created, look]
    obtain here | there := Multiset.mem_add.1 member
    · obtain rfl := Multiset.mem_singleton.1 here
      rw [slot, if_pos rfl]
      exact ⟨used, state⟩
    · rw [if_neg (others z there)]
      exact before.agree z (Multiset.mem_add.2 (.inr there))
  case apart => simpa [slot] using before.apart
  case covered =>
    intro s filled
    rw [created] at filled
    rw [look]
    by_cases same : s = x.slot
    · exact .inl (by simp [slot, same])
    · rw [if_neg same]
      refine (before.covered s filled).imp_left fun member => ?_
      simpa [same, slot] using member
  case blank =>
    intro s unfilled
    rw [created] at unfilled
    rw [look, if_neg (by omega)]
    exact before.blank s unfilled
  case shut =>
    intro s shut
    rw [look] at shut
    rw [closed]
    by_cases same : s = x.slot
    · rw [if_pos same, state] at shut
      exact mayClose shut
    · rw [if_neg same] at shut
      exact before.shut s shut

theorem frame {torn' : Bool} (before : Places p torn S) (slots : q.slots = p.slots)
    (config : q.config = p.config) (created : q.created = p.created)
    (closed : p.closed = true → q.closed = true) (later : torn = true → torn' = true) :
    Places q torn' S := by
  have look : ∀ s, q.slot s = p.slot s := fun s => by rw [Pool.slot, Pool.slot, slots]
  constructor
  case size =>
    rw [slots, config]
    exact before.size
  case bound =>
    rw [slots, created]
    exact before.bound
  case agree => simpa only [look, created] using before.agree
  case apart => exact before.apart
  case covered => simpa only [look, created] using before.covered
  case blank => simpa only [look, created] using before.blank
  case shut =>
    intro s shut
    exact (before.shut s (look s ▸ shut)).imp closed later

theorem frameLine (before : Places p torn S) (same : p.SameStock q) : Places q torn S :=
  before.frame same.slots same.config same.created same.closed.trans id

theorem leave (before : Places p torn ({x} + S)) (closed : x.state = .closed) :
    Places p torn S := by
  have agree := before.agree x (by simp)
  constructor
  case size => exact before.size
  case bound => exact before.bound
  case agree => exact fun z member => before.agree z (Multiset.mem_add.2 (.inr member))
  case apart =>
    have nodup := before.apart
    rw [Multiset.map_add] at nodup
    exact (Multiset.nodup_add.1 nodup).2.1
  case covered =>
    intro s filled
    refine (before.covered s filled).elim (fun member => ?_) .inr
    by_cases same : s = x.slot
    · exact .inr (same ▸ agree.2.trans closed)
    · exact .inl (by simpa [same] using member)
  case blank => exact before.blank
  case shut => exact before.shut

theorem enter {f : Slot → Slot} (before : Places p torn S) (room : p.created < p.slots.length)
    (slot : y.slot = p.created) (slots : q.slots = p.slots.modify p.created f)
    (state : (f (p.slot p.created)).state = y.state) (config : q.config = p.config)
    (created : q.created = p.created + 1) (closed : q.closed = p.closed)
    (alive : y.state ≠ .closed) : Places q torn ({y} + S) := by
  have look := slot_of_modify room slots
  constructor
  case size =>
    rw [slots, List.length_modify, config]
    exact before.size
  case bound =>
    rw [slots, List.length_modify, created]
    exact room
  case agree =>
    intro z member
    rw [created, look]
    obtain here | there := Multiset.mem_add.1 member
    · obtain rfl := Multiset.mem_singleton.1 here
      rw [slot, if_pos rfl]
      exact ⟨Nat.lt_succ_self _, state⟩
    · obtain ⟨filled, agree⟩ := before.agree z there
      rw [if_neg (Nat.ne_of_lt filled)]
      exact ⟨filled.trans (Nat.lt_succ_self _), agree⟩
  case apart =>
    rw [Multiset.map_add, Multiset.map_singleton, Multiset.singleton_add, Multiset.nodup_cons]
    refine ⟨fun member => ?_, before.apart⟩
    obtain ⟨z, there, same⟩ := Multiset.mem_map.1 member
    have := (before.agree z there).1
    omega
  case covered =>
    intro s filled
    rw [look]
    by_cases same : s = p.created
    · exact .inl (by simp [slot, same])
    · rw [if_neg same]
      refine (before.covered s (by omega)).imp_left fun member => ?_
      rw [Multiset.map_add]
      exact Multiset.mem_add.2 (.inr member)
  case blank =>
    intro s unfilled
    rw [look, if_neg (by omega)]
    exact before.blank s (by omega)
  case shut =>
    intro s shut
    rw [look] at shut
    rw [closed]
    by_cases same : s = p.created
    · rw [if_pos same, state] at shut
      exact absurd shut alive
    · rw [if_neg same] at shut
      exact before.shut s shut

end Places

/-- The whereabouts of the resources made. -/
structure Accounts (S : Multiset Holding) (made : Nat) (h : History) : Prop where
  ids : S.filterMap Holding.id? + h.closings + h.detachments = Multiset.range made
  creations : h.creations.map Prod.fst = (List.range made).reverse
  /-- The factory made each resource for the slot it is in. -/
  origin : ∀ x ∈ S, ∀ r, x.resource = some r → r.slot = x.slot ∧ (r.id, x.slot) ∈ h.creations

namespace Accounts

variable {S T : Multiset Holding} {made : Nat} {h h' : History}

theorem keep (before : Accounts S made h) (creations : h'.creations = h.creations)
    (ids : T.filterMap Holding.id? + h'.closings + h'.detachments =
      S.filterMap Holding.id? + h.closings + h.detachments)
    (origin : ∀ y ∈ T, ∀ r, y.resource = some r → ∃ x ∈ S, ∃ r₀, x.resource = some r₀ ∧
      r.id = r₀.id ∧ r.slot = r₀.slot ∧ y.slot = x.slot) : Accounts T made h' := by
  refine ⟨ids.trans before.ids, creations ▸ before.creations, fun y member r found => ?_⟩
  obtain ⟨x, member₀, r₀, found₀, id, slot, place⟩ := origin y member r found
  rw [creations, id, slot, place]
  exact before.origin x member₀ r₀ found₀

theorem create (before : Accounts S made h) (slot : Nat)
    (ids : T.filterMap Holding.id? = {made} + S.filterMap Holding.id?)
    (origin : ∀ y ∈ T, y ∈ S ∨ y = Item.stored ⟨slot, { id := made, slot }⟩) :
    Accounts T (made + 1) (.created made slot :: h) := by
  refine ⟨?_, ?_, fun y member r found => ?_⟩
  · have same := congrArg ({made} + ·) before.ids
    simp only [History.closings_cons, History.detachments_cons, ids, Deed.closing?,
      Deed.detachment?, Option.toList_none, List.nil_append, Multiset.range_succ] at same ⊢
    rw [← Multiset.singleton_add, ← same]
    abel
  · simp [List.range_succ, before.creations]
  · simp only [History.creations_cons, Deed.creation?, Option.toList_some, List.singleton_append]
    obtain there | rfl := origin y member
    · obtain ⟨place, made⟩ := before.origin y there r found
      exact ⟨place, List.mem_cons_of_mem _ made⟩
    · obtain rfl : _ = r := Option.some.inj found
      exact ⟨rfl, List.mem_cons_self ..⟩

theorem frame (before : Accounts S made h) (creations : h'.creations = h.creations)
    (closings : h'.closings = h.closings) (detachments : h'.detachments = h.detachments) :
    Accounts S made h' :=
  before.keep creations (by rw [closings, detachments])
    fun y member r found => ⟨y, member, r, found, rfl, rfl, rfl⟩

theorem exchange {x y : Holding} (before : Accounts ({x} + S) made h)
    (slot : y.slot = x.slot) (resource : y.resource = x.resource) :
    Accounts ({y} + S) made h := by
  refine before.keep rfl ?_ fun z member r found => ?_
  · simp [Holding.id?, resource]
  · obtain here | there := Multiset.mem_add.1 member
    · obtain rfl := Multiset.mem_singleton.1 here
      exact ⟨x, by simp, r, resource ▸ found, rfl, rfl, slot⟩
    · exact ⟨z, Multiset.mem_add.2 (.inr there), r, found, rfl, rfl, rfl⟩

theorem lose {x : Holding} {r : Resource} (before : Accounts ({x} + S) made h)
    (resource : x.resource = some r) (creations : h'.creations = h.creations)
    (gone : (h'.closings + h'.detachments : Multiset Nat) =
      {r.id} + (h.closings + h.detachments)) : Accounts S made h' := by
  refine before.keep creations ?_ fun y member r found =>
    ⟨y, Multiset.mem_add.2 (.inr member), r, found, rfl, rfl, rfl⟩
  rw [add_assoc, gone]
  simp only [Multiset.filterMap_add, filterMap_singleton, Holding.id?, resource, Option.map_some,
    Option.elim_some]
  abel

theorem close {x : Holding} {r : Resource} (before : Accounts ({x} + S) made h)
    (resource : x.resource = some r) : Accounts S made (.closing r.id :: h) := by
  refine before.lose resource (by simp) ?_
  simp only [History.closings_cons, History.detachments_cons, Deed.closing?, Deed.detachment?,
    Option.toList_none, Option.toList_some, List.nil_append, List.singleton_append, coe_cons]
  abel

theorem detach {x : Holding} {r : Resource} (before : Accounts ({x} + S) made h)
    (resource : x.resource = some r) : Accounts S made (.detached r.id :: h) := by
  refine before.lose resource (by simp) ?_
  simp only [History.closings_cons, History.detachments_cons, Deed.closing?, Deed.detachment?,
    Option.toList_none, Option.toList_some, List.nil_append, List.singleton_append, coe_cons]
  abel

theorem empty {y : Holding} (before : Accounts S made h) (none : y.resource = none) :
    Accounts ({y} + S) made h := by
  refine before.keep rfl (by simp [Holding.id?, none]) fun z member r found => ?_
  obtain here | there := Multiset.mem_add.1 member
  · obtain rfl := Multiset.mem_singleton.1 here
    simp [none] at found
  · exact ⟨z, there, r, found, rfl, rfl, rfl⟩

end Accounts

namespace Move

variable {gone : Prop} {b c : Books}

theorem closed (move : Move gone b c) (before : b.pool.closed = true) : c.pool.closed = true := by
  cases move with
  | withdraw _ _ pending => exact (Pool.cancel?_sameStock pending).closed.trans before
  | hangUp => exact (Pool.hangUp_sameStock ..).closed.trans before
  | see _ found => exact (Pool.sameStock_of_received found).1.closed.trans before
  | send | sendError => exact (Pool.complete_sameStock ..).closed.trans before
  | choose picked | miss picked => exact (Pool.pick_sameStock picked).closed.trans before
  | reserve _ reserved => exact (Pool.reserve?_sameLine reserved).closed.trans before
  | unreserve => exact (Pool.unreserve_sameLine ..).closed.trans before
  | create => exact (Pool.occupy_sameLine ..).closed.trans before
  | lend _ lent => exact (Pool.lend?_sameLine lent).closed.trans before
  | takeBack _ taken => exact (Pool.takeBack?_sameLine taken).closed.trans before
  | pop popped => exact (Pool.popReturned?_sameLine popped).closed.trans before
  | dismissAll => exact (Pool.dismissAll_sameStock _).closed.trans before
  | close => rfl
  | _ => exact before

theorem torn (move : Move gone b c) (before : b.torn = true) : c.torn = true := by
  cases move <;> first | exact before | rfl

/-- Who closes resources has a reason to. -/
theorem duty (move : Move gone b c)
    (before : MayClose b.assets → b.pool.closed = true ∨ b.torn = true)
    (mayClose : MayClose c.assets) : c.pool.closed = true ∨ c.torn = true := by
  -- Unless somebody comes to hold a duty, the old reason stands.
  have again (same : MayClose b.assets) : c.pool.closed = true ∨ c.torn = true :=
    (before same).imp move.closed move.torn
  cases move with
  | takeDuty closed => exact .inl closed
  | close => exact .inl rfl
  | tearDown => exact .inr rfl
  | hangUp held | send held | see held =>
      refine again ?_
      revert mayClose
      simp only [held]
      split <;> simp [MayClose]
  | trigger held | again held =>
      refine again ?_
      revert mayClose
      simp only [held]
      split <;> simp [MayClose]
  | _ =>
      refine again ?_
      simp_all [MayClose]

end Move

/-- A slot that is about to be filled for the first time is the next one. -/
def Fresh (b : Books) : Prop :=
  ∀ n s, (n, .filling (.fresh s)) ∈ matchings b.assets →
    s = b.pool.created ∧ s < b.pool.slots.length

theorem Fresh.frame {b c : Books} (before : Fresh b) (created : c.pool.created = b.pool.created)
    (slots : c.pool.slots.length = b.pool.slots.length)
    (others : ∀ x ∈ matchings c.assets, x.2 ≠ .seeking → x.2 ≠ .over → x ∈ matchings b.assets) :
    Fresh c := by
  intro n s inside
  rw [created, slots]
  exact before n s (others _ inside (by simp) (by simp))

theorem Fresh.frameLine {b c : Books} (before : Fresh b) (same : b.pool.SameStock c.pool)
    (others : matchings c.assets = matchings b.assets) : Fresh c :=
  before.frame same.created (by rw [same.slots]) (by simp +contextual [others])

theorem Fresh.frameAssets {b c : Books} (before : Fresh b) (same : c.pool = b.pool)
    (others : ∀ x ∈ matchings c.assets, x.2 ≠ .seeking → x.2 ≠ .over → x ∈ matchings b.assets) :
    Fresh c :=
  before.frame (by rw [same]) (by rw [same]) others

namespace Move

variable {gone : Prop} {b c : Books}

theorem fresh (move : Move gone b c) (matching : Matching b.pool b.assets) (before : Fresh b) :
    Fresh c := by
  cases move with
  | enroll => exact before.frameLine (Pool.enroll_sameStock _) (by simp)
  | turnAway => exact before.frameLine (Pool.turnAway_sameStock _) (by simp)
  | withdraw held _ pending =>
      exact before.frameLine (Pool.cancel?_sameStock pending) (by simp [held])
  | hangUp held =>
      refine before.frameLine (Pool.hangUp_sameStock ..) ?_
      simp only [held]
      split <;> simp
  | see held found =>
      refine before.frameLine (Pool.sameStock_of_received found).1 ?_
      simp only [held]
      split <;> simp
  | send held =>
      refine before.frameLine (Pool.complete_sameStock ..) ?_
      simp only [held]
      split <;> simp
  | sendError held =>
      exact before.frameLine (Pool.complete_sameStock ..) (by simp [held])
  | abandon held => exact before.frameLine (Pool.modifyWaiter_sameStock ..) (by simp [held])
  | choose picked => exact before.frameLine (Pool.pick_sameStock picked) (by simp)
  | miss picked => exact before.frameLine (Pool.pick_sameStock picked) rfl
  | dismissAll => exact before.frameLine (Pool.dismissAll_sameStock _) rfl
  | trigger held =>
      refine before.frame rfl rfl ?_
      simp only [held]
      split <;> simp +contextual
  | again held =>
      refine before.frame rfl rfl ?_
      simp only [held]
      split <;> simp +contextual
  | reserve held reserved =>
      obtain ⟨_, _, _, rfl, rfl⟩ | ⟨_, room, rfl, rfl⟩ := Pool.reserve?_eq_some reserved
      · obtain ⟨_, _, others⟩ := (held ▸ matching).alone
        intro n s inside
        simp [others] at inside
      · obtain ⟨_, _, others⟩ := (held ▸ matching).alone
        intro n s inside
        obtain ⟨rfl, rfl⟩ : n = _ ∧ s = b.pool.created := by simpa [others] using inside
        exact ⟨rfl, room⟩
  | unreserve held | create held =>
      obtain ⟨_, _, others⟩ := (held ▸ matching).alone
      intro n s inside
      simp [others] at inside
  | lend held lent =>
      obtain ⟨_, rfl⟩ := Pool.lend?_eq_some lent
      exact before.frame rfl (List.length_modify ..) (by simp +contextual [held])
  | takeBack held taken =>
      obtain ⟨_, rfl⟩ := Pool.takeBack?_eq_some taken
      exact before.frame rfl (List.length_modify ..) (by simp +contextual [held])
  | pop popped =>
      obtain ⟨_, _, rfl⟩ := Pool.popReturned?_eq_some popped
      exact before.frame rfl rfl (by simp +contextual)
  | vacate held | detach held | shut held =>
      exact before.frame rfl (List.length_modify ..) (by simp +contextual [held])
  | queue held | close => exact before.frame rfl rfl (by simp_all)
  | _ => exact before.frameAssets rfl (by simp_all +contextual)

end Move

/-- Each slot is in one place, and each resource is accounted for. -/
structure Balanced (b : Books) : Prop where
  places : Places b.pool b.torn b.stock
  accounts : Accounts b.stock b.made b.history

namespace Balanced

variable {b c : Books}

theorem frameLine (before : Balanced b) (same : b.pool.SameStock c.pool)
    (stock : c.stock = b.stock) (torn : c.torn = b.torn) (made : c.made = b.made)
    (creations : c.history.creations = b.history.creations)
    (closings : c.history.closings = b.history.closings)
    (detachments : c.history.detachments = b.history.detachments) : Balanced c := by
  refine ⟨?_, ?_⟩
  · rw [stock, torn]
    exact before.places.frameLine same
  · rw [stock, made]
    exact before.accounts.frame creations closings detachments

theorem frameStock (before : Balanced b) (slots : c.pool.slots = b.pool.slots)
    (config : c.pool.config = b.pool.config) (created : c.pool.created = b.pool.created)
    (closed : b.pool.closed = true → c.pool.closed = true)
    (torn : b.torn = true → c.torn = true) (stock : c.stock = b.stock)
    (made : c.made = b.made) (history : c.history = b.history) : Balanced c := by
  refine ⟨?_, ?_⟩
  · rw [stock]
    exact before.places.frame slots config created closed torn
  · rw [stock, made, history]
    exact before.accounts

theorem exchange {x y : Holding} {S : Multiset Holding} {f : Slot → Slot} (before : Balanced b)
    (old : b.stock = {x} + S) (new : c.stock = {y} + S) (slot : y.slot = x.slot)
    (slots : c.pool.slots = b.pool.slots.modify x.slot f)
    (state : (f (b.pool.slot x.slot)).state = y.state)
    (others : c.pool.config = b.pool.config ∧ c.pool.created = b.pool.created ∧
      c.pool.closed = b.pool.closed ∧ c.torn = b.torn)
    (mayClose : y.state = .closed → b.pool.closed = true ∨ b.torn = true)
    (accounts : Accounts ({x} + S) b.made b.history → Accounts ({y} + S) c.made c.history) :
    Balanced c := by
  obtain ⟨config, created, closed, torn⟩ := others
  refine ⟨?_, ?_⟩
  · rw [new, torn]
    exact (old ▸ before.places).exchange slot slots state config created closed mayClose
  · rw [new]
    exact accounts (old ▸ before.accounts)

theorem enter {y : Holding} {f : Slot → Slot} (before : Balanced b)
    (new : c.stock = {y} + b.stock) (room : b.pool.created < b.pool.slots.length)
    (slot : y.slot = b.pool.created) (slots : c.pool.slots = b.pool.slots.modify b.pool.created f)
    (state : (f (b.pool.slot b.pool.created)).state = y.state)
    (created : c.pool.created = b.pool.created + 1)
    (others : c.pool.config = b.pool.config ∧ c.pool.closed = b.pool.closed ∧ c.torn = b.torn)
    (alive : y.state ≠ .closed)
    (accounts : Accounts b.stock b.made b.history → Accounts ({y} + b.stock) c.made c.history) :
    Balanced c := by
  obtain ⟨config, closed, torn⟩ := others
  refine ⟨?_, ?_⟩
  · rw [new, torn]
    exact before.places.enter room slot slots state config created closed alive
  · rw [new]
    exact accounts before.accounts

end Balanced

namespace Move

variable {gone : Prop} {b c : Books}

theorem balanced (move : Move gone b c) (standings : Standings b.pool b.ties) (fresh : Fresh b)
    (duty : MayClose b.assets → b.pool.closed = true ∨ b.torn = true) (before : Balanced b) :
    Balanced c := by
  cases move with
  | enroll =>
      exact before.frameLine b.pool.enroll_sameStock (b.stock_enroll _) rfl rfl rfl rfl rfl
  | turnAway =>
      exact before.frameLine b.pool.turnAway_sameStock (b.stock_turnAway _) rfl rfl (by simp)
        (by simp) (by simp)
  | withdraw held _ pending =>
      exact before.frameLine (Pool.cancel?_sameStock pending)
        (Books.stock_withdraw standings held pending) rfl rfl (by simp) (by simp) (by simp)
  | @hangUp w A held =>
      exact before.frameLine (b.pool.hangUp_sameStock w) (Books.stock_hangUp held) rfl rfl rfl rfl
        rfl
  | @see a o p A held found =>
      refine before.frameLine (Pool.sameStock_of_received found).1 ?_ rfl rfl (by simp) (by simp)
        (by simp)
      cases o <;> exact Books.stock_see held found
  | forgo held => exact before.frameLine (.refl _) (by simp [Books.stock, held]) rfl rfl rfl rfl rfl
  | foretell held =>
      exact before.frameLine (.refl _) (by simp [Books.stock, held]) rfl rfl (by simp) (by simp)
        (by simp)
  | @send w f c i A held =>
      exact before.frameLine (b.pool.complete_sameStock w (.ok i)) (Books.stock_send standings held)
        rfl rfl rfl rfl rfl
  | @sendError w f c e A held =>
      exact before.frameLine (b.pool.complete_sameStock w (.error e))
        (Books.stock_sendError standings held e) rfl rfl rfl rfl rfl
  | @abandon w i A held =>
      exact before.frameLine (b.pool.modifyWaiter_sameStock w Waiter.abandon)
        (Books.stock_abandon standings held) rfl rfl (by simp) (by simp) (by simp)
  | choose picked =>
      refine before.frameLine (Pool.pick_sameStock picked) (.trans ?_ (Books.stock_pick picked)) rfl
        rfl rfl rfl rfl
      simp [Books.stock]
  | miss picked =>
      exact before.frameLine (Pool.pick_sameStock picked) (Books.stock_pick picked) rfl rfl rfl rfl
        rfl
  | dismissAll duty =>
      refine before.frameLine b.pool.dismissAll_sameStock (Books.stock_dismissAll standings) rfl rfl
        ?_ ?_ ?_
      · exact Standings.filterMap_dismissals _ (fun _ => rfl) ..
      · exact Standings.filterMap_dismissals _ (fun _ => rfl) ..
      · exact Standings.filterMap_dismissals _ (fun _ => rfl) ..
  | trigger held => exact before.frameStock rfl rfl rfl id id (Books.stock_trigger held _) rfl rfl
  | again held => exact before.frameStock rfl rfl rfl id id (Books.stock_again held _) rfl rfl
  | rest held => exact before.frameStock rfl rfl rfl id id (by simp [Books.stock, held]) rfl rfl
  | reserve held reserved =>
      have stock := Books.stock_reserve held reserved
      obtain ⟨_, _, _, _, rfl⟩ | ⟨_, _, _, rfl⟩ := Pool.reserve?_eq_some reserved <;>
        exact before.frameStock rfl rfl rfl id id stock rfl rfl
  | @unreserve n r A held =>
      have stock := Books.stock_unreserve held
      cases r <;> exact before.frameStock rfl rfl rfl id id stock rfl rfl
  | @create n r A held =>
      have ids (S : Multiset Holding) (slot : Nat) :
          ({Item.stored ⟨slot, { id := b.made, slot }⟩} + S : Multiset Holding).filterMap
            Holding.id? = {b.made} + S.filterMap Holding.id? := by
        simp [Holding.id?, Item.stored]
      cases r with
      | fresh slot =>
          -- Nobody answered for this slot yet; a vacated one was already answered for.
          obtain ⟨rfl, room⟩ := fresh n slot (by simp [held])
          refine before.enter (y := Item.stored ⟨b.pool.created,
            { id := b.made, slot := b.pool.created }⟩) ?_ room rfl rfl rfl rfl
            ⟨rfl, rfl, rfl⟩ (by simp [Item.stored])
            fun accounts => accounts.create b.pool.created (ids _ _) fun y member => ?_
          · simp [Books.stock, held, Reservation.slot, add_assoc]
          · exact (Multiset.mem_add.1 member).symm.imp_right Multiset.mem_singleton.1
      | vacated slot =>
          refine before.exchange (x := .free slot)
            (y := Item.stored ⟨slot, { id := b.made, slot }⟩)
            (S := holdings A + b.pool.holdings) ?_ ?_ rfl rfl rfl ⟨rfl, rfl, rfl, rfl⟩
            (by simp [Item.stored])
            fun accounts => accounts.create slot ?_ fun y member => ?_
          · simp [Books.stock, held, add_assoc]
          · simp [Books.stock, Reservation.slot, add_assoc]
          · simp [ids, Holding.id?, Holding.free]
          · refine (Multiset.mem_add.1 member).symm.imp (fun there => ?_) Multiset.mem_singleton.1
            exact Multiset.mem_add.2 (.inr there)
  | @lend i p A held lent =>
      obtain ⟨idle, rfl⟩ := Pool.lend?_eq_some lent
      refine before.exchange (x := i.stored) (y := i.lent) (S := holdings A + b.pool.holdings)
        ?_ ?_ rfl rfl rfl ⟨rfl, rfl, rfl, rfl⟩ (by simp [Item.lent]) (·.exchange rfl rfl)
      · simp [Books.stock, held, add_assoc]
      · simp [Books.stock, add_assoc]
  | @lendMisfit i A held misfit =>
      -- The slot of an idle resource is idle, so it can be lent.
      have idle := (before.places.agree i.stored (by simp [Books.stock, held])).2
      simp [Pool.lend?, Slot.checkout?, Slot.transition?, Item.stored] at idle misfit
      exact absurd idle misfit
  | @takeBack i p A held taken =>
      obtain ⟨lent, rfl⟩ := Pool.takeBack?_eq_some taken
      refine before.exchange (x := i.lent) (y := i.stored) (S := holdings A + b.pool.holdings)
        ?_ ?_ rfl rfl rfl ⟨rfl, rfl, rfl, rfl⟩ (by simp [Item.stored]) (·.exchange rfl rfl)
      · simp [Books.stock, held, add_assoc]
      · simp [Books.stock, add_assoc]
  | @takeBackMisfit i A held misfit =>
      have lent := (before.places.agree i.lent (by simp [Books.stock, held])).2
      simp [Pool.takeBack?, Slot.checkin?, Slot.transition?, Item.lent] at lent misfit
      exact absurd lent misfit
  | queue held => exact before.frameStock rfl rfl rfl id id (Books.stock_queue held) rfl rfl
  | pop popped =>
      have stock := Books.stock_pop popped
      obtain ⟨_, _, rfl⟩ := Pool.popReturned?_eq_some popped
      exact before.frameStock rfl rfl rfl id id stock rfl rfl
  | @spend i A held =>
      refine before.exchange (f := id) (x := i.stored) (y := .spent i.slot)
        (S := holdings A + b.pool.holdings) ?_ ?_ rfl (by simp) ?_ ⟨rfl, rfl, rfl, rfl⟩
        (by simp [Holding.spent])
        fun accounts => (accounts.close (r := i.resource) rfl).empty rfl
      · simp [Books.stock, held, add_assoc]
      · simp [Books.stock, add_assoc]
      · exact (before.places.agree i.stored (by simp [Books.stock, held])).2
  | @vacate slot A held noticed =>
      refine before.exchange (x := .spent slot) (y := .free slot)
        (S := holdings A + b.pool.holdings)
        ?_ ?_ rfl rfl rfl ⟨rfl, rfl, rfl, rfl⟩ (by simp [Holding.free]) (·.exchange rfl rfl)
      · simp [Books.stock, held, add_assoc]
      · simp [Books.stock, add_left_comm]
  | @detach i A held noticed =>
      refine before.exchange (x := i.lent) (y := .free i.slot)
        (S := holdings A + b.pool.holdings) ?_ ?_ rfl rfl rfl ⟨rfl, rfl, rfl, rfl⟩
        (by simp [Holding.free])
        fun accounts => (accounts.detach (r := i.resource) rfl).empty rfl
      · simp [Books.stock, held, add_assoc]
      · simp [Books.stock, add_left_comm]
  | @shut i A held mayClose =>
      refine before.exchange (x := i.stored) (y := i.ousted) (S := holdings A + b.pool.holdings)
        ?_ ?_ rfl rfl rfl ⟨rfl, rfl, rfl, rfl⟩ (fun _ => duty ?_) (·.exchange rfl rfl)
      · simp [Books.stock, held, add_assoc]
      · simp [Books.stock, add_assoc]
      · simpa [MayClose, held] using mayClose
  | @oust i A held =>
      have old : b.stock = {i.ousted} + (holdings A + b.pool.holdings) := by
        simp [Books.stock, held, add_assoc]
      exact ⟨(old ▸ before.places).leave rfl, (old ▸ before.accounts).close rfl⟩
  | @execute i statement n r A held executed =>
      obtain ⟨same, place⟩ : r.id = i.resource.id ∧ r.slot = i.resource.slot := by
        unfold Resource.execute at executed
        split at executed
        · simp at executed
        · obtain ⟨-, rfl⟩ := Prod.mk.inj (Except.ok.inj executed)
          exact ⟨rfl, rfl⟩
      refine before.exchange (f := id) (x := i.lent) (y := Item.lent { i with resource := r })
        (S := holdings A + b.pool.holdings) ?_ ?_ rfl (by simp) ?_ ⟨rfl, rfl, rfl, rfl⟩
        (by simp [Item.lent]) fun accounts => accounts.keep (by simp) ?_ fun z member r' found => ?_
      · simp [Books.stock, held, add_assoc]
      · simp [Books.stock, add_assoc]
      · exact (before.places.agree i.lent (by simp [Books.stock, held])).2
      · simp [Holding.id?, Item.lent, same]
      · obtain here | there := Multiset.mem_add.1 member
        · obtain rfl := Multiset.mem_singleton.1 here
          obtain rfl : r = r' := Option.some.inj found
          exact ⟨i.lent, by simp, i.resource, rfl, same, place, rfl⟩
        · exact ⟨z, Multiset.mem_add.2 (.inr there), r', found, rfl, rfl, rfl⟩
  | close =>
      refine before.frameStock rfl rfl rfl (fun _ => rfl) id ?_ rfl rfl
      simp [Books.stock]
      rfl
  | callTrigger | takeDuty =>
      exact before.frameStock rfl rfl rfl id id (by simp [Books.stock]) rfl rfl
  | tearDown =>
      exact before.frameStock rfl rfl rfl id (fun _ => rfl) (by simp [Books.stock]) rfl rfl
  | leaveDuty held | finishTearDown held =>
      exact before.frameStock rfl rfl rfl id id (by simp [Books.stock, held]) rfl rfl

end Move
end ResourcePool
