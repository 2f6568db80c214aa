import ResourcePool.Proofs.Mirror
import ResourcePool.Proofs.Settlement

/-!
Queued deliveries in any order. No two of them have a waiter or a slot in common, so what each of
them changes stays as it leaves it. Whether a resource passes the check of a closed pool may depend
on the calls that came before, and with it whether its slot is closed or free again; nothing else
depends on the order. A program that asks for the deliveries one by one brings about any of the
orders.
-/

namespace ResourcePool

section Modify

variable {α β : Type} {key : β → Nat} {f : β → α → α} {l : List β}

/-- Where nothing is modified, everything stays. -/
theorem getElem?_foldl_modify_of_ne {i : Nat} (others : ∀ b ∈ l, key b ≠ i) (as : List α) :
    (l.foldl (fun as b => as.modify (key b) (f b)) as)[i]? = as[i]? := by
  induction l generalizing as with
  | nil => rfl
  | cons b l ih =>
      rw [List.foldl_cons, ih fun c member => others c (List.mem_cons_of_mem b member),
        List.getElem?_modify_ne _ _ (others b (List.mem_cons_self ..))]

/-- What is modified once stays as it is left. -/
theorem getElem?_foldl_modify_of_mem (distinct : (l.map key).Nodup) {b : β} (member : b ∈ l)
    (as : List α) : (l.foldl (fun as b => as.modify (key b) (f b)) as)[key b]? =
      as[key b]?.map (f b) := by
  induction l generalizing as with
  | nil => cases member
  | cons c l ih =>
      rw [List.map_cons, List.nodup_cons] at distinct
      have apart : ∀ d ∈ l, key d ≠ key c := fun d later same =>
        distinct.1 (same ▸ List.mem_map_of_mem later)
      rw [List.foldl_cons]
      obtain rfl | later := List.mem_cons.1 member
      · rw [getElem?_foldl_modify_of_ne apart, List.getElem?_modify_eq]
        rfl
      · rw [ih distinct.2 later, List.getElem?_modify_ne _ _ (apart b later).symm]

section TwoOrders

variable {τ : Type} {k : List β} {tag : β → τ} {place : τ → Nat}
variable (same : (l.map tag).Perm (k.map tag)) (distinct : ((l.map tag).map place).Nodup)
include same distinct

/-- Two ways to modify the same places once, in any order, which leave what looks the same. -/
theorem map_foldl_modify_perm {γ : Type} (g : α → γ)
    (alike : ∀ b c, tag b = tag c → ∀ a, g (f b a) = g (f c a)) (as : List α) :
    (l.foldl (fun as b => as.modify (place (tag b)) (f b)) as).map g =
      (k.foldl (fun as b => as.modify (place (tag b)) (f b)) as).map g := by
  have once : (l.map fun b => place (tag b)).Nodup := by
    rwa [List.map_map] at distinct
  have once' : (k.map fun b => place (tag b)).Nodup := by
    rwa [(same.map place).nodup_iff, List.map_map] at distinct
  refine List.ext_getElem? fun i => ?_
  rw [List.getElem?_map, List.getElem?_map]
  by_cases here : ∃ b ∈ l, place (tag b) = i
  · obtain ⟨b, member, rfl⟩ := here
    obtain ⟨c, there, tags⟩ := List.mem_map.1 (same.subset (List.mem_map_of_mem member))
    have left := getElem?_foldl_modify_of_mem (f := f) once member as
    have right := getElem?_foldl_modify_of_mem (f := f) once' there as
    rw [tags] at right
    rw [left, right]
    cases as[place (tag b)]? with
    | none => rfl
    | some a => exact congrArg some (alike b c tags.symm a)
  · have nowhere : ∀ c ∈ k, place (tag c) ≠ i := fun c there found => by
      obtain ⟨b, member, tags⟩ := List.mem_map.1 (same.symm.subset (List.mem_map_of_mem there))
      exact here ⟨b, member, tags ▸ found⟩
    rw [getElem?_foldl_modify_of_ne fun b member found => here ⟨b, member, found⟩,
      getElem?_foldl_modify_of_ne nowhere]

theorem foldl_modify_perm (alike : ∀ b c, tag b = tag c → f b = f c) (as : List α) :
    l.foldl (fun as b => as.modify (place (tag b)) (f b)) as =
      k.foldl (fun as b => as.modify (place (tag b)) (f b)) as := by
  simpa using map_foldl_modify_perm same distinct id
    (fun b c tags a => congrFun (alike b c tags) a) as

end TwoOrders

end Modify

/-- The slot to somebody who does not ask whether an empty slot may be filled again. -/
def Slot.coarse (s : Slot) : Slot :=
  if s.state = .closed then s.replace .uninitialized else s

theorem Slot.isBusy_coarse (s : Slot) : s.coarse.state.isBusy = s.state.isBusy := by
  unfold coarse
  split
  · next shut =>
      rw [shut]
      rfl
  · rfl

theorem Settlement.coarse_left (d : Settlement) (s : Slot) :
    (s.replace d.left).coarse = s.replace .uninitialized := by
  unfold left
  cases d.fit <;> rfl

namespace Pool

variable {p : Pool} {ds es : List Settlement}

theorem foldl_settled (ds : List Settlement) (p : Pool) : ds.foldl settled p = { p with
    waiters := ds.foldl (fun ws d => ws.modify d.task.waiter fun x =>
      { x with line := .sent (d.task.outcome p.closed) }) p.waiters
    slots := if p.closed then
        ds.foldl (fun ss d => ss.modify d.task.slot fun s => s.replace d.left) p.slots
      else p.slots
    vacated := if p.closed then p.vacated ++ ds.flatMap Settlement.freed else p.vacated } := by
  induction ds generalizing p with
  | nil => simp
  | cons d ds ih =>
      rw [List.foldl_cons, ih, settled_eq]
      cases closed : p.closed <;> simp

section TwoOrders

variable (same : (ds.map Settlement.task).Perm (es.map Settlement.task))
include same

/-- What waiters find does not depend on the order. -/
theorem waiters_foldl_settled (waiters : ((ds.map Settlement.task).map Task.waiter).Nodup) :
    (ds.foldl settled p).waiters = (es.foldl settled p).waiters := by
  rw [foldl_settled, foldl_settled]
  exact foldl_modify_perm same waiters (fun d d' tasks => by rw [tasks]) p.waiters

/-- What a slot held is gone from it in any order. -/
theorem coarse_foldl_settled (slots : ((ds.map Settlement.task).map Task.slot).Nodup) :
    (ds.foldl settled p).slots.map Slot.coarse = (es.foldl settled p).slots.map Slot.coarse := by
  rw [foldl_settled, foldl_settled]
  cases p.closed with
  | false => rfl
  | true =>
      exact map_foldl_modify_perm same slots Slot.coarse
        (fun d d' _ s => by rw [d.coarse_left, d'.coarse_left]) p.slots

theorem status_foldl_settled (slots : ((ds.map Settlement.task).map Task.slot).Nodup) :
    (ds.foldl settled p).status = (es.foldl settled p).status := by
  have coarse := coarse_foldl_settled (p := p) same slots
  have busy (q : Pool) : (q.slots.countP fun s => s.state.isBusy) =
      (q.slots.map Slot.coarse).countP fun s => s.state.isBusy := by
    rw [List.countP_map]
    exact List.countP_congr fun s _ => by rw [Function.comp, s.isBusy_coarse]
  have length (q : Pool) : q.slots.length = (q.slots.map Slot.coarse).length :=
    (List.length_map ..).symm
  rw [status, status, busy, busy, length, length, coarse, foldl_settled, foldl_settled]

end TwoOrders

/-- With the same answers to the checks the slots are the same, too. -/
theorem slots_foldl_settled (same : p.closed = true → ds.Perm es)
    (slots : ((ds.map Settlement.task).map Task.slot).Nodup) :
    (ds.foldl settled p).slots = (es.foldl settled p).slots ∧
      (ds.foldl settled p).vacated.Perm (es.foldl settled p).vacated := by
  rw [foldl_settled, foldl_settled]
  cases closed : p.closed with
  | false => exact ⟨rfl, .refl _⟩
  | true =>
      refine ⟨?_, ((same closed).flatMap_right _).append_left _⟩
      have perm : (ds.map id).Perm (es.map id) := (same closed).map id
      have once : ((ds.map id).map fun d => d.task.slot).Nodup := by
        rwa [List.map_map] at slots ⊢
      exact foldl_modify_perm perm once (fun d d' (alike : d = d') => by rw [alike]) p.slots

theorem Quiet.settled (quiet : p.Quiet) (d : Settlement) : (p.settled d).Quiet := by
  rw [settled_eq]
  exact ⟨quiet.returned, quiet.line, quiet.triggers⟩

theorem Awaits.settled {t : Task} {d : Settlement} (awaits : p.Awaits t) (here : p.Awaits d.task)
    (waiter : t.waiter ≠ d.task.waiter) (slot : t.slot ≠ d.task.slot) :
    (p.settled d).Awaits t := by
  obtain ⟨x, found, listening⟩ := awaits.heard
  rw [settled_eq]
  refine ⟨?_, x, (List.getElem?_modify_ne _ _ waiter.symm).trans found, listening⟩
  cases p.closed with
  | false => exact awaits.lent.frame rfl
  | true =>
      refine ⟨(List.length_modify ..).symm ▸ awaits.lent.1, ?_⟩
      rw [Places.slot_of_modify here.lent.1 rfl, if_neg slot]
      exact awaits.lent.2

end Pool

namespace Machine

variable {σ : Type} {e : Environment σ} {P : σ → Prop} {m m' n : Machine σ}
variable {t : Task} {ts : List Task} {l : List (Machine σ)}

/-- The delivery at this place of the queue begins to run; the others stay in the queue. -/
def starts (m : Machine σ) (t : Task) (place : Nat) : Machine σ :=
  { m with tasks := m.tasks.eraseIdx place }.push [.task t]

/-- A program that picks a delivery from the queue starts it, and is told in the end which one it
was. -/
theorem step_runAt {place : Nat} {rest : List Activity}
    (top : m.stack = .perform (.runAt place) :: rest) (manual : m.scheduler.dispatcher = .manual)
    (queued : m.tasks[place]? = some t) : m.step e =
      ({ m with stack := .say (.number t.label) :: rest } : Machine σ).starts t place := by
  rw [step, top]
  simp only [exec, perform, onTask, manual, queued]
  rfl

/-- The queued deliveries run in this order, one after the other, each until nothing is left to be
done. These are the machines on the way, the latest first. -/
inductive RunsOut (e : Environment σ) :
    Machine σ → List Task → List (Machine σ) → Machine σ → Prop
  | done {m : Machine σ} (empty : m.tasks = []) : RunsOut e m [] [] m
  | run {m m' : Machine σ} {t : Task} {ts : List Task} {l : List (Machine σ)} (place k : Nat)
      (queued : m.tasks[place]? = some t)
      (ended : ((m.starts t place).steps e k).stack = [])
      (rest : RunsOut e ((m.starts t place).steps e k) ts l m') :
      RunsOut e m (t :: ts) (l ++ (m.starts t place).trail e k) m'

/-- The queued deliveries may run: their waiters listen, no two of them have a waiter or a slot in
common, and nothing else is left to be done. -/
structure Due (P : σ → Prop) (m : Machine σ) : Prop where
  holds : P m.env
  idle : m.stack = []
  attended : m.tasks ≠ [] → m.Attended
  quiet : m.pool.closed = true → m.pool.Quiet
  awaits : ∀ t ∈ m.tasks, m.pool.Awaits t
  waiters : (m.tasks.map Task.waiter).Nodup
  slots : (m.tasks.map Task.slot).Nodup

theorem perm_eraseIdx {place : Nat} (queued : m.tasks[place]? = some t) :
    m.tasks.Perm (t :: m.tasks.eraseIdx place) := by
  obtain ⟨bound, rfl⟩ := List.getElem?_eq_some_iff.1 queued
  exact (List.getElem_cons_eraseIdx_perm bound).symm

/-- The delivery at this place of the queue ran, and nothing else is left to be done. The others are
still queued. -/
structure DeliversOne (e : Environment σ) (P : σ → Prop) (m : Machine σ) (t : Task) (place : Nat)
    (l : List (Machine σ)) (fit : Bool) (n : Machine σ) : Prop extends Apart m n where
  holds : P n.env
  idle : n.stack = []
  judged : m.Judges e P t.item fit
  pool : n.pool = m.pool.settled ⟨t, fit⟩
  tasks : n.tasks = m.tasks.eraseIdx place
  closings : (history e l).closings = if m.pool.closed then [t.item.resource.id] else []

/-- A delivery runs above what else is to be done. -/
theorem Due.toils (discreet : e.Discreet P) (due : m.Due P) {place : Nat}
    (queued : m.tasks[place]? = some t) (below : List Activity) :
    ∃ l fit n, Toils e P below (({ m with stack := below } : Machine σ).starts t place) l
        (if m.pool.closed then [t.item.resource.id] else []) n ∧
      n.stack = below ∧ n.pool = m.pool.settled ⟨t, fit⟩ ∧ m.Judges e P t.item fit :=
  have here : t ∈ m.tasks := List.mem_of_getElem? queued
  task_settles (m := ({ m with stack := below } : Machine σ).starts t place) discreet due.holds rfl
    (due.attended (List.ne_nil_of_mem here)) (due.awaits t here) due.quiet

/-- One of the deliveries runs. -/
theorem Due.starts (discreet : e.Discreet P) (due : m.Due P) {place : Nat}
    (queued : m.tasks[place]? = some t) : ∃ k fit, DeliversOne e P m t place
      ((m.starts t place).trail e k) fit ((m.starts t place).steps e k) := by
  obtain ⟨l, fit, n, toils, stack, pool, judged⟩ := due.toils discreet queued []
  have same : ({ m with stack := [] } : Machine σ) = m := by rw [← due.idle]
  rw [same] at toils
  obtain ⟨steps, trail⟩ := toils.busy.steps
  refine ⟨l.length, fit, ?_⟩
  rw [steps, trail]
  exact ⟨⟨toils.scheduler, toils.handles, toils.background, toils.paused⟩, toils.holds, stack,
    judged, pool, toils.tasks, toils.closings⟩

/-- One of the deliveries runs for a program that asks for it, and is told in the end which it
was. -/
theorem Due.runAt (discreet : e.Discreet P) (due : m.Due P)
    (manual : m.scheduler.dispatcher = .manual) {place : Nat} (queued : m.tasks[place]? = some t) :
    ∃ l fit n, Busy e [] (m.push [.perform (.runAt place)]) l n ∧
      DeliversOne e P m t place l fit n ∧ n.reply = .number t.label := by
  obtain ⟨l, fit, n, toils, stack, pool, judged⟩ :=
    due.toils discreet queued [.say (.number t.label)]
  have top : (m.push [.perform (.runAt place)]).stack =
      .perform (.runAt place) :: ([] ++ []) := by
    rw [push, due.idle]
    rfl
  have begins : (m.push [.perform (.runAt place)]).step e =
      ({ m with stack := [.say (.number t.label)] } : Machine σ).starts t place :=
    step_runAt top manual queued
  have ends : n.step e = { n with stack := [], reply := .number t.label } := by
    rw [step, stack]
    rfl
  have said : Busy e [] n [n] (n.step e) :=
    .one (show n.stack = .say (.number t.label) :: ([] ++ []) from stack)
  refine ⟨_, fit, n.step e, .trans (.cons top (begins ▸ toils.busy.within)) said, ?_, by rw [ends]⟩
  have first : (m.push [.perform (.runAt place)]).deeds e = [] := by rw [deeds, top]; rfl
  have last : n.deeds e = [] := by rw [deeds, stack]; rfl
  rw [ends]
  refine ⟨⟨toils.scheduler, toils.handles, toils.background, toils.paused⟩, toils.holds, rfl,
    judged, pool, toils.tasks, ?_⟩
  simpa [history_append, first, last] using toils.closings

namespace DeliversOne

variable {place : Nat} {fit : Bool}

/-- The others may still run. -/
theorem due (one : DeliversOne e P m t place l fit n) (due : m.Due P)
    (queued : m.tasks[place]? = some t) : n.Due P := by
  have perm : m.tasks.Perm (t :: m.tasks.eraseIdx place) := perm_eraseIdx queued
  have here : t ∈ m.tasks := perm.symm.subset (List.mem_cons_self ..)
  have waiters := (perm.map Task.waiter).nodup_iff.1 due.waiters
  have slots := (perm.map Task.slot).nodup_iff.1 due.slots
  rw [List.map_cons, List.nodup_cons] at waiters slots
  refine ⟨one.holds, one.idle, fun _ => one.toApart.attended
    (due.attended (List.ne_nil_of_mem here)), fun closed => ?_, fun u member => ?_, ?_, ?_⟩
  · rw [one.pool] at closed ⊢
    refine (due.quiet ?_).settled _
    rwa [Pool.settled_eq] at closed
  · rw [one.pool]
    rw [one.tasks] at member
    exact (due.awaits u (perm.symm.subset (List.mem_cons_of_mem t member))).settled
      (due.awaits t here) (fun same => waiters.1 (same ▸ List.mem_map_of_mem member))
      fun same => slots.1 (same ▸ List.mem_map_of_mem (f := Task.slot) member)
  · rw [one.tasks]
    exact waiters.2
  · rw [one.tasks]
    exact slots.2

end DeliversOne

/-- What the deliveries came to, in the order in which they ran. -/
structure Delivers (e : Environment σ) (P : σ → Prop) (m : Machine σ) (ts : List Task)
    (l : List (Machine σ)) (ds : List Settlement) (m' : Machine σ) : Prop extends Apart m m' where
  perm : ts.Perm m.tasks
  idle : m'.stack = []
  empty : m'.tasks = []
  tasks : ds.map Settlement.task = ts
  judged : ∀ d ∈ ds, m.Judges e P d.task.item d.fit
  pool : m'.pool = ds.foldl Pool.settled m.pool
  closings : (history e l).closings =
    if m.pool.closed then (ts.map fun t => t.item.resource.id).reverse else []

theorem Delivers.nil (idle : m.stack = []) (empty : m.tasks = []) :
    Delivers e P m [] [] [] m :=
  ⟨.refl m, empty ▸ .refl _, idle, empty, rfl, nofun, rfl, by simp [History.closings]⟩

/-- One delivery runs, and then the others. -/
theorem DeliversOne.delivers {place : Nat} {fit : Bool} {k : List (Machine σ)}
    {ds : List Settlement} (one : DeliversOne e P m t place k fit n)
    (queued : m.tasks[place]? = some t) (rest : Delivers e P n ts l ds m') :
    Delivers e P m (t :: ts) (l ++ k) (⟨t, fit⟩ :: ds) m' := by
  have perm : (t :: ts).Perm m.tasks :=
    ((one.tasks ▸ rest.perm).cons t).trans (perm_eraseIdx queued).symm
  have closed : (m.pool.settled ⟨t, fit⟩).closed = m.pool.closed := by rw [Pool.settled_eq]
  refine ⟨one.toApart.trans rest.toApart, perm, rest.idle, rest.empty,
    by rw [List.map_cons, rest.tasks], ?_, by rw [rest.pool, one.pool]; rfl, ?_⟩
  · intro d member
    obtain rfl | later := List.mem_cons.1 member
    · exact one.judged
    · have judged := rest.judged d later
      rwa [Judges, one.pool, Pool.settled_eq] at judged
  · rw [history_append, History.closings, List.filterMap_append, ← History.closings,
      ← History.closings, rest.closings, one.closings, one.pool, closed]
    cases m.pool.closed <;> simp

/-- The deliveries leave in the end what they come to one by one. -/
theorem Due.delivers (discreet : e.Discreet P) (due : m.Due P) (runs : RunsOut e m ts l m') :
    ∃ ds, Delivers e P m ts l ds m' := by
  induction runs with
  | done empty => exact ⟨[], .nil due.idle empty⟩
  | @run m m' t ts l place j queued ended _ ih =>
      obtain ⟨k, fit, one⟩ := due.starts discreet queued
      rw [trail_eq one.idle ended, steps_eq one.idle ended] at one
      obtain ⟨ds, rest⟩ := ih (one.due due queued)
      exact ⟨_, one.delivers queued rest⟩

/-- The deliveries can run in any order. -/
theorem Due.runsOut (discreet : e.Discreet P) (due : m.Due P) (perm : ts.Perm m.tasks) :
    ∃ l m', RunsOut e m ts l m' := by
  induction ts generalizing m with
  | nil => exact ⟨[], m, .done (List.nil_perm.1 perm)⟩
  | cons t ts ih =>
      obtain ⟨place, queued⟩ := List.getElem?_of_mem (perm.subset (List.mem_cons_self ..))
      obtain ⟨k, fit, one⟩ := due.starts discreet queued
      have others := (perm.trans (perm_eraseIdx queued)).cons_inv
      obtain ⟨l, m', rest⟩ := ih (one.due due queued) (others.trans (.of_eq one.tasks.symm))
      exact ⟨_, m', .run place k queued one.idle rest⟩

/-- After these steps every request has the same answer in both, they show the same status and the
same slots, up to whether an empty slot may be filled again, and the same resources were passed on
for closing. -/
structure Concurs (e : Environment σ) (l : List (Machine σ)) (m : Machine σ)
    (k : List (Machine σ)) (n : Machine σ) : Prop where
  looks : ∀ w, (m.look w).1 = (n.look w).1
  handles : m.handles = n.handles
  status : m.pool.status = n.pool.status
  slots : m.pool.slots.map Slot.coarse = n.pool.slots.map Slot.coarse
  closings : (history e l).closings.Perm (history e k).closings

/-- The check of a closed pool answers the same about each queued resource, whenever it is asked. -/
def Consistent (e : Environment σ) (P : σ → Prop) (m : Machine σ) : Prop :=
  m.pool.closed = true → m.pool.config.testOnCheckin = true → ∀ t ∈ m.tasks, ∀ s, P s →
    (e.validate t.item.resource s).1 = (e.validate t.item.resource m.env).1

namespace Delivers

variable {us : List Task} {k : List (Machine σ)} {ds es : List Settlement}

theorem same_tasks (one : Delivers e P m ts l ds m') (other : Delivers e P m us k es n) :
    (ds.map Settlement.task).Perm (es.map Settlement.task) := by
  rw [one.tasks, other.tasks]
  exact one.perm.trans other.perm.symm

theorem nodup (delivers : Delivers e P m ts l ds m') {key : Task → Nat}
    (distinct : (m.tasks.map key).Nodup) : ((ds.map Settlement.task).map key).Nodup := by
  rw [delivers.tasks]
  exact (delivers.perm.map key).nodup_iff.2 distinct

theorem atRest (delivers : Delivers e P m ts l ds m') (still : m.AtRest) : m'.AtRest := by
  rw [AtRest, activities, delivers.idle, delivers.paused]
  exact still.paused

/-- The waiter of each delivery finds its outcome. -/
theorem look (delivers : Delivers e P m ts l ds m') (due : m.Due P) (queued : t ∈ m.tasks) :
    (m'.look t.waiter).1 = some (t.outcome m.pool.closed) := by
  have member : t ∈ ds.map Settlement.task := by
    rw [delivers.tasks]
    exact delivers.perm.symm.subset queued
  obtain ⟨d, inside, rfl⟩ := List.mem_map.1 member
  obtain ⟨x, found, _⟩ := (due.awaits _ queued).heard
  have left : m'.pool.waiters[d.task.waiter]? =
      some { x with line := .sent (d.task.outcome m.pool.closed) } := by
    rw [delivers.pool, Pool.foldl_settled]
    have once : (ds.map fun d => d.task.waiter).Nodup := by
      have once := delivers.nodup due.waiters
      rwa [List.map_map] at once
    refine (getElem?_foldl_modify_of_mem once inside _).trans ?_
    rw [found]
    rfl
  rw [look_eq left]

/-- Unless the check changes its mind, what becomes of a resource does not depend on the order. -/
theorem perm_of_consistent (one : Delivers e P m ts l ds m') (other : Delivers e P m us k es n)
    (consistent : m.Consistent e P) (closed : m.pool.closed = true) : ds.Perm es := by
  let settlement (t : Task) : Settlement :=
    ⟨t, !m.pool.config.testOnCheckin || (e.validate t.item.resource m.env).1⟩
  have fits {ts l ds m'} (delivers : Delivers e P m ts l ds m') : ds = ts.map settlement := by
    rw [← delivers.tasks, List.map_map]
    refine (List.map_congr_left fun d member => ?_).trans (List.map_id ds) |>.symm
    obtain ⟨s, holds, fit⟩ := delivers.judged d member
    have queued := delivers.perm.subset (delivers.tasks ▸ List.mem_map_of_mem member)
    obtain ⟨t, fit'⟩ := d
    refine congrArg (Settlement.mk t) (Eq.trans ?_ fit.symm)
    cases tested : m.pool.config.testOnCheckin with
    | false => rfl
    | true => rw [consistent closed tested t queued s holds]
  rw [fits one, fits other]
  exact (one.perm.trans other.perm.symm).map _

/-- Two orders in which the deliveries run come to the same. -/
theorem concurs (one : Delivers e P m ts l ds m') (other : Delivers e P m us k es n)
    (due : m.Due P) : Concurs e l m' k n where
  looks w := by
    have waiters : m'.pool.waiters = n.pool.waiters := by
      rw [one.pool, other.pool]
      exact Pool.waiters_foldl_settled (one.same_tasks other) (one.nodup due.waiters)
    exact look_of_waiters waiters w
  handles := one.handles.trans other.handles.symm
  status := by
    rw [one.pool, other.pool]
    exact Pool.status_foldl_settled (one.same_tasks other) (one.nodup due.slots)
  slots := by
    rw [one.pool, other.pool]
    exact Pool.coarse_foldl_settled (one.same_tasks other) (one.nodup due.slots)
  closings := by
    rw [one.closings, other.closings]
    cases m.pool.closed with
    | false => exact .refl _
    | true =>
        exact (List.reverse_perm _).trans
          (((one.perm.trans other.perm.symm).map _).trans (List.reverse_perm _).symm)

end Delivers

end Machine

namespace Run

open Machine

variable {σ : Type} {e : Environment σ} {P : σ → Prop} {past : List (Machine σ)} {m : Machine σ}

/-- Somebody who listens for a queued delivery has a request that refers to the pool. -/
theorem attended_of_task (run : Run e past m) (still : m.AtRest) {t : Task}
    (queued : t ∈ m.tasks) {x : Waiter Outcome} (found : m.pool.waiters[t.waiter]? = some x)
    (listening : x.listening = true) : m.Attended := by
  have sends : [.entrusted t.item] ∈ ((m.books 0 (history e past)).ties t.waiter).senders :=
    (Multiset.mem_filterMap ..).2 ⟨_, by simpa [Machine.books] using task_sender queued, by simp⟩
  have listens : ∃ b, b ∈ ((m.books 0 (history e past)).ties t.waiter).listeners := by
    have standing := run.standing found
    generalize (m.books 0 (history e past)).ties t.waiter = s at standing sends
    cases standing with
    | claimed _ _ _ heard =>
        obtain ⟨⟨b, rfl⟩, _⟩ | ⟨_, deaf⟩ := heard
        · exact ⟨b, Multiset.mem_singleton_self b⟩
        · exact absurd (listening.symm.trans deaf) (by simp)
    | pending | answered | forsaken | finished => simp at sends
  obtain ⟨b, inside⟩ := listens
  obtain ⟨y, held, attached⟩ := (Multiset.mem_filterMap ..).1 inside
  obtain ⟨a, rfl⟩ : ∃ a, y = .listener a := by
    cases y <;> simp at attached
    exact ⟨_, rfl⟩
  obtain ⟨x, member, inside⟩ | ⟨u, _, inside⟩ | inside :=
    still.mem_assets.1 (by simpa [Machine.books] using held)
  · refine .inl ⟨x, member, ?_⟩
    obtain ⟨_, a | (_ | ⟨a, d⟩) | i | r⟩ := x <;> simp at inside <;> rfl
  · simp at inside
  · cases done : m.background with
    | done h a => exact .inr ⟨h, a, done⟩
    | _ => simp [done] at inside

/-- No two queued deliveries go to one waiter. -/
theorem nodup_waiters (run : Run e past m) (still : m.AtRest) :
    (m.tasks.map Task.waiter).Nodup := by
  refine List.nodup_iff_count_le_one.2 fun w => ?_
  by_cases known : w < m.pool.nextWaiter
  · obtain ⟨f, resolved⟩ := run.resolved still known
    have queued := congrArg List.length resolved.queued
    have one : (f.bind Fate.delivery?).toList.length ≤ 1 := by
      cases f.bind Fate.delivery? <;> simp
    rw [List.length_map] at queued
    rw [List.count, List.countP_map, List.countP_eq_length_filter]
    exact (queued.le.trans one)
  · rw [List.count_eq_zero_of_not_mem fun member => ?_]
    · exact Nat.zero_le 1
    · obtain ⟨t, queued, rfl⟩ := List.mem_map.1 member
      obtain ⟨x, found, _⟩ := run.task_waiter queued
      exact known (List.getElem?_eq_some_iff.1 found).1

/-- No two queued deliveries carry the resource of one slot. -/
theorem nodup_task_slots (run : Run e past m) (still : m.AtRest) :
    (m.tasks.map Task.slot).Nodup := by
  have guards : (m.guards.map Item.slot).Nodup :=
    (List.nodup_append.1 (List.nodup_append.1 (run.nodup_slots still)).1).1
  have part : (m.tasks.map Task.item).Sublist m.guards :=
    (List.sublist_append_right ..).trans (List.sublist_append_left ..)
  have distinct := guards.sublist (part.map Item.slot)
  rwa [List.map_map] at distinct

/-- The queued deliveries of a pool at rest may run. -/
theorem due (run : Run e past m) (still : m.AtRest) (holds : P m.env)
    (live : ∀ t ∈ m.tasks, ∃ x : Waiter Outcome, m.pool.waiters[t.waiter]? = some x ∧
      x.listening = true) : m.Due P where
  holds := holds
  idle := still.stack
  attended some := by
    obtain ⟨t, queued⟩ := List.exists_mem_of_ne_nil _ some
    obtain ⟨x, found, listening⟩ := live t queued
    exact run.attended_of_task still queued found listening
  quiet closed := by
    obtain ⟨returned, line⟩ := run.empty_of_closed still closed
    refine ⟨returned, line, ?_⟩
    obtain ⟨_, none⟩ | ⟨n, stage, only, _⟩ := run.matching.single
    · exact none
    · have inside : (n, stage) ∈ matchings m.assets := only ▸ Multiset.mem_singleton_self _
      cases still.still (mem_matchings.1 inside)
  awaits t queued := by
    have inside : Asset.guard t.item ∈ m.assets :=
      still.mem_assets.2 (.inr (.inl ⟨t, queued, by simp⟩))
    exact ⟨run.has_of_asset inside (x := t.item.lent) rfl, live t queued⟩
  waiters := run.nodup_waiters still
  slots := run.nodup_task_slots still

/-- A program that asks for the queued deliveries one after the other has them run, in any order. -/
theorem delivers_asked (run : Run e past m) (discreet : e.Discreet P) (due : m.Due P)
    (manual : m.scheduler.dispatcher = .manual) {ts : List Task} (perm : ts.Perm m.tasks) :
    ∃ l ds n, Run e (l ++ past) n ∧ Delivers e P m ts l ds n := by
  induction ts generalizing past m with
  | nil => exact ⟨[], [], m, run, .nil due.idle (List.nil_perm.1 perm)⟩
  | cons t ts ih =>
      obtain ⟨place, queued⟩ := List.getElem?_of_mem (perm.subset (List.mem_cons_self ..))
      obtain ⟨k, fit, n, busy, one, _⟩ := due.runAt discreet manual queued
      have further := (run.ask (.runAt place) due.idle).steps k.length
      rw [busy.steps.1, busy.steps.2] at further
      have others := (perm.trans (perm_eraseIdx queued)).cons_inv
      obtain ⟨l, ds, m', run, rest⟩ := ih further (one.due due queued)
        (one.scheduler ▸ manual) (others.trans (.of_eq one.tasks.symm))
      exact ⟨l ++ k, _, m', by rwa [List.append_assoc], one.delivers queued rest⟩

/-- What comes of the queued deliveries when a program asks for them is what comes of them in any
other order. -/
theorem concurs_asked (run : Run e past m) (still : m.AtRest)
    (live : ∀ t ∈ m.tasks, ∃ x : Waiter Outcome, m.pool.waiters[t.waiter]? = some x ∧
      x.listening = true)
    (discreet : e.Discreet P) (holds : P m.env) (manual : m.scheduler.dispatcher = .manual)
    {ts : List Task} (perm : ts.Perm m.tasks) :
    ∃ l ds n, Run e (l ++ past) n ∧ n.AtRest ∧ Delivers e P m ts l ds n ∧
      ∀ us k m', RunsOut e m us k m' → Concurs e l n k m' := by
  have due := run.due still holds live
  obtain ⟨l, ds, n, further, delivers⟩ := run.delivers_asked discreet due manual perm
  refine ⟨l, ds, n, further, delivers.atRest still, delivers, fun us k m' runs => ?_⟩
  obtain ⟨es, other⟩ := due.delivers discreet runs
  exact delivers.concurs other due

/-- The queued deliveries of a pool at rest, whose waiters all listen, can run in any order, and
each tells its waiter its outcome. Any two orders come to the same; the slots are the same, too, if
the check of a closed pool answers the same about a resource whenever it is asked. -/
theorem deliveries_commute (run : Run e past m) (still : m.AtRest)
    (live : ∀ t ∈ m.tasks, ∃ x : Waiter Outcome, m.pool.waiters[t.waiter]? = some x ∧
      x.listening = true)
    (discreet : e.Discreet P) (holds : P m.env) :
    (∀ ts, ts.Perm m.tasks → ∃ l m', RunsOut e m ts l m') ∧
      (∀ ts l m', RunsOut e m ts l m' → m'.AtRest ∧ m'.tasks = [] ∧
        ∀ t ∈ m.tasks, (m'.look t.waiter).1 = some (t.outcome m.pool.closed)) ∧
      ∀ ts us l k m₁ m₂, RunsOut e m ts l m₁ → RunsOut e m us k m₂ →
        Concurs e l m₁ k m₂ ∧
          (m.Consistent e P → m₁.pool.slotList = m₂.pool.slotList ∧
            m₁.pool.vacated.Perm m₂.pool.vacated) := by
  have due := run.due still holds live
  refine ⟨fun ts perm => due.runsOut discreet perm, fun ts l m' runs => ?_,
    fun ts us l k m₁ m₂ one other => ?_⟩
  · obtain ⟨ds, delivers⟩ := due.delivers discreet runs
    exact ⟨delivers.atRest still, delivers.empty, fun t queued => delivers.look due queued⟩
  · obtain ⟨ds, first⟩ := due.delivers discreet one
    obtain ⟨es, second⟩ := due.delivers discreet other
    refine ⟨first.concurs second due, fun consistent => ?_⟩
    obtain ⟨slots, vacated⟩ := Pool.slots_foldl_settled
      (first.perm_of_consistent second consistent) (first.nodup due.slots)
    rw [Pool.slotList, Pool.slotList, first.pool, second.pool, slots]
    exact ⟨rfl, vacated⟩

/-- One of two resources was marked invalid and the pool was closed before their deliveries ran. In
either order its slot is free in the end, and the other one closed. -/
theorem deliveries_commute_two : ∃ (past : List (Machine Bench.Rig)) (m : Machine Bench.Rig),
    Run Bench.environment past m ∧ m.AtRest ∧ m.pool.closed = true ∧ m.tasks.length = 2 ∧
      ∃ l k m₁ m₂, RunsOut Bench.environment m m.tasks l m₁ ∧
        RunsOut Bench.environment m m.tasks.reverse k m₂ ∧
        Concurs Bench.environment l m₁ k m₂ ∧ m₁.pool.slotList = m₂.pool.slotList ∧
        (∀ t ∈ m.tasks, (m₁.look t.waiter).1 = some (.error .closed)) := by
  have start := bench (c := { maxSize := 2, testOnCheckin := true }) rfl
  have first := (start.ask (.acquire 0) rfl).steps 40
  have second := (first.ask (.acquire 1) rfl).steps 40
  have marked := (second.ask (.tell (.invalidate 0)) rfl).steps 40
  have run := (marked.ask .close rfl).steps 40
  have discreet : Bench.environment.Discreet fun r => r.hooks = [] ∧ r.factory.invalid = [0] := by
    refine ⟨fun c r holds => ?_, fun c r holds => ?_, fun _ _ holds => holds,
      fun _ _ holds => holds⟩
    all_goals simp [Bench.environment, Bench.Rig.enter, Bench.Rig.extract, holds.1, holds.2]
  obtain ⟨orders, ends, agree⟩ := run.deliveries_commute rfl (by decide) discreet ⟨rfl, rfl⟩
  obtain ⟨l, m₁, one⟩ := orders _ (.refl _)
  obtain ⟨k, m₂, other⟩ := orders _ (List.reverse_perm _)
  obtain ⟨concurs, alike⟩ := agree _ _ _ _ _ _ one other
  refine ⟨_, _, run, rfl, rfl, rfl, l, k, m₁, m₂, one, other, concurs, (alike ?_).1,
    (ends _ _ _ one).2.2⟩
  rintro - - t - s ⟨_, invalid⟩
  simp only [Bench.environment, Bench.Factory.isValid, invalid]
  rfl

/-- Surroundings that name no operations. Only the first resource that they are asked about is
valid. -/
def fickle : Environment Nat where
  enter _ asked := ([], asked)
  create _ asked := (none, asked)
  validate _ asked := (asked == 0, asked + 1)
  close _ asked := (none, asked)
  tell _ asked := asked
  counts _ := {}

/-- If the check changes its mind, the slots depend on the order of the deliveries: the one that
runs first leaves its slot closed, the other one free. -/
theorem deliveries_differ : ∃ (past : List (Machine Nat)) (m : Machine Nat),
    Run fickle past m ∧ m.AtRest ∧
      (∀ t ∈ m.tasks, ∃ x : Waiter Outcome, m.pool.waiters[t.waiter]? = some x ∧
        x.listening = true) ∧
      (∀ c s, (fickle.enter c s).1 = []) ∧
      ∃ l k m₁ m₂, RunsOut fickle m m.tasks l m₁ ∧ RunsOut fickle m m.tasks.reverse k m₂ ∧
        m₁.pool.slotList ≠ m₂.pool.slotList := by
  have start : Run fickle [] _ := .start
    (show Machine.build { maxSize := 2, testOnCheckin := true } {} (0 : Nat) = .ok _ from rfl)
  have first := (start.ask (.acquire 0) rfl).steps 40
  have second := (first.ask (.acquire 1) rfl).steps 40
  have run := (second.ask .close rfl).steps 40
  exact ⟨_, _, run, rfl, by decide, fun _ _ => rfl, _, _, _, _,
    .run 0 40 rfl rfl (.run 0 40 rfl rfl (.done rfl)),
    .run 1 40 rfl rfl (.run 0 40 rfl rfl (.done rfl)), by decide⟩

end Run
end ResourcePool
