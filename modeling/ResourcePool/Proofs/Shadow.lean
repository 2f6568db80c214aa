import ResourcePool.Proofs.Effects
import ResourcePool.Session

/-!
A pool whose deliveries are queued, as it would be had they all run already. Only the lines of their
waiters are different then, and that matters to nobody who decides about other waiters: every step
of a matching does the same whether the deliveries it made so far have run or not.
-/

namespace ResourcePool

/-- The waiter of a delivery finds the resource on its line. -/
def told (ws : List (Waiter Outcome)) (t : Task) : List (Waiter Outcome) :=
  ws.modify t.waiter fun x => { x with line := .sent (.ok t.item) }

section Told

variable {ws : List (Waiter Outcome)} {ts : List Task} {w : Nat}

theorem length_foldl_told (ws : List (Waiter Outcome)) (ts : List Task) :
    (ts.foldl told ws).length = ws.length := by
  induction ts generalizing ws with
  | nil => rfl
  | cons t ts ih => exact (ih _).trans (List.length_modify ..)

theorem getElem?_foldl_told_of_ne (others : ∀ t ∈ ts, t.waiter ≠ w) :
    (ts.foldl told ws)[w]? = ws[w]? := by
  induction ts generalizing ws with
  | nil => rfl
  | cons t ts ih =>
      refine (ih fun u member => others u (List.mem_cons_of_mem t member)).trans ?_
      simp [told, others t (List.mem_cons_self ..)]

/-- Only the line of a waiter changes. -/
theorem getElem?_foldl_told (ts : List Task) {x : Waiter Outcome} (found : ws[w]? = some x) :
    ∃ l, (ts.foldl told ws)[w]? = some { x with line := l } := by
  induction ts generalizing ws x with
  | nil => exact ⟨x.line, found⟩
  | cons t ts ih =>
      by_cases same : t.waiter = w
      · have next : (told ws t)[w]? = some { x with line := .sent (.ok t.item) } := by
          simp [told, found, same]
        obtain ⟨l, last⟩ := ih next
        exact ⟨l, last⟩
      · have next : (told ws t)[w]? = some x := by
          simp [told, found, same]
        exact ih next

theorem modify_foldl_told {f : Waiter Outcome → Waiter Outcome}
    (apart : ∀ t ∈ ts, t.waiter = w → ∀ x l, f { x with line := l } = { f x with line := l }) :
    (ts.foldl told ws).modify w f = ts.foldl told (ws.modify w f) := by
  induction ts generalizing ws with
  | nil => rfl
  | cons t ts ih =>
      have swap : (told ws t).modify w f = told (ws.modify w f) t := by
        refine List.ext_getElem? fun v => ?_
        simp only [told, List.getElem?_modify]
        by_cases here : t.waiter = w
        · subst here
          by_cases same : t.waiter = v
          · simp only [same, if_true, Option.map_eq_map, Option.map_map]
            exact congrArg (Option.map · ws[v]?)
              (funext fun x => apart t (List.mem_cons_self ..) rfl x _)
          · simp [same]
        · by_cases same : t.waiter = v
          · subst same
            simp [Ne.symm here]
          · simp [same]
      rw [List.foldl_cons, ih fun u member => apart u (List.mem_cons_of_mem t member), swap,
        List.foldl_cons]

theorem foldl_told_append (x : Waiter Outcome) (others : ∀ t ∈ ts, t.waiter ≠ ws.length) :
    ts.foldl told (ws ++ [x]) = ts.foldl told ws ++ [x] := by
  induction ts generalizing ws with
  | nil => rfl
  | cons t ts ih =>
      have apart := others t (List.mem_cons_self ..)
      have first : told (ws ++ [x]) t = told ws t ++ [x] := by
        refine List.ext_getElem? fun v => ?_
        simp only [told, List.getElem?_modify, List.getElem?_append, List.length_modify]
        by_cases same : t.waiter = v
        · subst same
          by_cases inside : t.waiter < ws.length
          · simp [inside]
          · have beyond : ([x] : List (Waiter Outcome))[t.waiter - ws.length]? = none := by
              refine List.getElem?_eq_none ?_
              simp only [List.length_singleton]
              omega
            simp [inside, beyond]
        · simp [same]
      rw [List.foldl_cons, first, ih, List.foldl_cons]
      intro u member
      rw [told, List.length_modify]
      exact others u (List.mem_cons_of_mem t member)

end Told

namespace Pool

/-- The pool with the outcomes of these deliveries sent. -/
def delivered (p : Pool) (ts : List Task) : Pool :=
  { p with waiters := ts.foldl told p.waiters }

variable {p : Pool} {ts : List Task} {w : Nat}

@[simp] theorem delivered_nil (p : Pool) : p.delivered [] = p := rfl

theorem delivered_concat (p : Pool) (ts : List Task) (t : Task) :
    p.delivered (ts ++ [t]) = (p.delivered ts).modifyWaiter t.waiter
      fun x => { x with line := .sent (.ok t.item) } := by
  simp [delivered, modifyWaiter, told]

theorem nextWaiter_delivered (p : Pool) (ts : List Task) :
    (p.delivered ts).nextWaiter = p.nextWaiter :=
  length_foldl_told ..

theorem modifyWaiter_delivered {f : Waiter Outcome → Waiter Outcome}
    (apart : ∀ t ∈ ts, t.waiter = w → ∀ x l, f { x with line := l } = { f x with line := l }) :
    (p.delivered ts).modifyWaiter w f = (p.modifyWaiter w f).delivered ts := by
  simp only [delivered, modifyWaiter, modify_foldl_told apart]

/-- A claim does not look at the line. -/
theorem claim?_delivered (p : Pool) (ts : List Task) (w : Nat) :
    (p.delivered ts).claim? w = (p.claim? w).map fun q => q.delivered ts := by
  cases found : p.waiters[w]? with
  | none =>
      have absent : (p.delivered ts).waiters[w]? = none := by
        rw [List.getElem?_eq_none_iff] at found ⊢
        simpa [delivered, length_foldl_told] using found
      simp [claim?, waiter?, found, absent]
  | some x =>
      obtain ⟨l, found'⟩ := getElem?_foldl_told ts found
      by_cases pending : x.state = .pending
      · have same : (p.delivered ts).modifyWaiter w (fun y => { y with state := .fulfilled }) = _ :=
          modifyWaiter_delivered fun _ _ _ _ _ => rfl
        rw [claim?_of_pending found pending, claim?_of_pending (p := p.delivered ts) found' pending,
          Option.map_some, ← modifyWaiter_eq found fun y => { y with state := .fulfilled }, ← same,
          modifyWaiter_eq (p := p.delivered ts) found' fun y => { y with state := .fulfilled }]
      · have found' : (p.delivered ts).waiters[w]? = some { x with line := l } := found'
        simp [claim?, waiter?, found, found', Waiter.claim?, pending]

theorem pick_delivered (p : Pool) (ts : List Task) (view : List Nat) :
    (p.delivered ts).pick view = ((p.pick view).1, (p.pick view).2.delivered ts) := by
  unfold pick
  simp only [show (p.delivered ts).cursor = p.cursor from rfl]
  cases view[p.cursor % view.length]? with
  | none => rfl
  | some id =>
      have claims := claim?_delivered ({ p with cursor := p.cursor % view.length + 1 }) ts id
      simp only
      rw [show ({ p.delivered ts with cursor := p.cursor % view.length + 1 } : Pool) =
        ({ p with cursor := p.cursor % view.length + 1 } : Pool).delivered ts from rfl, claims]
      cases claim? { p with cursor := p.cursor % view.length + 1 } id <;> rfl

theorem complete_delivered (others : ∀ t ∈ ts, t.waiter ≠ w) (o : Outcome) :
    (p.delivered ts).complete w o = ((p.complete w o).1, (p.complete w o).2.delivered ts) := by
  unfold complete waiter?
  rw [show (p.delivered ts).waiters[w]? = p.waiters[w]? from getElem?_foldl_told_of_ne others]
  cases p.waiters[w]? with
  | none => rfl
  | some x =>
      simp only
      rw [modifyWaiter_delivered fun t member same => absurd same (others t member)]

theorem hangUp_delivered (others : ∀ t ∈ ts, t.waiter ≠ w) :
    (p.delivered ts).hangUp w = ((p.hangUp w).1, (p.hangUp w).2.delivered ts) := by
  unfold hangUp waiter?
  rw [show (p.delivered ts).waiters[w]? = p.waiters[w]? from getElem?_foldl_told_of_ne others]
  cases p.waiters[w]? with
  | none => rfl
  | some x =>
      simp only
      rw [modifyWaiter_delivered fun t member same => absurd same (others t member)]

theorem enroll_delivered (known : ∀ t ∈ ts, t.waiter ≠ p.nextWaiter) :
    (p.delivered ts).enroll = p.enroll.delivered ts := by
  have waiters := foldl_told_append ({ id := p.nextWaiter } : Waiter Outcome) known
  simp only [enroll, nextWaiter_delivered]
  simp only [delivered, waiters]

theorem lend?_delivered (p : Pool) (ts : List Task) (i : Nat) :
    (p.delivered ts).lend? i = (p.lend? i).map fun q => q.delivered ts := by
  unfold lend?
  rw [Option.map_map]
  rfl

theorem takeBack?_delivered (p : Pool) (ts : List Task) (i : Nat) :
    (p.delivered ts).takeBack? i = (p.takeBack? i).map fun q => q.delivered ts := by
  unfold takeBack?
  rw [Option.map_map]
  rfl

theorem reserve?_delivered (p : Pool) (ts : List Task) :
    (p.delivered ts).reserve? = p.reserve?.map fun r => (r.1, r.2.delivered ts) := by
  unfold reserve?
  simp only [show (p.delivered ts).vacated = p.vacated from rfl,
    show (p.delivered ts).created = p.created from rfl,
    show (p.delivered ts).slots = p.slots from rfl]
  split
  · rfl
  · split <;> rfl

theorem popReturned?_delivered (p : Pool) (ts : List Task) :
    (p.delivered ts).popReturned? = p.popReturned?.map fun r => (r.1, r.2.delivered ts) := by
  unfold popReturned?
  simp only [show (p.delivered ts).returned = p.returned from rfl]
  split <;> rfl

theorem unreserve_delivered (p : Pool) (ts : List Task) (r : Reservation) :
    (p.delivered ts).unreserve r = (p.unreserve r).delivered ts := by
  cases r <;> rfl

end Pool

namespace Machine

variable {σ : Type} {e : Environment σ}

/-- The machine as if its queued deliveries had run, apart from what is noted, counted and answered
meanwhile. -/
def shadow (m : Machine σ) : Machine σ :=
  { m with
    scheduler := { m.scheduler with dispatcher := .manual }
    pool := m.pool.delivered m.tasks
    tasks := []
    counts := { scheduled := m.counts.scheduled }
    reply := .nothing
    trace := [] }

section Shadow

variable (m : Machine σ)

@[simp] theorem shadow_shadow : m.shadow.shadow = m.shadow := rfl

@[simp] theorem shadow_push (as : List Activity) : (m.push as).shadow = m.shadow.push as := rfl

@[simp] theorem shadow_note (e : Event) : (m.note e).shadow = m.shadow := rfl

@[simp] theorem shadow_log (e : LogEntry) : (m.log e).shadow = m.shadow := rfl

@[simp] theorem shadow_answer (r : Reply) : (m.answer r).shadow = m.shadow := rfl

@[simp] theorem shadow_withPool (p : Pool) :
    (m.withPool p).shadow = m.shadow.withPool (p.delivered m.tasks) := rfl

@[simp] theorem shadow_pool : m.shadow.pool = m.pool.delivered m.tasks := rfl

@[simp] theorem shadow_tasks : m.shadow.tasks = [] := rfl

/-- What does the same to a machine and to its shadow does the same to machines with one shadow. -/
theorem shadow_congr {m m' : Machine σ} {f : Machine σ → Machine σ}
    (alike : ∀ m, (f m).shadow = (f m.shadow).shadow) (same : m.shadow = m'.shadow) :
    (f m).shadow = (f m').shadow := by
  rw [alike, same, ← alike]

theorem lend_shadow (w : Nat) (i : Item) : (m.lend w i).shadow = (m.shadow.lend w i).shadow := by
  unfold lend
  simp only [shadow_pool, Pool.lend?_delivered]
  cases m.pool.lend? i.slot <;> rfl

theorem handOut_shadow (n : Nat) (view : List Nat) (i : Item) :
    (m.handOut n view i).shadow = (m.shadow.handOut n view i).shadow := by
  unfold handOut
  simp only [shadow_pool, Pool.pick_delivered]
  obtain ⟨_ | w, p⟩ := m.pool.pick view
  · rfl
  · exact lend_shadow ..

theorem fill_shadow (n : Nat) (view : List Nat) (r : Reservation) :
    (m.fill n view r).shadow = (m.shadow.fill n view r).shadow := by
  unfold fill
  simp only [shadow_pool, Pool.pick_delivered]
  obtain ⟨_ | w, p⟩ := m.pool.pick view
  · simp [Pool.unreserve_delivered]
  · rfl

theorem seek_shadow (n : Nat) (view : List Nat) :
    (m.seek n view).shadow = (m.shadow.seek n view).shadow := by
  unfold seek
  simp only [shadow_pool, Pool.popReturned?_delivered, Pool.reserve?_delivered]
  obtain _ | ⟨i, p⟩ := m.pool.popReturned?
  · obtain _ | ⟨r, p⟩ := m.pool.reserve?
    · rfl
    · exact fill_shadow (m.withPool p) n view r
  · simp only [Option.map_some]
    rw [show (p.delivered m.tasks).config = p.config from rfl]
    split
    · rfl
    · exact handOut_shadow (m.withPool p) n view i

theorem round_shadow (n : Nat) (inHand : Option Item) :
    (m.round n inHand).shadow = (m.shadow.round n inHand).shadow := by
  unfold round
  simp only [shadow_pool, show (m.pool.delivered m.tasks).closed = m.pool.closed from rfl,
    show (m.pool.delivered m.tasks).registry = m.pool.registry from rfl]
  split
  · cases inHand <;> rfl
  · split
    · rfl
    · rfl
    · exact handOut_shadow ..
    · exact seek_shadow ..

theorem trigger_shadow : m.trigger.shadow = m.shadow.trigger.shadow := by
  unfold trigger
  simp only [shadow_pool, show (m.pool.delivered m.tasks).triggers = m.pool.triggers from rfl]
  split <;> rfl

theorem again_shadow (n : Nat) : (m.again n).shadow = (m.shadow.again n).shadow := by
  unfold again
  simp only [shadow_pool, show (m.pool.delivered m.tasks).triggers = m.pool.triggers from rfl]
  split <;> rfl

theorem giveBack_shadow (i : Item) : (m.giveBack i).shadow = (m.shadow.giveBack i).shadow := by
  unfold giveBack
  simp only [shadow_pool, Pool.takeBack?_delivered]
  cases m.pool.takeBack? i.slot with
  | none => rfl
  | some p =>
      simp only [Option.map_some, show (p.delivered m.tasks).config = p.config from rfl]
      split <;> rfl

theorem announce_shadow {c : Call} (names : (e.enter c.moment m.env).1 = []) :
    (m.announce e c).shadow = (m.shadow.announce e c).shadow := by
  unfold announce
  simp only [show m.shadow.env = m.env from rfl, names]
  rfl

theorem call_shadow {c : Call} (names : (e.enter c.moment m.env).1 = []) :
    (m.call e c).shadow = (m.shadow.call e c).shadow := by
  unfold call
  split
  · simp only [show m.shadow.scheduler.watched = m.scheduler.watched from rfl]
    split
    · exact announce_shadow { m with counts := m.counts.schedule } names
    · rfl
  · exact announce_shadow m names

theorem created_shadow (n w : Nat) (r : Reservation) (others : ∀ t ∈ m.tasks, t.waiter ≠ w) :
    (m.created e n w r).shadow = (m.shadow.created e n w r).shadow := by
  unfold created
  simp only [show m.shadow.env = m.env from rfl]
  split
  · refine shadow_congr (fun m => m.lend_shadow w _) ?_
    cases r <;> rfl
  · next cause env _ =>
      have sent := congrArg Prod.snd (Pool.complete_delivered (p := m.pool.unreserve r) others
        (.error (.creationFailed r.slot cause)))
      rw [← Pool.unreserve_delivered] at sent
      exact congrArg (fun q => (({ m with env } : Machine σ).shadow.withPool q).push
        [.round n none]) sent.symm

theorem validated_shadow (i : Item) (check : Check) :
    (m.validated e i check).shadow = (m.shadow.validated e i check).shadow := by
  unfold validated
  simp only [show m.shadow.env = m.env from rfl]
  split
  · exact shadow_congr (fun m => m.handOut_shadow _ _ i) rfl
  · rfl
  · rfl

theorem closed_shadow (i : Item) (why : Closing) :
    (m.closed e i why).shadow = (m.shadow.closed e i why).shadow := by
  unfold closed
  simp only [show m.shadow.env = m.env from rfl]
  rcases why with (_ | _) | _ | ⟨_ | _⟩ | _ | _ <;> cases (e.close i.resource m.env).1 <;> rfl

theorem hangUp_shadow (w : Nat) (others : ∀ t ∈ m.tasks, t.waiter ≠ w) :
    (m.hangUp w).shadow = (m.shadow.hangUp w).shadow := by
  unfold hangUp
  simp only [shadow_pool, Pool.hangUp_delivered others]
  obtain ⟨_ | _ | i, p⟩ := m.pool.hangUp w <;> rfl

theorem put_shadow (k : Nat) (x : Handle) : (m.put k x).shadow = (m.shadow.put k x).shadow := rfl

theorem request_shadow (purpose : Purpose) (known : ∀ t ∈ m.tasks, t.waiter ≠ m.pool.nextWaiter)
    (done : m.pool.closed = true → m.tasks = []) :
    (m.request purpose).shadow = (m.shadow.request purpose).shadow := by
  unfold request
  simp only [shadow_pool, show (m.pool.delivered m.tasks).closed = m.pool.closed from rfl,
    Pool.nextWaiter_delivered]
  split
  · next closed => simp [done closed]
  · simp [Pool.enroll_delivered known]

theorem resolve_shadow (k : Nat) (o : Outcome) :
    (m.resolve k o).shadow = (m.shadow.resolve k o).shadow := by
  cases o <;> rfl

theorem close_shadow : m.close.shadow = m.shadow.close.shadow := by
  unfold close
  simp only [show m.shadow.pool.closed = m.pool.closed from rfl]
  cases m.pool.closed <;> rfl

theorem detach_shadow (k : Nat) (i : Item) :
    (m.detach k i).shadow = (m.shadow.detach k i).shadow := rfl

theorem execute_shadow (k : Nat) (statement : String) :
    (m.execute k statement).shadow = (m.shadow.execute k statement).shadow := by
  unfold execute onResource
  simp only [show m.shadow.handles = m.handles from rfl]
  split
  · rfl
  · split
    · split <;> rfl
    · rfl

section Idle

variable {m} (idle : m.tasks = [])
include idle

theorem flush_shadow (who : Flusher) (failures : List CloseFailure) :
    (m.flush who failures).shadow = (m.shadow.flush who failures).shadow := by
  cases m
  subst idle
  unfold flush
  simp only [shadow_pool, Pool.delivered_nil]
  split
  · rfl
  · cases who <;> rfl

theorem withdraw_shadow (a : Acquire) :
    (m.withdraw a).shadow = (m.shadow.withdraw a).shadow := by
  cases m
  subst idle
  unfold withdraw
  simp only [shadow_pool, Pool.delivered_nil]
  split
  · split <;> rfl
  · rfl

theorem look_shadow (w : Nat) : (m.shadow.look w).1 = (m.look w).1 ∧
    (m.shadow.look w).2.shadow = (m.look w).2.shadow := by
  cases m
  subst idle
  unfold look
  simp only [shadow_pool, Pool.delivered_nil]
  split <;> exact ⟨rfl, rfl⟩

theorem poll_shadow {k : Nat} (asked : ∀ g, m.handles.get? k ≠ some (.get g)) :
    (m.poll k).shadow = (m.shadow.poll k).shadow := by
  unfold poll
  simp only [show m.shadow.handles = m.handles from rfl]
  split
  · rfl
  · next a _ =>
      obtain ⟨same, shadow⟩ := look_shadow idle a.waiter
      generalize m.look a.waiter = looked, m.shadow.look a.waiter = looked' at same shadow
      obtain ⟨o, m''⟩ := looked'
      obtain ⟨_, m'⟩ := looked
      obtain rfl : o = _ := same
      cases o with
      | none => exact shadow.symm
      | some o => exact (shadow_congr (fun m => m.resolve_shadow k o) shadow).symm
  · next found => exact absurd found (asked _)
  · rfl
  · rfl
  · rfl

theorem cancel_shadow (k : Nat) (a : Acquire) :
    (m.cancel k a).shadow = (m.shadow.cancel k a).shadow := by
  cases m
  subst idle
  unfold cancel
  simp only [shadow_pool, Pool.delivered_nil]
  exact withdraw_shadow rfl a

end Idle

end Shadow

end Machine
end ResourcePool
