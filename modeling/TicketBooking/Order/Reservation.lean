import TicketBooking.Order.Transactions
/-!
# Scheduled cancellations

Every order a `create` has committed is to be cancelled by a scheduled task
unless it is paid first.  The entry is added after the commit, by a call that
can fail, under a key made of the task name and a clock reading.
-/

namespace TicketBooking.Order.Reservation

open TicketBooking.App.Exceptions
open TicketBooking.Database.Shared TicketBooking.Database.Tables
open TicketBooking.Library.Sessions
open TicketBooking.Order.Booking TicketBooking.Order.Transactions
open TicketBooking.Tasks.Scheduling

/-- An outstanding entry will cancel the order. -/
def Outstanding (s : Store) (orderId : Nat) : Prop :=
  ∃ entry ∈ s.tasks.entries, entry.2.task = .cancelReservation orderId

/-- The order a `create` has committed and not scheduled the cancellation of. -/
def unscheduled : Pc → Option Nat
  | .create (.committed order _) => some order.id
  | _ => none

def Scheduling {ι : Type} (w : World ι Store Row Pc) (orderId : Nat) : Prop :=
  ∃ i, unscheduled (w.pc i) = some orderId

structure Inv {ι : Type} (w : World ι Store Row Pc) : Prop where
  configured : w.shared.tasks.scheduleSource.isSome
  keys : w.shared.tasks.Keyed
  covered : ∀ order ∈ w.shared.db.orders, order.status = .pending →
    order.id ∈ w.shared.fired ∨ Outstanding w.shared order.id ∨ Scheduling w order.id

/-- The task would cancel an order that is pending. -/
def cancelsPending (db : Db) : Task → Bool
  | .cancelReservation id => isPending db id
  | _ => false

/-- The call after the commit of a pending order does not fail, and the schedule
id it draws is not that of an entry for a pending order. -/
def Scheduled {ι : Type} (w : World ι Store Row Pc) (i : ι) (a : Act) : Prop :=
  match w.pc i, a with
  | .create (.committed order _), .fail => ¬ isPending w.shared.db order.id
  | .create (.committed order _), .perform now _ =>
      ∀ entry ∈ w.shared.tasks.entries,
        entry.1 = ⟨(Task.cancelReservation order.id).name, now⟩ →
          ¬ cancelsPending w.shared.db entry.2.task
  | _, _ => True

instance {ι : Type} (w : World ι Store Row Pc) (i : ι) (a : Act) : Decidable (Scheduled w i a) := by
  unfold Scheduled
  split <;> infer_instance

theorem isPending_of_mem {db : Db} {order : Order} (horder : order ∈ db.orders)
    (hpending : order.status = .pending) : isPending db order.id := by
  unfold isPending
  exact List.any_eq_true.mpr ⟨order, horder, by simp [hpending]⟩

/-! ## Statements that do not schedule -/

/-- The pending orders were pending before, and the schedule is as it was. -/
structure Quiet (s s' : Store) : Prop where
  source : s'.tasks.scheduleSource = s.tasks.scheduleSource
  fired : s'.fired = s.fired
  pending : ∀ order ∈ s'.db.orders, order.status = .pending →
    ∃ old ∈ s.db.orders, old.id = order.id ∧ old.status = .pending

theorem Quiet.refl (s : Store) : Quiet s s :=
  ⟨rfl, rfl, fun order horder hpending => ⟨order, horder, rfl, hpending⟩⟩

theorem Quiet.of_db {s s' : Store} (hsource : s'.tasks.scheduleSource = s.tasks.scheduleSource)
    (hfired : s'.fired = s.fired) (hdb : s'.db = s.db) : Quiet s s' := by
  refine ⟨hsource, hfired, fun order horder hpending => ⟨order, ?_, rfl, hpending⟩⟩
  rw [← hdb]
  exact horder

theorem pending_setOrderStatus {id : Nat} {status : OrderStatus} (hstatus : status ≠ .pending)
    {orders : List Order} {order : Order} (h : order ∈ setOrderStatus id status orders)
    (hpending : order.status = .pending) : order ∈ orders := by
  obtain ⟨old, hold, rfl⟩ := List.mem_map.mp h
  split_ifs at hpending ⊢ with hid
  · exact absurd hpending hstatus
  · exact hold

theorem confirmStep_quiet {s : Store} {pc pc' : ConfirmPc} {a : Act} {eff : Effect Store Row}
    (h : ConfirmStep s pc a eff pc') : Quiet s (eff.apply s) := by
  cases h with
  | commit =>
      refine ⟨rfl, rfl, fun order horder hpending => ?_⟩
      exact ⟨order, pending_setOrderStatus (by decide) horder hpending, rfl, hpending⟩
  | mail => exact .of_db rfl rfl rfl
  | _ => exact .refl s

theorem expireStep_quiet {s : Store} {pc pc' : ExpirePc} {a : Act} {eff : Effect Store Row}
    (h : ExpireStep s pc a eff pc') : Quiet s (eff.apply s) := by
  cases h with
  | commit =>
      refine ⟨rfl, rfl, fun order horder hpending => ?_⟩
      exact ⟨order, pending_setOrderStatus (by decide) horder hpending, rfl, hpending⟩
  | _ => exact .refl s

theorem migrateStep_quiet {s : Store} {pc pc' : MigratePc} {a : Act} {eff : Effect Store Row}
    (h : MigrateStep s pc a eff pc') : Quiet s (eff.apply s) := by
  cases h with
  | commit =>
      refine ⟨rfl, rfl, fun order horder hpending => ?_⟩
      obtain ⟨old, hold, rfl⟩ := List.mem_map.mp horder
      refine ⟨old, hold, ?_⟩
      split_ifs at hpending ⊢ <;> exact ⟨rfl, hpending⟩
  | _ => exact .refl s

theorem createStep_kinds {s : Store} {pc pc' : CreatePc} {a : Act} {eff : Effect Store Row}
    (h : CreateStep s pc a eff pc') :
    ((∀ order items, pc ≠ .committed order items) ∧ Quiet s (eff.apply s)) ∨
    (∃ order items tickets, eff = .commit (fun s => s.withDb (insertBooking order items tickets)) ∧
      (∀ order items, pc ≠ .committed order items) ∧ pc' = .committed order items) ∨
    (∃ order items now later, pc = .committed order items ∧ a = .perform now later ∧
      eff = .emit (enqueue (.cancelReservation order.id) (some 900) now later)) ∨
    ∃ order items, pc = .committed order items ∧ a = .fail ∧ eff = .stay := by
  cases h with
  | commit => exact .inr (.inl ⟨_, _, _, rfl, by simp, rfl⟩)
  | schedule => exact .inr (.inr (.inl ⟨_, _, _, _, rfl, rfl, rfl⟩))
  | scheduleFails => exact .inr (.inr (.inr ⟨_, _, rfl, rfl, rfl⟩))
  | fails hcommitted => exact .inl ⟨hcommitted, .refl s⟩
  | insertOrder huser => exact .inl ⟨by simp, .of_db rfl rfl rfl⟩
  | insertItems => exact .inl ⟨by simp, .of_db rfl rfl rfl⟩
  | insertTickets => exact .inl ⟨by simp, .of_db rfl rfl rfl⟩
  | _ => exact .inl ⟨by simp, .refl s⟩

/-! ## Every statement -/

section Step

variable {ι : Type} [DecidableEq ι] {w : World ι Store Row Pc} {i : ι}

theorem Scheduling.other {orderId : Nat} (h : Scheduling w orderId)
    (hpc : unscheduled (w.pc i) ≠ some orderId) (eff : Effect Store Row)
    (pc : Pc) : Scheduling (w.after i eff pc) orderId := by
  obtain ⟨j, hj⟩ := h
  have hji : j ≠ i := by
    rintro rfl
    exact hpc hj
  exact ⟨j, by rw [World.after_pc_other w hji, hj]⟩

theorem Inv.quiet (hw : Inv w) {eff : Effect Store Row} {pc : Pc}
    (hquiet : Quiet w.shared (eff.apply w.shared))
    (hpc : unscheduled (w.pc i) = none) : Inv (w.after i eff pc) := by
  have hentries : (eff.apply w.shared).tasks.entries = w.shared.tasks.entries := by
    rw [TaskManager.entries, hquiet.source, TaskManager.entries]
  refine ⟨?_, ?_, fun order horder hpending => ?_⟩
  · rw [World.after_shared, hquiet.source]
    exact hw.configured
  · rw [World.after_shared, TaskManager.Keyed, hentries]
    exact hw.keys
  · obtain ⟨old, hold, hid, holdpending⟩ := hquiet.pending order horder hpending
    rw [← hid]
    rcases hw.covered old hold holdpending with h | h | h
    · left
      rw [World.after_shared, hquiet.fired]
      exact h
    · right; left
      unfold Outstanding at h ⊢
      rw [World.after_shared, hentries]
      exact h
    · exact .inr (.inr (h.other (by rw [hpc]; simp) eff pc))

theorem Inv.commit (hw : Inv w) {order : Order} {items : List OrderItem} {tickets : List Ticket}
    (hpc : unscheduled (w.pc i) = none) :
    Inv (w.after i (.commit fun s => s.withDb (insertBooking order items tickets))
      (.create (.committed order items))) := by
  refine ⟨hw.configured, hw.keys, fun new hnew hpending => ?_⟩
  rcases List.mem_append.mp hnew with hold | hmem
  · rcases hw.covered new hold hpending with h | h | h
    · exact .inl h
    · exact .inr (.inl h)
    · exact .inr (.inr (h.other (by rw [hpc]; simp) _ _))
  · rw [List.mem_singleton.mp hmem]
    exact .inr (.inr ⟨i, by rw [World.after_pc_self, unscheduled]⟩)

/-- The call after the commit adds the entry and overwrites no entry of another
pending order. -/
theorem Inv.schedule (hw : Inv w) {order : Order} {items : List OrderItem} {now later : Nat}
    {pc : Pc} (hpc : w.pc i = .create (.committed order items))
    (hok : Scheduled w i (.perform now later)) :
    Inv (w.after i (.emit (enqueue (.cancelReservation order.id) (some 900) now later)) pc) := by
  simp only [Scheduled, hpc] at hok
  obtain ⟨source, hsource⟩ := Option.isSome_iff_exists.mp hw.configured
  have hmem := mem_entries_performTask hsource (.cancelReservation order.id) 900 now later
  refine ⟨?_, keyed_performTask hw.keys _ _ _ _, fun other hother hpending => ?_⟩
  · rw [World.after_shared, Effect.apply_emit, enqueue, isSome_source_performTask]
    exact hw.configured
  · rcases hw.covered other hother hpending with h | ⟨entry, hentry, htask⟩ | h
    · exact .inl h
    · refine .inr (.inl ⟨entry, (hmem entry).mpr (.inr ⟨hentry, fun hid => ?_⟩), htask⟩)
      have hfree := hok entry hentry hid
      rw [htask] at hfree
      exact hfree (isPending_of_mem hother hpending)
    · by_cases hid : order.id = other.id
      · exact .inr (.inl ⟨_, (hmem _).mpr (.inl rfl), congrArg Task.cancelReservation hid⟩)
      · exact .inr (.inr (h.other (by rw [hpc]; simpa [unscheduled] using hid) _ _))

/-- The call after the commit fails only for an order that is no longer pending. -/
theorem Inv.scheduleFails (hw : Inv w) {order : Order} {items : List OrderItem} {pc : Pc}
    (hpc : w.pc i = .create (.committed order items)) (hok : Scheduled w i .fail) :
    Inv (w.after i .stay pc) := by
  simp only [Scheduled, hpc] at hok
  refine ⟨hw.configured, hw.keys, fun other hother hpending => ?_⟩
  rcases hw.covered other hother hpending with h | h | h
  · exact .inl h
  · exact .inr (.inl h)
  · have hid : order.id ≠ other.id := fun hid =>
      hok (hid ▸ isPending_of_mem hother hpending)
    exact .inr (.inr (h.other (by rw [hpc]; simpa [unscheduled] using hid) _ _))

/-- The scheduler fires an entry: the order it was for counts as fired. -/
theorem Inv.fire (hw : Inv w) {id : ScheduleId} {orderId time : Nat}
    (hentry : (id, ⟨.cancelReservation orderId, time⟩) ∈ w.shared.tasks.entries)
    (hpc : w.pc i = .waiting) :
    Inv (w.after i (.emit (fireEntry id orderId)) (.expire (.start orderId))) := by
  refine ⟨?_, keyed_take hw.keys id, fun order horder hpending => ?_⟩
  · rw [World.after_shared, Effect.apply_emit, fireEntry, isSome_source_take]
    exact hw.configured
  · rcases hw.covered order horder hpending with h | ⟨entry, hmem, htask⟩ | h
    · exact .inl (List.mem_append_left _ h)
    · by_cases hid : entry.1 = id
      · have heq := entry_eq_of_keyed hw.keys hmem hentry hid
        rw [heq] at htask
        cases htask
        exact .inl (List.mem_append_right _ (List.mem_singleton_self _))
      · exact .inr (.inl ⟨entry, mem_entries_take.mpr ⟨hmem, hid⟩, htask⟩)
    · exact .inr (.inr (h.other (by rw [hpc]; simp [unscheduled]) _ _))

theorem Inv.step (hw : Inv w) {a : Act} {w' : World ι Store Row Pc} (hok : Scheduled w i a)
    (hs : w.step orderStep i a = some w') : Inv w' := by
  obtain ⟨eff, pc', hstep, -, rfl⟩ := World.step_eq_some.mp hs
  generalize hpc : w.pc i = pc at hstep
  cases orderStep_cases hstep with
  | @create pc pc' a eff hcreate =>
      have hnone : (∀ order items, pc ≠ .committed order items) →
          unscheduled (w.pc i) = none := by
        intro hne
        rw [hpc]
        unfold unscheduled
        split
        · rename_i order items heq
          exact absurd (Pc.create.inj heq) (hne order items)
        · rfl
      rcases createStep_kinds hcreate with
        ⟨hne, hquiet⟩ | ⟨order, items, tickets, rfl, hne, rfl⟩ |
          ⟨order, items, now, later, rfl, rfl, rfl⟩ | ⟨order, items, rfl, rfl, rfl⟩
      · exact hw.quiet hquiet (hnone hne)
      · exact hw.commit (hnone hne)
      · exact hw.schedule hpc hok
      · exact hw.scheduleFails hpc hok
  | confirm hconfirm => exact hw.quiet (confirmStep_quiet hconfirm) (by rw [hpc]; rfl)
  | expire hexpire => exact hw.quiet (expireStep_quiet hexpire) (by rw [hpc]; rfl)
  | migrate hmigrate => exact hw.quiet (migrateStep_quiet hmigrate) (by rw [hpc]; rfl)
  | fire hentry => exact hw.fire hentry hpc

end Step

/-! ## Whole runs -/

/-- In every run in which no schedule call for a pending order fails or takes
the key of another pending order's entry, every pending order whose `create` has
ended and whose cancellation has not fired has an outstanding entry. -/
theorem reservation_scheduled {ι : Type} [DecidableEq ι] {s : Store} (calls : ι → Call)
    (horders : s.db.orders = []) (hsource : s.tasks.scheduleSource.isSome) (hkeys : s.tasks.Keyed)
    {w : World ι Store Row Pc}
    (h : Run orderStep Scheduled (World.start s fun i => (calls i).pc) w) :
    ∀ order ∈ w.shared.db.orders, order.status = .pending → ¬ Scheduling w order.id →
      order.id ∉ w.shared.fired → Outstanding w.shared order.id := by
  have hstart : Inv (World.start s fun i => (calls i).pc) := by
    refine ⟨hsource, hkeys, fun order horder => ?_⟩
    rw [World.start_shared, horders] at horder
    cases horder
  have hw : Inv w := h.invariant (fun _ _ _ _ hv hok hs => hv.step hok hs) hstart
  intro order horder hpending hended hfired
  rcases hw.covered order horder hpending with h | h | h
  · exact absurd h hfired
  · exact h
  · exact absurd h hended

def bookTwice (now now' : Nat) : List (Bool × Act) :=
  bookOnePlace false ++ [(false, .perform now now)] ++
    bookOnePlace true ++ [(true, .perform now' now')]

def twoGuests : World Bool Store Row Pc :=
  World.start hall fun _ => (Call.create onePlace).pc

theorem reservation_scheduled_hall :
    ∃ w : World Bool Store Row Pc, Run orderStep Scheduled twoGuests w ∧
      Outstanding w.shared 1 := by
  have hrun : (twoGuests.guardedSteps orderStep Scheduled (bookTwice 5 6)).map
      (fun w => (w.shared.db.orders.map fun order => (order.id, order.status),
        unscheduled (w.pc false), unscheduled (w.pc true), w.shared.fired)) =
      some ([(1, .pending), (2, .pending)], none, none, []) := by
    decide
  obtain ⟨w, hw, heq⟩ := Option.map_eq_some_iff.mp hrun
  simp only [Prod.mk.injEq] at heq
  obtain ⟨horders, hfalse, htrue, hfired⟩ := heq
  have hr : Run orderStep Scheduled twoGuests w := Run.of_guardedSteps hw
  have hended : ¬ Scheduling w 1 := by
    rintro ⟨i, hi⟩
    cases i
    · rw [hfalse] at hi
      cases hi
    · rw [htrue] at hi
      cases hi
  have hmem : (1, OrderStatus.pending) ∈
      w.shared.db.orders.map fun order => (order.id, order.status) := by
    rw [horders]
    exact List.mem_cons_self
  obtain ⟨order, horder, hkey⟩ := List.mem_map.mp hmem
  simp only [Prod.mk.injEq] at hkey
  have hkeyed : hall.tasks.Keyed := List.nodup_nil
  have hout := reservation_scheduled (fun _ => .create onePlace) rfl rfl hkeyed hr order horder
    hkey.2
  rw [hkey.1, hfired] at hout
  exact ⟨w, hr, hout hended List.not_mem_nil⟩

/-- Two calls that read the same clock: the second entry overwrites the first,
and the first order keeps its place for ever. -/
theorem reservation_lost :
    ∃ w : World Bool Store Row Pc, Run orderStep anyStep twoGuests w ∧
      ∃ order ∈ w.shared.db.orders, order.status = .pending ∧ ¬ Scheduling w order.id ∧
        order.id ∉ w.shared.fired ∧ ¬ Outstanding w.shared order.id := by
  have hrun : (twoGuests.steps orderStep (bookTwice 5 5)).map
      (fun w => (w.shared.db.orders.head?, w.shared.tasks.entries.map fun entry => entry.2.task,
        unscheduled (w.pc false), unscheduled (w.pc true), w.shared.fired)) =
      some (some ⟨1, none, some "guest@example.com", .pending⟩, [.cancelReservation 2],
        none, none, []) := by
    decide
  obtain ⟨w, hw, heq⟩ := Option.map_eq_some_iff.mp hrun
  simp only [Prod.mk.injEq] at heq
  obtain ⟨hhead, htasks, hfalse, htrue, hfired⟩ := heq
  refine ⟨w, Run.of_steps hw, _, List.mem_of_head? hhead, rfl, ?_, ?_, ?_⟩
  · rintro ⟨i, hi⟩
    cases i
    · rw [hfalse] at hi
      cases hi
    · rw [htrue] at hi
      cases hi
  · rw [hfired]
    exact List.not_mem_nil
  · rintro ⟨entry, hentry, htask⟩
    have hmem : Task.cancelReservation 1 ∈ w.shared.tasks.entries.map fun entry => entry.2.task :=
      List.mem_map.mpr ⟨entry, hentry, htask⟩
    rw [htasks] at hmem
    simp at hmem

end TicketBooking.Order.Reservation
