import Mathlib.Data.List.Nodup
import TicketBooking.Database.Tables
/-!
# The task manager

`TaskIqTaskManager.perform_task`: a delayed task becomes an entry of the
schedule source, a map from schedule ids to tasks, and every other task is sent
to the broker at once.
-/

namespace TicketBooking.Tasks.Scheduling

inductive Task
  | cancelReservation (orderId : Nat)
  | sendConfirmationMail (orderId : Nat)
  | transferAnonymOrders (email : String)
  deriving DecidableEq, Repr

def Task.name : Task → String
  | .cancelReservation _ => "order:cancel_reservation"
  | .sendConfirmationMail _ => "order:send_confirmation_mail"
  | .transferAnonymOrders _ => "order:transfer_anonym_orders"

/-- `f"delayed:{name}:{timestamp}"`; the timestamp is the clock reading in
microseconds. -/
structure ScheduleId where
  name : String
  timestamp : Nat
  deriving DecidableEq, Repr

structure ScheduledTask where
  task : Task
  time : Nat
  deriving DecidableEq, Repr

/-- The schedule source, if one is configured, and the broker's queue. -/
structure TaskManager where
  scheduleSource : Option (List (ScheduleId × ScheduledTask)) := some []
  queue : List Task := []
  deriving DecidableEq, Repr

/-- `add_schedule`: an entry under the same id is overwritten. -/
def addSchedule (source : List (ScheduleId × ScheduledTask)) (id : ScheduleId)
    (task : ScheduledTask) : List (ScheduleId × ScheduledTask) :=
  (id, task) :: source.filter fun entry => entry.1 ≠ id

/-- `now` is the reading the id is built from, `later` the one the due time is
counted from. -/
def performTask (tasks : TaskManager) (task : Task) (delay : Option Nat) (now later : Nat) :
    TaskManager :=
  match delay, tasks.scheduleSource with
  | some delay, some source =>
      { tasks with
        scheduleSource := some (addSchedule source ⟨task.name, now⟩
          ⟨task, later + delay * 1000000⟩) }
  | _, _ => { tasks with queue := tasks.queue ++ [task] }

def TaskManager.entries (tasks : TaskManager) : List (ScheduleId × ScheduledTask) :=
  tasks.scheduleSource.getD []

/-- The scheduler takes an entry out of the source and sends its task. -/
def TaskManager.take (tasks : TaskManager) (id : ScheduleId) : TaskManager :=
  { tasks with
    scheduleSource := tasks.scheduleSource.map fun source =>
      source.filter fun entry => entry.1 ≠ id }

@[simp] theorem isSome_source_take (tasks : TaskManager) (id : ScheduleId) :
    (tasks.take id).scheduleSource.isSome = tasks.scheduleSource.isSome := by
  simp [TaskManager.take]

@[simp] theorem isSome_source_performTask (tasks : TaskManager) (task : Task) (delay : Option Nat)
    (now later : Nat) : (performTask tasks task delay now later).scheduleSource.isSome =
      tasks.scheduleSource.isSome := by
  obtain ⟨source, queue⟩ := tasks
  cases source <;> cases delay <;> rfl

theorem mem_entries_take {tasks : TaskManager} {id : ScheduleId}
    {entry : ScheduleId × ScheduledTask} :
    entry ∈ (tasks.take id).entries ↔ entry ∈ tasks.entries ∧ entry.1 ≠ id := by
  obtain ⟨source, queue⟩ := tasks
  cases source <;> simp [TaskManager.take, TaskManager.entries]

theorem mem_entries_performTask {tasks : TaskManager} {source : List (ScheduleId × ScheduledTask)}
    (hsource : tasks.scheduleSource = some source) (task : Task) (delay now later : Nat)
    (entry : ScheduleId × ScheduledTask) :
    entry ∈ (performTask tasks task (some delay) now later).entries ↔
      entry = (⟨task.name, now⟩, ⟨task, later + delay * 1000000⟩) ∨
        entry ∈ tasks.entries ∧ entry.1 ≠ ⟨task.name, now⟩ := by
  obtain ⟨source', queue⟩ := tasks
  cases hsource
  simp [performTask, addSchedule, TaskManager.entries]

def TaskManager.Keyed (tasks : TaskManager) : Prop :=
  (tasks.entries.map Prod.fst).Nodup

theorem keyed_take {tasks : TaskManager} (h : tasks.Keyed) (id : ScheduleId) :
    (tasks.take id).Keyed := by
  obtain ⟨source, queue⟩ := tasks
  cases source with
  | none => exact h
  | some source =>
      exact h.sublist (List.filter_sublist.map Prod.fst)

theorem keyed_performTask {tasks : TaskManager} (h : tasks.Keyed) (task : Task) (delay : Option Nat)
    (now later : Nat) : (performTask tasks task delay now later).Keyed := by
  obtain ⟨source, queue⟩ := tasks
  cases source with
  | none => cases delay <;> exact h
  | some source =>
      cases delay with
      | none => exact h
      | some delay =>
          refine List.nodup_cons.mpr ⟨fun hmem => ?_, h.sublist (List.filter_sublist.map Prod.fst)⟩
          obtain ⟨entry, hentry, heq⟩ := List.mem_map.mp hmem
          have hne := of_decide_eq_true (List.mem_filter.mp hentry).2
          exact hne heq

theorem entry_eq_of_keyed {tasks : TaskManager} (h : tasks.Keyed)
    {a b : ScheduleId × ScheduledTask} (ha : a ∈ tasks.entries) (hb : b ∈ tasks.entries)
    (hid : a.1 = b.1) : a = b :=
  List.inj_on_of_nodup_map h ha hb hid

end TicketBooking.Tasks.Scheduling
