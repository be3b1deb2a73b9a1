import TicketBooking.Tasks.Scheduling
/-!
# The state the sessions share

The committed tables, the id sequences, the task manager, and a record of the
order ids whose scheduled cancellation has fired.
-/

namespace TicketBooking.Database.Shared

open TicketBooking.Database.Tables TicketBooking.Tasks.Scheduling

structure Store where
  db : Db := {}
  seq : Sequences := {}
  tasks : TaskManager := {}
  fired : List Nat := []
  deriving DecidableEq, Repr

namespace Store

def withDb (s : Store) (f : Db → Db) : Store := { s with db := f s.db }

@[simp] theorem withDb_db (s : Store) (f : Db → Db) : (s.withDb f).db = f s.db := rfl
@[simp] theorem withDb_seq (s : Store) (f : Db → Db) : (s.withDb f).seq = s.seq := rfl
@[simp] theorem withDb_tasks (s : Store) (f : Db → Db) : (s.withDb f).tasks = s.tasks := rfl
@[simp] theorem withDb_fired (s : Store) (f : Db → Db) : (s.withDb f).fired = s.fired := rfl

end Store

end TicketBooking.Database.Shared
