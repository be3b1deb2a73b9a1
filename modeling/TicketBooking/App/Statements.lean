import TicketBooking.App.PrimaryKeys
import TicketBooking.Catalog.Statements
import TicketBooking.Order.Statements
import TicketBooking.Users.Statements
/-!
# The services over the query layer

The order, event, ticket category and user services as the statements they hand to the
query layer.  On tables with unique keys each statement does what the model on the tables
says, so the services have the same runs in both.
-/

namespace TicketBooking.App.Statements

open TicketBooking.App.PrimaryKeys TicketBooking.App.Violations
open TicketBooking.Database.Shared TicketBooking.Database.Statements TicketBooking.Database.Tables
open TicketBooking.Library.Sessions
open TicketBooking.Users.Authentication (ServicePc)

/-! ## The statements of each session -/

def orderStatement (now : Int) (s : Store) :
    Order.Transactions.Pc → Order.Transactions.Act →
      Option (Effect Store Row × Order.Transactions.Pc)
  | .create pc, a =>
      (Order.Statements.createStatement now s pc a).map fun (eff, pc) => (eff, .create pc)
  | .confirm pc, a =>
      (Order.Statements.confirmStatement now s pc a).map fun (eff, pc) => (eff, .confirm pc)
  | .expire pc, a =>
      (Order.Statements.expireStatement now s pc a).map fun (eff, pc) => (eff, .expire pc)
  | .migrate pc, a =>
      (Order.Statements.migrateStatement now s pc a).map fun (eff, pc) => (eff, .migrate pc)
  | .waiting, a => Order.Transactions.waitingStep s a

def catalogStatement (now : Int) (s : Store) :
    Catalog.System.Pc → Catalog.System.Act → Option (Effect Store Row × Catalog.System.Pc)
  | .order pc, .order a => (orderStatement now s pc a).map fun (eff, pc) => (eff, .order pc)
  | .createEvent pc, .edit a =>
      (Catalog.Statements.createStatement s pc a).map fun (eff, pc) => (eff, .createEvent pc)
  | .createCategory pc, .edit a =>
      (Catalog.Statements.categoryStatement s pc a).map fun (eff, pc) => (eff, .createCategory pc)
  | .updateEvent pc, .edit a =>
      (Catalog.Statements.updateStatement s pc a).map fun (eff, pc) => (eff, .updateEvent pc)
  | .transition pc, .edit a =>
      (Catalog.Statements.transitionStatement s pc a).map fun (eff, pc) => (eff, .transition pc)
  | .createTicketCategory pc, .edit a =>
      (Catalog.Statements.ticketCategoryStatement s pc a).map fun (eff, pc) =>
        (eff, .createTicketCategory pc)
  | .modifyTicketCategory pc, .edit a =>
      (Catalog.Statements.modifyStatement s pc a).map fun (eff, pc) =>
        (eff, .modifyTicketCategory pc)
  | _, _ => none

def userStatement (now : Int) (s : Store) :
    Users.Transactions.UserPc → Users.Transactions.UserAct →
      Option (Effect Store Row × Users.Transactions.UserPc)
  | .create pc, a =>
      (Users.Statements.createStatement now s pc a).map fun (eff, pc) => (eff, .create pc)
  | .change pc, a =>
      (Users.Statements.changeStatement now s pc a).map fun (eff, pc) => (eff, .change pc)

def serviceStatement {ι : Type} : Protocol ι Store Row ServicePc (ServiceAct × Int)
  | _, s, .catalog pc, (.catalog a, now) =>
      (catalogStatement now s pc a).map fun (eff, pc) => (eff, .catalog pc)
  | _, s, .users pc, (.users a, now) =>
      (userStatement now s pc a).map fun (eff, pc) => (eff, .users pc)
  | _, s, pc, (.requery rows, _) => requeryStep s rows pc
  | _, _, _, _ => none

/-! ## They are the model's -/

section Agree

variable {ι : Type} {now : Int} {s : Store}

theorem orderStatement_eq (hkeys : PrimaryKeys s.db) (i : ι) (pc : Order.Transactions.Pc)
    (a : Order.Transactions.Act) :
    orderStatement now s pc a = Order.Transactions.orderStep i s pc a := by
  cases pc with
  | create pc =>
      rw [orderStatement, Order.Statements.createStatement_eq hkeys pc a]
      rfl
  | confirm pc =>
      rw [orderStatement, Order.Statements.confirmStatement_eq hkeys pc a]
      rfl
  | expire pc =>
      rw [orderStatement, Order.Statements.expireStatement_eq hkeys pc a]
      rfl
  | migrate pc =>
      rw [orderStatement, Order.Statements.migrateStatement_eq hkeys pc a]
      rfl
  | waiting => rfl

theorem catalogStatement_eq (hkeys : PrimaryKeys s.db) (i : ι) (pc : Catalog.System.Pc)
    (a : Catalog.System.Act) :
    catalogStatement now s pc a = Catalog.System.systemStep i s pc a := by
  cases a with
  | order a =>
      cases pc with
      | order pc =>
          rw [catalogStatement, orderStatement_eq hkeys i pc a]
          rfl
      | _ => rfl
  | edit a =>
      cases pc with
      | order pc => rfl
      | createEvent pc =>
          rw [catalogStatement, Catalog.Statements.createStatement_eq pc a]
          rfl
      | createCategory pc =>
          rw [catalogStatement, Catalog.Statements.categoryStatement_eq pc a]
          rfl
      | updateEvent pc =>
          rw [catalogStatement, Catalog.Statements.updateStatement_eq pc a]
          rfl
      | transition pc =>
          rw [catalogStatement, Catalog.Statements.transitionStatement_eq hkeys pc a]
          rfl
      | createTicketCategory pc =>
          rw [catalogStatement, Catalog.Statements.ticketCategoryStatement_eq hkeys pc a]
          rfl
      | modifyTicketCategory pc =>
          rw [catalogStatement, Catalog.Statements.modifyStatement_eq hkeys pc a]
          rfl

theorem userStatement_eq (hkeyed : Keyed s) (i : ι) (pc : Users.Transactions.UserPc)
    (a : Users.Transactions.UserAct) :
    userStatement now s pc a = Users.Transactions.userStep i s pc a := by
  cases pc with
  | create pc =>
      rw [userStatement, Users.Statements.createStatement_eq hkeyed.emails pc a]
      rfl
  | change pc =>
      rw [userStatement, Users.Statements.changeStatement_eq hkeyed.primaryKeys pc a]
      rfl

theorem serviceStatement_eq (i : ι) (s : Store) (pc : ServicePc) (a : ServiceAct × Int)
    (hkeyed : Keyed s) : serviceStatement i s pc a = serviceStep i s pc a.1 := by
  obtain ⟨a, now⟩ := a
  cases a with
  | catalog a =>
      cases pc with
      | catalog pc =>
          rw [serviceStatement, catalogStatement_eq hkeyed.primaryKeys i pc a]
          rfl
      | users pc => rfl
  | users a =>
      cases pc with
      | catalog pc => rfl
      | users pc =>
          rw [serviceStatement, userStatement_eq hkeyed i pc a]
          rfl
  | requery rows => cases pc <;> rfl

end Agree

/-- From tables with unique keys, the services' calls have the same interleavings
whether their statements go through the query layer or are those of the model. -/
theorem statements_same_runs {ι : Type} [DecidableEq ι] {s : Store} {calls : ι → Call}
    {w : World ι Store Row ServicePc} (hkeyed : Keyed s) :
    Run serviceStatement anyStep (atCalls s calls) w ↔
      Run serviceStep anyStep (atCalls s calls) w :=
  Run.agree Prod.fst (fun a => ⟨(a, 0), rfl⟩) (fun _ hrun => keyed_of_run hkeyed hrun)
    fun i s pc a hkeyed' => serviceStatement_eq i s pc a hkeyed'

def openHall : Store where
  db := { ticketCategories := [Order.Transactions.parterre] }
  seq := { ticketCategories := 2 }

theorem keyed_openHall : Keyed openHall where
  ids model := by
    cases model with
    | ticketCategory => exact ⟨List.nodup_singleton _, fun id hid => List.mem_singleton.mp hid ▸ by
        decide⟩
    | _ => exact ⟨List.nodup_nil, fun _ h => by cases h⟩
  emails := List.nodup_nil
  categoryNames := List.nodup_nil

/-- One booking through the query layer. -/
theorem statements_same_runs_openHall :
    ∃ w, Run serviceStatement anyStep
        (atCalls openHall fun _ : Unit => .order (.create Order.Transactions.onePlace)) w ∧
      w.shared.db.tickets.length = 1 := by
  have hsteps : ∃ w, (atCalls openHall fun _ : Unit =>
      .order (.create Order.Transactions.onePlace)).steps serviceStep
        ((Order.Transactions.bookOnePlace ()).map fun step =>
          (step.1, .catalog (.order step.2))) = some w ∧ w.shared.db.tickets.length = 1 :=
    ⟨_, rfl, rfl⟩
  obtain ⟨w, hw, hlength⟩ := hsteps
  exact ⟨w, (statements_same_runs keyed_openHall).mpr (Run.of_steps hw), hlength⟩

end TicketBooking.App.Statements
