import TicketBooking.App.Violations
import TicketBooking.Catalog.Keys
import TicketBooking.Database.Statements
import TicketBooking.Library.UniqueKeys
/-!
# Primary keys

The order, event, ticket category and user services together: in every interleaving of
their calls the ids of each of their seven tables stay unique, because each insert draws
its id from the sequence of the table, and so do the email addresses of the users and the
names of the event categories, which are inserted under the lock of their index entry.
-/

namespace TicketBooking.App.PrimaryKeys

open TicketBooking.App.Violations
open TicketBooking.Database.Models (Model)
open TicketBooking.Database.Shared TicketBooking.Database.Statements TicketBooking.Database.Tables
open TicketBooking.Library.Sessions TicketBooking.Library.UniqueKeys
open TicketBooking.Order.Transactions (chunkSize drawItemIds drawOrderId drawTicketIds)
open TicketBooking.Users.Authentication (ServicePc)

/-! ## The keys of each table -/

def storedIds (db : Db) : Model → List Nat
  | .user => db.users.map fun user => user.id
  | .eventCategory => db.eventCategories.map fun category => category.id
  | .event => db.events.map fun event => event.id
  | .ticketCategory => db.ticketCategories.map fun category => category.id
  | .order => db.orders.map fun order => order.id
  | .orderItem => db.orderItems.map fun item => item.id
  | .ticket => db.tickets.map fun ticket => ticket.id

def nextId (seq : Sequences) : Model → Nat
  | .user => seq.users
  | .eventCategory => seq.eventCategories
  | .event => seq.events
  | .ticketCategory => seq.ticketCategories
  | .order => seq.orders
  | .orderItem => seq.orderItems
  | .ticket => seq.tickets

def rowIds (model : Model) (id : Nat) (table : Model) : List Nat :=
  if table = model then [id] else []

def bookingIds (order : Order) (items : List OrderItem) (tickets : List Ticket) : Model → List Nat
  | .order => [order.id]
  | .orderItem => items.map fun item => item.id
  | .ticket => tickets.map fun ticket => ticket.id
  | _ => []

def drawnIds : ServicePc → Model → List Nat
  | .catalog (.order (.create (.insertingItems order items _))) => bookingIds order items []
  | .catalog (.order (.create (.insertingTickets order items tickets _))) =>
      bookingIds order items tickets
  | .catalog (.createEvent (.inserted event)) => rowIds .event event.id
  | .catalog (.createCategory (.inserting category)) => rowIds .eventCategory category.id
  | .catalog (.createCategory (.keyed category)) => rowIds .eventCategory category.id
  | .catalog (.createCategory (.inserted category)) => rowIds .eventCategory category.id
  | .catalog (.createTicketCategory (.inserting category)) => rowIds .ticketCategory category.id
  | .catalog (.createTicketCategory (.keyed category)) => rowIds .ticketCategory category.id
  | .catalog (.createTicketCategory (.inserted category)) => rowIds .ticketCategory category.id
  | .users (.create (.inserting user)) => rowIds .user user.id
  | .users (.create (.keyed user)) => rowIds .user user.id
  | .users (.create (.inserted user)) => rowIds .user user.id
  | _ => fun _ => []

/-- A write keeps the id and the address of the row it changes. -/
def Ready : ServicePc → Prop
  | .catalog (.modifyTicketCategory (.modified category new)) => ∀ row ∈ new, row.id = category.id
  | .users (.change (.updated change)) =>
      ∀ user, (change.write user).id = user.id ∧ (change.write user).email = user.email
  | _ => True

def numbering (model : Model) : Numbering Store ServicePc where
  stored s := storedIds s.db model
  next s := nextId s.seq model
  drawn pc := drawnIds pc model
  ready := Ready

/-! ## What a statement does to the ids -/

section Steps

variable {s s' : Store} {pc pc' : ServicePc} {model : Model}

theorem moves_of_same (hdb : s'.db = s.db) (hseq : s'.seq = s.seq)
    (hdrawn : drawnIds pc' = drawnIds pc ∨ drawnIds pc' = fun _ => []) :
    (numbering model).Moves s s' pc pc' := by
  refine .keeps ?_ ?_ ?_
  · show (storedIds s'.db model).Sublist (storedIds s.db model)
    rw [hdb]
  · show nextId s.seq model ≤ nextId s'.seq model
    rw [hseq]
  · show (drawnIds pc' model).Sublist (drawnIds pc model)
    rcases hdrawn with h | h
    · rw [h]
    · rw [h]
      exact List.nil_sublist _

theorem map_assignIds_range' {α β : Type} {mk : Nat → α → β} {f : β → Nat}
    (h : ∀ k x, f (mk k x) = k) (next : Nat) (xs : List α) :
    (assignIds mk next xs).map f = List.range' next xs.length := by
  induction xs generalizing next with
  | nil => rfl
  | cons x xs ih => rw [assignIds, List.map_cons, h, ih, List.length_cons, List.range'_succ]

theorem moves_createOrder {pc pc' : Order.Transactions.CreatePc} {a : Order.Transactions.Act}
    {eff : Effect Store Row} (h : Order.Transactions.CreateStep s pc a eff pc') :
    (numbering model).Moves s (eff.apply s) (.catalog (.order (.create pc)))
      (.catalog (.order (.create pc'))) := by
  cases h with
  | insertOrder =>
      cases model with
      | order => exact .draws 1 rfl rfl rfl
      | _ => exact .keeps (List.Sublist.refl _) (le_refl _) (List.Sublist.refl _)
  | @insertItems order items todo =>
      cases model with
      | orderItem =>
          refine .draws (todo.take chunkSize).length rfl rfl ?_
          show (items ++ _).map _ = items.map _ ++ _
          rw [List.map_append, map_assignIds_range' fun _ _ => rfl]
          rfl
      | _ => exact .keeps (List.Sublist.refl _) (le_refl _) (List.Sublist.refl _)
  | @insertTickets order items tickets todo =>
      cases model with
      | ticket =>
          refine .draws (todo.take chunkSize).length rfl rfl ?_
          show (tickets ++ _).map _ = tickets.map _ ++ _
          rw [List.map_append, map_assignIds_range' fun _ _ => rfl]
          rfl
      | _ => exact .keeps (List.Sublist.refl _) (le_refl _) (List.Sublist.refl _)
  | commit =>
      cases model with
      | order => exact .stores (List.map_append ..) rfl rfl
      | orderItem => exact .stores (List.map_append ..) rfl rfl
      | ticket => exact .stores (List.map_append ..) rfl rfl
      | _ => exact .keeps (List.Sublist.refl _) (le_refl _) (List.Sublist.refl _)
  | itemsDone => exact moves_of_same rfl rfl (.inl rfl)
  | _ => exact moves_of_same rfl rfl (.inr rfl)

theorem moves_of_ids (hstored : ∀ model, (storedIds s'.db model).Sublist (storedIds s.db model))
    (hseq : s'.seq = s.seq) (hdrawn : drawnIds pc' = fun _ => []) :
    (numbering model).Moves s s' pc pc' := by
  refine .keeps (hstored model) ?_ ?_
  · show nextId s.seq model ≤ nextId s'.seq model
    rw [hseq]
  · show (drawnIds pc' model).Sublist (drawnIds pc model)
    rw [hdrawn]
    exact List.nil_sublist _

theorem moves_of_draw (new : Model) {id : Nat} (hdb : s'.db = s.db) (hid : nextId s.seq new = id)
    (hnext : ∀ model, nextId s'.seq model = nextId s.seq model + if model = new then 1 else 0)
    (hdrawn : drawnIds pc = fun _ => []) (hdrawn' : drawnIds pc' = rowIds new id) :
    (numbering model).Moves s s' pc pc' := by
  by_cases hmodel : model = new
  · refine .draws 1 (congrArg (storedIds · model) hdb) ?_ ?_
    · show nextId s'.seq model = nextId s.seq model + 1
      rw [hnext, if_pos hmodel]
    · show drawnIds pc' model = drawnIds pc model ++ List.range' (nextId s.seq model) 1
      rw [hdrawn, hdrawn', rowIds, if_pos hmodel, hmodel, hid]
      rfl
  · refine .keeps ?_ ?_ ?_
    · show (storedIds s'.db model).Sublist (storedIds s.db model)
      rw [hdb]
    · show nextId s.seq model ≤ nextId s'.seq model
      rw [hnext]
      exact Nat.le_add_right _ _
    · show (drawnIds pc' model).Sublist (drawnIds pc model)
      rw [hdrawn', rowIds, if_neg hmodel]
      exact List.nil_sublist _

theorem moves_of_store (new : Model) {id : Nat} (hseq : s'.seq = s.seq)
    (hstored : ∀ model, storedIds s'.db model = storedIds s.db model ++ rowIds new id model)
    (hdrawn : drawnIds pc = rowIds new id) (hdrawn' : drawnIds pc' = fun _ => []) :
    (numbering model).Moves s s' pc pc' := by
  refine .stores ?_ (congrArg (nextId · model) hseq) (congrFun hdrawn' model)
  show storedIds s'.db model = storedIds s.db model ++ drawnIds pc model
  rw [hstored, hdrawn]

theorem storedIds_setOrderStatus (id : Nat) (status : OrderStatus) (db : Db) :
    (Order.Transactions.setOrderStatus id status db.orders).map (fun order => order.id) =
      db.orders.map fun order => order.id := by
  simp only [Order.Transactions.setOrderStatus, List.map_map]
  refine List.map_congr_left fun order _ => ?_
  simp only [Function.comp_apply]
  split_ifs <;> rfl

theorem storedIds_payBooking (id : Nat) (ticketIds : List Nat) (db : Db) :
    storedIds (Order.Transactions.payBooking id ticketIds db) = storedIds db := by
  funext model
  cases model with
  | order => exact storedIds_setOrderStatus id .paid db
  | ticket =>
      show ((db.tickets.map _).map _ : List Nat) = _
      rw [List.map_map]
      refine List.map_congr_left fun ticket _ => ?_
      simp only [Function.comp_apply]
      split_ifs <;> rfl
  | _ => rfl

theorem storedIds_cancelBooking (id : Nat) (ticketIds : List Nat) (db : Db) (model : Model) :
    (storedIds (Order.Transactions.cancelBooking id ticketIds db) model).Sublist
      (storedIds db model) := by
  cases model with
  | order =>
      show List.Sublist ((Order.Transactions.setOrderStatus id .cancelled db.orders).map _) _
      rw [storedIds_setOrderStatus]
      exact List.Sublist.refl _
  | ticket => exact List.filter_sublist.map _
  | _ => exact List.Sublist.refl _

theorem storedIds_migrateOrders (userId : Nat) (ids : List Nat) (db : Db) :
    storedIds (Order.Transactions.migrateOrders userId ids db) = storedIds db := by
  funext model
  cases model with
  | order =>
      show ((db.orders.map _).map _ : List Nat) = _
      rw [List.map_map]
      refine List.map_congr_left fun order _ => ?_
      simp only [Function.comp_apply]
      split_ifs <;> rfl
  | _ => rfl

theorem storedIds_replaceEvent (event : Event) (db : Db) :
    storedIds (Catalog.Editing.replaceEvent event db) = storedIds db := by
  funext model
  cases model with
  | event => exact Catalog.Keys.map_id_replaceEvent event db
  | _ => rfl

theorem storedIds_setState (id : Nat) (state : EventState) (db : Db) :
    storedIds (Catalog.Editing.setState id state db) = storedIds db := by
  funext model
  cases model with
  | event => exact Catalog.Keys.map_id_setState id state db
  | _ => rfl

theorem storedIds_putTicketCategory {id : Nat} {new : Option TicketCategory}
    (hnew : ∀ category ∈ new, category.id = id) (db : Db) (model : Model) :
    (storedIds (Catalog.Editing.putTicketCategory id new db) model).Sublist
      (storedIds db model) := by
  cases model with
  | ticketCategory => exact Catalog.Keys.map_id_putTicketCategory hnew db
  | _ => exact List.Sublist.refl _

theorem storedIds_updateUser {id : Nat} {write : User → User}
    (hwrite : ∀ user, (write user).id = user.id) (db : Db) :
    storedIds (Users.Accounts.updateUser id write db) = storedIds db := by
  funext model
  cases model with
  | user =>
      show ((db.users.map _).map _ : List Nat) = _
      rw [List.map_map]
      refine List.map_congr_left fun user _ => ?_
      simp only [Function.comp_apply]
      split_ifs
      · exact hwrite user
      · rfl
  | _ => rfl

theorem moves_confirm {pc pc' : Order.Transactions.ConfirmPc} {a : Order.Transactions.Act}
    {eff : Effect Store Row} (h : Order.Transactions.ConfirmStep s pc a eff pc') :
    (numbering model).Moves s (eff.apply s) (.catalog (.order (.confirm pc)))
      (.catalog (.order (.confirm pc'))) := by
  cases h with
  | @commit id ticketIds =>
      refine moves_of_ids (fun model => ?_) rfl rfl
      show (storedIds (Order.Transactions.payBooking id ticketIds s.db) model).Sublist _
      rw [storedIds_payBooking]
  | _ => exact moves_of_same rfl rfl (.inr rfl)

theorem moves_expire {pc pc' : Order.Transactions.ExpirePc} {a : Order.Transactions.Act}
    {eff : Effect Store Row} (h : Order.Transactions.ExpireStep s pc a eff pc') :
    (numbering model).Moves s (eff.apply s) (.catalog (.order (.expire pc)))
      (.catalog (.order (.expire pc'))) := by
  cases h with
  | @commit id ticketIds =>
      exact moves_of_ids (storedIds_cancelBooking id ticketIds s.db) rfl rfl
  | _ => exact moves_of_same rfl rfl (.inr rfl)

theorem moves_migrate {pc pc' : Order.Transactions.MigratePc} {a : Order.Transactions.Act}
    {eff : Effect Store Row} (h : Order.Transactions.MigrateStep s pc a eff pc') :
    (numbering model).Moves s (eff.apply s) (.catalog (.order (.migrate pc)))
      (.catalog (.order (.migrate pc'))) := by
  cases h with
  | @commit email userId done =>
      refine moves_of_ids (fun model => ?_) rfl rfl
      show (storedIds (Order.Transactions.migrateOrders userId done s.db) model).Sublist _
      rw [storedIds_migrateOrders]
  | _ => exact moves_of_same rfl rfl (.inr rfl)

theorem moves_createEvent {pc pc' : Catalog.Transactions.CreatePc}
    {a : Catalog.Transactions.EditAct} {eff : Effect Store Row}
    (h : Catalog.Transactions.CreateStep s pc a eff pc') :
    (numbering model).Moves s (eff.apply s) (.catalog (.createEvent pc))
      (.catalog (.createEvent pc')) := by
  cases h with
  | @insert data userId now event hnew =>
      have hid : event.id = s.seq.events := by
        obtain ⟨_, -, rfl⟩ := Option.map_eq_some_iff.mp hnew
        rfl
      refine moves_of_draw .event rfl hid.symm (fun model => ?_) rfl rfl
      cases model <;> rfl
  | commit =>
      refine moves_of_store .event rfl (fun model => ?_) rfl rfl
      cases model with
      | event => exact List.map_append ..
      | _ => exact (List.append_nil _).symm
  | _ => exact moves_of_same rfl rfl (.inr rfl)

theorem moves_createCategory {pc pc' : Catalog.Transactions.CategoryPc}
    {a : Catalog.Transactions.EditAct} {eff : Effect Store Row}
    (h : Catalog.Transactions.CategoryStep s pc a eff pc') :
    (numbering model).Moves s (eff.apply s) (.catalog (.createCategory pc))
      (.catalog (.createCategory pc')) := by
  cases h with
  | draw =>
      refine moves_of_draw .eventCategory rfl rfl (fun model => ?_) rfl rfl
      cases model <;> rfl
  | commit =>
      refine moves_of_store .eventCategory rfl (fun model => ?_) rfl rfl
      cases model with
      | eventCategory => exact List.map_append ..
      | _ => exact (List.append_nil _).symm
  | lockName => exact moves_of_same rfl rfl (.inl rfl)
  | insert => exact moves_of_same rfl rfl (.inl rfl)
  | _ => exact moves_of_same rfl rfl (.inr rfl)

theorem moves_updateEvent {pc pc' : Catalog.Transactions.UpdatePc}
    {a : Catalog.Transactions.EditAct} {eff : Effect Store Row}
    (h : Catalog.Transactions.UpdateStep s pc a eff pc') :
    (numbering model).Moves s (eff.apply s) (.catalog (.updateEvent pc))
      (.catalog (.updateEvent pc')) := by
  cases h with
  | @commit event now =>
      refine moves_of_ids (fun model => ?_) rfl rfl
      show (storedIds (Catalog.Editing.replaceEvent event s.db) model).Sublist _
      rw [storedIds_replaceEvent]
  | _ => exact moves_of_same rfl rfl (.inr rfl)

theorem moves_transition {pc pc' : Catalog.Transactions.TransitionPc}
    {a : Catalog.Transactions.EditAct} {eff : Effect Store Row}
    (h : Catalog.Transactions.TransitionStep s pc a eff pc') :
    (numbering model).Moves s (eff.apply s) (.catalog (.transition pc))
      (.catalog (.transition pc')) := by
  cases h with
  | @commit t now =>
      refine moves_of_ids (fun model => ?_) rfl rfl
      show (storedIds (Catalog.Editing.setState t.eventId t.target s.db) model).Sublist _
      rw [storedIds_setState]
  | _ => exact moves_of_same rfl rfl (.inr rfl)

theorem moves_createTicketCategory {pc pc' : Catalog.Transactions.TicketCategoryPc}
    {a : Catalog.Transactions.EditAct} {eff : Effect Store Row}
    (h : Catalog.Transactions.TicketCategoryStep s pc a eff pc') :
    (numbering model).Moves s (eff.apply s) (.catalog (.createTicketCategory pc))
      (.catalog (.createTicketCategory pc')) := by
  cases h with
  | draw =>
      refine moves_of_draw .ticketCategory rfl rfl (fun model => ?_) rfl rfl
      cases model <;> rfl
  | commit =>
      refine moves_of_store .ticketCategory rfl (fun model => ?_) rfl rfl
      cases model with
      | ticketCategory => exact List.map_append ..
      | _ => exact (List.append_nil _).symm
  | lockName => exact moves_of_same rfl rfl (.inl rfl)
  | insert => exact moves_of_same rfl rfl (.inl rfl)
  | _ => exact moves_of_same rfl rfl (.inr rfl)

theorem moves_modifyTicketCategory {pc pc' : Catalog.Transactions.ModifyPc}
    {a : Catalog.Transactions.EditAct} {eff : Effect Store Row}
    (h : Catalog.Transactions.ModifyStep s pc a eff pc')
    (hready : Ready (.catalog (.modifyTicketCategory pc))) :
    (numbering model).Moves s (eff.apply s) (.catalog (.modifyTicketCategory pc))
      (.catalog (.modifyTicketCategory pc')) := by
  cases h with
  | commit => exact moves_of_ids (storedIds_putTicketCategory hready s.db) rfl rfl
  | _ => exact moves_of_same rfl rfl (.inr rfl)

theorem moves_createUser {pc pc' : Users.Transactions.CreatePc} {a : Users.Transactions.UserAct}
    {eff : Effect Store Row} (h : Users.Transactions.CreateStep s pc a eff pc') :
    (numbering model).Moves s (eff.apply s) (.users (.create pc)) (.users (.create pc')) := by
  cases h with
  | draw =>
      refine moves_of_draw .user rfl rfl (fun model => ?_) rfl rfl
      cases model <;> rfl
  | commit =>
      refine moves_of_store .user rfl (fun model => ?_) rfl rfl
      cases model with
      | user => exact List.map_append ..
      | _ => exact (List.append_nil _).symm
  | lockEmail => exact moves_of_same rfl rfl (.inl rfl)
  | insert => exact moves_of_same rfl rfl (.inl rfl)
  | _ => exact moves_of_same rfl rfl (.inr rfl)

theorem moves_change {pc pc' : Users.Transactions.ChangePc} {a : Users.Transactions.UserAct}
    {eff : Effect Store Row} (h : Users.Transactions.ChangeStep s pc a eff pc')
    (hready : Ready (.users (.change pc))) :
    (numbering model).Moves s (eff.apply s) (.users (.change pc)) (.users (.change pc')) := by
  cases h with
  | @commit change =>
      refine moves_of_ids (fun model => ?_) rfl rfl
      show (storedIds (Users.Accounts.updateUser change.userId change.write s.db) model).Sublist _
      rw [storedIds_updateUser fun user => (hready user).1]
  | _ => exact moves_of_same rfl rfl (.inr rfl)

theorem ready_modify {pc pc' : Catalog.Transactions.ModifyPc} {a : Catalog.Transactions.EditAct}
    {eff : Effect Store Row} (h : Catalog.Transactions.ModifyStep s pc a eff pc') :
    Ready (.catalog (.modifyTicketCategory pc')) := by
  cases h with
  | modify hresult =>
      intro row hrow
      cases hrow
      exact (Catalog.Editing.Change.result_keeps hresult).1
  | _ => trivial

theorem ready_change {pc pc' : Users.Transactions.ChangePc} {a : Users.Transactions.UserAct}
    {eff : Effect Store Row} (h : Users.Transactions.ChangeStep s pc a eff pc') :
    Ready (.users (.change pc')) := by
  cases h with
  | update hruns => cases hruns <;> exact fun _ => ⟨rfl, rfl⟩
  | _ => trivial

theorem service_ready {a : ServiceAct} {eff : Effect Store Row} (h : ServiceStep s pc a eff pc') :
    Ready pc' := by
  cases h with
  | modifyTicketCategory h => exact ready_modify (Catalog.Transactions.modifyStep_cases h)
  | change h => exact ready_change (Users.Transactions.changeStep_cases h)
  | _ => trivial

/-- A statement of any service draws, stores or leaves the ids of each table. -/
theorem service_ids {a : ServiceAct} {eff : Effect Store Row} (h : ServiceStep s pc a eff pc')
    (hready : Ready pc) : (numbering model).Moves s (eff.apply s) pc pc' := by
  cases h with
  | createOrder h => exact moves_createOrder (Order.Transactions.createStep_cases h)
  | confirm h => exact moves_confirm (Order.Transactions.confirmStep_cases h)
  | expire h => exact moves_expire (Order.Transactions.expireStep_cases h)
  | migrate h => exact moves_migrate (Order.Transactions.migrateStep_cases h)
  | fire => exact moves_of_same rfl rfl (.inr rfl)
  | @requery call categories rows =>
      unfold Order.Transactions.afterSelect
      split
      · exact moves_of_same rfl rfl (.inr rfl)
      · split <;> exact moves_of_same rfl rfl (.inr rfl)
  | createEvent h => exact moves_createEvent (Catalog.Transactions.createStep_cases h)
  | createCategory h => exact moves_createCategory (Catalog.Transactions.categoryStep_cases h)
  | updateEvent h => exact moves_updateEvent (Catalog.Transactions.updateStep_cases h)
  | transition h => exact moves_transition (Catalog.Transactions.transitionStep_cases h)
  | createTicketCategory h =>
      exact moves_createTicketCategory (Catalog.Transactions.ticketCategoryStep_cases h)
  | modifyTicketCategory h =>
      exact moves_modifyTicketCategory (Catalog.Transactions.modifyStep_cases h) hready
  | createUser h => exact moves_createUser (Users.Transactions.createStep_cases h)
  | change h => exact moves_change (Users.Transactions.changeStep_cases h) hready

end Steps

/-! ## Addresses and names -/

/-- The addresses of the users, and the session that has locked one or found it free. -/
def emails : Locking Store Row ServicePc String where
  stored s := s.db.users.map fun user => user.email
  row := .userEmail
  locked
    | .users (.create (.keyed user)) => some user.email
    | _ => none
  free
    | .users (.create (.inserted user)) => some user.email
    | _ => none
  ready := Ready

def categoryNames : Locking Store Row ServicePc String where
  stored s := s.db.eventCategories.map fun category => category.name
  row := .eventCategoryName
  locked
    | .catalog (.createCategory (.keyed category)) => some category.name
    | _ => none
  free
    | .catalog (.createCategory (.inserted category)) => some category.name
    | _ => none
  ready := Ready

section Locks

variable {s : Store} {pc pc' : ServicePc} {a : ServiceAct} {eff : Effect Store Row}

theorem emails_createUser {pc pc' : Users.Transactions.CreatePc} {a : Users.Transactions.UserAct}
    (h : Users.Transactions.CreateStep s pc a eff pc') :
    emails.Moves s eff (.users (.create pc)) (.users (.create pc')) := by
  cases h with
  | @lockEmail user => exact .locks user.email rfl rfl rfl
  | @insert user hfree =>
      refine .finds user.email rfl rfl (fun hmem => ?_) rfl rfl
      obtain ⟨other, hother, hemail⟩ := List.mem_map.mp hmem
      exact List.find?_eq_none.mp hfree other hother (decide_eq_true hemail)
  | @commit user => exact .stores user.email rfl (List.map_append ..) rfl rfl
  | _ => exact .keeps (List.Sublist.refl _) rfl rfl

theorem emails_change {pc pc' : Users.Transactions.ChangePc} {a : Users.Transactions.UserAct}
    (h : Users.Transactions.ChangeStep s pc a eff pc') (hready : Ready (.users (.change pc))) :
    emails.Moves s eff (.users (.change pc)) (.users (.change pc')) := by
  cases h with
  | @commit change =>
      refine .keeps ?_ rfl rfl
      show List.Sublist ((s.db.users.map _).map _) (s.db.users.map _)
      rw [List.map_map]
      refine (List.map_congr_left fun user _ => ?_) ▸ List.Sublist.refl _
      simp only [Function.comp_apply]
      split_ifs
      · exact (hready user).2.symm
      · rfl
  | _ => exact .keeps (List.Sublist.refl _) rfl rfl

/-- No other service writes a user. -/
theorem service_emails (h : ServiceStep s pc a eff pc') (hready : Ready pc) :
    emails.Moves s eff pc pc' := by
  cases h with
  | createUser h => exact emails_createUser (Users.Transactions.createStep_cases h)
  | change h => exact emails_change (Users.Transactions.changeStep_cases h) hready
  | createOrder h =>
      cases Order.Transactions.createStep_cases h <;> exact .keeps (List.Sublist.refl _) rfl rfl
  | confirm h =>
      cases Order.Transactions.confirmStep_cases h <;> exact .keeps (List.Sublist.refl _) rfl rfl
  | expire h =>
      cases Order.Transactions.expireStep_cases h <;> exact .keeps (List.Sublist.refl _) rfl rfl
  | migrate h =>
      cases Order.Transactions.migrateStep_cases h <;> exact .keeps (List.Sublist.refl _) rfl rfl
  | fire => exact .keeps (List.Sublist.refl _) rfl rfl
  | requery =>
      unfold Order.Transactions.afterSelect
      split
      · exact .keeps (List.Sublist.refl _) rfl rfl
      · split <;> exact .keeps (List.Sublist.refl _) rfl rfl
  | createEvent h =>
      cases Catalog.Transactions.createStep_cases h <;> exact .keeps (List.Sublist.refl _) rfl rfl
  | createCategory h =>
      cases Catalog.Transactions.categoryStep_cases h <;> exact .keeps (List.Sublist.refl _) rfl rfl
  | updateEvent h =>
      cases Catalog.Transactions.updateStep_cases h <;> exact .keeps (List.Sublist.refl _) rfl rfl
  | transition h =>
      cases Catalog.Transactions.transitionStep_cases h <;>
        exact .keeps (List.Sublist.refl _) rfl rfl
  | createTicketCategory h =>
      cases Catalog.Transactions.ticketCategoryStep_cases h <;>
        exact .keeps (List.Sublist.refl _) rfl rfl
  | modifyTicketCategory h =>
      cases Catalog.Transactions.modifyStep_cases h <;> exact .keeps (List.Sublist.refl _) rfl rfl

/-- The name is looked at under the lock of its index entry. -/
theorem name_free {category : EventCategory} {a : Catalog.Transactions.EditAct}
    {pc' : Catalog.Transactions.CategoryPc}
    (h : Catalog.Transactions.categoryStep s (.keyed category) a = some (.stay, pc')) :
    category.name ∉ categoryNames.stored s := by
  cases a with
  | fail => cases h
  | run now =>
      simp only [Catalog.Transactions.categoryStep] at h
      split_ifs at h with htaken
      · cases h
      · intro hmem
        obtain ⟨other, hother, hname⟩ := List.mem_map.mp hmem
        exact htaken (List.any_eq_true.mpr ⟨other, hother, decide_eq_true hname⟩)

theorem names_createCategory {pc pc' : Catalog.Transactions.CategoryPc}
    {a : Catalog.Transactions.EditAct}
    (h : Catalog.Transactions.categoryStep s pc a = some (eff, pc')) :
    categoryNames.Moves s eff (.catalog (.createCategory pc)) (.catalog (.createCategory pc')) := by
  cases Catalog.Transactions.categoryStep_cases h with
  | @lockName category => exact .locks category.name rfl rfl rfl
  | @insert category => exact .finds category.name rfl rfl (name_free h) rfl rfl
  | @commit category => exact .stores category.name rfl (List.map_append ..) rfl rfl
  | _ => exact .keeps (List.Sublist.refl _) rfl rfl

theorem service_names (h : ServiceStep s pc a eff pc') : categoryNames.Moves s eff pc pc' := by
  cases h with
  | createCategory h => exact names_createCategory h
  | createOrder h =>
      cases Order.Transactions.createStep_cases h <;> exact .keeps (List.Sublist.refl _) rfl rfl
  | confirm h =>
      cases Order.Transactions.confirmStep_cases h <;> exact .keeps (List.Sublist.refl _) rfl rfl
  | expire h =>
      cases Order.Transactions.expireStep_cases h <;> exact .keeps (List.Sublist.refl _) rfl rfl
  | migrate h =>
      cases Order.Transactions.migrateStep_cases h <;> exact .keeps (List.Sublist.refl _) rfl rfl
  | fire => exact .keeps (List.Sublist.refl _) rfl rfl
  | requery =>
      unfold Order.Transactions.afterSelect
      split
      · exact .keeps (List.Sublist.refl _) rfl rfl
      · split <;> exact .keeps (List.Sublist.refl _) rfl rfl
  | createEvent h =>
      cases Catalog.Transactions.createStep_cases h <;> exact .keeps (List.Sublist.refl _) rfl rfl
  | updateEvent h =>
      cases Catalog.Transactions.updateStep_cases h <;> exact .keeps (List.Sublist.refl _) rfl rfl
  | transition h =>
      cases Catalog.Transactions.transitionStep_cases h <;>
        exact .keeps (List.Sublist.refl _) rfl rfl
  | createTicketCategory h =>
      cases Catalog.Transactions.ticketCategoryStep_cases h <;>
        exact .keeps (List.Sublist.refl _) rfl rfl
  | modifyTicketCategory h =>
      cases Catalog.Transactions.modifyStep_cases h <;> exact .keeps (List.Sublist.refl _) rfl rfl
  | createUser h =>
      cases Users.Transactions.createStep_cases h <;> exact .keeps (List.Sublist.refl _) rfl rfl
  | change h =>
      cases Users.Transactions.changeStep_cases h <;> exact .keeps (List.Sublist.refl _) rfl rfl

end Locks

/-! ## Every run -/

/-- One call of the order, event, ticket category or user service. -/
inductive Call
  | order (call : Order.Transactions.Call)
  | catalog (call : Catalog.System.Call)
  | users (call : Users.Accounts.Call)

def Call.pc : Call → ServicePc
  | .order call => .catalog (.order call.pc)
  | .catalog call => .catalog call.pc
  | .users call => .users (Users.Transactions.callPc call)

def atCalls {ι : Type} (s : Store) (calls : ι → Call) : World ι Store Row ServicePc :=
  World.start s fun i => (calls i).pc

/-- The ids are unique and behind their sequences; the addresses and the names are unique. -/
structure Keyed (s : Store) : Prop where
  ids : ∀ model, (numbering model).Inv s
  emails : (s.db.users.map fun user => user.email).Nodup
  categoryNames : (s.db.eventCategories.map fun category => category.name).Nodup

theorem drawnIds_call (call : Call) : drawnIds call.pc = fun _ => [] := by
  cases call with
  | order call => cases call <;> rfl
  | catalog call => cases call <;> rfl
  | users call => cases call <;> rfl

theorem ready_call (call : Call) : Ready call.pc := by
  cases call with
  | order call => cases call <;> trivial
  | catalog call => cases call <;> trivial
  | users call => cases call <;> trivial

section Runs

variable {ι : Type} [DecidableEq ι] {s : Store} {calls : ι → Call}
  {w : World ι Store Row ServicePc}

theorem numbered_of_run (hkeyed : Keyed s) (hrun : Run serviceStep anyStep (atCalls s calls) w)
    (model : Model) : (numbering model).outline.Valid w := by
  have hsound : ((numbering model).outline (ι := ι)).Sound serviceStep
      (anyStep : World ι Store Row ServicePc → _) :=
    Numbering.sound fun i s pc a eff pc' hstep hready =>
      ⟨service_ids (serviceStep_cases hstep) hready, service_ready (serviceStep_cases hstep)⟩
  refine hsound.run hrun ⟨hkeyed.ids model, fun i => ?_, fun i j _ => ?_⟩
  · have hnone : (numbering model).drawn ((atCalls s calls).pc i) = [] :=
      congrFun (drawnIds_call (calls i)) model
    refine ⟨hnone ▸ List.nodup_nil, ?_, ?_, ready_call (calls i)⟩
    all_goals
      intro key hkey
      rw [hnone] at hkey
      cases hkey
  · intro key hkey
    have hnone : (numbering model).drawn ((atCalls s calls).pc i) = [] :=
      congrFun (drawnIds_call (calls i)) model
    rw [hnone] at hkey
    cases hkey

theorem ids_of_run (hkeyed : Keyed s) (hrun : Run serviceStep anyStep (atCalls s calls) w)
    (model : Model) : (numbering model).Inv w.shared :=
  (numbered_of_run hkeyed hrun model).inv

omit [DecidableEq ι] in
theorem at_of_idle {L : Locking Store Row ServicePc String} (hlocked : ∀ call : Call,
    L.locked call.pc = none) (hfree : ∀ call : Call, L.free call.pc = none)
    (hready : L.ready = Ready) (hstored : (L.stored s).Nodup) :
    (L.outline (ι := ι)).Valid (atCalls s calls) := by
  refine ⟨hstored, fun i => ⟨fun key hkey => ?_, fun key hkey => ?_, ?_⟩, fun _ _ _ => trivial⟩
  · exact absurd ((hlocked (calls i)).symm.trans hkey) (Option.some_ne_none key).symm
  · exact absurd ((hfree (calls i)).symm.trans hkey) (Option.some_ne_none key).symm
  · rw [hready]
    exact ready_call (calls i)

theorem emails_of_run (hkeyed : Keyed s) (hrun : Run serviceStep anyStep (atCalls s calls) w) :
    (w.shared.db.users.map fun user => user.email).Nodup := by
  have hsound : (emails.outline (ι := ι)).Sound serviceStep
      (anyStep : World ι Store Row ServicePc → _) :=
    Locking.sound fun i s pc a eff pc' hstep hready =>
      ⟨service_emails (serviceStep_cases hstep) hready, service_ready (serviceStep_cases hstep)⟩
  refine (hsound.run hrun (at_of_idle (fun call => ?_) (fun call => ?_) rfl hkeyed.emails)).inv
  all_goals rcases call with call | call | call <;> cases call <;> rfl

theorem names_of_run (hkeyed : Keyed s) (hrun : Run serviceStep anyStep (atCalls s calls) w) :
    (w.shared.db.eventCategories.map fun category => category.name).Nodup := by
  have hsound : (categoryNames.outline (ι := ι)).Sound serviceStep
      (anyStep : World ι Store Row ServicePc → _) :=
    Locking.sound fun i s pc a eff pc' hstep _ =>
      ⟨service_names (serviceStep_cases hstep), service_ready (serviceStep_cases hstep)⟩
  refine (hsound.run hrun (at_of_idle (fun call => ?_) (fun call => ?_) rfl
    hkeyed.categoryNames)).inv
  all_goals rcases call with call | call | call <;> cases call <;> rfl

theorem keyed_of_run (hkeyed : Keyed s) (hrun : Run serviceStep anyStep (atCalls s calls) w) :
    Keyed w.shared :=
  ⟨ids_of_run hkeyed hrun, emails_of_run hkeyed hrun, names_of_run hkeyed hrun⟩

end Runs

theorem Keyed.primaryKeys {s : Store} (h : Keyed s) : PrimaryKeys s.db :=
  ⟨(h.ids .user).nodup, (h.ids .eventCategory).nodup, (h.ids .event).nodup,
    (h.ids .ticketCategory).nodup, (h.ids .order).nodup, (h.ids .orderItem).nodup,
    (h.ids .ticket).nodup⟩

/-- From any tables with unique keys, every interleaving of the services' calls keeps them
unique, and every id behind the sequence of its table. -/
theorem keys_stay_unique {ι : Type} [DecidableEq ι] {s : Store} {calls : ι → Call}
    {w : World ι Store Row ServicePc} (hkeyed : Keyed s)
    (hrun : Run serviceStep anyStep (atCalls s calls) w) :
    PrimaryKeys w.shared.db ∧
      (∀ model, ∀ id ∈ storedIds w.shared.db model, id < nextId w.shared.seq model) ∧
      (w.shared.db.users.map fun user => user.email).Nodup ∧
      (w.shared.db.eventCategories.map fun category => category.name).Nodup := by
  have hkeyed' := keyed_of_run hkeyed hrun
  exact ⟨hkeyed'.primaryKeys, fun model => (hkeyed'.ids model).below, hkeyed'.emails,
    hkeyed'.categoryNames⟩

theorem keyed_empty : Keyed {} where
  ids model := by cases model <;> exact ⟨List.nodup_nil, fun _ h => by cases h⟩
  emails := List.nodup_nil
  categoryNames := List.nodup_nil

def registrations : Bool → Call := fun i => .users (.create ⟨if i then "a@b.cc" else "d@e.ff"⟩)

def register (i : Bool) : List (Bool × ServiceAct) := List.replicate 5 (i, .users .run)

theorem keys_stay_unique_registrations :
    ∃ w, Run serviceStep anyStep (atCalls {} registrations) w ∧ w.shared.db.users.length = 2 ∧
      PrimaryKeys w.shared.db := by
  have hsteps : ∃ w, (atCalls {} registrations).steps serviceStep (register true ++
      register false) = some w ∧ w.shared.db.users.length = 2 := ⟨_, rfl, rfl⟩
  obtain ⟨w, hw, hlength⟩ := hsteps
  exact ⟨w, Run.of_steps hw, hlength, (keys_stay_unique keyed_empty (Run.of_steps hw)).1⟩

end TicketBooking.App.PrimaryKeys
