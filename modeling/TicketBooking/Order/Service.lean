import TicketBooking.Order.Transactions
/-!
# The order service, one call at a time

`OrderService.create` and `OrderService.confirm_payment` as functions, for a
call that overlaps no other, and the proof that they are what a session that
runs alone does.
-/

namespace TicketBooking.Order.Service

open TicketBooking.App.Exceptions
open TicketBooking.Database.Shared TicketBooking.Database.Tables
open TicketBooking.Library.Sessions
open TicketBooking.Order.Booking TicketBooking.Order.Transactions

/-- The clock readings of `perform_task`, or its failure. -/
abbrev Broker := Option (Nat × Nat)

def create (s : Store) (call : CreateCall) (broker : Broker) :
    Except AppException (Order × List OrderItem) × Store :=
  match createTransaction s call (selectedCategories s.db call.data.items) with
  | (.error e, s') => (.error e, s')
  | (.ok (order, items), s') =>
      match broker with
      | none => (.error brokerFailure, s')
      | some (now, later) =>
          (.ok (order, items), enqueue (.cancelReservation order.id) (some 900) now later s')

def confirmPayment (s : Store) (objId : Nat) (broker : Broker) : Except AppException Bool × Store :=
  if isPending s.db objId then
    let s' := s.withDb (payBooking objId (ticketIdsOf s.db (itemIdsOf s.db objId)))
    match broker with
    | none => (.error brokerFailure, s')
    | some (now, later) => (.ok true, enqueue (.sendConfirmationMail objId) none now later s')
  else
    match findOrder s.db objId with
    | none => (.error (orderNotFound objId), s)
    | some order =>
        if order.status = .paid then (.ok true, s)
        else (.error (.wrongState [OrderStatus.pending.value] none), s)

section Alone

variable {ι : Type} {i : ι}

theorem confirmPayment_alone (s : Store) (objId : Nat) (broker : Broker) :
    Alone orderStep i s (.confirm (.start objId)) (confirmPayment s objId broker).2
      (.confirm (.finished (confirmPayment s objId broker).1)) := by
  by_cases hpending : isPending s.db objId
  · have hstart : orderStep i s (.confirm (.start objId)) .run =
        some (.lock (.order objId), .confirm (.updated objId)) := by
      simp [orderStep, confirmStep, hpending]
    have hids : (if itemIdsOf s.db objId = [] then []
        else ticketIdsOf s.db (itemIdsOf s.db objId)) =
          ticketIdsOf s.db (itemIdsOf s.db objId) := by
      split_ifs with hnil
      · simp [hnil, ticketIdsOf]
      · rfl
    have htickets : orderStep i s (.confirm (.itemsRead objId (itemIdsOf s.db objId))) .run =
        some (.stay, .confirm (.ticketsUpdated objId
          (ticketIdsOf s.db (itemIdsOf s.db objId)))) := by
      simp only [orderStep, confirmStep, hids, Option.map_some]
    have hcommit : Alone orderStep i s (.confirm (.start objId))
        (s.withDb (payBooking objId (ticketIdsOf s.db (itemIdsOf s.db objId))))
        (.confirm (.committed objId)) :=
      .step .run hstart (.step .run rfl (.step .run htickets (.step .run rfl .refl)))
    unfold confirmPayment
    rw [if_pos hpending]
    cases broker with
    | none => exact hcommit.trans (.step .fail rfl .refl)
    | some readings => exact hcommit.trans (.step (.perform readings.1 readings.2) rfl .refl)
  · have hstart : orderStep i s (.confirm (.start objId)) .run =
        some (.stay, .confirm (.missed objId)) := by
      simp [orderStep, confirmStep, hpending]
    have hmissed : ∀ result, confirmStep s (.missed objId) .run =
        some (.rollback, .finished result) →
          Alone orderStep i s (.confirm (.start objId)) s (.confirm (.finished result)) := by
      intro result h
      have hstep : orderStep i s (.confirm (.missed objId)) .run =
          some (.rollback, .confirm (.finished result)) := by
        simp only [orderStep, h, Option.map_some]
      exact .step .run hstart (.step .run hstep .refl)
    unfold confirmPayment
    rw [if_neg hpending]
    cases hfind : findOrder s.db objId with
    | none => exact hmissed _ (by simp only [confirmStep, hfind])
    | some order =>
        by_cases hpaid : order.status = .paid
        · simp only [hpaid, if_true]
          exact hmissed _ (by simp only [confirmStep, hfind, hpaid, if_true])
        · simp only [hpaid, if_false]
          exact hmissed _ (by simp only [confirmStep, hfind, hpaid, if_false])

/-! ## The chunks of an insert -/

theorem assignIds_append {α β : Type} (mk : Nat → α → β) (next : Nat) (xs ys : List α) :
    assignIds mk next (xs ++ ys) = assignIds mk next xs ++ assignIds mk (next + xs.length) ys := by
  induction xs generalizing next with
  | nil => rfl
  | cons x xs ih =>
      rw [List.cons_append, assignIds, ih, assignIds, List.cons_append, List.length_cons]
      congr 3
      omega

/-- Cut into chunks, a list of rows gets the ids it would get in one statement. -/
theorem assignIds_chunks {α β : Type} (mk : Nat → α → β) (next : Nat) (xs : List α) :
    assignIds mk next xs = assignIds mk next (xs.take chunkSize) ++
      assignIds mk (next + (xs.take chunkSize).length) (xs.drop chunkSize) := by
  rw [← assignIds_append, List.take_append_drop]

theorem drawItemIds_add (s : Store) (m n : Nat) :
    drawItemIds n (drawItemIds m s) = drawItemIds (m + n) s := by
  simp only [drawItemIds, Nat.add_assoc]

theorem drawTicketIds_add (s : Store) (m n : Nat) :
    drawTicketIds n (drawTicketIds m s) = drawTicketIds (m + n) s := by
  simp only [drawTicketIds, Nat.add_assoc]

theorem length_drop_lt {α : Type} {xs : List α} (h : xs ≠ []) :
    (xs.drop chunkSize).length < xs.length := by
  have hpos : 0 < xs.length := List.length_pos_iff.mpr h
  rw [List.length_drop]
  unfold chunkSize
  omega

theorem insertItems_alone (s : Store) (order : Order) (items : List OrderItem)
    (todo : List ItemData) :
    Alone orderStep i s (.create (.insertingItems order items todo))
      (drawItemIds todo.length s) (.create (.insertingItems order
        (items ++ assignIds (newItem order.id) s.seq.orderItems todo) [])) := by
  induction hn : todo.length using Nat.strong_induction_on generalizing s items todo with
  | _ n ih =>
      subst hn
      by_cases htodo : todo = []
      · subst htodo
        rw [assignIds, List.append_nil]
        exact .refl
      · have hstep : orderStep i s (.create (.insertingItems order items todo)) .run =
            some (.emit (drawItemIds (todo.take chunkSize).length),
              .create (.insertingItems order (items ++
                assignIds (newItem order.id) s.seq.orderItems (todo.take chunkSize))
                (todo.drop chunkSize))) := by
          obtain ⟨x, xs, rfl⟩ := List.exists_cons_of_ne_nil htodo
          rfl
        have hrest := ih _ (length_drop_lt htodo) (drawItemIds (todo.take chunkSize).length s)
          (items ++ assignIds (newItem order.id) s.seq.orderItems (todo.take chunkSize))
          (todo.drop chunkSize) rfl
        have hlength : (todo.take chunkSize).length + (todo.drop chunkSize).length =
            todo.length := by
          rw [← List.length_append, List.take_append_drop]
        rw [drawItemIds_add, hlength, List.append_assoc] at hrest
        rw [assignIds_chunks]
        exact .step .run hstep hrest

theorem insertTickets_alone (s : Store) (order : Order) (items : List OrderItem)
    (tickets : List Ticket) (todo : List (Nat × Nat)) :
    Alone orderStep i s (.create (.insertingTickets order items tickets todo))
      (drawTicketIds todo.length s) (.create (.insertingTickets order items
        (tickets ++ assignIds newTicket s.seq.tickets todo) [])) := by
  induction hn : todo.length using Nat.strong_induction_on generalizing s tickets todo with
  | _ n ih =>
      subst hn
      by_cases htodo : todo = []
      · subst htodo
        rw [assignIds, List.append_nil]
        exact .refl
      · have hstep : orderStep i s (.create (.insertingTickets order items tickets todo)) .run =
            some (.emit (drawTicketIds (todo.take chunkSize).length),
              .create (.insertingTickets order items (tickets ++
                assignIds newTicket s.seq.tickets (todo.take chunkSize))
                (todo.drop chunkSize))) := by
          obtain ⟨x, xs, rfl⟩ := List.exists_cons_of_ne_nil htodo
          rfl
        have hrest := ih _ (length_drop_lt htodo) (drawTicketIds (todo.take chunkSize).length s)
          (tickets ++ assignIds newTicket s.seq.tickets (todo.take chunkSize))
          (todo.drop chunkSize) rfl
        have hlength : (todo.take chunkSize).length + (todo.drop chunkSize).length =
            todo.length := by
          rw [← List.length_append, List.take_append_drop]
        rw [drawTicketIds_add, hlength, List.append_assoc] at hrest
        rw [assignIds_chunks]
        exact .step .run hstep hrest

/-! ## A `create` alone -/

theorem lock_alone (s : Store) (call : CreateCall) (categories : List TicketCategory)
    (todo : List Nat) :
    Alone orderStep i s (.create (.locking call categories todo)) s
      (.create (.locking call categories [])) := by
  induction todo with
  | nil => exact .refl
  | cons id todo ih => exact .step .run rfl ih

/-- An accepted call of an existing user, up to its commit. -/
theorem place_alone {s : Store} {call : CreateCall} (data : List ItemData)
    (huser : userExists s.db call.userId) {items : List OrderItem} {tickets : List Ticket}
    (hitems : items = assignIds (newItem s.seq.orders) s.seq.orderItems data)
    (htickets : tickets = assignIds newTicket s.seq.tickets (ticketsToInsert items)) :
    Alone orderStep i s (.create (.selected call data))
      { s with
        db := insertBooking (newOrder call s.seq.orders) items tickets s.db
        seq := { s.seq with
          orders := s.seq.orders + 1
          orderItems := s.seq.orderItems + items.length
          tickets := s.seq.tickets + tickets.length } }
      (.create (.committed (newOrder call s.seq.orders) items)) := by
  have hinsert : orderStep i s (.create (.selected call data)) .run =
      some (.emit drawOrderId,
        .create (.insertingItems (newOrder call s.seq.orders) [] data)) := by
    simp [orderStep, createStep, huser]
  have hrows := insertItems_alone (i := i) (drawOrderId s) (newOrder call s.seq.orders) [] data
  have hnewItems : [] ++ assignIds (newItem (newOrder call s.seq.orders).id)
      (drawOrderId s).seq.orderItems data = items := hitems.symm
  rw [hnewItems] at hrows
  have hplaces := insertTickets_alone (i := i) (drawItemIds data.length (drawOrderId s))
    (newOrder call s.seq.orders) items [] (ticketsToInsert items)
  have hnewTickets : [] ++ assignIds newTicket
      (drawItemIds data.length (drawOrderId s)).seq.tickets (ticketsToInsert items) = tickets :=
    htickets.symm
  rw [hnewTickets] at hplaces
  have hcommit : Alone orderStep i s (.create (.selected call data))
      ((drawTicketIds (ticketsToInsert items).length
        (drawItemIds data.length (drawOrderId s))).withDb
          (insertBooking (newOrder call s.seq.orders) items tickets))
      (.create (.committed (newOrder call s.seq.orders) items)) :=
    .step .run hinsert (hrows.trans (.step .run rfl (hplaces.trans (.step .run rfl .refl))))
  have hlengths : data.length = items.length ∧ (ticketsToInsert items).length = tickets.length := by
    rw [htickets, hitems]
    simp
  rw [hlengths.1, hlengths.2] at hcommit
  exact hcommit

theorem create_alone (s : Store) (call : CreateCall) (broker : Broker) :
    ∃ committed, Alone orderStep i s (.create (.start call)) (create s call broker).2
      (.create (.finished committed (create s call broker).1)) := by
  unfold create createTransaction
  by_cases howner : ownerGiven call
  · have hselect : orderStep i s (.create (.start call))
        (.select (selectedCategories s.db call.data.items)) =
          some (.stay, .create (.locking call (selectedCategories s.db call.data.items)
            ((selectedCategories s.db call.data.items).map fun cat => cat.id))) := by
      simp [orderStep, createStep, howner, List.isPerm_iff]
    have hlocked : Alone orderStep i s (.create (.start call)) s
        (.create (.locking call (selectedCategories s.db call.data.items) [])) :=
      .step _ hselect (lock_alone s call _ _)
    simp only [howner, Bool.not_true, Bool.false_eq_true, if_false]
    have hdecide : ∀ eff pc,
        afterSelect call (selectedCategories s.db call.data.items) = (eff, pc) →
        orderStep i s (.create (.locking call (selectedCategories s.db call.data.items) [])) .run =
          some (eff, .create pc) := by
      intro eff pc h
      simp only [orderStep, createStep, h, Option.map_some]
    cases hmissing : missingItem (selectedCategories s.db call.data.items) call.data.items with
    | some item =>
        refine ⟨none, hlocked.trans (.step .run (hdecide .rollback _ ?_) .refl)⟩
        simp only [afterSelect, hmissing]
    | none =>
        cases hdata : itemsData (selectedCategories s.db call.data.items) call.data.items with
        | none =>
            refine ⟨none, hlocked.trans (.step .run (hdecide .rollback _ ?_) .refl)⟩
            simp only [afterSelect, hmissing, hdata]
        | some data =>
            have hselected : Alone orderStep i s (.create (.start call)) s
                (.create (.selected call data)) := by
              refine hlocked.trans (.step .run (hdecide .stay _ ?_) .refl)
              simp only [afterSelect, hmissing, hdata]
            by_cases huser : userExists s.db call.userId
            · have hplaced := hselected.trans (place_alone data huser rfl rfl)
              simp only [huser, Bool.not_true, Bool.false_eq_true, if_false]
              cases broker with
              | none => exact ⟨_, hplaced.trans (.step .fail rfl .refl)⟩
              | some readings =>
                  exact ⟨_, hplaced.trans (.step (.perform readings.1 readings.2) rfl .refl)⟩
            · have hrefuse : orderStep i s (.create (.selected call data)) .run =
                  some (.rollback, .create (.finished none
                    (.error (.databaseError .foreignKeyViolation)))) := by
                simp [orderStep, createStep, huser]
              simp only [huser, Bool.not_false, if_true]
              exact ⟨none, hselected.trans (.step .run hrefuse .refl)⟩
  · have hrefuse : orderStep i s (.create (.start call)) .run =
        some (.stay, .create (.finished none (.error ownerError))) := by
      simp [orderStep, createStep, howner]
    simp only [howner, Bool.not_false, if_true]
    exact ⟨none, .step .run hrefuse .refl⟩

end Alone

end TicketBooking.Order.Service
