import TicketBooking.Order.Ledger
/-!
# Bookings under interleaving

The sessions of the order service against the booking ledger.  `Progress` says
once what a single statement can do; the proof outline, and from it every fact
about runs, only looks at that.
-/

namespace TicketBooking.Order.Lifecycle

open TicketBooking.App.Exceptions
open TicketBooking.Database.Shared TicketBooking.Database.Tables
open TicketBooking.Library.Sessions
open TicketBooking.Order.Booking TicketBooking.Order.Ledger
open TicketBooking.Order.Transactions
open TicketBooking.Tasks.Scheduling

/-! ## Prepared tickets -/

/-- `tickets` are the rows for a first part of `tickets_to_insert`, and `todo`
is the rest. -/
def Prepared (items : List OrderItem) (tickets : List Ticket) (todo : List (Nat × Nat)) : Prop :=
  ∃ done, done ++ todo = ticketsToInsert items ∧
    tickets.map (fun t => (t.categoryId, t.orderItemId, t.status)) =
      done.map fun d => (d.1, some d.2, TicketStatus.reserved)

theorem Prepared.nil (items : List OrderItem) : Prepared items [] (ticketsToInsert items) :=
  ⟨[], rfl, rfl⟩

theorem Prepared.insert {items : List OrderItem} {tickets : List Ticket} {todo : List (Nat × Nat)}
    (h : Prepared items tickets todo) (next n : Nat) :
    Prepared items (tickets ++ assignIds newTicket next (todo.take n)) (todo.drop n) := by
  obtain ⟨done, hdone, hmap⟩ := h
  refine ⟨done ++ todo.take n, ?_, ?_⟩
  · rw [List.append_assoc, List.take_append_drop, hdone]
  · rw [List.map_append, hmap, List.map_append]
    congr 1
    have hkey : ∀ k x, (fun t : Ticket => (t.categoryId, t.orderItemId, t.status)) (newTicket k x) =
        (x.1, some x.2, TicketStatus.reserved) := fun _ _ => rfl
    exact map_assignIds hkey next (todo.take n)

theorem item_of_mem_ticketsToInsert {items : List OrderItem} {d : Nat × Nat}
    (h : d ∈ ticketsToInsert items) :
    ∃ item ∈ items, d = (item.categoryId, item.id) := by
  obtain ⟨item, hitem, hd⟩ := List.mem_flatMap.mp h
  exact ⟨item, hitem, List.eq_of_mem_replicate hd⟩

theorem filter_ticketsToInsert {items : List OrderItem}
    (hnodup : (items.map fun item => item.id).Nodup) {item : OrderItem} (hitem : item ∈ items) :
    (ticketsToInsert items).filter (fun d => d.2 = item.id) =
      List.replicate item.quantity (item.categoryId, item.id) := by
  induction items with
  | nil => cases hitem
  | cons row items ih =>
      rw [List.map_cons, List.nodup_cons] at hnodup
      have hcons : ticketsToInsert (row :: items) =
          List.replicate row.quantity (row.categoryId, row.id) ++ ticketsToInsert items := rfl
      rw [hcons, List.filter_append, List.filter_replicate]
      rcases List.mem_cons.mp hitem with rfl | hmem
      · have hrest : (ticketsToInsert items).filter (fun d => d.2 = item.id) = [] := by
          rw [List.filter_eq_nil_iff]
          intro d hd
          obtain ⟨other, hother, rfl⟩ := item_of_mem_ticketsToInsert hd
          have hne : other.id ≠ item.id := fun heq =>
            hnodup.1 (heq ▸ List.mem_map_of_mem hother)
          simpa using hne
        simp [hrest]
      · have hne : row.id ≠ item.id := fun heq => hnodup.1 (heq ▸ List.mem_map_of_mem hmem)
        rw [if_neg (by simpa using hne), List.nil_append]
        exact ih hnodup.2 hmem

theorem Prepared.filled {items : List OrderItem} {tickets : List Ticket}
    (h : Prepared items tickets []) (hnodup : (items.map fun item => item.id).Nodup) :
    Filled .reserved items tickets := by
  obtain ⟨done, hdone, hmap⟩ := h
  rw [List.append_nil] at hdone
  subst hdone
  intro item hitem
  have hfilter := filter_ticketsToInsert hnodup hitem
  constructor
  · have hlen : ((tickets.map fun t => (t.categoryId, t.orderItemId, t.status)).filter
        fun k => k.2.1 = some item.id).length = item.quantity := by
      rw [hmap, List.filter_map, List.length_map]
      simp only [Function.comp_def, Option.some.injEq]
      rw [hfilter, List.length_replicate]
    rw [List.filter_map, List.length_map] at hlen
    exact hlen
  · intro ticket hticket
    obtain ⟨hmem, hid⟩ := List.mem_filter.mp hticket
    have hkey : (ticket.categoryId, ticket.orderItemId, ticket.status) ∈
        (ticketsToInsert items).map fun d => (d.1, some d.2, TicketStatus.reserved) := by
      rw [← hmap]
      exact List.mem_map_of_mem hmem
    obtain ⟨d, hd, heq⟩ := List.mem_map.mp hkey
    simp only [Prod.mk.injEq] at heq
    obtain ⟨hcat, hitemId, hstatus⟩ := heq
    rw [of_decide_eq_true hid, Option.some.injEq] at hitemId
    have hin : d ∈ (ticketsToInsert items).filter fun d => d.2 = item.id :=
      List.mem_filter.mpr ⟨hd, by simpa using hitemId⟩
    rw [hfilter] at hin
    rw [List.eq_of_mem_replicate hin] at hcat
    exact ⟨hstatus.symm, hcat.symm⟩

/-! ## What a session owns -/

def draft : Pc → Option Draft
  | .create (.insertingItems order items _) => some ⟨order, items, []⟩
  | .create (.insertingTickets order items tickets _) => some ⟨order, items, tickets⟩
  | _ => none

/-- The order a session has paid and not queued the mail for. -/
def owesMail : Pc → Option Nat
  | .confirm (.committed id) => some id
  | _ => none

def target : Pc → Option Nat
  | .confirm (.start id) => some id
  | .confirm (.missed id) => some id
  | .confirm (.updated id) => some id
  | .confirm (.itemsRead id _) => some id
  | .confirm (.ticketsUpdated id _) => some id
  | .confirm (.committed id) => some id
  | .expire (.start id) => some id
  | .expire (.missed id) => some id
  | .expire (.updated id) => some id
  | .expire (.ticketsDeleted id _) => some id
  | _ => none

def mailsFor (s : Store) (id : Nat) : Nat :=
  s.tasks.queue.count (.sendConfirmationMail id)

structure Apart (d d' : Draft) : Prop where
  orders : d.order.id ≠ d'.order.id
  items : ∀ x ∈ d.items, ∀ y ∈ d'.items, x.id ≠ y.id
  tickets : ∀ x ∈ d.tickets, ∀ y ∈ d'.tickets, x.id ≠ y.id

theorem Apart.symm {d d' : Draft} (h : Apart d d') : Apart d' d where
  orders := h.orders.symm
  items x hx y hy := (h.items y hy x hx).symm
  tickets x hx y hy := (h.tickets y hy x hx).symm

/-- The session holds the lock of a pending order whose booking meets `P`. -/
def Holds (s : Store) (rows : Set Row) (id : Nat) (P : Booking → Prop) : Prop :=
  Row.order id ∈ rows ∧ ∃ b, bookingOf s.db id = some b ∧ b.status = .pending ∧ P b

structure Inv (s : Store) : Prop where
  tables : WellFormed s.db s.seq
  settled : AllSettled (bookingOf s.db)
  mails : ∀ id, mailsFor s id = 0 ∨
    mailsFor s id = 1 ∧ ∃ b, bookingOf s.db id = some b ∧ b.status = .paid

def At (s : Store) (rows : Set Row) : Pc → Prop
  | .create (.insertingItems order items _) =>
      order.status = .pending ∧ Draft.New ⟨order, items, []⟩ s.db s.seq
  | .create (.insertingTickets order items tickets todo) =>
      order.status = .pending ∧ Draft.New ⟨order, items, tickets⟩ s.db s.seq ∧
        Prepared items tickets todo
  | .confirm (.updated id) => Holds s rows id fun _ => True
  | .confirm (.itemsRead id itemIds) =>
      Holds s rows id fun b => itemIds = b.items.map fun item => item.id
  | .confirm (.ticketsUpdated id ticketIds) =>
      Holds s rows id fun b => ticketIds = b.tickets.map fun ticket => ticket.id
  | .confirm (.committed id) =>
      mailsFor s id = 0 ∧ ∃ b, bookingOf s.db id = some b ∧ b.status = .paid
  | .expire (.updated id) => Holds s rows id fun _ => True
  | .expire (.ticketsDeleted id ticketIds) =>
      Holds s rows id fun b => ticketIds = b.tickets.map fun ticket => ticket.id
  | _ => True

/-! ## What a statement can do -/

/-- One statement of a session that holds `rows` takes `s` to `s'` and the
session from `pc` to `pc'`. -/
structure Progress (s s' : Store) (rows : Set Row) (pc pc' : Pc) : Prop where
  seq : Advance s.seq s'.seq
  orders : ∀ new ∈ s'.db.orders, (∃ old ∈ s.db.orders, old.id = new.id) ∨
    ∃ d, draft pc = some d ∧ new.id = d.order.id
  items : ∀ new ∈ s'.db.orderItems, (∃ old ∈ s.db.orderItems, old.id = new.id) ∨
    ∃ d, draft pc = some d ∧ ∃ item ∈ d.items, new.id = item.id
  tickets : ∀ new ∈ s'.db.tickets, (∃ old ∈ s.db.tickets, old.id = new.id) ∨
    ∃ d, draft pc = some d ∧ ∃ ticket ∈ d.tickets, new.id = ticket.id
  entry : Entry (bookingOf s.db) (bookingOf s'.db)
  bookings : ∀ id, bookingOf s'.db id = bookingOf s.db id ∨ bookingOf s.db id = none ∨
    Holds s rows id fun _ => True
  targeted : ∀ id, target pc = some id → ∀ id', id' ≠ id →
    bookingOf s'.db id' = bookingOf s.db id'
  mails : ∀ id, mailsFor s' id = mailsFor s id ∨ owesMail pc = some id
  drawn : ∀ d', draft pc' = some d' →
    (s.seq.orders ≤ d'.order.id ∨ ∃ d, draft pc = some d ∧ d'.order.id = d.order.id) ∧
    (∀ x ∈ d'.items, s.seq.orderItems ≤ x.id ∨ ∃ d, draft pc = some d ∧ x ∈ d.items) ∧
    (∀ x ∈ d'.tickets, s.seq.tickets ≤ x.id ∨ ∃ d, draft pc = some d ∧ x ∈ d.tickets)
  owes : ∀ id, owesMail pc' = some id → Holds s rows id fun _ => True

theorem Progress.quiet {s s' : Store} {rows : Set Row} {pc pc' : Pc} (hdb : s'.db = s.db)
    (hseq : Advance s.seq s'.seq) (hmails : ∀ id, mailsFor s' id = mailsFor s id)
    (hdrawn : ∀ d', draft pc' = some d' →
      (s.seq.orders ≤ d'.order.id ∨ ∃ d, draft pc = some d ∧ d'.order.id = d.order.id) ∧
      (∀ x ∈ d'.items, s.seq.orderItems ≤ x.id ∨ ∃ d, draft pc = some d ∧ x ∈ d.items) ∧
      (∀ x ∈ d'.tickets, s.seq.tickets ≤ x.id ∨ ∃ d, draft pc = some d ∧ x ∈ d.tickets))
    (howes : owesMail pc' = none) : Progress s s' rows pc pc' where
  seq := hseq
  orders new hnew := .inl ⟨new, hdb ▸ hnew, rfl⟩
  items new hnew := .inl ⟨new, hdb ▸ hnew, rfl⟩
  tickets new hnew := .inl ⟨new, hdb ▸ hnew, rfl⟩
  entry := by rw [hdb]; exact .skip _
  bookings id := .inl (by rw [hdb])
  targeted id _ id' _ := by rw [hdb]
  mails id := .inl (hmails id)
  drawn := hdrawn
  owes id hid := by rw [howes] at hid; cases hid

/-! ## One statement at a time -/

theorem Inv.next {s s' : Store} (hs : Inv s) (htables : WellFormed s'.db s'.seq)
    (hentry : Entry (bookingOf s.db) (bookingOf s'.db))
    (hmails : ∀ id, mailsFor s' id = mailsFor s id) : Inv s' where
  tables := htables
  settled := hentry.settled hs.settled
  mails id := by
    rw [hmails id]
    refine (hs.mails id).imp_right fun ⟨hone, b, hb, hpaid⟩ => ⟨hone, ?_⟩
    obtain ⟨b', hb', -, hforward⟩ := hentry.follows id b hb
    rw [hpaid] at hforward
    rcases hforward with h | h
    · exact ⟨b', hb', h⟩
    · cases h

/-- A pending order has had no mail. -/
theorem Inv.no_mail {s : Store} (hs : Inv s) {id : Nat} {b : Booking}
    (hb : bookingOf s.db id = some b) (hpending : b.status = .pending) : mailsFor s id = 0 := by
  rcases hs.mails id with h | ⟨-, b', hb', hpaid⟩
  · exact h
  · rw [hb] at hb'
    cases hb'
    rw [hpending] at hpaid
    cases hpaid

/-- A statement keeps the invariant, establishes the session's next assertion,
and makes progress. -/
structure Correct (s : Store) (rows : Set Row) (pc : Pc) (eff : Effect Store Row) (pc' : Pc) :
    Prop where
  inv : Inv (eff.apply s)
  at_ : At (eff.apply s) (eff.held rows) pc'
  progress : Progress s (eff.apply s) rows pc pc'

/-- A statement that writes no table and queues no mail, and prepares nothing. -/
theorem Correct.quiet {s : Store} {rows : Set Row} {pc pc' : Pc} {eff : Effect Store Row}
    (hs : Inv s) (hdb : (eff.apply s).db = s.db) (hseq : (eff.apply s).seq = s.seq)
    (hmails : ∀ id, mailsFor (eff.apply s) id = mailsFor s id)
    (hdraft : draft pc' = none) (howes : owesMail pc' = none)
    (hat : At (eff.apply s) (eff.held rows) pc') : Correct s rows pc eff pc' where
  inv := hs.next (by rw [hdb, hseq]; exact hs.tables) (by rw [hdb]; exact .skip _) hmails
  at_ := hat
  progress := .quiet hdb (by rw [hseq]; exact .refl _) hmails
    (fun d' hd' => by rw [hdraft] at hd'; cases hd') howes

theorem count_performTask_cancel (tasks : TaskManager) (orderId now later id : Nat)
    (delay : Option Nat) :
    (performTask tasks (.cancelReservation orderId) delay now later).queue.count
      (.sendConfirmationMail id) = tasks.queue.count (.sendConfirmationMail id) := by
  unfold performTask
  split <;> simp

theorem count_performTask_mail (tasks : TaskManager) (orderId now later id : Nat) :
    (performTask tasks (.sendConfirmationMail orderId) none now later).queue.count
      (.sendConfirmationMail id) =
        tasks.queue.count (.sendConfirmationMail id) + if orderId = id then 1 else 0 := by
  simp [performTask, List.count_append, List.count_singleton]

private theorem new_order {s : Store} (hs : Inv s) (call : CreateCall) :
    Draft.New ⟨newOrder call s.seq.orders, [], []⟩ s.db
      { s.seq with orders := s.seq.orders + 1 } where
  order_lt := Nat.lt_succ_self _
  order_new order horder := (hs.tables.orders_lt order horder).ne
  items_nodup := List.nodup_nil
  items_lt _ h := by cases h
  items_new _ h := by cases h
  items_order _ h := by cases h
  tickets_nodup := List.nodup_nil
  tickets_lt _ h := by cases h
  tickets_new _ h := by cases h
  tickets_item _ h := by cases h

private theorem new_items {s : Store} (hs : Inv s) {order : Order} {items : List OrderItem}
    (hd : Draft.New ⟨order, items, []⟩ s.db s.seq) (chunk : List ItemData) :
    Draft.New ⟨order, items ++ assignIds (newItem order.id) s.seq.orderItems chunk, []⟩ s.db
      { s.seq with orderItems := s.seq.orderItems + chunk.length } := by
  obtain ⟨hnodup, hlt, hnew⟩ := fresh_append_assignIds
    (fun k x => (rfl : (newItem order.id k x).id = k)) chunk hd.items_nodup hd.items_lt
    hd.items_new hs.tables.items_lt
  exact {
    order_lt := hd.order_lt
    order_new := hd.order_new
    items_nodup := hnodup
    items_lt := hlt
    items_new := hnew
    items_order := fun item hitem => by
      rcases List.mem_append.mp hitem with h | h
      · exact hd.items_order item h
      · obtain ⟨k, _, _, _, _, rfl⟩ := mem_assignIds h
        rfl
    tickets_nodup := List.nodup_nil
    tickets_lt := fun _ h => by cases h
    tickets_new := fun _ h => by cases h
    tickets_item := fun _ h => by cases h }

private theorem new_tickets {s : Store} (hs : Inv s) {order : Order} {items : List OrderItem}
    {tickets : List Ticket} {todo : List (Nat × Nat)}
    (hd : Draft.New ⟨order, items, tickets⟩ s.db s.seq) (hprepared : Prepared items tickets todo)
    (n : Nat) :
    Draft.New ⟨order, items, tickets ++ assignIds newTicket s.seq.tickets (todo.take n)⟩ s.db
      { s.seq with tickets := s.seq.tickets + (todo.take n).length } := by
  obtain ⟨hnodup, hlt, hnew⟩ := fresh_append_assignIds
    (fun k x => (rfl : (newTicket k x).id = k)) (todo.take n) hd.tickets_nodup hd.tickets_lt
    hd.tickets_new hs.tables.tickets_lt
  exact {
    order_lt := hd.order_lt
    order_new := hd.order_new
    items_nodup := hd.items_nodup
    items_lt := hd.items_lt
    items_new := hd.items_new
    items_order := hd.items_order
    tickets_nodup := hnodup
    tickets_lt := hlt
    tickets_new := hnew
    tickets_item := fun ticket hticket => by
      rcases List.mem_append.mp hticket with h | h
      · exact hd.tickets_item ticket h
      · obtain ⟨k, d, _, _, hmem, rfl⟩ := mem_assignIds h
        obtain ⟨done, hdone, -⟩ := hprepared
        have hd' : d ∈ ticketsToInsert items := by
          rw [← hdone]
          exact List.mem_append_right _ (List.mem_of_mem_take hmem)
        obtain ⟨item, hitem, rfl⟩ := item_of_mem_ticketsToInsert hd'
        exact ⟨item, hitem, rfl⟩ }

theorem Progress.place {s s' : Store} {rows : Set Row} {pc pc' : Pc} {d : Draft}
    (hseq : s'.seq = s.seq) (hmails : ∀ id, mailsFor s' id = mailsFor s id)
    (hdb : s'.db = d.insert s.db) (hd : draft pc = some d)
    (hnone : bookingOf s.db d.order.id = none)
    (hbooking : bookingOf s'.db =
      Function.update (bookingOf s.db) d.order.id (some d.booking))
    (hentry : Entry (bookingOf s.db) (bookingOf s'.db)) (htarget : target pc = none)
    (hdraft : draft pc' = none) (howes : owesMail pc' = none) : Progress s s' rows pc pc' where
  seq := by rw [hseq]; exact .refl _
  orders new hnew := by
    rw [hdb] at hnew
    rcases List.mem_append.mp hnew with h | h
    · exact .inl ⟨new, h, rfl⟩
    · exact .inr ⟨d, hd, by rw [List.mem_singleton.mp h]⟩
  items new hnew := by
    rw [hdb] at hnew
    exact (List.mem_append.mp hnew).imp (fun h => ⟨new, h, rfl⟩) fun h => ⟨d, hd, new, h, rfl⟩
  tickets new hnew := by
    rw [hdb] at hnew
    exact (List.mem_append.mp hnew).imp (fun h => ⟨new, h, rfl⟩) fun h => ⟨d, hd, new, h, rfl⟩
  entry := hentry
  bookings id := by
    by_cases hid : id = d.order.id
    · exact .inr (.inl (hid ▸ hnone))
    · exact .inl ((congrFun hbooking id).trans (Function.update_of_ne hid _ _))
  targeted id hid := by rw [htarget] at hid; cases hid
  mails id := .inl (hmails id)
  drawn d' hd' := by rw [hdraft] at hd'; cases hd'
  owes id hid := by rw [howes] at hid; cases hid

theorem createStep_correct {s : Store} {rows : Set Row} {pc pc' : CreatePc} {a : Act}
    {eff : Effect Store Row} (hs : Inv s) (hat : At s rows (.create pc))
    (h : CreateStep s pc a eff pc') : Correct s rows (.create pc) eff (.create pc') := by
  cases h with
  | refuseOwner howner => exact .quiet hs rfl rfl (fun _ => rfl) rfl rfl trivial
  | select howner hperm => exact .quiet hs rfl rfl (fun _ => rfl) rfl rfl trivial
  | lock => exact .quiet hs rfl rfl (fun _ => rfl) rfl rfl trivial
  | refuseItem hmissing => exact .quiet hs rfl rfl (fun _ => rfl) rfl rfl trivial
  | keyError hmissing hdata => exact .quiet hs rfl rfl (fun _ => rfl) rfl rfl trivial
  | accept hmissing hdata => exact .quiet hs rfl rfl (fun _ => rfl) rfl rfl trivial
  | refuseUser huser => exact .quiet hs rfl rfl (fun _ => rfl) rfl rfl trivial
  | scheduleFails => exact .quiet hs rfl rfl (fun _ => rfl) rfl rfl trivial
  | fails hcommitted => exact .quiet hs rfl rfl (fun _ => rfl) rfl rfl trivial
  | schedule =>
      exact .quiet hs rfl rfl (fun id => count_performTask_cancel _ _ _ _ id _) rfl rfl trivial
  | insertOrder huser =>
      have hseq : Advance s.seq (drawOrderId s).seq :=
        ⟨Nat.le_succ _, le_refl _, le_refl _⟩
      refine ⟨hs.next (hs.tables.mono hseq) (.skip _) fun _ => rfl, ⟨rfl, new_order hs _⟩, ?_⟩
      refine .quiet rfl hseq (fun _ => rfl) (fun d' hd' => ?_) rfl
      cases hd'
      exact ⟨.inl (le_refl _), List.forall_mem_nil _, List.forall_mem_nil _⟩
  | @insertItems order items todo =>
      have hseq : Advance s.seq (drawItemIds (todo.take chunkSize).length s).seq :=
        ⟨le_refl _, Nat.le_add_right _ _, le_refl _⟩
      refine ⟨hs.next (hs.tables.mono hseq) (.skip _) fun _ => rfl,
        ⟨hat.1, new_items hs hat.2 _⟩, ?_⟩
      refine .quiet rfl hseq (fun _ => rfl) (fun d' hd' => ?_) rfl
      cases hd'
      refine ⟨.inr ⟨_, rfl, rfl⟩, fun x hx => ?_, List.forall_mem_nil _⟩
      rcases List.mem_append.mp hx with h | h
      · exact .inr ⟨_, rfl, h⟩
      · obtain ⟨k, _, hk, _, _, rfl⟩ := mem_assignIds h
        exact .inl hk
  | itemsDone =>
      refine ⟨hs, ⟨hat.1, hat.2, .nil _⟩, ?_⟩
      refine .quiet rfl (.refl _) (fun _ => rfl) (fun d' hd' => ?_) rfl
      cases hd'
      exact ⟨.inr ⟨_, rfl, rfl⟩, fun x hx => .inr ⟨_, rfl, hx⟩, List.forall_mem_nil _⟩
  | @insertTickets order items tickets todo =>
      have hseq : Advance s.seq (drawTicketIds (todo.take chunkSize).length s).seq :=
        ⟨le_refl _, le_refl _, Nat.le_add_right _ _⟩
      refine ⟨hs.next (hs.tables.mono hseq) (.skip _) fun _ => rfl,
        ⟨hat.1, new_tickets hs hat.2.1 hat.2.2 _, hat.2.2.insert _ _⟩, ?_⟩
      refine .quiet rfl hseq (fun _ => rfl) (fun d' hd' => ?_) rfl
      cases hd'
      refine ⟨.inr ⟨_, rfl, rfl⟩, fun x hx => .inr ⟨_, rfl, hx⟩, fun x hx => ?_⟩
      rcases List.mem_append.mp hx with h | h
      · exact .inr ⟨_, rfl, h⟩
      · obtain ⟨k, _, hk, _, _, rfl⟩ := mem_assignIds h
        exact .inl hk
  | @commit order items tickets =>
      obtain ⟨hpending, hnew, hprepared⟩ := hat
      let d : Draft := ⟨order, items, tickets⟩
      have hbooking : bookingOf (d.insert s.db) =
          Function.update (bookingOf s.db) order.id (some d.booking) :=
        bookingOf_insert hs.tables hnew
      have hnone : bookingOf s.db order.id = none := bookingOf_eq_none.mpr hnew.order_new
      have hsettled : d.booking.Settled := by
        have hfilled := hprepared.filled hnew.items_nodup
        simpa [Booking.Settled, d, Draft.booking, hpending] using hfilled
      have hentry : Entry (bookingOf s.db) (bookingOf (d.insert s.db)) := by
        rw [hbooking]
        exact .place hnone hpending hsettled
      refine ⟨hs.next (hs.tables.insert hnew) hentry fun _ => rfl, trivial, ?_⟩
      exact .place rfl (fun _ => rfl) rfl rfl hnone hbooking hentry rfl rfl rfl

theorem Holds.rows {s : Store} {rows : Set Row} {id : Nat} {P Q : Booking → Prop}
    (h : Holds s rows id P) (hPQ : ∀ b, bookingOf s.db id = some b → P b → Q b) :
    Holds s rows id Q := by
  obtain ⟨hrow, b, hb, hpending, hP⟩ := h
  exact ⟨hrow, b, hb, hpending, hPQ b hb hP⟩

theorem Inv.locked {s : Store} (hs : Inv s) {rows : Set Row} {id : Nat} (h : isPending s.db id) :
    Holds s (insert (Row.order id) rows) id fun _ => True := by
  obtain ⟨b, hb, hpending⟩ := hs.tables.pending h
  exact ⟨Set.mem_insert _ _, b, hb, hpending, trivial⟩

theorem Progress.settle {s s' : Store} {rows : Set Row} {pc pc' : Pc} {id : Nat} {b b' : Booking}
    {status : OrderStatus} (hseq : s'.seq = s.seq) (hmails : ∀ id, mailsFor s' id = mailsFor s id)
    (horders : s'.db.orders = setOrderStatus id status s.db.orders)
    (hitems : s'.db.orderItems = s.db.orderItems)
    (htickets : ∀ new ∈ s'.db.tickets, ∃ old ∈ s.db.tickets, old.id = new.id)
    (hrow : Row.order id ∈ rows) (hb : bookingOf s.db id = some b) (hpending : b.status = .pending)
    (hbooking : bookingOf s'.db = Function.update (bookingOf s.db) id (some b'))
    (hentry : Entry (bookingOf s.db) (bookingOf s'.db)) (htarget : target pc = some id)
    (hdraft : draft pc' = none) (howes : ∀ id', owesMail pc' = some id' → id' = id) :
    Progress s s' rows pc pc' where
  seq := by rw [hseq]; exact .refl _
  orders new hnew := .inl (mem_setOrderStatus (horders ▸ hnew))
  items new hnew := .inl ⟨new, hitems ▸ hnew, rfl⟩
  tickets new hnew := .inl (htickets new hnew)
  entry := hentry
  bookings id' := by
    by_cases hid : id' = id
    · exact .inr (.inr (hid ▸ ⟨hrow, b, hb, hpending, trivial⟩))
    · exact .inl ((congrFun hbooking id').trans (Function.update_of_ne hid _ _))
  targeted id₀ hid₀ id' hne := by
    rw [htarget] at hid₀
    cases hid₀
    exact (congrFun hbooking id').trans (Function.update_of_ne hne _ _)
  mails id' := .inl (hmails id')
  drawn d' hd' := by rw [hdraft] at hd'; cases hd'
  owes id' hid' := by
    rw [howes id' hid']
    exact ⟨hrow, b, hb, hpending, trivial⟩

/-- A statement that leaves the tables alone and queues the mail it owes. -/
theorem Progress.mail {s s' : Store} {rows : Set Row} {pc pc' : Pc} {id : Nat}
    (hdb : s'.db = s.db) (hseq : s'.seq = s.seq) (howed : owesMail pc = some id)
    (hmails : ∀ id', id ≠ id' → mailsFor s' id' = mailsFor s id') (hdraft : draft pc' = none)
    (howes : owesMail pc' = none) : Progress s s' rows pc pc' where
  seq := by rw [hseq]; exact .refl _
  orders new hnew := .inl ⟨new, hdb ▸ hnew, rfl⟩
  items new hnew := .inl ⟨new, hdb ▸ hnew, rfl⟩
  tickets new hnew := .inl ⟨new, hdb ▸ hnew, rfl⟩
  entry := by rw [hdb]; exact .skip _
  bookings id := .inl (by rw [hdb])
  targeted id _ id' _ := by rw [hdb]
  mails id' := by
    by_cases hid : id = id'
    · exact .inr (hid ▸ howed)
    · exact .inl (hmails id' hid)
  drawn d' hd' := by rw [hdraft] at hd'; cases hd'
  owes id hid := by rw [howes] at hid; cases hid

theorem confirmStep_correct {s : Store} {rows : Set Row} {pc pc' : ConfirmPc} {a : Act}
    {eff : Effect Store Row} (hs : Inv s) (hat : At s rows (.confirm pc))
    (h : ConfirmStep s pc a eff pc') : Correct s rows (.confirm pc) eff (.confirm pc') := by
  cases h with
  | miss hpending => exact .quiet hs rfl rfl (fun _ => rfl) rfl rfl trivial
  | notFound hnone => exact .quiet hs rfl rfl (fun _ => rfl) rfl rfl trivial
  | alreadyPaid hsome hpaid => exact .quiet hs rfl rfl (fun _ => rfl) rfl rfl trivial
  | wrongState hsome hpaid => exact .quiet hs rfl rfl (fun _ => rfl) rfl rfl trivial
  | mailFails => exact .quiet hs rfl rfl (fun _ => rfl) rfl rfl trivial
  | fails hcommitted => exact .quiet hs rfl rfl (fun _ => rfl) rfl rfl trivial
  | update hpending => exact .quiet hs rfl rfl (fun _ => rfl) rfl rfl (hs.locked hpending)
  | readItems =>
      refine .quiet hs rfl rfl (fun _ => rfl) rfl rfl (hat.rows fun b hb _ => ?_)
      rw [(booking_rows hb).1, itemIdsOf_eq]
  | @updateTickets id itemIds =>
      refine .quiet hs rfl rfl (fun _ => rfl) rfl rfl (hat.rows fun b hb hids => ?_)
      have hticketIds : ticketIdsOf s.db itemIds = b.tickets.map fun ticket => ticket.id := by
        rw [hids, (booking_rows hb).1, (booking_rows hb).2]
        rfl
      rw [← hticketIds]
      split_ifs with hnil
      · simp [hnil, ticketIdsOf]
      · rfl
  | @commit id ticketIds =>
      obtain ⟨hrow, b, hb, hpending, hids⟩ := hat
      have hids' : ticketIds = ticketIdsOf s.db (itemIdsOf s.db id) := by
        rw [hids, (booking_rows hb).2]
        rfl
      subst hids'
      have hbooking := bookingOf_pay hs.tables hb
      have hentry : Entry (bookingOf s.db)
          (bookingOf (payBooking id (ticketIdsOf s.db (itemIdsOf s.db id)) s.db)) := by
        rw [hbooking]
        exact .pay hb hpending
      have hinv : Inv (s.withDb (payBooking id (ticketIdsOf s.db (itemIdsOf s.db id)))) :=
        hs.next (hs.tables.pay id _) hentry fun _ => rfl
      refine ⟨hinv, ⟨hs.no_mail hb hpending, b.pay, ?_, rfl⟩, ?_⟩
      · exact (congrFun hbooking id).trans (Function.update_self _ _ _)
      · exact .settle rfl (fun _ => rfl) rfl rfl
          (fun new hnew => (mem_payBooking id hnew).imp fun _ h => ⟨h.1, h.2.1⟩) hrow hb hpending
          hbooking hentry rfl rfl fun id' hid' => (Option.some.inj hid').symm
  | @mail id now later =>
      obtain ⟨hnone, hpaid⟩ := hat
      have hcount : ∀ id', mailsFor (enqueue (.sendConfirmationMail id) none now later s) id' =
          mailsFor s id' + if id = id' then 1 else 0 :=
        fun id' => count_performTask_mail s.tasks id now later id'
      have hothers : ∀ id', id ≠ id' →
          mailsFor (enqueue (.sendConfirmationMail id) none now later s) id' = mailsFor s id' := by
        intro id' hid
        rw [hcount id', if_neg hid]
        rfl
      refine ⟨⟨hs.tables, hs.settled, fun id' => ?_⟩, trivial, ?_⟩
      · rw [Effect.apply_emit]
        by_cases hid : id = id'
        · subst hid
          rw [hcount id, if_pos rfl, hnone]
          exact .inr ⟨rfl, hpaid⟩
        · rw [hothers id' hid]
          exact hs.mails id'
      · exact .mail rfl rfl rfl hothers rfl rfl

theorem expireStep_correct {s : Store} {rows : Set Row} {pc pc' : ExpirePc} {a : Act}
    {eff : Effect Store Row} (hs : Inv s) (hat : At s rows (.expire pc))
    (h : ExpireStep s pc a eff pc') : Correct s rows (.expire pc) eff (.expire pc') := by
  cases h with
  | miss hpending => exact .quiet hs rfl rfl (fun _ => rfl) rfl rfl trivial
  | notFound hnone => exact .quiet hs rfl rfl (fun _ => rfl) rfl rfl trivial
  | settled hsome => exact .quiet hs rfl rfl (fun _ => rfl) rfl rfl trivial
  | fails => exact .quiet hs rfl rfl (fun _ => rfl) rfl rfl trivial
  | update hpending => exact .quiet hs rfl rfl (fun _ => rfl) rfl rfl (hs.locked hpending)
  | deleteTickets =>
      refine .quiet hs rfl rfl (fun _ => rfl) rfl rfl (hat.rows fun b hb _ => ?_)
      rw [(booking_rows hb).2, ticketIdsOf_eq]
  | @commit id ticketIds =>
      obtain ⟨hrow, b, hb, hpending, hids⟩ := hat
      have hids' : ticketIds = ticketIdsOf s.db (itemIdsOf s.db id) := by
        rw [hids, (booking_rows hb).2]
        rfl
      subst hids'
      have hbooking := bookingOf_cancel hs.tables hb
      have hentry : Entry (bookingOf s.db)
          (bookingOf (cancelBooking id (ticketIdsOf s.db (itemIdsOf s.db id)) s.db)) := by
        rw [hbooking]
        exact .cancel hb hpending
      refine ⟨hs.next (hs.tables.cancel id _) hentry fun _ => rfl, trivial, ?_⟩
      exact .settle rfl (fun _ => rfl) rfl rfl
        (fun new hnew => (mem_cancelBooking id hnew).imp fun _ h => ⟨h.1, h.2.1⟩) hrow hb hpending
        hbooking hentry rfl rfl fun id' hid' => by cases hid'

theorem migrateStep_correct {s : Store} {rows : Set Row} {pc pc' : MigratePc} {a : Act}
    {eff : Effect Store Row} (hs : Inv s) (h : MigrateStep s pc a eff pc') :
    Correct s rows (.migrate pc) eff (.migrate pc') := by
  cases h with
  | userMissing => exact .quiet hs rfl rfl (fun _ => rfl) rfl rfl trivial
  | readUser huser => exact .quiet hs rfl rfl (fun _ => rfl) rfl rfl trivial
  | findRows hperm => exact .quiet hs rfl rfl (fun _ => rfl) rfl rfl trivial
  | lockRow hmatch => exact .quiet hs rfl rfl (fun _ => rfl) rfl rfl trivial
  | skipRow => exact .quiet hs rfl rfl (fun _ => rfl) rfl rfl trivial
  | nothing => exact .quiet hs rfl rfl (fun _ => rfl) rfl rfl trivial
  | fails => exact .quiet hs rfl rfl (fun _ => rfl) rfl rfl trivial
  | @commit email userId done =>
      have hbooking := bookingOf_migrate s.db userId done
      have hentry : Entry (bookingOf s.db) (bookingOf (migrateOrders userId done s.db)) := by
        rw [hbooking]
        exact .skip _
      refine ⟨hs.next (hs.tables.migrate userId done) hentry fun _ => rfl, trivial, ?_⟩
      exact {
        seq := .refl _
        orders := fun new hnew => .inl (mem_migrateOrders hnew)
        items := fun new hnew => .inl ⟨new, hnew, rfl⟩
        tickets := fun new hnew => .inl ⟨new, hnew, rfl⟩
        entry := hentry
        bookings := fun id => .inl (congrFun hbooking id)
        targeted := fun id hid => by cases hid
        mails := fun _ => .inl rfl
        drawn := fun d' hd' => by cases hd'
        owes := fun id hid => by cases hid }

theorem orderStep_correct {ι : Type} {i : ι} {s : Store} {rows : Set Row} {pc pc' : Pc} {a : Act}
    {eff : Effect Store Row} (hs : Inv s) (hat : At s rows pc)
    (h : orderStep i s pc a = some (eff, pc')) : Correct s rows pc eff pc' := by
  cases orderStep_cases h with
  | create hstep => exact createStep_correct hs hat hstep
  | confirm hstep => exact confirmStep_correct hs hat hstep
  | expire hstep => exact expireStep_correct hs hat hstep
  | migrate hstep => exact migrateStep_correct hs hstep
  | fire => exact .quiet hs rfl rfl (fun _ => rfl) rfl rfl trivial

/-! ## No interference -/

theorem new_stable {s s' : Store} {rows : Set Row} {pc pc' : Pc} {d : Draft}
    (hd : d.New s.db s.seq) (hstep : Progress s s' rows pc pc')
    (hapart : ∀ mine, draft pc = some mine → Apart mine d) : d.New s'.db s'.seq where
  order_lt := hd.order_lt.trans_le hstep.seq.1
  order_new new hnew := by
    rcases hstep.orders new hnew with ⟨old, hold, heq⟩ | ⟨mine, hmine, heq⟩
    · rw [← heq]
      exact hd.order_new old hold
    · rw [heq]
      exact (hapart mine hmine).orders
  items_nodup := hd.items_nodup
  items_lt item hitem := (hd.items_lt item hitem).trans_le hstep.seq.2.1
  items_new item hitem new hnew := by
    rcases hstep.items new hnew with ⟨old, hold, heq⟩ | ⟨mine, hmine, x, hx, heq⟩
    · rw [← heq]
      exact hd.items_new item hitem old hold
    · rw [heq]
      exact (hapart mine hmine).items x hx item hitem
  items_order := hd.items_order
  tickets_nodup := hd.tickets_nodup
  tickets_lt ticket hticket := (hd.tickets_lt ticket hticket).trans_le hstep.seq.2.2
  tickets_new ticket hticket new hnew := by
    rcases hstep.tickets new hnew with ⟨old, hold, heq⟩ | ⟨mine, hmine, x, hx, heq⟩
    · rw [← heq]
      exact hd.tickets_new ticket hticket old hold
    · rw [heq]
      exact (hapart mine hmine).tickets x hx ticket hticket
  tickets_item := hd.tickets_item

/-- A booking whose order another session holds does not change. -/
theorem Holds.stable {s s' : Store} {rows rows' : Set Row} {pc pc' : Pc} {id : Nat}
    {P : Booking → Prop} (h : Holds s rows' id P) (hstep : Progress s s' rows pc pc')
    (hdisjoint : ∀ row, row ∈ rows' → row ∉ rows) : Holds s' rows' id P := by
  obtain ⟨hrow, b, hb, hpending, hP⟩ := h
  rcases hstep.bookings id with hsame | hnone | ⟨hrow', -⟩
  · exact ⟨hrow, b, hsame.trans hb, hpending, hP⟩
  · rw [hb] at hnone
    cases hnone
  · exact absurd hrow' (hdisjoint _ hrow)

def Private (pc pc' : Pc) : Prop :=
  (∀ d d', draft pc = some d → draft pc' = some d' → Apart d d') ∧
    ∀ id, owesMail pc = some id → owesMail pc' ≠ some id

theorem Private.symm {pc pc' : Pc} (h : Private pc pc') : Private pc' pc :=
  ⟨fun d d' hd hd' => (h.1 d' d hd' hd).symm, fun id hid hid' => h.2 id hid' hid⟩

theorem At.stable {s s' : Store} {rows rows' : Set Row} {pc pc' other : Pc}
    (hat : At s rows' other) (hstep : Progress s s' rows pc pc')
    (hdisjoint : ∀ row, row ∈ rows' → row ∉ rows) (hprivate : Private pc other) :
    At s' rows' other := by
  have hdraft : ∀ d, draft other = some d → ∀ mine, draft pc = some mine → Apart mine d :=
    fun d hd mine hmine => hprivate.1 mine d hmine hd
  cases other with
  | create c =>
      cases c with
      | insertingItems order items todo => exact ⟨hat.1, new_stable hat.2 hstep (hdraft _ rfl)⟩
      | insertingTickets order items tickets todo =>
          exact ⟨hat.1, new_stable hat.2.1 hstep (hdraft _ rfl), hat.2.2⟩
      | _ => trivial
  | confirm c =>
      cases c with
      | updated id => exact Holds.stable hat hstep hdisjoint
      | itemsRead id itemIds => exact Holds.stable hat hstep hdisjoint
      | ticketsUpdated id ticketIds => exact Holds.stable hat hstep hdisjoint
      | committed id =>
          obtain ⟨hnone, b, hb, hpaid⟩ := hat
          have howes : owesMail pc ≠ some id := fun h => hprivate.2 id h rfl
          refine ⟨((hstep.mails id).resolve_right howes).trans hnone, ?_⟩
          obtain ⟨b', hb', -, hforward⟩ := hstep.entry.follows id b hb
          rw [hpaid] at hforward
          rcases hforward with h | h
          · exact ⟨b', hb', h⟩
          · cases h
      | _ => trivial
  | expire c =>
      cases c with
      | updated id => exact Holds.stable hat hstep hdisjoint
      | ticketsDeleted id ticketIds => exact Holds.stable hat hstep hdisjoint
      | _ => trivial
  | migrate c => trivial
  | waiting => trivial

/-- The ids of an open draft were drawn from the sequences. -/
theorem At.draft_lt {s : Store} {rows : Set Row} {pc : Pc} (hat : At s rows pc) {d : Draft}
    (hd : draft pc = some d) : d.New s.db s.seq := by
  unfold draft at hd
  split at hd
  · cases hd
    exact hat.2
  · cases hd
    exact hat.2.1
  · cases hd

theorem At.owes_paid {s : Store} {rows : Set Row} {pc : Pc} (hat : At s rows pc) {id : Nat}
    (hid : owesMail pc = some id) : ∃ b, bookingOf s.db id = some b ∧ b.status = .paid := by
  unfold owesMail at hid
  split at hid
  · cases hid
    exact hat.2
  · cases hid

/-- What a statement draws or comes to owe, no other session has. -/
theorem Private.step {s s' : Store} {rows rows' : Set Row} {pc pc' other : Pc}
    (h : Private pc other) (hat : At s rows' other) (hstep : Progress s s' rows pc pc') :
    Private pc' other := by
  constructor
  · intro d' d hd' hd
    have hnew := hat.draft_lt hd
    obtain ⟨horder, hitems, htickets⟩ := hstep.drawn d' hd'
    refine ⟨?_, fun x hx y hy => ?_, fun x hx y hy => ?_⟩
    · rcases horder with hle | ⟨mine, hmine, heq⟩
      · exact (hnew.order_lt.trans_le hle).ne'
      · rw [heq]
        exact (h.1 mine d hmine hd).orders
    · rcases hitems x hx with hle | ⟨mine, hmine, hmem⟩
      · exact ((hnew.items_lt y hy).trans_le hle).ne'
      · exact (h.1 mine d hmine hd).items x hmem y hy
    · rcases htickets x hx with hle | ⟨mine, hmine, hmem⟩
      · exact ((hnew.tickets_lt y hy).trans_le hle).ne'
      · exact (h.1 mine d hmine hd).tickets x hmem y hy
  · intro id hid hother
    obtain ⟨-, b, hb, hpending, -⟩ := hstep.owes id hid
    obtain ⟨b', hb', hpaid⟩ := hat.owes_paid hother
    rw [hb] at hb'
    cases hb'
    rw [hpending] at hpaid
    cases hpaid

def outline (ι : Type) : Outline ι Store Row Pc where
  inv := Inv
  at_ _ := At
  apart := Private

theorem outline_sound {ι : Type} [DecidableEq ι] :
    (outline ι).Sound orderStep (anyStep : World ι Store Row Pc → ι → Act → Prop) where
  own w i a eff pc hw _ hstep _ := by
    have hcorrect := orderStep_correct hw.inv (hw.at_ i) hstep
    exact ⟨hcorrect.inv, hcorrect.at_⟩
  frame w i j a eff pc hw _ hstep _ hji := by
    have hprogress := (orderStep_correct hw.inv (hw.at_ i) hstep).progress
    have hdisjoint : ∀ row, row ∈ w.held j → row ∉ w.held i :=
      fun row hj hi => hji (w.held_disjoint hj hi)
    have hprivate : Private (w.pc i) (w.pc j) := hw.apart i j hji.symm
    have hnext := hprivate.step (hw.at_ j) hprogress
    exact ⟨At.stable (hw.at_ j) hprogress hdisjoint hprivate, hnext, hnext.symm⟩

/-! ## Over whole runs -/

structure Opening (s : Store) : Prop where
  orders : s.db.orders = []
  items : s.db.orderItems = []
  tickets : s.db.tickets = []
  mails : ∀ id, mailsFor s id = 0

theorem Opening.inv {s : Store} (hs : Opening s) : Inv s where
  tables := by
    constructor <;> simp [hs.orders, hs.items, hs.tickets]
  settled id b hb := by
    have hnone : bookingOf s.db id = none := bookingOf_eq_none.mpr (by simp [hs.orders])
    rw [hnone] at hb
    cases hb
  mails id := .inl (hs.mails id)

theorem Call.at_start (s : Store) (rows : Set Row) (call : Call) : At s rows call.pc := by
  cases call <;> trivial

theorem Call.private_start (call call' : Call) : Private call.pc call'.pc := by
  refine ⟨fun d d' hd _ => ?_, fun id hid => ?_⟩
  · cases call <;> cases hd
  · cases call <;> cases hid

theorem outline_valid {ι : Type} [DecidableEq ι] {s : Store} (hs : Opening s) (calls : ι → Call)
    {w : World ι Store Row Pc}
    (h : Run orderStep anyStep (World.start s fun i => (calls i).pc) w) : (outline ι).Valid w := by
  refine outline_sound.run h ⟨hs.inv, fun i => ?_, fun i j _ => ?_⟩
  · exact Call.at_start s _ (calls i)
  · exact Call.private_start (calls i) (calls j)

/-- The tickets the tables hold for an order are those its status promises. -/
def Kept (db : Db) (order : Order) : Prop :=
  match order.status with
  | .pending => Filled .reserved (itemsOf db order.id) db.tickets
  | .paid => Filled .paid (itemsOf db order.id) db.tickets
  | .cancelled => ∀ item ∈ itemsOf db order.id, ticketsFor db.tickets item = []

theorem ticketsFor_ticketsOf {db : Db} {orderId : Nat} {item : OrderItem}
    (hitem : item ∈ itemsOf db orderId) :
    ticketsFor (ticketsOf db (itemIdsOf db orderId)) item = ticketsFor db.tickets item := by
  unfold ticketsFor ticketsOf
  rw [List.filter_filter]
  refine List.filter_congr fun ticket _ => ?_
  by_cases hid : ticket.orderItemId = some item.id
  · have hmem : item.id ∈ itemIdsOf db orderId := List.mem_map_of_mem hitem
    simp [hid, hmem]
  · simp [hid]

theorem bookingOf_row {db : Db} {seq : Sequences} (hdb : WellFormed db seq) {order : Order}
    (horder : order ∈ db.orders) :
    bookingOf db order.id =
      some ⟨order.status, itemsOf db order.id, ticketsOf db (itemIdsOf db order.id)⟩ := by
  rw [bookingOf, hdb.findOrder horder, Option.map_some]

theorem Inv.kept {s : Store} (hs : Inv s) {order : Order} (horder : order ∈ s.db.orders) :
    Kept s.db order := by
  have hsettled := hs.settled order.id _ (bookingOf_row hs.tables horder)
  have hfilled : ∀ status, Filled status (itemsOf s.db order.id)
      (ticketsOf s.db (itemIdsOf s.db order.id)) →
        Filled status (itemsOf s.db order.id) s.db.tickets := by
    intro status h item hitem
    rw [← ticketsFor_ticketsOf hitem]
    exact h item hitem
  unfold Booking.Settled at hsettled
  unfold Kept
  cases hstatus : order.status with
  | pending =>
      simp only [hstatus] at hsettled
      exact hfilled _ hsettled
  | paid =>
      simp only [hstatus] at hsettled
      exact hfilled _ hsettled
  | cancelled =>
      simp only [hstatus] at hsettled
      intro item hitem
      rw [← ticketsFor_ticketsOf hitem, hsettled]
      rfl

theorem follows_row {db db' : Db} {seq : Sequences} (hdb : WellFormed db seq)
    (h : Follows (bookingOf db) (bookingOf db')) {order : Order} (horder : order ∈ db.orders) :
    ∃ order' ∈ db'.orders, order'.id = order.id ∧ Forward order.status order'.status := by
  obtain ⟨b', hb', -, hforward⟩ := h order.id _ (bookingOf_row hdb horder)
  obtain ⟨order', hfind, rfl⟩ := Option.map_eq_some_iff.mp hb'
  exact ⟨order', List.mem_of_find?_eq_some hfind, findOrder_id hfind, hforward⟩

/-- From a valid world, a run's bookings follow those it started with. -/
theorem run_follows {ι : Type} [DecidableEq ι] {w w' : World ι Store Row Pc}
    (hw : (outline ι).Valid w) (h : Run orderStep anyStep w w') :
    Follows (bookingOf w.shared.db) (bookingOf w'.shared.db) := by
  refine h.relates (I := (outline ι).Valid)
    (R := fun s s' => Follows (bookingOf s.db) (bookingOf s'.db)) (fun s => .refl _)
    (fun _ _ _ => Follows.trans) (fun v v' i a hv hok hs => outline_sound.step hv hok hs) ?_ hw
  intro v v' i a hv _ hs
  obtain ⟨eff, pc, hstep, -, rfl⟩ := World.step_eq_some.mp hs
  exact (orderStep_correct hv.inv (hv.at_ i) hstep).progress.entry.follows

/-- `confirm_payment` and `expire_order` on one order leave the tickets of every
other order alone. -/
theorem step_other_tickets {ι : Type} [DecidableEq ι] {w w' : World ι Store Row Pc} {i : ι}
    {a : Act} (hw : (outline ι).Valid w) (hs : w.step orderStep i a = some w') {id : Nat}
    (hid : target (w.pc i) = some id) {item : OrderItem} (hitem : item ∈ w.shared.db.orderItems)
    (hne : item.orderId ≠ id) :
    ticketsFor w'.shared.db.tickets item = ticketsFor w.shared.db.tickets item := by
  obtain ⟨eff, pc, hstep, -, rfl⟩ := World.step_eq_some.mp hs
  have hsame := (orderStep_correct hw.inv (hw.at_ i) hstep).progress.targeted id hid _ hne
  have hmem : item ∈ itemsOf w.shared.db item.orderId :=
    List.mem_filter.mpr ⟨hitem, by simp⟩
  obtain ⟨order, horder, heq⟩ := hw.inv.tables.items_order item hitem
  have hb := bookingOf_row hw.inv.tables horder
  rw [heq] at hb
  have hrows := booking_rows (hsame.trans hb)
  have hitems : itemsOf w.shared.db item.orderId = itemsOf (eff.apply w.shared).db item.orderId :=
    hrows.1
  rw [← ticketsFor_ticketsOf hmem, World.after_shared,
    ← ticketsFor_ticketsOf (hitems ▸ hmem), ← hrows.2]

/-- In every interleaving, the tickets of every order are those its status
promises; order ids are unique and a status only moves out of PENDING; payment
and expiry touch their own order's tickets only; and no order is mailed about
twice. -/
theorem bookings_consistent {ι : Type} [DecidableEq ι] {s : Store} (hs : Opening s)
    (calls : ι → Call) {w : World ι Store Row Pc}
    (h : Run orderStep anyStep (World.start s fun i => (calls i).pc) w) :
    (∀ order ∈ w.shared.db.orders, Kept w.shared.db order) ∧
    (w.shared.db.orders.map fun order => order.id).Nodup ∧
    (∀ w', Run orderStep anyStep w w' → ∀ order ∈ w.shared.db.orders,
      ∃ order' ∈ w'.shared.db.orders, order'.id = order.id ∧
        Forward order.status order'.status) ∧
    (∀ i a w' id, w.step orderStep i a = some w' → target (w.pc i) = some id →
      ∀ item ∈ w.shared.db.orderItems, item.orderId ≠ id →
        ticketsFor w'.shared.db.tickets item = ticketsFor w.shared.db.tickets item) ∧
    (∀ id, mailsFor w.shared id ≤ 1) := by
  have hw := outline_valid hs calls h
  have hinv : Inv w.shared := hw.inv
  refine ⟨fun order horder => hinv.kept horder, hinv.tables.orders_nodup, ?_, ?_, fun id => ?_⟩
  · intro w' h' order horder
    exact follows_row hinv.tables (run_follows hw h') horder
  · intro i a w' id hstep hid item hitem hne
    exact step_other_tickets hw hstep hid hitem hne
  · rcases hinv.mails id with h | h
    · omega
    · omega

def bookAndPay : Bool → Call
  | false => .create onePlace
  | true => .confirmPayment 1

theorem bookings_consistent_hall :
    ∃ w : World Bool Store Row Pc,
      Run orderStep anyStep (World.start hall fun i => (bookAndPay i).pc) w ∧
      w.shared.db.tickets = [⟨1, 1, some 1, .paid⟩] ∧
      (∀ order ∈ w.shared.db.orders, Kept w.shared.db order) ∧ mailsFor w.shared 1 ≤ 1 := by
  let acts : List (Bool × Act) := bookOnePlace false ++
    [(true, .run), (true, .run), (false, .perform 7 8), (true, .run), (true, .run),
      (true, .perform 9 9)]
  have hsome : ((World.start hall fun i => (bookAndPay i).pc).steps orderStep acts).isSome := by
    decide
  obtain ⟨w, hw⟩ := Option.isSome_iff_exists.mp hsome
  have htickets : ((World.start hall fun i => (bookAndPay i).pc).steps orderStep acts).map
      (fun w => w.shared.db.tickets) = some [⟨1, 1, some 1, .paid⟩] := by
    decide
  rw [hw, Option.map_some, Option.some.injEq] at htickets
  have hrun : Run orderStep anyStep (World.start hall fun i => (bookAndPay i).pc) w :=
    Run.of_steps hw
  have hopening : Opening hall := ⟨rfl, rfl, rfl, fun _ => rfl⟩
  have hall := bookings_consistent hopening bookAndPay hrun
  exact ⟨w, hrun, htickets, hall.1, hall.2.2.2.2 1⟩

end TicketBooking.Order.Lifecycle
