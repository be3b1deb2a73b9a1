import TicketBooking.Order.Transactions
/-!
# The booking ledger

What the order tables are for: a ledger that gives each order id the booking
made under it.  A booking is placed with its tickets reserved and is then
either paid or cancelled, once.  The tables of the service are read as a ledger,
and each committed write of the service is one entry of it.
-/

namespace TicketBooking.Order.Ledger

open TicketBooking.Database.Tables
open TicketBooking.Order.Transactions
open TicketBooking.Order.Booking

/-- An order's status, its items, and the tickets set aside for them. -/
structure Booking where
  status : OrderStatus
  items : List OrderItem
  tickets : List Ticket

def ticketsFor (tickets : List Ticket) (item : OrderItem) : List Ticket :=
  tickets.filter fun ticket => ticket.orderItemId = some item.id

/-- Every item has as many tickets as it asks for, all of its category and of
this status. -/
def Filled (status : TicketStatus) (items : List OrderItem) (tickets : List Ticket) : Prop :=
  ∀ item ∈ items, (ticketsFor tickets item).length = item.quantity ∧
    ∀ ticket ∈ ticketsFor tickets item,
      ticket.status = status ∧ ticket.categoryId = item.categoryId

namespace Booking

/-- The tickets are what the status promises. -/
def Settled (b : Booking) : Prop :=
  match b.status with
  | .pending => Filled .reserved b.items b.tickets
  | .paid => Filled .paid b.items b.tickets
  | .cancelled => b.tickets = []

def pay (b : Booking) : Booking :=
  { b with status := .paid, tickets := b.tickets.map fun t => { t with status := .paid } }

def cancel (b : Booking) : Booking :=
  { b with status := .cancelled, tickets := [] }

theorem settled_pay {b : Booking} (hb : b.Settled) (hs : b.status = .pending) :
    b.pay.Settled := by
  unfold Settled at hb ⊢
  rw [hs] at hb
  intro item hitem
  obtain ⟨hlen, hall⟩ := hb item hitem
  have htickets : ticketsFor b.pay.tickets item =
      (ticketsFor b.tickets item).map fun t => { t with status := .paid } := by
    simp [ticketsFor, pay, List.filter_map, Function.comp_def]
  rw [htickets]
  refine ⟨by simpa using hlen, fun ticket hticket => ?_⟩
  obtain ⟨t, ht, rfl⟩ := List.mem_map.mp hticket
  exact ⟨rfl, (hall t ht).2⟩

theorem settled_cancel (b : Booking) : b.cancel.Settled := rfl

end Booking

/-! ## The abstract ledger -/

/-- One entry of the ledger: a booking placed under an unused id, a pending
booking paid or cancelled, or nothing. -/
inductive Entry : (Nat → Option Booking) → (Nat → Option Booking) → Prop
  | skip (L : Nat → Option Booking) : Entry L L
  | place {L : Nat → Option Booking} {id : Nat} {b : Booking} :
      L id = none → b.status = .pending → b.Settled → Entry L (Function.update L id (some b))
  | pay {L : Nat → Option Booking} {id : Nat} {b : Booking} :
      L id = some b → b.status = .pending → Entry L (Function.update L id (some b.pay))
  | cancel {L : Nat → Option Booking} {id : Nat} {b : Booking} :
      L id = some b → b.status = .pending → Entry L (Function.update L id (some b.cancel))

def AllSettled (L : Nat → Option Booking) : Prop :=
  ∀ id b, L id = some b → b.Settled

theorem Entry.settled {L L' : Nat → Option Booking} (h : Entry L L') (hL : AllSettled L) :
    AllSettled L' := by
  intro id b hb
  have hupdate : ∀ {id₀ : Nat} {b₀ : Booking}, b₀.Settled →
      Function.update L id₀ (some b₀) id = some b → b.Settled := by
    intro id₀ b₀ hb₀ hid
    rw [Function.update_apply] at hid
    split_ifs at hid
    · cases hid
      exact hb₀
    · exact hL id b hid
  cases h with
  | skip => exact hL id b hb
  | place _ _ hnew => exact hupdate hnew hb
  | pay hold hs => exact hupdate (Booking.settled_pay (hL _ _ hold) hs) hb
  | cancel _ _ => exact hupdate (Booking.settled_cancel _) hb

/-- The moves of an order's status: none, or out of PENDING. -/
def Forward (status status' : OrderStatus) : Prop :=
  status' = status ∨ status = .pending

theorem Forward.trans {a b c : OrderStatus} (hab : Forward a b) (hbc : Forward b c) :
    Forward a c := by
  rcases hab with rfl | h
  · exact hbc
  · exact .inr h

/-- `L'` follows `L`: every booking is still there with its items, and its
status moved forward. -/
def Follows (L L' : Nat → Option Booking) : Prop :=
  ∀ id b, L id = some b → ∃ b', L' id = some b' ∧ b'.items = b.items ∧ Forward b.status b'.status

theorem Follows.refl (L : Nat → Option Booking) : Follows L L :=
  fun _ b hb => ⟨b, hb, rfl, .inl rfl⟩

theorem Follows.trans {L L' L'' : Nat → Option Booking} (h : Follows L L') (h' : Follows L' L'') :
    Follows L L'' := by
  intro id b hb
  obtain ⟨b', hb', hitems, hstatus⟩ := h id b hb
  obtain ⟨b'', hb'', hitems', hstatus'⟩ := h' id b' hb'
  exact ⟨b'', hb'', hitems'.trans hitems, hstatus.trans hstatus'⟩

theorem Entry.follows {L L' : Nat → Option Booking} (h : Entry L L') : Follows L L' := by
  intro id b hb
  cases h with
  | skip => exact ⟨b, hb, rfl, .inl rfl⟩
  | @place id₀ b₀ hnone _ _ =>
      have hne : id ≠ id₀ := by
        rintro rfl
        rw [hnone] at hb
        cases hb
      exact ⟨b, by rw [Function.update_of_ne hne]; exact hb, rfl, .inl rfl⟩
  | @pay id₀ b₀ hold hs =>
      by_cases hid : id = id₀
      · subst hid
        rw [hold] at hb
        cases hb
        exact ⟨b.pay, by simp, rfl, .inr hs⟩
      · exact ⟨b, by rw [Function.update_of_ne hid]; exact hb, rfl, .inl rfl⟩
  | @cancel id₀ b₀ hold hs =>
      by_cases hid : id = id₀
      · subst hid
        rw [hold] at hb
        cases hb
        exact ⟨b.cancel, by simp, rfl, .inr hs⟩
      · exact ⟨b, by rw [Function.update_of_ne hid]; exact hb, rfl, .inl rfl⟩

/-! ## The ledger in the tables -/

def itemsOf (db : Db) (orderId : Nat) : List OrderItem :=
  db.orderItems.filter fun item => item.orderId = orderId

def ticketsOf (db : Db) (itemIds : List Nat) : List Ticket :=
  db.tickets.filter fun ticket => ticket.orderItemId.any (· ∈ itemIds)

def bookingOf (db : Db) (orderId : Nat) : Option Booking :=
  (findOrder db orderId).map fun order =>
    ⟨order.status, itemsOf db orderId, ticketsOf db (itemIdsOf db orderId)⟩

theorem itemIdsOf_eq (db : Db) (orderId : Nat) :
    itemIdsOf db orderId = (itemsOf db orderId).map fun item => item.id := rfl

theorem ticketIdsOf_eq (db : Db) (itemIds : List Nat) :
    ticketIdsOf db itemIds = (ticketsOf db itemIds).map fun ticket => ticket.id := rfl

theorem findOrder_eq_none {db : Db} {id : Nat} :
    findOrder db id = none ↔ ∀ order ∈ db.orders, order.id ≠ id := by
  simp [findOrder, List.find?_eq_none]

theorem bookingOf_eq_none {db : Db} {id : Nat} :
    bookingOf db id = none ↔ ∀ order ∈ db.orders, order.id ≠ id := by
  rw [bookingOf, Option.map_eq_none_iff, findOrder_eq_none]

/-- Primary keys, foreign keys and sequences of the order tables. -/
structure WellFormed (db : Db) (seq : Sequences) : Prop where
  orders_nodup : (db.orders.map fun order => order.id).Nodup
  orders_lt : ∀ order ∈ db.orders, order.id < seq.orders
  items_nodup : (db.orderItems.map fun item => item.id).Nodup
  items_lt : ∀ item ∈ db.orderItems, item.id < seq.orderItems
  items_order : ∀ item ∈ db.orderItems, ∃ order ∈ db.orders, order.id = item.orderId
  tickets_nodup : (db.tickets.map fun ticket => ticket.id).Nodup
  tickets_lt : ∀ ticket ∈ db.tickets, ticket.id < seq.tickets
  tickets_item : ∀ ticket ∈ db.tickets, ∀ id, ticket.orderItemId = some id →
    ∃ item ∈ db.orderItems, item.id = id

def Advance (seq seq' : Sequences) : Prop :=
  seq.orders ≤ seq'.orders ∧ seq.orderItems ≤ seq'.orderItems ∧ seq.tickets ≤ seq'.tickets

theorem Advance.refl (seq : Sequences) : Advance seq seq :=
  ⟨le_refl _, le_refl _, le_refl _⟩

structure Draft where
  order : Order
  items : List OrderItem
  tickets : List Ticket

/-- The draft's ids were drawn from the sequences and are not in the tables. -/
structure Draft.New (d : Draft) (db : Db) (seq : Sequences) : Prop where
  order_lt : d.order.id < seq.orders
  order_new : ∀ order ∈ db.orders, order.id ≠ d.order.id
  items_nodup : (d.items.map fun item => item.id).Nodup
  items_lt : ∀ item ∈ d.items, item.id < seq.orderItems
  items_new : ∀ item ∈ d.items, ∀ old ∈ db.orderItems, old.id ≠ item.id
  items_order : ∀ item ∈ d.items, item.orderId = d.order.id
  tickets_nodup : (d.tickets.map fun ticket => ticket.id).Nodup
  tickets_lt : ∀ ticket ∈ d.tickets, ticket.id < seq.tickets
  tickets_new : ∀ ticket ∈ d.tickets, ∀ old ∈ db.tickets, old.id ≠ ticket.id
  tickets_item : ∀ ticket ∈ d.tickets, ∃ item ∈ d.items, ticket.orderItemId = some item.id

def Draft.booking (d : Draft) : Booking := ⟨d.order.status, d.items, d.tickets⟩

def Draft.insert (d : Draft) (db : Db) : Db := insertBooking d.order d.items d.tickets db

private theorem nodup_map_append {α : Type} {f : α → Nat} {xs ys : List α} (hxs : (xs.map f).Nodup)
    (hys : (ys.map f).Nodup) (hne : ∀ y ∈ ys, ∀ x ∈ xs, f x ≠ f y) :
    ((xs ++ ys).map f).Nodup := by
  rw [List.map_append, List.nodup_append]
  refine ⟨hxs, hys, ?_⟩
  intro a ha b hb
  obtain ⟨x, hx, rfl⟩ := List.mem_map.mp ha
  obtain ⟨y, hy, rfl⟩ := List.mem_map.mp hb
  exact hne y hy x hx

variable {db : Db} {seq : Sequences}

theorem WellFormed.mono {seq' : Sequences} (h : WellFormed db seq)
    (hseq : Advance seq seq') : WellFormed db seq' where
  orders_nodup := h.orders_nodup
  orders_lt order horder := (h.orders_lt order horder).trans_le hseq.1
  items_nodup := h.items_nodup
  items_lt item hitem := (h.items_lt item hitem).trans_le hseq.2.1
  items_order := h.items_order
  tickets_nodup := h.tickets_nodup
  tickets_lt ticket hticket := (h.tickets_lt ticket hticket).trans_le hseq.2.2
  tickets_item := h.tickets_item

theorem WellFormed.insert (hdb : WellFormed db seq) {d : Draft} (hd : d.New db seq) :
    WellFormed (d.insert db) seq where
  orders_nodup := nodup_map_append hdb.orders_nodup (by simp) fun y hy x hx => by
    rw [List.mem_singleton.mp hy]
    exact hd.order_new x hx
  orders_lt order horder := by
    rcases List.mem_append.mp horder with h | h
    · exact hdb.orders_lt order h
    · rw [List.mem_singleton.mp h]
      exact hd.order_lt
  items_nodup := nodup_map_append hdb.items_nodup hd.items_nodup hd.items_new
  items_lt item hitem := (List.mem_append.mp hitem).elim (hdb.items_lt item) (hd.items_lt item)
  items_order item hitem := by
    rcases List.mem_append.mp hitem with h | h
    · obtain ⟨order, horder, hid⟩ := hdb.items_order item h
      exact ⟨order, List.mem_append_left _ horder, hid⟩
    · exact ⟨d.order, List.mem_append_right _ (List.mem_singleton_self _),
        (hd.items_order item h).symm⟩
  tickets_nodup := nodup_map_append hdb.tickets_nodup hd.tickets_nodup hd.tickets_new
  tickets_lt ticket hticket :=
    (List.mem_append.mp hticket).elim (hdb.tickets_lt ticket) (hd.tickets_lt ticket)
  tickets_item ticket hticket id hid := by
    rcases List.mem_append.mp hticket with h | h
    · obtain ⟨item, hitem, heq⟩ := hdb.tickets_item ticket h id hid
      exact ⟨item, List.mem_append_left _ hitem, heq⟩
    · obtain ⟨item, hitem, heq⟩ := hd.tickets_item ticket h
      rw [hid] at heq
      exact ⟨item, List.mem_append_right _ hitem, (Option.some.inj heq).symm⟩

theorem itemsOf_insert_self (hdb : WellFormed db seq) {d : Draft} (hd : d.New db seq) :
    itemsOf (d.insert db) d.order.id = d.items := by
  have hold : (db.orderItems.filter fun item => item.orderId = d.order.id) = [] := by
    rw [List.filter_eq_nil_iff]
    intro item hitem
    obtain ⟨order, horder, heq⟩ := hdb.items_order item hitem
    have hne := hd.order_new order horder
    rw [heq] at hne
    simpa using hne
  have hnew : (d.items.filter fun item => item.orderId = d.order.id) = d.items := by
    rw [List.filter_eq_self]
    intro item hitem
    simpa using hd.items_order item hitem
  simp only [itemsOf, Draft.insert, insertBooking, List.filter_append, hold, hnew,
    List.nil_append]

theorem ticketsOf_insert_self (hdb : WellFormed db seq) {d : Draft} (hd : d.New db seq) :
    ticketsOf (d.insert db) (d.items.map fun item => item.id) = d.tickets := by
  have hold : (db.tickets.filter fun ticket =>
      ticket.orderItemId.any (· ∈ d.items.map fun item => item.id)) = [] := by
    rw [List.filter_eq_nil_iff]
    intro ticket hticket hany
    obtain ⟨itemId, hitemId, hmem⟩ := (Option.any_eq_true _ _).mp hany
    obtain ⟨old, hold, heq⟩ := hdb.tickets_item ticket hticket itemId hitemId
    obtain ⟨item, hitem, hitemeq⟩ := List.mem_map.mp (of_decide_eq_true hmem)
    exact hd.items_new item hitem old hold (heq.trans hitemeq.symm)
  have hnew : (d.tickets.filter fun ticket =>
      ticket.orderItemId.any (· ∈ d.items.map fun item => item.id)) = d.tickets := by
    rw [List.filter_eq_self]
    intro ticket hticket
    obtain ⟨item, hitem, heq⟩ := hd.tickets_item ticket hticket
    rw [heq]
    simpa using ⟨item, hitem, rfl⟩
  simp only [ticketsOf, Draft.insert, insertBooking, List.filter_append]
  rw [hold, hnew, List.nil_append]

theorem itemsOf_insert_of_ne {d : Draft} (hd : d.New db seq) {id : Nat} (hid : id ≠ d.order.id) :
    itemsOf (d.insert db) id = itemsOf db id := by
  have hnew : (d.items.filter fun item => item.orderId = id) = [] := by
    rw [List.filter_eq_nil_iff]
    intro item hitem
    rw [hd.items_order item hitem]
    simpa using Ne.symm hid
  simp only [itemsOf, Draft.insert, insertBooking, List.filter_append, hnew, List.append_nil]

theorem ticketsOf_insert_old {d : Draft} (hd : d.New db seq) (id : Nat) :
    ticketsOf (d.insert db) (itemIdsOf db id) = ticketsOf db (itemIdsOf db id) := by
  have hnew : (d.tickets.filter fun ticket =>
      ticket.orderItemId.any (· ∈ itemIdsOf db id)) = [] := by
    rw [List.filter_eq_nil_iff]
    intro ticket hticket hany
    obtain ⟨item, hitem, heq⟩ := hd.tickets_item ticket hticket
    rw [heq] at hany
    obtain ⟨old, hold, holdeq⟩ := List.mem_map.mp (of_decide_eq_true hany)
    exact hd.items_new item hitem old (List.mem_filter.mp hold).1 holdeq
  simp only [ticketsOf, Draft.insert, insertBooking, List.filter_append]
  rw [hnew, List.append_nil]

theorem bookingOf_insert (hdb : WellFormed db seq) {d : Draft} (hd : d.New db seq) :
    bookingOf (d.insert db) = Function.update (bookingOf db) d.order.id (some d.booking) := by
  funext id
  have horders : findOrder (d.insert db) id =
      (findOrder db id).or (if d.order.id = id then some d.order else none) := by
    simp only [findOrder, Draft.insert, insertBooking, List.find?_append, List.find?_cons,
      List.find?_nil]
    split_ifs <;> simp_all
  by_cases hid : id = d.order.id
  · subst hid
    have hnone : findOrder db d.order.id = none := findOrder_eq_none.mpr hd.order_new
    rw [Function.update_self, bookingOf, horders, hnone, itemIdsOf_eq,
      itemsOf_insert_self hdb hd, ticketsOf_insert_self hdb hd]
    simp [Draft.booking]
  · rw [Function.update_of_ne hid, bookingOf, horders, if_neg (Ne.symm hid), Option.or_none,
      itemIdsOf_eq, itemsOf_insert_of_ne hd hid, ← itemIdsOf_eq, ticketsOf_insert_old hd, bookingOf]

/-! ## Payment and expiry -/

theorem findOrder_setOrderStatus (db : Db) (id : Nat) (status : OrderStatus)
    (tickets : List Ticket) (id' : Nat) :
    findOrder { db with orders := setOrderStatus id status db.orders, tickets := tickets } id' =
      (findOrder db id').map fun order =>
        if order.id = id then { order with status := status } else order := by
  unfold findOrder setOrderStatus
  rw [List.find?_map]
  congr 2
  funext order
  simp only [Function.comp_apply]
  split_ifs <;> rfl

theorem setOrderStatus_ids (id : Nat) (status : OrderStatus) (orders : List Order) :
    (setOrderStatus id status orders).map (fun order => order.id) =
      orders.map fun order => order.id := by
  unfold setOrderStatus
  rw [List.map_map]
  congr 1
  funext order
  simp only [Function.comp_apply]
  split_ifs <;> rfl

theorem mem_setOrderStatus {id : Nat} {status : OrderStatus} {orders : List Order} {order : Order}
    (h : order ∈ setOrderStatus id status orders) : ∃ old ∈ orders, old.id = order.id := by
  have hid : order.id ∈ (setOrderStatus id status orders).map fun order => order.id :=
    List.mem_map_of_mem h
  rw [setOrderStatus_ids] at hid
  exact List.mem_map.mp hid

theorem WellFormed.map_tickets (hdb : WellFormed db seq) (id : Nat) (status : OrderStatus)
    {tickets : List Ticket} (hnodup : (tickets.map fun ticket => ticket.id).Nodup)
    (hold : ∀ ticket ∈ tickets, ∃ old ∈ db.tickets,
      old.id = ticket.id ∧ old.orderItemId = ticket.orderItemId) :
    WellFormed { db with orders := setOrderStatus id status db.orders, tickets := tickets }
      seq where
  orders_nodup := by
    rw [setOrderStatus_ids]
    exact hdb.orders_nodup
  orders_lt order horder := by
    obtain ⟨old, hmemold, heq⟩ := mem_setOrderStatus horder
    rw [← heq]
    exact hdb.orders_lt old hmemold
  items_nodup := hdb.items_nodup
  items_lt := hdb.items_lt
  items_order item hitem := by
    obtain ⟨order, horder, heq⟩ := hdb.items_order item hitem
    have h : order.id ∈ db.orders.map fun order => order.id := List.mem_map_of_mem horder
    rw [← setOrderStatus_ids id status] at h
    obtain ⟨new, hnew, hneweq⟩ := List.mem_map.mp h
    exact ⟨new, hnew, hneweq.trans heq⟩
  tickets_nodup := hnodup
  tickets_lt ticket hticket := by
    obtain ⟨old, hmemold, heq, -⟩ := hold ticket hticket
    rw [← heq]
    exact hdb.tickets_lt old hmemold
  tickets_item ticket hticket itemId hitemId := by
    obtain ⟨old, hmemold, -, heq⟩ := hold ticket hticket
    exact hdb.tickets_item old hmemold itemId (heq.trans hitemId)

private theorem map_pay_id (ids : List Nat) (tickets : List Ticket) :
    (tickets.map fun ticket =>
      if ticket.id ∈ ids then { ticket with status := .paid } else ticket).map
        (fun ticket => ticket.id) = tickets.map fun ticket => ticket.id := by
  rw [List.map_map]
  congr 1
  funext ticket
  simp only [Function.comp_apply]
  split_ifs <;> rfl

theorem mem_payBooking (id : Nat) {ids : List Nat} {ticket : Ticket}
    (h : ticket ∈ (payBooking id ids db).tickets) :
    ∃ old ∈ db.tickets, old.id = ticket.id ∧ old.orderItemId = ticket.orderItemId := by
  obtain ⟨old, hold, rfl⟩ := List.mem_map.mp h
  refine ⟨old, hold, ?_⟩
  split_ifs <;> exact ⟨rfl, rfl⟩

theorem mem_cancelBooking (id : Nat) {ids : List Nat} {ticket : Ticket}
    (h : ticket ∈ (cancelBooking id ids db).tickets) :
    ∃ old ∈ db.tickets, old.id = ticket.id ∧ old.orderItemId = ticket.orderItemId :=
  ⟨ticket, (List.mem_filter.mp h).1, rfl, rfl⟩

theorem WellFormed.pay (hdb : WellFormed db seq) (id : Nat) (ids : List Nat) :
    WellFormed (payBooking id ids db) seq :=
  hdb.map_tickets id .paid (by rw [map_pay_id]; exact hdb.tickets_nodup)
    fun _ hticket => mem_payBooking id hticket

theorem WellFormed.cancel (hdb : WellFormed db seq) (id : Nat) (ids : List Nat) :
    WellFormed (cancelBooking id ids db) seq :=
  hdb.map_tickets id .cancelled
    (hdb.tickets_nodup.sublist (List.filter_sublist.map fun ticket : Ticket => ticket.id))
    fun _ hticket => mem_cancelBooking id hticket

/-- The tickets of two orders are different rows. -/
theorem WellFormed.order_eq (hdb : WellFormed db seq) {id id' : Nat} {ticket : Ticket}
    (hticket : ticket ∈ ticketsOf db (itemIdsOf db id'))
    (hmem : ticket.id ∈ ticketIdsOf db (itemIdsOf db id)) : id' = id := by
  obtain ⟨other, hother, heq⟩ := List.mem_map.mp hmem
  have hsame : other = ticket :=
    List.inj_on_of_nodup_map hdb.tickets_nodup (List.mem_filter.mp hother).1
      (List.mem_filter.mp hticket).1 heq
  subst hsame
  obtain ⟨a, ha, hmema⟩ := (Option.any_eq_true _ _).mp (List.mem_filter.mp hticket).2
  obtain ⟨b, hb, hmemb⟩ := (Option.any_eq_true _ _).mp (List.mem_filter.mp hother).2
  rw [ha] at hb
  cases hb
  obtain ⟨item, hitem, hitemid⟩ := List.mem_map.mp (of_decide_eq_true hmema)
  obtain ⟨item', hitem', hitemid'⟩ := List.mem_map.mp (of_decide_eq_true hmemb)
  have hitems : item = item' :=
    List.inj_on_of_nodup_map hdb.items_nodup (List.mem_filter.mp hitem).1
      (List.mem_filter.mp hitem').1 (hitemid.trans hitemid'.symm)
  subst hitems
  have h := of_decide_eq_true (List.mem_filter.mp hitem).2
  have h' := of_decide_eq_true (List.mem_filter.mp hitem').2
  exact h.symm.trans h'

theorem findOrder_id {id : Nat} {order : Order} (h : findOrder db id = some order) :
    order.id = id := by
  have hfound := List.find?_some h
  simpa using hfound

theorem WellFormed.findOrder (hdb : WellFormed db seq) {order : Order}
    (horder : order ∈ db.orders) :
    findOrder db order.id = some order := by
  cases hfind : Transactions.findOrder db order.id with
  | none => exact absurd rfl (findOrder_eq_none.mp hfind order horder)
  | some found =>
      have hsame : found = order :=
        List.inj_on_of_nodup_map hdb.orders_nodup (List.mem_of_find?_eq_some hfind) horder
          (findOrder_id hfind)
      rw [hsame]

theorem WellFormed.nodup_filter (hdb : WellFormed db seq) (p : Order → Bool) :
    ((db.orders.filter p).map fun order => order.id).Nodup :=
  hdb.orders_nodup.sublist (List.filter_sublist.map fun order : Order => order.id)

/-- `WHERE id = :id AND status = 'pending'` matches exactly a pending booking. -/
theorem WellFormed.pending (hdb : WellFormed db seq) {id : Nat} (h : isPending db id) :
    ∃ b, bookingOf db id = some b ∧ b.status = .pending := by
  obtain ⟨order, horder, hcond⟩ := List.any_eq_true.mp h
  obtain ⟨hid, hstatus⟩ := of_decide_eq_true hcond
  subst hid
  exact ⟨_, by rw [bookingOf, hdb.findOrder horder]; rfl, hstatus⟩

theorem booking_rows {id : Nat} {b : Booking} (hb : bookingOf db id = some b) :
    b.items = itemsOf db id ∧ b.tickets = ticketsOf db (itemIdsOf db id) := by
  obtain ⟨order, -, rfl⟩ := Option.map_eq_some_iff.mp hb
  exact ⟨rfl, rfl⟩

theorem bookingOf_setOrderStatus {id : Nat} {b : Booking} (hb : bookingOf db id = some b)
    (status : OrderStatus) (tickets own : List Ticket)
    (hown : ticketsOf { db with tickets := tickets } (itemIdsOf db id) = own)
    (hothers : ∀ id', id' ≠ id → ticketsOf { db with tickets := tickets } (itemIdsOf db id') =
      ticketsOf db (itemIdsOf db id')) :
    bookingOf { db with orders := setOrderStatus id status db.orders, tickets := tickets } =
      Function.update (bookingOf db) id (some ⟨status, b.items, own⟩) := by
  funext id'
  have hread :
      bookingOf { db with orders := setOrderStatus id status db.orders, tickets := tickets } id' =
        ((findOrder db id').map fun order =>
          if order.id = id then { order with status := status } else order).map fun order =>
            ⟨order.status, itemsOf db id',
              ticketsOf { db with tickets := tickets } (itemIdsOf db id')⟩ := by
    rw [← findOrder_setOrderStatus db id status tickets id']
    rfl
  rw [hread]
  by_cases hid : id' = id
  · subst hid
    obtain ⟨order, horder, rfl⟩ := Option.map_eq_some_iff.mp hb
    rw [Function.update_self, horder, hown]
    simp [findOrder_id horder]
  · rw [Function.update_of_ne hid, hothers id' hid, bookingOf]
    cases hfind : findOrder db id' with
    | none => rfl
    | some other =>
        have hne : other.id ≠ id := by
          rw [findOrder_id hfind]
          exact hid
        simp [hne]

theorem bookingOf_pay (hdb : WellFormed db seq) {id : Nat} {b : Booking}
    (hb : bookingOf db id = some b) :
    bookingOf (payBooking id (ticketIdsOf db (itemIdsOf db id)) db) =
      Function.update (bookingOf db) id (some b.pay) := by
  have hpaid : ∀ id', ticketsOf (payBooking id (ticketIdsOf db (itemIdsOf db id)) db)
      (itemIdsOf db id') = (ticketsOf db (itemIdsOf db id')).map fun ticket =>
        if ticket.id ∈ ticketIdsOf db (itemIdsOf db id) then { ticket with status := .paid }
        else ticket := by
    intro id'
    simp only [ticketsOf, payBooking, List.filter_map]
    congr 2
    funext ticket
    simp only [Function.comp_apply]
    split_ifs <;> rfl
  refine bookingOf_setOrderStatus hb .paid _ b.pay.tickets ?_ fun id' hid => ?_
  · refine (hpaid id).trans ?_
    rw [Booking.pay, (booking_rows hb).2]
    refine List.map_congr_left fun ticket hticket => ?_
    rw [if_pos]
    exact List.mem_map_of_mem hticket
  · refine (hpaid id').trans ?_
    rw [List.map_congr_left (g := fun ticket => ticket), List.map_id']
    intro ticket hticket
    rw [if_neg fun hmem => hid (hdb.order_eq hticket hmem)]

theorem bookingOf_cancel (hdb : WellFormed db seq) {id : Nat} {b : Booking}
    (hb : bookingOf db id = some b) :
    bookingOf (cancelBooking id (ticketIdsOf db (itemIdsOf db id)) db) =
      Function.update (bookingOf db) id (some b.cancel) := by
  have hleft : ∀ id', ticketsOf (cancelBooking id (ticketIdsOf db (itemIdsOf db id)) db)
      (itemIdsOf db id') = (ticketsOf db (itemIdsOf db id')).filter fun ticket =>
        ticket.id ∉ ticketIdsOf db (itemIdsOf db id) := by
    intro id'
    simp only [ticketsOf, cancelBooking, List.filter_filter]
    congr 1
    funext ticket
    exact Bool.and_comm _ _
  refine bookingOf_setOrderStatus hb .cancelled _ [] ?_ fun id' hid => ?_
  · refine (hleft id).trans ?_
    rw [List.filter_eq_nil_iff]
    intro ticket hticket
    have hmem : ticket.id ∈ ticketIdsOf db (itemIdsOf db id) := List.mem_map_of_mem hticket
    simpa using hmem
  · refine (hleft id').trans ?_
    rw [List.filter_eq_self]
    intro ticket hticket
    rw [decide_eq_true_eq]
    exact fun hmem => hid (hdb.order_eq hticket hmem)

/-! ## Migration -/

private theorem migrated_id (userId : Nat) (ids : List Nat) (order : Order) :
    (if order.id ∈ ids then { order with userId := some userId, anonymousEmail := none }
      else order).id = order.id := by
  split_ifs <;> rfl

theorem mem_migrateOrders {userId : Nat} {ids : List Nat} {order : Order}
    (h : order ∈ (migrateOrders userId ids db).orders) : ∃ old ∈ db.orders, old.id = order.id := by
  obtain ⟨old, hold, rfl⟩ := List.mem_map.mp h
  exact ⟨old, hold, (migrated_id userId ids old).symm⟩

theorem WellFormed.migrate (hdb : WellFormed db seq) (userId : Nat) (ids : List Nat) :
    WellFormed (migrateOrders userId ids db) seq where
  orders_nodup := by
    have hids : (migrateOrders userId ids db).orders.map (fun order => order.id) =
        db.orders.map fun order => order.id := by
      simp only [migrateOrders, List.map_map, Function.comp_def, migrated_id]
    rw [hids]
    exact hdb.orders_nodup
  orders_lt order horder := by
    obtain ⟨old, hold, rfl⟩ := List.mem_map.mp horder
    rw [migrated_id]
    exact hdb.orders_lt old hold
  items_nodup := hdb.items_nodup
  items_lt := hdb.items_lt
  items_order item hitem := by
    obtain ⟨order, horder, heq⟩ := hdb.items_order item hitem
    exact ⟨_, List.mem_map_of_mem horder, (migrated_id userId ids order).trans heq⟩
  tickets_nodup := hdb.tickets_nodup
  tickets_lt := hdb.tickets_lt
  tickets_item := hdb.tickets_item

theorem bookingOf_migrate (db : Db) (userId : Nat) (ids : List Nat) :
    bookingOf (migrateOrders userId ids db) = bookingOf db := by
  funext id
  unfold bookingOf findOrder migrateOrders
  rw [List.find?_map, Option.map_map]
  simp only [Function.comp_def, migrated_id]
  congr 1
  funext order
  split_ifs <;> rfl

end TicketBooking.Order.Ledger
