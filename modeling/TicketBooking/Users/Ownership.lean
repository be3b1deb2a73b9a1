import TicketBooking.Catalog.Transactions
import TicketBooking.Database.Lookups
import TicketBooking.Order.Routes
import TicketBooking.Views.Mixins
/-!
# Objects of others

The operations that look an object up for its owner, each run alone.  An object
of another user and no object at all come to the same exception, but for
`OrderService.get`: it asks the query layer itself, which raises a `ValueError`
for an absent order.
-/

namespace TicketBooking.Users.Ownership

open TicketBooking.App.Exceptions (AppException)
open TicketBooking.Catalog TicketBooking.Catalog.Editing TicketBooking.Catalog.Transactions
open TicketBooking.Database.Lookups TicketBooking.Database.Models
open TicketBooking.Database.Shared TicketBooking.Database.Tables
open TicketBooking.Library.Sessions
open TicketBooking.Order.Routes (OrderResponse orderResponse)
open TicketBooking.Order.Transactions (orderNotFound)
open TicketBooking.Query.Comparisons TicketBooking.Query.Filters TicketBooking.Query.Sorting
open TicketBooking.Views.Logs TicketBooking.Views.Mixins

structure Data where
  store : Store
  viewLogs : ViewLogs
  viewCache : ViewCache

/-! ## Responses -/

structure EventResponse where
  id : Nat
  title : String
  userId : Nat
  categoryId : Nat
  status : EventStatus
  format : EventFormat
  startedAt : Int
  address : Option String
  views : Nat
  deriving DecidableEq, Repr

/-- `EventResponseSchema.model_validate` of an event with its views. -/
def eventResponse (now : Int) (event : Event) (views : Nat) : EventResponse where
  id := event.id
  title := event.title
  userId := event.userId
  categoryId := event.categoryId
  status := event.status now
  format := event.format
  startedAt := event.startedAt
  address := event.address
  views := views

inductive Answer
  | order (response : OrderResponse)
  | event (response : EventResponse)
  | tickets (response : PaginatedResponse Nat)
  | done (result : Bool)
  deriving DecidableEq, Repr

/-! ## The operations that read -/

/-- The path parameter of `GET /orders/{order_id}` is any integer. -/
def OrderService.get (now : Int) (d : Data) (userId : Nat) (objId : Int) :
    Except AppException OrderResponse :=
  match queryGet now d.store.db .order [("id", .int objId)] with
  | .error e => .error e
  | .ok (.order order) =>
      if order.userId = some userId then
        .ok (orderResponse order
          (d.store.db.orderItems.filter fun item => item.orderId = order.id))
      else .error (orderNotFound objId.toNat)
  | .ok _ => .error (orderNotFound objId.toNat)

def EventService.get (now : Int) (d : Data) (objId userId : Nat) :
    Except AppException EventResponse :=
  match repositoryGet now d.store.db .event [("id", .int objId), ("user_id", .int userId)] with
  | .error e => .error e
  | .ok (some (.event event)) =>
      (getViews d.viewLogs eventsTable event.id d.viewCache).1.map (eventResponse now event)
  | .ok _ => .error (eventNotFound objId)

def ticketId : Record → Option Nat
  | .ticket ticket => some ticket.id
  | _ => none

/-- The pages of a listing: filters, offset, limit and order. -/
structure Listing where
  filters : FilterDict Argument
  offset : Nat
  limit : Nat
  orderBy : Option String

def TicketService.getAllByEventId (precedes : Option Value → Option Value → Bool) (now : Int)
    (d : Data) (userId eventId : Nat) (listing : Listing) :
    Except AppException (PaginatedResponse Nat) :=
  match repositoryGet now d.store.db .event [("id", .int eventId)] with
  | .error e => .error e
  | .ok (some (.event event)) =>
      if event.userId ≠ userId then .error (eventNotFound eventId)
      else
        let query : ModelQuery :=
          { model := .ticket
            filters := ("category__event_id", some (.one (.int eventId))) :: listing.filters }
        match sortedPage (mapping now) precedes query (records d.store.db) listing.orderBy
            listing.offset listing.limit with
        | .error e => .error (raised e)
        | .ok (items, count) => .ok (paginateRaw (items.filterMap ticketId) count listing.limit)
  | .ok _ => .error (eventNotFound eventId)

/-! ## The operations that write

Each is a session that runs alone, for as many statements as it can take. -/

def aloneFrom {Pc : Type} (step : Store → Pc → EditAct → Option (Effect Store Row × Pc)) (now : Int)
    (n : Nat) (s : Store) (pc : Pc) : Pc :=
  (solo (fun (_ : Unit) s pc a => step s pc a) () (.run now) n s pc).2

def unfinished : AppException := .other "unfinished"

def EventService.update (now : Int) (s : Store) (data : EventUpdateSchema) (userId eventId : Nat) :
    Except AppException Bool :=
  match aloneFrom updateStep now 3 s (.start data userId eventId) with
  | .finished result => result
  | _ => .error unfinished

/-- `EventService.publish` and `cancel`. -/
def EventService.move (now : Int) (s : Store) (t : Transition) : Except AppException Bool :=
  match aloneFrom transitionStep now 2 s (.start t) with
  | .finished result => result
  | _ => .error unfinished

/-- `TicketCategoryService.update` and `delete`. -/
def TicketCategoryService.modify (now : Int) (s : Store) (userId objId : Nat) (change : Change) :
    Except AppException Bool :=
  match aloneFrom modifyStep now 7 s (.start userId objId change) with
  | .finished result => result
  | _ => .error unfinished

section Ends

variable {Pc : Type} {step : Store → Pc → EditAct → Option (Effect Store Row × Pc)}

theorem aloneFrom_ends {cost : Pc → Nat} {now : Int}
    (hend : ∀ s pc, cost pc = 0 → step s pc (.run now) = none)
    (hstep : ∀ s pc, cost pc ≠ 0 →
      ∃ eff pc', step s pc (.run now) = some (eff, pc') ∧ cost pc' < cost pc)
    {n : Nat} (s : Store) {pc : Pc} (hn : cost pc ≤ n) : cost (aloneFrom step now n s pc) = 0 :=
  solo_ends hend hstep s hn

end Ends

def updateCost : UpdatePc → Nat
  | .start _ _ _ => 3
  | .missed _ _ => 1
  | .matched _ _ => 2
  | .updated _ => 1
  | .finished _ => 0

/-- Three statements end an update, so it is never left `unfinished`. -/
theorem update_ends (now : Int) (s : Store) (data : EventUpdateSchema) (userId eventId : Nat) :
    aloneFrom updateStep now 3 s (.start data userId eventId) =
      .finished (EventService.update now s data userId eventId) := by
  have hcost : updateCost (aloneFrom updateStep now 3 s (.start data userId eventId)) = 0 := by
    refine aloneFrom_ends (fun s pc h => ?_) (fun s pc h => ?_) s le_rfl
    · cases pc <;> cases h
      rfl
    · cases pc <;> simp only [updateStep, updateCost, ne_eq, not_true_eq_false] at h ⊢
      all_goals repeat' split
      all_goals exact ⟨_, _, rfl, by dsimp only; omega⟩
  unfold EventService.update
  cases hpc : aloneFrom updateStep now 3 s (.start data userId eventId) with
  | finished result => rfl
  | _ =>
      rw [hpc] at hcost
      cases hcost

def transitionCost : TransitionPc → Nat
  | .start _ => 2
  | .missed _ => 1
  | .updated _ => 1
  | .finished _ => 0

/-- Two statements end a transition. -/
theorem move_ends (now : Int) (s : Store) (t : Transition) :
    aloneFrom transitionStep now 2 s (.start t) = .finished (EventService.move now s t) := by
  have hcost : transitionCost (aloneFrom transitionStep now 2 s (.start t)) = 0 := by
    refine aloneFrom_ends (fun s pc h => ?_) (fun s pc h => ?_) s le_rfl
    · cases pc <;> cases h
      rfl
    · cases pc <;> simp only [transitionStep, transitionCost, ne_eq, not_true_eq_false] at h ⊢
      all_goals repeat' split
      all_goals exact ⟨_, _, rfl, by dsimp only; omega⟩
  unfold EventService.move
  cases hpc : aloneFrom transitionStep now 2 s (.start t) with
  | finished result => rfl
  | _ =>
      rw [hpc] at hcost
      cases hcost

/-- The statements a change of a ticket category has left; it locks two index
entries at most. -/
def modifyCost : ModifyPc → Nat
  | .start _ _ _ => 7
  | .categoryRead _ _ _ _ => 6
  | .checked _ _ _ => 5
  | .locking _ _ keys => keys.length + 2
  | .modified _ _ => 1
  | .unmatched => 1
  | .finished _ => 0

theorem length_keys_le (change : Change) (category : TicketCategory) :
    (change.keys category).length ≤ 2 := by
  cases change <;> simp [Change.keys]

/-- Seven statements end a change of a ticket category. -/
theorem modify_ends (now : Int) (s : Store) (userId objId : Nat) (change : Change) :
    aloneFrom modifyStep now 7 s (.start userId objId change) =
      .finished (TicketCategoryService.modify now s userId objId change) := by
  have hcost : modifyCost (aloneFrom modifyStep now 7 s (.start userId objId change)) = 0 := by
    refine aloneFrom_ends (fun s pc h => ?_) (fun s pc h => ?_) s le_rfl
    · cases pc <;> cases h
      rfl
    · cases pc with
      | checked objId change category =>
          simp only [modifyStep]
          split
          · exact ⟨_, _, rfl, by simp only [modifyCost]; omega⟩
          · rename_i found _
            have hkeys := length_keys_le change found
            exact ⟨_, _, rfl, by simp only [modifyCost]; omega⟩
      | locking category change keys =>
          cases keys with
          | nil =>
              simp only [modifyStep]
              split <;> exact ⟨_, _, rfl, by simp only [modifyCost, List.length_nil]; omega⟩
          | cons key keys =>
              exact ⟨_, _, rfl, by simp only [modifyCost, List.length_cons]; omega⟩
      | finished result => exact absurd rfl h
      | _ =>
          simp only [modifyStep]
          repeat' split
          all_goals exact ⟨_, _, rfl, by simp only [modifyCost]; omega⟩
  unfold TicketCategoryService.modify
  cases hpc : aloneFrom modifyStep now 7 s (.start userId objId change) with
  | finished result => rfl
  | _ =>
      rw [hpc] at hcost
      simp [modifyCost] at hcost

/-! ## Refusals -/

section Refusals

variable {now : Int} {s : Store} {userId objId : Nat}

theorem find_owned_eq_none (h : ¬ ownsEvent s.db objId userId) {p : Event → Bool}
    (hp : ∀ event, p event → event.id = objId ∧ event.userId = userId) :
    s.db.events.find? p = none := by
  refine List.find?_eq_none.mpr fun event hevent hmatch => h ?_
  exact List.any_eq_true.mpr ⟨event, hevent, decide_eq_true (hp event hmatch)⟩

theorem update_refused (h : ¬ ownsEvent s.db objId userId) (data : EventUpdateSchema) :
    EventService.update now s data userId objId = .error (eventNotFound objId) := by
  have hdraft : findDraft s.db objId userId = none := by
    refine find_owned_eq_none h fun event hmatch => ?_
    obtain ⟨hid, howner, -⟩ := of_decide_eq_true hmatch
    exact ⟨hid, howner⟩
  have hmissed : updateStep s (.start data userId objId) (.run now) =
      some (.stay, .missed userId objId) := by
    simp only [updateStep, hdraft]
  have hrefused : updateStep s (.missed userId objId) (.run now) =
      some (.rollback, .finished (.error (eventNotFound objId))) := by
    simp only [updateStep, if_neg h]
  refine UpdatePc.finished.inj ((update_ends now s data userId objId).symm.trans ?_)
  unfold aloneFrom
  rw [solo_step hmissed, Effect.apply_stay, solo_step hrefused]
  rfl

theorem move_refused (h : ¬ ownsEvent s.db objId userId) {t : Transition} (hid : t.eventId = objId)
    (howner : t.userId = some userId) :
    EventService.move now s t = .error (eventNotFound objId) := by
  have hnames : ∀ event, t.names event → event.id = objId ∧ event.userId = userId := by
    intro event hmatch
    obtain ⟨hevent, hall⟩ := of_decide_eq_true hmatch
    rw [howner] at hall
    exact ⟨hevent.trans hid, of_decide_eq_true hall⟩
  have hsource : t.source s.db = none :=
    find_owned_eq_none h fun event hmatch => hnames event (of_decide_eq_true hmatch).1
  have hmissed : transitionStep s (.start t) (.run now) = some (.stay, .missed t) := by
    simp only [transitionStep, hsource]
  have hrefused : transitionStep s (.missed t) (.run now) =
      some (.rollback, .finished (.error (eventNotFound objId))) := by
    simp only [transitionStep, find_owned_eq_none h hnames, hid]
  refine TransitionPc.finished.inj ((move_ends now s t).symm.trans ?_)
  unfold aloneFrom
  rw [solo_step hmissed, Effect.apply_stay, solo_step hrefused]
  rfl

theorem guardEvent_refused {eventId : Nat} (h : ¬ ownsEvent s.db eventId userId) :
    guardEvent s userId eventId now = some (eventNotFound eventId) := by
  unfold guardEvent
  cases hfind : findEvent s.db eventId with
  | none => rfl
  | some event =>
      obtain ⟨hevent, hid⟩ := findEvent_eq_some hfind
      refine if_pos fun howner => h ?_
      exact List.any_eq_true.mpr ⟨event, hevent, decide_eq_true ⟨hid, howner⟩⟩

theorem modify_refused (now : Int) (h : ∀ category ∈ s.db.ticketCategories, category.id = objId →
      ¬ ownsEvent s.db category.eventId userId) (change : Change) :
    ∃ table id, TicketCategoryService.modify now s userId objId change =
      .error (.objectNotFound table (.id id)) := by
  have hends := (modify_ends now s userId objId change).symm
  cases hfind : findTicketCategory s.db objId with
  | none =>
      have hrefused : modifyStep s (.start userId objId change) (.run now) =
          some (.rollback, .finished (.error (ticketCategoryNotFound objId))) := by
        simp only [modifyStep, hfind]
      refine ⟨ticketCategoriesTable, objId, ModifyPc.finished.inj (hends.trans ?_)⟩
      unfold aloneFrom
      rw [solo_step hrefused]
      rfl
  | some category =>
      obtain ⟨hcategory, hid⟩ := findTicketCategory_eq_some hfind
      have hread : modifyStep s (.start userId objId change) (.run now) =
          some (.stay, .categoryRead userId objId change category) := by
        simp only [modifyStep, hfind]
      have hrefused : modifyStep s (.categoryRead userId objId change category) (.run now) =
          some (.rollback, .finished (.error (eventNotFound category.eventId))) := by
        simp only [modifyStep, guardEvent_refused (h category hcategory hid)]
      refine ⟨eventsTable, category.eventId, ModifyPc.finished.inj (hends.trans ?_)⟩
      unfold aloneFrom
      rw [solo_step hread, Effect.apply_stay, solo_step hrefused]
      rfl

end Refusals

section Reads

variable {now : Int} {d : Data} {userId objId : Nat}

theorem namesColumn_event : ∀ f ∈ [("id", Value.int objId), ("user_id", Value.int userId)],
    NamesColumn .event f.1 := by
  intro f hf
  rcases List.mem_cons.mp hf with rfl | hf
  · exact namesColumn_id .event
  · rw [List.mem_singleton.mp hf]
    exact namesColumn_userId

theorem namesColumn_only (model : Model) (id : Int) : ∀ f ∈ [("id", Value.int id)],
    NamesColumn model f.1 := by
  intro f hf
  rw [List.mem_singleton.mp hf]
  exact namesColumn_id model

theorem event_of_rowsWith {filters : List (String × Value)} {row : Record}
    (hrow : row ∈ rowsWith now d.store.db .event filters) (hid : ("id", .int objId) ∈ filters) :
    ∃ event ∈ d.store.db.events, row = .event event ∧ event.id = objId := by
  obtain ⟨hmem, hvalues⟩ := mem_rowsWith.mp hrow
  obtain ⟨event, hevent, rfl⟩ := List.mem_map.mp hmem
  have hvalue : some (Value.int event.id) = some (Value.int objId) := hvalues _ hid
  simp only [Option.some.injEq, Value.int.injEq] at hvalue
  exact ⟨event, hevent, rfl, by omega⟩

theorem getEvent_refused (h : ¬ ownsEvent d.store.db objId userId) :
    EventService.get now d objId userId = .error (eventNotFound objId) := by
  obtain ⟨found, hfound⟩ : ∃ found, repositoryGet now d.store.db .event
      [("id", .int objId), ("user_id", .int userId)] = .ok found :=
    repositoryGet_ok namesColumn_event
  have hnone : found = none := by
    refine Option.eq_none_iff_forall_not_mem.mpr fun row hrow => h ?_
    have hmem := repositoryGet_of_mem namesColumn_event hfound row hrow
    obtain ⟨event, hevent, rfl, hid⟩ := event_of_rowsWith hmem List.mem_cons_self
    have hvalue : some (Value.int event.userId) = some (Value.int userId) :=
      (mem_rowsWith.mp hmem).2 ("user_id", .int userId) (by simp)
    simp only [Option.some.injEq, Value.int.injEq] at hvalue
    exact List.any_eq_true.mpr ⟨event, hevent, decide_eq_true ⟨hid, by omega⟩⟩
  unfold EventService.get
  rw [hfound, hnone]

theorem getTickets_refused (h : ¬ ownsEvent d.store.db objId userId)
    (precedes : Option Value → Option Value → Bool) (listing : Listing) :
    TicketService.getAllByEventId precedes now d userId objId listing =
      .error (eventNotFound objId) := by
  obtain ⟨found, hfound⟩ : ∃ found, repositoryGet now d.store.db .event [("id", .int objId)] =
      .ok found := repositoryGet_ok (namesColumn_only .event objId)
  unfold TicketService.getAllByEventId
  rw [hfound]
  cases found with
  | none => rfl
  | some row =>
      have hmem := repositoryGet_of_mem (namesColumn_only .event objId) hfound row rfl
      obtain ⟨event, hevent, rfl, hid⟩ := event_of_rowsWith hmem (List.mem_singleton_self _)
      refine if_pos fun howner => h ?_
      exact List.any_eq_true.mpr ⟨event, hevent, decide_eq_true ⟨hid, howner⟩⟩

def OrderExists (db : Database.Tables.Db) (orderId : Int) : Prop :=
  ∃ order ∈ db.orders, order.id = orderId

theorem order_of_rowsWith {orderId : Int} {row : Record}
    (hrow : row ∈ rowsWith now d.store.db .order [("id", .int orderId)]) :
    ∃ order ∈ d.store.db.orders, row = .order order ∧ order.id = orderId := by
  obtain ⟨hmem, hvalues⟩ := mem_rowsWith.mp hrow
  obtain ⟨order, horder, rfl⟩ := List.mem_map.mp hmem
  have hvalue : some (Value.int order.id) = some (Value.int orderId) :=
    hvalues _ (List.mem_singleton_self _)
  simp only [Option.some.injEq, Value.int.injEq] at hvalue
  exact ⟨order, horder, rfl, hvalue⟩

theorem getOrder_absent {orderId : Int} (h : ¬ OrderExists d.store.db orderId) :
    OrderService.get now d userId orderId =
      .error (.valueError "No Order found matching criteria.") := by
  have hnone : rowsWith now d.store.db .order [("id", .int orderId)] = [] := by
    refine List.eq_nil_iff_forall_not_mem.mpr fun row hrow => h ?_
    obtain ⟨order, horder, -, hid⟩ := order_of_rowsWith hrow
    exact ⟨order, horder, hid⟩
  unfold OrderService.get
  rw [queryGet_of_none (namesColumn_only .order orderId) hnone]
  rfl

theorem getOrder_foreign {orderId : Int}
    (hkeys : (d.store.db.orders.map fun order => order.id).Nodup)
    (hexists : OrderExists d.store.db orderId)
    (h : ∀ order ∈ d.store.db.orders, order.id = orderId → order.userId ≠ some userId) :
    OrderService.get now d userId orderId = .error (orderNotFound orderId.toNat) := by
  obtain ⟨order, horder, hid⟩ := hexists
  have hrow : Record.order order ∈ rowsWith now d.store.db .order [("id", .int orderId)] := by
    refine mem_rowsWith.mpr ⟨List.mem_map_of_mem horder, fun f hf => ?_⟩
    rw [List.mem_singleton.mp hf, ← hid]
    rfl
  have honly : ∀ other ∈ rowsWith now d.store.db .order [("id", .int orderId)],
      other = .order order := by
    intro other hother
    obtain ⟨order', horder', rfl, hid'⟩ := order_of_rowsWith hother
    rw [List.inj_on_of_nodup_map hkeys horder' horder (Int.ofNat.inj (hid'.trans hid.symm))]
  unfold OrderService.get
  rw [queryGet_of_only (namesColumn_only .order orderId) hrow honly]
  exact if_neg (h order horder hid)

end Reads

/-! ## Two states -/

/-- The owner-guarded operations, with the id they are called for. -/
inductive Operation
  | getOrder (orderId : Int)
  | getEvent (eventId : Nat)
  | getTickets (eventId : Nat) (listing : Listing)
  | updateEvent (eventId : Nat) (data : EventUpdateSchema)
  | publish (eventId : Nat)
  | cancel (eventId : Nat)
  | updateTicketCategory (categoryId : Nat) (data : TicketCategoryUpdateSchema)
  | deleteTicketCategory (categoryId : Nat)

def Operation.objId : Operation → Int
  | .getOrder orderId => orderId
  | .getEvent eventId => eventId
  | .getTickets eventId _ => eventId
  | .updateEvent eventId _ => eventId
  | .publish eventId => eventId
  | .cancel eventId => eventId
  | .updateTicketCategory categoryId _ => categoryId
  | .deleteTicketCategory categoryId => categoryId

/-- The driver does not encode the id; `_execute_modification` maps the failure of
an UPDATE. -/
def Operation.outOfRange : Operation → AppException
  | .updateEvent _ _ => .databaseError .unhandled
  | .publish _ => .databaseError .unhandled
  | .cancel _ => .databaseError .unhandled
  | _ => driverFailure

def Operation.answer (precedes : Option Value → Option Value → Bool) (now : Int) (d : Data)
    (userId : Nat) (op : Operation) : Except AppException Answer :=
  if FitsColumn op.objId then
    match op with
    | .getOrder orderId => (OrderService.get now d userId orderId).map .order
    | .getEvent eventId => (EventService.get now d eventId userId).map .event
    | .getTickets eventId listing =>
        (TicketService.getAllByEventId precedes now d userId eventId listing).map .tickets
    | .updateEvent eventId data =>
        (EventService.update now d.store data userId eventId).map .done
    | .publish eventId =>
        (EventService.move now d.store (Editing.publish userId eventId)).map .done
    | .cancel eventId => (EventService.move now d.store (Editing.cancel eventId userId)).map .done
    | .updateTicketCategory categoryId data =>
        (TicketCategoryService.modify now d.store userId categoryId (.update data)).map .done
    | .deleteTicketCategory categoryId =>
        (TicketCategoryService.modify now d.store userId categoryId .delete).map .done
  else .error op.outOfRange

/-- The id is one of the user's: of an order, an event, or a ticket category of an
event. -/
def Operation.Owned (db : Database.Tables.Db) (userId : Nat) : Operation → Prop
  | .getOrder orderId => ∃ order ∈ db.orders, order.id = orderId ∧ order.userId = some userId
  | .getEvent eventId => ownsEvent db eventId userId
  | .getTickets eventId _ => ownsEvent db eventId userId
  | .updateEvent eventId _ => ownsEvent db eventId userId
  | .publish eventId => ownsEvent db eventId userId
  | .cancel eventId => ownsEvent db eventId userId
  | .updateTicketCategory categoryId _ => ∃ category ∈ db.ticketCategories,
      category.id = categoryId ∧ ownsEvent db category.eventId userId
  | .deleteTicketCategory categoryId => ∃ category ∈ db.ticketCategories,
      category.id = categoryId ∧ ownsEvent db category.eventId userId

/-- The same result, or the same error but for its text. -/
def SameAnswer : Except AppException Answer → Except AppException Answer → Prop
  | .ok answer, .ok answer' => answer = answer'
  | .error e, .error e' => e.className = e'.className ∧ e.statusCode = e'.statusCode
  | _, _ => False

def NotFound (answer : Except AppException Answer) : Prop :=
  ∃ table id, answer = .error (.objectNotFound table (.id id))

theorem NotFound.same {answer answer' : Except AppException Answer} (h : NotFound answer)
    (h' : NotFound answer') : SameAnswer answer answer' := by
  obtain ⟨table, id, rfl⟩ := h
  obtain ⟨table', id', rfl⟩ := h'
  exact ⟨rfl, rfl⟩

section TwoStates

variable {precedes : Option Value → Option Value → Bool} {now : Int} {userId : Nat}
  {op : Operation}

/-- But for `OrderService.get` an id that is not the user's is not found. -/
theorem notFound_of_not_owned {d : Data} (h : ¬ op.Owned d.store.db userId)
    (hop : ∀ orderId, op ≠ .getOrder orderId) (hfits : FitsColumn op.objId) :
    NotFound (op.answer precedes now d userId) := by
  unfold Operation.answer
  rw [if_pos hfits]
  cases op with
  | getOrder orderId => exact absurd rfl (hop orderId)
  | getEvent eventId =>
      simp only [getEvent_refused h]
      exact ⟨_, _, rfl⟩
  | getTickets eventId listing =>
      simp only [getTickets_refused h]
      exact ⟨_, _, rfl⟩
  | updateEvent eventId data =>
      simp only [update_refused h]
      exact ⟨_, _, rfl⟩
  | publish eventId =>
      simp only [move_refused h (t := Editing.publish userId eventId) rfl rfl]
      exact ⟨_, _, rfl⟩
  | cancel eventId =>
      simp only [move_refused h (t := Editing.cancel eventId userId) rfl rfl]
      exact ⟨_, _, rfl⟩
  | updateTicketCategory categoryId data =>
      obtain ⟨table, id, hrefused⟩ := modify_refused now
        (fun category hmem hid howner => h ⟨category, hmem, hid, howner⟩) (.update data)
      simp only [hrefused]
      exact ⟨_, _, rfl⟩
  | deleteTicketCategory categoryId =>
      obtain ⟨table, id, hrefused⟩ := modify_refused now
        (fun category hmem hid howner => h ⟨category, hmem, hid, howner⟩) .delete
      simp only [hrefused]
      exact ⟨_, _, rfl⟩

/-- An order of someone else is not found, an absent one is no value. -/
theorem getOrder_of_not_owned (precedes : Option Value → Option Value → Bool) (now : Int)
    {d : Data} (hkeys : (d.store.db.orders.map fun order => order.id).Nodup) {orderId : Int}
    (h : ¬ (Operation.getOrder orderId).Owned d.store.db userId) (hfits : FitsColumn orderId) :
    OrderExists d.store.db orderId ∧
        NotFound ((Operation.getOrder orderId).answer precedes now d userId) ∨
      ¬ OrderExists d.store.db orderId ∧
        (Operation.getOrder orderId).answer precedes now d userId =
          .error (.valueError "No Order found matching criteria.") := by
  have hcolumn : FitsColumn (Operation.getOrder orderId).objId := hfits
  unfold Operation.answer
  simp only [if_pos hcolumn]
  by_cases hexists : OrderExists d.store.db orderId
  · refine .inl ⟨hexists, ?_⟩
    rw [getOrder_foreign hkeys hexists
      fun order horder hid howner => h ⟨order, horder, hid, howner⟩]
    exact ⟨_, _, rfl⟩
  · refine .inr ⟨hexists, ?_⟩
    rw [getOrder_absent hexists]
    rfl

/-- An id that is the user's in neither of two states: the answers are the same,
except that `OrderService.get` tells an order of someone else from no order. -/
theorem same_answer_iff {d d' : Data}
    (hkeys : (d.store.db.orders.map fun order => order.id).Nodup)
    (hkeys' : (d'.store.db.orders.map fun order => order.id).Nodup)
    (h : ¬ op.Owned d.store.db userId) (h' : ¬ op.Owned d'.store.db userId) :
    SameAnswer (op.answer precedes now d userId) (op.answer precedes now d' userId) ↔
      ∀ orderId, op = .getOrder orderId → FitsColumn orderId →
        (OrderExists d.store.db orderId ↔ OrderExists d'.store.db orderId) := by
  by_cases hfits : FitsColumn op.objId
  · by_cases hop : ∃ orderId, op = .getOrder orderId
    · obtain ⟨orderId, rfl⟩ := hop
      have hcolumn : FitsColumn orderId := hfits
      rcases getOrder_of_not_owned precedes now hkeys h hfits with
        ⟨hexists, hfound⟩ | ⟨hexists, hfound⟩ <;>
      rcases getOrder_of_not_owned precedes now hkeys' h' hfits with
        ⟨hexists', hfound'⟩ | ⟨hexists', hfound'⟩
      · simp [hexists, hexists', hfound.same hfound']
      · obtain ⟨table, id, hfound⟩ := hfound
        rw [hfound, hfound']
        simp [SameAnswer, AppException.className, hexists, hexists', hcolumn]
      · obtain ⟨table, id, hfound'⟩ := hfound'
        rw [hfound, hfound']
        simp [SameAnswer, AppException.className, hexists, hexists', hcolumn]
      · rw [hfound, hfound']
        simp [SameAnswer, hexists, hexists']
    · rw [not_exists] at hop
      exact iff_of_true
        ((notFound_of_not_owned h hop hfits).same (notFound_of_not_owned h' hop hfits))
        fun orderId heq => absurd heq (hop orderId)
  · unfold Operation.answer
    rw [if_neg hfits, if_neg hfits]
    refine iff_of_true ⟨rfl, rfl⟩ ?_
    rintro orderId rfl hfits'
    exact absurd hfits' hfits

end TwoStates

/-! ## Two halls -/

def hallWith (events : List Event) (orders : List Order) : Data where
  store := { db := { events := events, orders := orders } }
  viewLogs := ⟨[], List.nodup_nil⟩
  viewCache := .empty

def foreignEvent : Event := ⟨7, "concert", "live", 2, 1, .draft, .online, none, 100⟩
def ownOrder : Order := ⟨4, some 1, none, .pending⟩
def foreignOrder : Order := ⟨5, some 2, none, .pending⟩

def anyOrder : Option Value → Option Value → Bool := fun _ _ => true

theorem same_answer_halls :
    SameAnswer ((Operation.publish 7).answer anyOrder 0 (hallWith [foreignEvent] []) 1)
      ((Operation.publish 7).answer anyOrder 0 (hallWith [] []) 1) :=
  (same_answer_iff (by decide) (by decide) (by show ¬ ownsEvent _ 7 1; decide)
    (by show ¬ ownsEvent _ 7 1; decide)).mpr fun _ h => by cases h

/-- The orders of others can be told from no orders. -/
theorem foreign_order_probed :
    ∃ d d' : Data,
      d'.store = { d.store with db := { d.store.db with
        orders := d.store.db.orders.filter fun order => order.userId = some 1 } } ∧
      ¬ (Operation.getOrder 5).Owned d.store.db 1 ∧ ¬ (Operation.getOrder 5).Owned d'.store.db 1 ∧
      ¬ SameAnswer ((Operation.getOrder 5).answer anyOrder 0 d 1)
        ((Operation.getOrder 5).answer anyOrder 0 d' 1) := by
  have hforeign : ∀ order ∈ [ownOrder, foreignOrder],
      (order.id : Int) = 5 → order.userId ≠ some 1 := by
    decide
  have hfound : OrderService.get 0 (hallWith [] [ownOrder, foreignOrder]) 1 5 =
      .error (orderNotFound 5) :=
    getOrder_foreign (by decide) ⟨foreignOrder, by decide, rfl⟩ hforeign
  have hmissed : OrderService.get 0 (hallWith [] [ownOrder]) 1 5 =
      .error (.valueError "No Order found matching criteria.") := by
    refine getOrder_absent ?_
    rintro ⟨order, horder, hid⟩
    cases List.mem_singleton.mp horder
    cases hid
  refine ⟨hallWith [] [ownOrder, foreignOrder], hallWith [] [ownOrder], rfl, ?_, ?_, ?_⟩
  · rintro ⟨order, horder, hid, howner⟩
    exact hforeign order horder hid howner
  · rintro ⟨order, horder, hid, -⟩
    cases List.mem_singleton.mp horder
    cases hid
  · unfold Operation.answer
    have hcolumn : FitsColumn (Operation.getOrder 5).objId := by decide
    simp only [if_pos hcolumn, hfound, hmissed]
    rintro ⟨hclass, -⟩
    exact absurd hclass (by decide)

end TicketBooking.Users.Ownership
