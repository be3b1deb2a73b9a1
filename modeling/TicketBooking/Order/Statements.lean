import TicketBooking.Database.Statements
import TicketBooking.Order.Quantities
import Mathlib.Data.List.Perm.Basic
/-!
# The statements of the order service

`OrderService` as it calls the query layer, and the model that works on the tables: both
take the same steps.
-/

namespace TicketBooking.Order.Statements

open TicketBooking.App.Exceptions (AppException)
open TicketBooking.Database.Lookups TicketBooking.Database.Models TicketBooking.Database.Shared
open TicketBooking.Database.Statements TicketBooking.Database.Tables
open TicketBooking.Library TicketBooking.Library.Joins TicketBooking.Library.Outcomes
open TicketBooking.Library.Sessions
open TicketBooking.Order.Booking TicketBooking.Order.Quantities TicketBooking.Order.Transactions
open TicketBooking.Query.Builder TicketBooking.Query.Comparisons TicketBooking.Query.Expressions
open TicketBooking.Query.Filters TicketBooking.Query.Matching TicketBooking.Query.Operators
open TicketBooking.Query.PageCounts (unique_of_nodup)
open TicketBooking.Query.Paths (PathError attributes_columns followNames relationNames)

/-! ## The locking SELECT -/

/-- `When(id=cat_id, available_quantity__gte=qty)`. -/
def availableWhen (requested : Nat × Nat) : When Value Argument where
  conditionsDict :=
    [("id", .one (.int requested.1)), ("available_quantity__gte", .one (.int requested.2))]
  conditioned := by simp

/-- `Case(*(When(...) for cat_id, qty in requested_quantities.items()))`. -/
def availableCase (items : List OrderItemCreateSchema) : Case Value Argument where
  whens := (requestedQuantities items).map availableWhen

/-- `id__in=category_ids, id=Case(...)`. -/
def bookingFilters (items : List OrderItemCreateSchema) (e : ColumnCase) :
    List (OwnFilter Operand) :=
  [⟨"id__in", "id", .isIn, some "id",
      .plain (.many ((categoryIds items).map fun id : Nat => .int id))⟩,
    ⟨"id", "id", .eq, some "id", .cases e⟩]

def pathRaised : PathError → AppException
  | .attributeError _ => .other "AttributeError"
  | .notRelation => .other "AttributeError"
  | .refused => .other "SQLAlchemyError"
  | .manyRows => .other "SQLAlchemyError"

/-- `self.uow.ticket_category.filter(id__in=..., id=Case(...)).with_for_update().all()`,
before the rows are locked. -/
def selectAvailable (now : Int) (db : Db) (items : List OrderItemCreateSchema) :
    Except AppException (List Record) :=
  match (availableCase items).resolve (mapping now).schema (mapping now).comparison Model.name
      .ticketCategory scalarOf with
  | .error e => .error (pathRaised e)
  | .ok expression =>
      match columnCase .ticketCategory expression with
      | none => .error (.other "SQLAlchemyError")
      | some e =>
          (ReadQueryExecutor.all (mappingOf now (operandComparison now))
            (ownQuery .ticketCategory (bookingFilters items e)) (records db)).mapError raised

def availableExpression (items : List OrderItemCreateSchema) :
    CaseExpression Model Value Argument where
  whens := (requestedQuantities items).map fun requested =>
    ([⟨.attribute "id", .eq, .one (.int requested.1)⟩,
      ⟨.attribute "available_quantity", .gte, .one (.int requested.2)⟩],
        some (.int requested.1))
  default := none

def availableColumns (items : List OrderItemCreateSchema) : ColumnCase where
  model := .ticketCategory
  expression := availableExpression items
  own := by
    simp only [availableExpression, List.all_map, List.all_eq_true]
    exact fun _ _ => rfl

section Select

variable {now : Int} {db : Db} {items : List OrderItemCreateSchema}

theorem resolve_availableWhen (requested : Nat × Nat) :
    (availableWhen requested).resolve (mapping now).schema (mapping now).comparison Model.name
        .ticketCategory scalarOf =
      .ok ([⟨.attribute "id", .eq, .one (.int requested.1)⟩,
        ⟨.attribute "available_quantity", .gte, .one (.int requested.2)⟩],
          some (some (.int requested.1))) := by
  have hid : resolveCondition (mapping now).schema (mapping now).comparison Model.name
      .ticketCategory ("id", .one (.int requested.1)) =
        .ok ⟨.attribute "id", .eq, .one (.int requested.1)⟩ :=
    resolveCondition_own (.of (by simp [ownKeys])) rfl rfl
  have havailable : resolveCondition (mapping now).schema (mapping now).comparison Model.name
      .ticketCategory ("available_quantity__gte", .one (.int requested.2)) =
        .ok ⟨.attribute "available_quantity", .gte, .one (.int requested.2)⟩ :=
    resolveCondition_own (.of (by simp [ownKeys])) rfl rfl
  unfold When.resolve availableWhen
  simp only [List.mapM_cons, List.mapM_nil, hid, havailable]
  rfl

theorem requestedQuantities_ne_nil (hitems : items ≠ []) : requestedQuantities items ≠ [] := by
  obtain ⟨item, hitem⟩ := List.exists_mem_of_ne_nil items hitems
  have hpresent : ∀ key : OrderItemCreateSchema → Nat, ∃ quantity,
      Dict.get (key item) (Dict.ofList key (fun item => item.quantity.val) items) =
        some quantity := fun _ => Dict.get_ofList_of_mem hitem
  obtain ⟨quantity, hget⟩ : ∃ quantity, Dict.get item.categoryId.val (requestedQuantities items) =
      some quantity := hpresent fun item => item.categoryId.val
  intro hnil
  rw [hnil] at hget
  cases hget

theorem resolve_availableCase (hitems : items ≠ []) :
    (availableCase items).resolve (mapping now).schema (mapping now).comparison Model.name
        .ticketCategory scalarOf = .ok (availableExpression items) := by
  have hwhens : (availableCase items).whens.mapM (When.resolve (mapping now).schema
      (mapping now).comparison Model.name .ticketCategory scalarOf) =
        .ok ((requestedQuantities items).map fun requested =>
          ([⟨.attribute "id", .eq, .one (.int requested.1)⟩,
            ⟨.attribute "available_quantity", .gte, .one (.int requested.2)⟩],
              some (some (.int requested.1)))) := by
    rw [mapM_eq_ok_iff, availableCase, List.forall₂_map_left_iff, List.forall₂_map_right_iff,
      List.forall₂_same]
    exact fun requested _ => resolve_availableWhen requested
  have hne := requestedQuantities_ne_nil hitems
  unfold Case.resolve
  rw [hwhens]
  simp only [Except.bind]
  rw [if_pos (by simp [hne]), List.map_map]
  rfl

theorem columnCase_available :
    columnCase .ticketCategory (availableExpression items) = some (availableColumns items) :=
  dif_pos (availableColumns items).own

theorem occupied_records (db : Db) (categoryId : Nat) :
    occupied (records db) categoryId = occupiedCount db categoryId := by
  unfold occupied occupiedCount
  rw [show records db .ticket = db.tickets.map .ticket from rfl, List.filter_map, List.length_map]
  rfl

theorem read_category (db : Db) (category : TicketCategory) :
    readRecord now (records db) "id" (.ticketCategory category) = some (.int category.id) ∧
      readRecord now (records db) "available_quantity" (.ticketCategory category) =
        some (.int (availableQuantity db category)) := by
  refine ⟨rfl, ?_⟩
  show some (Value.int ↑(category.totalQuantity - occupied (records db) category.id)) = _
  rw [occupied_records]
  rfl

theorem gte_int (u v : Nat) :
    ((Value.int v).lt (.int u) || decide (Value.int u = .int v)) = decide (v ≤ u) := by
  have hlt : (Value.int v).lt (.int u) = decide ((v : Int) < u) := rfl
  rw [hlt, Bool.eq_iff_iff]
  simp only [Bool.or_eq_true, decide_eq_true_iff, Value.int.injEq]
  omega

theorem met_availableWhen (requested : Nat × Nat) (category : TicketCategory) :
    (availableWhen requested).conditionsDict.all (conditionMet (mapping now).schema
        (mapping now).comparison Model.name .ticketCategory (records db)
          (.ticketCategory category)) =
      decide (category.id = requested.1 ∧ requested.2 ≤ availableQuantity db category) := by
  obtain ⟨hreadId, hreadAvailable⟩ := @read_category now db category
  have hid : conditionMet (mapping now).schema (mapping now).comparison Model.name
      .ticketCategory (records db) (.ticketCategory category) ("id", .one (.int requested.1)) =
        OwnFilter.holds now (mapping now).comparison (records db)
          ⟨"id", "id", .eq, some "id", .one (.int requested.1)⟩ (.ticketCategory category) :=
    conditionMet_own (.of (by simp [ownKeys])) rfl _
  have havailable : conditionMet (mapping now).schema (mapping now).comparison Model.name
      .ticketCategory (records db) (.ticketCategory category)
        ("available_quantity__gte", .one (.int requested.2)) =
          OwnFilter.holds now (mapping now).comparison (records db)
            ⟨"available_quantity__gte", "available_quantity", .gte, some "available_quantity",
              .one (.int requested.2)⟩ (.ticketCategory category) :=
    conditionMet_own (.of (by simp [ownKeys])) rfl _
  unfold availableWhen
  rw [List.all_cons, List.all_cons, List.all_nil, Bool.and_true, hid, havailable]
  unfold OwnFilter.holds
  rw [hreadId, hreadAvailable]
  show (decide (some (Value.int category.id) = some (.int requested.1)) &&
    ((Value.int requested.2).lt (.int (availableQuantity db category)) ||
      decide (Value.int (availableQuantity db category) = .int requested.2))) = _
  rw [gte_int, Bool.eq_iff_iff]
  simp only [Option.some.injEq, Value.int.injEq, Bool.and_eq_true, decide_eq_true_iff]
  omega

theorem find_availableWhen (category : TicketCategory) :
    (availableCase items).whens.find? (fun w => w.conditionsDict.all (conditionMet
        (mapping now).schema (mapping now).comparison Model.name .ticketCategory (records db)
          (.ticketCategory category))) =
      ((requestedQuantities items).find? fun requested => decide (category.id = requested.1 ∧
        requested.2 ≤ availableQuantity db category)).map availableWhen := by
  have hfind : ∀ met : When Value Argument → Bool, (∀ requested, met (availableWhen requested) =
      decide (category.id = requested.1 ∧ requested.2 ≤ availableQuantity db category)) →
        ((requestedQuantities items).map availableWhen).find? met =
          ((requestedQuantities items).find? fun requested => decide (category.id = requested.1 ∧
            requested.2 ≤ availableQuantity db category)).map availableWhen := by
    intro met hmet
    rw [List.find?_map, funext (f := met ∘ availableWhen) hmet]
  exact hfind _ fun requested => met_availableWhen requested category

theorem thenValue_availableWhen (requested : Nat × Nat) :
    (availableWhen requested).thenValue scalarOf = some (some (.int requested.1)) := by
  have hget : Dict.get "id" (availableWhen requested).conditionsDict =
      some (.one (.int requested.1)) := by
    simp [availableWhen, Dict.get]
  unfold When.thenValue
  rw [hget]
  rfl

theorem firstOf_available (category : TicketCategory) :
    (availableCase items).firstOf (mapping now).schema (mapping now).comparison Model.name
        .ticketCategory (records db) (.ticketCategory category) scalarOf =
      (caseId db (requestedQuantities items) category).map fun id : Nat => .int id := by
  unfold Case.firstOf
  dsimp only
  rw [find_availableWhen, caseId]
  generalize (requestedQuantities items).find? _ = found
  cases found with
  | none => rfl
  | some requested =>
      show ((availableWhen requested).thenValue scalarOf).join = _
      rw [thenValue_availableWhen]
      rfl

theorem reads_available : ∀ w ∈ (availableCase items).whens, ∀ kwarg ∈ w.conditionsDict,
    ReadsPath (mapping now).schema Model.name .ticketCategory [] (records db) kwarg := by
  intro w hw kwarg hkwarg
  obtain ⟨requested, -, rfl⟩ := List.mem_map.mp hw
  simp only [availableWhen, List.mem_cons, List.not_mem_nil, or_false] at hkwarg
  rcases hkwarg with rfl | rfl
  · exact readsPath_own (show OwnKey "id" "id" .eq from .of (by simp [ownKeys]))
  · exact readsPath_own (show OwnKey "available_quantity__gte" "available_quantity" .gte from
      .of (by simp [ownKeys]))

/-- The CASE has the id that `caseId` has. -/
theorem value_available (hitems : items ≠ []) (category : TicketCategory) :
    (availableColumns items).value now (records db) (.ticketCategory category) =
      .ok ((caseId db (requestedQuantities items) category).map fun id : Nat => .int id) := by
  have hunshared : ∀ branch ∈ (availableExpression items).whens, ∀ condition ∈ branch.1,
      Unshared [] (condition.clause (mapping now).schema Model.ticketCategory none) :=
    fun _ _ _ _ _ _ => rfl
  refine (value_eq_firstOf (resolve_availableCase hitems) (fun _ _ _ h => attributes_columns h)
    reads_available hunshared).trans ?_
  exact congrArg Except.ok (firstOf_available category)

/-- Both filters compare the class's own `id`. -/
theorem valid_booking :
    Valid (operandComparison now) .ticketCategory
      (bookingFilters items (availableColumns items)) := by
  refine ⟨fun f hf => ?_, ?_⟩
  · simp only [bookingFilters, List.mem_cons, List.not_mem_nil, or_false] at hf
    rcases hf with rfl | rfl
    · exact OwnKey.valid (.of (by simp [ownKeys])) rfl rfl
    · exact OwnKey.valid (.of (by simp [ownKeys])) rfl rfl
  · intro bind hbind bind' hbind' _
    rw [List.mem_singleton.mp hbind, List.mem_singleton.mp hbind']

theorem holds_requested (category : TicketCategory) :
    OwnFilter.holds now (operandComparison now) (records db) ⟨"id__in", "id", .isIn, some "id",
        .plain (.many ((categoryIds items).map fun id : Nat => .int id))⟩
        (.ticketCategory category) =
      decide (category.id ∈ categoryIds items) := by
  unfold OwnFilter.holds
  rw [(read_category db category).1]
  show decide (Value.int category.id ∈ (categoryIds items).map fun id : Nat => Value.int id) = _
  simp only [List.mem_map, Value.int.injEq, Int.ofNat_inj, exists_eq_right]

theorem holds_available (hitems : items ≠ []) (category : TicketCategory) :
    OwnFilter.holds now (operandComparison now) (records db)
        ⟨"id", "id", .eq, some "id", .cases (availableColumns items)⟩ (.ticketCategory category) =
      decide (caseId db (requestedQuantities items) category = some category.id) := by
  unfold OwnFilter.holds
  rw [(read_category db category).1, eq_cases (value_available hitems category)]
  cases caseId db (requestedQuantities items) category with
  | none => rfl
  | some id =>
      show decide (some (Value.int category.id) = some (.int id)) = _
      simp only [Option.some.injEq, Value.int.injEq]
      rw [decide_eq_decide]
      omega

theorem ownRows_booking (hitems : items ≠ []) :
    ownRows now (operandComparison now) (records db) .ticketCategory
        (bookingFilters items (availableColumns items)) =
      (selectedCategories db items).map .ticketCategory := by
  unfold ownRows selectedCategories
  rw [show records db .ticketCategory = db.ticketCategories.map .ticketCategory from rfl,
    List.filter_map]
  refine congrArg (List.map _) (List.filter_congr fun category _ => ?_)
  rw [Function.comp_apply, bookingFilters, List.all_cons, List.all_cons, List.all_nil,
    Bool.and_true, holds_requested, holds_available hitems, selectable, Bool.decide_and]

theorem selectAvailable_eq (hitems : items ≠ []) (hkeys : PrimaryKeys db) :
    selectAvailable now db items = .ok ((selectedCategories db items).map .ticketCategory) := by
  have hrows : ((selectedCategories db items).map Record.ticketCategory).Nodup :=
    (hkeys.ticketCategories.of_map.filter _).map ticketCategories.record_inj
  have hall : ReadQueryExecutor.all (mappingOf now (operandComparison now))
      (ownQuery .ticketCategory (bookingFilters items (availableColumns items))) (records db) =
        .ok ((selectedCategories db items).map .ticketCategory) := by
    rw [← unique_of_nodup hrows, ← ownRows_booking hitems]
    exact congrArg (Except.map unique) (fetch_own valid_booking)
  unfold selectAvailable
  rw [resolve_availableCase hitems]
  dsimp only
  rw [columnCase_available]
  exact congrArg (Except.mapError raised) hall

/-- The locking SELECT that `filter(id__in=..., id=Case(...))` builds finds exactly the
requested categories that have the last quantity given for them left. -/
theorem locking_select (hitems : items ≠ []) (hkeys : PrimaryKeys db) :
    selectAvailable now db items =
      .ok ((db.ticketCategories.filter fun cat => cat.id ∈ categoryIds items ∧
        lastQuantity items cat.id ≤ availableQuantity db cat).map .ticketCategory) := by
  rw [selectAvailable_eq hitems hkeys]
  refine congrArg (fun found : List TicketCategory => Except.ok (found.map Record.ticketCategory))
    (List.filter_congr fun cat _ => ?_)
  rw [selectable, decide_eq_decide]
  refine and_congr_right fun hmem => ?_
  obtain ⟨item, hitem, hid⟩ := List.mem_map.mp (List.mem_dedup.mp hmem)
  exact caseId_eq_some hitem hid.symm

/-- Three places are asked for, but only the last quantity is looked at. -/
theorem locking_select_parterre :
    selectAvailable 0 hall.db [⟨one, two⟩, ⟨one, one⟩] = .ok [.ticketCategory parterre] :=
  locking_select (by simp) ⟨List.nodup_nil, List.nodup_nil, List.nodup_nil, by decide,
    List.nodup_nil, List.nodup_nil, List.nodup_nil⟩

end Select

/-! ## `create` -/

def createStatement (now : Int) (s : Store) :
    CreatePc → Act → Option (Effect Store Row × CreatePc)
  | .start call, .select categories =>
      if ownerGiven call then
        match selectAvailable now s.db call.data.items with
        | .error e => some (.rollback, .finished none (.error e))
        | .ok found =>
            if (categories.map Record.ticketCategory).isPerm found then
              some (.stay, .locking call categories (categories.map fun cat => cat.id))
            else none
      else none
  | pc, a => createStep s pc a

/-! ## `confirm_payment` and `expire_order` -/

def pendingFilters (id : Nat) : List (OwnFilter Argument) :=
  [equals "id" (.int id), equals "status" (.text OrderStatus.pending.value)]

def itemFilters (id : Nat) : List (OwnFilter Argument) := [equals "order_id" (.int id)]

def ticketFilters (itemIds : List Nat) : List (OwnFilter Argument) :=
  [⟨"order_item_id__in", "order_item_id", .isIn, some "order_item_id",
    .many (itemIds.map fun id : Nat => .int id)⟩]

/-- `self.uow.ticket.filter(order_item__order_id=obj_id)`. -/
def ticketsOfOrder (id : Nat) : ModelQuery := filter .ticket [("order_item__order_id", .int id)]

def updatePending {Pc : Type} (now : Int) (s : Store) (id : Nat) (raise : AppException → Pc)
    (missed updated : Pc) : Effect Store Row × Pc :=
  answered raise (updatedRows now s.db .order (pendingFilters id)) fun found =>
    match found.head? with
    | none => (.stay, missed)
    | some row => (lockFound row, updated)

def confirmStatement (now : Int) (s : Store) :
    ConfirmPc → Act → Option (Effect Store Row × ConfirmPc)
  | .start id, .run =>
      some (updatePending now s id (fun e => .finished (.error e)) (.missed id) (.updated id))
  | .missed id, .run =>
      some (answered (fun e => .finished (.error e))
        (repositoryGet now s.db .order [("id", .int id)]) fun found =>
          match found with
          | some (.order order) =>
              if order.status = .paid then (.rollback, .finished (.ok true))
              else (.rollback, .finished (.error (.wrongState [OrderStatus.pending.value] none)))
          | _ => (.rollback, .finished (.error (orderNotFound id))))
  | .updated id, .run =>
      some (answered (fun e => .finished (.error e))
        (allRows now s.db .orderItem (itemFilters id)) fun found =>
          (.stay, .itemsRead id (found.map idOf)))
  | .itemsRead id itemIds, .run =>
      if itemIds = [] then some (.stay, .ticketsUpdated id [])
      else some (answered (fun e => .finished (.error e))
        (updatedRows now s.db .ticket (ticketFilters itemIds)) fun found =>
          (.stay, .ticketsUpdated id (found.map idOf)))
  | pc, a => confirmStep s pc a

def expireStatement (now : Int) (s : Store) :
    ExpirePc → Act → Option (Effect Store Row × ExpirePc)
  | .start id, .run =>
      some (updatePending now s id (fun e => .finished (.error e)) (.missed id) (.updated id))
  | .missed id, .run =>
      some (answered (fun e => .finished (.error e))
        (repositoryGet now s.db .order [("id", .int id)]) fun found =>
          match found with
          | some (.order order) => (.rollback, .finished (.ok (order.status = .cancelled)))
          | _ => (.rollback, .finished (.error (orderNotFound id))))
  | .updated id, .run =>
      some (answered (fun e => .finished (.error e))
        (deletedRows now s.db (ticketsOfOrder id)) fun found =>
          (.stay, .ticketsDeleted id (found.map idOf)))
  | pc, a => expireStep s pc a

/-! ## `migrate_anonymous_orders` -/

def anonymousFilters (email : String) : List (OwnFilter Argument) :=
  [equals "anonymous_email" (.text email)]

def migrateStatement (now : Int) (s : Store) :
    MigratePc → Act → Option (Effect Store Row × MigratePc)
  | .start email, .run =>
      some (answered (fun e => .finished (.error e))
        (repositoryGet now s.db .user [("email", .text email)]) fun found =>
          match found with
          | some (.user user) => (.stay, .userRead email user.id)
          | _ => (.rollback, .finished (.error (.objectNotFound usersTable (.text email)))))
  | .userRead email userId, .rows ids =>
      match updatedRows now s.db .order (anonymousFilters email) with
      | .error e => some (.rollback, .finished (.error e))
      | .ok found =>
          if ids.isPerm (found.map idOf) then some (.stay, .updating email userId ids []) else none
  | .updating email userId (id :: todo) done, .run =>
      -- the row is checked again when its lock is taken
      some (answered (fun e => .finished (.error e))
        (updatedRows now s.db .order (anonymousFilters email)) fun found =>
          if id ∈ found.map idOf then
            (.lock (.order id), .updating email userId todo (done ++ [id]))
          else (.stay, .updating email userId todo done))
  | pc, a => migrateStep s pc a

/-! ## The statements of the model -/

section Agree

variable {now : Int} {s : Store}

theorem isPerm_map {α β : Type} [DecidableEq α] [DecidableEq β] {f : α → β}
    (hf : Function.Injective f) (xs ys : List α) :
    (xs.map f).isPerm (ys.map f) = xs.isPerm ys := by
  rw [Bool.eq_iff_iff, List.isPerm_iff, List.isPerm_iff, List.map_perm_map_iff hf]

theorem createStatement_eq (hkeys : PrimaryKeys s.db) (pc : CreatePc) (a : Act) :
    createStatement now s pc a = createStep s pc a := by
  unfold createStatement
  split
  · rename_i call categories
    have hitems : call.data.items ≠ [] := List.ne_nil_of_length_pos call.data.minLength
    rw [selectAvailable_eq hitems hkeys]
    dsimp only
    rw [isPerm_map fun _ _ h => Record.ticketCategory.inj h]
    rw [createStep]
    split_ifs <;> simp_all
  · rfl

theorem namesColumn_status : NamesColumn .order "status" :=
  OwnKey.namesColumn (.of (by simp [ownKeys])) rfl

theorem namesColumn_orderId : NamesColumn .orderItem "order_id" :=
  OwnKey.namesColumn (.of (by simp [ownKeys])) rfl

theorem namesColumn_anonymousEmail : NamesColumn .order "anonymous_email" :=
  OwnKey.namesColumn (.of (by simp [ownKeys])) rfl

theorem namesColumn_email : NamesColumn .user "email" :=
  OwnKey.namesColumn (.of (by simp [ownKeys])) rfl

theorem status_value (order : Order) :
    order.status.value = OrderStatus.pending.value ↔ order.status = .pending := by
  cases order.status <;> decide

theorem updatedRows_pending (id : Nat) :
    updatedRows now s.db .order (pendingFilters id) =
      .ok ((s.db.orders.filter fun order => order.id = id ∧ order.status = .pending).map
        .order) := by
  refine updatedRows_table (T := orders) (valid_equals_all [("id", .int id),
    ("status", .text OrderStatus.pending.value)] fun kwarg hkwarg => ?_) fun order => ?_
  · simp only [List.mem_cons, List.not_mem_nil, or_false] at hkwarg
    rcases hkwarg with rfl | rfl
    · exact namesColumn_id .order
    · exact namesColumn_status
  · show (decide (some (Value.int order.id) = some (.int id)) &&
      (decide (some (Value.text order.status.value) = some (.text OrderStatus.pending.value)) &&
        true)) = _
    simp only [Option.some.injEq, Value.int.injEq, Value.text.injEq, Int.ofNat_inj,
      status_value, Bool.decide_and, Bool.and_true]

theorem updatePending_eq {Pc : Type} (id : Nat) (raise : AppException → Pc) (missed updated : Pc) :
    updatePending now s id raise missed updated =
      if isPending s.db id then (.lock (.order id), updated) else (.stay, missed) := by
  unfold updatePending isPending
  rw [updatedRows_pending]
  simp only [answered, List.head?_map, List.head?_filter]
  cases hfind : s.db.orders.find? fun order => order.id = id ∧ order.status = .pending with
  | none =>
      rw [if_neg]
      · rfl
      · rw [List.any_eq_true]
        rintro ⟨order, horder, hpending⟩
        exact List.find?_eq_none.mp hfind order horder hpending
  | some order =>
      obtain ⟨hmem, hid, hstatus⟩ := find_eq_some hfind
      rw [if_pos (List.any_eq_true.mpr ⟨order, hmem, decide_eq_true ⟨hid, hstatus⟩⟩), ← hid]
      rfl

theorem get_order (hkeys : PrimaryKeys s.db) (id : Nat) :
    repositoryGet now s.db .order [("id", .int id)] = .ok ((findOrder s.db id).map .order) :=
  repositoryGet_id (T := orders) hkeys.orders id

theorem allRows_items (hkeys : PrimaryKeys s.db) (id : Nat) :
    allRows now s.db .orderItem (itemFilters id) =
      .ok ((s.db.orderItems.filter fun item => item.orderId = id).map .orderItem) := by
  refine allRows_table (T := orderItems) (valid_equals_all [("order_id", .int id)]
    fun kwarg hkwarg => ?_) (fun item => ?_) hkeys.orderItems.of_map
  · rw [List.mem_singleton.mp hkwarg]
    exact namesColumn_orderId
  · show (decide (some (Value.int item.orderId) = some (.int id)) && true) = _
    simp only [Option.some.injEq, Value.int.injEq, Int.ofNat_inj, Bool.and_true]

theorem valid_ticketFilters (itemIds : List Nat) :
    Valid (mapping now).comparison .ticket (ticketFilters itemIds) := by
  refine ⟨fun f hf => ?_, agree_of_single (le_refl 1)⟩
  rw [List.mem_singleton.mp hf]
  exact OwnKey.valid (.of (by simp [ownKeys])) rfl rfl

theorem updatedRows_tickets (itemIds : List Nat) :
    updatedRows now s.db .ticket (ticketFilters itemIds) =
      .ok ((s.db.tickets.filter fun ticket => ticket.orderItemId.any (· ∈ itemIds)).map
        .ticket) := by
  refine updatedRows_table (T := tickets) (valid_ticketFilters itemIds) fun ticket => ?_
  show ((ticket.orderItemId.bind ofNat).any (· ∈ itemIds.map fun id : Nat => Value.int id) &&
    true) = _
  rw [Bool.and_true]
  cases ticket.orderItemId with
  | none => rfl
  | some itemId =>
      show decide (Value.int itemId ∈ itemIds.map fun id : Nat => Value.int id) =
        decide (itemId ∈ itemIds)
      simp only [List.mem_map, Value.int.injEq, Int.ofNat_inj, exists_eq_right]

theorem confirmStatement_eq (hkeys : PrimaryKeys s.db) (pc : ConfirmPc) (a : Act) :
    confirmStatement now s pc a = confirmStep s pc a := by
  unfold confirmStatement
  split
  · rename_i id
    rw [updatePending_eq, confirmStep]
    split_ifs <;> rfl
  · rename_i id
    rw [get_order hkeys, confirmStep]
    cases findOrder s.db id with
    | none => rfl
    | some order =>
        simp only [Option.map_some, answered]
        split_ifs <;> rfl
  · rename_i id
    rw [allRows_items hkeys, confirmStep, itemIdsOf]
    show some (_, ConfirmPc.itemsRead id (((s.db.orderItems.filter _).map Record.orderItem).map
      idOf)) = _
    rw [List.map_map]
    rfl
  · rename_i id itemIds
    rw [updatedRows_tickets, confirmStep]
    split_ifs
    · rfl
    · show some (_, ConfirmPc.ticketsUpdated id (((s.db.tickets.filter _).map Record.ticket).map
        idOf)) = _
      rw [List.map_map]
      rfl
  · rfl

/-- A ticket's `order_item_id` is the id of an item of the order. -/
theorem related_ticket (id : Nat) (ticket : Ticket) :
    ((records s.db .orderItem).any fun row =>
        sameColumns (mapping now).schema (records s.db) .ticket .orderItem
            [("order_item_id", "id")] (.ticket ticket) row &&
          readRecord now (records s.db) "order_id" row = some (.int id)) =
      ticket.orderItemId.any (· ∈ itemIdsOf s.db id) := by
  have hitem : ∀ item : OrderItem,
      (sameColumns (mapping now).schema (records s.db) .ticket .orderItem
          [("order_item_id", "id")] (.ticket ticket) (.orderItem item) &&
        decide (readRecord now (records s.db) "order_id" (.orderItem item) = some (.int id))) =
          decide (ticket.orderItemId = some item.id ∧ item.orderId = id) := by
    intro item
    have hsame : sameColumns (mapping now).schema (records s.db) .ticket .orderItem
        [("order_item_id", "id")] (.ticket ticket) (.orderItem item) = true ↔
          ticket.orderItemId = some item.id := by
      rw [sameColumns_iff, List.forall_mem_singleton]
      show (∃ v, ticket.orderItemId.bind ofNat = some v ∧ some (Value.int item.id) = some v) ↔ _
      cases ticket.orderItemId with
      | none => simp
      | some itemId =>
          simp only [Option.bind_some, ofNat, Option.some.injEq, exists_eq_left',
            Value.int.injEq]
          omega
    have horder : readRecord now (records s.db) "order_id" (.orderItem item) = some (.int id) ↔
        item.orderId = id := by
      show some (Value.int item.orderId) = some (.int id) ↔ _
      simp only [Option.some.injEq, Value.int.injEq, Int.ofNat_inj]
    rw [Bool.eq_iff_iff, Bool.and_eq_true, hsame, decide_eq_true_iff, horder, decide_eq_true_iff]
  have hany : ∀ related : Record → Bool, (∀ item, related (.orderItem item) =
      decide (ticket.orderItemId = some item.id ∧ item.orderId = id)) →
        (s.db.orderItems.map Record.orderItem).any related = s.db.orderItems.any fun item =>
          decide (ticket.orderItemId = some item.id ∧ item.orderId = id) := by
    intro related hrelated
    rw [List.any_map, funext (f := related ∘ Record.orderItem) hrelated]
  rw [show records s.db .orderItem = s.db.orderItems.map .orderItem from rfl, hany _ hitem,
    Bool.eq_iff_iff, List.any_eq_true, Option.any_eq_true]
  constructor
  · rintro ⟨item, hmem, hrelated⟩
    obtain ⟨hid, horder⟩ := of_decide_eq_true hrelated
    refine ⟨item.id, hid, decide_eq_true (List.mem_map_of_mem (List.mem_filter.mpr ⟨hmem, ?_⟩))⟩
    exact decide_eq_true horder
  · rintro ⟨itemId, hid, hmem⟩
    obtain ⟨item, hitem, rfl⟩ := List.mem_map.mp (of_decide_eq_true hmem)
    obtain ⟨hmem, horder⟩ := List.mem_filter.mp hitem
    exact ⟨item, hmem, decide_eq_true ⟨hid, of_decide_eq_true horder⟩⟩

/-- The subquery of the DELETE finds the tickets of the order's items. -/
theorem deletedRows_tickets (id : Nat) :
    deletedRows now s.db (ticketsOfOrder id) =
      .ok ((s.db.tickets.filter fun ticket =>
        ticket.orderItemId.any (· ∈ itemIdsOf s.db id)).map .ticket) := by
  have hdelete : MutationQueryExecutor.delete (mapping now) (ticketsOfOrder id) (records s.db) =
      .ok _ := delete_related (by decide +kernel)
        (show components "order_item__order_id" = ["order_item", "order_id"] by decide +kernel)
        rfl rfl (records s.db)
  refine (congrArg (Except.mapError raised) hdelete).trans (congrArg Except.ok ?_)
  unfold relatedRows
  rw [show records s.db .ticket = s.db.tickets.map .ticket from rfl, List.filter_map]
  exact congrArg (List.map _) (List.filter_congr fun ticket _ => related_ticket id ticket)

theorem expireStatement_eq (hkeys : PrimaryKeys s.db) (pc : ExpirePc) (a : Act) :
    expireStatement now s pc a = expireStep s pc a := by
  unfold expireStatement
  split
  · rename_i id
    rw [updatePending_eq, expireStep]
    split_ifs <;> rfl
  · rename_i id
    rw [get_order hkeys, expireStep]
    cases findOrder s.db id <;> rfl
  · rename_i id
    rw [deletedRows_tickets, expireStep, ticketIdsOf]
    show some (_, ExpirePc.ticketsDeleted id (((s.db.tickets.filter _).map Record.ticket).map
      idOf)) = _
    rw [List.map_map]
    rfl
  · rfl

theorem updatedRows_anonymous (email : String) :
    updatedRows now s.db .order (anonymousFilters email) =
      .ok ((s.db.orders.filter fun order => order.anonymousEmail = some email).map .order) := by
  refine updatedRows_table (T := orders) (valid_equals_all
    [("anonymous_email", .text email)] fun kwarg hkwarg => ?_) fun order => ?_
  · rw [List.mem_singleton.mp hkwarg]
    exact namesColumn_anonymousEmail
  · show (decide (order.anonymousEmail.map Value.text = some (.text email)) && true) = _
    cases order.anonymousEmail <;> simp

theorem get_user (hkeys : PrimaryKeys s.db) (email : String) :
    repositoryGet now s.db .user [("email", .text email)] =
      .ok (match s.db.users.filter fun user => user.email = email with
        | [user] => some (.user user)
        | _ => none) := by
  have hnames : ∀ kwarg ∈ [("email", Value.text email)], NamesColumn .user kwarg.1 := by
    intro kwarg hkwarg
    rw [List.mem_singleton.mp hkwarg]
    exact namesColumn_email
  have hrows : rowsWith now s.db .user [("email", .text email)] =
      (s.db.users.filter fun user => user.email = email).map .user := by
    unfold rowsWith
    rw [show records s.db .user = s.db.users.map .user from rfl, List.filter_map]
    refine congrArg (List.map _) (List.filter_congr fun user _ => ?_)
    show (decide (some (Value.text user.email) = some (.text email)) && true) = _
    simp only [Option.some.injEq, Value.text.injEq, Bool.and_true]
  have hnodup : ((s.db.users.filter fun user => user.email = email).map Record.user).Nodup :=
    (hkeys.users.of_map.filter _).map users.record_inj
  unfold repositoryGet
  rw [queryGet_eq hnames, hrows, unique_of_nodup hnodup]
  generalize s.db.users.filter (fun user => user.email = email) = found
  rcases found with _ | ⟨user, _ | ⟨other, rest⟩⟩ <;> rfl

theorem mem_anonymous (email : String) (id : Nat) :
    id ∈ ((s.db.orders.filter fun order => order.anonymousEmail = some email).map
        Record.order).map idOf ↔
      s.db.orders.any fun order => order.id = id ∧ order.anonymousEmail = some email := by
  rw [List.map_map, List.mem_map, List.any_eq_true]
  constructor
  · rintro ⟨order, horder, rfl⟩
    obtain ⟨hmem, hemail⟩ := List.mem_filter.mp horder
    exact ⟨order, hmem, decide_eq_true ⟨rfl, of_decide_eq_true hemail⟩⟩
  · rintro ⟨order, hmem, hboth⟩
    obtain ⟨hid, hemail⟩ := of_decide_eq_true hboth
    exact ⟨order, List.mem_filter.mpr ⟨hmem, decide_eq_true hemail⟩, hid⟩

theorem migrateStatement_eq (hkeys : PrimaryKeys s.db) (pc : MigratePc) (a : Act) :
    migrateStatement now s pc a = migrateStep s pc a := by
  unfold migrateStatement
  split
  · rename_i email
    rw [get_user hkeys, migrateStep]
    generalize s.db.users.filter (fun user => user.email = email) = found
    rcases found with _ | ⟨user, _ | ⟨other, rest⟩⟩ <;> rfl
  · rename_i email userId ids
    rw [updatedRows_anonymous, migrateStep, anonymousOrderIds]
    dsimp only
    rw [List.map_map]
    rfl
  · rename_i email userId id todo done
    rw [updatedRows_anonymous, migrateStep]
    simp only [answered, mem_anonymous]
    split_ifs <;> rfl
  · rfl

end Agree

end TicketBooking.Order.Statements
