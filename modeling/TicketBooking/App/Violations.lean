import TicketBooking.Catalog.LeafCheck
import TicketBooking.Order.Quantities
import TicketBooking.Users.Authentication
/-!
# Violated constraints

Some statements write without a check of their own that the row meets the
constraints of its table.  When it does, every statement of the order, event,
ticket category and user services goes on, commits, or ends its call with an
exception that has a status and with the tables as they were.
-/

namespace TicketBooking.App.Violations

open TicketBooking.App.Exceptions
open TicketBooking.Catalog.Editing TicketBooking.Catalog.Transactions
open TicketBooking.Catalog.LeafCheck (isLeafCategory_eq)
open TicketBooking.Catalog.System (systemStep)
open TicketBooking.Database.Shared TicketBooking.Database.Tables
open TicketBooking.Library.Sessions
open TicketBooking.Order.Booking (CreateCall itemsData itemsData_isSome missingItem userExists)
open TicketBooking.Order.Quantities (OneOfEach)
open TicketBooking.Order.Transactions (afterSelect findOrder)
open TicketBooking.Users.Accounts TicketBooking.Users.Authentication
open TicketBooking.Users.Transactions (UserAct UserPc userStep)

/-- A `ServiceException` or `ValueError` with an entry in `EXCEPTION_MAPPING`. -/
def Mapped (e : AppException) : Prop :=
  (e.isService ∨ ∃ message, e = .valueError message) ∧ e.statusCode.isSome

/-- A `ServiceException` has the entry of its base class at least. -/
theorem Mapped.of_isService {e : AppException} (h : e.isService) : Mapped e := by
  refine ⟨.inl h, ?_⟩
  cases e <;> first | rfl | cases h

theorem mapped_valueError (message : String) : Mapped (.valueError message) :=
  ⟨.inr ⟨message, rfl⟩, rfl⟩

/-! ## The constraints -/

/-- The patch writes no null to a column that is NOT NULL. -/
def fillsEvent (data : EventUpdateSchema) : Bool :=
  data.title ≠ some none ∧ data.description ≠ some none ∧ data.categoryId ≠ some none ∧
    data.format ≠ some none ∧ data.startedAt ≠ some none

def fillsTicketCategory (data : TicketCategoryUpdateSchema) : Bool :=
  data.name ≠ some none ∧ data.price ≠ some none ∧ data.totalQuantity ≠ some none

def permitted (db : Db) (category : TicketCategory) : Catalog.Editing.Change → Bool
  | .delete => !referenced db category.id
  | .update data =>
      fillsTicketCategory data ∧
        ¬ nameTaken db category.id category.eventId (data.name.join.getD category.name)

/-- The next statement violates no constraint, where the service has not made
sure of it. -/
def unviolated (db : Db) : ServicePc → Bool
  | .users (.create (.keyed user)) => (findByEmail db user.email).isNone
  | .catalog (.createEvent (.checked data _)) => data.description.isSome
  | .catalog (.updateEvent (.matched data event)) =>
      fillsEvent data ∧ categoryExists db (data.categoryId.join.getD event.categoryId) ∧
        data.readable
  | .catalog (.createTicketCategory (.keyed category)) =>
      !nameTaken db category.id category.eventId category.name
  | .catalog (.modifyTicketCategory (.locking category change [])) => permitted db category change
  | _ => true

theorem notNull_eq {α : Type} {field : Patch α} (h : field ≠ some none) (old : α) :
    field.notNull old = some (field.join.getD old) := by
  rcases field with - | - | value
  · rfl
  · exact absurd rfl h
  · rfl

theorem newFormat_isSome {data : EventUpdateSchema} (h : data.format ≠ some none) (event : Event) :
    ∃ format, data.newFormat event = some format := by
  unfold EventUpdateSchema.newFormat
  split
  · exact ⟨_, rfl⟩
  · rename_i hformat
    exact absurd hformat h
  · exact ⟨_, rfl⟩

theorem apply_of_fillsEvent {data : EventUpdateSchema} (h : fillsEvent data) (event : Event) :
    ∃ event', data.apply event = some event' ∧
      event'.categoryId = data.categoryId.join.getD event.categoryId := by
  obtain ⟨htitle, hdescription, hcategoryId, hformat, hstartedAt⟩ := of_decide_eq_true h
  obtain ⟨format, hnew⟩ := newFormat_isSome hformat event
  simp [EventUpdateSchema.apply, notNull_eq htitle, notNull_eq hdescription,
    notNull_eq hcategoryId, hnew, notNull_eq hstartedAt]

theorem apply_of_fillsTicketCategory {data : TicketCategoryUpdateSchema}
    (h : fillsTicketCategory data) (category : TicketCategory) :
    ∃ new, data.apply category = some new ∧ new.id = category.id ∧
      new.eventId = category.eventId ∧ new.name = data.name.join.getD category.name := by
  obtain ⟨hname, hprice, htotalQuantity⟩ := of_decide_eq_true h
  simp [TicketCategoryUpdateSchema.apply, notNull_eq hname, notNull_eq hprice,
    notNull_eq htotalQuantity]

theorem result_of_permitted {change : Catalog.Editing.Change} {db : Db}
    {category : TicketCategory} (h : permitted db category change) :
    ∃ new, change.result db category = .ok new := by
  cases change with
  | delete =>
      have hfree : ¬ referenced db category.id := by simpa [permitted] using h
      exact ⟨none, if_neg hfree⟩
  | update data =>
      obtain ⟨hfills, hname⟩ := of_decide_eq_true h
      obtain ⟨new, happly, hid, heventId, hnewName⟩ :=
        apply_of_fillsTicketCategory hfills category
      refine ⟨some new, ?_⟩
      rw [← hid, ← heventId, ← hnewName] at hname
      simp only [Change.result, happly]
      rw [if_neg hname]

/-! ## The stages of a call -/

inductive Stage
  | running
  | committed
  | returned
  | raised (e : AppException)
  deriving DecidableEq

def ended {α : Type} : Except AppException α → Stage
  | .ok _ => .returned
  | .error e => .raised e

def stage : ServicePc → Stage
  | .catalog (.order (.create (.committed _ _))) => .committed
  | .catalog (.order (.create (.finished _ result))) => ended result
  | .catalog (.order (.confirm (.committed _))) => .committed
  | .catalog (.order (.confirm (.finished result))) => ended result
  | .catalog (.order (.expire (.finished result))) => ended result
  | .catalog (.order (.migrate (.finished result))) => ended result
  | .catalog (.createEvent (.finished result)) => ended result
  | .catalog (.createCategory (.finished result)) => ended result
  | .catalog (.updateEvent (.finished result)) => ended result
  | .catalog (.transition (.finished result)) => ended result
  | .catalog (.createTicketCategory (.finished result)) => ended result
  | .catalog (.modifyTicketCategory (.finished result)) => ended result
  | .users (.create (.committed _)) => .committed
  | .users (.create (.finished result)) => ended result
  | .users (.change (.finished result)) => ended result
  | _ => .running

/-- The row read after a miss is as the call asks, or no row is to be written. -/
def settled (db : Db) : ServicePc → Bool
  | .catalog (.order (.confirm (.missed objId))) =>
      (findOrder db objId).any fun order => order.status = .paid
  | .catalog (.order (.expire (.missed objId))) => (findOrder db objId).isSome
  | .catalog (.order (.migrate (.updating _ _ [] done))) => done = []
  | .catalog (.transition (.missed t)) =>
      (db.events.find? t.names).any fun event => event.state = t.target
  | .users (.change (.missed change)) =>
      (findUser db change.userId).any fun user => (change.onMiss user).isOk
  | _ => false

/-- What a statement may do to a call. -/
inductive Moves (s : Store) (pc : ServicePc) (eff : Effect Store Row) (pc' : ServicePc) : Prop
  | goes (hstage : stage pc = .running) (hkept : (eff.apply s).db = s.db)
      (hnext : stage pc' = .running)
  | commits {write : Store → Store} (hstage : stage pc = .running) (heff : eff = .commit write)
      (hnext : stage pc' = .committed ∨ stage pc' = .returned)
  | returns (hstage : stage pc = .committed) (hkept : (eff.apply s).db = s.db)
      (hnext : stage pc' = .returned)
  | answers (hstage : stage pc = .running) (hsettled : settled s.db pc)
      (hkept : (eff.apply s).db = s.db) (hnext : stage pc' = .returned)
  | raises {e : AppException} (hstage : stage pc = .running) (hkept : (eff.apply s).db = s.db)
      (hnext : stage pc' = .raised e) (hmapped : Mapped e)

/-- The call has committed, or returned without an exception. -/
def Stage.Passed : Stage → Prop
  | .committed => True
  | .returned => True
  | _ => False

namespace Moves

variable {s : Store} {pc pc' : ServicePc} {eff : Effect Store Row}

theorem mapped (h : Moves s pc eff pc') {e : AppException} (hraised : stage pc' = .raised e) :
    Mapped e := by
  cases h with
  | raises hstage hkept hnext hmapped =>
      rw [hnext] at hraised
      cases hraised
      exact hmapped
  | commits hstage heff hnext => rcases hnext with hnext | hnext <;> cases hnext.symm.trans hraised
  | goes hstage hkept hnext => cases hnext.symm.trans hraised
  | returns hstage hkept hnext => cases hnext.symm.trans hraised
  | answers hstage hsettled hkept hnext => cases hnext.symm.trans hraised

theorem passed (h : Moves s pc eff pc') (hpassed : (stage pc).Passed) : (stage pc').Passed := by
  cases h with
  | returns hstage hkept hnext =>
      rw [hnext]
      trivial
  | _ hstage =>
      rw [hstage] at hpassed
      cases hpassed

/-- Only a commit changes the tables. -/
theorem passed_of_ne (h : Moves s pc eff pc') (hne : (eff.apply s).db ≠ s.db) :
    (stage pc').Passed := by
  cases h with
  | commits hstage heff hnext => rcases hnext with hnext | hnext <;> rw [hnext] <;> trivial
  | goes hstage hkept => exact absurd hkept hne
  | returns hstage hkept => exact absurd hkept hne
  | answers hstage hsettled hkept => exact absurd hkept hne
  | raises hstage hkept => exact absurd hkept hne

theorem origin (h : Moves s pc eff pc') (hpassed : (stage pc').Passed) :
    (stage pc).Passed ∨ (∃ write, eff = .commit write) ∨ settled s.db pc := by
  cases h with
  | goes hstage hkept hnext =>
      rw [hnext] at hpassed
      cases hpassed
  | commits hstage heff => exact .inr (.inl ⟨_, heff⟩)
  | returns hstage =>
      rw [hstage]
      exact .inl trivial
  | answers hstage hsettled => exact .inr (.inr hsettled)
  | raises hstage hkept hnext =>
      rw [hnext] at hpassed
      cases hpassed

end Moves

/-- What a call knows.  The users, events and event categories it refers to are
never deleted. -/
def Found (db : Db) : ServicePc → Prop
  | .catalog (.createEvent (.start _ userId)) => userExists db (some userId)
  | .catalog (.createEvent (.checked data userId)) =>
      userExists db (some userId) ∧ categoryExists db data.categoryId.val
  | .catalog (.createTicketCategory (.checked data)) => (findEvent db data.eventId.val).isSome
  | .catalog (.createTicketCategory (.inserting category)) =>
      (findEvent db category.eventId).isSome
  | .catalog (.createTicketCategory (.keyed category)) => (findEvent db category.eventId).isSome
  | .catalog (.order (.create (.start call))) => userExists db call.userId
  | .catalog (.order (.create (.locking call categories _))) =>
      userExists db call.userId ∧ OneOfEach categories call.data.items
  | .catalog (.order (.create (.selected call _))) => userExists db call.userId
  | .users (.change (.start call)) => call.change.isSome
  | .users (.change (.missed change)) => ∃ call, Runs call change
  | .users (.change (.updated change)) => ∃ call, Runs call change
  | _ => True

/-! ## The statements of the catalog -/

section Catalog

variable {s : Store} {now : Int} {eff : Effect Store Row}

theorem createEvent_moves {pc pc' : CreatePc} (h : createStep s pc (.run now) = some (eff, pc'))
    (hfound : Found s.db (.catalog (.createEvent pc)))
    (hfree : unviolated s.db (.catalog (.createEvent pc))) :
    Moves s (.catalog (.createEvent pc)) eff (.catalog (.createEvent pc')) := by
  cases pc with
  | start data userId =>
      simp only [createStep, isLeafCategory_eq] at h
      cases hexists : categoryExists s.db data.categoryId.val with
      | false =>
          rw [hexists] at h
          cases h
          exact .goes rfl rfl rfl
      | true =>
          rw [hexists] at h
          cases h
          exact .goes rfl rfl rfl
  | notLeaf data =>
      simp only [createStep] at h
      split_ifs at h
      · cases h
        exact .raises rfl rfl rfl (.of_isService rfl)
      · cases h
        exact .raises rfl rfl rfl (.of_isService rfl)
  | checked data userId =>
      obtain ⟨huser, hcategory⟩ := hfound
      obtain ⟨event, hnew⟩ : ∃ event, newEvent data userId s.seq.events = some event := by
        rw [← Option.isSome_iff_exists, newEvent, Option.isSome_map]
        exact hfree
      rw [← (newEvent_eq_some hnew).2.1] at hcategory
      simp only [createStep, hnew] at h
      rw [if_pos ⟨hcategory, huser⟩] at h
      cases h
      exact .goes rfl rfl rfl
  | inserted event =>
      cases h
      exact .commits rfl rfl (.inr rfl)
  | finished result => cases h

theorem createCategory_moves {pc pc' : CategoryPc}
    (h : categoryStep s pc (.run now) = some (eff, pc')) :
    Moves s (.catalog (.createCategory pc)) eff (.catalog (.createCategory pc')) := by
  cases pc with
  | start data =>
      simp only [categoryStep] at h
      split at h
      · cases h
        exact .goes rfl rfl rfl
      · split_ifs at h
        · cases h
          exact .goes rfl rfl rfl
        · cases h
          exact .raises rfl rfl rfl (.of_isService rfl)
  | parentRead data parentId =>
      simp only [categoryStep] at h
      split_ifs at h
      · cases h
        exact .raises rfl rfl rfl (.of_isService rfl)
      · cases h
        exact .goes rfl rfl rfl
  | checked data =>
      cases h
      exact .goes rfl rfl rfl
  | inserting category =>
      cases h
      exact .goes rfl rfl rfl
  | keyed category =>
      simp only [categoryStep] at h
      split_ifs at h
      · cases h
        exact .raises rfl rfl rfl (.of_isService rfl)
      · cases h
        exact .goes rfl rfl rfl
  | inserted category =>
      cases h
      exact .commits rfl rfl (.inr rfl)
  | finished result => cases h

theorem updateEvent_moves {pc pc' : UpdatePc} (h : updateStep s pc (.run now) = some (eff, pc'))
    (hfree : unviolated s.db (.catalog (.updateEvent pc))) :
    Moves s (.catalog (.updateEvent pc)) eff (.catalog (.updateEvent pc')) := by
  cases pc with
  | start data userId eventId =>
      simp only [updateStep] at h
      split at h
      · cases h
        exact .goes rfl rfl rfl
      · cases h
        exact .goes rfl rfl rfl
  | missed userId eventId =>
      simp only [updateStep] at h
      split_ifs at h
      · cases h
        exact .raises rfl rfl rfl (.of_isService rfl)
      · cases h
        exact .raises rfl rfl rfl (.of_isService rfl)
  | matched data event =>
      obtain ⟨hfills, hcategory, hreadable⟩ := of_decide_eq_true hfree
      obtain ⟨event', happly, hcategoryId⟩ := apply_of_fillsEvent hfills event
      rw [← hcategoryId] at hcategory
      simp only [updateStep, happly] at h
      rw [if_pos hcategory, if_pos hreadable] at h
      cases h
      exact .goes rfl rfl rfl
  | updated event =>
      cases h
      exact .commits rfl rfl (.inr rfl)
  | finished result => cases h

theorem transition_moves {pc pc' : TransitionPc}
    (h : transitionStep s pc (.run now) = some (eff, pc')) :
    Moves s (.catalog (.transition pc)) eff (.catalog (.transition pc')) := by
  cases pc with
  | start t =>
      simp only [transitionStep] at h
      split at h
      · cases h
        exact .goes rfl rfl rfl
      · cases h
        exact .goes rfl rfl rfl
  | missed t =>
      simp only [transitionStep] at h
      split at h
      · cases h
        exact .raises rfl rfl rfl (.of_isService rfl)
      · rename_i event hfind
        split_ifs at h with hstate
        · cases h
          refine .answers rfl ?_ rfl rfl
          simp [settled, hfind, hstate]
        · cases h
          exact .raises rfl rfl rfl (.of_isService rfl)
  | updated t =>
      cases h
      exact .commits rfl rfl (.inr rfl)
  | finished result => cases h

theorem isService_of_guardEvent {userId eventId : Nat} {e : AppException}
    (h : guardEvent s userId eventId now = some e) : e.isService := by
  unfold guardEvent at h
  split at h
  · cases h
    rfl
  · split_ifs at h <;>
    · cases h
      rfl

theorem findEvent_of_guardEvent {userId eventId : Nat}
    (h : guardEvent s userId eventId now = none) : (findEvent s.db eventId).isSome := by
  unfold guardEvent at h
  split at h
  · cases h
  · rename_i event hfind
    rw [hfind]
    rfl

theorem createTicketCategory_moves {pc pc' : TicketCategoryPc}
    (h : ticketCategoryStep s pc (.run now) = some (eff, pc'))
    (hfound : Found s.db (.catalog (.createTicketCategory pc)))
    (hfree : unviolated s.db (.catalog (.createTicketCategory pc))) :
    Moves s (.catalog (.createTicketCategory pc)) eff (.catalog (.createTicketCategory pc')) := by
  cases pc with
  | start userId data =>
      simp only [ticketCategoryStep] at h
      split at h
      · rename_i e hguard
        cases h
        exact .raises rfl rfl rfl (.of_isService (isService_of_guardEvent hguard))
      · cases h
        exact .goes rfl rfl rfl
  | checked data =>
      cases h
      exact .goes rfl rfl rfl
  | inserting category =>
      cases h
      exact .goes rfl rfl rfl
  | keyed category =>
      have hname : ¬ nameTaken s.db category.id category.eventId category.name := by
        simpa [unviolated] using hfree
      simp only [ticketCategoryStep] at h
      rw [if_neg hname, if_pos (show (findEvent s.db category.eventId).isSome from hfound)] at h
      cases h
      exact .goes rfl rfl rfl
  | inserted category =>
      cases h
      exact .commits rfl rfl (.inr rfl)
  | finished result => cases h

theorem modifyTicketCategory_moves {pc pc' : ModifyPc}
    (h : modifyStep s pc (.run now) = some (eff, pc'))
    (hfree : unviolated s.db (.catalog (.modifyTicketCategory pc))) :
    Moves s (.catalog (.modifyTicketCategory pc)) eff (.catalog (.modifyTicketCategory pc')) := by
  cases pc with
  | start userId objId change =>
      simp only [modifyStep] at h
      split at h
      · cases h
        exact .raises rfl rfl rfl (.of_isService rfl)
      · cases h
        exact .goes rfl rfl rfl
  | categoryRead userId objId change category =>
      simp only [modifyStep] at h
      split at h
      · rename_i e hguard
        cases h
        exact .raises rfl rfl rfl (.of_isService (isService_of_guardEvent hguard))
      · cases h
        exact .goes rfl rfl rfl
  | checked objId change category =>
      simp only [modifyStep] at h
      split at h
      · cases h
        exact .goes rfl rfl rfl
      · cases h
        exact .goes rfl rfl rfl
  | locking category change keys =>
      cases keys with
      | nil =>
          obtain ⟨new, hresult⟩ := result_of_permitted hfree
          simp only [modifyStep, hresult] at h
          cases h
          exact .goes rfl rfl rfl
      | cons key keys =>
          cases h
          exact .goes rfl rfl rfl
  | modified category new =>
      cases h
      exact .commits rfl rfl (.inr rfl)
  | unmatched =>
      cases h
      exact .commits rfl rfl (.inr rfl)
  | finished result => cases h

end Catalog

/-! ## The statements of the order service -/

section Order

open TicketBooking.Order.Transactions

variable {s : Store} {a : Order.Transactions.Act} {eff : Effect Store Row}

theorem apply_afterSelect (call : CreateCall) (rows : List TicketCategory) (s : Store) :
    (afterSelect call rows).1.apply s = s := by
  unfold afterSelect
  split
  · rfl
  · split <;> rfl

/-- Of one row for each category at most, the dictionary misses none. -/
theorem afterSelect_moves {call : CreateCall} {categories rows : List TicketCategory}
    (hone : OneOfEach rows call.data.items) :
    Moves s (.catalog (.order (.create (.locking call categories [])))) (afterSelect call rows).1
      (.catalog (.order (.create (afterSelect call rows).2))) := by
  cases hmissing : missingItem rows call.data.items with
  | some item =>
      simp only [afterSelect, hmissing]
      exact .raises rfl rfl rfl (.of_isService rfl)
  | none =>
      obtain ⟨data, hdata⟩ := Option.isSome_iff_exists.mp
        (itemsData_isSome.mpr (hone.found hmissing))
      simp only [afterSelect, hmissing, hdata]
      exact .goes rfl rfl rfl

theorem createOrder_moves {pc pc' : Order.Transactions.CreatePc}
    (h : Order.Transactions.createStep s pc a = some (eff, pc')) (hact : a ≠ .fail)
    (hfound : Found s.db (.catalog (.order (.create pc)))) :
    Moves s (.catalog (.order (.create pc))) eff (.catalog (.order (.create pc'))) := by
  cases Order.Transactions.createStep_cases h with
  | refuseOwner => exact .raises rfl rfl rfl (mapped_valueError _)
  | refuseItem => exact .raises rfl rfl rfl (.of_isService rfl)
  | keyError hmissing hdata =>
      have hsome := itemsData_isSome.mpr (hfound.2.found hmissing)
      rw [hdata] at hsome
      cases hsome
  | refuseUser huser => exact absurd hfound huser
  | commit => exact .commits rfl rfl (.inl rfl)
  | schedule => exact .returns rfl rfl rfl
  | scheduleFails => exact absurd rfl hact
  | fails => exact absurd rfl hact
  | _ => exact .goes rfl rfl rfl

theorem confirm_moves {pc pc' : ConfirmPc} (h : confirmStep s pc a = some (eff, pc'))
    (hact : a ≠ .fail) :
    Moves s (.catalog (.order (.confirm pc))) eff (.catalog (.order (.confirm pc'))) := by
  cases confirmStep_cases h with
  | notFound => exact .raises rfl rfl rfl (.of_isService rfl)
  | alreadyPaid hsome hpaid =>
      refine .answers rfl ?_ rfl rfl
      simp [settled, hsome, hpaid]
  | wrongState => exact .raises rfl rfl rfl (.of_isService rfl)
  | commit => exact .commits rfl rfl (.inl rfl)
  | mail => exact .returns rfl rfl rfl
  | mailFails => exact absurd rfl hact
  | fails => exact absurd rfl hact
  | _ => exact .goes rfl rfl rfl

theorem expire_moves {pc pc' : ExpirePc} (h : expireStep s pc a = some (eff, pc'))
    (hact : a ≠ .fail) :
    Moves s (.catalog (.order (.expire pc))) eff (.catalog (.order (.expire pc'))) := by
  cases expireStep_cases h with
  | notFound => exact .raises rfl rfl rfl (.of_isService rfl)
  | settled hsome =>
      refine .answers rfl ?_ rfl rfl
      simp [settled, hsome]
  | commit => exact .commits rfl rfl (.inr rfl)
  | fails => exact absurd rfl hact
  | _ => exact .goes rfl rfl rfl

theorem migrate_moves {pc pc' : MigratePc} (h : migrateStep s pc a = some (eff, pc'))
    (hact : a ≠ .fail) :
    Moves s (.catalog (.order (.migrate pc))) eff (.catalog (.order (.migrate pc'))) := by
  cases migrateStep_cases h with
  | userMissing => exact .raises rfl rfl rfl (.of_isService rfl)
  | nothing =>
      simp only [migrateStep] at h
      split_ifs at h with hdone
      · exact .answers rfl (decide_eq_true hdone) rfl rfl
      · cases h
  | commit => exact .commits rfl rfl (.inr rfl)
  | fails => exact absurd rfl hact
  | _ => exact .goes rfl rfl rfl

end Order

/-! ## The statements of the user service -/

section Users

variable {s : Store} {a : UserAct} {eff : Effect Store Row}

theorem createUser_moves {pc pc' : Users.Transactions.CreatePc}
    (h : Users.Transactions.createStep s pc a = some (eff, pc')) (hact : a ≠ .fail)
    (hfree : unviolated s.db (.users (.create pc))) :
    Moves s (.users (.create pc)) eff (.users (.create pc')) := by
  cases a with
  | fail => exact absurd rfl hact
  | perform now later =>
      cases pc with
      | committed user =>
          cases h
          exact .returns rfl rfl rfl
      | _ => cases h
  | run =>
      cases pc with
      | start data =>
          simp only [Users.Transactions.createStep] at h
          split at h
          · cases h
            exact .raises rfl rfl rfl (.of_isService rfl)
          · cases h
            exact .goes rfl rfl rfl
      | keyed user =>
          have hnone : findByEmail s.db user.email = none := Option.isNone_iff_eq_none.mp hfree
          simp only [Users.Transactions.createStep, hnone] at h
          cases h
          exact .goes rfl rfl rfl
      | inserted user =>
          cases h
          exact .commits rfl rfl (.inl rfl)
      | committed user => cases h
      | finished result => cases h
      | _ =>
          cases h
          exact .goes rfl rfl rfl

theorem mapped_of_change {call : Call} {e : AppException} (h : call.change = some (.error e)) :
    Mapped e := by
  cases call with
  | ban userId actorId =>
      simp only [Call.change, ban, Option.some.injEq] at h
      split_ifs at h
      cases h
      exact .of_isService rfl
  | unban userId actorId =>
      simp only [Call.change, unban, Option.some.injEq] at h
      split_ifs at h
      cases h
      exact .of_isService rfl
  | _ => cases h

theorem mapped_of_onMiss {call : Call} {change : Users.Accounts.Change} (hruns : Runs call change)
    {user : User} {e : AppException} (h : change.onMiss user = .error e) : Mapped e := by
  cases hruns with
  | applyForVerification =>
      simp only [applyForVerification] at h
      split_ifs at h <;> cases h <;> exact .of_isService rfl
  | verify =>
      simp only [verify] at h
      split_ifs at h <;> cases h <;> exact .of_isService rfl
  | ban =>
      simp only [setBanned] at h
      split_ifs at h <;> cases h <;> exact .of_isService rfl
  | unban =>
      simp only [setUnbanned] at h
      split_ifs at h
      cases h
      exact .of_isService rfl

theorem change_moves {pc pc' : Users.Transactions.ChangePc}
    (h : Users.Transactions.changeStep s pc a = some (eff, pc')) (hact : a ≠ .fail)
    (hfound : Found s.db (.users (.change pc))) :
    Moves s (.users (.change pc)) eff (.users (.change pc')) := by
  cases a with
  | fail => exact absurd rfl hact
  | perform now later => cases pc <;> cases h
  | run =>
      cases pc with
      | start call =>
          simp only [Users.Transactions.changeStep] at h
          split at h
          · cases h
          · rename_i e hchange
            cases h
            exact .raises rfl rfl rfl (mapped_of_change hchange)
          · split at h
            · cases h
              exact .goes rfl rfl rfl
            · cases h
              exact .goes rfl rfl rfl
      | missed change =>
          obtain ⟨call, hruns⟩ := hfound
          simp only [Users.Transactions.changeStep] at h
          split at h
          · cases h
            exact .raises rfl rfl rfl (.of_isService rfl)
          · rename_i user hfind
            cases h
            cases hmiss : change.onMiss user with
            | ok result =>
                refine .answers rfl ?_ rfl rfl
                simp [settled, hfind, hmiss, Except.isOk, Except.toBool]
            | error e => exact .raises rfl rfl rfl (mapped_of_onMiss hruns hmiss)
      | updated change =>
          cases h
          exact .commits rfl rfl (.inr rfl)
      | finished result => cases h

end Users

/-! ## The services together -/

/-- A locking SELECT that has waited looks at its rows again. -/
inductive ServiceAct
  | catalog (a : Catalog.System.Act)
  | users (a : UserAct)
  | requery (rows : List TicketCategory)
  deriving DecidableEq

/-- The SELECT returns the rows as they are once it has locked them, without those
that are gone or do not match any more. -/
def requeryStep (s : Store) (rows : List TicketCategory) :
    ServicePc → Option (Effect Store Row × ServicePc)
  | .catalog (.order (.create (.locking call categories []))) =>
      if (rows.map fun cat => cat.id).Sublist (categories.map fun cat => cat.id) ∧
          ∀ cat ∈ rows, cat ∈ s.db.ticketCategories then
        some ((afterSelect call rows).1, .catalog (.order (.create (afterSelect call rows).2)))
      else none
  | _ => none

def serviceStep {ι : Type} : Protocol ι Store Row ServicePc ServiceAct
  | i, s, .catalog pc, .catalog a =>
      (systemStep i s pc a).map fun (eff, pc) => (eff, .catalog pc)
  | i, s, .users pc, .users a => (userStep i s pc a).map fun (eff, pc) => (eff, .users pc)
  | _, s, pc, .requery rows => requeryStep s rows pc
  | _, _, _, _ => none

/-- The statement fails for a reason from outside: the connection, a deadlock, the
broker, a limit of the server. -/
def ServiceAct.fails : ServiceAct → Bool
  | .catalog (.order .fail) => true
  | .catalog (.edit .fail) => true
  | .users .fail => true
  | _ => false

/-- The statement a step of a service runs. -/
inductive ServiceStep (s : Store) : ServicePc → ServiceAct → Effect Store Row → ServicePc → Prop
  | createOrder {pc pc' : Order.Transactions.CreatePc} {a : Order.Transactions.Act}
      {eff : Effect Store Row} (h : Order.Transactions.createStep s pc a = some (eff, pc')) :
      ServiceStep s (.catalog (.order (.create pc))) (.catalog (.order a)) eff
        (.catalog (.order (.create pc')))
  | confirm {pc pc' : Order.Transactions.ConfirmPc} {a : Order.Transactions.Act}
      {eff : Effect Store Row} (h : Order.Transactions.confirmStep s pc a = some (eff, pc')) :
      ServiceStep s (.catalog (.order (.confirm pc))) (.catalog (.order a)) eff
        (.catalog (.order (.confirm pc')))
  | expire {pc pc' : Order.Transactions.ExpirePc} {a : Order.Transactions.Act}
      {eff : Effect Store Row} (h : Order.Transactions.expireStep s pc a = some (eff, pc')) :
      ServiceStep s (.catalog (.order (.expire pc))) (.catalog (.order a)) eff
        (.catalog (.order (.expire pc')))
  | migrate {pc pc' : Order.Transactions.MigratePc} {a : Order.Transactions.Act}
      {eff : Effect Store Row} (h : Order.Transactions.migrateStep s pc a = some (eff, pc')) :
      ServiceStep s (.catalog (.order (.migrate pc))) (.catalog (.order a)) eff
        (.catalog (.order (.migrate pc')))
  | fire {id : Tasks.Scheduling.ScheduleId} {orderId : Nat} :
      ServiceStep s (.catalog (.order .waiting)) (.catalog (.order (.fire id)))
        (.emit (Order.Transactions.fireEntry id orderId))
        (.catalog (.order (.expire (.start orderId))))
  | requery {call : CreateCall} {categories rows : List TicketCategory}
      (hrows : (rows.map fun cat => cat.id).Sublist (categories.map fun cat => cat.id)) :
      ServiceStep s (.catalog (.order (.create (.locking call categories [])))) (.requery rows)
        (afterSelect call rows).1 (.catalog (.order (.create (afterSelect call rows).2)))
  | createEvent {pc pc' : CreatePc} {a : EditAct} {eff : Effect Store Row}
      (h : createStep s pc a = some (eff, pc')) :
      ServiceStep s (.catalog (.createEvent pc)) (.catalog (.edit a)) eff
        (.catalog (.createEvent pc'))
  | createCategory {pc pc' : CategoryPc} {a : EditAct} {eff : Effect Store Row}
      (h : categoryStep s pc a = some (eff, pc')) :
      ServiceStep s (.catalog (.createCategory pc)) (.catalog (.edit a)) eff
        (.catalog (.createCategory pc'))
  | updateEvent {pc pc' : UpdatePc} {a : EditAct} {eff : Effect Store Row}
      (h : updateStep s pc a = some (eff, pc')) :
      ServiceStep s (.catalog (.updateEvent pc)) (.catalog (.edit a)) eff
        (.catalog (.updateEvent pc'))
  | transition {pc pc' : TransitionPc} {a : EditAct} {eff : Effect Store Row}
      (h : transitionStep s pc a = some (eff, pc')) :
      ServiceStep s (.catalog (.transition pc)) (.catalog (.edit a)) eff
        (.catalog (.transition pc'))
  | createTicketCategory {pc pc' : TicketCategoryPc} {a : EditAct} {eff : Effect Store Row}
      (h : ticketCategoryStep s pc a = some (eff, pc')) :
      ServiceStep s (.catalog (.createTicketCategory pc)) (.catalog (.edit a)) eff
        (.catalog (.createTicketCategory pc'))
  | modifyTicketCategory {pc pc' : ModifyPc} {a : EditAct} {eff : Effect Store Row}
      (h : modifyStep s pc a = some (eff, pc')) :
      ServiceStep s (.catalog (.modifyTicketCategory pc)) (.catalog (.edit a)) eff
        (.catalog (.modifyTicketCategory pc'))
  | createUser {pc pc' : Users.Transactions.CreatePc} {a : UserAct} {eff : Effect Store Row}
      (h : Users.Transactions.createStep s pc a = some (eff, pc')) :
      ServiceStep s (.users (.create pc)) (.users a) eff
        (.users (.create pc'))
  | change {pc pc' : Users.Transactions.ChangePc} {a : UserAct} {eff : Effect Store Row}
      (h : Users.Transactions.changeStep s pc a = some (eff, pc')) :
      ServiceStep s (.users (.change pc)) (.users a) eff
        (.users (.change pc'))

theorem orderService_cases {ι : Type} {i : ι} {s : Store} {pc pc' : Order.Transactions.Pc}
    {a : Order.Transactions.Act} {eff : Effect Store Row}
    (h : Order.Transactions.orderStep i s pc a = some (eff, pc')) :
    ServiceStep s (.catalog (.order pc)) (.catalog (.order a)) eff (.catalog (.order pc')) := by
  cases pc with
  | waiting =>
      cases Order.Transactions.orderStep_cases h with
      | fire => exact .fire
  | _ pc =>
      obtain ⟨⟨eff', pc''⟩, hstep, heq⟩ := Option.map_eq_some_iff.mp h
      cases heq
      constructor
      exact hstep

theorem catalogService_cases {ι : Type} {i : ι} {s : Store} {pc pc' : Catalog.System.Pc}
    {a : Catalog.System.Act} {eff : Effect Store Row} (h : systemStep i s pc a = some (eff, pc')) :
    ServiceStep s (.catalog pc) (.catalog a) eff (.catalog pc') := by
  cases pc with
  | order pc =>
      cases a with
      | edit a => cases h
      | order a =>
          obtain ⟨⟨eff', pc''⟩, hstep, heq⟩ := Option.map_eq_some_iff.mp h
          cases heq
          exact orderService_cases hstep
  | _ pc =>
      cases a with
      | order a => cases h
      | edit a =>
          obtain ⟨⟨eff', pc''⟩, hstep, heq⟩ := Option.map_eq_some_iff.mp h
          cases heq
          constructor
          exact hstep

theorem serviceStep_cases {ι : Type} {i : ι} {s : Store} {pc pc' : ServicePc} {a : ServiceAct}
    {eff : Effect Store Row} (h : serviceStep i s pc a = some (eff, pc')) :
    ServiceStep s pc a eff pc' := by
  unfold serviceStep at h
  split at h
  · obtain ⟨⟨eff', pc''⟩, hstep, heq⟩ := Option.map_eq_some_iff.mp h
    cases heq
    exact catalogService_cases hstep
  · rename_i pc a
    cases pc with
    | _ pc =>
        obtain ⟨⟨eff', upc'⟩, huser, heq⟩ := Option.map_eq_some_iff.mp h
        cases heq
        obtain ⟨⟨eff'', pc''⟩, hstep, heq⟩ := Option.map_eq_some_iff.mp huser
        cases heq
        constructor
        exact hstep
  · unfold requeryStep at h
    split at h
    · split_ifs at h with hrows
      cases h
      exact .requery hrows.1
    · cases h
  · cases h

theorem ServiceAct.run_of_edit {a : EditAct} (h : (ServiceAct.catalog (.edit a)).fails = false) :
    ∃ now, a = .run now := by
  cases a with
  | run now => exact ⟨now, rfl⟩
  | fail => cases h

/-- Without a failure from outside and a violated constraint, no statement ends
its call in an exception without a status. -/
theorem service_moves {s : Store} {pc pc' : ServicePc} {a : ServiceAct} {eff : Effect Store Row}
    (h : ServiceStep s pc a eff pc') (hact : a.fails = false) (hfound : Found s.db pc)
    (hfree : unviolated s.db pc) : Moves s pc eff pc' := by
  cases h with
  | createOrder h => exact createOrder_moves h (by rintro rfl; cases hact) hfound
  | confirm h => exact confirm_moves h (by rintro rfl; cases hact)
  | expire h => exact expire_moves h (by rintro rfl; cases hact)
  | migrate h => exact migrate_moves h (by rintro rfl; cases hact)
  | fire => exact .goes rfl rfl rfl
  | requery hrows => exact afterSelect_moves (hfound.2.sublist hrows)
  | createEvent h =>
      obtain ⟨now, rfl⟩ := ServiceAct.run_of_edit hact
      exact createEvent_moves h hfound hfree
  | createCategory h =>
      obtain ⟨now, rfl⟩ := ServiceAct.run_of_edit hact
      exact createCategory_moves h
  | updateEvent h =>
      obtain ⟨now, rfl⟩ := ServiceAct.run_of_edit hact
      exact updateEvent_moves h hfree
  | transition h =>
      obtain ⟨now, rfl⟩ := ServiceAct.run_of_edit hact
      exact transition_moves h
  | createTicketCategory h =>
      obtain ⟨now, rfl⟩ := ServiceAct.run_of_edit hact
      exact createTicketCategory_moves h hfound hfree
  | modifyTicketCategory h =>
      obtain ⟨now, rfl⟩ := ServiceAct.run_of_edit hact
      exact modifyTicketCategory_moves h hfree
  | createUser h => exact createUser_moves h (by rintro rfl; cases hact) hfree
  | change h => exact change_moves h (by rintro rfl; cases hact) hfound

end TicketBooking.App.Violations
