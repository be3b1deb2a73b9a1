import Mathlib.Data.Prod.Lex
import Mathlib.Data.String.Basic
import TicketBooking.App.PrimaryKeys
import TicketBooking.App.Progress
import TicketBooking.Library.Deadlocks
/-!
# Deadlocks of the services

The order, event, ticket category and user services.  The SELECT of a booking locks its
categories one after another in whatever order the database finds them, and so does the
UPDATE of a migration with the orders.  The change of a ticket category locks its row and
then the names it writes to the index.  No other of their calls asks for a second lock.
-/

namespace TicketBooking.App.Deadlocks

open Relation (ReflTransGen TransGen)
open TicketBooking.App.PrimaryKeys TicketBooking.App.Progress TicketBooking.App.Violations
open TicketBooking.Catalog.Editing (Change)
open TicketBooking.Catalog.System (systemStep)
open TicketBooking.Database.Shared TicketBooking.Database.Tables
open TicketBooking.Library.Deadlocks TicketBooking.Library.Sessions
open TicketBooking.Order.Transactions (afterSelect orderStep)
open TicketBooking.Users.Authentication (ServicePc)
open TicketBooking.Users.Transactions (userStep)

/-! ## The rows a call holds -/

def nameRow (key : Nat × String) : Row := .ticketCategoryName key.1 key.2

def Holds : ServicePc → Row → Prop
  | .catalog (.order (.create (.locking _ categories _))), row =>
      ∃ category ∈ categories, row = .ticketCategory category.id
  | .catalog (.order (.create (.selected _ _))), _ => True
  | .catalog (.order (.create (.insertingItems _ _ _))), _ => True
  | .catalog (.order (.create (.insertingTickets _ _ _ _))), _ => True
  | .catalog (.order (.confirm (.updated _))), _ => True
  | .catalog (.order (.confirm (.itemsRead _ _))), _ => True
  | .catalog (.order (.confirm (.ticketsUpdated _ _))), _ => True
  | .catalog (.order (.expire (.updated _))), _ => True
  | .catalog (.order (.expire (.ticketsDeleted _ _))), _ => True
  | .catalog (.order (.migrate (.updating _ _ _ done))), row => ∃ id ∈ done, row = .order id
  | .catalog (.createCategory (.keyed _)), _ => True
  | .catalog (.createCategory (.inserted _)), _ => True
  | .catalog (.updateEvent (.matched _ _)), _ => True
  | .catalog (.updateEvent (.updated _)), _ => True
  | .catalog (.transition (.updated _)), _ => True
  | .catalog (.createTicketCategory (.keyed _)), _ => True
  | .catalog (.createTicketCategory (.inserted _)), _ => True
  | .catalog (.modifyTicketCategory (.locking category change _)), row =>
      row = .ticketCategory category.id ∨ ∃ key ∈ change.keys category, row = nameRow key
  | .catalog (.modifyTicketCategory (.modified _ _)), _ => True
  | .users (.create (.keyed _)), _ => True
  | .users (.create (.inserted _)), _ => True
  | .users (.change (.updated _)), _ => True
  | _, _ => False

def InScope : ServicePc → Prop
  | .catalog (.order (.create (.locking call categories todo))) =>
      (∀ id ∈ todo, ∃ category ∈ categories, category.id = id) ∧
        ∀ category ∈ categories, ∃ item ∈ call.data.items, item.categoryId.val = category.id
  | .catalog (.modifyTicketCategory (.locking category change keys)) =>
      ∀ key ∈ keys, key ∈ change.keys category
  | _ => True

def Anonymous (db : Db) (id : Nat) (email : String) : Prop :=
  ∃ order ∈ db.orders, order.id = id ∧ order.anonymousEmail = some email

/-- The orders a migration has found are locked, and still anonymous. -/
def Claimed (db : Db) (rows : Set Row) : ServicePc → Prop
  | .catalog (.order (.migrate (.updating email _ _ done))) =>
      ∀ id ∈ done, Row.order id ∈ rows ∧ Anonymous db id email
  | _ => True

section Steps

variable {s : Store} {rows : Set Row} {pc pc' : ServicePc} {a : ServiceAct}
  {eff : Effect Store Row}

theorem holds_nothing {Q : Row → Prop} : ∀ row ∈ (∅ : Set Row), Q row :=
  fun row hrow => absurd hrow (Set.notMem_empty row)

theorem holds_afterSelect {call : Order.Booking.CreateCall} {categories : List TicketCategory}
    {row : Row} (hrow : row ∈ (afterSelect call categories).1.held rows) :
    Holds (.catalog (.order (.create (afterSelect call categories).2))) row := by
  revert hrow
  unfold afterSelect
  split
  · exact holds_nothing row
  · split
    · exact holds_nothing row
    · exact fun _ => trivial

theorem holds_createOrder {pc pc' : Order.Transactions.CreatePc} {a : Order.Transactions.Act}
    (h : Order.Transactions.CreateStep s pc a eff pc')
    (hscope : InScope (.catalog (.order (.create pc))))
    (hrows : ∀ row ∈ rows, Holds (.catalog (.order (.create pc))) row) :
    ∀ row ∈ eff.held rows, Holds (.catalog (.order (.create pc'))) row := by
  cases h with
  | select => exact fun row hrow => (hrows row hrow).elim
  | @lock call categories id todo =>
      intro row hrow
      rcases hrow with rfl | hrow
      · obtain ⟨category, hmem, hid⟩ := hscope.1 id List.mem_cons_self
        exact ⟨category, hmem, hid ▸ rfl⟩
      · exact hrows row hrow
  | schedule => exact fun row hrow => (hrows row hrow).elim
  | scheduleFails => exact fun row hrow => (hrows row hrow).elim
  | refuseOwner => exact fun row hrow => (hrows row hrow).elim
  | _ => first | exact holds_nothing | exact fun _ _ => trivial

theorem holds_migrate {pc pc' : Order.Transactions.MigratePc} {a : Order.Transactions.Act}
    (h : Order.Transactions.MigrateStep s pc a eff pc')
    (hrows : ∀ row ∈ rows, Holds (.catalog (.order (.migrate pc))) row) :
    ∀ row ∈ eff.held rows, Holds (.catalog (.order (.migrate pc'))) row := by
  cases h with
  | readUser => exact hrows
  | findRows => exact fun row hrow => (hrows row hrow).elim
  | @lockRow email userId id todo done =>
      intro row hrow
      rcases hrow with rfl | hrow
      · exact ⟨id, List.mem_append_right done (List.mem_singleton_self id), rfl⟩
      · obtain ⟨id', hid', rfl⟩ := hrows row hrow
        exact ⟨id', List.mem_append_left [id] hid', rfl⟩
  | skipRow => exact hrows
  | _ => exact holds_nothing

theorem holds_modify {pc pc' : Catalog.Transactions.ModifyPc} {a : Catalog.Transactions.EditAct}
    (h : Catalog.Transactions.ModifyStep s pc a eff pc')
    (hscope : InScope (.catalog (.modifyTicketCategory pc)))
    (hrows : ∀ row ∈ rows, Holds (.catalog (.modifyTicketCategory pc)) row) :
    ∀ row ∈ eff.held rows, Holds (.catalog (.modifyTicketCategory pc')) row := by
  cases h with
  | lockRow hfind =>
      intro row hrow
      rcases hrow with rfl | hrow
      · exact .inl (congrArg Row.ticketCategory (find_eq_some hfind).2.symm)
      · exact (hrows row hrow).elim
  | @lockName category change key =>
      intro row hrow
      rcases hrow with rfl | hrow
      · exact .inr ⟨key, hscope key List.mem_cons_self, rfl⟩
      · exact hrows row hrow
  | modify => exact fun _ _ => trivial
  | commit => exact holds_nothing
  | quits => exact holds_nothing
  | commitNothing => exact holds_nothing
  | _ => exact hrows

/-- A statement locks rows its call may hold, and lets go of all of them at the end. -/
theorem service_holds (h : ServiceStep s pc a eff pc') (hscope : InScope pc)
    (hrows : ∀ row ∈ rows, Holds pc row) : ∀ row ∈ eff.held rows, Holds pc' row := by
  cases h with
  | createOrder h => exact holds_createOrder (Order.Transactions.createStep_cases h) hscope hrows
  | confirm h =>
      cases Order.Transactions.confirmStep_cases h with
      | miss => exact hrows
      | mail => exact hrows
      | mailFails => exact hrows
      | _ => first | exact holds_nothing | exact fun _ _ => trivial
  | expire h =>
      cases Order.Transactions.expireStep_cases h with
      | miss => exact hrows
      | _ => first | exact holds_nothing | exact fun _ _ => trivial
  | migrate h => exact holds_migrate (Order.Transactions.migrateStep_cases h) hrows
  | fire => exact hrows
  | requery => exact fun _ hrow => holds_afterSelect hrow
  | createEvent h =>
      cases Catalog.Transactions.createStep_cases h with
      | commit => exact holds_nothing
      | quits => exact holds_nothing
      | _ => exact hrows
  | createCategory h =>
      cases Catalog.Transactions.categoryStep_cases h with
      | lockName => exact fun _ _ => trivial
      | insert => exact hrows
      | commit => exact holds_nothing
      | quits => exact holds_nothing
      | _ => exact hrows
  | updateEvent h =>
      cases Catalog.Transactions.updateStep_cases h with
      | miss => exact hrows
      | _ => first | exact holds_nothing | exact fun _ _ => trivial
  | transition h =>
      cases Catalog.Transactions.transitionStep_cases h with
      | miss => exact hrows
      | _ => first | exact holds_nothing | exact fun _ _ => trivial
  | createTicketCategory h =>
      cases Catalog.Transactions.ticketCategoryStep_cases h with
      | lockName => exact fun _ _ => trivial
      | insert => exact hrows
      | commit => exact holds_nothing
      | quits => exact holds_nothing
      | _ => exact hrows
  | modifyTicketCategory h =>
      exact holds_modify (Catalog.Transactions.modifyStep_cases h) hscope hrows
  | createUser h =>
      cases Users.Transactions.createStep_cases h with
      | lockEmail => exact fun _ _ => trivial
      | insert => exact hrows
      | commit => exact holds_nothing
      | quits => exact holds_nothing
      | _ => exact hrows
  | change h =>
      cases Users.Transactions.changeStep_cases h with
      | refuse => exact hrows
      | update => exact fun _ _ => trivial
      | miss => exact hrows
      | _ => exact holds_nothing

theorem scope_createOrder {pc pc' : Order.Transactions.CreatePc} {a : Order.Transactions.Act}
    (h : Order.Transactions.CreateStep s pc a eff pc')
    (hscope : InScope (.catalog (.order (.create pc)))) :
    InScope (.catalog (.order (.create pc'))) := by
  cases h with
  | @select call categories howner hperm =>
      refine ⟨fun id hid => List.mem_map.mp hid, fun category hmem => ?_⟩
      have hselected : category ∈ Order.Booking.selectedCategories s.db call.data.items :=
        (List.isPerm_iff.mp hperm).mem_iff.mp hmem
      have hrequested : category.id ∈ Order.Booking.categoryIds call.data.items :=
        (of_decide_eq_true (List.mem_filter.mp hselected).2).1
      exact List.mem_map.mp (List.mem_dedup.mp hrequested)
  | lock => exact ⟨fun id hid => hscope.1 id (List.mem_cons_of_mem _ hid), hscope.2⟩
  | _ => trivial

theorem service_scope (h : ServiceStep s pc a eff pc') (hscope : InScope pc) : InScope pc' := by
  cases h with
  | createOrder h => exact scope_createOrder (Order.Transactions.createStep_cases h) hscope
  | @requery call categories rows =>
      unfold afterSelect
      split
      · trivial
      · split <;> trivial
  | modifyTicketCategory h =>
      cases Catalog.Transactions.modifyStep_cases h with
      | lockRow => exact fun _ hkey => hkey
      | lockName => exact fun key hkey => hscope key (List.mem_cons_of_mem _ hkey)
      | _ => trivial
  | _ => trivial

/-! ## Anonymous orders -/

theorem anonymous_map {db : Db} {id : Nat} {email : String} (f : Order → Order)
    (hf : ∀ order, order.id = id →
      (f order).id = order.id ∧ (f order).anonymousEmail = order.anonymousEmail)
    (h : Anonymous db id email) : Anonymous { db with orders := db.orders.map f } id email := by
  obtain ⟨order, hmem, hid, hemail⟩ := h
  obtain ⟨hkept, hkept'⟩ := hf order hid
  exact ⟨f order, List.mem_map_of_mem hmem, hkept.trans hid, hkept'.trans hemail⟩

theorem anonymous_setOrderStatus {db : Db} {id : Nat} {email : String} (id' : Nat)
    (status : OrderStatus) (h : Anonymous db id email) :
    Anonymous { db with orders := Order.Transactions.setOrderStatus id' status db.orders } id
      email := by
  refine anonymous_map _ (fun order _ => ?_) h
  split_ifs <;> exact ⟨rfl, rfl⟩

theorem service_anonymous {id : Nat} {email : String} (h : ServiceStep s pc a eff pc')
    (hfree : ∀ email userId done,
      pc = .catalog (.order (.migrate (.updating email userId [] done))) → id ∉ done)
    (hanonymous : Anonymous s.db id email) : Anonymous (eff.apply s).db id email := by
  cases h with
  | createOrder h =>
      cases Order.Transactions.createStep_cases h with
      | commit =>
          obtain ⟨order, hmem, horder⟩ := hanonymous
          exact ⟨order, List.mem_append_left _ hmem, horder⟩
      | _ => exact hanonymous
  | confirm h =>
      cases Order.Transactions.confirmStep_cases h with
      | @commit id' => exact anonymous_setOrderStatus id' .paid hanonymous
      | _ => exact hanonymous
  | expire h =>
      cases Order.Transactions.expireStep_cases h with
      | @commit id' => exact anonymous_setOrderStatus id' .cancelled hanonymous
      | _ => exact hanonymous
  | migrate h =>
      cases Order.Transactions.migrateStep_cases h with
      | @commit email' userId done =>
          refine anonymous_map _ (fun order hid => ?_) hanonymous
          rw [if_neg (hid ▸ hfree email' userId done rfl)]
          exact ⟨rfl, rfl⟩
      | _ => exact hanonymous
  | @requery call categories rows =>
      rw [apply_afterSelect]
      exact hanonymous
  | createEvent h => cases Catalog.Transactions.createStep_cases h <;> exact hanonymous
  | createCategory h => cases Catalog.Transactions.categoryStep_cases h <;> exact hanonymous
  | updateEvent h => cases Catalog.Transactions.updateStep_cases h <;> exact hanonymous
  | transition h => cases Catalog.Transactions.transitionStep_cases h <;> exact hanonymous
  | createTicketCategory h =>
      cases Catalog.Transactions.ticketCategoryStep_cases h <;> exact hanonymous
  | modifyTicketCategory h => cases Catalog.Transactions.modifyStep_cases h <;> exact hanonymous
  | createUser h => cases Users.Transactions.createStep_cases h <;> exact hanonymous
  | change h => cases Users.Transactions.changeStep_cases h <;> exact hanonymous
  | fire => exact hanonymous

theorem service_claimed (h : ServiceStep s pc a eff pc') (hclaimed : Claimed s.db rows pc) :
    Claimed (eff.apply s).db (eff.held rows) pc' := by
  cases h with
  | migrate h =>
      cases Order.Transactions.migrateStep_cases h with
      | findRows => exact fun id hid => absurd hid List.not_mem_nil
      | @lockRow email userId id todo done hmatch =>
          intro id' hid'
          rcases List.mem_append.mp hid' with hid' | hid'
          · exact ⟨.inr (hclaimed id' hid').1, (hclaimed id' hid').2⟩
          · obtain ⟨order, hmem, horder⟩ := List.any_eq_true.mp hmatch
            rw [List.mem_singleton.mp hid']
            exact ⟨.inl rfl, order, hmem, of_decide_eq_true horder⟩
      | skipRow => exact hclaimed
      | _ => trivial
  | _ => trivial

/-! ## The rows a call asks for -/

/-- The row that is locked next, by a call that may hold some, or by one that holds none. -/
inductive Asking (s : Store) : ServicePc → Row → Prop
  | category {call : Order.Booking.CreateCall} {categories : List TicketCategory} {id : Nat}
      {todo : List Nat} :
      Asking s (.catalog (.order (.create (.locking call categories (id :: todo)))))
        (.ticketCategory id)
  | order {email : String} {userId id : Nat} {todo done : List Nat}
      (hanonymous : Anonymous s.db id email) :
      Asking s (.catalog (.order (.migrate (.updating email userId (id :: todo) done)))) (.order id)
  | name {category : TicketCategory} {change : Change} {key : Nat × String}
      {keys : List (Nat × String)} :
      Asking s (.catalog (.modifyTicketCategory (.locking category change (key :: keys))))
        (nameRow key)
  | first {pc : ServicePc} {row : Row} (hnone : ∀ row, ¬ Holds pc row) : Asking s pc row

theorem asking_of_step {row : Row} (h : ServiceStep s pc a (.lock row) pc') : Asking s pc row := by
  generalize heff : Effect.lock row = eff at h
  cases h with
  | createOrder h =>
      cases Order.Transactions.createStep_cases h with
      | lock =>
          cases heff
          exact .category
      | _ => cases heff
  | confirm h =>
      cases Order.Transactions.confirmStep_cases h with
      | update => exact .first fun _ h => h
      | _ => cases heff
  | expire h =>
      cases Order.Transactions.expireStep_cases h with
      | update => exact .first fun _ h => h
      | _ => cases heff
  | migrate h =>
      cases Order.Transactions.migrateStep_cases h with
      | lockRow hmatch =>
          cases heff
          obtain ⟨order, hmem, horder⟩ := List.any_eq_true.mp hmatch
          exact .order ⟨order, hmem, of_decide_eq_true horder⟩
      | _ => cases heff
  | fire => cases heff
  | requery =>
      revert heff
      unfold afterSelect
      split
      · exact fun heff => by cases heff
      · split <;> exact fun heff => by cases heff
  | createEvent h => cases Catalog.Transactions.createStep_cases h <;> cases heff
  | createCategory h =>
      cases Catalog.Transactions.categoryStep_cases h with
      | lockName => exact .first fun _ h => h
      | _ => cases heff
  | updateEvent h =>
      cases Catalog.Transactions.updateStep_cases h with
      | find => exact .first fun _ h => h
      | _ => cases heff
  | transition h =>
      cases Catalog.Transactions.transitionStep_cases h with
      | update => exact .first fun _ h => h
      | _ => cases heff
  | createTicketCategory h =>
      cases Catalog.Transactions.ticketCategoryStep_cases h with
      | lockName => exact .first fun _ h => h
      | _ => cases heff
  | modifyTicketCategory h =>
      cases Catalog.Transactions.modifyStep_cases h with
      | lockRow => exact .first fun _ h => h
      | lockName =>
          cases heff
          exact .name
      | _ => cases heff
  | createUser h =>
      cases Users.Transactions.createStep_cases h with
      | lockEmail => exact .first fun _ h => h
      | _ => cases heff
  | change h =>
      cases Users.Transactions.changeStep_cases h with
      | update => exact .first fun _ h => h
      | _ => cases heff

end Steps

/-! ## Every run -/

structure At (s : Store) (rows : Set Row) (pc : ServicePc) : Prop where
  holds : ∀ row ∈ rows, Holds pc row
  scope : InScope pc
  claimed : Claimed s.db rows pc

section Runs

variable {ι : Type} {s : Store} {calls : ι → Call} {w : World ι Store Row ServicePc}

def outline : Outline ι Store Row ServicePc where
  inv _ := True
  at_ _ := At
  apart _ _ := True

theorem claimed_other {rows : Set Row} {db db' : Db} {pc : ServicePc}
    (hanonymous : ∀ id email, Row.order id ∈ rows → Anonymous db id email →
      Anonymous db' id email)
    (h : Claimed db rows pc) : Claimed db' rows pc := by
  unfold Claimed at h ⊢
  split
  · exact fun id hid => ⟨(h id hid).1, hanonymous id _ (h id hid).1 (h id hid).2⟩
  · trivial

theorem outline_sound (ok : World ι Store Row ServicePc → ι → ServiceAct → Prop) :
    (outline (ι := ι)).Sound serviceStep ok where
  own w i a eff pc hw _ hP _ := by
    have hstep := serviceStep_cases hP
    obtain ⟨hholds, hscope, hclaimed⟩ := hw.at_ i
    exact ⟨trivial, service_holds hstep hscope hholds, service_scope hstep hscope,
      service_claimed hstep hclaimed⟩
  frame w i j a eff pc hw _ hP _ hj := by
    have hstep := serviceStep_cases hP
    obtain ⟨hholds, hscope, hclaimed⟩ := hw.at_ j
    refine ⟨⟨hholds, hscope, claimed_other (fun id email hrow hanonymous => ?_) hclaimed⟩, trivial,
      trivial⟩
    refine service_anonymous hstep (fun email' userId done hpc hdone => hj ?_) hanonymous
    have hown : Claimed w.shared.db (w.held i) (w.pc i) := (hw.at_ i).claimed
    rw [hpc] at hown
    exact w.held_disjoint hrow (hown id hdone).1

variable [DecidableEq ι]

theorem at_of_run {ok : World ι Store Row ServicePc → ι → ServiceAct → Prop}
    (hrun : Run serviceStep ok (atCalls s calls) w) (i : ι) : At w.shared (w.held i) (w.pc i) := by
  refine ((outline_sound ok).run hrun ⟨trivial, fun i => ⟨?_, ?_, ?_⟩, fun _ _ _ => trivial⟩).at_ i
  · rw [show (atCalls s calls).held i = ∅ from World.start_held s _ i]
    exact holds_nothing
  · show InScope (calls i).pc
    rcases calls i with call | call | call <;> cases call <;> trivial
  · show Claimed _ _ (calls i).pc
    rcases calls i with call | call | call <;> cases call <;> trivial

end Runs

/-! ## Calls that wait for each other -/

/-- A call that holds a lock and asks for another, and the call that has it. -/
inductive Link : ServicePc → ServicePc → Prop
  | create {call call' : Order.Booking.CreateCall} {categories categories' : List TicketCategory}
      {todo todo' : List Nat} :
      Link (.catalog (.order (.create (.locking call categories todo))))
        (.catalog (.order (.create (.locking call' categories' todo'))))
  | createModify {call : Order.Booking.CreateCall} {categories : List TicketCategory}
      {todo : List Nat} {category : TicketCategory} {change : Change} {keys : List (Nat × String)} :
      Link (.catalog (.order (.create (.locking call categories todo))))
        (.catalog (.modifyTicketCategory (.locking category change keys)))
  | migrate {email : String} {userId userId' : Nat} {todo todo' done done' : List Nat} :
      Link (.catalog (.order (.migrate (.updating email userId todo done))))
        (.catalog (.order (.migrate (.updating email userId' todo' done'))))
  | modify {category category' : TicketCategory} {change change' : Change}
      {keys keys' : List (Nat × String)} (hevent : category.eventId = category'.eventId) :
      Link (.catalog (.modifyTicketCategory (.locking category change keys)))
        (.catalog (.modifyTicketCategory (.locking category' change' keys')))

theorem keys_event {change : Change} {category : TicketCategory} {key : Nat × String}
    (h : key ∈ change.keys category) : key.1 = category.eventId := by
  cases change with
  | delete => rw [List.mem_singleton.mp h]
  | update data =>
      rcases List.mem_cons.mp h with rfl | h
      · rfl
      · rw [List.mem_singleton.mp h]

theorem nameRow_inj {key key' : Nat × String} (h : nameRow key = nameRow key') : key = key' := by
  obtain ⟨eventId, name⟩ := key
  obtain ⟨eventId', name'⟩ := key'
  cases h
  rfl

theorem Anonymous.unique {db : Db} {id : Nat} {email email' : String}
    (hkeys : (db.orders.map fun order => order.id).Nodup) (h : Anonymous db id email)
    (h' : Anonymous db id email') : email = email' := by
  obtain ⟨order, hmem, hid, hemail⟩ := h
  obtain ⟨order', hmem', hid', hemail'⟩ := h'
  cases List.inj_on_of_nodup_map hkeys hmem hmem' (hid.trans hid'.symm)
  exact Option.some.inj (hemail.symm.trans hemail')

theorem link_of_asking {s : Store} {rows : Set Row} {pc pc' : ServicePc} {row row' : Row}
    (hkeys : (s.db.orders.map fun order => order.id).Nodup) (hasks : Asking s pc row)
    (hscope : InScope pc) (hholds : ∃ row, Holds pc row) (hasks' : Asking s pc' row')
    (hrow : row ∈ rows) (hat' : At s rows pc') : Link pc pc' := by
  have hheld : Holds pc' row := hat'.holds row hrow
  cases hasks with
  | category =>
      cases hasks' with
      | category => exact .create
      | order =>
          obtain ⟨id, -, hid⟩ := hheld
          cases hid
      | name => exact .createModify
      | first hnone => exact absurd hheld (hnone _)
  | order hanonymous =>
      cases hasks' with
      | category =>
          obtain ⟨category, -, hid⟩ := hheld
          cases hid
      | order =>
          obtain ⟨id, hdone, hid⟩ := hheld
          cases hid
          obtain rfl := hanonymous.unique hkeys (hat'.claimed _ hdone).2
          exact .migrate
      | name =>
          rcases hheld with hid | ⟨key, -, hid⟩ <;> cases hid
      | first hnone => exact absurd hheld (hnone _)
  | @name category change key =>
      cases hasks' with
      | category =>
          obtain ⟨category, -, hid⟩ := hheld
          cases hid
      | order =>
          obtain ⟨id, -, hid⟩ := hheld
          cases hid
      | name =>
          rcases hheld with hid | ⟨key', hmem, hid⟩
          · cases hid
          · cases nameRow_inj hid
            exact .modify ((keys_event (hscope key List.mem_cons_self)).symm.trans
              (keys_event hmem))
      | first hnone => exact absurd hheld (hnone _)
  | first hnone =>
      obtain ⟨row, hrow⟩ := hholds
      exact absurd hrow (hnone row)

/-- A booking of different categories, a migration of several orders, or a change of a
ticket category's name, while it takes its locks. -/
def Contends : ServicePc → Prop
  | .catalog (.order (.create (.locking call _ _))) =>
      ∃ item ∈ call.data.items, ∃ item' ∈ call.data.items,
        item.categoryId.val ≠ item'.categoryId.val
  | .catalog (.order (.migrate (.updating _ _ todo done))) => todo ≠ [] ∧ done ≠ []
  | .catalog (.modifyTicketCategory (.locking category (.update data) _)) =>
      data.name.join.getD category.name ≠ category.name
  | _ => False

/-- Bookings, migrations for one address, or changes of one event's ticket categories. -/
inductive Alike : ServicePc → ServicePc → Prop
  | create {call call' : Order.Booking.CreateCall} {categories categories' : List TicketCategory}
      {todo todo' : List Nat} :
      Alike (.catalog (.order (.create (.locking call categories todo))))
        (.catalog (.order (.create (.locking call' categories' todo'))))
  | migrate {email : String} {userId userId' : Nat} {todo todo' done done' : List Nat} :
      Alike (.catalog (.order (.migrate (.updating email userId todo done))))
        (.catalog (.order (.migrate (.updating email userId' todo' done'))))
  | modify {category category' : TicketCategory} {change change' : Change}
      {keys keys' : List (Nat × String)} (hevent : category.eventId = category'.eventId) :
      Alike (.catalog (.modifyTicketCategory (.locking category change keys)))
        (.catalog (.modifyTicketCategory (.locking category' change' keys')))

theorem Alike.trans {pc pc' pc'' : ServicePc} (h : Alike pc pc') (h' : Alike pc' pc'') :
    Alike pc pc'' := by
  cases h with
  | create =>
      cases h'
      exact .create
  | migrate =>
      cases h'
      exact .migrate
  | modify hevent =>
      cases h' with
      | modify hevent' => exact .modify (hevent.trans hevent')

/-- A booking may wait for a change of a ticket category, but not the other way round. -/
def kind : ServicePc → Nat
  | .catalog (.order (.create _)) => 0
  | .catalog (.modifyTicketCategory _) => 1
  | _ => 2

theorem Link.kind_le {pc pc' : ServicePc} (h : Link pc pc') : kind pc ≤ kind pc' := by
  cases h <;> simp [kind]

theorem Link.alike {pc pc' : ServicePc} (h : Link pc pc') (hkind : kind pc = kind pc') :
    Alike pc pc' := by
  cases h with
  | create => exact .create
  | createModify => cases hkind
  | migrate => exact .migrate
  | modify hevent => exact .modify hevent

theorem renames_of_ne {change : Change} {category : TicketCategory} {key key' : Nat × String}
    (hkey : key ∈ change.keys category) (hkey' : key' ∈ change.keys category) (hne : key ≠ key') :
    ∃ data, change = .update data ∧ data.name.join.getD category.name ≠ category.name := by
  cases change with
  | delete =>
      rw [List.mem_singleton.mp hkey, List.mem_singleton.mp hkey'] at hne
      exact absurd rfl hne
  | update data =>
      refine ⟨data, rfl, fun hname => hne ?_⟩
      have hsame : ∀ key ∈ (Change.update data).keys category,
          key = (category.eventId, category.name) := by
        intro key hkey
        rcases List.mem_cons.mp hkey with rfl | hkey
        · rfl
        · rw [List.mem_singleton.mp hkey, hname]
      rw [hsame key hkey, hsame key' hkey']

/-- A call that holds what an alike one asks for, and asks for another row. -/
theorem contends_of_asking {s : Store} {rows : Set Row} {pc pc' : ServicePc} {row row' : Row}
    (hat : At s rows pc) (hasks : Asking s pc row) (hrow : row ∉ rows) (halike : Alike pc' pc)
    (hasks' : Asking s pc' row') (hholds' : ∃ row, Holds pc' row) (hrow' : row' ∈ rows) :
    Contends pc := by
  have hheld : Holds pc row' := hat.holds row' hrow'
  have hne : row ≠ row' := fun h => hrow (h ▸ hrow')
  cases hasks with
  | @category call categories id todo =>
      obtain ⟨category, hmem, rfl⟩ := hheld
      obtain ⟨category', hmem', hid'⟩ := hat.scope.1 id List.mem_cons_self
      obtain ⟨item, hitem, hitemId⟩ := hat.scope.2 category hmem
      obtain ⟨item', hitem', hitemId'⟩ := hat.scope.2 category' hmem'
      refine ⟨item, hitem, item', hitem', fun h => hne ?_⟩
      rw [← hid', ← hitemId', ← h, hitemId]
  | order =>
      obtain ⟨id', hdone, -⟩ := hheld
      exact ⟨List.cons_ne_nil _ _, List.ne_nil_of_mem hdone⟩
  | @name category change key =>
      cases halike with
      | modify =>
          cases hasks' with
          | @name _ _ key' =>
              rcases hheld with hid | ⟨key'', hmem, hid⟩
              · cases hid
              · cases nameRow_inj hid
                obtain ⟨data, rfl, hname⟩ := renames_of_ne (hat.scope key List.mem_cons_self) hmem
                  fun h => hne (congrArg nameRow h)
                exact hname
          | first hnone =>
              obtain ⟨row, hrow⟩ := hholds'
              exact absurd hrow (hnone row)
  | first hnone => exact absurd hheld (hnone row')

section Runs

variable {ι : Type} {s : Store} {calls : ι → Call} {w : World ι Store Row ServicePc}

theorem asking_of_asks {i : ι} {row : Row} (h : Asks serviceStep w i row) :
    Asking w.shared (w.pc i) row := by
  obtain ⟨a, pc, hP⟩ := h
  exact asking_of_step (serviceStep_cases hP)

theorem holds_of_deadlocked {i : ι} (hat : At w.shared (w.held i) (w.pc i))
    (h : Deadlocked serviceStep w i) : ∃ row, Holds (w.pc i) row := by
  obtain ⟨row, hrow⟩ := h.holds
  exact ⟨row, hat.holds row hrow⟩

theorem link_of_waits (hkeys : Database.Statements.PrimaryKeys w.shared.db)
    (hat : ∀ i, At w.shared (w.held i) (w.pc i)) {i j : ι} (h : Waits serviceStep w i j)
    (hback : TransGen (Waits serviceStep w) j i) : Link (w.pc i) (w.pc j) := by
  obtain ⟨hi, hj⟩ := deadlocked_of_waits h hback
  obtain ⟨-, row, hasks, hrow⟩ := h
  obtain ⟨-, -, row', hasks', -⟩ := hj.waits
  exact link_of_asking hkeys.orders (asking_of_asks hasks) (hat i).scope
    (holds_of_deadlocked (hat i) hi) (asking_of_asks hasks') hrow (hat j)

variable [DecidableEq ι]

/-- In every interleaving of the services' calls, those of a deadlock are bookings of several
categories, migrations of several orders of one address, or changes of names within one event. -/
theorem deadlocks_alike (hkeyed : Keyed s) (hrun : Run serviceStep anyStep (atCalls s calls) w)
    {i : ι} (h : Deadlocked serviceStep w i) :
    Contends (w.pc i) ∧ ∀ j, TransGen (Waits serviceStep w) i j →
      TransGen (Waits serviceStep w) j i → Alike (w.pc i) (w.pc j) := by
  have hat := at_of_run hrun
  have hkeys := (keyed_of_run hkeyed hrun).primaryKeys
  have hlink : ∀ i j, Waits serviceStep w i j → TransGen (Waits serviceStep w) j i →
      Link (w.pc i) (w.pc j) := fun i j => link_of_waits hkeys hat
  have hkind : ∀ i j, TransGen (Waits serviceStep w) i j → TransGen (Waits serviceStep w) j i →
      kind (w.pc i) = kind (w.pc j) := fun i j =>
    rank_of_cycle (fun i => kind (w.pc i)) fun i j hij hji => (hlink i j hij hji).kind_le
  have halike : ∀ i j, Waits serviceStep w i j → TransGen (Waits serviceStep w) j i →
      Alike (w.pc i) (w.pc j) :=
    fun i j hij hji => (hlink i j hij hji).alike (hkind i j (.single hij) hji)
  refine ⟨?_, fun j => related_of_cycle (R := fun i j => Alike (w.pc i) (w.pc j))
    (fun _ _ _ => Alike.trans) halike⟩
  obtain ⟨j, hji, hij⟩ := h.waited
  obtain ⟨hj, -⟩ := deadlocked_of_waits hji hij
  obtain ⟨k, hne, row, hasks, hrow⟩ := h.waits
  have hfree : row ∉ w.held i := fun hown => hne (w.held_disjoint hown hrow)
  obtain ⟨-, row', hasks', hrow'⟩ := id hji
  exact contends_of_asking (hat i) (asking_of_asks hasks) hfree (halike j i hji hij)
    (asking_of_asks hasks') (holds_of_deadlocked (hat j) hj) hrow'

end Runs

def theatre : Store where
  db := { ticketCategories := [Order.Transactions.parterre, ⟨2, 1, "balcony", 10, 2⟩] }
  seq := { ticketCategories := 3 }

theorem keyed_theatre : Keyed theatre where
  ids model := by
    cases model with
    | ticketCategory => exact ⟨by decide, show ∀ id ∈ [1, 2], id < 3 by decide⟩
    | _ => exact ⟨List.nodup_nil, fun _ h => by cases h⟩
  emails := List.nodup_nil
  categoryNames := List.nodup_nil

def bookBoth (_ : Bool) : Call :=
  .order (.create ⟨⟨some "guest@example.com", [⟨Order.Booking.one, Order.Booking.one⟩,
    ⟨Order.Booking.two, Order.Booking.one⟩], by decide⟩, none⟩)

/-- Two bookings find the categories in opposite orders, and each locks its first. -/
def crossing : List (Bool × ServiceAct) :=
  [(true, .catalog (.order (.select theatre.db.ticketCategories))),
    (false, .catalog (.order (.select theatre.db.ticketCategories.reverse))),
    (true, .catalog (.order .run)), (false, .catalog (.order .run))]

theorem crossing_waits : ∃ w, Run serviceStep anyStep (atCalls theatre bookBoth) w ∧
    Waits serviceStep w true false ∧ Waits serviceStep w false true := by
  have hsteps : ∃ w, (atCalls theatre bookBoth).steps serviceStep crossing = some w ∧
      Asks serviceStep w true (.ticketCategory 2) ∧ Asks serviceStep w false (.ticketCategory 1) ∧
        w.holder (.ticketCategory 1) = some true ∧ w.holder (.ticketCategory 2) = some false :=
    ⟨_, rfl, ⟨.catalog (.order .run), _, rfl⟩, ⟨.catalog (.order .run), _, rfl⟩, rfl, rfl⟩
  obtain ⟨w, hw, hasks, hasks', hholder, hholder'⟩ := hsteps
  exact ⟨w, Run.of_steps hw, ⟨by decide, _, hasks, hholder'⟩, by decide, _, hasks', hholder⟩

theorem deadlocks_alike_crossing :
    ∃ w, Run serviceStep anyStep (atCalls theatre bookBoth) w ∧ Deadlocked serviceStep w true ∧
      Contends (w.pc true) := by
  obtain ⟨w, hrun, hwaits, hwaits'⟩ := crossing_waits
  have hdeadlocked : Deadlocked serviceStep w true := .tail (.single hwaits) hwaits'
  exact ⟨w, hrun, hdeadlocked, (deadlocks_alike keyed_theatre hrun hdeadlocked).1⟩

/-! ## Whom a call waits for -/

theorem not_ended_of_holds {pc : ServicePc} {row : Row} (h : Holds pc row) :
    ¬ Ended pc := by
  have hrunning : stage pc = .running := by
    unfold Holds at h
    split at h
    all_goals first | rfl | exact h.elim
  rintro (hended | ⟨e, hended⟩) <;> cases hrunning.symm.trans hended

theorem holder_next {ι : Type} (i : ι) (s : Store) {pc : ServicePc} {row : Row}
    (h : Holds pc row) : ∃ a : ServiceAct, a.fails = false ∧ (serviceStep i s pc a).isSome := by
  have hopen := not_ended_of_holds h
  have hedit : ∀ {pc : Catalog.System.Pc},
      (systemStep i s pc (.edit (.run 0))).isSome →
      ∃ a : ServiceAct, a.fails = false ∧ (serviceStep i s (.catalog pc) a).isSome :=
    fun h => ⟨.catalog (.edit (.run 0)), rfl, by rwa [serviceStep, Option.isSome_map]⟩
  have horder : ∀ {pc : Order.Transactions.Pc},
      (∃ a, a ≠ .fail ∧ (orderStep i s pc a).isSome) →
      ∃ a : ServiceAct, a.fails = false ∧ (serviceStep i s (.catalog (.order pc)) a).isSome := by
    rintro pc ⟨a, hact, h⟩
    refine ⟨.catalog (.order a), ?_, by rwa [serviceStep, Option.isSome_map,
      systemStep, Option.isSome_map]⟩
    cases a <;> first | rfl | exact absurd rfl hact
  cases pc with
  | catalog pc =>
      cases pc with
      | order pc =>
          refine horder ?_
          cases pc with
          | create pc => simpa [orderStep] using createOrder_next s hopen
          | confirm pc => simpa [orderStep] using confirm_next s hopen
          | expire pc => simpa [orderStep] using expire_next s hopen
          | migrate pc => simpa [orderStep] using migrate_next s hopen
          | waiting => exact h.elim
      | createEvent pc => exact hedit (by simpa [systemStep] using createEvent_next s hopen 0)
      | createCategory pc =>
          exact hedit (by simpa [systemStep] using createCategory_next s hopen 0)
      | updateEvent pc => exact hedit (by simpa [systemStep] using updateEvent_next s hopen 0)
      | transition pc => exact hedit (by simpa [systemStep] using transition_next s hopen 0)
      | createTicketCategory pc =>
          exact hedit (by simpa [systemStep] using createTicketCategory_next s hopen 0)
      | modifyTicketCategory pc =>
          exact hedit (by simpa [systemStep] using modifyTicketCategory_next s hopen 0)
  | users pc =>
      cases pc with
      | create pc =>
          obtain ⟨a, hact, hsome⟩ := createUser_next s hopen
          refine ⟨.users a, ?_, by simpa [serviceStep, userStep] using hsome⟩
          cases a <;> first | rfl | exact absurd rfl hact
      | change pc =>
          cases pc with
          | updated change => exact ⟨.users .run, rfl, rfl⟩
          | _ => exact h.elim

section Runs

variable {ι : Type} [DecidableEq ι] {s : Store} {calls : ι → Call}
  {w : World ι Store Row ServicePc}

/-- In every interleaving of the services' calls, one that has to wait waits, through others,
for a call that can go on or for a deadlocked one. -/
theorem waits_end_of_run {ok : World ι Store Row ServicePc → ι → ServiceAct → Prop}
    (hrun : Run serviceStep ok (atCalls s calls) w) {i j : ι} (h : Waits serviceStep w i j) :
    ∃ k, ReflTransGen (Waits serviceStep w) j k ∧
      (Movable serviceStep (fun a => a.fails = false) w k ∨ Deadlocked serviceStep w k) := by
  have hat := at_of_run hrun
  have hfinite : {i | ((atCalls s calls).held i).Nonempty}.Finite := by
    have hempty : {i | ((atCalls s calls).held i).Nonempty} = ∅ := by
      refine Set.eq_empty_iff_forall_notMem.mpr fun i hi => ?_
      obtain ⟨row, hrow⟩ := hi
      rw [show (atCalls s calls).held i = ∅ from World.start_held s _ i] at hrow
      exact hrow
    rw [hempty]
    exact Set.finite_empty
  refine waits_end (held_finite hrun hfinite) (fun i hi => ?_) h
  obtain ⟨row, hrow⟩ := hi
  exact holder_next i w.shared ((hat i).holds row hrow)

end Runs

theorem waits_end_of_run_crossing :
    ∃ w k, Run serviceStep anyStep (atCalls theatre bookBoth) w ∧
      (Movable serviceStep (fun a => a.fails = false) w k ∨ Deadlocked serviceStep w k) := by
  obtain ⟨w, hrun, hwaits, -⟩ := crossing_waits
  obtain ⟨k, -, hk⟩ := waits_end_of_run hrun hwaits
  exact ⟨w, k, hrun, hk⟩

/-! ## Rows locked in order -/

/-- The categories by their ids, the orders by theirs, and names after categories. -/
def rank : Row → Nat ×ₗ Nat ×ₗ String
  | .user id => toLex (0, toLex (id, ""))
  | .event id => toLex (1, toLex (id, ""))
  | .ticketCategory id => toLex (2, toLex (id, ""))
  | .order id => toLex (3, toLex (id, ""))
  | .userEmail email => toLex (4, toLex (0, email))
  | .eventCategoryName name => toLex (5, toLex (0, name))
  | .ticketCategoryName eventId name => toLex (6, toLex (eventId, name))

theorem rank_inj {row row' : Row} (h : rank row = rank row') : row = row' := by
  cases row <;> cases row' <;> simp_all [rank]

def todoRows : ServicePc → List Row
  | .catalog (.order (.create (.locking _ _ todo))) => todo.map .ticketCategory
  | .catalog (.order (.migrate (.updating _ _ todo _))) => todo.map .order
  | .catalog (.modifyTicketCategory (.locking _ _ keys)) => keys.map nameRow
  | _ => []

def Ascending (pc : ServicePc) : Prop :=
  (todoRows pc).Pairwise fun row row' => rank row ≤ rank row'

instance (pc : ServicePc) : Decidable (Ascending pc) :=
  inferInstanceAs (Decidable (List.Pairwise _ _))

/-- The statement finds its rows in the order of their ids, and its names in their order. -/
def InOrder {ι : Type} (w : World ι Store Row ServicePc) (i : ι) (a : ServiceAct) : Prop :=
  ∀ next ∈ serviceStep i w.shared (w.pc i) a, Ascending next.2

instance {ι : Type} (w : World ι Store Row ServicePc) (i : ι) (a : ServiceAct) :
    Decidable (InOrder w i a) :=
  inferInstanceAs (Decidable (∀ next ∈ serviceStep i w.shared (w.pc i) a, Ascending next.2))

/-- What the call holds comes before what it will lock. -/
def Below (rows : Set Row) (pc : ServicePc) : Prop :=
  ∀ held ∈ rows, ∀ row ∈ todoRows pc, rank held ≤ rank row

section Steps

variable {s : Store} {rows : Set Row} {pc pc' : ServicePc} {a : ServiceAct}
  {eff : Effect Store Row}

theorem below_of_lock {row : Row} {todo : List Row}
    (hbelow : ∀ held ∈ rows, ∀ row' ∈ row :: todo, rank held ≤ rank row')
    (hascending : (row :: todo).Pairwise fun row row' => rank row ≤ rank row') :
    ∀ held ∈ insert row rows, ∀ row' ∈ todo, rank held ≤ rank row' := by
  intro held hheld row' hrow'
  rcases hheld with rfl | hheld
  · exact (List.pairwise_cons.mp hascending).1 row' hrow'
  · exact hbelow held hheld row' (List.mem_cons_of_mem _ hrow')

theorem service_below (h : ServiceStep s pc a eff pc') (hholds : ∀ row ∈ rows, Holds pc row)
    (hascending : Ascending pc) (hbelow : Below rows pc) : Below (eff.held rows) pc' := by
  have hnothing : todoRows pc' = [] → Below (eff.held rows) pc' := fun hnil held _ row hrow => by
    rw [hnil] at hrow
    cases hrow
  cases h with
  | createOrder h =>
      cases Order.Transactions.createStep_cases h with
      | select => exact fun held hheld => (hholds held hheld).elim
      | lock => exact below_of_lock hbelow hascending
      | _ => exact hnothing rfl
  | migrate h =>
      cases Order.Transactions.migrateStep_cases h with
      | findRows => exact fun held hheld => (hholds held hheld).elim
      | lockRow => exact below_of_lock hbelow hascending
      | skipRow => exact fun held hheld row hrow => hbelow held hheld row (.tail _ hrow)
      | _ => exact hnothing rfl
  | @requery call categories rows =>
      refine hnothing ?_
      unfold afterSelect
      split
      · rfl
      · split <;> rfl
  | modifyTicketCategory h =>
      cases Catalog.Transactions.modifyStep_cases h with
      | lockRow =>
          intro held hheld row hrow
          obtain ⟨key, -, rfl⟩ := List.mem_map.mp hrow
          rcases hheld with rfl | hheld
          · exact Prod.Lex.toLex_le_toLex.mpr (.inl (show 2 < 6 by decide))
          · exact (hholds held hheld).elim
      | lockName => exact below_of_lock hbelow hascending
      | _ => exact hnothing rfl
  | _ => exact hnothing rfl

theorem rank_lt_of_asking {row held : Row} (h : Asking s pc row)
    (hholds : ∀ row ∈ rows, Holds pc row) (hbelow : Below rows pc) (hheld : held ∈ rows)
    (hfree : row ∉ rows) : rank held < rank row := by
  have hne : rank held ≠ rank row := fun heq => hfree (rank_inj heq ▸ hheld)
  cases h with
  | category => exact lt_of_le_of_ne (hbelow held hheld _ (.head _)) hne
  | order => exact lt_of_le_of_ne (hbelow held hheld _ (.head _)) hne
  | name => exact lt_of_le_of_ne (hbelow held hheld _ (.head _)) hne
  | first hnone => exact absurd (hholds held hheld) (hnone held)

end Steps

section Runs

variable {ι : Type} {s : Store} {calls : ι → Call} {w : World ι Store Row ServicePc}

def orderedOutline : Outline ι Store Row ServicePc where
  inv _ := True
  at_ _ _ rows pc :=
    ((∀ row ∈ rows, Holds pc row) ∧ InScope pc) ∧ Ascending pc ∧ Below rows pc
  apart _ _ := True

theorem orderedOutline_sound : (orderedOutline (ι := ι)).Sound serviceStep InOrder where
  own w i a eff pc hw hok hP _ := by
    have hstep := serviceStep_cases hP
    obtain ⟨⟨hholds, hscope⟩, hascending, hbelow⟩ := hw.at_ i
    refine ⟨trivial, ⟨service_holds hstep hscope hholds, service_scope hstep hscope⟩, ?_,
      service_below hstep hholds hascending hbelow⟩
    exact hok _ hP
  frame w i j a eff pc hw _ _ _ _ := ⟨hw.at_ j, trivial, trivial⟩

variable [DecidableEq ι]

/-- In every interleaving in which the statements find their rows in order, no call is
deadlocked, and a call that has to wait waits, through others, for one that can go on. -/
theorem ordered_calls_go_on (hrun : Run serviceStep InOrder (atCalls s calls) w) :
    (∀ i, ¬ Deadlocked serviceStep w i) ∧ ∀ i j, Waits serviceStep w i j →
      ∃ k, ReflTransGen (Waits serviceStep w) j k ∧
        Movable serviceStep (fun a => a.fails = false) w k := by
  have hvalid : (orderedOutline (ι := ι)).Valid w := by
    refine orderedOutline_sound.run hrun ⟨trivial, fun i => ?_, fun _ _ _ => trivial⟩
    have hat : At s ((atCalls s calls).held i) (calls i).pc :=
      at_of_run (Run.refl : Run serviceStep anyStep _ _) i
    have hnil : todoRows (calls i).pc = [] := by
      rcases calls i with call | call | call <;> cases call <;> rfl
    refine ⟨⟨hat.holds, hat.scope⟩, ?_, fun held _ row hrow => ?_⟩
    · show List.Pairwise _ (todoRows (calls i).pc)
      rw [hnil]
      exact .nil
    · have hmem : row ∈ todoRows (calls i).pc := hrow
      rw [hnil] at hmem
      cases hmem
  have hnever : ∀ i, ¬ Deadlocked serviceStep w i :=
    not_deadlocked_of_ordered rank fun i row held hasks hheld hfree =>
      rank_lt_of_asking (asking_of_asks hasks) (hvalid.at_ i).1.1 (hvalid.at_ i).2.2 hheld hfree
  refine ⟨hnever, fun i j h => ?_⟩
  obtain ⟨k, hjk, hmove | hdeadlock⟩ := waits_end_of_run hrun h
  · exact ⟨k, hjk, hmove⟩
  · exact absurd hdeadlock (hnever k)

end Runs

/-- The second booking waits for the first one, which goes on. -/
theorem ordered_calls_go_on_theatre :
    ∃ w, Run serviceStep InOrder (atCalls theatre bookBoth) w ∧
      ∃ k, Movable serviceStep (fun a => a.fails = false) w k := by
  have hsteps : ∃ w, (atCalls theatre bookBoth).guardedSteps serviceStep InOrder
      [(true, .catalog (.order (.select theatre.db.ticketCategories))),
        (true, .catalog (.order .run)),
        (false, .catalog (.order (.select theatre.db.ticketCategories)))] = some w ∧
      Asks serviceStep w false (.ticketCategory 1) ∧ w.holder (.ticketCategory 1) = some true :=
    ⟨_, rfl, ⟨.catalog (.order .run), _, rfl⟩, rfl⟩
  obtain ⟨w, hw, hasks, hholder⟩ := hsteps
  have hrun : Run serviceStep InOrder (atCalls theatre bookBoth) w := Run.of_guardedSteps hw
  obtain ⟨k, -, hk⟩ := (ordered_calls_go_on hrun).2 false true ⟨by decide, _, hasks, hholder⟩
  exact ⟨w, hrun, k, hk⟩

end TicketBooking.App.Deadlocks
