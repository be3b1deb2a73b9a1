import Mathlib.Data.Prod.Lex
import TicketBooking.App.Violations
/-!
# Calls come to an end

Every statement brings its call nearer to the end, and a call that has not ended
has a next statement.  Only a lock can make it wait.
-/

namespace TicketBooking.App.Progress

open TicketBooking.App.Exceptions (AppException)
open TicketBooking.App.Violations
open TicketBooking.Catalog.System (systemStep)
open TicketBooking.Catalog.Transactions
open TicketBooking.Database.Shared TicketBooking.Database.Tables
open TicketBooking.Library.Sessions
open TicketBooking.Order.Booking (ownerGiven selectedCategories)
open TicketBooking.Order.Transactions (ConfirmPc ExpirePc MigratePc anonymousOrderIds chunkSize
  confirmStep expireStep migrateStep orderStep)
open TicketBooking.Users.Authentication (ServicePc)
open TicketBooking.Users.Transactions (ChangePc UserAct UserPc changeStep userStep)

/-! ## How far a call is -/

def createOrderPhase : Order.Transactions.CreatePc → Nat
  | .start _ => 6
  | .locking _ _ _ => 5
  | .selected _ _ => 4
  | .insertingItems _ _ _ => 3
  | .insertingTickets _ _ _ _ => 2
  | .committed _ _ => 1
  | .finished _ _ => 0

def confirmPhase : ConfirmPc → Nat
  | .start _ => 5
  | .updated _ => 4
  | .itemsRead _ _ => 3
  | .ticketsUpdated _ _ => 2
  | .missed _ => 1
  | .committed _ => 1
  | .finished _ => 0

def expirePhase : ExpirePc → Nat
  | .start _ => 3
  | .updated _ => 2
  | .missed _ => 1
  | .ticketsDeleted _ _ => 1
  | .finished _ => 0

def migratePhase : MigratePc → Nat
  | .start _ => 3
  | .userRead _ _ => 2
  | .updating _ _ _ _ => 1
  | .finished _ => 0

def createEventPhase : CreatePc → Nat
  | .start _ _ => 3
  | .notLeaf _ => 1
  | .checked _ _ => 2
  | .inserted _ => 1
  | .finished _ => 0

def createCategoryPhase : CategoryPc → Nat
  | .start _ => 6
  | .parentRead _ _ => 5
  | .checked _ => 4
  | .inserting _ => 3
  | .keyed _ => 2
  | .inserted _ => 1
  | .finished _ => 0

def updateEventPhase : UpdatePc → Nat
  | .start _ _ _ => 3
  | .missed _ _ => 1
  | .matched _ _ => 2
  | .updated _ => 1
  | .finished _ => 0

def transitionPhase : TransitionPc → Nat
  | .start _ => 2
  | .missed _ => 1
  | .updated _ => 1
  | .finished _ => 0

def createTicketCategoryPhase : TicketCategoryPc → Nat
  | .start _ _ => 5
  | .checked _ => 4
  | .inserting _ => 3
  | .keyed _ => 2
  | .inserted _ => 1
  | .finished _ => 0

def modifyTicketCategoryPhase : ModifyPc → Nat
  | .start _ _ _ => 5
  | .categoryRead _ _ _ _ => 4
  | .checked _ _ _ => 3
  | .locking _ _ _ => 2
  | .modified _ _ => 1
  | .unmatched => 1
  | .finished _ => 0

def createUserPhase : Users.Transactions.CreatePc → Nat
  | .start _ => 6
  | .checked _ => 5
  | .inserting _ => 4
  | .keyed _ => 3
  | .inserted _ => 2
  | .committed _ => 1
  | .finished _ => 0

def changePhase : ChangePc → Nat
  | .start _ => 2
  | .missed _ => 1
  | .updated _ => 1
  | .finished _ => 0

/-- The statements of different kinds that are left, at most. -/
def phase : ServicePc → Nat
  | .catalog (.order (.create pc)) => createOrderPhase pc
  | .catalog (.order (.confirm pc)) => confirmPhase pc
  | .catalog (.order .waiting) => 4
  | .catalog (.order (.expire pc)) => expirePhase pc
  | .catalog (.order (.migrate pc)) => migratePhase pc
  | .catalog (.createEvent pc) => createEventPhase pc
  | .catalog (.createCategory pc) => createCategoryPhase pc
  | .catalog (.updateEvent pc) => updateEventPhase pc
  | .catalog (.transition pc) => transitionPhase pc
  | .catalog (.createTicketCategory pc) => createTicketCategoryPhase pc
  | .catalog (.modifyTicketCategory pc) => modifyTicketCategoryPhase pc
  | .users (.create pc) => createUserPhase pc
  | .users (.change pc) => changePhase pc

def todo : ServicePc → Nat
  | .catalog (.order (.create (.locking _ _ todo))) => todo.length
  | .catalog (.order (.create (.insertingItems _ _ todo))) => todo.length
  | .catalog (.order (.create (.insertingTickets _ _ _ todo))) => todo.length
  | .catalog (.order (.migrate (.updating _ _ todo _))) => todo.length
  | .catalog (.modifyTicketCategory (.locking _ _ keys)) => keys.length
  | _ => 0

theorem phase_lt (pc : ServicePc) : phase pc < 7 := by
  unfold phase
  split
  case h_1 pc => cases pc <;> simp [createOrderPhase]
  case h_2 pc => cases pc <;> simp [confirmPhase]
  case h_3 => decide
  case h_4 pc => cases pc <;> simp [expirePhase]
  case h_5 pc => cases pc <;> simp [migratePhase]
  case h_6 pc => cases pc <;> simp [createEventPhase]
  case h_7 pc => cases pc <;> simp [createCategoryPhase]
  case h_8 pc => cases pc <;> simp [updateEventPhase]
  case h_9 pc => cases pc <;> simp [transitionPhase]
  case h_10 pc => cases pc <;> simp [createTicketCategoryPhase]
  case h_11 pc => cases pc <;> simp [modifyTicketCategoryPhase]
  case h_12 pc => cases pc <;> simp [createUserPhase]
  case h_13 pc => cases pc <;> simp [changePhase]

/-- A statement goes to a later kind, or leaves fewer rows to its own. -/
def Nearer (pc' pc : ServicePc) : Prop :=
  phase pc' < phase pc ∨ phase pc' = phase pc ∧ todo pc' < todo pc

section Catalog

variable {s : Store} {a : EditAct} {eff : Effect Store Row}

theorem createEvent_nearer {pc pc' : CreatePc} (h : createStep s pc a = some (eff, pc')) :
    Nearer (.catalog (.createEvent pc')) (.catalog (.createEvent pc)) := by
  refine .inl ?_
  cases createStep_cases h with
  | quits =>
      cases pc with
      | finished result => cases h
      | _ => simp [phase, createEventPhase]
  | _ => simp [phase, createEventPhase]

theorem createCategory_nearer {pc pc' : CategoryPc} (h : categoryStep s pc a = some (eff, pc')) :
    Nearer (.catalog (.createCategory pc')) (.catalog (.createCategory pc)) := by
  refine .inl ?_
  cases categoryStep_cases h with
  | quits =>
      cases pc with
      | finished result => cases h
      | _ => simp [phase, createCategoryPhase]
  | _ => simp [phase, createCategoryPhase]

theorem updateEvent_nearer {pc pc' : UpdatePc} (h : updateStep s pc a = some (eff, pc')) :
    Nearer (.catalog (.updateEvent pc')) (.catalog (.updateEvent pc)) := by
  refine .inl ?_
  cases updateStep_cases h with
  | quits =>
      cases pc with
      | finished result => cases h
      | _ => simp [phase, updateEventPhase]
  | _ => simp [phase, updateEventPhase]

theorem transition_nearer {pc pc' : TransitionPc} (h : transitionStep s pc a = some (eff, pc')) :
    Nearer (.catalog (.transition pc')) (.catalog (.transition pc)) := by
  refine .inl ?_
  cases transitionStep_cases h with
  | quits =>
      cases pc with
      | finished result => cases h
      | _ => simp [phase, transitionPhase]
  | _ => simp [phase, transitionPhase]

theorem createTicketCategory_nearer {pc pc' : TicketCategoryPc}
    (h : ticketCategoryStep s pc a = some (eff, pc')) :
    Nearer (.catalog (.createTicketCategory pc')) (.catalog (.createTicketCategory pc)) := by
  refine .inl ?_
  cases ticketCategoryStep_cases h with
  | quits =>
      cases pc with
      | finished result => cases h
      | _ => simp [phase, createTicketCategoryPhase]
  | _ => simp [phase, createTicketCategoryPhase]

theorem modifyTicketCategory_nearer {pc pc' : ModifyPc} (h : modifyStep s pc a = some (eff, pc')) :
    Nearer (.catalog (.modifyTicketCategory pc')) (.catalog (.modifyTicketCategory pc)) := by
  cases modifyStep_cases h with
  | lockName => exact .inr ⟨rfl, Nat.lt_succ_self _⟩
  | quits =>
      cases pc with
      | finished result => cases h
      | _ => exact .inl (by simp [phase, modifyTicketCategoryPhase])
  | _ => exact .inl (by simp [phase, modifyTicketCategoryPhase])

end Catalog

section Order

variable {s : Store} {a : Order.Transactions.Act} {eff : Effect Store Row}

theorem length_drop_chunkSize {α : Type} (x : α) (xs : List α) :
    ((x :: xs).drop chunkSize).length < (x :: xs).length := by
  rw [List.length_drop]
  exact Nat.sub_lt (Nat.succ_pos _) (by decide)

theorem createOrder_nearer {pc pc' : Order.Transactions.CreatePc}
    (h : Order.Transactions.createStep s pc a = some (eff, pc')) :
    Nearer (.catalog (.order (.create pc'))) (.catalog (.order (.create pc))) := by
  cases Order.Transactions.createStep_cases h with
  | lock => exact .inr ⟨rfl, Nat.lt_succ_self _⟩
  | @insertItems order items todo =>
      cases todo with
      | nil => cases h
      | cons item todo => exact .inr ⟨rfl, length_drop_chunkSize item todo⟩
  | @insertTickets order items tickets todo =>
      cases todo with
      | nil => cases h
      | cons ticket todo => exact .inr ⟨rfl, length_drop_chunkSize ticket todo⟩
  | fails =>
      cases pc with
      | finished committed result => cases h
      | _ => exact .inl (by simp [phase, createOrderPhase])
  | _ => exact .inl (by simp [phase, createOrderPhase])

theorem confirm_nearer {pc pc' : ConfirmPc} (h : confirmStep s pc a = some (eff, pc')) :
    Nearer (.catalog (.order (.confirm pc'))) (.catalog (.order (.confirm pc))) := by
  refine .inl ?_
  cases Order.Transactions.confirmStep_cases h with
  | fails =>
      cases pc with
      | finished result => cases h
      | _ => simp [phase, confirmPhase]
  | _ => simp [phase, confirmPhase]

theorem expire_nearer {pc pc' : ExpirePc} (h : expireStep s pc a = some (eff, pc')) :
    Nearer (.catalog (.order (.expire pc'))) (.catalog (.order (.expire pc))) := by
  refine .inl ?_
  cases Order.Transactions.expireStep_cases h with
  | fails =>
      cases pc with
      | finished result => cases h
      | _ => simp [phase, expirePhase]
  | _ => simp [phase, expirePhase]

theorem migrate_nearer {pc pc' : MigratePc} (h : migrateStep s pc a = some (eff, pc')) :
    Nearer (.catalog (.order (.migrate pc'))) (.catalog (.order (.migrate pc))) := by
  cases Order.Transactions.migrateStep_cases h with
  | lockRow => exact .inr ⟨rfl, Nat.lt_succ_self _⟩
  | skipRow => exact .inr ⟨rfl, Nat.lt_succ_self _⟩
  | fails =>
      cases pc with
      | finished result => cases h
      | _ => exact .inl (by simp [phase, migratePhase])
  | _ => exact .inl (by simp [phase, migratePhase])

end Order

section Users

variable {s : Store} {a : UserAct} {eff : Effect Store Row}

theorem createUser_nearer {pc pc' : Users.Transactions.CreatePc}
    (h : Users.Transactions.createStep s pc a = some (eff, pc')) :
    Nearer (.users (.create pc')) (.users (.create pc)) := by
  refine .inl ?_
  cases Users.Transactions.createStep_cases h with
  | quits =>
      cases pc with
      | finished result => cases h
      | _ => simp [phase, createUserPhase]
  | _ => simp [phase, createUserPhase]

theorem change_nearer {pc pc' : ChangePc} (h : changeStep s pc a = some (eff, pc')) :
    Nearer (.users (.change pc')) (.users (.change pc)) := by
  refine .inl ?_
  cases Users.Transactions.changeStep_cases h with
  | quits =>
      cases pc with
      | finished result => cases h
      | _ => simp [phase, changePhase]
  | _ => simp [phase, changePhase]

end Users

/-- Every statement brings its call nearer to the end. -/
theorem service_nearer {s : Store} {pc pc' : ServicePc} {a : ServiceAct} {eff : Effect Store Row}
    (h : ServiceStep s pc a eff pc') : Nearer pc' pc := by
  cases h with
  | createOrder h => exact createOrder_nearer h
  | confirm h => exact confirm_nearer h
  | expire h => exact expire_nearer h
  | migrate h => exact migrate_nearer h
  | fire => exact .inl (by simp [phase, expirePhase])
  | @requery call categories rows hrows =>
      refine .inl ?_
      unfold Order.Transactions.afterSelect
      split
      · simp [phase, createOrderPhase]
      · split <;> simp [phase, createOrderPhase]
  | createEvent h => exact createEvent_nearer h
  | createCategory h => exact createCategory_nearer h
  | updateEvent h => exact updateEvent_nearer h
  | transition h => exact transition_nearer h
  | createTicketCategory h => exact createTicketCategory_nearer h
  | modifyTicketCategory h => exact modifyTicketCategory_nearer h
  | createUser h => exact createUser_nearer h
  | change h => exact change_nearer h

/-! ## The next statement -/

def Ended (pc : ServicePc) : Prop := stage pc = .returned ∨ ∃ e, stage pc = .raised e

theorem ended_of_finished {α : Type} {pc : ServicePc} {result : Except AppException α}
    (h : stage pc = ended result) : Ended pc := by
  cases result with
  | ok value => exact .inl h
  | error e => exact .inr ⟨e, h⟩

section Next

variable (s : Store)

theorem createOrder_next {pc : Order.Transactions.CreatePc}
    (hopen : ¬ Ended (.catalog (.order (.create pc)))) :
    ∃ a, a ≠ .fail ∧ (Order.Transactions.createStep s pc a).isSome := by
  cases pc with
  | start call =>
      by_cases howner : ownerGiven call = true
      · refine ⟨.select (selectedCategories s.db call.data.items), by simp, ?_⟩
        simp [Order.Transactions.createStep, howner, List.isPerm_iff]
      · refine ⟨.run, by simp, ?_⟩
        simp [Order.Transactions.createStep, howner]
  | locking call categories todo => cases todo <;> exact ⟨.run, by simp, rfl⟩
  | selected call data =>
      refine ⟨.run, by simp, ?_⟩
      simp only [Order.Transactions.createStep]
      split <;> rfl
  | insertingItems order items todo => cases todo <;> exact ⟨.run, by simp, rfl⟩
  | insertingTickets order items tickets todo => cases todo <;> exact ⟨.run, by simp, rfl⟩
  | committed order items => exact ⟨.perform 0 0, by simp, rfl⟩
  | finished committed result => exact absurd (ended_of_finished rfl) hopen

theorem confirm_next {pc : ConfirmPc} (hopen : ¬ Ended (.catalog (.order (.confirm pc)))) :
    ∃ a, a ≠ .fail ∧ (confirmStep s pc a).isSome := by
  cases pc with
  | start objId =>
      refine ⟨.run, by simp, ?_⟩
      simp only [confirmStep]
      split <;> rfl
  | missed objId =>
      refine ⟨.run, by simp, ?_⟩
      simp only [confirmStep]
      split
      · rfl
      · split <;> rfl
  | committed objId => exact ⟨.perform 0 0, by simp, rfl⟩
  | finished result => exact absurd (ended_of_finished rfl) hopen
  | _ => exact ⟨.run, by simp, rfl⟩

theorem expire_next {pc : ExpirePc} (hopen : ¬ Ended (.catalog (.order (.expire pc)))) :
    ∃ a, a ≠ .fail ∧ (expireStep s pc a).isSome := by
  cases pc with
  | start objId =>
      refine ⟨.run, by simp, ?_⟩
      simp only [expireStep]
      split <;> rfl
  | missed objId =>
      refine ⟨.run, by simp, ?_⟩
      simp only [expireStep]
      split <;> rfl
  | finished result => exact absurd (ended_of_finished rfl) hopen
  | _ => exact ⟨.run, by simp, rfl⟩

theorem migrate_next {pc : MigratePc} (hopen : ¬ Ended (.catalog (.order (.migrate pc)))) :
    ∃ a, a ≠ .fail ∧ (migrateStep s pc a).isSome := by
  cases pc with
  | start email =>
      refine ⟨.run, by simp, ?_⟩
      simp only [migrateStep]
      split <;> rfl
  | userRead email userId =>
      refine ⟨.rows (anonymousOrderIds s.db email), by simp, ?_⟩
      simp [migrateStep, List.isPerm_iff]
  | updating email userId todo done =>
      refine ⟨.run, by simp, ?_⟩
      cases todo with
      | nil =>
          simp only [migrateStep]
          split <;> rfl
      | cons id todo =>
          simp only [migrateStep]
          split <;> rfl
  | finished result => exact absurd (ended_of_finished rfl) hopen

theorem createEvent_next {pc : CreatePc} (hopen : ¬ Ended (.catalog (.createEvent pc)))
    (now : Int) : (createStep s pc (.run now)).isSome := by
  cases pc with
  | notLeaf data =>
      simp only [createStep]
      split <;> rfl
  | checked data userId =>
      simp only [createStep]
      split
      · rfl
      · split <;> rfl
  | finished result => exact absurd (ended_of_finished rfl) hopen
  | _ => rfl

theorem createCategory_next {pc : CategoryPc} (hopen : ¬ Ended (.catalog (.createCategory pc)))
    (now : Int) : (categoryStep s pc (.run now)).isSome := by
  cases pc with
  | start data =>
      simp only [categoryStep]
      split
      · rfl
      · split <;> rfl
  | parentRead data parentId =>
      simp only [categoryStep]
      split <;> rfl
  | keyed category =>
      simp only [categoryStep]
      split <;> rfl
  | finished result => exact absurd (ended_of_finished rfl) hopen
  | _ => rfl

theorem updateEvent_next {pc : UpdatePc} (hopen : ¬ Ended (.catalog (.updateEvent pc)))
    (now : Int) : (updateStep s pc (.run now)).isSome := by
  cases pc with
  | start data userId eventId =>
      simp only [updateStep]
      split <;> rfl
  | missed userId eventId =>
      simp only [updateStep]
      split <;> rfl
  | matched data event =>
      simp only [updateStep]
      split
      · rfl
      · split_ifs <;> rfl
  | updated event => rfl
  | finished result => exact absurd (ended_of_finished rfl) hopen

theorem transition_next {pc : TransitionPc} (hopen : ¬ Ended (.catalog (.transition pc)))
    (now : Int) : (transitionStep s pc (.run now)).isSome := by
  cases pc with
  | start t =>
      simp only [transitionStep]
      split <;> rfl
  | missed t =>
      simp only [transitionStep]
      split
      · rfl
      · split <;> rfl
  | updated t => rfl
  | finished result => exact absurd (ended_of_finished rfl) hopen

theorem createTicketCategory_next {pc : TicketCategoryPc}
    (hopen : ¬ Ended (.catalog (.createTicketCategory pc))) (now : Int) :
    (ticketCategoryStep s pc (.run now)).isSome := by
  cases pc with
  | start userId data =>
      simp only [ticketCategoryStep]
      split <;> rfl
  | keyed category =>
      simp only [ticketCategoryStep]
      split_ifs <;> rfl
  | finished result => exact absurd (ended_of_finished rfl) hopen
  | _ => rfl

theorem modifyTicketCategory_next {pc : ModifyPc}
    (hopen : ¬ Ended (.catalog (.modifyTicketCategory pc))) (now : Int) :
    (modifyStep s pc (.run now)).isSome := by
  cases pc with
  | start userId objId change =>
      simp only [modifyStep]
      split <;> rfl
  | categoryRead userId objId change category =>
      simp only [modifyStep]
      split <;> rfl
  | checked objId change category =>
      simp only [modifyStep]
      split <;> rfl
  | locking category change keys =>
      cases keys with
      | nil =>
          simp only [modifyStep]
          split <;> rfl
      | cons key keys => rfl
  | finished result => exact absurd (ended_of_finished rfl) hopen
  | _ => rfl

theorem createUser_next {pc : Users.Transactions.CreatePc}
    (hopen : ¬ Ended (.users (.create pc))) :
    ∃ a, a ≠ .fail ∧ (Users.Transactions.createStep s pc a).isSome := by
  cases pc with
  | start data =>
      refine ⟨.run, by simp, ?_⟩
      simp only [Users.Transactions.createStep]
      split <;> rfl
  | keyed user =>
      refine ⟨.run, by simp, ?_⟩
      simp only [Users.Transactions.createStep]
      split <;> rfl
  | committed user => exact ⟨.perform 0 0, by simp, rfl⟩
  | finished result => exact absurd (ended_of_finished rfl) hopen
  | _ => exact ⟨.run, by simp, rfl⟩

theorem change_next {pc : ChangePc} (hfound : Found s.db (.users (.change pc)))
    (hopen : ¬ Ended (.users (.change pc))) : (changeStep s pc .run).isSome := by
  cases pc with
  | start call =>
      obtain ⟨answer, hchange⟩ := Option.isSome_iff_exists.mp hfound
      simp only [changeStep, hchange]
      cases answer with
      | error e => rfl
      | ok change =>
          simp only
          split <;> rfl
  | missed change =>
      simp only [changeStep]
      split <;> rfl
  | updated change => rfl
  | finished result => exact absurd (ended_of_finished rfl) hopen

/-- A call that has not ended has a next statement; a worker waits for the
scheduler. -/
theorem service_next {ι : Type} (i : ι) {pc : ServicePc} (hfound : Found s.db pc)
    (hopen : ¬ Ended pc) (hwaiting : pc ≠ .catalog (.order .waiting)) :
    ∃ a : ServiceAct, a.fails = false ∧ (serviceStep i s pc a).isSome := by
  have hedit : ∀ {pc : Catalog.System.Pc}, (systemStep i s pc (.edit (.run 0))).isSome →
      ∃ a : ServiceAct, a.fails = false ∧ (serviceStep i s (.catalog pc) a).isSome :=
    fun h => ⟨.catalog (.edit (.run 0)), rfl, by rwa [serviceStep, Option.isSome_map]⟩
  have horder : ∀ {pc : Order.Transactions.Pc},
      (∃ a, a ≠ .fail ∧ (orderStep i s pc a).isSome) →
      ∃ a : ServiceAct, a.fails = false ∧ (serviceStep i s (.catalog (.order pc)) a).isSome := by
    rintro pc ⟨a, hact, h⟩
    refine ⟨.catalog (.order a), ?_, by rwa [serviceStep, Option.isSome_map, systemStep,
      Option.isSome_map]⟩
    cases a <;> first | rfl | exact absurd rfl hact
  cases pc with
  | catalog pc =>
      cases pc with
      | order pc =>
          refine horder ?_
          cases pc with
          | create pc => simpa [orderStep] using createOrder_next s hopen
          | confirm pc => simpa [orderStep] using confirm_next s hopen
          | expire pc => simpa [orderStep] using expire_next s hopen
          | migrate pc => simpa [orderStep] using migrate_next s hopen
          | waiting => exact absurd rfl hwaiting
      | createEvent pc =>
          exact hedit (by simpa [systemStep] using createEvent_next s hopen 0)
      | createCategory pc =>
          exact hedit (by simpa [systemStep] using createCategory_next s hopen 0)
      | updateEvent pc =>
          exact hedit (by simpa [systemStep] using updateEvent_next s hopen 0)
      | transition pc =>
          exact hedit (by simpa [systemStep] using transition_next s hopen 0)
      | createTicketCategory pc =>
          exact hedit (by simpa [systemStep] using createTicketCategory_next s hopen 0)
      | modifyTicketCategory pc =>
          exact hedit (by simpa [systemStep] using modifyTicketCategory_next s hopen 0)
  | users pc =>
      cases pc with
      | create pc =>
          obtain ⟨a, hact, h⟩ := createUser_next s hopen
          refine ⟨.users a, ?_, by simpa [serviceStep, userStep] using h⟩
          cases a <;> first | rfl | exact absurd rfl hact
      | change pc =>
          refine ⟨.users .run, rfl, ?_⟩
          simpa [serviceStep, userStep] using change_next s hfound hopen

end Next

end TicketBooking.App.Progress
