import TicketBooking.Catalog.Transactions
import TicketBooking.Order.Transactions
/-!
# All sessions that touch the catalog

The event and ticket services together with the order service, and what one
statement of any of them does to events, event categories and ticket categories.
-/

namespace TicketBooking.Catalog.System

open TicketBooking.Catalog.Editing TicketBooking.Catalog.Transactions
open TicketBooking.Database.Shared TicketBooking.Database.Tables
open TicketBooking.Library.Sessions
open TicketBooking.Order.Booking (CreateCall)

inductive Pc
  | order (pc : Order.Transactions.Pc)
  | createEvent (pc : CreatePc)
  | createCategory (pc : CategoryPc)
  | updateEvent (pc : UpdatePc)
  | transition (pc : TransitionPc)
  | createTicketCategory (pc : TicketCategoryPc)
  | modifyTicketCategory (pc : ModifyPc)

inductive Act
  | order (a : Order.Transactions.Act)
  | edit (a : EditAct)
  deriving DecidableEq

def systemStep {ι : Type} : Protocol ι Store Row Pc Act
  | i, s, .order pc, .order a =>
      (Order.Transactions.orderStep i s pc a).map fun (eff, pc) => (eff, .order pc)
  | _, s, .createEvent pc, .edit a =>
      (createStep s pc a).map fun (eff, pc) => (eff, .createEvent pc)
  | _, s, .createCategory pc, .edit a =>
      (categoryStep s pc a).map fun (eff, pc) => (eff, .createCategory pc)
  | _, s, .updateEvent pc, .edit a =>
      (updateStep s pc a).map fun (eff, pc) => (eff, .updateEvent pc)
  | _, s, .transition pc, .edit a =>
      (transitionStep s pc a).map fun (eff, pc) => (eff, .transition pc)
  | _, s, .createTicketCategory pc, .edit a =>
      (ticketCategoryStep s pc a).map fun (eff, pc) => (eff, .createTicketCategory pc)
  | _, s, .modifyTicketCategory pc, .edit a =>
      (modifyStep s pc a).map fun (eff, pc) => (eff, .modifyTicketCategory pc)
  | _, _, _, _ => none

inductive Call
  | createOrder (call : CreateCall)
  | createEvent (data : EventCreateSchema) (userId : Nat)
  | createCategory (data : EventCategoryCreateSchema)
  | updateEvent (data : EventUpdateSchema) (userId eventId : Nat)
  | publish (userId eventId : Nat)
  | cancel (eventId userId : Nat)
  | moderate (eventId : Nat) (result : Bool)
  | createTicketCategory (userId : Nat) (data : TicketCategoryCreateSchema)
  | updateTicketCategory (userId objId : Nat) (data : TicketCategoryUpdateSchema)
  | deleteTicketCategory (userId objId : Nat)

def Call.pc : Call → Pc
  | .createOrder call => .order (.create (.start call))
  | .createEvent data userId => .createEvent (.start data userId)
  | .createCategory data => .createCategory (.start data)
  | .updateEvent data userId eventId => .updateEvent (.start data userId eventId)
  | .publish userId eventId => .transition (.start (Editing.publish userId eventId))
  | .cancel eventId userId => .transition (.start (Editing.cancel eventId userId))
  | .moderate eventId result => .transition (.start (Editing.moderate eventId result))
  | .createTicketCategory userId data => .createTicketCategory (.start userId data)
  | .updateTicketCategory userId objId data =>
      .modifyTicketCategory (.start userId objId (.update data))
  | .deleteTicketCategory userId objId => .modifyTicketCategory (.start userId objId .delete)

def atCalls {ι : Type} (s : Store) (calls : ι → Call) : World ι Store Row Pc :=
  World.start s fun i => (calls i).pc

/-! ## What each statement does -/

inductive SystemStep (s : Store) : Pc → Act → Effect Store Row → Pc → Prop
  | order {ι : Type} {i : ι} {pc pc' : Order.Transactions.Pc} {a : Order.Transactions.Act}
      {eff : Effect Store Row} (h : Order.Transactions.orderStep i s pc a = some (eff, pc')) :
      SystemStep s (.order pc) (.order a) eff (.order pc')
  | createEvent {pc pc' : CreatePc} {a : EditAct} {eff : Effect Store Row}
      (h : CreateStep s pc a eff pc') :
      SystemStep s (.createEvent pc) (.edit a) eff (.createEvent pc')
  | createCategory {pc pc' : CategoryPc} {a : EditAct} {eff : Effect Store Row}
      (h : CategoryStep s pc a eff pc') :
      SystemStep s (.createCategory pc) (.edit a) eff (.createCategory pc')
  | updateEvent {pc pc' : UpdatePc} {a : EditAct} {eff : Effect Store Row}
      (h : UpdateStep s pc a eff pc') :
      SystemStep s (.updateEvent pc) (.edit a) eff (.updateEvent pc')
  | transition {pc pc' : TransitionPc} {a : EditAct} {eff : Effect Store Row}
      (h : TransitionStep s pc a eff pc') :
      SystemStep s (.transition pc) (.edit a) eff (.transition pc')
  | createTicketCategory {pc pc' : TicketCategoryPc} {a : EditAct} {eff : Effect Store Row}
      (h : TicketCategoryStep s pc a eff pc') :
      SystemStep s (.createTicketCategory pc) (.edit a) eff (.createTicketCategory pc')
  | modifyTicketCategory {pc pc' : ModifyPc} {a : EditAct} {eff : Effect Store Row}
      (h : ModifyStep s pc a eff pc') :
      SystemStep s (.modifyTicketCategory pc) (.edit a) eff (.modifyTicketCategory pc')

theorem systemStep_cases {ι : Type} {i : ι} {s : Store} {pc pc' : Pc} {a : Act}
    {eff : Effect Store Row} (h : systemStep i s pc a = some (eff, pc')) :
    SystemStep s pc a eff pc' := by
  cases pc <;> cases a <;> simp only [systemStep, Option.map_eq_some_iff, reduceCtorEq] at h
  all_goals
    obtain ⟨⟨eff', pc''⟩, h, heq⟩ := h
    cases heq
  · exact .order h
  · exact .createEvent (createStep_cases h)
  · exact .createCategory (categoryStep_cases h)
  · exact .updateEvent (updateStep_cases h)
  · exact .transition (transitionStep_cases h)
  · exact .createTicketCategory (ticketCategoryStep_cases h)
  · exact .modifyTicketCategory (modifyStep_cases h)

/-- The catalog is as it was; a sequence may have advanced. -/
structure Kept (s s' : Store) : Prop where
  events : s'.db.events = s.db.events
  eventCategories : s'.db.eventCategories = s.db.eventCategories
  ticketCategories : s'.db.ticketCategories = s.db.ticketCategories
  eventSeq : s.seq.events ≤ s'.seq.events
  eventCategorySeq : s.seq.eventCategories ≤ s'.seq.eventCategories
  ticketCategorySeq : s.seq.ticketCategories ≤ s'.seq.ticketCategories

theorem Kept.refl (s : Store) : Kept s s := ⟨rfl, rfl, rfl, le_rfl, le_rfl, le_rfl⟩

/-- The statements of the order service leave the catalog alone. -/
theorem orderStep_kept {ι : Type} {i : ι} {s : Store} {pc pc' : Order.Transactions.Pc}
    {a : Order.Transactions.Act} {eff : Effect Store Row}
    (h : Order.Transactions.orderStep i s pc a = some (eff, pc')) : Kept s (eff.apply s) := by
  cases Order.Transactions.orderStep_cases h with
  | create hstep => cases hstep <;> exact ⟨rfl, rfl, rfl, le_rfl, le_rfl, le_rfl⟩
  | confirm hstep => cases hstep <;> exact ⟨rfl, rfl, rfl, le_rfl, le_rfl, le_rfl⟩
  | expire hstep => cases hstep <;> exact ⟨rfl, rfl, rfl, le_rfl, le_rfl, le_rfl⟩
  | migrate hstep => cases hstep <;> exact ⟨rfl, rfl, rfl, le_rfl, le_rfl, le_rfl⟩
  | fire => exact ⟨rfl, rfl, rfl, le_rfl, le_rfl, le_rfl⟩

/-- What the other sessions can see of a statement: nothing of the catalog, or
the write a commit publishes. -/
inductive Writes (s : Store) : Pc → Act → Effect Store Row → Prop
  | nothing {pc : Pc} {a : Act} {eff : Effect Store Row} (h : Kept s (eff.apply s)) :
      Writes s pc a eff
  | insertEvent {event : Event} {now : Int} :
      Writes s (.createEvent (.inserted event)) (.edit (.run now))
        (.commit fun s => s.withDb (insertEvent event))
  | insertEventCategory {category : EventCategory} {now : Int} :
      Writes s (.createCategory (.inserted category)) (.edit (.run now))
        (.commit fun s => s.withDb (insertEventCategory category))
  | replaceEvent {event : Event} {now : Int} :
      Writes s (.updateEvent (.updated event)) (.edit (.run now))
        (.commit fun s => s.withDb (replaceEvent event))
  | setState {t : Transition} {now : Int} :
      Writes s (.transition (.updated t)) (.edit (.run now))
        (.commit fun s => s.withDb (setState t.eventId t.target))
  | insertTicketCategory {category : TicketCategory} {now : Int} :
      Writes s (.createTicketCategory (.inserted category)) (.edit (.run now))
        (.commit fun s => s.withDb (insertTicketCategory category))
  | putTicketCategory {category : TicketCategory} {new : Option TicketCategory} {now : Int} :
      Writes s (.modifyTicketCategory (.modified category new)) (.edit (.run now))
        (.commit fun s => s.withDb (putTicketCategory category.id new))

theorem SystemStep.writes {s : Store} {pc pc' : Pc} {a : Act} {eff : Effect Store Row}
    (h : SystemStep s pc a eff pc') : Writes s pc a eff := by
  cases h with
  | order h => exact .nothing (orderStep_kept h)
  | createEvent h =>
      cases h with
      | insert => exact .nothing ⟨rfl, rfl, rfl, Nat.le_succ _, le_rfl, le_rfl⟩
      | commit => exact .insertEvent
      | _ => exact .nothing (.refl s)
  | createCategory h =>
      cases h with
      | draw => exact .nothing ⟨rfl, rfl, rfl, le_rfl, Nat.le_succ _, le_rfl⟩
      | commit => exact .insertEventCategory
      | _ => exact .nothing (.refl s)
  | updateEvent h =>
      cases h with
      | commit => exact .replaceEvent
      | _ => exact .nothing (.refl s)
  | transition h =>
      cases h with
      | commit => exact .setState
      | _ => exact .nothing (.refl s)
  | createTicketCategory h =>
      cases h with
      | draw => exact .nothing ⟨rfl, rfl, rfl, le_rfl, le_rfl, Nat.le_succ _⟩
      | commit => exact .insertTicketCategory
      | _ => exact .nothing (.refl s)
  | modifyTicketCategory h =>
      cases h with
      | commit => exact .putTicketCategory
      | _ => exact .nothing (.refl s)

end TicketBooking.Catalog.System
