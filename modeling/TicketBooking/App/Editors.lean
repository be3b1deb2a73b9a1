import TicketBooking.App.Moderation
/-!
# Whose call it is

What a session of any service knows of the call it serves: for whom it books,
that a category is inserted by the call that creates it, and that the ticket
categories of an event are edited in the name of its owner.
-/

namespace TicketBooking.App.Editors

open TicketBooking.App.Moderation (Touches keyed_events service_touches step_events)
open TicketBooking.App.PrimaryKeys
open TicketBooking.App.Violations
open TicketBooking.Catalog (Drafts.editing Drafts.holding Keys.rewritten)
open TicketBooking.Catalog.Drafts (categoriesOf categoriesOf_insert categoriesOf_put
  mem_putTicketCategory)
open TicketBooking.Catalog.Editing
open TicketBooking.Catalog.Keys (drawnTicketCategory)
open TicketBooking.Catalog.System (Kept SystemStep Writes)
open TicketBooking.Catalog.Transactions (guardEvent)
open TicketBooking.Database.Shared TicketBooking.Database.Tables
open TicketBooking.Library.Sessions
open TicketBooking.Order.Booking (CreateCall)
open TicketBooking.Users.Authentication (ServicePc)

/-! ## The caller -/

def catalogPc : ServicePc → Catalog.System.Pc
  | .catalog pc => pc
  | .users _ => .order .waiting

def editor : Call → Option Nat
  | .catalog (.createTicketCategory userId _) => some userId
  | .catalog (.updateTicketCategory userId _ _) => some userId
  | .catalog (.deleteTicketCategory userId _) => some userId
  | _ => none

def booked : Call → Option CreateCall
  | .order (.create booking) => some booking
  | .catalog (.createOrder booking) => some booking
  | _ => none

def BookedFor (call : Call) (order : Order) : Prop :=
  ∃ booking, booked call = some booking ∧ booking.userId = order.userId

def Asked (call : Call) : Catalog.System.Pc → Prop
  | .order (.create (.start booking)) => booked call = some booking
  | .order (.create (.locking booking _ _)) => booked call = some booking
  | .order (.create (.selected booking _)) => booked call = some booking
  | .order (.create (.insertingItems order _ _)) => BookedFor call order
  | .order (.create (.insertingTickets order _ _ _)) => BookedFor call order
  | .createCategory _ => ∃ data, call = .catalog (.createCategory data)
  | .createTicketCategory (.start userId _) => editor call = some userId
  | .modifyTicketCategory (.start userId _ _) => editor call = some userId
  | .modifyTicketCategory (.categoryRead userId _ _ _) => editor call = some userId
  | _ => True

section Steps

variable {s s' : Store} {pc pc' : ServicePc} {a : ServiceAct} {eff : Effect Store Row} {call : Call}

theorem asked_createOrder {pc pc' : Order.Transactions.CreatePc} {a : Order.Transactions.Act}
    (h : Order.Transactions.CreateStep s pc a eff pc')
    (hasked : Asked call (.order (.create pc))) : Asked call (.order (.create pc')) := by
  cases h with
  | select => exact hasked
  | lock => exact hasked
  | accept => exact hasked
  | insertOrder => exact ⟨_, hasked, rfl⟩
  | insertItems => exact hasked
  | itemsDone => exact hasked
  | insertTickets => exact hasked
  | _ => trivial

theorem asked_modify {pc pc' : Catalog.Transactions.ModifyPc} {a : Catalog.Transactions.EditAct}
    (h : Catalog.Transactions.ModifyStep s pc a eff pc')
    (hasked : Asked call (.modifyTicketCategory pc)) : Asked call (.modifyTicketCategory pc') := by
  cases h with
  | read => exact hasked
  | _ => trivial

theorem asked_of_step (h : ServiceStep s pc a eff pc') (hasked : Asked call (catalogPc pc)) :
    Asked call (catalogPc pc') := by
  cases h with
  | createOrder h => exact asked_createOrder (Order.Transactions.createStep_cases h) hasked
  | @requery booking categories rows =>
      unfold Order.Transactions.afterSelect
      split
      · trivial
      · split
        · trivial
        · exact hasked
  | createCategory => exact hasked
  | createTicketCategory h =>
      cases Catalog.Transactions.ticketCategoryStep_cases h <;> trivial
  | modifyTicketCategory h => exact asked_modify (Catalog.Transactions.modifyStep_cases h) hasked
  | _ => trivial

/-! ## The owner of the event -/

def Owns (s : Store) (userId eventId : Nat) : Prop :=
  ∃ event ∈ s.db.events, event.id = eventId ∧ event.userId = userId

theorem owns_of_guard {userId eventId : Nat} {now : Int}
    (h : guardEvent s userId eventId now = none) : Owns s userId eventId := by
  unfold guardEvent at h
  cases hfind : findEvent s.db eventId with
  | none => simp [hfind] at h
  | some event =>
      simp only [hfind] at h
      split_ifs at h with howner hstatus
      obtain ⟨hevent, hid⟩ := findEvent_eq_some hfind
      exact ⟨event, hevent, hid, not_not.mp howner⟩

/-- What a session knows when it edits a ticket category: the event is its
caller's, and the category it has read is one of that event. -/
structure At (s : Store) (call : Call) (pc : Catalog.System.Pc) : Prop where
  asked : Asked call pc
  editing : ∀ eventId, Drafts.editing pc = some eventId →
    ∃ userId, editor call = some userId ∧ Owns s userId eventId
  holding : ∀ id eventId, Drafts.holding pc = some (id, eventId) → id < s.seq.ticketCategories ∧
    ∀ category ∈ s.db.ticketCategories, category.id = id → category.eventId = eventId
  rewritten : ∀ category new, Keys.rewritten pc = some (category, new) →
    new.id = category.id ∧ new.eventId = category.eventId

theorem At.idle {pc : Catalog.System.Pc} (hasked : Asked call pc)
    (hediting : Drafts.editing pc = none) (hholding : Drafts.holding pc = none)
    (hrewritten : Keys.rewritten pc = none) : At s call pc := by
  refine ⟨hasked, ?_, ?_, ?_⟩
  · simp [hediting]
  · simp [hholding]
  · simp [hrewritten]

theorem at_createTicketCategory {pc pc' : Catalog.Transactions.TicketCategoryPc}
    {a : Catalog.Transactions.EditAct} (h : Catalog.Transactions.TicketCategoryStep s pc a eff pc')
    (hat : At s call (.createTicketCategory pc)) :
    At (eff.apply s) call (.createTicketCategory pc') := by
  cases h with
  | check hguard =>
      refine ⟨trivial, fun eventId hediting => ?_, fun _ _ hholding => (by cases hholding),
        fun _ _ hrewritten => (by cases hrewritten)⟩
      cases hediting
      exact ⟨_, hat.asked, owns_of_guard hguard⟩
  | draw => exact ⟨trivial, hat.editing, fun _ _ h => (by cases h), fun _ _ h => (by cases h)⟩
  | lockName => exact ⟨trivial, hat.editing, fun _ _ h => (by cases h), fun _ _ h => (by cases h)⟩
  | insert => exact ⟨trivial, hat.editing, fun _ _ h => (by cases h), fun _ _ h => (by cases h)⟩
  | _ => exact .idle trivial rfl rfl rfl

theorem at_modify {pc pc' : Catalog.Transactions.ModifyPc} {a : Catalog.Transactions.EditAct}
    (h : Catalog.Transactions.ModifyStep s pc a eff pc') (hkeyed : Catalog.Keys.Keyed s)
    (hat : At s call (.modifyTicketCategory pc)) :
    At (eff.apply s) call (.modifyTicketCategory pc') := by
  have hasked := asked_modify h hat.asked
  cases h with
  | @read userId objId change now category hfind =>
      obtain ⟨hcategory, hid⟩ := findTicketCategory_eq_some hfind
      refine ⟨hasked, fun _ h => (by cases h), fun id eventId hholding => ?_,
        fun _ _ h => (by cases h)⟩
      cases hholding
      refine ⟨hid ▸ hkeyed.ticketCategorySeq category hcategory, fun other hother hother' => ?_⟩
      rw [hkeyed.ticketCategory_ext hother hcategory (hother'.trans hid.symm)]
  | check hguard =>
      refine ⟨hasked, fun eventId hediting => ?_, hat.holding, fun _ _ h => (by cases h)⟩
      cases hediting
      exact ⟨_, hat.asked, owns_of_guard hguard⟩
  | @lockRow objId change now read category hfind =>
      -- the row has been read before, as one of the same event
      obtain ⟨hcategory, hid⟩ := findTicketCategory_eq_some hfind
      have hevent : category.eventId = read.eventId :=
        (hat.holding _ _ rfl).2 category hcategory hid
      refine ⟨hasked, fun eventId hediting => ?_, fun id eventId hholding => ?_,
        fun _ _ h => (by cases h)⟩
      · cases hediting
        exact hat.editing _ (congrArg some hevent.symm)
      · cases hholding
        rw [hid, hevent]
        exact hat.holding _ _ rfl
  | lockName => exact ⟨hasked, hat.editing, hat.holding, fun _ _ h => (by cases h)⟩
  | @modify category change now new hresult =>
      refine ⟨hasked, hat.editing, hat.holding, fun _ row hrewritten => ?_⟩
      cases new with
      | none => cases hrewritten
      | some new =>
          cases hrewritten
          exact Change.result_keeps hresult
  | _ => exact .idle hasked rfl rfl rfl

theorem At.step (hkeyed : Catalog.Keys.Keyed s) (hat : At s call (catalogPc pc))
    (h : ServiceStep s pc a eff pc') : At (eff.apply s) call (catalogPc pc') := by
  have hasked := asked_of_step h hat.asked
  cases h with
  | createTicketCategory h =>
      exact at_createTicketCategory (Catalog.Transactions.ticketCategoryStep_cases h) hat
  | modifyTicketCategory h => exact at_modify (Catalog.Transactions.modifyStep_cases h) hkeyed hat
  | _ => exact .idle hasked rfl rfl rfl

/-! ## The other sessions -/

def Apart (pc pc' : Catalog.System.Pc) : Prop :=
  (∀ id eventId, Drafts.holding pc = some (id, eventId) → drawnTicketCategory pc' ≠ some id) ∧
    ∀ id eventId, Drafts.holding pc' = some (id, eventId) → drawnTicketCategory pc ≠ some id

theorem Apart.symm {pc pc' : Catalog.System.Pc} (h : Apart pc pc') : Apart pc' pc := ⟨h.2, h.1⟩

theorem writes_of_step (h : ServiceStep s pc a eff pc') :
    Kept s (eff.apply s) ∨ ∃ b, Writes s (catalogPc pc) b eff := by
  cases service_touches h with
  | order hkept => exact .inl hkept
  | users hkept => exact .inl hkept
  | catalog hstep => exact .inr ⟨_, hstep.writes⟩

theorem holding_of_step {id eventId : Nat} (hat : At s call (catalogPc pc))
    (hheld : ∀ category ∈ s.db.ticketCategories, category.id = id → category.eventId = eventId)
    (hdrawn : drawnTicketCategory (catalogPc pc) ≠ some id) (h : ServiceStep s pc a eff pc') :
    ∀ category ∈ (eff.apply s).db.ticketCategories, category.id = id →
      category.eventId = eventId := by
  rcases writes_of_step h with hkept | ⟨b, hwrites⟩
  · rw [hkept.ticketCategories]
    exact hheld
  · generalize catalogPc pc = cpc at hat hdrawn hwrites
    cases hwrites with
    | nothing hkept =>
        rw [hkept.ticketCategories]
        exact hheld
    | insertTicketCategory =>
        intro category hcategory hid
        rcases List.mem_append.mp hcategory with hold | hnew
        · exact hheld category hold hid
        · rw [← List.mem_singleton.mp hnew] at hdrawn
          exact absurd (congrArg some hid) hdrawn
    | @putTicketCategory matched new =>
        intro category hcategory hid
        rcases mem_putTicketCategory hcategory with hold | ⟨rfl, old, hold, holdid⟩
        · exact hheld category hold hid
        · -- the new version has the id and the event of the row it replaces
          obtain ⟨hsameId, hsameEvent⟩ := hat.rewritten matched category rfl
          have hread : old.eventId = matched.eventId := (hat.holding _ _ rfl).2 old hold holdid
          have hkept : old.eventId = eventId :=
            hheld old hold (holdid.trans (hsameId.symm.trans hid))
          rw [hsameEvent, ← hread, hkept]
    | _ => exact hheld

theorem seq_of_step (h : ServiceStep s pc a eff pc') :
    s.seq.ticketCategories ≤ (eff.apply s).seq.ticketCategories := by
  rcases writes_of_step h with hkept | ⟨b, hwrites⟩
  · exact hkept.ticketCategorySeq
  · generalize catalogPc pc = cpc at hwrites
    cases hwrites with
    | nothing hkept => exact hkept.ticketCategorySeq
    | _ => exact le_rfl

theorem apart_of_step {other : Catalog.System.Pc} (hother : ∀ id eventId,
      Drafts.holding other = some (id, eventId) → id < s.seq.ticketCategories)
    (hdrawn : ∀ id, drawnTicketCategory other = some id →
      ∀ category ∈ s.db.ticketCategories, category.id ≠ id)
    (hapart : Apart (catalogPc pc) other) (h : ServiceStep s pc a eff pc') :
    Apart (catalogPc pc') other := by
  cases h with
  | createTicketCategory h =>
      cases Catalog.Transactions.ticketCategoryStep_cases h with
      | draw =>
          refine ⟨fun _ _ h => (by cases h), fun id eventId hid hnew => ?_⟩
          cases hnew
          exact lt_irrefl _ (hother _ _ hid)
      | lockName => exact ⟨fun _ _ h => (by cases h), hapart.2⟩
      | insert => exact ⟨fun _ _ h => (by cases h), hapart.2⟩
      | _ => exact ⟨fun _ _ h => (by cases h), fun _ _ _ h => (by cases h)⟩
  | modifyTicketCategory h =>
      cases Catalog.Transactions.modifyStep_cases h with
      | read hfind =>
          obtain ⟨hcategory, hid⟩ := findTicketCategory_eq_some hfind
          refine ⟨fun id eventId hheld hnew => ?_, fun _ _ _ h => (by cases h)⟩
          cases hheld
          exact hdrawn _ hnew _ hcategory hid
      | lockRow hfind =>
          obtain ⟨hcategory, hid⟩ := findTicketCategory_eq_some hfind
          refine ⟨fun id eventId hheld => ?_, fun _ _ _ h => (by cases h)⟩
          cases hheld
          rw [hid]
          exact hapart.1 _ _ rfl
      | check => exact ⟨hapart.1, fun _ _ _ h => (by cases h)⟩
      | lockName => exact ⟨hapart.1, fun _ _ _ h => (by cases h)⟩
      | modify => exact ⟨hapart.1, fun _ _ _ h => (by cases h)⟩
      | _ => exact ⟨fun _ _ h => (by cases h), fun _ _ _ h => (by cases h)⟩
  | _ => exact ⟨fun _ _ h => (by cases h), fun _ _ _ h => (by cases h)⟩

/-! ## What is new after a statement -/

theorem mem_of_orderIds {db db' : Db}
    (h : (db'.orders.map fun order => order.id) = db.orders.map fun order => order.id)
    {order : Order} (horder : order ∈ db'.orders) : ∃ old ∈ db.orders, old.id = order.id := by
  have hid : order.id ∈ db.orders.map fun order => order.id := h ▸ List.mem_map_of_mem horder
  exact List.mem_map.mp hid

theorem orders_createOrder {pc pc' : Order.Transactions.CreatePc} {a : Order.Transactions.Act}
    (h : Order.Transactions.CreateStep s pc a eff pc')
    (hasked : Asked call (.order (.create pc))) {order : Order}
    (horder : order ∈ (eff.apply s).db.orders) :
    (∃ old ∈ s.db.orders, old.id = order.id) ∨ BookedFor call order := by
  cases h with
  | commit =>
      rcases List.mem_append.mp horder with hold | hnew
      · exact .inl ⟨order, hold, rfl⟩
      · rw [List.mem_singleton.mp hnew]
        exact .inr hasked
  | _ => exact .inl ⟨order, horder, rfl⟩

/-- A new order is for whom its call has been made. -/
theorem orders_of_step (hasked : Asked call (catalogPc pc)) (h : ServiceStep s pc a eff pc')
    {order : Order} (horder : order ∈ (eff.apply s).db.orders) :
    (∃ old ∈ s.db.orders, old.id = order.id) ∨ BookedFor call order := by
  have hsame : (eff.apply s).db.orders = s.db.orders →
      ∃ old ∈ s.db.orders, old.id = order.id := fun heq => ⟨order, heq ▸ horder, rfl⟩
  cases h with
  | createOrder h =>
      exact orders_createOrder (Order.Transactions.createStep_cases h) hasked horder
  | confirm h =>
      refine .inl ?_
      cases Order.Transactions.confirmStep_cases h with
      | commit => exact mem_of_orderIds (congrFun (storedIds_payBooking _ _ s.db) .order) horder
      | _ => exact hsame rfl
  | expire h =>
      refine .inl ?_
      cases Order.Transactions.expireStep_cases h with
      | commit => exact mem_of_orderIds (storedIds_setOrderStatus _ .cancelled s.db) horder
      | _ => exact hsame rfl
  | migrate h =>
      refine .inl ?_
      cases Order.Transactions.migrateStep_cases h with
      | commit => exact mem_of_orderIds (congrFun (storedIds_migrateOrders _ _ s.db) .order) horder
      | _ => exact hsame rfl
  | fire => exact .inl (hsame rfl)
  | requery => exact .inl (hsame (by rw [apply_afterSelect]))
  | createEvent h =>
      exact .inl (hsame (by cases Catalog.Transactions.createStep_cases h <;> rfl))
  | createCategory h =>
      exact .inl (hsame (by cases Catalog.Transactions.categoryStep_cases h <;> rfl))
  | updateEvent h =>
      exact .inl (hsame (by cases Catalog.Transactions.updateStep_cases h <;> rfl))
  | transition h =>
      exact .inl (hsame (by cases Catalog.Transactions.transitionStep_cases h <;> rfl))
  | createTicketCategory h =>
      exact .inl (hsame (by cases Catalog.Transactions.ticketCategoryStep_cases h <;> rfl))
  | modifyTicketCategory h =>
      exact .inl (hsame (by cases Catalog.Transactions.modifyStep_cases h <;> rfl))
  | createUser h => exact .inl (hsame (by cases Users.Transactions.createStep_cases h <;> rfl))
  | change h => exact .inl (hsame (by cases Users.Transactions.changeStep_cases h <;> rfl))

/-- Only `create_category` writes an event category. -/
theorem eventCategories_of_step (hasked : Asked call (catalogPc pc))
    (h : ServiceStep s pc a eff pc') :
    (eff.apply s).db.eventCategories = s.db.eventCategories ∨
      ∃ data, call = .catalog (.createCategory data) := by
  rcases writes_of_step h with hkept | ⟨b, hwrites⟩
  · exact .inl hkept.eventCategories
  · generalize catalogPc pc = cpc at hasked hwrites
    cases hwrites with
    | nothing hkept => exact .inl hkept.eventCategories
    | insertEventCategory => exact .inr hasked
    | _ => exact .inl rfl

/-- The ticket categories of an event change in the name of its owner. -/
theorem ticketCategories_of_step (hat : At s call (catalogPc pc)) (h : ServiceStep s pc a eff pc')
    (eventId : Nat) : categoriesOf (eff.apply s).db eventId = categoriesOf s.db eventId ∨
      ∃ userId, editor call = some userId ∧ Owns s userId eventId := by
  rcases writes_of_step h with hkept | ⟨b, hwrites⟩
  · exact .inl (by unfold categoriesOf; rw [hkept.ticketCategories])
  · generalize catalogPc pc = cpc at hat hwrites
    cases hwrites with
    | nothing hkept => exact .inl (by unfold categoriesOf; rw [hkept.ticketCategories])
    | @insertTicketCategory category =>
        by_cases hevent : category.eventId = eventId
        · exact .inr (hat.editing _ (congrArg some hevent))
        · exact .inl (categoriesOf_insert hevent)
    | @putTicketCategory category new =>
        by_cases hevent : category.eventId = eventId
        · exact .inr (hat.editing _ (congrArg some hevent))
        · refine .inl (categoriesOf_put (fun old hold hid => ?_) fun row hrow => ?_)
          · rw [(hat.holding _ _ rfl).2 old hold hid]
            exact hevent
          · cases hrow
            rw [(hat.rewritten category row rfl).2]
            exact hevent
    | _ => exact .inl rfl

end Steps

/-! ## Every run -/

section Runs

variable {ι : Type} {s : Store} {calls : ι → Call} {w w' : World ι Store Row ServicePc}

def outline (calls : ι → Call) : Outline ι Store Row ServicePc where
  inv _ := True
  at_ i s _ pc := At s (calls i) (catalogPc pc)
  apart pc pc' := Apart (catalogPc pc) (catalogPc pc')

theorem drawnIds_of_drawn {pc : ServicePc} {id : Nat}
    (h : drawnTicketCategory (catalogPc pc) = some id) : id ∈ drawnIds pc .ticketCategory := by
  cases pc with
  | users => cases h
  | catalog pc =>
      unfold drawnTicketCategory catalogPc at h
      dsimp only at h
      split at h <;> cases h
      all_goals exact List.mem_singleton_self _

variable [DecidableEq ι]

theorem owns_of_step (hkeyed : Keyed s) (hrun : Run serviceStep anyStep (atCalls s calls) w)
    {i : ι} {a : ServiceAct} (hs : w.step serviceStep i a = some w') {userId eventId : Nat}
    (h : Owns w.shared userId eventId) : Owns w'.shared userId eventId := by
  obtain ⟨event, hevent, hid, howner⟩ := h
  rcases step_events hkeyed hrun hs with hsame | ⟨c, -, hmoves⟩
  · exact ⟨event, hsame ▸ hevent, hid, howner⟩
  · obtain ⟨event', hevent', hid', rfl | hcaused⟩ := hmoves.kept event hevent
    · exact ⟨event', hevent', hid, howner⟩
    · exact ⟨event', hevent', hid'.trans hid, hcaused.succeeds.owner.trans howner⟩

theorem outline_sound (hkeyed : Keyed s) (calls : ι → Call) :
    (outline calls).Sound serviceStep fun w _ _ =>
      Run serviceStep anyStep (atCalls s calls) w where
  own w i a eff pc hw hrun hP _ :=
    ⟨trivial, (hw.at_ i).step (keyed_events (keyed_of_run hkeyed hrun)) (serviceStep_cases hP)⟩
  frame w i j a eff pc hw hrun hP hgrant hj := by
    have hstep := serviceStep_cases hP
    have hs : w.step serviceStep i a = some (w.after i eff pc) :=
      World.step_eq_some.mpr ⟨eff, pc, hP, hgrant, rfl⟩
    have hat := hw.at_ j
    have hapart := hw.apart i j hj.symm
    have hnext : Apart (catalogPc pc) (catalogPc (w.pc j)) := by
      refine apart_of_step (fun id eventId hid => (hat.holding id eventId hid).1)
        (fun id hid category hcategory heq => ?_) hapart hstep
      have hfresh := (numbered_of_run hkeyed hrun .ticketCategory).at_ j
      exact hfresh.new id (drawnIds_of_drawn hid) (heq ▸ List.mem_map_of_mem hcategory)
    refine ⟨⟨hat.asked, fun eventId hid => ?_, fun id eventId hid => ⟨?_, ?_⟩, hat.rewritten⟩,
      hnext, hnext.symm⟩
    · obtain ⟨userId, hcall, howns⟩ := hat.editing eventId hid
      exact ⟨userId, hcall, owns_of_step hkeyed hrun hs howns⟩
    · exact (hat.holding id eventId hid).1.trans_le (seq_of_step hstep)
    · exact holding_of_step (hw.at_ i) (hat.holding id eventId hid).2 (hapart.2 id eventId hid)
        hstep

theorem asked_call (call : Call) : Asked call (catalogPc call.pc) := by
  cases call with
  | order call =>
      cases call with
      | create booking => exact rfl
      | _ => trivial
  | catalog call =>
      cases call with
      | createOrder booking => exact rfl
      | createCategory data => exact ⟨data, rfl⟩
      | createTicketCategory => exact rfl
      | updateTicketCategory => exact rfl
      | deleteTicketCategory => exact rfl
      | _ => trivial
  | users call => trivial

theorem at_call (s : Store) (call : Call) : At s call (catalogPc call.pc) := by
  have hasked := asked_call call
  cases call with
  | order call => exact .idle hasked rfl rfl rfl
  | catalog call => cases call <;> exact .idle hasked rfl rfl rfl
  | users call => exact .idle hasked rfl rfl rfl

theorem holding_call (call : Call) : Drafts.holding (catalogPc call.pc) = none := by
  cases call with
  | order call => rfl
  | catalog call => cases call <;> rfl
  | users call => rfl

theorem apart_calls (call call' : Call) : Apart (catalogPc call.pc) (catalogPc call'.pc) := by
  constructor
  all_goals
    intro id eventId hid
    rw [holding_call] at hid
    cases hid

theorem valid_of_run (hkeyed : Keyed s) (hrun : Run serviceStep anyStep (atCalls s calls) w) :
    (outline calls).Valid w := by
  have hguarded := hrun.with_invariant
    (I := fun w => Run serviceStep anyStep (atCalls s calls) w)
    (fun v v' i a hv hok hs => hv.step hok hs) .refl
  exact (outline_sound hkeyed calls).run (hguarded.mono fun _ _ _ h => h.2)
    ⟨trivial, fun i => at_call s (calls i), fun i j _ => apart_calls (calls i) (calls j)⟩

end Runs

end TicketBooking.App.Editors
