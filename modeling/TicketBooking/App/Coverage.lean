import TicketBooking.App.Bodies
import TicketBooking.App.Progress
import TicketBooking.Catalog.Keys
import TicketBooking.Order.Quantities
import TicketBooking.Users.Bans
/-!
# Covered errors

Any number of requests at once, from the token to the exception the service
raises.  In a run without a violated constraint the rows that a call refers to
stay, so each call commits or raises an exception that has a status, and one
that raises has written nothing.
-/

namespace TicketBooking.App.Coverage

open TicketBooking.App.Bodies TicketBooking.App.Exceptions TicketBooking.App.Progress
open TicketBooking.App.Violations
open TicketBooking.Catalog.Editing (categoryExists_iff findEvent)
open TicketBooking.Catalog
open TicketBooking.Catalog.Keys (Keyed map_id_replaceEvent map_id_setState)
open TicketBooking.Catalog.LeafCheck (isLeafCategory_eq)
open TicketBooking.Catalog.System
open TicketBooking.Database.Shared TicketBooking.Database.Tables
open TicketBooking.Library.Sessions
open TicketBooking.Order.Booking (CreateCall PositiveInt32 one ten userExists)
open TicketBooking.Order.Quantities (oneOfEach_of_perm)
open TicketBooking.Order.Transactions (afterSelect)
open TicketBooking.Users.Accounts (findByEmail)
open TicketBooking.Users.Authentication (Deployment HTTPException Request ServicePc Token
  UserLoginSchema authenticate authorize authorize_guarded decodeAccessToken issue onStore
  optionalRoleChecker roleChecker)
open TicketBooking.Users.Transactions (UserPc UserAct UserStep userStep_cases)
open TicketBooking.Users.Bans (store_lift systemStep_users)
open TicketBooking.Users.Roles (map_id_updateUser)

/-! ## Requests -/

/-- A session is one request, and `raised` one that the driver refused. -/
inductive Pc
  | idle
  | userRead (user : Option User)
  | loggedIn
  | refused (e : HTTPException)
  | service (incoming : Incoming) (pc : ServicePc)
  | raised (e : AppException)

inductive Act
  | send (incoming : Incoming) (token : Option Token) (now : Nat)
  | login (data : UserLoginSchema)
  | authenticate (verified : Bool) (now : Nat)
  | service (a : ServiceAct)

def received (incoming : Incoming) : Except HTTPException (Option Nat × ServicePc) → Pc
  | .error e => .refused e
  | .ok (_, pc) => .service incoming pc

/-- What a statement ends in before its row is compared with others. -/
def refusal (limited : Bool) (incoming : Incoming) (pc : ServicePc) : Option AppException :=
  (incoming.refusal pc).or (brokenCheck limited pc)

def requestStep {ι : Type} (limited : Bool) : Protocol ι Deployment Row Pc Act
  | _, d, .idle, .send incoming token now =>
      some (.stay, received incoming (authorize d now token incoming.request))
  | _, d, .idle, .login data => some (.stay, .userRead (findByEmail d.store.db data.email))
  | _, d, .userRead user, .authenticate verified now =>
      match authenticate d.expireSeconds user verified now with
      | .error _ => some (.stay, .loggedIn)
      | .ok token => some (.emit (issue token), .loggedIn)
  | i, d, .service incoming pc, .service a =>
      match refusal limited incoming pc with
      | some e => some (.rollback, .raised e)
      | none =>
          (serviceStep i d.store pc a).map fun (eff, pc) =>
            (eff.lift onStore, .service incoming pc)
  | _, _, _, _ => none

def atRest {ι : Type} (d : Deployment) : World ι Deployment Row Pc := World.start d fun _ => .idle

/-- The statement does not fail from outside, binds values its columns take, and
violates no constraint. -/
def allowed (limited : Bool) (db : Db) : Pc → Act → Bool
  | .service incoming pc, .service a =>
      !a.fails && incoming.fits pc && (brokenCheck limited pc).isNone && unviolated db pc
  | _, _ => true

def Allowed {ι : Type} (limited : Bool) (w : World ι Deployment Row Pc) (i : ι) (a : Act) : Prop :=
  allowed limited w.shared.store.db (w.pc i) a

instance {ι : Type} (limited : Bool) (w : World ι Deployment Row Pc) (i : ι) (a : Act) :
    Decidable (Allowed limited w i a) :=
  inferInstanceAs (Decidable (_ = true))

def requestStage : Pc → Stage
  | .service _ pc => stage pc
  | .raised e => .raised e
  | _ => .running

inductive RequestStep {ι : Type} (limited : Bool) (i : ι) (d : Deployment) :
    Pc → Act → Effect Deployment Row → Pc → Prop
  | refuseToken {incoming : Incoming} {token : Option Token} {now : Nat} {e : HTTPException} :
      RequestStep limited i d .idle (.send incoming token now) .stay (.refused e)
  | send {incoming : Incoming} {token : Option Token} {now : Nat} {bearer : Option Nat}
      {pc : ServicePc} (hauthorize : authorize d now token incoming.request = .ok (bearer, pc)) :
      RequestStep limited i d .idle (.send incoming token now) .stay (.service incoming pc)
  | login {data : UserLoginSchema} :
      RequestStep limited i d .idle (.login data) .stay
        (.userRead (findByEmail d.store.db data.email))
  | refuseLogin {user : Option User} {verified : Bool} {now : Nat} :
      RequestStep limited i d (.userRead user) (.authenticate verified now) .stay .loggedIn
  | issue {user : User} {verified : Bool} {now : Nat} {token : Token} (hsub : token.sub = user.id) :
      RequestStep limited i d (.userRead (some user)) (.authenticate verified now)
        (.emit (Users.Authentication.issue token)) .loggedIn
  | refuse {incoming : Incoming} {pc : ServicePc} {a : ServiceAct} {e : AppException}
      (hrefusal : refusal limited incoming pc = some e) :
      RequestStep limited i d (.service incoming pc) (.service a) .rollback (.raised e)
  | serve {incoming : Incoming} {pc pc' : ServicePc} {a : ServiceAct} {eff : Effect Store Row}
      (h : serviceStep i d.store pc a = some (eff, pc')) :
      RequestStep limited i d (.service incoming pc) (.service a) (eff.lift onStore)
        (.service incoming pc')

theorem authenticate_eq_ok {expireSeconds now : Nat} {user : Option User} {verified : Bool}
    {token : Token} (h : authenticate expireSeconds user verified now = .ok token) :
    ∃ found, user = some found ∧ token.sub = found.id := by
  unfold authenticate at h
  split at h
  · cases h
  · rename_i found
    split_ifs at h
    cases h
    exact ⟨found, rfl, rfl⟩

theorem requestStep_cases {ι : Type} {limited : Bool} {i : ι} {d : Deployment} {pc pc' : Pc}
    {a : Act} {eff : Effect Deployment Row} (h : requestStep limited i d pc a = some (eff, pc')) :
    RequestStep limited i d pc a eff pc' := by
  unfold requestStep at h
  split at h
  case h_1 incoming token now =>
      generalize hauthorize : authorize d now token incoming.request = answer at h
      cases answer with
      | error e =>
          cases h
          exact .refuseToken
      | ok admission =>
          cases h
          exact .send hauthorize
  case h_2 data =>
      cases h
      exact .login
  case h_3 user verified now =>
      split at h
      · cases h
        exact .refuseLogin
      · rename_i token htoken
        obtain ⟨found, rfl, hsub⟩ := authenticate_eq_ok htoken
        cases h
        exact .issue hsub
  case h_4 incoming pc a =>
      split at h
      · rename_i e hrefusal
        cases h
        exact .refuse hrefusal
      · obtain ⟨⟨eff', pc''⟩, hstep, heq⟩ := Option.map_eq_some_iff.mp h
        cases heq
        exact .serve hstep
  case h_5 => cases h

/-! ## Rows that stay -/

/-- The users, the events and the event categories are still there. -/
structure Grows (db db' : Db) : Prop where
  users : ∀ user ∈ db.users, ∃ user' ∈ db'.users, user'.id = user.id
  events : ∀ event ∈ db.events, ∃ event' ∈ db'.events, event'.id = event.id
  eventCategories : ∀ category ∈ db.eventCategories,
    ∃ category' ∈ db'.eventCategories, category'.id = category.id

variable {db db' : Db}

theorem Grows.refl (db : Db) : Grows db db :=
  ⟨fun user huser => ⟨user, huser, rfl⟩, fun event hevent => ⟨event, hevent, rfl⟩,
    fun category hcategory => ⟨category, hcategory, rfl⟩⟩

theorem userExists_iff {id : Nat} :
    userExists db (some id) ↔ ∃ user ∈ db.users, user.id = id := by
  simp [userExists]

theorem findEvent_isSome {id : Nat} :
    (findEvent db id).isSome ↔ ∃ event ∈ db.events, event.id = id := by
  simp [findEvent]

theorem Grows.userExists (h : Grows db db') {userId : Option Nat}
    (huser : Order.Booking.userExists db userId) : Order.Booking.userExists db' userId := by
  cases userId with
  | none => rfl
  | some id =>
      obtain ⟨user, hmem, hid⟩ := userExists_iff.mp huser
      obtain ⟨user', hmem', hid'⟩ := h.users user hmem
      exact userExists_iff.mpr ⟨user', hmem', hid'.trans hid⟩

theorem Grows.categoryExists (h : Grows db db') {id : Nat}
    (hcategory : Catalog.Editing.categoryExists db id) :
    Catalog.Editing.categoryExists db' id := by
  obtain ⟨category, hmem, hid⟩ := categoryExists_iff.mp hcategory
  obtain ⟨category', hmem', hid'⟩ := h.eventCategories category hmem
  exact categoryExists_iff.mpr ⟨category', hmem', hid'.trans hid⟩

theorem Grows.findEvent (h : Grows db db') {id : Nat}
    (hevent : (Catalog.Editing.findEvent db id).isSome) :
    (Catalog.Editing.findEvent db' id).isSome := by
  obtain ⟨event, hmem, hid⟩ := findEvent_isSome.mp hevent
  obtain ⟨event', hmem', hid'⟩ := h.events event hmem
  exact findEvent_isSome.mpr ⟨event', hmem', hid'.trans hid⟩

theorem found_of_grows {pc : ServicePc} (hgrows : Grows db db') (h : Found db pc) :
    Found db' pc := by
  unfold Found at h ⊢
  split at h
  case h_1 => exact hgrows.userExists h
  case h_2 => exact ⟨hgrows.userExists h.1, hgrows.categoryExists h.2⟩
  case h_3 => exact hgrows.findEvent h
  case h_4 => exact hgrows.findEvent h
  case h_5 => exact hgrows.findEvent h
  case h_6 => exact hgrows.userExists h
  case h_7 => exact ⟨hgrows.userExists h.1, h.2⟩
  case h_8 => exact hgrows.userExists h
  all_goals exact h

theorem grows_of_writes {s : Store} {pc : Catalog.System.Pc} {a : Catalog.System.Act}
    {eff : Effect Store Row} (husers : (eff.apply s).db.users = s.db.users)
    (h : Writes s pc a eff) : Grows s.db (eff.apply s).db := by
  have hids : ∀ user ∈ s.db.users, ∃ user' ∈ (eff.apply s).db.users, user'.id = user.id := by
    rw [husers]
    exact (Grows.refl s.db).users
  cases h with
  | nothing hkept =>
      refine ⟨hids, ?_, ?_⟩
      · rw [hkept.events]
        exact (Grows.refl s.db).events
      · rw [hkept.eventCategories]
        exact (Grows.refl s.db).eventCategories
  | insertEvent =>
      exact ⟨hids, fun event hevent => ⟨event, List.mem_append_left _ hevent, rfl⟩,
        (Grows.refl s.db).eventCategories⟩
  | insertEventCategory =>
      exact ⟨hids, (Grows.refl s.db).events,
        fun category hcategory => ⟨category, List.mem_append_left _ hcategory, rfl⟩⟩
  | replaceEvent =>
      refine ⟨hids, fun event hevent => ?_, (Grows.refl s.db).eventCategories⟩
      exact List.mem_map.mp ((map_id_replaceEvent _ s.db).symm ▸ List.mem_map_of_mem hevent)
  | setState =>
      refine ⟨hids, fun event hevent => ?_, (Grows.refl s.db).eventCategories⟩
      exact List.mem_map.mp ((map_id_setState _ _ s.db).symm ▸ List.mem_map_of_mem hevent)
  | insertTicketCategory =>
      exact ⟨hids, (Grows.refl s.db).events, (Grows.refl s.db).eventCategories⟩
  | putTicketCategory =>
      exact ⟨hids, (Grows.refl s.db).events, (Grows.refl s.db).eventCategories⟩

theorem kept_of_userStep {s : Store} {pc pc' : UserPc} {a : UserAct} {eff : Effect Store Row}
    (h : UserStep s pc a eff pc') : Kept s (eff.apply s) := by
  cases h with
  | create h => cases h <;> exact ⟨rfl, rfl, rfl, le_rfl, le_rfl, le_rfl⟩
  | change h => cases h <;> exact ⟨rfl, rfl, rfl, le_rfl, le_rfl, le_rfl⟩

theorem grows_of_userStep {s : Store} {pc pc' : UserPc} {a : UserAct} {eff : Effect Store Row}
    (hfound : Found s.db (.users pc)) (h : UserStep s pc a eff pc') :
    Grows s.db (eff.apply s).db := by
  have hkept := kept_of_userStep h
  refine ⟨fun user huser => ?_, hkept.events ▸ (Grows.refl s.db).events,
    hkept.eventCategories ▸ (Grows.refl s.db).eventCategories⟩
  cases h with
  | create h =>
      cases h with
      | commit => exact ⟨user, List.mem_append_left _ huser, rfl⟩
      | _ => exact ⟨user, huser, rfl⟩
  | change h =>
      cases h with
      | commit =>
          obtain ⟨call, hruns⟩ := hfound
          exact List.mem_map.mp ((map_id_updateUser hruns s.db).symm ▸ List.mem_map_of_mem huser)
      | _ => exact ⟨user, huser, rfl⟩

/-! ## What a statement finds -/

section Statement

variable {ι : Type} {i : ι} {s : Store} {eff : Effect Store Row}

theorem found_of_orderStep {pc pc' : Order.Transactions.Pc} {a : Order.Transactions.Act}
    (hkeyed : Keyed s) (hfound : Found s.db (.catalog (.order pc)))
    (h : Order.Transactions.orderStep i s pc a = some (eff, pc')) :
    Found s.db (.catalog (.order pc')) := by
  cases Order.Transactions.orderStep_cases h with
  | create hstep =>
      cases hstep with
      | select howner hperm =>
          refine ⟨hfound, ?_⟩
          exact oneOfEach_of_perm hkeyed.ticketCategories (List.isPerm_iff.mp hperm)
      | lock => exact hfound
      | accept => exact hfound.1
      | _ => trivial
  | confirm hstep => cases hstep <;> trivial
  | expire hstep => cases hstep <;> trivial
  | migrate hstep => cases hstep <;> trivial
  | fire => trivial

theorem found_of_systemStep {pc pc' : Catalog.System.Pc} {a : Catalog.System.Act}
    (hkeyed : Keyed s) (hfound : Found s.db (.catalog pc)) (h : SystemStep s pc a eff pc') :
    Found s.db (.catalog pc') := by
  cases h with
  | order h => exact found_of_orderStep hkeyed hfound h
  | createEvent h =>
      cases h with
      | found hleaf =>
          rw [isLeafCategory_eq, Except.ok.injEq] at hleaf
          exact ⟨hfound, hleaf⟩
      | _ => trivial
  | createCategory h => cases h <;> trivial
  | updateEvent h => cases h <;> trivial
  | transition h => cases h <;> trivial
  | createTicketCategory h =>
      cases h with
      | check hguard => exact findEvent_of_guardEvent hguard
      | draw => exact hfound
      | lockName => exact hfound
      | _ => trivial
  | modifyTicketCategory h => cases h <;> trivial

theorem found_of_userStep {pc pc' : UserPc} {a : UserAct} (h : UserStep s pc a eff pc') :
    Found s.db (.users pc') := by
  cases h with
  | create h => cases h <;> trivial
  | change h =>
      cases h with
      | update hruns => exact ⟨_, hruns⟩
      | miss hruns => exact ⟨_, hruns⟩
      | _ => trivial

/-- A statement is one of the catalog's or the user service's, or a SELECT's second
look. -/
inductive Part (s : Store) : ServicePc → Effect Store Row → ServicePc → Prop
  | catalog {pc pc' : Catalog.System.Pc} {a : Catalog.System.Act} {eff : Effect Store Row}
      (h : SystemStep s pc a eff pc') : Part s (.catalog pc) eff (.catalog pc')
  | users {pc pc' : UserPc} {a : UserAct} {eff : Effect Store Row} (h : UserStep s pc a eff pc') :
      Part s (.users pc) eff (.users pc')
  | requery {call : CreateCall} {categories rows : List TicketCategory} :
      Part s (.catalog (.order (.create (.locking call categories [])))) (afterSelect call rows).1
        (.catalog (.order (.create (afterSelect call rows).2)))

theorem part_of_serviceStep {pc pc' : ServicePc} {a : ServiceAct}
    (h : serviceStep i s pc a = some (eff, pc')) : Part s pc eff pc' := by
  unfold serviceStep at h
  split at h
  · obtain ⟨⟨eff', pc''⟩, hstep, heq⟩ := Option.map_eq_some_iff.mp h
    cases heq
    exact .catalog (systemStep_cases hstep)
  · obtain ⟨⟨eff', pc''⟩, hstep, heq⟩ := Option.map_eq_some_iff.mp h
    cases heq
    exact .users (userStep_cases hstep)
  · unfold requeryStep at h
    split at h
    · split_ifs at h
      cases h
      exact .requery
    · cases h
  · cases h

theorem grows_of_part {pc pc' : ServicePc} (hfound : Found s.db pc) (h : Part s pc eff pc') :
    Grows s.db (eff.apply s).db := by
  cases h with
  | catalog hstep => exact grows_of_writes (systemStep_users hstep).1 hstep.writes
  | users hstep => exact grows_of_userStep hfound hstep
  | requery =>
      rw [apply_afterSelect]
      exact .refl _

theorem found_of_part {pc pc' : ServicePc} (hkeyed : Keyed s) (hfound : Found s.db pc)
    (h : Part s pc eff pc') : Found (eff.apply s).db pc' := by
  refine found_of_grows (grows_of_part hfound h) ?_
  cases h with
  | catalog hstep => exact found_of_systemStep hkeyed hfound hstep
  | users hstep => exact found_of_userStep hstep
  | @requery call categories rows =>
      unfold afterSelect
      split
      · trivial
      · split
        · trivial
        · exact hfound.1

/-- The service of the catalog that a call is of; the others draw no ids of its
tables. -/
def catalogOf : ServicePc → Catalog.System.Pc
  | .catalog pc => pc
  | .users _ => .order .waiting

theorem keysAt_order (s : Store) (pc : Order.Transactions.Pc) : Keys.At s (.order pc) :=
  .idle rfl rfl rfl

theorem keysApart_order (pc : Order.Transactions.Pc) (other : Catalog.System.Pc) :
    Keys.Apart (.order pc) other :=
  ⟨nofun, nofun⟩

structure KeysStep (s s' : Store) (pc pc' : Catalog.System.Pc) : Prop where
  keyed : Keyed s'
  at_ : Keys.At s' pc'
  others : ∀ other, Keys.At s other → Keys.Apart pc other →
    Keys.At s' other ∧ Keys.Apart pc' other

theorem keysStep_of_part {pc pc' : ServicePc} (hkeyed : Keyed s)
    (hat : Keys.At s (catalogOf pc)) (h : Part s pc eff pc') :
    KeysStep s (eff.apply s) (catalogOf pc) (catalogOf pc') := by
  cases h with
  | catalog hstep =>
      exact {
        keyed := hkeyed.writes hat hstep.writes
        at_ := Keys.SystemStep.at hkeyed hat hstep
        others := fun other hother hapart =>
          ⟨hother.writes hat hapart hstep.writes, Keys.SystemStep.apart hother hapart hstep⟩ }
  | users hstep =>
      have hwrites : Writes s (.order .waiting) (.edit .fail) eff :=
        .nothing (kept_of_userStep hstep)
      exact {
        keyed := hkeyed.writes hat hwrites
        at_ := keysAt_order _ _
        others := fun other hother hapart =>
          ⟨hother.writes hat hapart hwrites, keysApart_order _ other⟩ }
  | requery =>
      rw [apply_afterSelect]
      exact ⟨hkeyed, keysAt_order _ _, fun other hother _ => ⟨hother, keysApart_order _ other⟩⟩

end Statement

/-! ## The proof outline -/

def Signed (d : Deployment) : Prop := ∀ token ∈ d.issued, userExists d.store.db (some token.sub)

def catalogPc : Pc → Catalog.System.Pc
  | .service _ pc => catalogOf pc
  | _ => .order .waiting

def At (d : Deployment) : Pc → Prop
  | .userRead (some user) => userExists d.store.db (some user.id)
  | .service _ pc => Found d.store.db pc ∧ ∀ e, stage pc = .raised e → Mapped e
  | .raised e => Mapped e
  | _ => True

theorem At.grows {d d' : Deployment} {pc : Pc} (h : At d pc)
    (hgrows : Grows d.store.db d'.store.db) : At d' pc := by
  unfold At at h ⊢
  split at h
  case h_1 => exact hgrows.userExists h
  case h_2 => exact ⟨found_of_grows hgrows h.1, h.2⟩
  all_goals exact h

theorem At.mapped {d : Deployment} {pc : Pc} (h : At d pc) {e : AppException}
    (hraised : requestStage pc = .raised e) : Mapped e := by
  cases pc with
  | service incoming pc => exact h.2 e hraised
  | raised e' =>
      cases hraised
      exact h
  | _ => cases hraised

def outline (ι : Type) : Outline ι Deployment Row Pc where
  inv d := Keyed d.store ∧ Signed d
  at_ _ d _ pc := Keys.At d.store (catalogPc pc) ∧ At d pc
  apart pc pc' := Keys.Apart (catalogPc pc) (catalogPc pc')

theorem mem_of_roleChecker {d : Deployment} {now userId : Nat} {requiredRole : Option UserRole}
    {token : Option Token} (h : roleChecker d now requiredRole token = .ok userId) :
    ∃ signed ∈ d.issued, signed.sub = userId := by
  unfold roleChecker decodeAccessToken at h
  cases token with
  | none => cases h
  | some token =>
      by_cases hvalid : token ∈ d.issued ∧ now < token.exp
      · simp only [if_pos hvalid] at h
        refine ⟨token, hvalid.1, ?_⟩
        cases requiredRole with
        | none => exact Except.ok.inj h
        | some required =>
            simp only at h
            split_ifs at h
            exact Except.ok.inj h
      · simp only [if_neg hvalid] at h
        cases h

section Admission

variable {d : Deployment} {now : Nat} {token : Option Token} {request : Request}
  {bearer : Option Nat} {pc : ServicePc}

theorem bearer_exists (hsigned : Signed d)
    (h : authorize d now token request = .ok (bearer, pc)) : userExists d.store.db bearer := by
  unfold authorize at h
  split at h
  · cases h
    rfl
  · cases h
    cases hcheck : roleChecker d now none token with
    | error e =>
        rw [optionalRoleChecker, hcheck]
        rfl
    | ok userId =>
        obtain ⟨signed, hsignedMem, rfl⟩ := mem_of_roleChecker hcheck
        rw [optionalRoleChecker, hcheck]
        exact hsigned signed hsignedMem
  · rename_i requiredRole start _
    cases hcheck : roleChecker d now requiredRole token with
    | error e =>
        rw [hcheck] at h
        cases h
    | ok userId =>
        rw [hcheck] at h
        cases h
        obtain ⟨signed, hsignedMem, rfl⟩ := mem_of_roleChecker hcheck
        exact hsigned signed hsignedMem

structure Fresh (db : Db) (pc : ServicePc) : Prop where
  found : Found db pc
  running : stage pc = .running
  event : Keys.drawnEvent (catalogOf pc) = none
  ticketCategory : Keys.drawnTicketCategory (catalogOf pc) = none
  rewritten : Keys.rewritten (catalogOf pc) = none

theorem fresh_of_authorize (hsigned : Signed d)
    (h : authorize d now token request = .ok (bearer, pc)) : Fresh d.store.db pc := by
  have hbearer := bearer_exists hsigned h
  cases request
  case createOrder body =>
      cases h
      exact ⟨hbearer, rfl, rfl, rfl, rfl⟩
  case createEvent body =>
      obtain ⟨userId, rfl, rfl⟩ := authorize_guarded rfl h
      exact ⟨hbearer, rfl, rfl, rfl, rfl⟩
  case register data =>
      cases h
      exact ⟨trivial, rfl, rfl, rfl, rfl⟩
  case payOrder orderId =>
      cases h
      exact ⟨trivial, rfl, rfl, rfl, rfl⟩
  case expireOrder orderId =>
      cases h
      exact ⟨trivial, rfl, rfl, rfl, rfl⟩
  case migrateAnonymousOrders email =>
      cases h
      exact ⟨trivial, rfl, rfl, rfl, rfl⟩
  case cancelReservationWorker =>
      cases h
      exact ⟨trivial, rfl, rfl, rfl, rfl⟩
  all_goals obtain ⟨userId, rfl, rfl⟩ := authorize_guarded rfl h
  case applyForVerification => exact ⟨rfl, rfl, rfl, rfl, rfl⟩
  case moderateUser => exact ⟨rfl, rfl, rfl, rfl, rfl⟩
  case banUser => exact ⟨rfl, rfl, rfl, rfl, rfl⟩
  case unbanUser => exact ⟨rfl, rfl, rfl, rfl, rfl⟩
  all_goals exact ⟨trivial, rfl, rfl, rfl, rfl⟩

end Admission

/-! ## One statement of a request -/

/-- The row that a payment read after a miss is paid, and so for the like calls. -/
def requestSettled (db : Db) : Pc → Bool
  | .service _ pc => settled db pc
  | _ => false

structure Covered (d : Deployment) (pc : Pc) (eff : Effect Deployment Row) (pc' : Pc) : Prop where
  mapped : ∀ e, requestStage pc' = .raised e → Mapped e
  passed : (requestStage pc).Passed → (requestStage pc').Passed
  passed_of_ne : (eff.apply d).store.db ≠ d.store.db → (requestStage pc').Passed
  origin : (requestStage pc').Passed →
    (requestStage pc).Passed ∨ (∃ write, eff = .commit write) ∨ requestSettled d.store.db pc

section Request

variable {ι : Type} {limited : Bool} {i : ι} {d : Deployment} {pc pc' : Pc} {a : Act}
  {eff : Effect Deployment Row}

/-- A statement before the service has begun, or one that is refused. -/
theorem Covered.quiet (hstage : requestStage pc = .running) (hkept : (eff.apply d).store = d.store)
    (hmapped : ∀ e, requestStage pc' = .raised e → Mapped e)
    (hopen : ¬ (requestStage pc').Passed) : Covered d pc eff pc' where
  mapped := hmapped
  passed h := by
    rw [hstage] at h
    cases h
  passed_of_ne h := absurd (congrArg Store.db hkept) h
  origin h := absurd h hopen

theorem running_of_refusal {incoming : Incoming} {pc : ServicePc} {e : AppException}
    (h : refusal limited incoming pc = some e) : stage pc = .running ∧ 0 < phase pc := by
  rcases Option.or_eq_some_iff.mp h with hrefusal | ⟨-, hcheck⟩
  · unfold Incoming.refusal at hrefusal
    split at hrefusal
    case h_10 => cases hrefusal
    all_goals exact ⟨rfl, Nat.succ_pos _⟩
  · unfold brokenCheck at hcheck
    split at hcheck
    case h_3 => cases hcheck
    all_goals exact ⟨rfl, Nat.succ_pos _⟩

theorem allowed_service {incoming : Incoming} {pc : ServicePc} {b : ServiceAct} {db : Db}
    (h : allowed limited db (.service incoming pc) (.service b)) :
    b.fails = false ∧ incoming.fits pc ∧ brokenCheck limited pc = none ∧ unviolated db pc := by
  simpa [allowed, and_assoc] using h

theorem covered_of_step (hsigned : Signed d) (hat : At d pc)
    (hallowed : allowed limited d.store.db pc a) (h : RequestStep limited i d pc a eff pc') :
    Covered d pc eff pc' := by
  cases h with
  | send hauthorize =>
      have hstage := (fresh_of_authorize hsigned hauthorize).running
      refine .quiet rfl rfl ?_ ?_
      · intro e he
        cases hstage.symm.trans he
      · rw [requestStage, hstage]
        exact id
  | refuse hrefusal =>
      obtain ⟨-, hfits, hcheck, -⟩ := allowed_service hallowed
      refine .quiet (running_of_refusal hrefusal).1 rfl ?_ id
      intro e he
      rw [refusal, hcheck, Option.or_none] at hrefusal
      obtain ⟨table, value, rfl⟩ := Incoming.refusal_of_fits hfits hrefusal
      cases he
      exact .of_isService rfl
  | serve hstep =>
      obtain ⟨hact, -, -, hfree⟩ := allowed_service hallowed
      have hmoves := service_moves (serviceStep_cases hstep) hact hat.1 hfree
      refine ⟨fun e he => hmoves.mapped he, hmoves.passed, fun hne => ?_, fun hpassed => ?_⟩
      · rw [store_lift] at hne
        exact hmoves.passed_of_ne hne
      · rcases hmoves.origin hpassed with hpc | ⟨write, rfl⟩ | hsettled
        · exact .inl hpc
        · exact .inr (.inl ⟨onStore write, rfl⟩)
        · exact .inr (.inr hsettled)
  | _ => exact .quiet rfl rfl nofun id

/-! ## The outline is sound -/

theorem keysStep_of_step (hkeyed : Keyed d.store) (hsigned : Signed d)
    (hkeys : Keys.At d.store (catalogPc pc)) (h : RequestStep limited i d pc a eff pc') :
    KeysStep d.store (eff.apply d).store (catalogPc pc) (catalogPc pc') := by
  cases h with
  | send hauthorize =>
      have hfresh := fresh_of_authorize hsigned hauthorize
      refine ⟨hkeyed, .idle hfresh.event hfresh.ticketCategory hfresh.rewritten,
        fun other hother _ => ⟨hother, ?_, ?_⟩⟩
      · simp [catalogPc, hfresh.event]
      · simp [catalogPc, hfresh.ticketCategory]
  | serve hstep =>
      rw [store_lift]
      exact keysStep_of_part hkeyed hkeys (part_of_serviceStep hstep)
  | _ =>
      exact ⟨hkeyed, keysAt_order _ _, fun other hother _ => ⟨hother, keysApart_order _ other⟩⟩

theorem grows_of_step (hat : At d pc) (h : RequestStep limited i d pc a eff pc') :
    Grows d.store.db (eff.apply d).store.db := by
  cases h with
  | serve hstep =>
      rw [store_lift]
      exact grows_of_part hat.1 (part_of_serviceStep hstep)
  | _ => exact .refl _

theorem issued_lift (eff : Effect Store Row) (d : Deployment) :
    ((eff.lift onStore).apply d).issued = d.issued := by
  cases eff <;> rfl

theorem signed_of_step (hsigned : Signed d) (hat : At d pc)
    (h : RequestStep limited i d pc a eff pc') : Signed (eff.apply d) := by
  have hgrows := grows_of_step hat h
  have hold : ∀ token ∈ d.issued, userExists (eff.apply d).store.db (some token.sub) :=
    fun token htoken => hgrows.userExists (hsigned token htoken)
  cases h with
  | @issue user verified now token hsub =>
      intro signed hmem
      rcases List.mem_append.mp hmem with hmem | hmem
      · exact hold signed hmem
      · rw [List.mem_singleton.mp hmem, hsub]
        exact hat
  | serve hstep =>
      intro token htoken
      rw [issued_lift] at htoken
      exact hold token htoken
  | _ => exact hold

theorem at_of_step (hkeyed : Keyed d.store) (hsigned : Signed d) (hat : At d pc)
    (hallowed : allowed limited d.store.db pc a) (h : RequestStep limited i d pc a eff pc') :
    At (eff.apply d) pc' := by
  have hcovered := covered_of_step hsigned hat hallowed h
  cases h with
  | send hauthorize =>
      exact ⟨(fresh_of_authorize hsigned hauthorize).found, fun e he => hcovered.mapped e he⟩
  | @login data =>
      show At d (.userRead (findByEmail d.store.db data.email))
      cases hfind : findByEmail d.store.db data.email with
      | none => trivial
      | some user =>
          have hmem := (find_eq_some hfind).1
          exact userExists_iff.mpr ⟨user, hmem, rfl⟩
  | refuse hrefusal => exact hcovered.mapped _ rfl
  | serve hstep =>
      refine ⟨?_, fun e he => hcovered.mapped e he⟩
      rw [store_lift]
      exact found_of_part hkeyed hat.1 (part_of_serviceStep hstep)
  | _ => trivial

theorem outline_sound : (outline ι).Sound (requestStep limited) (Allowed limited) where
  own _ i _ _ _ hw hok hP _ := by
    have hstep := requestStep_cases hP
    obtain ⟨hkeyed, hsigned⟩ := hw.inv
    obtain ⟨hkeys, hat⟩ := hw.at_ i
    have hkeysStep := keysStep_of_step hkeyed hsigned hkeys hstep
    exact ⟨⟨hkeysStep.keyed, signed_of_step hsigned hat hstep⟩, hkeysStep.at_,
      at_of_step hkeyed hsigned hat hok hstep⟩
  frame w i j _ _ _ hw _ hP _ hj := by
    have hstep := requestStep_cases hP
    obtain ⟨hkeyed, hsigned⟩ := hw.inv
    obtain ⟨hkeys, hat⟩ := hw.at_ i
    obtain ⟨hother, hapart⟩ := (keysStep_of_step hkeyed hsigned hkeys hstep).others _
      (hw.at_ j).1 (hw.apart i j hj.symm)
    exact ⟨⟨hother, (hw.at_ j).2.grows (grows_of_step hat hstep)⟩, hapart, hapart.symm⟩

theorem outline_start (hkeyed : Keyed d.store) (hsigned : Signed d) :
    (outline ι).Valid (atRest d) :=
  ⟨⟨hkeyed, hsigned⟩, fun _ => ⟨keysAt_order _ _, trivial⟩,
    fun _ _ _ => keysApart_order _ _⟩

/-! ## Requests come to an end -/

/-- The statements that are left to a request, by kinds and then by rows. -/
def rank : Pc → ℕ ×ₗ ℕ
  | .idle => toLex (7, 0)
  | .userRead _ => toLex (1, 0)
  | .service _ pc => toLex (phase pc, todo pc)
  | _ => toLex (0, 0)

theorem rank_of_step (h : RequestStep limited i d pc a eff pc') : rank pc' < rank pc := by
  cases h with
  | send =>
      refine Prod.Lex.toLex_lt_toLex.mpr (.inl ?_)
      exact phase_lt _
  | refuse hrefusal =>
      refine Prod.Lex.toLex_lt_toLex.mpr (.inl ?_)
      exact (running_of_refusal hrefusal).2
  | serve hstep => exact Prod.Lex.toLex_lt_toLex.mpr (service_nearer (serviceStep_cases hstep))
  | _ => exact Prod.Lex.toLex_lt_toLex.mpr (.inl (by decide))

/-- A request whose service has begun and not ended has a next statement. -/
theorem request_next {incoming : Incoming} {pc : ServicePc} (hat : At d (.service incoming pc))
    (hopen : ¬ Ended pc) (hwaiting : pc ≠ .catalog (.order .waiting)) :
    ∃ b : ServiceAct, b.fails = false ∧
      (requestStep limited i d (.service incoming pc) (.service b)).isSome := by
  obtain ⟨b, hact, hsome⟩ := service_next d.store i hat.1 hopen hwaiting
  refine ⟨b, hact, ?_⟩
  simp only [requestStep]
  split
  · rfl
  · rwa [Option.isSome_map]

end Request

/-! ## Whole runs -/

section Run

variable {ι : Type} [DecidableEq ι] {limited : Bool} {d : Deployment}
  {u v v' w : World ι Deployment Row Pc} {i : ι} {a : Act}

/-- The run from `u` to `w` has this statement of session `i` in it. -/
structure Passes (limited : Bool) (u w v v' : World ι Deployment Row Pc) (i : ι) (a : Act) :
    Prop where
  before : Run (requestStep limited) (Allowed limited) u v
  allowed : Allowed limited v i a
  step : v.step (requestStep limited) i a = some v'
  after : Run (requestStep limited) (Allowed limited) v' w

/-- The statement is the COMMIT of its transaction. -/
def Commits (limited : Bool) (v : World ι Deployment Row Pc) (i : ι) (a : Act) : Prop :=
  ∃ write pc, requestStep limited i v.shared (v.pc i) a = some (.commit write, pc)

theorem covered_of_worldStep (hv : (outline ι).Valid v) (hok : Allowed limited v i a)
    (hstep : v.step (requestStep limited) i a = some v') :
    ∃ eff, requestStep limited i v.shared (v.pc i) a = some (eff, v'.pc i) ∧
      v'.shared = eff.apply v.shared ∧ Covered v.shared (v.pc i) eff (v'.pc i) ∧
      ∀ j, j ≠ i → v'.pc j = v.pc j := by
  obtain ⟨eff, pc, hP, -, rfl⟩ := World.step_eq_some.mp hstep
  rw [World.after_pc_self]
  exact ⟨eff, hP, rfl, covered_of_step hv.inv.2 (hv.at_ i).2 hok (requestStep_cases hP),
    fun j hj => World.after_pc_other v hj eff pc⟩

theorem passed_of_run (hv : (outline ι).Valid v)
    (hrun : Run (requestStep limited) (Allowed limited) v w)
    (hpassed : (requestStage (v.pc i)).Passed) : (requestStage (w.pc i)).Passed := by
  induction hrun with
  | refl => exact hpassed
  | @step x x' j b hrun hok hstep ih =>
      obtain ⟨eff, -, -, hcovered, hothers⟩ :=
        covered_of_worldStep (outline_sound.run hrun hv) hok hstep
      by_cases hj : i = j
      · subst hj
        exact hcovered.passed ih
      · rw [hothers i hj]
        exact ih

/-- A statement of a request that raises in the end has changed no row. -/
theorem unchanged_of_raised (hu : (outline ι).Valid u) (hpasses : Passes limited u w v v' i a)
    {e : AppException} (hraised : requestStage (w.pc i) = .raised e) :
    v'.shared.store.db = v.shared.store.db := by
  have hv := outline_sound.run hpasses.before hu
  obtain ⟨eff, -, hshared, hcovered, -⟩ := covered_of_worldStep hv hpasses.allowed hpasses.step
  by_contra hne
  rw [hshared] at hne
  have hpassed := passed_of_run (outline_sound.step hv hpasses.allowed hpasses.step) hpasses.after
    (hcovered.passed_of_ne hne)
  rw [hraised] at hpassed
  exact hpassed

theorem passes_of_passed (hu : (outline ι).Valid u)
    (hrun : Run (requestStep limited) (Allowed limited) u w)
    (hopen : ¬ (requestStage (u.pc i)).Passed) (hpassed : (requestStage (w.pc i)).Passed) :
    ∃ v v' a, Passes limited u w v v' i a ∧
      (Commits limited v i a ∨ requestSettled v.shared.store.db (v.pc i)) := by
  induction hrun with
  | refl => exact absurd hpassed hopen
  | @step x x' j b hrun hok hstep ih =>
      have hbefore : (requestStage (x.pc i)).Passed → ∃ v v' a, Passes limited u x' v v' i a ∧
          (Commits limited v i a ∨ requestSettled v.shared.store.db (v.pc i)) := by
        intro hx
        obtain ⟨v, v', a, hpasses, horigin⟩ := ih hx
        exact ⟨v, v', a, { hpasses with after := .step hpasses.after hok hstep }, horigin⟩
      obtain ⟨eff, hP, -, hcovered, hothers⟩ :=
        covered_of_worldStep (outline_sound.run hrun hu) hok hstep
      by_cases hj : i = j
      · subst hj
        have hlast : Passes limited u x' x x' i b := ⟨hrun, hok, hstep, .refl⟩
        rcases hcovered.origin hpassed with hx | ⟨write, rfl⟩ | hsettled
        · exact hbefore hx
        · exact ⟨x, x', b, hlast, .inl ⟨write, _, hP⟩⟩
        · exact ⟨x, x', b, hlast, .inr hsettled⟩
      · rw [hothers i hj] at hpassed
        exact hbefore hpassed

/-- In a run whose statements do not fail from outside, bind values their columns
take and violate no constraint, a request that raises does so with an exception
that has a status and after no change of its own, and one that returns has
committed or found its row settled.  Each statement brings it nearer to its end,
and until then it has a next one. -/
theorem requests_covered (hkeyed : Keyed d.store) (hsigned : Signed d)
    (hrun : Run (requestStep limited) (Allowed limited) (atRest d) w) (i : ι) :
    (∀ e, requestStage (w.pc i) = .raised e → Mapped e ∧
        ∀ v v' a, Passes limited (atRest d) w v v' i a → v'.shared.store.db = v.shared.store.db) ∧
      (requestStage (w.pc i) = .returned → ∃ v v' a, Passes limited (atRest d) w v v' i a ∧
        (Commits limited v i a ∨ requestSettled v.shared.store.db (v.pc i))) ∧
      (∀ v v' a, Passes limited (atRest d) w v v' i a → rank (v'.pc i) < rank (v.pc i)) ∧
      ∀ incoming pc, w.pc i = .service incoming pc → ¬ Ended pc →
        pc ≠ .catalog (.order .waiting) →
        ∃ b : ServiceAct, b.fails = false ∧
          (requestStep limited i w.shared (w.pc i) (.service b)).isSome := by
  have hstart : (outline ι).Valid (atRest d) := outline_start hkeyed hsigned
  have hvalid := outline_sound.run hrun hstart
  refine ⟨fun e hraised => ⟨?_, ?_⟩, fun hreturned => ?_, ?_, ?_⟩
  · exact (hvalid.at_ i).2.mapped hraised
  · intro v v' a hpasses
    exact unchanged_of_raised hstart hpasses hraised
  · refine passes_of_passed hstart hrun id ?_
    rw [hreturned]
    trivial
  · intro v v' a hpasses
    obtain ⟨eff, pc, hP, -, heq⟩ := World.step_eq_some.mp hpasses.step
    rw [heq, World.after_pc_self]
    exact rank_of_step (requestStep_cases hP)
  · intro incoming pc hpc hopen hwaiting
    have hat := (hvalid.at_ i).2
    rw [hpc] at hat ⊢
    exact request_next hat hopen hwaiting

end Run

/-! ## An office -/

def office : Deployment where
  store := {
    db := {
      users := [⟨1, "author@example.com", .verifiedUser, true⟩]
      eventCategories := [⟨1, "music", none⟩]
      events := [⟨1, "concert", "live", 1, 1, .draft, .online, none, 100⟩]
      ticketCategories := [⟨1, 1, "parterre", 10, 2⟩]
      orders := [⟨1, some 1, none, .paid⟩]
      orderItems := [⟨1, 1, 1, 1, some 10⟩]
      tickets := [⟨1, 1, some 1, .paid⟩] }
    seq := {
      users := 2, events := 2, eventCategories := 2, ticketCategories := 2, orders := 2,
      orderItems := 2, tickets := 2 } }
  expireSeconds := 3600
  issued := [⟨1, .verifiedUser, 3600⟩]

def authorToken : Token := ⟨1, .verifiedUser, 3600⟩

def edits (i : Nat) (incoming : Incoming) (n : Nat) : List (Nat × Act) :=
  (i, .send incoming (some authorToken) 0) ::
    List.replicate n (i, .service (.catalog (.edit (.run 0))))

def addCategory (name : String) (totalQuantity : PositiveInt32) : Incoming :=
  .other (.createTicketCategory ⟨one, name, ten, totalQuantity⟩)

def registrations : List (Nat × Act) :=
  [(0, .send (.register none ⟨"guest@example.com"⟩) none 0),
    (1, .send (.register none ⟨"guest@example.com"⟩) none 0),
    (0, .service (.users .run)), (1, .service (.users .run))] ++
    List.replicate 4 (0, .service (.users .run)) ++ List.replicate 3 (1, .service (.users .run))

def stageAfter (limited : Bool) (acts : List (Nat × Act)) (i : Nat) : Option Stage :=
  ((atRest office).steps (requestStep limited) acts).map fun w => requestStage (w.pc i)

/-- A category name taken, a category sold, a quantity over the limit where the
table has its CHECK, a title of null, an id out of range, and an address
registered meanwhile. -/
theorem requests_uncovered :
    (stageAfter false (edits 0 (addCategory "parterre" one) 4) 0 =
        some (.raised (.databaseError .uniqueViolation)) ∧
      stageAfter false (edits 0 (.deleteTicketCategory 1) 5) 0 =
        some (.raised (.databaseError .foreignKeyViolation)) ∧
      stageAfter true (edits 0 (addCategory "balcony" ⟨100001, by decide⟩) 3) 0 =
        some (.raised (.databaseError .unhandled)) ∧
      stageAfter false (edits 0 (.updateEvent 1 { title := some .null }) 2) 0 =
        some (.raised (.databaseError .notNullViolation)) ∧
      stageAfter false (edits 0 (.deleteTicketCategory 2147483648) 1) 0 =
        some (.raised (.other "DBAPIError")) ∧
      stageAfter false registrations 1 = some (.raised (.databaseError .uniqueViolation))) ∧
    (∀ kind, ¬ Mapped (.databaseError kind)) ∧ ∀ name, ¬ Mapped (.other name) := by
  refine ⟨by decide, ?_, ?_⟩
  · rintro kind ⟨-, hstatus⟩
    cases hstatus
  · rintro name ⟨-, hstatus⟩
    cases hstatus

/-- A payment of no order, and a category for the draft. -/
theorem requests_covered_office :
    ∃ w, Run (requestStep false) (Allowed false) (atRest office) w ∧
      requestStage (w.pc 0) = .raised (.objectNotFound "orders" (.id 7)) ∧
      Mapped (.objectNotFound "orders" (.id 7)) ∧ requestStage (w.pc 1) = .returned ∧
      ∃ v v' a, Passes false (atRest office) w v v' 1 a ∧
        (Commits false v 1 a ∨ requestSettled v.shared.store.db (v.pc 1)) := by
  have hends : ((atRest office : World Nat Deployment Row Pc).guardedSteps
      (requestStep false) (Allowed false)
      ((0, .send (.payOrder 7) none 0) :: (0, .service (.catalog (.order .run))) ::
        (0, .service (.catalog (.order .run))) :: edits 1 (addCategory "balcony" one) 5)).map
      (fun w => (requestStage (w.pc 0), requestStage (w.pc 1))) =
        some (.raised (.objectNotFound "orders" (.id 7)), .returned) := by
    decide
  obtain ⟨w, hw, hstages⟩ := Option.map_eq_some_iff.mp hends
  obtain ⟨hraised, hreturned⟩ := Prod.mk.inj hstages
  have hrun : Run (requestStep false) (Allowed false) (atRest office) w := Run.of_guardedSteps hw
  have hkeyed : Keyed office.store := by constructor <;> decide
  have hsigned : Signed office := by unfold Signed; decide
  exact ⟨w, hrun, hraised, ((requests_covered hkeyed hsigned hrun 0).1 _ hraised).1, hreturned,
    (requests_covered hkeyed hsigned hrun 1).2.1 hreturned⟩

end TicketBooking.App.Coverage
