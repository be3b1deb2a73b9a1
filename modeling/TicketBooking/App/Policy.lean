import TicketBooking.App.Editors
import TicketBooking.App.Requests
import TicketBooking.Users.Bans
/-!
# Who may change what

The rights behind every write: in any interleaving of logins and requests a user,
an event or a category changes only as the call of its request may change it, and
that call was made with a token of somebody who had the role it takes.
-/

namespace TicketBooking.App.Policy

open TicketBooking.App.Editors (Owns)
open TicketBooking.App.PrimaryKeys (Call Keyed atCalls keyed_of_run)
open TicketBooking.App.Requests
open TicketBooking.App.Violations (ServiceAct serviceStep serviceStep_cases)
open TicketBooking.Catalog.Drafts (categoriesOf)
open TicketBooking.Database.Shared TicketBooking.Database.Tables
open TicketBooking.Library.Sessions
open TicketBooking.Users.Authentication

section Tokens

variable {ι : Type} [DecidableEq ι] {d : Deployment} {w w' : World ι Deployment Row Pc}

def Seen (d : Deployment) (w : World ι Deployment Row Pc) (user : User) : Prop :=
  ∃ v, Run apiStep anyStep (atRest d) v ∧ Run apiStep anyStep v w ∧ user ∈ v.shared.store.db.users

/-- A user with the id was active with the role at some instant of the run. -/
def Stood (d : Deployment) (w : World ι Deployment Row Pc) (id : Nat) (role : UserRole) : Prop :=
  ∃ user, Seen d w user ∧ user.id = id ∧ user.role = role ∧ user.isActive

/-- Somebody with the id was active with a role of the weight. -/
def Entitled (d : Deployment) (w : World ι Deployment Row Pc) (required : UserRole) (id : Nat) :
    Prop :=
  ∃ role, Stood d w id role ∧ weight required ≤ weight role

theorem Seen.step {user : User} (h : Seen d w user) {i : ι} {a : Act}
    (hs : w.step apiStep i a = some w') : Seen d w' user := by
  obtain ⟨v, hv, hlater, hmem⟩ := h
  exact ⟨v, hv, hlater.step trivial hs, hmem⟩

theorem Stood.step {id : Nat} {role : UserRole} (h : Stood d w id role) {i : ι} {a : Act}
    (hs : w.step apiStep i a = some w') : Stood d w' id role := by
  obtain ⟨user, hseen, huser⟩ := h
  exact ⟨user, hseen.step hs, huser⟩

/-- The one the request is made for has logged in, with the role the route takes. -/
def Admitted (d : Deployment) (w : World ι Deployment Row Pc) (bearer : Option Nat)
    (request : Request) : Prop :=
  (∀ id ∈ bearer, ∃ role, Stood d w id role) ∧
    ∀ requiredRole start, request.route = .guarded requiredRole start →
      ∀ required ∈ requiredRole, ∃ id ∈ bearer, Entitled d w required id

def Known (d : Deployment) (w : World ι Deployment Row Pc) : Pc → Prop
  | .userRead (some user) => Seen d w user
  | .service bearer request _ => Admitted d w bearer request
  | _ => True

theorem Admitted.step {bearer : Option Nat} {request : Request} (h : Admitted d w bearer request)
    {i : ι} {a : Act} (hs : w.step apiStep i a = some w') : Admitted d w' bearer request := by
  refine ⟨fun id hid => ?_, fun requiredRole start hroute required hrequired => ?_⟩
  · obtain ⟨role, hstood⟩ := h.1 id hid
    exact ⟨role, hstood.step hs⟩
  · obtain ⟨id, hid, role, hstood, hweight⟩ := h.2 requiredRole start hroute required hrequired
    exact ⟨id, hid, role, hstood.step hs, hweight⟩

theorem Known.step {pc : Pc} (h : Known d w pc) {i : ι} {a : Act}
    (hs : w.step apiStep i a = some w') : Known d w' pc := by
  unfold Known at h ⊢
  split at h
  · exact Seen.step h hs
  · exact Admitted.step h hs
  · trivial

/-- Every token has been signed for somebody who stood. -/
structure Traced (d : Deployment) (w : World ι Deployment Row Pc) : Prop where
  issued : ∀ token ∈ w.shared.issued, Stood d w token.sub token.role
  sessions : ∀ i, Known d w (w.pc i)

theorem stood_of_roleChecker (h : Traced d w) {now : Nat} {requiredRole : Option UserRole}
    {token : Option Token} {id : Nat}
    (hcheck : roleChecker w.shared now requiredRole token = .ok id) :
    ∃ role, Stood d w id role ∧ ∀ required ∈ requiredRole, weight required ≤ weight role := by
  unfold roleChecker at hcheck
  cases token with
  | none => cases hcheck
  | some token =>
      unfold decodeAccessToken at hcheck
      dsimp only at hcheck
      split_ifs at hcheck with hvalid
      · cases requiredRole with
        | none =>
            cases hcheck
            exact ⟨token.role, h.issued token hvalid.1, fun _ h => (by cases h)⟩
        | some required =>
            dsimp only at hcheck
            split_ifs at hcheck with hweight
            cases hcheck
            refine ⟨token.role, h.issued token hvalid.1, fun other hother => ?_⟩
            cases hother
            exact not_lt.mp hweight

theorem admitted_of_authorize (h : Traced d w) {now : Nat} {token : Option Token}
    {request : Request} {bearer : Option Nat} {spc : ServicePc}
    (hauthorize : authorize w.shared now token request = .ok (bearer, spc)) :
    Admitted d w bearer request := by
  unfold authorize at hauthorize
  split at hauthorize
  · rename_i start hroute
    cases hauthorize
    exact ⟨fun _ h => (by cases h), fun _ _ heq => (by rw [hroute] at heq; cases heq)⟩
  · rename_i start hroute
    cases hauthorize
    refine ⟨fun id hid => ?_, fun _ _ heq => (by rw [hroute] at heq; cases heq)⟩
    unfold optionalRoleChecker at hid
    cases hcheck : roleChecker w.shared now none token with
    | error e =>
        rw [hcheck] at hid
        cases hid
    | ok userId =>
        rw [hcheck] at hid
        cases hid
        obtain ⟨role, hstood, -⟩ := stood_of_roleChecker h hcheck
        exact ⟨role, hstood⟩
  · rename_i requiredRole start hroute
    cases hcheck : roleChecker w.shared now requiredRole token with
    | error e =>
        rw [hcheck] at hauthorize
        cases hauthorize
    | ok userId =>
        rw [hcheck] at hauthorize
        cases hauthorize
        obtain ⟨role, hstood, hweights⟩ := stood_of_roleChecker h hcheck
        refine ⟨fun id hid => ?_, fun requiredRole' start' heq required hrequired => ?_⟩
        · cases hid
          exact ⟨role, hstood⟩
        · rw [hroute] at heq
          cases heq
          exact ⟨userId, rfl, role, hstood, hweights required hrequired⟩

theorem known_settle {bearer : Option Nat} {request : Request} (h : Admitted d w bearer request)
    (spc : ServicePc) : Known d w (settle bearer request spc) := by
  unfold settle
  split
  · trivial
  · exact h

/-- What a step adds: a token for the user the login read, and what its session knows. -/
theorem traced_of_apiStep (hrun : Run apiStep anyStep (atRest d) w) (h : Traced d w) {i : ι}
    {a : Act} {eff : Effect Deployment Row} {pc' : Pc}
    (hstep : ApiStep w.shared (w.pc i) a eff pc') :
    (∀ token ∈ (eff.apply w.shared).issued, Stood d w token.sub token.role) ∧ Known d w pc' := by
  have hlift : ∀ eff : Effect Store Row,
      ((eff.lift onStore).apply w.shared).issued = w.shared.issued := by
    intro eff
    cases eff <;> rfl
  have hknown := h.sessions i
  generalize w.pc i = pc at hstep hknown
  cases hstep with
  | dispatch hauthorize => exact ⟨h.issued, admitted_of_authorize h hauthorize⟩
  | @readUser data =>
      refine ⟨h.issued, ?_⟩
      cases hfind : Users.Accounts.findByEmail w.shared.store.db data.email with
      | none => trivial
      | some user => exact ⟨w, hrun, .refl, List.mem_of_find?_eq_some hfind⟩
  | issue hactive =>
      refine ⟨fun token htoken => ?_, trivial⟩
      rcases List.mem_append.mp htoken with hold | hnew
      · exact h.issued token hold
      · rw [List.mem_singleton.mp hnew]
        exact ⟨_, hknown, rfl, rfl, hactive⟩
  | catalog =>
      rw [hlift]
      exact ⟨h.issued, known_settle hknown _⟩
  | users =>
      rw [hlift]
      exact ⟨h.issued, known_settle hknown _⟩
  | _ => exact ⟨h.issued, trivial⟩

theorem traced_of_run (hissued : d.issued = []) (hrun : Run apiStep anyStep (atRest d) w) :
    Traced d w := by
  have hnone : ∀ token ∈ d.issued, Stood d (atRest d : World ι _ _ _) token.sub token.role := by
    rw [hissued]
    exact List.forall_mem_nil _
  refine (hrun.invariant (I := fun w => Run apiStep anyStep (atRest d) w ∧ Traced d w)
    (fun w w' i a hw _ hs => ⟨hw.1.step trivial hs, ?_⟩) ⟨.refl, hnone, fun _ => trivial⟩).2
  obtain ⟨eff, pc', hP, -, rfl⟩ := World.step_eq_some.mp hs
  obtain ⟨hissued, hknown⟩ := traced_of_apiStep hw.1 hw.2 (apiStep_cases hP)
  refine ⟨fun token htoken => (hissued token htoken).step hs, fun j => ?_⟩
  by_cases hj : j = i
  · subst hj
    rw [World.after_pc_self]
    exact hknown.step hs
  · rw [World.after_pc_other w hj]
    exact (hw.2.sessions j).step hs

/-! ## The right to a call -/

/-- Somebody with the right to the call has been there: the user it is made for, or anybody where
it names nobody. -/
def Authorised (d : Deployment) (w : World ι Deployment Row Pc) : Call → Prop
  | .users (.create _) => True
  | .users (.applyForVerification userId) => ∃ role, Stood d w userId role
  | .users (.verify _ _) => ∃ id, Entitled d w .moderator id
  | .users (.ban _ actorId) => Entitled d w .admin actorId
  | .users (.unban _ actorId) => Entitled d w .admin actorId
  | .catalog (.createOrder booking) => ∀ id ∈ booking.userId, ∃ role, Stood d w id role
  | .catalog (.createEvent _ userId) => Entitled d w .verifiedUser userId
  | .catalog (.createCategory _) => ∃ id, Entitled d w .admin id
  | .catalog (.updateEvent _ userId _) => Entitled d w .verifiedUser userId
  | .catalog (.publish userId _) => Entitled d w .verifiedUser userId
  | .catalog (.cancel _ userId) => Entitled d w .verifiedUser userId
  | .catalog (.moderate _ _) => ∃ id, Entitled d w .moderator id
  | .catalog (.createTicketCategory userId _) => Entitled d w .verifiedUser userId
  | .catalog (.updateTicketCategory userId _ _) => Entitled d w .verifiedUser userId
  | .catalog (.deleteTicketCategory userId _) => Entitled d w .verifiedUser userId
  | .order (.create booking) => ∀ id ∈ booking.userId, ∃ role, Stood d w id role
  | .order _ => True

theorem authorised_of_admitted {bearer : Option Nat} {request : Request} {call : Call}
    (h : Admitted d w bearer request) (hcall : requestCall bearer request = some call) :
    Authorised d w call := by
  have hguarded : ∀ {required start}, request.route = .guarded (some required) start →
      ∀ id ∈ bearer, Entitled d w required id := by
    intro required start hroute id hid
    obtain ⟨id', hid', hentitled⟩ := h.2 _ _ hroute required rfl
    cases hid.symm.trans hid'
    exact hentitled
  cases request
  case register => cases hcall; trivial
  case createOrder => cases hcall; exact h.1
  case payOrder => cases hcall; trivial
  case expireOrder => cases hcall; trivial
  case migrateAnonymousOrders => cases hcall; trivial
  case cancelReservationWorker => cases hcall; trivial
  case applyForVerification =>
      obtain ⟨userId, hid, rfl⟩ := Option.map_eq_some_iff.mp hcall
      exact h.1 userId hid
  case moderateUser =>
      obtain ⟨userId, hid, rfl⟩ := Option.map_eq_some_iff.mp hcall
      exact ⟨userId, hguarded rfl userId hid⟩
  case moderateEvent =>
      obtain ⟨userId, hid, rfl⟩ := Option.map_eq_some_iff.mp hcall
      exact ⟨userId, hguarded rfl userId hid⟩
  case createCategory =>
      obtain ⟨userId, hid, rfl⟩ := Option.map_eq_some_iff.mp hcall
      exact ⟨userId, hguarded rfl userId hid⟩
  all_goals
    obtain ⟨userId, hid, rfl⟩ := Option.map_eq_some_iff.mp hcall
    exact hguarded rfl userId hid

/-- The session serves the call, which its token gives the right to. -/
def Made (d : Deployment) (w : World ι Deployment Row Pc) (i : ι) (call : Call) : Prop :=
  Authorised d w call ∧ ∃ bearer request pc,
    w.pc i = .service bearer request pc ∧ requestCall bearer request = some call

/-! ## What a statement may change -/

/-- What one statement changes, it changes for the request its session serves. -/
structure Permitted (d : Deployment) (w w' : World ι Deployment Row Pc) (i : ι) : Prop where
  users : w'.shared.store.db.users = w.shared.store.db.users ∨
    ∃ c, Made d w i (.users c) ∧ Users.Roles.Moves c w.shared.store w'.shared.store
  events : w'.shared.store.db.events = w.shared.store.db.events ∨
    ∃ c, Made d w i (.catalog c) ∧ Catalog.EventStates.Moves c w.shared.store w'.shared.store
  eventCategories : w'.shared.store.db.eventCategories = w.shared.store.db.eventCategories ∨
    ∃ data, Made d w i (.catalog (.createCategory data))
  ticketCategories : ∀ eventId,
    categoriesOf w'.shared.store.db eventId = categoriesOf w.shared.store.db eventId ∨
      ∃ call userId, Made d w i call ∧ Editors.editor call = some userId ∧
        Owns w.shared.store userId eventId
  orders : ∀ order ∈ w'.shared.store.db.orders,
    (∃ old ∈ w.shared.store.db.orders, old.id = order.id) ∨
      ∃ call, Made d w i call ∧ Editors.BookedFor call order

theorem Permitted.of_db {i : ι} (h : w'.shared.store.db = w.shared.store.db) :
    Permitted d w w' i := by
  refine ⟨.inl (by rw [h]), .inl (by rw [h]), .inl (by rw [h]), fun _ => .inl (by rw [h]),
    fun order horder => .inl ⟨order, h ▸ horder, rfl⟩⟩

theorem userCall_eq {bearer : Option Nat} {request : Request} {c : Users.Accounts.Call}
    {call : Call} (h : Users.Bans.userCall bearer request = some c)
    (hcall : requestCall bearer request = some call) : call = .users c := by
  cases request
  case register => cases h; cases hcall; rfl
  case applyForVerification =>
      obtain ⟨userId, rfl, rfl⟩ := Option.map_eq_some_iff.mp h
      cases hcall
      rfl
  case moderateUser =>
      obtain ⟨userId, rfl, rfl⟩ := Option.map_eq_some_iff.mp hcall
      cases h
      rfl
  case banUser =>
      obtain ⟨userId, rfl, rfl⟩ := Option.map_eq_some_iff.mp h
      cases hcall
      rfl
  case unbanUser =>
      obtain ⟨userId, rfl, rfl⟩ := Option.map_eq_some_iff.mp h
      cases hcall
      rfl
  all_goals cases h

theorem users_of_step (hkeyed : Keyed d.store) (hrun : Run apiStep anyStep (atRest d) w) {i : ι}
    {bearer : Option Nat} {request : Request} {pc : ServicePc} {call : Call}
    (hpc : w.pc i = .service bearer request pc) (hcall : requestCall bearer request = some call)
    {a : Act} (hs : w.step apiStep i a = some w') :
    w'.shared.store.db.users = w.shared.store.db.users ∨
      ∃ c, call = .users c ∧ Users.Roles.Moves c w.shared.store w'.shared.store := by
  have hroles : Users.Roles.Keyed d.store :=
    ⟨(hkeyed.ids .user).nodup, List.forall_mem_map.mp (hkeyed.ids .user).below⟩
  have hvalid := (Users.Bans.apiOutline_sound ι).run hrun (Users.Bans.apiOutline_start hroles ι)
  obtain ⟨eff, pc', hP, -, rfl⟩ := World.step_eq_some.mp hs
  rcases Users.Bans.touches_of_apiStep (apiStep_cases hP) with
    ⟨husers, -⟩ | ⟨bearer', request', upc, upc', b, effect, hservice, -, rfl, -, hstep⟩
  · exact .inl husers
  · obtain ⟨c, huser, hat⟩ := hvalid.at_ i _ _ _ hservice
    cases hpc.symm.trans hservice
    refine .inr ⟨c, userCall_eq huser hcall, ?_⟩
    show Users.Roles.Moves c w.shared.store ((effect.lift onStore).apply w.shared).store
    rw [Users.Bans.store_lift]
    exact .writes hvalid.inv hat (Users.Roles.UserStep.writes hstep)

/-- A statement of a service, for the call behind the request. -/
theorem permitted_of_service (hkeyed : Keyed d.store) (hissued : d.issued = [])
    (hrun : Run apiStep anyStep (atRest d) w) {i : ι} {a : Act}
    (hs : w.step apiStep i a = some w') {bearer : Option Nat} {request : Request} {pc : ServicePc}
    (hpc : w.pc i = .service bearer request pc) {pc' : ServicePc} {b : ServiceAct}
    {eff : Effect Store Row} (hstep : serviceStep i w.shared.store pc b = some (eff, pc'))
    (hshared : w'.shared.store = eff.apply w.shared.store) : Permitted d w w' i := by
  obtain ⟨calls, moved, v, hcalls, hserves⟩ := accounted_of_run hrun
  have hv : Run serviceStep anyStep (atCalls d.store calls) v :=
    hcalls.mono fun _ _ _ _ => trivial
  obtain ⟨hcall, hvpc⟩ : requestCall bearer request = some (calls i) ∧ v.pc i = pc := by
    have hstands := hserves.sessions i
    rw [hpc] at hstands
    generalize v.pc i = spc at hstands
    cases hstands with
    | early hearly => cases hearly
    | service hcall => exact ⟨hcall, rfl⟩
  have hmade : Made d w i (calls i) := by
    have hadmitted : Known d w (w.pc i) := (traced_of_run hissued hrun).sessions i
    rw [hpc] at hadmitted
    exact ⟨authorised_of_admitted hadmitted hcall, bearer, request, pc, hpc, hcall⟩
  have hcases := serviceStep_cases hstep
  have hevents := Moderation.events_of_touches
    (Moderation.keyed_events (keyed_of_run hkeyed hv)) ((Moderation.valid_of_run hv).at_ i)
    (Moderation.service_touches (hvpc ▸ hserves.shared ▸ hcases))
  have hat := (Editors.valid_of_run hkeyed hv).at_ i
  rw [hserves.shared] at hevents
  rw [hvpc, hserves.shared] at hat
  refine ⟨?_, ?_, ?_, fun eventId => ?_, fun order horder => ?_⟩
  · rcases users_of_step hkeyed hrun hpc hcall hs with husers | ⟨c, hc, hmoves⟩
    · exact .inl husers
    · exact .inr ⟨c, hc ▸ hmade, hmoves⟩
  · rw [hshared]
    rcases hevents with hevents | ⟨c, hc, hmoves⟩
    · exact .inl hevents
    · exact .inr ⟨c, hc ▸ hmade, hmoves⟩
  · rw [hshared]
    rcases Editors.eventCategories_of_step hat.asked hcases with hkept | ⟨data, hc⟩
    · exact .inl hkept
    · exact .inr ⟨data, hc ▸ hmade⟩
  · rw [hshared]
    rcases Editors.ticketCategories_of_step hat hcases eventId with hkept | ⟨userId, hc, howns⟩
    · exact .inl hkept
    · exact .inr ⟨calls i, userId, hmade, hc, howns⟩
  · rw [hshared] at horder
    rcases Editors.orders_of_step hat.asked hcases horder with hold | hbooked
    · exact .inl hold
    · exact .inr ⟨calls i, hmade, hbooked⟩

end Tokens

/-! ## A ban in a village -/

open TicketBooking.Users.Bans (Banned upToBan village)

theorem keyed_tables_village : Keyed village.store where
  ids model := by
    cases model with
    | user => exact ⟨by decide, by decide⟩
    | eventCategory => exact ⟨by decide, by decide⟩
    | event => exact ⟨by decide, by decide⟩
    | _ => exact ⟨List.nodup_nil, fun _ h => by cases h⟩
  emails := by decide
  categoryNames := by decide

end TicketBooking.App.Policy
