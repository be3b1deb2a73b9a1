import TicketBooking.Catalog.System
import TicketBooking.Library.Outcomes
import TicketBooking.Users.Transactions
/-!
# Tokens and the guarded routes

`UserService.authenticate`, `RoleChecker`, and the routes that change the state
behind it.  A login reads the user row; a request afterwards is admitted on what
its token says, and no route looks at the row again for the one who sends it,
`apply_for_verification` apart.
-/

namespace TicketBooking.Users.Authentication

open TicketBooking.App.Exceptions
open TicketBooking.Catalog.Editing
open TicketBooking.Database.Shared TicketBooking.Database.Tables
open TicketBooking.Library.Outcomes TicketBooking.Library.Sessions
open TicketBooking.Order.Booking (OrderCreateSchema)
open TicketBooking.Users.Accounts TicketBooking.Users.Transactions

/-! ## Tokens -/

def weight : UserRole → Nat
  | .user => 10
  | .onVerification => 10
  | .verifiedUser => 20
  | .moderator => 30
  | .admin => 40

/-- The claims of an access token; `exp` is in whole seconds. -/
structure Token where
  sub : Nat
  role : UserRole
  exp : Nat
  deriving DecidableEq, Repr

/-- The store, the lifetime the JWT manager is configured with, and the tokens it
has signed. -/
structure Deployment where
  store : Store
  expireSeconds : Nat
  issued : List Token

/-- A signature verifies exactly when the manager made it, and the library
refuses a token at its expiry. -/
def decodeAccessToken (d : Deployment) (now : Nat) (token : Token) : Option Token :=
  if token ∈ d.issued ∧ now < token.exp then some token else none

/-! ## `RoleChecker` -/

/-- The `HTTPException`s of `RoleChecker`; a token of the manager has both claims. -/
inductive HTTPException
  | authenticationRequired
  | invalidToken
  | notEnoughPermissions
  deriving DecidableEq, Repr

def HTTPException.statusCode : HTTPException → Nat
  | .authenticationRequired => 401
  | .invalidToken => 401
  | .notEnoughPermissions => 403

def HTTPException.detail : HTTPException → String
  | .authenticationRequired => "Authentication required."
  | .invalidToken => "Invalid or expired token."
  | .notEnoughPermissions => "Not enough permissions."

def roleChecker (d : Deployment) (now : Nat) (requiredRole : Option UserRole)
    (token : Option Token) : Except HTTPException Nat :=
  match token with
  | none => .error .authenticationRequired
  | some token =>
      match decodeAccessToken d now token with
      | none => .error .invalidToken
      | some payload =>
          match requiredRole with
          | none => .ok payload.sub
          | some required =>
              if weight payload.role < weight required then .error .notEnoughPermissions
              else .ok payload.sub

/-- `RoleChecker(optional=True)`: a refusal becomes `None`. -/
def optionalRoleChecker (d : Deployment) (now : Nat) (token : Option Token) : Option Nat :=
  (roleChecker d now none token).toOption

/-! ## Routes -/

inductive ServicePc
  | catalog (pc : Catalog.System.Pc)
  | users (pc : UserPc)

/-- The requests that change the state, and the workers of the task manager.
`POST /orders` and the payment come without an idempotency key. -/
inductive Request
  | register (data : UserCreateSchema)
  | applyForVerification
  | moderateUser (userId : Nat) (result : Bool)
  | banUser (userId : Nat)
  | unbanUser (userId : Nat)
  | createEvent (body : EventCreateSchema)
  | updateEvent (eventId : Nat) (body : EventUpdateSchema)
  | publish (eventId : Nat)
  | cancel (eventId : Nat)
  | moderateEvent (eventId : Nat) (result : Bool)
  | createCategory (body : EventCategoryCreateSchema)
  | createTicketCategory (body : TicketCategoryCreateSchema)
  | updateTicketCategory (categoryId : Nat) (body : TicketCategoryUpdateSchema)
  | deleteTicketCategory (categoryId : Nat)
  | createOrder (body : OrderCreateSchema)
  | payOrder (orderId : Nat)
  | expireOrder (orderId : Nat)
  | migrateAnonymousOrders (email : String)
  | cancelReservationWorker

/-- What a route depends on, and the first statement of its service. -/
inductive Route
  | anonymous (pc : ServicePc)
  | optional (pc : Option Nat → ServicePc)
  | guarded (requiredRole : Option UserRole) (pc : Nat → ServicePc)

def callService (call : Call) : ServicePc := .users (callPc call)
def catalogService (call : Catalog.System.Call) : ServicePc := .catalog call.pc
def orderService (call : Order.Transactions.Call) : ServicePc := .catalog (.order call.pc)

/-- The routers' tables: `AnyUserIdDep`, `VerifiedUserIdDep`, `OptionalUserIdDep`,
and the role the moderation and admin routers ask for. -/
def Request.route : Request → Route
  | .register data => .anonymous (callService (.create data))
  | .applyForVerification =>
      .guarded none fun userId => callService (.applyForVerification userId)
  | .moderateUser userId result =>
      .guarded (some .moderator) fun _ => callService (.verify userId result)
  | .banUser userId => .guarded (some .admin) fun actorId => callService (.ban userId actorId)
  | .unbanUser userId => .guarded (some .admin) fun actorId => callService (.unban userId actorId)
  | .createEvent body =>
      .guarded (some .verifiedUser) fun userId => catalogService (.createEvent body userId)
  | .updateEvent eventId body =>
      .guarded (some .verifiedUser) fun userId => catalogService (.updateEvent body userId eventId)
  | .publish eventId =>
      .guarded (some .verifiedUser) fun userId => catalogService (.publish userId eventId)
  | .cancel eventId =>
      .guarded (some .verifiedUser) fun userId => catalogService (.cancel eventId userId)
  | .moderateEvent eventId result =>
      .guarded (some .moderator) fun _ => catalogService (.moderate eventId result)
  | .createCategory body => .guarded (some .admin) fun _ => catalogService (.createCategory body)
  | .createTicketCategory body =>
      .guarded (some .verifiedUser) fun userId => catalogService (.createTicketCategory userId body)
  | .updateTicketCategory categoryId body =>
      .guarded (some .verifiedUser) fun userId =>
        catalogService (.updateTicketCategory userId categoryId body)
  | .deleteTicketCategory categoryId =>
      .guarded (some .verifiedUser) fun userId =>
        catalogService (.deleteTicketCategory userId categoryId)
  | .createOrder body => .optional fun userId => orderService (.create ⟨body, userId⟩)
  | .payOrder orderId => .anonymous (orderService (.confirmPayment orderId))
  | .expireOrder orderId => .anonymous (orderService (.expireOrder orderId))
  | .migrateAnonymousOrders email => .anonymous (orderService (.migrateAnonymousOrders email))
  | .cancelReservationWorker => .anonymous (orderService .cancelReservationWorker)

/-- The dependencies run before the route: whom the request is made as, and what
it starts. -/
def authorize (d : Deployment) (now : Nat) (token : Option Token) (request : Request) :
    Except HTTPException (Option Nat × ServicePc) :=
  match request.route with
  | .anonymous pc => .ok (none, pc)
  | .optional pc =>
      let userId := optionalRoleChecker d now token
      .ok (userId, pc userId)
  | .guarded requiredRole pc =>
      (roleChecker d now requiredRole token).map fun userId => (some userId, pc userId)

theorem authorize_guarded {d : Deployment} {now : Nat} {token : Option Token} {request : Request}
    {requiredRole : Option UserRole} {start : Nat → ServicePc} {bearer : Option Nat}
    {pc : ServicePc} (hroute : request.route = .guarded requiredRole start)
    (h : authorize d now token request = .ok (bearer, pc)) :
    ∃ userId, bearer = some userId ∧ pc = start userId := by
  unfold authorize at h
  rw [hroute] at h
  obtain ⟨userId, -, heq⟩ := map_eq_ok h
  cases heq
  exact ⟨userId, rfl, rfl⟩

def admitted (d : Deployment) (now : Nat) (token : Option Token) (request : Request) :
    Option Nat :=
  match authorize d now token request with
  | .ok (bearer, _) => bearer
  | .error _ => none

/-! ## `authenticate` -/

/-- The password is checked outside the model. -/
structure UserLoginSchema where
  email : String
  deriving DecidableEq, Repr

def createAccessToken (expireSeconds now : Nat) (user : User) : Token :=
  ⟨user.id, user.role, now + expireSeconds⟩

/-- `authenticate` after its read; `verified` is what `verify_password` answers. -/
def authenticate (expireSeconds : Nat) (user : Option User) (verified : Bool) (now : Nat) :
    Except AppException Token :=
  match user with
  | none => .error .incorrectLoginData
  | some user =>
      if ¬ verified then .error .incorrectLoginData
      else if ¬ user.isActive then .error .currentUserIsBanned
      else .ok (createAccessToken expireSeconds now user)

/-! ## Requests, statement by statement -/

def onStore (write : Store → Store) (d : Deployment) : Deployment :=
  { d with store := write d.store }

def issue (token : Token) (d : Deployment) : Deployment :=
  { d with issued := d.issued ++ [token] }

/-- Whether the service has returned, and then whether without an exception. -/
def outcome : ServicePc → Option Bool
  | .catalog (.order (.create (.finished _ result))) => some result.isOk
  | .catalog (.order (.confirm (.finished result))) => some result.isOk
  | .catalog (.order (.expire (.finished result))) => some result.isOk
  | .catalog (.order (.migrate (.finished result))) => some result.isOk
  | .catalog (.createEvent (.finished result)) => some result.isOk
  | .catalog (.createCategory (.finished result)) => some result.isOk
  | .catalog (.updateEvent (.finished result)) => some result.isOk
  | .catalog (.transition (.finished result)) => some result.isOk
  | .catalog (.createTicketCategory (.finished result)) => some result.isOk
  | .catalog (.modifyTicketCategory (.finished result)) => some result.isOk
  | .users (.create (.finished result)) => some result.isOk
  | .users (.change (.finished result)) => some result.isOk
  | _ => none

/-- A session is one request; `bearer` is the user it was admitted for. -/
inductive Pc
  | idle
  | login (data : UserLoginSchema)
  | userRead (user : Option User)
  | loggedIn (result : Except AppException Token)
  | refused (e : HTTPException)
  | service (bearer : Option Nat) (request : Request) (pc : ServicePc)
  | answered (bearer : Option Nat) (request : Request) (success : Bool)

def settle (bearer : Option Nat) (request : Request) (pc : ServicePc) : Pc :=
  match outcome pc with
  | some success => .answered bearer request success
  | none => .service bearer request pc

inductive Act
  | send (request : Request) (token : Option Token) (now : Nat)
  | login (data : UserLoginSchema)
  | readUser
  | authenticate (verified : Bool) (now : Nat)
  | catalog (a : Catalog.System.Act)
  | users (a : UserAct)

def dispatch (request : Request) :
    Except HTTPException (Option Nat × ServicePc) → Effect Deployment Row × Pc
  | .error e => (.stay, .refused e)
  | .ok (bearer, pc) => (.stay, .service bearer request pc)

def answerLogin : Except AppException Token → Effect Deployment Row × Pc
  | .error e => (.stay, .loggedIn (.error e))
  | .ok token => (.emit (issue token), .loggedIn (.ok token))

def apiStep {ι : Type} : Protocol ι Deployment Row Pc Act
  | _, d, .idle, .send request token now => some (dispatch request (authorize d now token request))
  | _, _, .idle, .login data => some (.stay, .login data)
  | _, d, .login data, .readUser => some (.stay, .userRead (findByEmail d.store.db data.email))
  | _, d, .userRead user, .authenticate verified now =>
      some (answerLogin (authenticate d.expireSeconds user verified now))
  | i, d, .service bearer request (.catalog pc), .catalog a =>
      (Catalog.System.systemStep i d.store pc a).map fun (eff, pc) =>
        (eff.lift onStore, settle bearer request (.catalog pc))
  | i, d, .service bearer request (.users pc), .users a =>
      (userStep i d.store pc a).map fun (eff, pc) =>
        (eff.lift onStore, settle bearer request (.users pc))
  | _, _, _, _ => none

def atRest {ι : Type} (d : Deployment) : World ι Deployment Row Pc :=
  World.start d fun _ => .idle

/-! ## What each statement does -/

inductive ApiStep (d : Deployment) : Pc → Act → Effect Deployment Row → Pc → Prop
  | refuse {request : Request} {token : Option Token} {now : Nat} {e : HTTPException} :
      ApiStep d .idle (.send request token now) .stay (.refused e)
  | dispatch {request : Request} {token : Option Token} {now : Nat} {bearer : Option Nat}
      {pc : ServicePc} (hauthorize : authorize d now token request = .ok (bearer, pc)) :
      ApiStep d .idle (.send request token now) .stay (.service bearer request pc)
  | login {data : UserLoginSchema} : ApiStep d .idle (.login data) .stay (.login data)
  | readUser {data : UserLoginSchema} :
      ApiStep d (.login data) .readUser .stay (.userRead (findByEmail d.store.db data.email))
  | refuseLogin {user : Option User} {verified : Bool} {now : Nat} {e : AppException} :
      ApiStep d (.userRead user) (.authenticate verified now) .stay (.loggedIn (.error e))
  | issue {user : User} {verified : Bool} {now : Nat} (hactive : user.isActive) :
      ApiStep d (.userRead (some user)) (.authenticate verified now)
        (.emit (issue (createAccessToken d.expireSeconds now user)))
        (.loggedIn (.ok (createAccessToken d.expireSeconds now user)))
  | catalog {bearer : Option Nat} {request : Request} {pc pc' : Catalog.System.Pc}
      {a : Catalog.System.Act} {eff : Effect Store Row}
      (h : Catalog.System.SystemStep d.store pc a eff pc') :
      ApiStep d (.service bearer request (.catalog pc)) (.catalog a) (eff.lift onStore)
        (settle bearer request (.catalog pc'))
  | users {bearer : Option Nat} {request : Request} {pc pc' : UserPc} {a : UserAct}
      {eff : Effect Store Row} (h : UserStep d.store pc a eff pc') :
      ApiStep d (.service bearer request (.users pc)) (.users a) (eff.lift onStore)
        (settle bearer request (.users pc'))

theorem apiStep_cases {ι : Type} {i : ι} {d : Deployment} {pc pc' : Pc} {a : Act}
    {eff : Effect Deployment Row} (h : apiStep i d pc a = some (eff, pc')) :
    ApiStep d pc a eff pc' := by
  unfold apiStep at h
  split at h
  case h_1 request token now =>
      generalize hauthorize : authorize _ now token request = answer at h
      cases answer with
      | error e =>
          cases h
          exact .refuse
      | ok admission =>
          obtain ⟨bearer, pc⟩ := admission
          cases h
          exact .dispatch hauthorize
  case h_2 data =>
      cases h
      exact .login
  case h_3 data =>
      cases h
      exact .readUser
  case h_4 user verified now =>
      unfold authenticate at h
      split at h
      · cases h
        exact .refuseLogin
      · rename_i user
        by_cases hverified : verified = true
        · by_cases hactive : user.isActive = true
          · rw [if_neg (not_not.mpr hverified), if_neg (not_not.mpr hactive)] at h
            cases h
            exact .issue hactive
          · rw [if_neg (not_not.mpr hverified), if_pos hactive] at h
            cases h
            exact .refuseLogin
        · rw [if_pos hverified] at h
          cases h
          exact .refuseLogin
  case h_5 bearer request pc a =>
      obtain ⟨⟨eff', pc''⟩, hstep, heq⟩ := Option.map_eq_some_iff.mp h
      cases heq
      exact .catalog (Catalog.System.systemStep_cases hstep)
  case h_6 bearer request pc a =>
      obtain ⟨⟨eff', pc''⟩, hstep, heq⟩ := Option.map_eq_some_iff.mp h
      cases heq
      exact .users (userStep_cases hstep)
  case h_7 => cases h

end TicketBooking.Users.Authentication
