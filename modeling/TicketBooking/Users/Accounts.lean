import TicketBooking.App.Exceptions
/-!
# Accounts

The pieces of `UserService`.  `apply_for_verification`, `verify`, `ban` and
`unban` have one shape: a conditional UPDATE of the user's row, and when it
matches none, a read that decides between an idempotent success and an error.
-/

namespace TicketBooking.Users.Accounts

open TicketBooking.App.Exceptions
open TicketBooking.Database.Tables

def usersTable : String := "users"

def userNotFound (id : Nat) : AppException := .objectNotFound usersTable (.id id)

/-- The columns of the password and the user name are left out. -/
structure UserCreateSchema where
  email : String
  deriving DecidableEq, Repr

def newUser (data : UserCreateSchema) (id : Nat) : User where
  id := id
  email := data.email
  role := .user
  isActive := true

def findUser (db : Db) (id : Nat) : Option User := db.users.find? fun user => user.id = id

theorem findUser_eq_some {db : Db} {id : Nat} {user : User} (h : findUser db id = some user) :
    user ∈ db.users ∧ user.id = id :=
  find_eq_some h

def findByEmail (db : Db) (email : String) : Option User :=
  db.users.find? fun user => user.email = email

/-- A conditional UPDATE of one user, and what a miss means for the row read
after it. -/
structure Change where
  userId : Nat
  condition : User → Bool
  write : User → User
  onMiss : User → Except AppException Bool

def applyForVerification (userId : Nat) : Change where
  userId := userId
  condition user := user.role = .user ∧ user.isActive
  write user := { user with role := .onVerification }
  onMiss user :=
    if ¬ user.isActive then .error .currentUserIsBanned
    else if user.role = .onVerification then .ok true
    else .error (.wrongState [UserRole.user.value] (some user.role.value))

/-- `UserRole.VERIFIED_USER if result else UserRole.USER`. -/
def targetRole (result : Bool) : UserRole := if result then .verifiedUser else .user

def verify (userId : Nat) (result : Bool) : Change where
  userId := userId
  condition user := user.role = .onVerification ∧ user.isActive
  write user := { user with role := targetRole result }
  onMiss user :=
    if ¬ user.isActive then .error .userIsBanned
    else if user.role = targetRole result then .ok true
    else .error (.wrongState [UserRole.onVerification.value] (some user.role.value))

def setBanned (userId : Nat) : Change where
  userId := userId
  condition user := user.role ≠ .admin
  write user := { user with isActive := false }
  onMiss user :=
    if user.role = .admin then .error .cannotBanAdmin
    else if ¬ user.isActive then .ok true
    else .error (.serviceException "Unexpected user state.")

def setUnbanned (userId : Nat) : Change where
  userId := userId
  condition _ := true
  write user := { user with isActive := true }
  onMiss user :=
    if user.isActive then .ok true else .error (.serviceException "Unexpected user state.")

/-- The actor is compared before the transaction. -/
def ban (userId actorId : Nat) : Except AppException Change :=
  if userId = actorId then .error .cannotBanYourself else .ok (setBanned userId)

def unban (userId actorId : Nat) : Except AppException Change :=
  if userId = actorId then .error .cannotUnbanYourself else .ok (setUnbanned userId)

/-- The row the UPDATE matches. -/
def Change.source (change : Change) (db : Db) : Option User :=
  db.users.find? fun user => user.id = change.userId ∧ change.condition user

theorem Change.source_eq_some {change : Change} {db : Db} {user : User}
    (h : change.source db = some user) :
    user ∈ db.users ∧ user.id = change.userId ∧ change.condition user :=
  find_eq_some h

/-! ## Writes -/

def insertUser (user : User) (db : Db) : Db := { db with users := db.users ++ [user] }

def updateUser (id : Nat) (write : User → User) (db : Db) : Db :=
  { db with users := db.users.map fun user => if user.id = id then write user else user }

/-! ## Calls -/

inductive Call
  | create (data : UserCreateSchema)
  | applyForVerification (userId : Nat)
  | verify (userId : Nat) (result : Bool)
  | ban (userId actorId : Nat)
  | unban (userId actorId : Nat)
  deriving DecidableEq, Repr

/-- The UPDATE of a call, unless it is refused before. -/
def Call.change : Call → Option (Except AppException Change)
  | .create _ => none
  | .applyForVerification userId => some (.ok (Accounts.applyForVerification userId))
  | .verify userId result => some (.ok (Accounts.verify userId result))
  | .ban userId actorId => some (Accounts.ban userId actorId)
  | .unban userId actorId => some (Accounts.unban userId actorId)

inductive Caused : Call → User → User → Prop
  | applyForVerification {user : User} (hrole : user.role = .user) (hactive : user.isActive) :
      Caused (.applyForVerification user.id) user { user with role := .onVerification }
  | verify {user : User} {result : Bool} (hrole : user.role = .onVerification)
      (hactive : user.isActive) :
      Caused (.verify user.id result) user { user with role := targetRole result }
  | ban {user : User} {actorId : Nat} (hactor : user.id ≠ actorId) (hrole : user.role ≠ .admin) :
      Caused (.ban user.id actorId) user { user with isActive := false }
  | unban {user : User} {actorId : Nat} (hactor : user.id ≠ actorId) :
      Caused (.unban user.id actorId) user { user with isActive := true }

def Fulfills (user : User) : Call → Prop
  | .create _ => True
  | .applyForVerification _ => user.role = .onVerification
  | .verify _ result => user.role = targetRole result
  | .ban _ _ => user.isActive = false
  | .unban _ _ => user.isActive = true

def Call.userId : Call → Option Nat
  | .create _ => none
  | .applyForVerification userId => some userId
  | .verify userId _ => some userId
  | .ban userId _ => some userId
  | .unban userId _ => some userId

inductive Runs : Call → Change → Prop
  | applyForVerification {userId : Nat} :
      Runs (.applyForVerification userId) (Accounts.applyForVerification userId)
  | verify {userId : Nat} {result : Bool} :
      Runs (.verify userId result) (Accounts.verify userId result)
  | ban {userId actorId : Nat} (hactor : userId ≠ actorId) :
      Runs (.ban userId actorId) (setBanned userId)
  | unban {userId actorId : Nat} (hactor : userId ≠ actorId) :
      Runs (.unban userId actorId) (setUnbanned userId)

variable {call : Call} {change : Change}

theorem runs_of_change (h : call.change = some (.ok change)) : Runs call change := by
  cases call with
  | create data => cases h
  | applyForVerification userId =>
      cases h
      exact .applyForVerification
  | verify userId result =>
      cases h
      exact .verify
  | ban userId actorId =>
      simp only [Call.change, Accounts.ban, Option.some.injEq] at h
      split_ifs at h with hactor
      cases h
      exact .ban hactor
  | unban userId actorId =>
      simp only [Call.change, Accounts.unban, Option.some.injEq] at h
      split_ifs at h with hactor
      cases h
      exact .unban hactor

theorem Runs.userId (h : Runs call change) : call.userId = some change.userId := by
  cases h <;> rfl

theorem Runs.caused (h : Runs call change) {user : User} (hid : user.id = change.userId)
    (hcondition : change.condition user) : Caused call user (change.write user) := by
  cases h with
  | @applyForVerification userId =>
      obtain rfl : user.id = userId := hid
      have hmatched : user.role = .user ∧ user.isActive := of_decide_eq_true hcondition
      exact .applyForVerification hmatched.1 hmatched.2
  | @verify userId result =>
      obtain rfl : user.id = userId := hid
      have hmatched : user.role = .onVerification ∧ user.isActive := of_decide_eq_true hcondition
      exact .verify hmatched.1 hmatched.2
  | @ban userId actorId hactor =>
      obtain rfl : user.id = userId := hid
      exact .ban hactor (of_decide_eq_true hcondition)
  | @unban userId actorId hactor =>
      obtain rfl : user.id = userId := hid
      exact .unban hactor

theorem Runs.fulfills_write (h : Runs call change) (user : User) :
    Fulfills (change.write user) call := by
  cases h <;> rfl

/-- A miss is a success only where the user is as the call asks. -/
theorem Runs.fulfills_of_miss (h : Runs call change) {user : User}
    (hmiss : change.onMiss user = .ok true) : Fulfills user call := by
  cases h with
  | applyForVerification =>
      simp only [Accounts.applyForVerification] at hmiss
      split_ifs at hmiss with hactive hrole
      exact hrole
  | verify =>
      simp only [Accounts.verify] at hmiss
      split_ifs at hmiss with hactive hrole
      exact hrole
  | ban =>
      simp only [setBanned] at hmiss
      split_ifs at hmiss with hrole hactive
      exact (Bool.not_eq_true _).mp hactive
  | unban =>
      simp only [setUnbanned] at hmiss
      split_ifs at hmiss with hactive
      exact hactive

end TicketBooking.Users.Accounts
