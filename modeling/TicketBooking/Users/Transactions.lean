import TicketBooking.Library.Sessions
import TicketBooking.Order.Transactions
import TicketBooking.Users.Accounts
/-!
# The user service, statement by statement

`UserService.create`, `apply_for_verification`, `verify`, `ban` and `unban` as
sessions at READ COMMITTED.  The UPDATE waits for the row lock and checks its
condition on the row it then finds; the read after a miss is a statement of its
own.
-/

namespace TicketBooking.Users.Transactions

open TicketBooking.App.Exceptions
open TicketBooking.Database.Shared TicketBooking.Database.Tables
open TicketBooking.Library.Sessions
open TicketBooking.Order.Transactions (enqueue brokerFailure)
open TicketBooking.Users.Accounts

/-- The next statement runs or fails for a reason from outside; the broker takes
a task at the clock readings `now` and `later`. -/
inductive UserAct
  | run
  | perform (now later : Nat)
  | fail
  deriving DecidableEq

def drawUserId (s : Store) : Store := { s with seq := { s.seq with users := s.seq.users + 1 } }

/-! ## `UserService.create` -/

inductive CreatePc
  | start (data : UserCreateSchema)
  | checked (data : UserCreateSchema)
  | inserting (user : User)
  | keyed (user : User)
  | inserted (user : User)
  | committed (user : User)
  | finished (result : Except AppException User)

def createStep (s : Store) : CreatePc → UserAct → Option (Effect Store Row × CreatePc)
  | .start data, .run =>
      match findByEmail s.db data.email with
      | some _ => some (.rollback, .finished (.error (.uniqueField "email" data.email)))
      | none => some (.stay, .checked data)
  | .checked data, .run => some (.emit drawUserId, .inserting (newUser data s.seq.users))
  | .inserting user, .run =>
      -- the index entry waits for a transaction that is inserting the same address
      some (.lock (.userEmail user.email), .keyed user)
  | .keyed user, .run =>
      match findByEmail s.db user.email with
      | some _ => some (.rollback, .finished (.error (.databaseError .uniqueViolation)))
      | none => some (.stay, .inserted user)
  | .inserted user, .run => some (.commit fun s => s.withDb (insertUser user), .committed user)
  | .committed user, .perform now later =>
      some (.emit (enqueue (.transferAnonymOrders user.email) none now later),
        .finished (.ok user))
  | .committed _, .fail => some (.stay, .finished (.error brokerFailure))
  | .finished _, _ => none
  | _, .perform _ _ => none
  | .committed _, .run => none
  | _, .fail => some (.rollback, .finished (.error (.databaseError .unhandled)))

/-! ## The conditional updates -/

inductive ChangePc
  | start (call : Call)
  | missed (change : Change)
  | updated (change : Change)
  | finished (result : Except AppException Bool)

def changeStep (s : Store) : ChangePc → UserAct → Option (Effect Store Row × ChangePc)
  | .start call, .run =>
      match call.change with
      | none => none
      | some (.error e) => some (.stay, .finished (.error e))
      | some (.ok change) =>
          match change.source s.db with
          | some _ => some (.lock (.user change.userId), .updated change)
          | none => some (.stay, .missed change)
  | .missed change, .run =>
      match findUser s.db change.userId with
      | none => some (.rollback, .finished (.error (userNotFound change.userId)))
      | some user => some (.rollback, .finished (change.onMiss user))
  | .updated change, .run =>
      some (.commit fun s => s.withDb (updateUser change.userId change.write),
        .finished (.ok true))
  | .finished _, _ => none
  | _, .perform _ _ => none
  | _, .fail => some (.rollback, .finished (.error (.databaseError .unhandled)))

inductive UserPc
  | create (pc : CreatePc)
  | change (pc : ChangePc)

def userStep {ι : Type} : Protocol ι Store Row UserPc UserAct
  | _, s, .create pc, a => (createStep s pc a).map fun (eff, pc) => (eff, .create pc)
  | _, s, .change pc, a => (changeStep s pc a).map fun (eff, pc) => (eff, .change pc)

def callPc : Call → UserPc
  | .create data => .create (.start data)
  | call => .change (.start call)

def atCalls {ι : Type} (s : Store) (calls : ι → Call) : World ι Store Row UserPc :=
  World.start s fun i => callPc (calls i)

/-! ## What each statement does -/

inductive CreateStep (s : Store) : CreatePc → UserAct → Effect Store Row → CreatePc → Prop
  | check {data : UserCreateSchema} : CreateStep s (.start data) .run .stay (.checked data)
  | draw {data : UserCreateSchema} :
      CreateStep s (.checked data) .run (.emit drawUserId) (.inserting (newUser data s.seq.users))
  | lockEmail {user : User} :
      CreateStep s (.inserting user) .run (.lock (.userEmail user.email)) (.keyed user)
  | insert {user : User} (hfree : findByEmail s.db user.email = none) :
      CreateStep s (.keyed user) .run .stay (.inserted user)
  | commit {user : User} :
      CreateStep s (.inserted user) .run (.commit fun s => s.withDb (insertUser user))
        (.committed user)
  | perform {user : User} {now later : Nat} :
      CreateStep s (.committed user) (.perform now later)
        (.emit (enqueue (.transferAnonymOrders user.email) none now later)) (.finished (.ok user))
  | fails {user : User} :
      CreateStep s (.committed user) .fail .stay (.finished (.error brokerFailure))
  | quits {pc : CreatePc} {a : UserAct} {e : AppException} :
      CreateStep s pc a .rollback (.finished (.error e))

theorem createStep_cases {s : Store} {pc pc' : CreatePc} {a : UserAct} {eff : Effect Store Row}
    (h : createStep s pc a = some (eff, pc')) : CreateStep s pc a eff pc' := by
  fun_cases createStep s pc a
  all_goals simp only [createStep] at h
  all_goals try simp only [*] at h
  all_goals cases h
  all_goals constructor <;> assumption

inductive ChangeStep (s : Store) : ChangePc → UserAct → Effect Store Row → ChangePc → Prop
  | refuse {call : Call} {e : AppException} :
      ChangeStep s (.start call) .run .stay (.finished (.error e))
  | update {call : Call} {change : Change} {user : User} (hruns : Runs call change)
      (hsource : change.source s.db = some user) :
      ChangeStep s (.start call) .run (.lock (.user change.userId)) (.updated change)
  | miss {call : Call} {change : Change} (hruns : Runs call change) :
      ChangeStep s (.start call) .run .stay (.missed change)
  | decide {change : Change} {user : User} (hfind : findUser s.db change.userId = some user) :
      ChangeStep s (.missed change) .run .rollback (.finished (change.onMiss user))
  | commit {change : Change} :
      ChangeStep s (.updated change) .run
        (.commit fun s => s.withDb (updateUser change.userId change.write)) (.finished (.ok true))
  | quits {pc : ChangePc} {a : UserAct} {e : AppException} :
      ChangeStep s pc a .rollback (.finished (.error e))

theorem changeStep_cases {s : Store} {pc pc' : ChangePc} {a : UserAct} {eff : Effect Store Row}
    (h : changeStep s pc a = some (eff, pc')) : ChangeStep s pc a eff pc' := by
  fun_cases changeStep s pc a
  all_goals simp only [changeStep] at h
  case case3 call change hchange user hsource =>
      simp only [hchange, hsource] at h
      cases h
      exact .update (runs_of_change hchange) hsource
  case case4 call change hchange hsource =>
      simp only [hchange, hsource] at h
      cases h
      exact .miss (runs_of_change hchange)
  all_goals try simp only [*] at h
  all_goals cases h
  all_goals constructor
  all_goals assumption

inductive UserStep (s : Store) : UserPc → UserAct → Effect Store Row → UserPc → Prop
  | create {pc pc' : CreatePc} {a : UserAct} {eff : Effect Store Row}
      (h : CreateStep s pc a eff pc') : UserStep s (.create pc) a eff (.create pc')
  | change {pc pc' : ChangePc} {a : UserAct} {eff : Effect Store Row}
      (h : ChangeStep s pc a eff pc') : UserStep s (.change pc) a eff (.change pc')

theorem userStep_cases {ι : Type} {i : ι} {s : Store} {pc pc' : UserPc} {a : UserAct}
    {eff : Effect Store Row} (h : userStep i s pc a = some (eff, pc')) :
    UserStep s pc a eff pc' := by
  cases pc <;> simp only [userStep, Option.map_eq_some_iff] at h
  all_goals
    obtain ⟨⟨eff', pc''⟩, h, heq⟩ := h
    cases heq
  · exact .create (createStep_cases h)
  · exact .change (changeStep_cases h)

end TicketBooking.Users.Transactions
