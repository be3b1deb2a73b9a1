import TicketBooking.Database.Statements
import TicketBooking.Users.Transactions
/-!
# The statements of the user service

`UserService` as it calls the query layer, and the model that works on the table.
-/

namespace TicketBooking.Users.Statements

open TicketBooking.App.Exceptions (AppException)
open TicketBooking.Database.Lookups TicketBooking.Database.Models TicketBooking.Database.Shared
open TicketBooking.Database.Statements TicketBooking.Database.Tables
open TicketBooking.Library.Sessions
open TicketBooking.Query.Comparisons TicketBooking.Query.Operators
open TicketBooking.Users.Accounts TicketBooking.Users.Transactions

/-! ## `create` -/

def createStatement (now : Int) (s : Store) :
    CreatePc → UserAct → Option (Effect Store Row × CreatePc)
  | .start data, .run =>
      some (answered (fun e => .finished (.error e))
        (repositoryGet now s.db .user [("email", .text data.email)]) fun found =>
          match found with
          | some _ => (.rollback, .finished (.error (.uniqueField "email" data.email)))
          | none => (.stay, .checked data))
  | pc, a => createStep s pc a

/-! ## The conditional updates -/

def roleFilters (userId : Nat) (role : UserRole) : List (OwnFilter Argument) :=
  [equals "id" (.int userId), equals "role" (.text role.value), equals "is_active" (.bool true)]

def notAdmin : OwnFilter Argument :=
  ⟨"role__ne", "role", .ne, some "role", .one (.text UserRole.admin.value)⟩

def filtersOf : Call → List (OwnFilter Argument)
  | .create _ => []
  | .applyForVerification userId => roleFilters userId .user
  | .verify userId _ => roleFilters userId .onVerification
  | .ban userId _ => [equals "id" (.int userId), notAdmin]
  | .unban userId _ => [equals "id" (.int userId)]

def changeStatement (now : Int) (s : Store) :
    ChangePc → UserAct → Option (Effect Store Row × ChangePc)
  | .start call, .run =>
      match call.change with
      | none => none
      | some (.error e) => some (.stay, .finished (.error e))
      | some (.ok change) =>
          some (answered (fun e => .finished (.error e))
            (updatedRows now s.db .user (filtersOf call)) fun found =>
              match found.head? with
              | none => (.stay, .missed change)
              | some row => (lockFound row, .updated change))
  | .missed change, .run =>
      some (answered (fun e => .finished (.error e))
        (repositoryGet now s.db .user [("id", .int change.userId)]) fun found =>
          match found with
          | some (.user user) => (.rollback, .finished (change.onMiss user))
          | _ => (.rollback, .finished (.error (userNotFound change.userId))))
  | pc, a => changeStep s pc a

/-! ## The statements of the model -/

section Agree

variable {now : Int} {s : Store}

theorem namesColumn_email : NamesColumn .user "email" :=
  OwnKey.namesColumn (.of (by simp [ownKeys])) rfl

theorem namesColumn_role : NamesColumn .user "role" :=
  OwnKey.namesColumn (.of (by simp [ownKeys])) rfl

theorem namesColumn_isActive : NamesColumn .user "is_active" :=
  OwnKey.namesColumn (.of (by simp [ownKeys])) rfl

theorem repositoryGet_email (hemails : (s.db.users.map fun user => user.email).Nodup)
    (email : String) :
    repositoryGet now s.db .user [("email", .text email)] =
      .ok ((findByEmail s.db email).map .user) := by
  refine repositoryGet_table (T := users) (fun kwarg hkwarg => ?_) (fun user => ?_)
    fun user huser other hother hemail hemail' => ?_
  · rw [List.mem_singleton.mp hkwarg]
    exact namesColumn_email
  · show (decide (some (Value.text user.email) = some (.text email)) && true) = _
    simp only [Option.some.injEq, Value.text.injEq, Bool.and_true]
  · refine List.inj_on_of_nodup_map hemails huser hother ?_
    exact (of_decide_eq_true hemail).trans (of_decide_eq_true hemail').symm

theorem createStatement_eq (hemails : (s.db.users.map fun user => user.email).Nodup)
    (pc : CreatePc) (a : UserAct) : createStatement now s pc a = createStep s pc a := by
  unfold createStatement
  split
  · rename_i data
    rw [repositoryGet_email hemails, createStep]
    cases findByEmail s.db data.email <;> rfl
  · rfl

theorem value_inj {role role' : UserRole} (h : role.value = role'.value) : role = role' := by
  revert h
  cases role <;> cases role' <;> decide

theorem read_role (db : Rows) (user : User) :
    readRecord now db "role" (.user user) = some (.text user.role.value) := by
  show some (Value.text _) = _
  cases user.role <;> rfl

theorem equals_role (db : Rows) (role : UserRole) (user : User) :
    decide (readRecord now db "role" (.user user) = some (.text role.value)) =
      decide (user.role = role) := by
  rw [read_role, decide_eq_decide, Option.some.injEq, Value.text.injEq]
  exact ⟨value_inj, congrArg _⟩

theorem updatedRows_role (db : Db) (userId : Nat) (role : UserRole) :
    updatedRows now db .user (roleFilters userId role) =
      .ok ((db.users.filter fun user => user.id = userId ∧ user.role = role ∧ user.isActive).map
        .user) := by
  refine updatedRows_table (T := users) (valid_equals_all [("id", .int userId),
    ("role", .text role.value), ("is_active", .bool true)] fun kwarg hkwarg => ?_) fun user => ?_
  · simp only [List.mem_cons, List.not_mem_nil, or_false] at hkwarg
    rcases hkwarg with rfl | rfl | rfl
    · exact namesColumn_id .user
    · exact namesColumn_role
    · exact namesColumn_isActive
  · show (decide (some (Value.int user.id) = some (.int userId)) &&
      (decide (readRecord now (records db) "role" (.user user) = some (.text role.value)) &&
        (decide (some (Value.bool user.isActive) = some (.bool true)) && true))) = _
    rw [equals_role]
    simp only [Option.some.injEq, Value.int.injEq, Value.bool.injEq, Int.ofNat_inj, Bool.and_true,
      Bool.decide_and]

theorem valid_notAdmin (userId : Nat) :
    Valid (mapping now).comparison .user [equals "id" (.int userId), notAdmin] := by
  refine ⟨fun f hf => ?_, agree_of_single (Nat.zero_le 1)⟩
  simp only [List.mem_cons, List.not_mem_nil, or_false] at hf
  rcases hf with rfl | rfl
  · exact valid_equals (namesColumn_id .user)
  · exact OwnKey.valid (.of (by simp [ownKeys])) rfl rfl

theorem updatedRows_notAdmin (db : Db) (userId : Nat) :
    updatedRows now db .user [equals "id" (.int userId), notAdmin] =
      .ok ((db.users.filter fun user => user.id = userId ∧ user.role ≠ .admin).map .user) := by
  refine updatedRows_table (T := users) (valid_notAdmin userId) fun user => ?_
  show (decide (some (Value.int user.id) = some (.int userId)) &&
    ((readRecord now (records db) "role" (.user user)).any
      (· ≠ Value.text UserRole.admin.value) && true)) = _
  rw [read_role, Option.any_some]
  have hrole : Value.text user.role.value ≠ .text UserRole.admin.value ↔ user.role ≠ .admin :=
    not_congr ⟨fun h => value_inj (Value.text.inj h), fun h => by rw [h]⟩
  simp only [Option.some.injEq, Value.int.injEq, Int.ofNat_inj, Bool.and_true, Bool.decide_and,
    hrole]

theorem updatedRows_change {call : Call} {change : Change} (hruns : Runs call change) :
    updatedRows now s.db .user (filtersOf call) =
      .ok ((s.db.users.filter fun user => user.id = change.userId ∧ change.condition user).map
        .user) := by
  have hfound : ∀ p : User → Bool, (∀ user, p user = true ↔
      user.id = change.userId ∧ change.condition user) →
        (s.db.users.filter fun user => user.id = change.userId ∧ change.condition user) =
          s.db.users.filter p := by
    intro p hp
    refine List.filter_congr fun user _ => ?_
    rw [Bool.eq_iff_iff, decide_eq_true_iff, hp]
  cases hruns with
  | @applyForVerification userId =>
      refine (updatedRows_role s.db userId .user).trans ?_
      rw [hfound]
      simp [applyForVerification]
  | @verify userId result =>
      refine (updatedRows_role s.db userId .onVerification).trans ?_
      rw [hfound]
      simp [verify]
  | @ban userId actorId hactor =>
      refine (updatedRows_notAdmin s.db userId).trans ?_
      rw [hfound]
      simp [setBanned]
  | @unban userId actorId hactor =>
      refine (updatedRows_table (T := users) (valid_id userId) (holds_id userId)).trans ?_
      rw [hfound (hasId users userId)]
      · rfl
      · intro user
        rw [hasId, decide_eq_true_iff]
        exact (and_iff_left rfl).symm

theorem changeStatement_eq (hkeys : PrimaryKeys s.db) (pc : ChangePc) (a : UserAct) :
    changeStatement now s pc a = changeStep s pc a := by
  unfold changeStatement
  split
  · rename_i call
    rw [changeStep]
    cases hchange : call.change with
    | none => rfl
    | some answer =>
        cases answer with
        | error e => rfl
        | ok change =>
            simp only [updatedRows_change (runs_of_change hchange), answered, List.head?_map,
              List.head?_filter, Change.source]
            cases hfind : s.db.users.find? fun user => user.id = change.userId ∧
                change.condition user with
            | none => rfl
            | some user =>
                rw [← (find_eq_some hfind).2.1]
                rfl
  · rename_i change
    have hget : repositoryGet now s.db .user [("id", .int change.userId)] =
        .ok ((findUser s.db change.userId).map .user) :=
      repositoryGet_id (T := users) hkeys.users change.userId
    rw [hget, changeStep]
    cases findUser s.db change.userId <;> rfl
  · rfl

end Agree

end TicketBooking.Users.Statements
