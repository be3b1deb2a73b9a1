import TicketBooking.Database.Tables
/-!
# Exceptions and their HTTP status

The exception classes the services raise, with the text each one carries, and
the status `EXCEPTION_MAPPING` gives it.  An exception without an entry there
reaches the client as an internal error.
-/

namespace TicketBooking.App.Exceptions

open TicketBooking.Database.Tables

inductive Value
  | id (n : Nat)
  | text (s : String)
  deriving DecidableEq, Repr

def Value.show : Value → String
  | .id n => toString n
  | .text s => s

inductive DatabaseErrorKind
  | uniqueViolation
  | foreignKeyViolation
  | notNullViolation
  | readOnlyViolation
  | unhandled
  deriving DecidableEq, Repr

inductive AppException
  | serviceException (message : String)
  | objectNotFound (table : String) (value : Value)
  | uniqueField (field value : String)
  | wrongState (expected : List String) (current : Option String)
  | noTicketsAvailable (objId available requested : Nat)
  | eventCategoryIsNotALeaf (objId : Nat)
  | eventCategoryHasEvents (objId : Nat)
  | incorrectLoginData
  | userIsBanned
  | currentUserIsBanned
  | cannotBanAdmin
  | cannotBanYourself
  | cannotUnbanYourself
  | valueError (message : String)
  | databaseError (kind : DatabaseErrorKind)
  | other (message : String)
  deriving DecidableEq, Repr

namespace AppException

/-- `str(exc)`, the `detail` of the error response. -/
def message : AppException → String
  | .serviceException message => message
  | .objectNotFound table value =>
      "Object in table '" ++ table ++ "' with id '" ++ value.show ++ "' does not exist"
  | .uniqueField field value =>
      "Object with unique field '" ++ field ++ "' with value '" ++ value ++ "' already exists."
  | .wrongState expected current =>
      "Cannot perform this operation due to the object state. Expected: " ++
        ", ".intercalate (expected.map fun state => "'" ++ state ++ "'") ++
        (match current with
          | none => ""
          | some state => ", current: '" ++ state ++ "'")
  | .noTicketsAvailable objId available requested =>
      "Not enough tickets available in category with id '" ++ toString objId ++
        "' to process an order. Available: " ++ toString available ++ ". Requested: " ++
        toString requested ++ "."
  | .eventCategoryIsNotALeaf objId =>
      "Event category with id " ++ toString objId ++ " is not a leaf."
  | .eventCategoryHasEvents objId =>
      "Event category with id " ++ toString objId ++ " is a leaf."
  | .incorrectLoginData => "Incorrect login data."
  | .userIsBanned => "User is banned."
  | .currentUserIsBanned => "User is banned."
  | .cannotBanAdmin => "You cannot ban user with administrator right."
  | .cannotBanYourself => "You cannot ban yourself."
  | .cannotUnbanYourself => "You cannot unban yourself."
  | .valueError message => message
  | .databaseError .uniqueViolation => "Unique constraint violation detected"
  | .databaseError .foreignKeyViolation => "Foreign key constraint violation detected"
  | .databaseError .notNullViolation => "Not null constraint violation detected"
  | .databaseError .readOnlyViolation => "Write operation attempted in read-only transaction"
  | .databaseError .unhandled => "Unhandled database exception occurred"
  | .other message => message

def className : AppException → String
  | .serviceException _ => "ServiceException"
  | .objectNotFound _ _ => "ObjectNotFoundException"
  | .uniqueField _ _ => "UniqueFieldException"
  | .wrongState _ _ => "WrongStateException"
  | .noTicketsAvailable _ _ _ => "NoTicketsAvailableException"
  | .eventCategoryIsNotALeaf _ => "EventCategoryIsNotALeafException"
  | .eventCategoryHasEvents _ => "EventCategoryHasEventsException"
  | .incorrectLoginData => "IncorrectLoginDataException"
  | .userIsBanned => "UserIsBannedException"
  | .currentUserIsBanned => "CurrentUserIsBannedException"
  | .cannotBanAdmin => "CannotBanAdminException"
  | .cannotBanYourself => "CannotBanYourselfException"
  | .cannotUnbanYourself => "CannotUnbanYourselfException"
  | .valueError _ => "ValueError"
  | .databaseError .uniqueViolation => "UniqueViolationError"
  | .databaseError .foreignKeyViolation => "ForeignKeyViolationError"
  | .databaseError .notNullViolation => "NotNullViolationError"
  | .databaseError .readOnlyViolation => "ReadOnlyViolationError"
  | .databaseError .unhandled => "DatabaseError"
  | .other name => name

/-- `isinstance(exc, ServiceException)`. -/
def isService : AppException → Bool
  | .valueError _ => false
  | .databaseError _ => false
  | .other _ => false
  | _ => true

/-- The handler Starlette picks: the entry of the nearest class in the
exception's inheritance order. -/
def statusCode : AppException → Option Nat
  | .serviceException _ => some 400
  | .objectNotFound _ _ => some 404
  | .uniqueField _ _ => some 409
  | .wrongState _ _ => some 409
  | .noTicketsAvailable _ _ _ => some 409
  | .eventCategoryIsNotALeaf _ => some 409
  | .eventCategoryHasEvents _ => some 409
  | .incorrectLoginData => some 401
  | .userIsBanned => some 409
  | .currentUserIsBanned => some 403
  | .cannotBanAdmin => some 403
  | .cannotBanYourself => some 409
  | .cannotUnbanYourself => some 403
  | .valueError _ => some 422
  | .databaseError _ => none
  | .other _ => none

end AppException

end TicketBooking.App.Exceptions
