/-!
# The unit of work

`SQLAlchemyUnitOfWork` with the session it drives, and the programs that use it:
`async with` blocks inside each other, statements, `commit()`, exceptions that
are caught or not.  `σ` is the content of the database.  Which of its calls the
session fails is a parameter; a run writes down what the unit did.
-/

namespace TicketBooking.Database.UnitOfWork

/-! ## The session -/

/-- The readonly session maker sets AUTOCOMMIT.  The savepoints are the open
ones, the innermost first, with what the transaction saw when each was opened. -/
structure Session (σ : Type) where
  autocommit : Bool
  current : σ
  savepoints : List (Nat × σ) := []

/-- `_transaction_stack` has its last entry first. -/
structure SQLAlchemyUnitOfWork (σ : Type) where
  session : Option (Session σ) := none
  repositories : List String := []
  depth : Nat := 0
  transactionStack : List Nat := []
  isReadonly : Bool := false

/-- What the open transaction sees, and what is committed. -/
structure View (σ : Type) where
  visible : σ
  database : σ

/-- What a run writes down.  `level` counts the blocks around the call. -/
inductive Record (σ : Type)
  | inside (unit : SQLAlchemyUnitOfWork σ)
  | beginNestedFailed
  | poppedEmpty
  | wrote (isReadonly : Bool) (before after : σ)
  | sessionCommit (level : Nat) (isReadonly : Bool)
  | savepointCommit (isReadonly : Bool)
  | left (raised : Bool) (before after : View σ)
  | closed (unit : SQLAlchemyUnitOfWork σ) (openSessions : Nat) (checkpoint database : σ)

/-- The unit in its surroundings.  `checkpoint` is the database at the last
`commit()` the outermost block made itself, or when it was entered. -/
structure World (σ : Type) where
  unit : SQLAlchemyUnitOfWork σ := {}
  database : σ
  openSessions : Nat := 0
  calls : Nat := 0
  savepointIds : Nat := 0
  checkpoint : σ
  history : List (Record σ) := []

inductive Outcome
  | normal
  | raised
  deriving DecidableEq, Repr

variable {σ : Type}

namespace World

def start (database : σ) : World σ where
  database := database
  checkpoint := database

def record (w : World σ) (r : Record σ) : World σ := { w with history := w.history ++ [r] }

def setUnit (w : World σ) (f : SQLAlchemyUnitOfWork σ → SQLAlchemyUnitOfWork σ) : World σ :=
  { w with unit := f w.unit }

def setSession (w : World σ) (f : Session σ → Session σ) : World σ :=
  w.setUnit fun unit => { unit with session := unit.session.map f }

def called (w : World σ) : World σ := { w with calls := w.calls + 1 }

def visible (w : World σ) : σ :=
  match w.unit.session with
  | some session => session.current
  | none => w.database

def view (w : World σ) : View σ := ⟨w.visible, w.database⟩

/-! ## Calls of the session -/

/-- `self._session = factory()`. -/
def openSession (w : World σ) : World σ :=
  match w.unit.session with
  | some _ => w
  | none =>
      { w with
        unit := { w.unit with session := some ⟨w.unit.isReadonly, w.database, []⟩ }
        openSessions := w.openSessions + 1 }

def beginNested (w : World σ) : World σ :=
  { w.setSession fun session =>
      { session with savepoints := (w.savepointIds, session.current) :: session.savepoints } with
    savepointIds := w.savepointIds + 1 }

def openFrom (id : Nat) (savepoints : List (Nat × σ)) : List (Nat × σ) :=
  savepoints.dropWhile fun savepoint => savepoint.1 ≠ id

/-- `savepoint.rollback()`; a closed savepoint raises. -/
def savepointRollback (w : World σ) (id : Nat) : Outcome × World σ :=
  match w.unit.session.map fun session => openFrom id session.savepoints with
  | some ((_, saved) :: outer) =>
      (.normal, w.setSession fun session => { session with current := saved, savepoints := outer })
  | _ => (.raised, w)

/-- `savepoint.commit()`; a closed savepoint raises. -/
def savepointCommit (w : World σ) (id : Nat) : Outcome × World σ :=
  let w := w.record (.savepointCommit w.unit.isReadonly)
  match w.unit.session.map fun session => openFrom id session.savepoints with
  | some (_ :: outer) =>
      (.normal, w.setSession fun session => { session with savepoints := outer })
  | _ => (.raised, w)

/-- `session.commit()` ends the transaction with every savepoint in it. -/
def sessionCommit (w : World σ) : World σ :=
  { w.setSession fun session => { session with savepoints := [] } with database := w.visible }

def sessionRollback (w : World σ) : World σ :=
  w.setSession fun session => { session with current := w.database, savepoints := [] }

end World

/-! ## The unit -/

/-- `as_readonly`; `none` is its `RuntimeError`. -/
def SQLAlchemyUnitOfWork.asReadonly (unit : SQLAlchemyUnitOfWork σ) :
    Option (SQLAlchemyUnitOfWork σ) :=
  if unit.session.isSome ∧ ¬ unit.isReadonly then none else some { unit with isReadonly := true }

section Calls

-- `fails n` says whether the `n`-th call of the session raises
variable (fails : Nat → Bool)

def aenter (w : World σ) : Outcome × World σ :=
  let w := w.openSession.setUnit fun unit => { unit with depth := unit.depth + 1 }
  if 1 < w.unit.depth ∧ ¬ w.unit.isReadonly then
    if fails w.calls then (.raised, w.called.record .beginNestedFailed)
    else
      let id := w.savepointIds
      (.normal, w.called.beginNested.setUnit fun unit =>
        { unit with transactionStack := id :: unit.transactionStack })
  else (.normal, w)

/-- The `finally` of `__aexit__`. -/
def finish (w : World σ) : World σ :=
  { w with
    unit := { w.unit with session := none, repositories := [], isReadonly := false }
    openSessions := w.openSessions - 1 }

/-- `self._depth -= 1`. -/
def countedOut (w : World σ) : World σ :=
  w.setUnit fun unit => { unit with depth := unit.depth - 1 }

/-- `__aexit__`, for a block that an exception has left or not. -/
def aexit (raised : Bool) (w : World σ) : Outcome × World σ :=
  let w := countedOut w
  if 0 < w.unit.depth then
    if w.unit.isReadonly then (.normal, w)
    else
      match w.unit.transactionStack with
      | [] => (.raised, w.record .poppedEmpty)
      | id :: stack =>
          let popped := w.called.setUnit fun unit => { unit with transactionStack := stack }
          if fails w.calls then (.raised, popped)
          else if raised then popped.savepointRollback id
          else popped.savepointCommit id
  else if w.unit.session.isSome then
    if raised && !w.unit.isReadonly then
      if fails w.calls then (.raised, finish w.called)
      else (.normal, finish w.called.sessionRollback)
    else (.normal, finish w)
  else (.normal, w)

/-- `commit`, called inside `level` blocks. -/
def commit (level : Nat) (w : World σ) : Outcome × World σ :=
  if w.unit.isReadonly then (.raised, w)
  else if w.unit.session.isSome then
    if fails w.calls then (.raised, w.called)
    else
      let w := (w.record (.sessionCommit level w.unit.isReadonly)).called.sessionCommit
      (.normal, if level = 1 then { w with checkpoint := w.database } else w)
  else (.normal, w)

/-- A statement of a repository; there are no instances outside the blocks. -/
def write (repository : String) (change : σ → σ) (w : World σ) : Outcome × World σ :=
  match w.unit.session with
  | none => (.raised, w)
  | some session =>
      let new := change session.current
      let w := (w.record (.wrote w.unit.isReadonly session.current new)).setUnit fun unit =>
        { unit with repositories := unit.repositories.insert repository }
      let w := w.setSession fun session => { session with current := new }
      (.normal, if session.autocommit then { w with database := new } else w)

end Calls

/-! ## Programs -/

inductive Mode
  | readWrite
  | readonly
  deriving DecidableEq, Repr

/-- What runs inside a block.  `attempt` is a `try` that catches whatever
`inner` raises. -/
inductive Body (σ : Type)
  | done
  | raise
  | write (repository : String) (change : σ → σ) (rest : Body σ)
  | commit (rest : Body σ)
  | block (mode : Mode) (inner rest : Body σ)
  | attempt (inner rest : Body σ)

/-- `async with uow:` or `async with uow.as_readonly():`. -/
def enter (fails : Nat → Bool) (mode : Mode) (w : World σ) : Outcome × World σ :=
  match mode with
  | .readWrite => aenter fails w
  | .readonly =>
      match w.unit.asReadonly with
      | none => (.raised, w)
      | some unit => aenter fails (w.setUnit fun _ => unit)

def mark (level : Nat) (w : World σ) : World σ :=
  if level = 0 then { w with checkpoint := w.database } else w.record (.inside w.unit)

def leave (level : Nat) (raised : Bool) (before : View σ) (w : World σ) : World σ :=
  if level = 0 then w.record (.closed w.unit w.openSessions w.checkpoint w.database)
  else w.record (.left raised before w.view)

def exitBlock (fails : Nat → Bool) (level : Nat) (before : View σ) (result : Outcome × World σ) :
    Outcome × World σ :=
  let exited := aexit fails (result.1 = .raised) result.2
  let outcome := if exited.1 = .raised then .raised else result.1
  (outcome, leave level (outcome = .raised) before exited.2)

def run (fails : Nat → Bool) : Nat → Body σ → World σ → Outcome × World σ
  | level, .done, w => (.normal, mark level w)
  | level, .raise, w => (.raised, mark level w)
  | level, .write repository change rest, w =>
      match write repository change (mark level w) with
      | (.raised, w) => (.raised, w)
      | (.normal, w) => run fails level rest w
  | level, .commit rest, w =>
      match commit fails level (mark level w) with
      | (.raised, w) => (.raised, w)
      | (.normal, w) => run fails level rest w
  | level, .block mode inner rest, w =>
      match enter fails mode (mark level w) with
      | (.raised, w) => (.raised, w)
      | (.normal, entered) =>
          match exitBlock fails level w.view (run fails (level + 1) inner entered) with
          | (.raised, w) => (.raised, w)
          | (.normal, w) => run fails level rest w
  | level, .attempt inner rest, w => run fails level rest (run fails level inner w).2

end TicketBooking.Database.UnitOfWork
