import TicketBooking.Users.Authentication
import TicketBooking.Views.Mixins
/-!
# What the routes accept

The requests that change the database, with everything their schemas let
through.  A partial model lets a field be null or any JSON value that meets the
bounds of its annotation, and `category_id` and `order_id` in a path may be any
integer.  The driver refuses a value the type of its column does not take before
the statement reaches the tables.
-/

namespace TicketBooking.App.Bodies

open TicketBooking.App.Exceptions
open TicketBooking.Catalog.Editing
open TicketBooking.Library.Texts (isBlank)
open TicketBooking.Order.Transactions (ordersTable)
open TicketBooking.Users.Accounts (UserCreateSchema)
open TicketBooking.Users.Authentication
open TicketBooking.Views.Logs TicketBooking.Views.Mixins

/-! ## Values and columns -/

/-- A value of a body.  Of a list and of an object only the size is looked at. -/
inductive Json
  | null
  | bool (b : Bool)
  | int (n : Int)
  | float (q : Rat)
  | str (s : String)
  | list (length : Nat)
  | object (size : Nat)
  deriving DecidableEq, Repr

/-- PostgreSQL stores no NUL in a text. -/
def storable (text : String) : Bool := Char.ofNat 0 ∉ text.toList

def fitsText (length : Nat) (text : String) : Bool := storable text ∧ text.length ≤ length

/-- An INTEGER parameter for a value; `none` is the driver's refusal, and null is
NULL.  The bounds of the field are met before. -/
def asInteger : Json → Option (Option Nat)
  | .null => some none
  | .bool b => some (some b.toNat)
  | .int n => if FitsColumn n then some (some n.toNat) else none
  | _ => none

def asFloat : Json → Option (Option Rat)
  | .null => some none
  | .bool b => some (some b.toNat)
  | .int n => some (some n)
  | .float q => some (some q)
  | _ => none

def asText (length : Nat) : Json → Option (Option String)
  | .null => some none
  | .str s => if fitsText length s then some (some s) else none
  | _ => none

/-- JSON has no value that is a `datetime`. -/
def asTimestamp : Json → Option (Option Int)
  | .null => some none
  | _ => none

/-- A field that was left out is not bound. -/
def bind {α : Type} (take : Json → Option (Option α)) : Option Json → Option (Patch α)
  | none => some none
  | some value => (take value).map some

/-! ## The fields of a partial model

The bounds are those of the model it is made from; the type is `Any | None`.
-/

/-- `ge=1, le=2147483647`, on whatever compares with a number. -/
def acceptsPositive : Json → Bool
  | .null => true
  | .bool b => b
  | .int n => 1 ≤ n ∧ n ≤ 2147483647
  | .float q => 1 ≤ q ∧ q ≤ 2147483647
  | _ => false

/-- `max_length`, on whatever has a length. -/
def acceptsSized (length : Nat) : Json → Bool
  | .null => true
  | .str s => s.length ≤ length
  | .list n => n ≤ length
  | .object n => n ≤ length
  | _ => false

/-- `strip_whitespace` makes it a text. -/
def acceptsText (length : Nat) : Json → Bool
  | .null => true
  | .str s => s.length ≤ length
  | _ => false

/-- `normalize_name` strips what it is given. -/
def acceptsName : Json → Bool
  | .str s => ¬ isBlank s ∧ s.length ≤ 255
  | _ => false

def isAddress : Option Json → Bool
  | some (.str s) => !isBlank s
  | _ => false

/-- `EventUpdateSchema` as the route gets it. -/
structure EventPatch where
  categoryId : Option Json := none
  title : Option Json := none
  description : Option Json := none
  format : Option Json := none
  address : Option Json := none
  startedAt : Option Json := none
  categoryId_accepted : categoryId.all acceptsPositive := by decide
  title_accepted : title.all (acceptsText 100) := by decide
  description_accepted : description.all (acceptsSized 255) := by decide
  address_accepted : address.all (acceptsSized 255) := by decide
  address_of_offline : format = some (.str "offline") → isAddress address := by decide
  address_of_online : format = some (.str "online") → address = some .null := by decide

/-- `TicketCategoryUpdateSchema` as the route gets it. -/
structure TicketCategoryPatch where
  name : Option Json := none
  price : Option Json := none
  totalQuantity : Option Json := none
  name_accepted : name.all acceptsName := by decide
  price_accepted : price.all acceptsPositive := by decide
  totalQuantity_accepted : totalQuantity.all acceptsPositive := by decide

/-- The parameters of the UPDATE, if the driver takes them all. -/
def EventPatch.typed (body : EventPatch) : Option EventUpdateSchema := do
  let categoryId ← bind asInteger body.categoryId
  let title ← bind (asText 100) body.title
  let description ← bind (asText 255) body.description
  let format ← bind (asText 20) body.format
  let address ← bind (asText 255) body.address
  let startedAt ← bind asTimestamp body.startedAt
  if h : (format = some (some "offline") → givesAddress address.join) ∧
      (format = some (some "online") → address = some none) then
    some
      { categoryId := categoryId
        title := title
        description := description
        format := format
        address := address
        startedAt := startedAt
        address_of_offline := h.1
        address_of_online := h.2 }
  else none

def TicketCategoryPatch.typed (body : TicketCategoryPatch) : Option TicketCategoryUpdateSchema := do
  let name ← bind (asText 255) body.name
  let price ← bind asFloat body.price
  let totalQuantity ← bind asInteger body.totalQuantity
  some { name := name, price := price, totalQuantity := totalQuantity }

/-! ## When the driver takes a body -/

def Taken {α : Type} (take : Json → Option (Option α)) (field : Option Json) : Prop :=
  (bind take field).isSome

instance {α : Type} (take : Json → Option (Option α)) (field : Option Json) :
    Decidable (Taken take field) :=
  inferInstanceAs (Decidable (_ = true))

structure EventPatch.Fits (body : EventPatch) : Prop where
  categoryId : Taken asInteger body.categoryId
  title : Taken (asText 100) body.title
  description : Taken (asText 255) body.description
  format : Taken (asText 20) body.format
  address : Taken (asText 255) body.address
  startedAt : Taken asTimestamp body.startedAt

structure TicketCategoryPatch.Fits (body : TicketCategoryPatch) : Prop where
  name : Taken (asText 255) body.name
  price : Taken asFloat body.price
  totalQuantity : Taken asInteger body.totalQuantity

theorem bind_asText_eq_str {length : Nat} {field : Option Json} {text : String}
    (h : bind (asText length) field = some (some (some text))) : field = some (.str text) := by
  cases field with
  | none => simp [bind] at h
  | some value =>
      cases value with
      | str s =>
          simp only [bind, asText, Option.map_eq_some_iff, Option.some.injEq] at h
          obtain ⟨-, h, rfl⟩ := h
          split_ifs at h
          cases h
          rfl
      | null => simp [bind, asText] at h
      | _ => cases h

/-- The two checks of the addresses are those the schema made. -/
theorem EventPatch.typed_isSome {body : EventPatch} : body.typed.isSome ↔ body.Fits := by
  constructor
  · intro h
    obtain ⟨data, hdata⟩ := Option.isSome_iff_exists.mp h
    simp only [typed, Option.bind_eq_bind, Option.bind_eq_some_iff] at hdata
    obtain ⟨_, hcategoryId, _, htitle, _, hdescription, _, hformat, _, haddress, _,
      hstartedAt, -⟩ := hdata
    exact {
      categoryId := Option.isSome_of_eq_some hcategoryId
      title := Option.isSome_of_eq_some htitle
      description := Option.isSome_of_eq_some hdescription
      format := Option.isSome_of_eq_some hformat
      address := Option.isSome_of_eq_some haddress
      startedAt := Option.isSome_of_eq_some hstartedAt }
  · intro h
    obtain ⟨categoryId, hcategoryId⟩ := Option.isSome_iff_exists.mp h.categoryId
    obtain ⟨title, htitle⟩ := Option.isSome_iff_exists.mp h.title
    obtain ⟨description, hdescription⟩ := Option.isSome_iff_exists.mp h.description
    obtain ⟨format, hformat⟩ := Option.isSome_iff_exists.mp h.format
    obtain ⟨address, haddress⟩ := Option.isSome_iff_exists.mp h.address
    obtain ⟨startedAt, hstartedAt⟩ := Option.isSome_iff_exists.mp h.startedAt
    have hoffline : format = some (some "offline") → givesAddress address.join := by
      rintro rfl
      have hgiven := body.address_of_offline (bind_asText_eq_str hformat)
      unfold isAddress at hgiven
      split at hgiven
      · rename_i s hs
        rw [hs] at haddress
        simp only [bind, asText] at haddress
        split_ifs at haddress
        · cases haddress
          simpa [givesAddress] using hgiven
        · cases haddress
      · cases hgiven
    have honline : format = some (some "online") → address = some none := by
      rintro rfl
      have hnull := body.address_of_online (bind_asText_eq_str hformat)
      rw [hnull] at haddress
      cases haddress
      rfl
    simp only [typed, hcategoryId, htitle, hdescription, hformat, haddress, hstartedAt,
      Option.bind_eq_bind, Option.bind_some]
    rw [dif_pos ⟨hoffline, honline⟩]
    rfl

theorem TicketCategoryPatch.typed_isSome {body : TicketCategoryPatch} :
    body.typed.isSome ↔ body.Fits := by
  constructor
  · intro h
    obtain ⟨data, hdata⟩ := Option.isSome_iff_exists.mp h
    simp only [typed, Option.bind_eq_bind, Option.bind_eq_some_iff] at hdata
    obtain ⟨_, hname, _, hprice, _, htotalQuantity, -⟩ := hdata
    exact {
      name := Option.isSome_of_eq_some hname
      price := Option.isSome_of_eq_some hprice
      totalQuantity := Option.isSome_of_eq_some htotalQuantity }
  · intro h
    obtain ⟨name, hname⟩ := Option.isSome_iff_exists.mp h.name
    obtain ⟨price, hprice⟩ := Option.isSome_iff_exists.mp h.price
    obtain ⟨totalQuantity, htotalQuantity⟩ := Option.isSome_iff_exists.mp h.totalQuantity
    simp [typed, hname, hprice, htotalQuantity]

instance (body : EventPatch) : Decidable body.Fits :=
  decidable_of_iff _ EventPatch.typed_isSome

instance (body : TicketCategoryPatch) : Decidable body.Fits :=
  decidable_of_iff _ TicketCategoryPatch.typed_isSome

/-! ## Requests -/

/-- The requests with what their typed bodies leave out: the user name, the
partial models, and the integers of the paths. -/
inductive Incoming
  | register (username : Option String) (data : UserCreateSchema)
  | updateEvent (eventId : Nat) (body : EventPatch)
  | updateTicketCategory (categoryId : Int) (body : TicketCategoryPatch)
  | deleteTicketCategory (categoryId : Int)
  | payOrder (orderId : Int)
  | other (request : Request)

/-- The request the services are called for.  What the driver refuses does not
get as far as the values put in its place here. -/
def Incoming.request : Incoming → Request
  | .register _ data => .register data
  | .updateEvent eventId body => .updateEvent eventId (body.typed.getD {})
  | .updateTicketCategory categoryId body =>
      .updateTicketCategory categoryId.toNat (body.typed.getD {})
  | .deleteTicketCategory categoryId => .deleteTicketCategory categoryId.toNat
  | .payOrder orderId => .payOrder orderId.toNat
  | .other request => request

/-- `astimezone(timezone.utc)` does not overflow; the instant is in microseconds. -/
def isUtc (instant : Int) : Bool :=
  -62135596800000000 ≤ instant ∧ instant ≤ 253402300799999999

def fitsEvent (body : EventCreateSchema) : Bool :=
  storable body.title ∧ body.description.all storable ∧ body.address.all storable ∧
    isUtc body.startedAt

/-- The columns take the values that the next statement binds. -/
def Incoming.fits : Incoming → ServicePc → Bool
  | .register username _, .users (.create (.checked _)) => username.all (fitsText 32)
  | .updateEvent _ body, .catalog (.updateEvent (.start _ _ _)) => body.Fits
  | .updateTicketCategory categoryId _, .catalog (.modifyTicketCategory (.start _ _ _)) =>
      FitsColumn categoryId
  | .updateTicketCategory _ body, .catalog (.modifyTicketCategory (.checked _ _ _)) => body.Fits
  | .deleteTicketCategory categoryId, .catalog (.modifyTicketCategory (.start _ _ _)) =>
      FitsColumn categoryId
  | .payOrder orderId, .catalog (.order (.confirm (.start _))) => FitsColumn orderId
  | .other (.createEvent body), .catalog (.createEvent (.checked _ _)) => fitsEvent body
  | .other (.createCategory body), .catalog (.createCategory (.checked _)) => storable body.name
  | .other (.createTicketCategory body), .catalog (.createTicketCategory (.checked _)) =>
      storable body.name
  | _, _ => true

/-- What `_execute_modification` makes of an error without an entry in the mapper. -/
def dataError : AppException := .databaseError .unhandled

/-- `Enum` refuses a format that is no text before the driver sees it. -/
def EventPatch.error (body : EventPatch) : AppException :=
  match body.format with
  | none => dataError
  | some .null => dataError
  | some (.str _) => dataError
  | some _ => .other "StatementError"

def refusedUnless (taken : Bool) (e : AppException) : Option AppException :=
  if taken then none else some e

/-- A statement for a row by id: the driver refuses the id, or no row has it. -/
def refuseId (table : String) (e : AppException) (id : Int) : Option AppException :=
  if ¬ FitsColumn id then some e
  else if id < 0 then some (.objectNotFound table (.text (toString id)))
  else none

/-- What comes of the next statement before the tables are looked at. -/
def Incoming.refusal : Incoming → ServicePc → Option AppException
  | .register username _, .users (.create (.checked _)) =>
      refusedUnless (username.all (fitsText 32)) dataError
  | .updateEvent _ body, .catalog (.updateEvent (.start _ _ _)) =>
      refusedUnless body.typed.isSome body.error
  | .updateTicketCategory categoryId _, .catalog (.modifyTicketCategory (.start _ _ _)) =>
      refuseId ticketCategoriesTable driverFailure categoryId
  | .updateTicketCategory _ body, .catalog (.modifyTicketCategory (.checked _ _ _)) =>
      refusedUnless body.typed.isSome dataError
  | .deleteTicketCategory categoryId, .catalog (.modifyTicketCategory (.start _ _ _)) =>
      refuseId ticketCategoriesTable driverFailure categoryId
  | .payOrder orderId, .catalog (.order (.confirm (.start _))) =>
      refuseId ordersTable dataError orderId
  | .other (.createEvent body), .catalog (.createEvent (.checked _ _)) =>
      refusedUnless (fitsEvent body) dataError
  | .other (.createCategory body), .catalog (.createCategory (.checked _)) =>
      refusedUnless (storable body.name) dataError
  | .other (.createTicketCategory body), .catalog (.createTicketCategory (.checked _)) =>
      refusedUnless (storable body.name) dataError
  | _, _ => none

/-- `chk_ticket_categories_quantity_limit`. -/
def quantityAllowed (totalQuantity : Nat) : Bool := 1 ≤ totalQuantity ∧ totalQuantity ≤ 100000

/-- The model class has the CHECK and the migration creates the table without it;
`limited` says whether the table has it.  It is tested after NOT NULL and before
the indexes, and the mapper has no entry for it. -/
def brokenCheck (limited : Bool) : ServicePc → Option AppException
  | .catalog (.createTicketCategory (.inserting category)) =>
      refusedUnless (!limited || quantityAllowed category.totalQuantity) dataError
  | .catalog (.modifyTicketCategory (.locking category (.update data) [])) =>
      refusedUnless (!limited || (data.apply category).all fun new =>
        quantityAllowed new.totalQuantity) dataError
  | _ => none

theorem eq_false_of_refused {taken : Bool} {e e' : AppException}
    (h : refusedUnless taken e = some e') : taken = false := by
  unfold refusedUnless at h
  split_ifs at h with htaken
  simpa using htaken

theorem refuseId_of_fits {table : String} {e e' : AppException} {id : Int} (hfits : FitsColumn id)
    (h : refuseId table e id = some e') : ∃ value, e' = .objectNotFound table value := by
  unfold refuseId at h
  rw [if_neg (not_not.mpr hfits)] at h
  split_ifs at h
  cases h
  exact ⟨_, rfl⟩

theorem Incoming.refusal_of_fits {incoming : Incoming} {pc : ServicePc} {e : AppException}
    (hfits : incoming.fits pc) (h : incoming.refusal pc = some e) :
    ∃ table value, e = .objectNotFound table value := by
  unfold refusal at h
  split at h
  case h_1 => simp [fits, eq_false_of_refused h] at hfits
  case h_2 => simp [fits, ← EventPatch.typed_isSome, eq_false_of_refused h] at hfits
  case h_3 => exact ⟨_, refuseId_of_fits (of_decide_eq_true hfits) h⟩
  case h_4 => simp [fits, ← TicketCategoryPatch.typed_isSome, eq_false_of_refused h] at hfits
  case h_5 => exact ⟨_, refuseId_of_fits (of_decide_eq_true hfits) h⟩
  case h_6 => exact ⟨_, refuseId_of_fits (of_decide_eq_true hfits) h⟩
  case h_7 => simp [fits, eq_false_of_refused h] at hfits
  case h_8 => simp [fits, eq_false_of_refused h] at hfits
  case h_9 => simp [fits, eq_false_of_refused h] at hfits
  case h_10 => cases h

end TicketBooking.App.Bodies
