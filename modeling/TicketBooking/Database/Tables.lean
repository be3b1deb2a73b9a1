import Mathlib.Data.List.Nodup
import Mathlib.Data.Rat.Defs
/-!
# The tables of the booking system

One structure for each ORM model, with the columns the services read or write
(`created_at`, `updated_at`, the user name and the password are left out), and the
state the services share: the committed tables, the id sequences, which
PostgreSQL advances outside any transaction, and what the task manager holds.
-/

namespace TicketBooking.Database.Tables

inductive UserRole
  | user
  | onVerification
  | verifiedUser
  | moderator
  | admin
  deriving DecidableEq, Repr

inductive EventFormat
  | offline
  | online
  deriving DecidableEq, Repr

inductive EventState
  | draft
  | onModeration
  | approved
  | rejected
  | cancelled
  deriving DecidableEq, Repr

inductive EventStatus
  | draft
  | onModeration
  | rejected
  | cancelled
  | past
  | upcoming
  deriving DecidableEq, Repr

inductive OrderStatus
  | pending
  | paid
  | cancelled
  deriving DecidableEq, Repr

inductive TicketStatus
  | reserved
  | paid
  | checkedIn
  | blocked
  deriving DecidableEq, Repr

/-- `StrEnum` members print as their value. -/
def UserRole.value : UserRole → String
  | .user => "user"
  | .onVerification => "on_verification"
  | .verifiedUser => "verified_user"
  | .moderator => "moderator"
  | .admin => "admin"

def EventState.value : EventState → String
  | .draft => "draft"
  | .onModeration => "on_moderation"
  | .approved => "approved"
  | .rejected => "rejected"
  | .cancelled => "cancelled"

def EventStatus.value : EventStatus → String
  | .draft => "draft"
  | .onModeration => "on_moderation"
  | .rejected => "rejected"
  | .cancelled => "cancelled"
  | .past => "past"
  | .upcoming => "upcoming"

def OrderStatus.value : OrderStatus → String
  | .pending => "pending"
  | .paid => "paid"
  | .cancelled => "cancelled"

structure User where
  id : Nat
  email : String
  role : UserRole
  isActive : Bool
  deriving DecidableEq, Repr

structure EventCategory where
  id : Nat
  name : String
  parentId : Option Nat
  deriving DecidableEq, Repr

structure Event where
  id : Nat
  title : String
  description : String
  userId : Nat
  categoryId : Nat
  state : EventState
  format : EventFormat
  address : Option String
  startedAt : Int
  deriving DecidableEq, Repr

structure TicketCategory where
  id : Nat
  eventId : Nat
  name : String
  price : Rat
  totalQuantity : Nat
  deriving DecidableEq, Repr

structure Order where
  id : Nat
  userId : Option Nat
  anonymousEmail : Option String
  status : OrderStatus
  deriving DecidableEq, Repr

structure OrderItem where
  id : Nat
  orderId : Nat
  categoryId : Nat
  quantity : Nat
  purchasePrice : Option Rat
  deriving DecidableEq, Repr

structure Ticket where
  id : Nat
  categoryId : Nat
  orderItemId : Option Nat
  status : TicketStatus
  deriving DecidableEq, Repr

structure Db where
  users : List User := []
  eventCategories : List EventCategory := []
  events : List Event := []
  ticketCategories : List TicketCategory := []
  orders : List Order := []
  orderItems : List OrderItem := []
  tickets : List Ticket := []
  deriving DecidableEq, Repr

structure Sequences where
  users : Nat := 1
  eventCategories : Nat := 1
  events : Nat := 1
  ticketCategories : Nat := 1
  orders : Nat := 1
  orderItems : Nat := 1
  tickets : Nat := 1
  deriving DecidableEq, Repr

/-- `Event.status` on a loaded row, read at the instant `now`. -/
def Event.status (event : Event) (now : Int) : EventStatus :=
  match event.state with
  | .draft => .draft
  | .onModeration => .onModeration
  | .rejected => .rejected
  | .cancelled => .cancelled
  | .approved => if event.startedAt < now then .past else .upcoming

theorem Event.status_eq_draft (event : Event) (now : Int) :
    event.status now = .draft ↔ event.state = .draft := by
  unfold Event.status
  cases event.state <;> simp
  split <;> simp

/-- What a transaction can lock: a row, or the key of a unique index it is
inserting into. -/
inductive Row
  | user (id : Nat)
  | event (id : Nat)
  | ticketCategory (id : Nat)
  | order (id : Nat)
  | userEmail (email : String)
  | eventCategoryName (name : String)
  | ticketCategoryName (eventId : Nat) (name : String)
  deriving DecidableEq, Repr

theorem find_eq_some {α : Type} {p : α → Prop} [DecidablePred p] {xs : List α} {x : α}
    (h : xs.find? (fun x => p x) = some x) : x ∈ xs ∧ p x :=
  ⟨List.mem_of_find?_eq_some h, of_decide_eq_true (List.find?_some h :)⟩

/-- Rows inserted by one statement take consecutive sequence values in the
order of its VALUES list. -/
def assignIds {α β : Type} (mk : Nat → α → β) : Nat → List α → List β
  | _, [] => []
  | next, x :: xs => mk next x :: assignIds mk (next + 1) xs

@[simp] theorem length_assignIds {α β : Type} (mk : Nat → α → β) (next : Nat) (xs : List α) :
    (assignIds mk next xs).length = xs.length := by
  induction xs generalizing next with
  | nil => rfl
  | cons x xs ih => simp [assignIds, ih]

theorem mem_assignIds {α β : Type} {mk : Nat → α → β} {next : Nat} {xs : List α} {y : β}
    (h : y ∈ assignIds mk next xs) :
    ∃ k x, next ≤ k ∧ k < next + xs.length ∧ x ∈ xs ∧ y = mk k x := by
  induction xs generalizing next with
  | nil => cases h
  | cons x xs ih =>
      rcases List.mem_cons.mp h with rfl | h
      · exact ⟨next, x, le_refl _, by simp, by simp, rfl⟩
      · obtain ⟨k, x', hk, hlt, hx, rfl⟩ := ih h
        exact ⟨k, x', by omega, by simp only [List.length_cons]; omega, by simp [hx], rfl⟩

/-- A projection that ignores the assigned id sees the VALUES list itself. -/
theorem map_assignIds {α β γ : Type} {mk : Nat → α → β} {f : β → γ} {g : α → γ}
    (h : ∀ k x, f (mk k x) = g x) (next : Nat) (xs : List α) :
    (assignIds mk next xs).map f = xs.map g := by
  induction xs generalizing next with
  | nil => rfl
  | cons x xs ih => simp [assignIds, h, ih]

theorem nodup_assignIds {α β : Type} {mk : Nat → α → β} {f : β → Nat}
    (h : ∀ k x, f (mk k x) = k) (next : Nat) (xs : List α) :
    ((assignIds mk next xs).map f).Nodup := by
  induction xs generalizing next with
  | nil => simp [assignIds]
  | cons x xs ih =>
      rw [assignIds, List.map_cons, h, List.nodup_cons]
      refine ⟨fun hmem => ?_, ih (next + 1)⟩
      obtain ⟨y, hy, hyk⟩ := List.mem_map.mp hmem
      obtain ⟨k, x', hk, _, _, rfl⟩ := mem_assignIds hy
      rw [h] at hyk
      omega

/-- Rows that take their ids from a sequence differ from each other and from the
committed rows, whose ids the sequence has passed. -/
theorem fresh_append_assignIds {α β : Type} {mk : Nat → α → β} {f : β → Nat}
    (hid : ∀ k x, f (mk k x) = k) {own committed : List β} {next : Nat} (xs : List α)
    (hnodup : (own.map f).Nodup) (hlt : ∀ y ∈ own, f y < next)
    (hnew : ∀ y ∈ own, ∀ old ∈ committed, f old ≠ f y)
    (hcommitted : ∀ old ∈ committed, f old < next) :
    ((own ++ assignIds mk next xs).map f).Nodup ∧
      (∀ y ∈ own ++ assignIds mk next xs, f y < next + xs.length) ∧
      ∀ y ∈ own ++ assignIds mk next xs, ∀ old ∈ committed, f old ≠ f y := by
  have hrange : ∀ y ∈ assignIds mk next xs, next ≤ f y ∧ f y < next + xs.length := by
    intro y hy
    obtain ⟨k, x, hk, hk', -, rfl⟩ := mem_assignIds hy
    rw [hid]
    exact ⟨hk, hk'⟩
  refine ⟨?_, fun y hy => ?_, fun y hy old hold => ?_⟩
  · rw [List.map_append, List.nodup_append]
    refine ⟨hnodup, nodup_assignIds hid _ _, fun a ha b hb => ?_⟩
    obtain ⟨y, hy, rfl⟩ := List.mem_map.mp ha
    obtain ⟨z, hz, rfl⟩ := List.mem_map.mp hb
    exact ((hlt y hy).trans_le (hrange z hz).1).ne
  · rcases List.mem_append.mp hy with hy | hy
    · exact (hlt y hy).trans_le (Nat.le_add_right _ _)
    · exact (hrange y hy).2
  · rcases List.mem_append.mp hy with hy | hy
    · exact hnew y hy old hold
    · exact ((hcommitted old hold).trans_le (hrange y hy).1).ne

theorem nodup_append_fresh {α : Type} {f : α → Nat} {xs : List α} {x : α} (h : (xs.map f).Nodup)
    (hfresh : ∀ y ∈ xs, f y ≠ f x) : ((xs ++ [x]).map f).Nodup := by
  rw [List.map_append, List.map_singleton, List.nodup_append]
  refine ⟨h, List.nodup_singleton _, fun id hid id' hid' heq => ?_⟩
  obtain ⟨y, hy, rfl⟩ := List.mem_map.mp hid
  rw [List.mem_singleton.mp hid'] at heq
  exact hfresh y hy heq

end TicketBooking.Database.Tables
