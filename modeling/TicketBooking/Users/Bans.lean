import TicketBooking.Users.Authentication
import TicketBooking.Users.Roles
/-!
# Banned users

What a ban takes from a user who holds a token.  `apply_for_verification` and
`authenticate` look at the user row; every other route is guarded by the token
alone, so a ban stops a request only where its role check does.
-/

namespace TicketBooking.Users.Bans

open TicketBooking.Database.Shared TicketBooking.Database.Tables
open TicketBooking.Library.Sessions
open TicketBooking.Users.Accounts TicketBooking.Users.Authentication
open TicketBooking.Users.Roles TicketBooking.Users.Transactions

def Banned (id : Nat) (s : Store) : Prop :=
  ∃ user ∈ s.db.users, user.id = id ∧ user.isActive = false

instance (id : Nat) (s : Store) : Decidable (Banned id s) :=
  inferInstanceAs (Decidable (∃ user ∈ s.db.users, _ ∧ _))

/-! ## Requests of the user service -/

def userCall (bearer : Option Nat) : Request → Option Call
  | .register data => some (.create data)
  | .applyForVerification => bearer.map fun userId => .applyForVerification userId
  | .moderateUser userId result => some (.verify userId result)
  | .banUser userId => bearer.map fun actorId => .ban userId actorId
  | .unbanUser userId => bearer.map fun actorId => .unban userId actorId
  | _ => none

theorem authorize_users {d : Deployment} {now : Nat} {token : Option Token} {request : Request}
    {bearer : Option Nat} {pc : UserPc}
    (h : authorize d now token request = .ok (bearer, .users pc)) :
    ∃ call, userCall bearer request = some call ∧ pc = callPc call := by
  cases request
  case register data =>
      cases h
      exact ⟨_, rfl, rfl⟩
  case createOrder => cases h
  case payOrder => cases h
  case expireOrder => cases h
  case migrateAnonymousOrders => cases h
  case cancelReservationWorker => cases h
  all_goals
    obtain ⟨userId, rfl, heq⟩ := authorize_guarded rfl h
    cases heq
  all_goals exact ⟨_, rfl, rfl⟩

/-! ## What a statement does to the users -/

theorem systemStep_users {s : Store} {pc pc' : Catalog.System.Pc} {a : Catalog.System.Act}
    {eff : Effect Store Row} (h : Catalog.System.SystemStep s pc a eff pc') :
    (eff.apply s).db.users = s.db.users ∧ (eff.apply s).seq.users = s.seq.users := by
  cases h with
  | order h =>
      cases Order.Transactions.orderStep_cases h with
      | create hstep => cases hstep <;> exact ⟨rfl, rfl⟩
      | confirm hstep => cases hstep <;> exact ⟨rfl, rfl⟩
      | expire hstep => cases hstep <;> exact ⟨rfl, rfl⟩
      | migrate hstep => cases hstep <;> exact ⟨rfl, rfl⟩
      | fire => exact ⟨rfl, rfl⟩
  | createEvent h => cases h <;> exact ⟨rfl, rfl⟩
  | createCategory h => cases h <;> exact ⟨rfl, rfl⟩
  | updateEvent h => cases h <;> exact ⟨rfl, rfl⟩
  | transition h => cases h <;> exact ⟨rfl, rfl⟩
  | createTicketCategory h => cases h <;> exact ⟨rfl, rfl⟩
  | modifyTicketCategory h => cases h <;> exact ⟨rfl, rfl⟩

@[simp] theorem store_lift (eff : Effect Store Row) (d : Deployment) :
    ((eff.lift onStore).apply d).store = eff.apply d.store :=
  Effect.apply_lift (fun _ _ => rfl) eff d

/-- A statement leaves the users alone or is one of the user service. -/
theorem touches_of_apiStep {d : Deployment} {pc pc' : Pc} {a : Act} {eff : Effect Deployment Row}
    (h : ApiStep d pc a eff pc') :
    ((eff.apply d).store.db.users = d.store.db.users ∧
        (eff.apply d).store.seq.users = d.store.seq.users) ∨
      ∃ bearer request upc upc' b effect, pc = .service bearer request (.users upc) ∧
        a = .users b ∧ eff = Effect.lift onStore effect ∧
        pc' = settle bearer request (.users upc') ∧ UserStep d.store upc b effect upc' := by
  cases h with
  | catalog h =>
      refine .inl ?_
      rw [store_lift]
      exact systemStep_users h
  | users h => exact .inr ⟨_, _, _, _, _, _, rfl, rfl, rfl, rfl, h⟩
  | _ => exact .inl ⟨rfl, rfl⟩

theorem settle_users {bearer bearer' : Option Nat} {request request' : Request} {pc : ServicePc}
    {upc : UserPc} (h : settle bearer request pc = .service bearer' request' (.users upc)) :
    bearer' = bearer ∧ request' = request ∧ pc = .users upc := by
  unfold settle at h
  split at h
  · cases h
  · cases h
    exact ⟨rfl, rfl, rfl⟩

/-! ## The proof outline -/

def ApiAt (d : Deployment) (rows : Set Row) (pc : Pc) : Prop :=
  ∀ bearer request upc, pc = .service bearer request (.users upc) →
    ∃ call, userCall bearer request = some call ∧ At d.store rows call upc

def ApiApart (pc pc' : Pc) : Prop :=
  ∀ bearer request upc bearer' request' upc', pc = .service bearer request (.users upc) →
    pc' = .service bearer' request' (.users upc') → Apart upc upc'

theorem ApiApart.symm {pc pc' : Pc} (h : ApiApart pc pc') : ApiApart pc' pc :=
  fun _ _ _ _ _ _ hpc hpc' => (h _ _ _ _ _ _ hpc' hpc).symm

theorem own_of_apiStep {d : Deployment} {rows : Set Row} {pc pc' : Pc} {a : Act}
    {eff : Effect Deployment Row} (hkeyed : Keyed d.store) (hat : ApiAt d rows pc)
    (h : ApiStep d pc a eff pc') :
    Keyed (eff.apply d).store ∧ ApiAt (eff.apply d) (eff.held rows) pc' := by
  constructor
  · rcases touches_of_apiStep h with
      ⟨husers, hseq⟩ | ⟨bearer, request, upc, upc', b, effect, rfl, -, rfl, -, h⟩
    · exact ⟨husers ▸ hkeyed.users, fun user huser => hseq ▸ hkeyed.userSeq user (husers ▸ huser)⟩
    · obtain ⟨call, -, hat⟩ := hat _ _ _ rfl
      rw [store_lift]
      exact hkeyed.writes hat (UserStep.writes h)
  · intro bearer request upc hpc
    cases h with
    | dispatch hauthorize =>
        cases hpc
        obtain ⟨call, hcall, rfl⟩ := authorize_users hauthorize
        refine ⟨call, hcall, ?_⟩
        cases call <;> exact .idle rfl (by simp [Knows, callPc])
    | catalog h => cases (settle_users hpc).2.2
    | users h =>
        obtain ⟨rfl, rfl, heq⟩ := settle_users hpc
        cases heq
        obtain ⟨call, hcall, hat⟩ := hat _ _ _ rfl
        refine ⟨call, hcall, ?_⟩
        rw [store_lift, Effect.held_lift]
        exact UserStep.at hkeyed hat h
    | _ => cases hpc

theorem frame_of_apiStep {d : Deployment} {rows rows' : Set Row} {pc pc' other : Pc} {a : Act}
    {eff : Effect Deployment Row} (hat : ApiAt d rows pc) (hother : ApiAt d rows' other)
    (hdisjoint : ∀ row, row ∈ rows' → row ∉ rows) (hapart : ApiApart pc other)
    (h : ApiStep d pc a eff pc') :
    ApiAt (eff.apply d) rows' other ∧ ApiApart pc' other := by
  constructor
  · intro bearer request upc hpc
    obtain ⟨call, hcall, hknown⟩ := hother _ _ _ hpc
    refine ⟨call, hcall, ?_⟩
    rcases touches_of_apiStep h with ⟨husers, hseq⟩ | ⟨_, _, upc', _, _, effect, rfl, -, rfl, -, h⟩
    · exact hknown.of_users husers hseq.ge
    · obtain ⟨call', -, hat⟩ := hat _ _ _ rfl
      rw [store_lift]
      exact hat.writes hknown hdisjoint (hapart _ _ _ _ _ _ rfl hpc) (UserStep.writes h)
  · intro bearer request upc bearer' request' upc' hpc hpc'
    cases h with
    | dispatch hauthorize =>
        cases hpc
        obtain ⟨call, -, rfl⟩ := authorize_users hauthorize
        cases call <;> exact .idle rfl
    | catalog h => cases (settle_users hpc).2.2
    | users h =>
        obtain ⟨rfl, rfl, heq⟩ := settle_users hpc
        cases heq
        obtain ⟨call, -, hknown⟩ := hother _ _ _ hpc'
        exact UserStep.apart hknown (hapart _ _ _ _ _ _ rfl hpc') h
    | _ => cases hpc

def apiOutline (ι : Type) : Outline ι Deployment Row Pc where
  inv d := Keyed d.store
  at_ _ d rows pc := ApiAt d rows pc
  apart := ApiApart

theorem apiOutline_sound (ι : Type) : (apiOutline ι).Sound apiStep anyStep where
  own _ i _ _ _ hw _ hP _ := own_of_apiStep hw.inv (hw.at_ i) (apiStep_cases hP)
  frame w i j _ _ _ hw _ hP _ hj := by
    have hdisjoint : ∀ row, row ∈ w.held j → row ∉ w.held i :=
      fun row hj' hi => hj (w.held_disjoint hj' hi)
    obtain ⟨hat, hapart⟩ := frame_of_apiStep (hw.at_ i) (hw.at_ j) hdisjoint
      (hw.apart i j hj.symm) (apiStep_cases hP)
    exact ⟨hat, hapart, hapart.symm⟩

theorem apiOutline_start {d : Deployment} (h : Keyed d.store) (ι : Type) :
    (apiOutline ι).Valid (atRest d) where
  inv := h
  at_ _ _ _ _ hpc := by cases hpc
  apart _ _ _ _ _ _ _ _ _ hpc _ := by cases hpc

/-! ## Who is banned after a statement -/

def banCommitted : Pc → Act → Option Nat
  | .service _ (.banUser userId) (.users (.change (.updated _))), .users .run => some userId
  | _, _ => none

def unbanCommitted : Pc → Act → Option Nat
  | .service _ (.unbanUser userId) (.users (.change (.updated _))), .users .run => some userId
  | _, _ => none

theorem banCommitted_of_call {bearer : Option Nat} {request : Request} {id actorId : Nat}
    {change : Change} (h : userCall bearer request = some (.ban id actorId)) :
    banCommitted (.service bearer request (.users (.change (.updated change)))) (.users .run) =
      some id := by
  cases request <;> simp only [userCall, reduceCtorEq, Option.map_eq_some_iff, Option.some.injEq,
    Call.ban.injEq, and_false, exists_false] at h
  case banUser userId =>
      obtain ⟨actor, -, rfl, -⟩ := h
      rfl

theorem unbanCommitted_of_call {bearer : Option Nat} {request : Request} {id actorId : Nat}
    {change : Change} (h : userCall bearer request = some (.unban id actorId)) :
    unbanCommitted (.service bearer request (.users (.change (.updated change)))) (.users .run) =
      some id := by
  cases request <;> simp only [userCall, reduceCtorEq, Option.map_eq_some_iff, Option.some.injEq,
    Call.unban.injEq, and_false, exists_false] at h
  case unbanUser userId =>
      obtain ⟨actor, -, rfl, -⟩ := h
      rfl

theorem service_of_banCommitted {pc : Pc} {a : Act} {id : Nat} (h : banCommitted pc a = some id) :
    ∃ bearer request pc', pc = .service bearer request pc' := by
  unfold banCommitted at h
  split at h
  · exact ⟨_, _, _, rfl⟩
  · cases h

theorem Banned.of_users {id : Nat} {s s' : Store} (h : Banned id s)
    (husers : s'.db.users = s.db.users) : Banned id s' := by
  unfold Banned
  rw [husers]
  exact h

/-- Only a ban makes a user inactive. -/
theorem banned_before {d : Deployment} {rows : Set Row} {pc pc' : Pc} {a : Act}
    {eff : Effect Deployment Row} (hkeyed : Keyed d.store) (hat : ApiAt d rows pc)
    (h : ApiStep d pc a eff pc') {id : Nat} (hbanned : Banned id (eff.apply d).store) :
    Banned id d.store ∨ banCommitted pc a = some id := by
  rcases touches_of_apiStep h with ⟨husers, -⟩ | ⟨bearer, request, upc, upc', b, effect, rfl, rfl,
    rfl, -, h⟩
  · exact .inl (hbanned.of_users husers.symm)
  · obtain ⟨call, hcall, hat⟩ := hat _ _ _ rfl
    rw [store_lift] at hbanned
    obtain ⟨user', huser', rfl, hinactive⟩ := hbanned
    have hwrites := UserStep.writes h
    have hmoves := Moves.writes hkeyed hat hwrites
    rcases hmoves.old user' huser' with ⟨user, huser, hid, rfl | hcaused⟩ | ⟨-, hactive, -⟩
    · exact .inl ⟨user', huser, rfl, hinactive⟩
    · cases hcaused with
      | applyForVerification => exact .inl ⟨user, huser, rfl, hinactive⟩
      | verify => exact .inl ⟨user, huser, rfl, hinactive⟩
      | unban => cases hinactive
      | ban =>
          cases h with
          | create h =>
              obtain ⟨data, hdata⟩ := hat.knows
              cases hdata
          | change h =>
              cases h with
              | commit => exact .inr (banCommitted_of_call hcall)
              | _ => exact .inl ⟨_, huser', rfl, hinactive⟩
    · rw [hinactive] at hactive
      cases hactive

theorem banned_after {d : Deployment} {rows : Set Row} {pc pc' : Pc} {a : Act}
    {eff : Effect Deployment Row} (hkeyed : Keyed d.store) (hat : ApiAt d rows pc)
    (h : ApiStep d pc a eff pc') {id : Nat} (hbanned : Banned id d.store) :
    Banned id (eff.apply d).store ∨ unbanCommitted pc a = some id := by
  rcases touches_of_apiStep h with ⟨husers, -⟩ | ⟨bearer, request, upc, upc', b, effect, rfl, rfl,
    rfl, -, h⟩
  · exact .inl (hbanned.of_users husers)
  · obtain ⟨call, hcall, hat⟩ := hat _ _ _ rfl
    rw [store_lift]
    obtain ⟨user, huser, rfl, hinactive⟩ := hbanned
    have hmoves := Moves.writes hkeyed hat (UserStep.writes h)
    obtain ⟨user', huser', hid, rfl | hcaused⟩ := hmoves.kept user huser
    · exact .inl ⟨user', huser', rfl, hinactive⟩
    · cases hcaused with
      | applyForVerification _ hactive =>
          rw [hinactive] at hactive
          cases hactive
      | verify _ hactive =>
          rw [hinactive] at hactive
          cases hactive
      | ban => exact .inl ⟨_, huser', rfl, rfl⟩
      | unban =>
          cases h with
          | create h =>
              obtain ⟨data, hdata⟩ := hat.knows
              cases hdata
          | change h =>
              cases h with
              | commit => exact .inr (unbanCommitted_of_call hcall)
              | _ => exact .inl ⟨user, huser, rfl, hinactive⟩

theorem banned_of_banCommitted {ι : Type} {i : ι} {d : Deployment} {rows : Set Row} {pc pc' : Pc}
    {a : Act} {eff : Effect Deployment Row} (hat : ApiAt d rows pc)
    (hP : apiStep i d pc a = some (eff, pc')) {id : Nat} (hban : banCommitted pc a = some id) :
    Banned id (eff.apply d).store := by
  unfold banCommitted at hban
  split at hban
  case h_2 => cases hban
  case h_1 bearer userId change =>
      cases hban
      obtain ⟨call, hcall, hat⟩ := hat _ _ _ rfl
      obtain ⟨actorId, -, rfl⟩ := Option.map_eq_some_iff.mp hcall
      obtain ⟨hruns, -, user, huser, hid, -⟩ := hat.knows
      cases hruns
      cases hP
      refine ⟨_, List.mem_map_of_mem huser, ?_⟩
      rw [if_pos hid]
      exact ⟨hid, rfl⟩

/-! ## Requests under way -/

/-- A login that has read the user as active, or a request admitted for the user
and not answered yet.  `apply_for_verification` reads the user itself. -/
def underway (id : Nat) : Pc → Bool
  | .userRead (some user) => user.id = id ∧ user.isActive
  | .service _ .applyForVerification (.users _) => false
  | .service bearer _ _ => bearer = some id
  | _ => false

/-- Nothing is under way for a user who is banned. -/
def Clear {ι : Type} (w : World ι Deployment Row Pc) : Prop :=
  ∀ id, Banned id w.shared.store → ∀ i, ¬ underway id (w.pc i)

def admittedBy (d : Deployment) : Act → Option Nat
  | .send .applyForVerification _ _ => none
  | .send request token now => admitted d now token request
  | _ => none

/-- It is not a user who is banned. -/
def SparedSend (d : Deployment) (a : Act) : Prop := ∀ id ∈ admittedBy d a, ¬ Banned id d.store

instance (d : Deployment) (a : Act) : Decidable (SparedSend d a) :=
  inferInstanceAs (Decidable (∀ id ∈ admittedBy d a, _))

/-- And a ban commits while nothing is under way for its user. -/
def Spared {ι : Type} (w : World ι Deployment Row Pc) (i : ι) (a : Act) : Prop :=
  SparedSend w.shared a ∧ ∀ id ∈ banCommitted (w.pc i) a, ∀ j, ¬ underway id (w.pc j)

instance {n : Nat} (w : World (Fin n) Deployment Row Pc) (i : Fin n) (a : Act) :
    Decidable (Spared w i a) :=
  inferInstanceAs (Decidable (_ ∧ ∀ id ∈ banCommitted (w.pc i) a, ∀ j, ¬ underway id (w.pc j)))

theorem underway_settle {id : Nat} {bearer : Option Nat} {request : Request} {pc : ServicePc}
    (h : underway id (settle bearer request pc)) : underway id (.service bearer request pc) := by
  unfold settle at h
  split at h
  · cases h
  · exact h

theorem underway_service {d : Deployment} {bearer : Option Nat} {request : Request}
    {pc : ServicePc} {pc' : Pc} {a : Act} {eff : Effect Deployment Row}
    (h : ApiStep d (.service bearer request pc) a eff pc') {id : Nat}
    (hunderway : underway id pc') : underway id (.service bearer request pc) := by
  cases h with
  | catalog =>
      have hbefore := underway_settle hunderway
      cases request <;> exact hbefore
  | users =>
      have hbefore := underway_settle hunderway
      cases request <;> exact hbefore

/-- What is under way after a statement was before, or is a request being admitted,
or a login reading an active user. -/
theorem underway_before {d : Deployment} {pc pc' : Pc} {a : Act} {eff : Effect Deployment Row}
    (h : ApiStep d pc a eff pc') {id : Nat} (hunderway : underway id pc') :
    underway id pc ∨ (SparedSend d a → ¬ Banned id d.store) ∨
      ∃ user ∈ d.store.db.users, user.id = id ∧ user.isActive := by
  cases h with
  | @dispatch request token now bearer pc hauthorize =>
      have hadmitted : admitted d now token request = bearer := by
        unfold admitted
        rw [hauthorize]
      refine .inr (.inl fun hspared => ?_)
      cases request
      case applyForVerification =>
          cases pc with
          | users => cases hunderway
          | catalog =>
              obtain ⟨userId, -, heq⟩ := authorize_guarded rfl hauthorize
              cases heq
      all_goals
        have hbearer : bearer = some id := of_decide_eq_true hunderway
        exact hspared id (hadmitted.trans hbearer)
  | @readUser data =>
      cases hread : findByEmail d.store.db data.email with
      | none =>
          rw [hread] at hunderway
          cases hunderway
      | some user =>
          rw [hread] at hunderway
          exact .inr (.inr ⟨user, List.mem_of_find?_eq_some hread, of_decide_eq_true hunderway⟩)
  | catalog h => exact .inl (underway_service (.catalog h) hunderway)
  | users h => exact .inl (underway_service (.users h) hunderway)
  | _ => cases hunderway

section Steps

variable {ι : Type} [DecidableEq ι]

theorem clear_step {w w' : World ι Deployment Row Pc} (hw : (apiOutline ι).Valid w)
    (hclear : Clear w) {i : ι} {a : Act} (hspared : Spared w i a)
    (hs : w.step apiStep i a = some w') : Clear w' := by
  obtain ⟨eff, pc, hP, -, rfl⟩ := World.step_eq_some.mp hs
  have hstep := apiStep_cases hP
  intro id hbanned j hunderway
  rcases banned_before hw.inv (hw.at_ i) hstep hbanned with hbefore | hban
  · by_cases hj : j = i
    · subst hj
      rw [World.after_pc_self] at hunderway
      rcases underway_before hstep hunderway with h | h | ⟨user, huser, hid, hactive⟩
      · exact hclear id hbefore j h
      · exact h hspared.1 hbefore
      · obtain ⟨other, hother, hotherId, hinactive⟩ := hbefore
        obtain rfl : user = other := hw.inv.ext huser hother (hid.trans hotherId.symm)
        rw [hinactive] at hactive
        cases hactive
    · rw [World.after_pc_other w hj] at hunderway
      exact hclear id hbefore j hunderway
  · refine hspared.2 id hban j ?_
    by_cases hj : j = i
    · subst hj
      rw [World.after_pc_self] at hunderway
      obtain ⟨bearer, request, pc', hpc⟩ := service_of_banCommitted hban
      rw [hpc] at hstep ⊢
      exact underway_service hstep hunderway
    · rwa [World.after_pc_other w hj] at hunderway

theorem clear_run {w w' : World ι Deployment Row Pc} (hw : (apiOutline ι).Valid w)
    (hclear : Clear w) (h : Run apiStep Spared w w') : (apiOutline ι).Valid w' ∧ Clear w' := by
  refine h.invariant (I := fun v => (apiOutline ι).Valid v ∧ Clear v) (fun v v' i a hv hok hs => ?_)
    ⟨hw, hclear⟩
  exact ⟨(apiOutline_sound ι).step hv.1 trivial hs, clear_step hv.1 hv.2 hok hs⟩

/-- A user stays banned until an unban of the user commits. -/
theorem banned_step {w w' : World ι Deployment Row Pc} (hw : (apiOutline ι).Valid w) {i : ι}
    {a : Act} (hs : w.step apiStep i a = some w') {id : Nat} (hbanned : Banned id w.shared.store)
    (hkept : unbanCommitted (w.pc i) a ≠ some id) : Banned id w'.shared.store := by
  obtain ⟨eff, pc, hP, -, rfl⟩ := World.step_eq_some.mp hs
  rcases banned_after hw.inv (hw.at_ i) (apiStep_cases hP) hbanned with h | h
  · exact h
  · exact absurd h hkept

end Steps

/-! ## Requests of a banned user -/

def carries (id : Nat) : Pc → Bool
  | .service bearer _ _ => bearer = some id
  | .answered bearer _ _ => bearer = some id
  | _ => false

/-- The request has been answered, and not with an error. -/
def succeeded : Pc → Bool
  | .answered _ _ success => success
  | _ => false

theorem apply_refused {s : Store} {rows : Set Row} {id : Nat} {pc pc' : UserPc} {a : UserAct}
    {eff : Effect Store Row} (hkeyed : Keyed s) (hat : At s rows (.applyForVerification id) pc)
    (h : UserStep s pc a eff pc') (hbanned : Banned id s) :
    outcome (.users pc') ≠ some true ∧ (eff.apply s).db = s.db := by
  obtain ⟨banned, hmem, hid, hinactive⟩ := hbanned
  cases h with
  | create h =>
      obtain ⟨data, hdata⟩ := hat.knows
      cases hdata
  | change h =>
      cases h with
      | @decide change user hfind =>
          have hruns : Runs (.applyForVerification id) change := hat.knows
          cases hruns
          obtain ⟨huser, huserId⟩ := findUser_eq_some hfind
          obtain rfl : user = banned := hkeyed.ext huser hmem (huserId.trans hid.symm)
          refine ⟨?_, rfl⟩
          simp [outcome, applyForVerification, hinactive, Except.isOk, Except.toBool]
      | commit =>
          obtain ⟨hruns, -, user, huser, huserId, hcondition⟩ := hat.knows
          cases hruns
          obtain rfl : user = banned := hkeyed.ext huser hmem (huserId.trans hid.symm)
          have hactive : user.role = .user ∧ user.isActive := of_decide_eq_true hcondition
          rw [hinactive] at hactive
          cases hactive.2
      | refuse => exact ⟨by simp [outcome, Except.isOk, Except.toBool], rfl⟩
      | update => exact ⟨by simp [outcome], rfl⟩
      | miss => exact ⟨by simp [outcome], rfl⟩
      | quits => exact ⟨by simp [outcome, Except.isOk, Except.toBool], rfl⟩

theorem succeeded_settle {bearer : Option Nat} {request : Request} {pc : ServicePc} :
    succeeded (settle bearer request pc) ↔ outcome pc = some true := by
  unfold settle
  cases outcome pc <;> simp [succeeded]

theorem carries_settle {id : Nat} {bearer : Option Nat} {request : Request} {pc : ServicePc} :
    carries id (settle bearer request pc) ↔ bearer = some id := by
  unfold settle
  cases outcome pc <;> simp [carries]

/-- What holds of a statement while the user is banned and nothing else than
`apply_for_verification` is under way for the user. -/
theorem refused_of_banned {d : Deployment} {rows : Set Row} {pc pc' : Pc} {a : Act}
    {eff : Effect Deployment Row} (hkeyed : Keyed d.store) (hat : ApiAt d rows pc)
    (h : ApiStep d pc a eff pc') {id : Nat} (hbanned : Banned id d.store)
    (hclear : ¬ underway id pc) (hcarries : carries id pc') :
    ¬ succeeded pc' ∧ (eff.apply d).store.db = d.store.db := by
  cases h with
  | dispatch => exact ⟨Bool.false_ne_true, rfl⟩
  | @catalog bearer request =>
      have hbearer := carries_settle.mp hcarries
      exact absurd (by cases request <;> exact decide_eq_true hbearer) hclear
  | @users bearer request upc upc' b eff h =>
      obtain rfl := carries_settle.mp hcarries
      obtain ⟨call, hcall, hat⟩ := hat _ _ _ rfl
      cases request
      case applyForVerification =>
          cases hcall
          obtain ⟨hrefused, hdb⟩ := apply_refused hkeyed hat h hbanned
          rw [store_lift]
          exact ⟨fun h => hrefused (succeeded_settle.mp h), hdb⟩
      all_goals exact absurd (decide_eq_true rfl) hclear
  | _ => cases hcarries

theorem issued_of_apiStep {d : Deployment} {pc pc' : Pc} {a : Act} {eff : Effect Deployment Row}
    (h : ApiStep d pc a eff pc') {token : Token} (hissued : token ∈ (eff.apply d).issued) :
    token ∈ d.issued ∨ underway token.sub pc := by
  have hlift : ∀ effect : Effect Store Row, ((effect.lift onStore).apply d).issued = d.issued := by
    intro effect
    cases effect <;> rfl
  cases h with
  | issue hactive =>
      rcases List.mem_append.mp hissued with hold | hnew
      · exact .inl hold
      · rw [List.mem_singleton.mp hnew]
        exact .inr (decide_eq_true ⟨rfl, hactive⟩)
  | catalog => exact .inl (hlift _ ▸ hissued)
  | users => exact .inl (hlift _ ▸ hissued)
  | _ => exact .inl hissued

/-- In every interleaving in which a banned user's requests are admitted for
nothing but `apply_for_verification`, and bans commit while nothing is under way
for their user: from the commit of a ban until the commit of an unban, no request
made with a token of the user is answered with a success or changes the database,
and no token is issued to the user. -/
theorem banned_users {ι : Type} [DecidableEq ι] {d : Deployment} (hkeyed : Keyed d.store)
    {w w' v v' : World ι Deployment Row Pc} (h : Run apiStep Spared (atRest d) w) {id : Nat}
    {i : ι} {a : Act} (hban : banCommitted (w.pc i) a = some id) (hspared : Spared w i a)
    (hs : w.step apiStep i a = some w')
    (h' : Run apiStep (fun v j b => Spared v j b ∧ unbanCommitted (v.pc j) b ≠ some id) w' v)
    {j : ι} {b : Act} (hs' : v.step apiStep j b = some v') :
    (carries id (v'.pc j) → ¬ succeeded (v'.pc j) ∧ v'.shared.store.db = v.shared.store.db) ∧
      ∀ token ∈ v'.shared.issued, token.sub = id → token ∈ v.shared.issued := by
  have hstart : Clear (atRest (ι := ι) d) := fun _ _ _ h => Bool.false_ne_true h
  obtain ⟨hw, hclear⟩ := clear_run (apiOutline_start hkeyed ι) hstart h
  have hclear' := clear_step hw hclear hspared hs
  have hw' := (apiOutline_sound ι).step hw trivial hs
  have hbanned : Banned id w'.shared.store := by
    obtain ⟨eff, pc, hP, -, rfl⟩ := World.step_eq_some.mp hs
    exact banned_of_banCommitted (hw.at_ i) hP hban
  obtain ⟨hv, hclearv⟩ := clear_run hw' hclear' (h'.mono fun _ _ _ hok => hok.1)
  have hbannedv : Banned id v.shared.store := by
    refine (h'.invariant (I := fun u => (apiOutline ι).Valid u ∧ Banned id u.shared.store)
      (fun u u' k c hu hok hs => ?_) ⟨hw', hbanned⟩).2
    exact ⟨(apiOutline_sound ι).step hu.1 trivial hs, banned_step hu.1 hs hu.2 hok.2⟩
  obtain ⟨eff, pc, hP, -, rfl⟩ := World.step_eq_some.mp hs'
  have hstep := apiStep_cases hP
  constructor
  · rw [World.after_pc_self]
    exact refused_of_banned hv.inv (hv.at_ j) hstep hbannedv (hclearv id hbannedv j)
  · intro token hissued hsub
    rcases issued_of_apiStep hstep hissued with hold | hunderway
    · exact hold
    · rw [hsub] at hunderway
      exact absurd hunderway (hclearv id hbannedv j)

/-! ## A village -/

def village : Deployment where
  store := {
    db := {
      users := [⟨1, "root@example.com", .admin, true⟩,
        ⟨2, "author@example.com", .verifiedUser, true⟩, ⟨3, "guest@example.com", .user, true⟩]
      eventCategories := [⟨1, "music", none⟩]
      events := [⟨1, "concert", "live", 2, 1, .draft, .online, none, 100⟩] }
    seq := { users := 4, eventCategories := 2, events := 2 } }
  expireSeconds := 3600
  issued := []

theorem keyed_village : Keyed village.store := by
  constructor <;> decide

def rootToken : Token := ⟨1, .admin, 3600⟩
def authorToken : Token := ⟨2, .verifiedUser, 3600⟩
def guestToken : Token := ⟨3, .user, 3600⟩

def upToBan (root user ban : ι) (email : String) (userId : Nat) : List (ι × Act) :=
  [(root, .login ⟨"root@example.com"⟩), (root, .readUser), (root, .authenticate true 0),
    (user, .login ⟨email⟩), (user, .readUser), (user, .authenticate true 0),
    (ban, .send (.banUser userId) (some rootToken) 1), (ban, .users .run)]

/-- The guest applies for verification after the ban, and is refused. -/
theorem banned_users_village :
    ∃ w w' v v' : World (Fin 4) Deployment Row Pc, Run apiStep Spared (atRest village) w ∧
      banCommitted (w.pc 2) (.users .run) = some 3 ∧
      w.step apiStep 2 (.users .run) = some w' ∧
      Run apiStep (fun v j b => Spared v j b ∧ unbanCommitted (v.pc j) b ≠ some 3) w' v ∧
      v.step apiStep 3 (.users .run) = some v' ∧ carries 3 (v'.pc 3) ∧ ¬ succeeded (v'.pc 3) := by
  have hrun : (((atRest village).guardedSteps apiStep Spared
      (upToBan (0 : Fin 4) 1 2 "guest@example.com" 3)).bind fun w =>
        (w.step apiStep 2 (.users .run)).bind fun w' =>
        (w'.guardedSteps apiStep
          (fun v j b => Spared v j b ∧ unbanCommitted (v.pc j) b ≠ some 3)
          [(3, .send .applyForVerification (some guestToken) 2), (3, .users .run)]).bind fun v =>
          (v.step apiStep 3 (.users .run)).map fun v' =>
            (banCommitted (w.pc 2) (.users .run), decide (Spared w 2 (.users .run)),
              carries 3 (v'.pc 3))) = some (some 3, true, true) := by
    decide
  obtain ⟨w, hw, hrun⟩ := Option.bind_eq_some_iff.mp hrun
  obtain ⟨w', hw', hrun⟩ := Option.bind_eq_some_iff.mp hrun
  obtain ⟨v, hv, hrun⟩ := Option.bind_eq_some_iff.mp hrun
  obtain ⟨v', hv', hfacts⟩ := Option.map_eq_some_iff.mp hrun
  simp only [Prod.mk.injEq, decide_eq_true_eq] at hfacts
  obtain ⟨hban, hspared, hcarries⟩ := hfacts
  have h := Run.of_guardedSteps hw
  have h' := Run.of_guardedSteps hv
  exact ⟨w, w', v, v', h, hban, hw', h', hv', hcarries,
    ((banned_users keyed_village h hban hspared hw' h' hv').1 hcarries).1⟩

/-- A banned author publishes a draft with a token from before the ban. -/
theorem banned_author_publishes :
    ∃ w w' v v' : World (Fin 4) Deployment Row Pc, Run apiStep anyStep (atRest village) w ∧
      banCommitted (w.pc 2) (.users .run) = some 2 ∧
      w.step apiStep 2 (.users .run) = some w' ∧
      Run apiStep (fun v j b => unbanCommitted (v.pc j) b ≠ some 2) w' v ∧
      v.step apiStep 3 (.catalog (.edit (.run 0))) = some v' ∧ authorToken ∈ w.shared.issued ∧
      carries 2 (v'.pc 3) ∧ succeeded (v'.pc 3) ∧
      (v'.shared.store.db.events.map fun event => event.state) = [.onModeration] := by
  have hrun : (((atRest village).steps apiStep
      (upToBan (0 : Fin 4) 1 2 "author@example.com" 2)).bind fun w =>
        (w.step apiStep 2 (.users .run)).bind fun w' =>
        (w'.guardedSteps apiStep (fun v j b => unbanCommitted (v.pc j) b ≠ some 2)
          [(3, .send (.publish 1) (some authorToken) 2), (3, .catalog (.edit (.run 0)))]).bind
          fun v => (v.step apiStep 3 (.catalog (.edit (.run 0)))).map fun v' =>
            (banCommitted (w.pc 2) (.users .run), decide (authorToken ∈ w.shared.issued),
              carries 2 (v'.pc 3), succeeded (v'.pc 3),
              v'.shared.store.db.events.map fun event => event.state)) =
        some (some 2, true, true, true, [.onModeration]) := by
    decide
  obtain ⟨w, hw, hrun⟩ := Option.bind_eq_some_iff.mp hrun
  obtain ⟨w', hw', hrun⟩ := Option.bind_eq_some_iff.mp hrun
  obtain ⟨v, hv, hrun⟩ := Option.bind_eq_some_iff.mp hrun
  obtain ⟨v', hv', hfacts⟩ := Option.map_eq_some_iff.mp hrun
  simp only [Prod.mk.injEq, decide_eq_true_eq] at hfacts
  obtain ⟨hban, hissued, hcarries, hsucceeded, hevents⟩ := hfacts
  exact ⟨w, w', v, v', .of_steps hw, hban, hw', .of_guardedSteps hv, hv', hissued, hcarries,
    hsucceeded, hevents⟩

end TicketBooking.Users.Bans
