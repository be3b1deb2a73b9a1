import TicketBooking.App.PrimaryKeys
import TicketBooking.Users.Bans
/-!
# Requests

Every request that is under way is one call of a service: the one its route
makes, for the user of its token.  Whatever the services do behind the routes, in
any interleaving of logins and requests, they do as calls of their own.
-/

namespace TicketBooking.App.Requests

open TicketBooking.App.PrimaryKeys (Call atCalls)
open TicketBooking.App.Violations (ServiceAct serviceStep)
open TicketBooking.Database.Shared TicketBooking.Database.Tables
open TicketBooking.Library.Sessions
open TicketBooking.Users.Authentication

/-! ## The call of a request -/

def requestCall (bearer : Option Nat) : Request → Option Call
  | .register data => some (.users (.create data))
  | .applyForVerification => bearer.map fun userId => .users (.applyForVerification userId)
  | .moderateUser userId result => bearer.map fun _ => .users (.verify userId result)
  | .banUser userId => bearer.map fun actorId => .users (.ban userId actorId)
  | .unbanUser userId => bearer.map fun actorId => .users (.unban userId actorId)
  | .createEvent body => bearer.map fun userId => .catalog (.createEvent body userId)
  | .updateEvent eventId body =>
      bearer.map fun userId => .catalog (.updateEvent body userId eventId)
  | .publish eventId => bearer.map fun userId => .catalog (.publish userId eventId)
  | .cancel eventId => bearer.map fun userId => .catalog (.cancel eventId userId)
  | .moderateEvent eventId result => bearer.map fun _ => .catalog (.moderate eventId result)
  | .createCategory body => bearer.map fun _ => .catalog (.createCategory body)
  | .createTicketCategory body =>
      bearer.map fun userId => .catalog (.createTicketCategory userId body)
  | .updateTicketCategory categoryId body =>
      bearer.map fun userId => .catalog (.updateTicketCategory userId categoryId body)
  | .deleteTicketCategory categoryId =>
      bearer.map fun userId => .catalog (.deleteTicketCategory userId categoryId)
  | .createOrder body => some (.order (.create ⟨body, bearer⟩))
  | .payOrder orderId => some (.order (.confirmPayment orderId))
  | .expireOrder orderId => some (.order (.expireOrder orderId))
  | .migrateAnonymousOrders email => some (.order (.migrateAnonymousOrders email))
  | .cancelReservationWorker => some (.order .cancelReservationWorker)

theorem authorize_call {d : Deployment} {now : Nat} {token : Option Token} {request : Request}
    {bearer : Option Nat} {pc : ServicePc} (h : authorize d now token request = .ok (bearer, pc)) :
    ∃ call, requestCall bearer request = some call ∧ pc = call.pc := by
  cases request
  case register data =>
      cases h
      exact ⟨_, rfl, rfl⟩
  case createOrder body =>
      cases h
      exact ⟨_, rfl, rfl⟩
  case payOrder orderId =>
      cases h
      exact ⟨_, rfl, rfl⟩
  case expireOrder orderId =>
      cases h
      exact ⟨_, rfl, rfl⟩
  case migrateAnonymousOrders email =>
      cases h
      exact ⟨_, rfl, rfl⟩
  case cancelReservationWorker =>
      cases h
      exact ⟨_, rfl, rfl⟩
  all_goals
    obtain ⟨userId, rfl, rfl⟩ := authorize_guarded rfl h
    exact ⟨_, rfl, rfl⟩

/-! ## One step -/

def early : Pc → Bool
  | .service _ _ _ => false
  | .answered _ _ _ => false
  | _ => true

/-- What a step of a request does behind the route. -/
inductive Behind {ι : Type} (i : ι) (d : Deployment) : Pc → Effect Deployment Row → Pc → Prop
  | early {pc pc' : Pc} {eff : Effect Deployment Row} (hpc : early pc) (hpc' : early pc')
      (hstore : (eff.apply d).store = d.store) (heff : eff = .stay ∨ ∃ write, eff = .emit write) :
      Behind i d pc eff pc'
  | dispatch {bearer : Option Nat} {request : Request} {call : Call}
      (hcall : requestCall bearer request = some call) :
      Behind i d .idle .stay (.service bearer request call.pc)
  | service {bearer : Option Nat} {request : Request} {pc pc' : ServicePc} {a : ServiceAct}
      {eff : Effect Store Row} (h : serviceStep i d.store pc a = some (eff, pc')) :
      Behind i d (.service bearer request pc) (eff.lift onStore) (settle bearer request pc')

theorem behind_of_apiStep {ι : Type} {i : ι} {d : Deployment} {pc pc' : Pc} {a : Act}
    {eff : Effect Deployment Row} (h : apiStep i d pc a = some (eff, pc')) :
    Behind i d pc eff pc' := by
  cases apiStep_cases h with
  | dispatch hauthorize =>
      obtain ⟨call, hcall, rfl⟩ := authorize_call hauthorize
      exact .dispatch hcall
  | issue => exact .early rfl rfl rfl (.inr ⟨_, rfl⟩)
  | @catalog _ _ _ _ a =>
      obtain ⟨⟨eff', spc⟩, hstep, heq⟩ := Option.map_eq_some_iff.mp h
      obtain ⟨heff, hpc⟩ := Prod.mk.inj heq
      rw [← heff, ← hpc]
      refine .service (a := .catalog a) ?_
      show (Catalog.System.systemStep i d.store _ a).map _ = _
      rw [hstep]
      rfl
  | @users _ _ _ _ a =>
      obtain ⟨⟨eff', spc⟩, hstep, heq⟩ := Option.map_eq_some_iff.mp h
      obtain ⟨heff, hpc⟩ := Prod.mk.inj heq
      rw [← heff, ← hpc]
      refine .service (a := .users a) ?_
      show (Users.Transactions.userStep i d.store _ a).map _ = _
      rw [hstep]
      rfl
  | _ => exact .early rfl rfl rfl (.inl rfl)

/-! ## A run of requests is a run of calls -/

section Runs

variable {ι : Type}

inductive Stands (calls : ι → Call) (moved : Set ι) (i : ι) : Pc → ServicePc → Prop
  | early {pc : Pc} {spc : ServicePc} (hpc : early pc) (hi : i ∉ moved) :
      Stands calls moved i pc spc
  | service {bearer : Option Nat} {request : Request} {spc : ServicePc}
      (hcall : requestCall bearer request = some (calls i)) :
      Stands calls moved i (.service bearer request spc) spc
  | answered {bearer : Option Nat} {request : Request} {spc : ServicePc} {success : Bool}
      (hcall : requestCall bearer request = some (calls i))
      (houtcome : outcome spc = some success) :
      Stands calls moved i (.answered bearer request success) spc

/-- The services of the requests, and who has moved. -/
structure Serves (w : World ι Deployment Row Pc) (calls : ι → Call) (moved : Set ι)
    (v : World ι Store Row ServicePc) : Prop where
  shared : v.shared = w.shared.store
  holder : v.holder = w.holder
  sessions : ∀ i, Stands calls moved i (w.pc i) (v.pc i)

theorem stands_settle {calls : ι → Call} {moved : Set ι} {i : ι} {bearer : Option Nat}
    {request : Request} (hcall : requestCall bearer request = some (calls i)) (spc : ServicePc) :
    Stands calls moved i (settle bearer request spc) spc := by
  unfold settle
  split
  · rename_i success houtcome
    exact .answered hcall houtcome
  · exact .service hcall

theorem Stands.moved {calls : ι → Call} {moved : Set ι} {i j : ι} (hij : j ≠ i) {pc : Pc}
    {spc : ServicePc} (h : Stands calls moved j pc spc) :
    Stands calls (insert i moved) j pc spc := by
  cases h with
  | early hpc hj => exact .early hpc fun hmem => hmem.elim hij hj
  | service hcall => exact .service hcall
  | answered hcall houtcome => exact .answered hcall houtcome

variable [DecidableEq ι]

theorem Stands.updated {calls : ι → Call} {moved : Set ι} {i j : ι} (hij : j ≠ i) {call : Call}
    {pc : Pc} {spc : ServicePc} (h : Stands calls moved j pc spc) :
    Stands (Function.update calls i call) moved j pc spc := by
  have hcalls : Function.update calls i call j = calls j := Function.update_of_ne hij call calls
  cases h with
  | early hpc hj => exact .early hpc hj
  | service hcall => exact .service (hcalls ▸ hcall)
  | answered hcall houtcome => exact .answered (hcalls ▸ hcall) houtcome

theorem atCalls_update (s : Store) (calls : ι → Call) (i : ι) (call : Call) :
    (atCalls s calls).reset i call.pc = atCalls s (Function.update calls i call) := by
  unfold atCalls World.start World.reset
  congr 1
  funext j
  by_cases hj : j = i
  · subst hj
    rw [Function.update_self, Function.update_self]
  · rw [Function.update_of_ne hj, Function.update_of_ne hj]

/-- The calls behind the requests that are under way. -/
def Accounted (d : Deployment) (w : World ι Deployment Row Pc) (calls : ι → Call) (moved : Set ι)
    (v : World ι Store Row ServicePc) : Prop :=
  Run serviceStep (fun _ j _ => j ∈ moved) (atCalls d.store calls) v ∧ Serves w calls moved v

variable {d : Deployment} {w w' : World ι Deployment Row Pc} {calls : ι → Call} {moved : Set ι}
  {v : World ι Store Row ServicePc}

theorem accounted_step (h : Accounted d w calls moved v) {i : ι} {a : Act}
    (hs : w.step apiStep i a = some w') : ∃ calls moved v, Accounted d w' calls moved v := by
  obtain ⟨hrun, hserves⟩ := h
  obtain ⟨eff, pc', hP, hgrant, rfl⟩ := World.step_eq_some.mp hs
  have hstands := hserves.sessions i
  have hbehind := behind_of_apiStep hP
  generalize w.pc i = pc at hbehind hstands
  generalize hspc : v.pc i = spc at hstands
  cases hbehind with
  | early hpc hpc' hstore heff =>
      cases hstands with
      | early _ hi =>
          refine ⟨calls, moved, v, hrun, hserves.shared.trans hstore.symm, ?_, ?_⟩
          · rw [hserves.holder]
            rcases heff with rfl | ⟨write, rfl⟩ <;> rfl
          · exact World.after_pc_forall (Q := fun j pc => Stands calls moved j pc (v.pc j))
              (.early hpc' hi) fun j _ => hserves.sessions j
      | service => cases hpc
      | answered => cases hpc
  | @dispatch bearer request call hcall =>
      cases hstands with
      | early _ hi =>
          refine ⟨Function.update calls i call, moved, v.reset i call.pc, ?_, hserves.shared,
            hserves.holder, fun j => ?_⟩
          · rw [← atCalls_update]
            exact hrun.reset hi call.pc
          · by_cases hj : j = i
            · subst hj
              rw [World.after_pc_self, World.reset_pc_self]
              exact .service (hcall.trans (congrArg some (Function.update_self j call calls).symm))
            · rw [World.after_pc_other w hj, World.reset_pc_other v hj]
              exact (hserves.sessions j).updated hj
  | @service bearer request spc spc' b eff hstep =>
      cases hstands with
      | early hpc => cases hpc
      | service hcall =>
          refine ⟨calls, insert i moved, v.after i eff spc', ?_, ?_, ?_, fun j => ?_⟩
          · refine (hrun.mono fun _ _ _ hmem => Set.mem_insert_of_mem i hmem).step (a := b)
              (Set.mem_insert i moved) (World.step_eq_some.mpr ⟨eff, spc', ?_, ?_, rfl⟩)
            · rw [hserves.shared, hspc]
              exact hstep
            · rw [hserves.holder]
              exact (Effect.granted_lift onStore eff i _).mp hgrant
          · show eff.apply v.shared = ((eff.lift onStore).apply w.shared).store
            rw [hserves.shared]
            exact (Effect.apply_lift (fun _ _ => rfl) eff w.shared).symm
          · show eff.holderAfter i v.holder = (eff.lift onStore).holderAfter i w.holder
            rw [hserves.holder, Effect.holderAfter_lift]
          · by_cases hj : j = i
            · subst hj
              rw [World.after_pc_self, World.after_pc_self]
              exact stands_settle hcall spc'
            · rw [World.after_pc_other w hj, World.after_pc_other v hj]
              exact (hserves.sessions j).moved hj

theorem accounted_of_run (hrun : Run apiStep anyStep (atRest d) w) :
    ∃ calls moved v, Accounted d w calls moved v := by
  refine hrun.invariant (I := fun w => ∃ calls moved v, Accounted d w calls moved v)
    (fun w w' i a hw _ hs => ?_) ?_
  · obtain ⟨calls, moved, v, h⟩ := hw
    exact accounted_step h hs
  · exact ⟨fun _ => .order .cancelReservationWorker, ∅, _, .refl, rfl, rfl,
      fun i => .early rfl (Set.notMem_empty i)⟩

/-- In every interleaving of logins and requests the services run as in some interleaving of
calls, and each request that got past its role check is the call its route makes for the user
it was admitted for. -/
theorem requests_are_calls (hrun : Run apiStep anyStep (atRest d) w) :
    ∃ calls v, Run serviceStep anyStep (atCalls d.store calls) v ∧
      v.shared = w.shared.store ∧ v.holder = w.holder ∧
      (∀ i bearer request pc, w.pc i = .service bearer request pc →
        requestCall bearer request = some (calls i) ∧ v.pc i = pc) ∧
      ∀ i bearer request success, w.pc i = .answered bearer request success →
        requestCall bearer request = some (calls i) ∧ outcome (v.pc i) = some success := by
  obtain ⟨calls, moved, v, hcalls, hserves⟩ := accounted_of_run hrun
  refine ⟨calls, v, hcalls.mono fun _ _ _ _ => trivial, hserves.shared, hserves.holder,
    fun i bearer request pc hpc => ?_, fun i bearer request success hpc => ?_⟩
  · have hstands := hserves.sessions i
    rw [hpc] at hstands
    generalize hspc : v.pc i = spc at hstands
    cases hstands with
    | early hpc => cases hpc
    | service hcall => exact ⟨hcall, rfl⟩
  · have hstands := hserves.sessions i
    rw [hpc] at hstands
    cases hstands with
    | early hpc => cases hpc
    | answered hcall houtcome => exact ⟨hcall, houtcome⟩

end Runs

/-! ## A ban in a village -/

open TicketBooking.Users.Bans (Banned upToBan village)

theorem requests_are_calls_village : ∃ (w : World (Fin 3) Deployment Row Pc) (calls : Fin 3 → Call)
    (v : World (Fin 3) Store Row ServicePc), Run apiStep anyStep (atRest village) w ∧
      Run serviceStep anyStep (atCalls village.store calls) v ∧
      calls 2 = .users (.ban 3 1) ∧ Banned 3 v.shared := by
  have hrun : ((atRest village).steps apiStep
      (upToBan (0 : Fin 3) 1 2 "guest@example.com" 3 ++ [(2, .users .run)])).map (fun w =>
        (w.pc 2, decide (Banned 3 w.shared.store))) =
      some (.answered (some 1) (.banUser 3) true, true) := by
    rfl
  obtain ⟨w, hw, hfacts⟩ := Option.map_eq_some_iff.mp hrun
  obtain ⟨hanswered, hbanned⟩ := Prod.mk.inj hfacts
  have h := Run.of_steps hw
  obtain ⟨calls, v, hcalls, hshared, -, -, hends⟩ := requests_are_calls h
  obtain ⟨hcall, -⟩ := hends 2 _ _ _ hanswered
  refine ⟨w, calls, v, h, hcalls, (Option.some.inj hcall).symm, ?_⟩
  rw [hshared]
  exact of_decide_eq_true hbanned

end TicketBooking.App.Requests
