import Mathlib.Logic.Relation
import TicketBooking.Users.Transactions
/-!
# Roles

What any interleaving of the user service does to a user that is there: the role
moves along the three edges below, only while the user is active, and an
administrator is never inactive.
-/

namespace TicketBooking.Users.Roles

open Relation
open TicketBooking.Database.Shared TicketBooking.Database.Tables
open TicketBooking.Library.Sessions
open TicketBooking.Users.Accounts TicketBooking.Users.Transactions

/-! ## The allowed moves -/

inductive RoleEdge : UserRole → UserRole → Prop
  | apply : RoleEdge .user .onVerification
  | accept : RoleEdge .onVerification .verifiedUser
  | reject : RoleEdge .onVerification .user

def Privileged (role : UserRole) : Prop := role = .moderator ∨ role = .admin

theorem eq_of_privileged {role role' : UserRole} (hpath : ReflTransGen RoleEdge role role')
    (h : Privileged role ∨ Privileged role') : role' = role := by
  rcases h with h | h
  · rcases hpath.cases_head with heq | ⟨next, hedge, -⟩
    · exact heq.symm
    · cases hedge <;> simp [Privileged] at h
  · rcases hpath.cases_tail with heq | ⟨last, -, hedge⟩
    · exact heq
    · cases hedge <;> simp [Privileged] at h

/-- Later versions of a user: the role is reached along the edges, and no
operation has given or taken MODERATOR or ADMIN. -/
structure Succeeds (user user' : User) : Prop where
  id : user'.id = user.id
  path : ReflTransGen RoleEdge user.role user'.role
  privileged : Privileged user.role ∨ Privileged user'.role → user'.role = user.role

theorem Succeeds.of_path {user user' : User} (hid : user'.id = user.id)
    (hpath : ReflTransGen RoleEdge user.role user'.role) : Succeeds user user' :=
  ⟨hid, hpath, eq_of_privileged hpath⟩

theorem Succeeds.trans {user user' user'' : User} (h : Succeeds user user')
    (h' : Succeeds user' user'') : Succeeds user user'' :=
  .of_path (h'.id.trans h.id) (h.path.trans h'.path)

theorem caused_succeeds {call : Call} {user user' : User} (h : Caused call user user') :
    Succeeds user user' := by
  cases h with
  | applyForVerification hrole => exact .of_path rfl (.single (hrole ▸ .apply))
  | verify hrole =>
      refine .of_path rfl (.single ?_)
      rw [hrole]
      show RoleEdge .onVerification (targetRole _)
      unfold targetRole
      split_ifs
      · exact .accept
      · exact .reject
  | ban => exact .of_path rfl .refl
  | unban => exact .of_path rfl .refl

theorem role_of_caused {call : Call} {user user' : User} (h : Caused call user user')
    (hbanned : user.isActive = false) : user'.role = user.role := by
  cases h with
  | applyForVerification _ hactive => simp [hbanned] at hactive
  | verify _ hactive => simp [hbanned] at hactive
  | ban => rfl
  | unban => rfl

/-- No call makes an administrator inactive or an inactive user an administrator. -/
theorem active_of_caused {call : Call} {user user' : User} (h : Caused call user user')
    (hrole : user'.role = .admin) : user'.isActive := by
  cases h with
  | applyForVerification => cases hrole
  | verify =>
      simp only [targetRole] at hrole
      split_ifs at hrole
  | ban _ hadmin => exact absurd hrole hadmin
  | unban => rfl

/-! ## What a session has matched -/

structure Keyed (s : Store) : Prop where
  users : (s.db.users.map fun user => user.id).Nodup
  userSeq : ∀ user ∈ s.db.users, user.id < s.seq.users

theorem Keyed.ext {s : Store} (h : Keyed s) {user user' : User} (huser : user ∈ s.db.users)
    (huser' : user' ∈ s.db.users) (hid : user.id = user'.id) : user = user' :=
  List.inj_on_of_nodup_map h.users huser huser' hid

/-- No administrator is inactive. -/
def AdminsActive (s : Store) : Prop := ∀ user ∈ s.db.users, user.role = .admin → user.isActive

def drawnUser : UserPc → Option User
  | .create (.inserting user) => some user
  | .create (.keyed user) => some user
  | .create (.inserted user) => some user
  | _ => none

def Knows (s : Store) (rows : Set Row) (call : Call) : UserPc → Prop
  | .create _ => ∃ data, call = .create data
  | .change (.start call') => call' = call
  | .change (.missed change) => Runs call change
  | .change (.updated change) => Runs call change ∧ Row.user change.userId ∈ rows ∧
      ∃ user ∈ s.db.users, user.id = change.userId ∧ change.condition user
  | .change (.finished _) => True

structure At (s : Store) (rows : Set Row) (call : Call) (pc : UserPc) : Prop where
  drawn : ∀ user, drawnUser pc = some user → user.role = .user ∧ user.isActive ∧
    user.id < s.seq.users ∧ ∀ other ∈ s.db.users, other.id ≠ user.id
  knows : Knows s rows call pc

def Apart (pc pc' : UserPc) : Prop :=
  ∀ user user', drawnUser pc = some user → drawnUser pc' = some user' → user.id ≠ user'.id

theorem Apart.symm {pc pc' : UserPc} (h : Apart pc pc') : Apart pc' pc :=
  fun user user' huser huser' heq => h user' user huser' huser heq.symm

theorem Apart.idle {pc pc' : UserPc} (h : drawnUser pc = none) : Apart pc pc' := by
  intro user user' huser
  rw [h] at huser
  cases huser

theorem At.idle {s : Store} {rows : Set Row} {call : Call} {pc : UserPc}
    (hdrawn : drawnUser pc = none) (hknows : Knows s rows call pc) : At s rows call pc := by
  refine ⟨fun user huser => ?_, hknows⟩
  rw [hdrawn] at huser
  cases huser

/-! ## What a statement does to the users -/

inductive Writes (s : Store) : UserPc → Effect Store Row → Prop
  | nothing {pc : UserPc} {eff : Effect Store Row}
      (husers : (eff.apply s).db.users = s.db.users)
      (hseq : s.seq.users ≤ (eff.apply s).seq.users) : Writes s pc eff
  | insertUser {user : User} :
      Writes s (.create (.inserted user)) (.commit fun s => s.withDb (insertUser user))
  | updateUser {change : Change} :
      Writes s (.change (.updated change))
        (.commit fun s => s.withDb (updateUser change.userId change.write))

theorem UserStep.writes {s : Store} {pc pc' : UserPc} {a : UserAct} {eff : Effect Store Row}
    (h : UserStep s pc a eff pc') : Writes s pc eff := by
  cases h with
  | create h =>
      cases h with
      | draw => exact .nothing rfl (Nat.le_succ _)
      | commit => exact .insertUser
      | _ => exact .nothing rfl le_rfl
  | change h =>
      cases h with
      | commit => exact .updateUser
      | _ => exact .nothing rfl le_rfl

/-- Every user is there as before or as the call may have left it, and a new one
is an active USER the call registers. -/
structure Moves (call : Call) (s s' : Store) : Prop where
  kept : ∀ user ∈ s.db.users, ∃ user' ∈ s'.db.users,
    user'.id = user.id ∧ (user' = user ∨ Caused call user user')
  old : ∀ user' ∈ s'.db.users, (∃ user ∈ s.db.users, user'.id = user.id ∧
      (user' = user ∨ Caused call user user')) ∨
    user'.role = .user ∧ user'.isActive ∧ ∃ data, call = .create data

theorem Moves.of_users {call : Call} {s s' : Store} (h : s'.db.users = s.db.users) :
    Moves call s s' := by
  refine ⟨fun user huser => ⟨user, h ▸ huser, rfl, .inl rfl⟩, fun user huser => .inl ?_⟩
  exact ⟨user, h ▸ huser, rfl, .inl rfl⟩

theorem Moves.writes {s : Store} {rows : Set Row} {call : Call} {pc : UserPc}
    {eff : Effect Store Row} (hkeyed : Keyed s) (hat : At s rows call pc) (h : Writes s pc eff) :
    Moves call s (eff.apply s) := by
  cases h with
  | nothing husers => exact .of_users husers
  | @insertUser new =>
      obtain ⟨hrole, hactive, -, -⟩ := hat.drawn new rfl
      refine ⟨fun user huser => ⟨user, List.mem_append_left _ huser, rfl, .inl rfl⟩,
        fun user huser => ?_⟩
      rcases List.mem_append.mp huser with huser | huser
      · exact .inl ⟨user, huser, rfl, .inl rfl⟩
      · rw [List.mem_singleton.mp huser]
        exact .inr ⟨hrole, hactive, hat.knows⟩
  | @updateUser change =>
      obtain ⟨hruns, -, found, hfound, hid, hcondition⟩ := hat.knows
      have hmove : ∀ user ∈ s.db.users,
          (if user.id = change.userId then change.write user else user).id = user.id ∧
            ((if user.id = change.userId then change.write user else user) = user ∨
              Caused call user (if user.id = change.userId then change.write user else user)) := by
        intro user huser
        split_ifs with heq
        · have hsame : user = found := hkeyed.ext huser hfound (heq.trans hid.symm)
          subst hsame
          have hcaused := hruns.caused hid hcondition
          exact ⟨(caused_succeeds hcaused).id, .inr hcaused⟩
        · exact ⟨rfl, .inl rfl⟩
      refine ⟨fun user huser => ⟨_, List.mem_map_of_mem huser, hmove user huser⟩,
        fun user' huser' => .inl ?_⟩
      obtain ⟨user, huser, rfl⟩ := List.mem_map.mp huser'
      exact ⟨user, huser, hmove user huser⟩

theorem map_id_updateUser {change : Change} {call : Call} (hruns : Runs call change) (db : Db) :
    (updateUser change.userId change.write db).users.map (fun user => user.id) =
      db.users.map fun user => user.id := by
  simp only [updateUser, List.map_map]
  refine List.map_congr_left fun user _ => ?_
  simp only [Function.comp_apply]
  split_ifs
  · cases hruns <;> rfl
  · rfl

theorem Keyed.writes {s : Store} {rows : Set Row} {call : Call} {pc : UserPc}
    {eff : Effect Store Row} (h : Keyed s) (hat : At s rows call pc) (hwrites : Writes s pc eff) :
    Keyed (eff.apply s) := by
  cases hwrites with
  | nothing husers hseq =>
      refine ⟨husers ▸ h.users, fun user huser => ?_⟩
      exact (h.userSeq user (husers ▸ huser)).trans_le hseq
  | @insertUser new =>
      obtain ⟨-, -, hlt, hfresh⟩ := hat.drawn new rfl
      refine ⟨nodup_append_fresh h.users hfresh, fun user huser => ?_⟩
      rcases List.mem_append.mp huser with huser | huser
      · exact h.userSeq user huser
      · rw [List.mem_singleton.mp huser]
        exact hlt
  | @updateUser change =>
      have hids := map_id_updateUser hat.knows.1 s.db
      refine ⟨hids ▸ h.users, fun user huser => ?_⟩
      obtain ⟨old, hold, hid⟩ := List.mem_map.mp (hids ▸ List.mem_map_of_mem huser)
      rw [← hid]
      exact h.userSeq old hold

theorem AdminsActive.moves {call : Call} {s s' : Store} (h : AdminsActive s)
    (hmoves : Moves call s s') : AdminsActive s' := by
  intro user' huser' hrole
  rcases hmoves.old user' huser' with ⟨user, huser, -, rfl | hcaused⟩ | ⟨huserRole, -, -⟩
  · exact h user' huser hrole
  · exact active_of_caused hcaused hrole
  · rw [huserRole] at hrole
    cases hrole

/-! ## The assertions -/

theorem UserStep.at {s : Store} {rows : Set Row} {call : Call} {pc pc' : UserPc} {a : UserAct}
    {eff : Effect Store Row} (hkeyed : Keyed s) (hat : At s rows call pc)
    (h : UserStep s pc a eff pc') : At (eff.apply s) (eff.held rows) call pc' := by
  cases h with
  | create h =>
      cases h with
      | draw =>
          refine ⟨fun user huser => ?_, hat.knows⟩
          cases huser
          exact ⟨rfl, rfl, Nat.lt_succ_self _, fun other hother => (hkeyed.userSeq other hother).ne⟩
      | lockEmail => exact ⟨hat.drawn, hat.knows⟩
      | insert => exact ⟨hat.drawn, hat.knows⟩
      | _ => exact .idle rfl hat.knows
  | change h =>
      cases h with
      | @update call' change user hruns hsource =>
          obtain rfl : call' = call := hat.knows
          obtain ⟨huser, hfound⟩ := Change.source_eq_some hsource
          exact .idle rfl ⟨hruns, Set.mem_insert _ _, user, huser, hfound⟩
      | @miss call' change hruns =>
          obtain rfl : call' = call := hat.knows
          exact .idle rfl hruns
      | _ => exact .idle rfl trivial

theorem UserStep.apart {s : Store} {rows : Set Row} {call : Call} {pc pc' other : UserPc}
    {a : UserAct} {eff : Effect Store Row} (hother : At s rows call other)
    (hapart : Apart pc other) (h : UserStep s pc a eff pc') : Apart pc' other := by
  cases h with
  | create h =>
      cases h with
      | draw =>
          intro user user' huser huser' heq
          cases huser
          exact absurd heq ((hother.drawn user' huser').2.2.1.ne')
      | lockEmail => exact hapart
      | insert => exact hapart
      | _ => exact .idle rfl
  | change h => exact .idle rfl

/-- What a session knows survives as long as the users it has locked do. -/
theorem Knows.kept {s s' : Store} {rows : Set Row} {call : Call} {pc : UserPc}
    (h : Knows s rows call pc)
    (hkept : ∀ user ∈ s.db.users, Row.user user.id ∈ rows → user ∈ s'.db.users) :
    Knows s' rows call pc := by
  unfold Knows at h ⊢
  split at h
  case h_4 change =>
      obtain ⟨hruns, hlocked, user, huser, hid, hcondition⟩ := h
      exact ⟨hruns, hlocked, user, hkept user huser (hid ▸ hlocked), hid, hcondition⟩
  all_goals exact h

theorem At.of_users {s s' : Store} {rows : Set Row} {call : Call} {pc : UserPc}
    (h : At s rows call pc) (husers : s'.db.users = s.db.users)
    (hseq : s.seq.users ≤ s'.seq.users) : At s' rows call pc := by
  refine ⟨fun user huser => ?_, h.knows.kept fun user huser _ => husers ▸ huser⟩
  obtain ⟨hrole, hactive, hlt, hfresh⟩ := h.drawn user huser
  exact ⟨hrole, hactive, hlt.trans_le hseq, fun other hother => hfresh other (husers ▸ hother)⟩

/-- A row another session has locked, or an id it has drawn, is left alone. -/
theorem At.writes {s : Store} {rows rows' : Set Row} {call call' : Call} {pc pc' : UserPc}
    {eff : Effect Store Row} (h : At s rows call pc) (h' : At s rows' call' pc')
    (hdisjoint : ∀ row, row ∈ rows' → row ∉ rows) (hapart : Apart pc pc')
    (hwrites : Writes s pc eff) :
    At (eff.apply s) rows' call' pc' := by
  cases hwrites with
  | nothing husers hseq => exact h'.of_users husers hseq
  | @insertUser new =>
      refine ⟨fun user huser => ?_, h'.knows.kept fun user huser _ => List.mem_append_left _ huser⟩
      obtain ⟨hrole, hactive, hlt, hfresh⟩ := h'.drawn user huser
      refine ⟨hrole, hactive, hlt, fun other hother => ?_⟩
      rcases List.mem_append.mp hother with hother | hother
      · exact hfresh other hother
      · rw [List.mem_singleton.mp hother]
        exact hapart new user rfl huser
  | @updateUser change =>
      refine ⟨fun user huser => ?_, h'.knows.kept fun user huser hlocked => ?_⟩
      · obtain ⟨hrole, hactive, hlt, hfresh⟩ := h'.drawn user huser
        refine ⟨hrole, hactive, hlt, fun other hother => ?_⟩
        obtain ⟨old, hold, hid⟩ := List.mem_map.mp
          (map_id_updateUser h.knows.1 s.db ▸ List.mem_map_of_mem hother)
        rw [← hid]
        exact hfresh old hold
      · refine List.mem_map.mpr ⟨user, huser, if_neg fun hid => ?_⟩
        exact hdisjoint _ (hid ▸ hlocked) h.knows.2.1

/-! ## Calls that return True -/

def returnsTrue : UserPc → Bool
  | .change (.finished (.ok true)) => true
  | _ => false

def Fulfilled (s : Store) (call : Call) : Prop :=
  ∃ user ∈ s.db.users, call.userId = some user.id ∧ Fulfills user call

/-- A conditional update returns True when it commits, or when the row read after
a miss is taken for a success. -/
theorem changeStep_true {s : Store} {pc : ChangePc} {a : UserAct} {eff : Effect Store Row}
    (h : changeStep s pc a = some (eff, .finished (.ok true))) :
    (∃ change, pc = .updated change ∧
        eff = .commit fun s => s.withDb (updateUser change.userId change.write)) ∨
      ∃ change user, pc = .missed change ∧ eff = .rollback ∧
        findUser s.db change.userId = some user ∧ change.onMiss user = .ok true := by
  fun_cases changeStep s pc a
  all_goals simp only [changeStep] at h
  case case6 change user hfind =>
      simp only [hfind, Option.some.injEq, Prod.mk.injEq, ChangePc.finished.injEq] at h
      exact .inr ⟨change, user, rfl, h.1.symm, hfind, h.2⟩
  case case7 change =>
      cases h
      exact .inl ⟨change, rfl, rfl⟩
  all_goals try simp only [*] at h
  all_goals cases h

theorem fulfilled_of_true {ι : Type} {i : ι} {s : Store} {rows : Set Row} {call : Call}
    {pc pc' : UserPc} {a : UserAct} {eff : Effect Store Row} (hat : At s rows call pc)
    (h : userStep i s pc a = some (eff, pc')) (htrue : returnsTrue pc') :
    Fulfilled (eff.apply s) call := by
  unfold returnsTrue at htrue
  split at htrue
  · cases pc <;> simp only [userStep, Option.map_eq_some_iff] at h
    all_goals
      obtain ⟨⟨eff', pc''⟩, h, heq⟩ := h
      cases heq
    rcases changeStep_true h with ⟨change, rfl, rfl⟩ | ⟨change, user, rfl, rfl, hfind, hmiss⟩
    · obtain ⟨hruns, -, user, huser, hid, hcondition⟩ := hat.knows
      have hkept : (change.write user).id = user.id :=
        (caused_succeeds (hruns.caused hid hcondition)).id
      refine ⟨change.write user, List.mem_map.mpr ⟨user, huser, if_pos hid⟩, ?_,
        hruns.fulfills_write user⟩
      rw [hruns.userId, hkept, hid]
    · have hruns : Runs call change := hat.knows
      obtain ⟨huser, hid⟩ := findUser_eq_some hfind
      refine ⟨user, huser, ?_, hruns.fulfills_of_miss hmiss⟩
      rw [hruns.userId, hid]
  · cases htrue

/-! ## Whole runs -/

section Run

variable {ι : Type}

structure Seeded (s : Store) : Prop where
  users : (s.db.users.map fun user => user.id).Nodup
  userSeq : ∀ user ∈ s.db.users, user.id < s.seq.users
  active : ∀ user ∈ s.db.users, user.isActive

def outline (calls : ι → Call) : Outline ι Store Row UserPc where
  inv s := Keyed s ∧ AdminsActive s
  at_ i s rows pc := At s rows (calls i) pc
  apart := Apart

theorem outline_sound (calls : ι → Call) : (outline calls).Sound userStep anyStep where
  own _ i _ _ _ hw _ hP _ := by
    have hstep := userStep_cases hP
    refine ⟨⟨Keyed.writes hw.inv.1 (hw.at_ i) (UserStep.writes hstep), ?_⟩,
      UserStep.at hw.inv.1 (hw.at_ i) hstep⟩
    exact hw.inv.2.moves (Moves.writes hw.inv.1 (hw.at_ i) (UserStep.writes hstep))
  frame w i j a eff pc hw _ hP _ hj := by
    have hstep := userStep_cases hP
    have hapart : Apart pc (w.pc j) :=
      UserStep.apart (hw.at_ j) (hw.apart i j hj.symm) hstep
    have hdisjoint : ∀ row, row ∈ w.held j → row ∉ w.held i :=
      fun row hj' hi => hj (w.held_disjoint hj' hi)
    exact ⟨At.writes (hw.at_ i) (hw.at_ j) hdisjoint (hw.apart i j hj.symm) (UserStep.writes hstep),
      hapart, hapart.symm⟩

theorem outline_start {s : Store} (h : Seeded s) (calls : ι → Call) :
    (outline calls).Valid (atCalls s calls) := by
  refine ⟨⟨⟨h.users, h.userSeq⟩, fun user huser _ => h.active user huser⟩, fun i => ?_,
    fun i j _ => ?_⟩
  · show At s _ (calls i) (callPc (calls i))
    cases hcall : calls i <;> exact .idle rfl (by simp [Knows, callPc])
  · show Apart (callPc (calls i)) (callPc (calls j))
    cases calls i <;> exact .idle rfl

variable [DecidableEq ι]

theorem step_moves {calls : ι → Call} {w w' : World ι Store Row UserPc}
    (hw : (outline calls).Valid w) {i : ι} {a : UserAct} (hs : w.step userStep i a = some w') :
    Moves (calls i) w.shared w'.shared ∧
      (returnsTrue (w'.pc i) → Fulfilled w'.shared (calls i)) := by
  obtain ⟨eff, pc, hP, -, rfl⟩ := World.step_eq_some.mp hs
  refine ⟨Moves.writes hw.inv.1 (hw.at_ i) (UserStep.writes (userStep_cases hP)), fun htrue => ?_⟩
  rw [World.after_pc_self] at htrue
  exact fulfilled_of_true (hw.at_ i) hP htrue

theorem run_succeeds {calls : ι → Call} {w w' : World ι Store Row UserPc}
    (hw : (outline calls).Valid w) (h : Run userStep anyStep w w') :
    ∀ user ∈ w.shared.db.users, ∃ user' ∈ w'.shared.db.users, Succeeds user user' := by
  refine h.versions (fun s => s.db.users) (fun user => Succeeds.of_path rfl .refl)
    (fun _ _ _ => Succeeds.trans)
    (fun v v' i a hv hok hs => (outline_sound calls).step hv hok hs)
    (fun v v' i a hv _ hs user huser => ?_) hw
  obtain ⟨user', huser', -, hmove⟩ := (step_moves hv hs).1.kept user huser
  refine ⟨user', huser', ?_⟩
  rcases hmove with rfl | hcaused
  · exact .of_path rfl .refl
  · exact caused_succeeds hcaused

/-- The user is banned in every world the run steps from. -/
def WhileBanned (id : Nat) (w : World ι Store Row UserPc) (_ : ι) (_ : UserAct) : Prop :=
  ∀ user ∈ w.shared.db.users, user.id = id → user.isActive = false

def SameRole (id : Nat) (user user' : User) : Prop :=
  user'.id = user.id ∧ (user.id = id → user'.role = user.role)

theorem SameRole.refl (id : Nat) (user : User) : SameRole id user user := ⟨rfl, fun _ => rfl⟩

theorem SameRole.trans {id : Nat} {user user' user'' : User} (h : SameRole id user user')
    (h' : SameRole id user' user'') : SameRole id user user'' :=
  ⟨h'.1.trans h.1, fun hid => (h'.2 (h.1.trans hid)).trans (h.2 hid)⟩

theorem run_banned {calls : ι → Call} {w w' : World ι Store Row UserPc}
    (hw : (outline calls).Valid w) {id : Nat} (h : Run userStep (WhileBanned id) w w') :
    ∀ user ∈ w.shared.db.users, ∃ user' ∈ w'.shared.db.users, SameRole id user user' := by
  refine h.versions (fun s => s.db.users) (SameRole.refl id) (fun _ _ _ => SameRole.trans)
    (fun v v' i a hv _ hs => (outline_sound calls).step hv trivial hs)
    (fun v v' i a hv hbanned hs user huser => ?_) hw
  obtain ⟨user', huser', hid', hmove⟩ := (step_moves hv hs).1.kept user huser
  refine ⟨user', huser', hid', fun hid => ?_⟩
  rcases hmove with rfl | hcaused
  · rfl
  · exact role_of_caused hcaused (hbanned user huser hid)

/-- In every interleaving from users seeded active: a later version of a user has
a role reached along the edges, and MODERATOR or ADMIN only if it had it; no
administrator is inactive; while a user is banned the role stays; each statement
changes a user only as its call may; and a call that returns True finds or leaves
its user as it asks. -/
theorem user_roles {s : Store} (hseeded : Seeded s) (calls : ι → Call)
    {w w' : World ι Store Row UserPc} (h : Run userStep anyStep (atCalls s calls) w)
    (h' : Run userStep anyStep w w') :
    (∀ user ∈ w.shared.db.users, ∃ user' ∈ w'.shared.db.users, Succeeds user user') ∧
      AdminsActive w'.shared ∧
      (∀ id, Run userStep (WhileBanned id) w w' → ∀ user ∈ w.shared.db.users, user.id = id →
        ∃ user' ∈ w'.shared.db.users, user'.id = id ∧ user'.role = user.role) ∧
      ∀ i a v, w'.step userStep i a = some v →
        Moves (calls i) w'.shared v.shared ∧
          (returnsTrue (v.pc i) → Fulfilled v.shared (calls i)) := by
  have hw := (outline_sound calls).run h (outline_start hseeded calls)
  have hw' := (outline_sound calls).run h' hw
  refine ⟨run_succeeds hw h', hw'.inv.2, fun id hbanned user huser hid => ?_,
    fun i a v hs => step_moves hw' hs⟩
  obtain ⟨user', huser', hid', hrole⟩ := run_banned hw hbanned user huser
  exact ⟨user', huser', hid'.trans hid, hrole hid⟩

end Run

/-! ## A verification -/

def applicant : User := ⟨2, "guest@example.com", .user, true⟩

def household : Store where
  db := { users := [⟨1, "root@example.com", .admin, true⟩, applicant] }
  seq := { users := 3 }

theorem seeded_household : Seeded household := by
  constructor <;> decide

def applyAndVerify : Bool → Call
  | false => .applyForVerification 2
  | true => .verify 2 true

theorem user_roles_household :
    ∃ w w', Run userStep anyStep (atCalls household applyAndVerify) w ∧
      Run userStep anyStep w w' ∧ applicant ∈ w.shared.db.users ∧
      (w'.shared.db.users.map fun user => user.role) = [.admin, .verifiedUser] ∧
      ∃ user ∈ w'.shared.db.users, Succeeds applicant user := by
  have hrun : ((atCalls household applyAndVerify).steps userStep
      [(false, .run), (false, .run), (true, .run), (true, .run)]).map
        (fun w => w.shared.db.users.map fun user => user.role) =
          some [.admin, .verifiedUser] := by
    decide
  obtain ⟨w', hw', hroles⟩ := Option.map_eq_some_iff.mp hrun
  have h' := Run.of_steps hw'
  have hmem : applicant ∈ (atCalls household applyAndVerify).shared.db.users := by decide
  exact ⟨_, w', .refl, h', hmem, hroles,
    (user_roles seeded_household applyAndVerify .refl h').1 applicant hmem⟩

end TicketBooking.Users.Roles
