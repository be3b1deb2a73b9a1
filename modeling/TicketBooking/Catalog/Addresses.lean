import TicketBooking.Catalog.Drafts
/-!
# Addresses and formats

An offline event has an address and an online event has none.  The schemas
check this on the fields of one request; an update combines them with the
fields the event has, and may name a format in a way the check does not see.
-/

namespace TicketBooking.Catalog.Addresses

open TicketBooking.Catalog.Drafts (stage)
open TicketBooking.Catalog.Editing TicketBooking.Catalog.System TicketBooking.Catalog.Transactions
open TicketBooking.Database.Shared TicketBooking.Database.Tables
open TicketBooking.Library.Sessions

def Suits (format : EventFormat) (address : Option String) : Prop :=
  (format = .offline → givesAddress address) ∧ (format = .online → address = none)

instance (format : EventFormat) (address : Option String) : Decidable (Suits format address) :=
  inferInstanceAs (Decidable ((_ → _) ∧ (_ → _)))

def Valid (event : Event) : Prop := Suits event.format event.address

instance (event : Event) : Decidable (Valid event) :=
  inferInstanceAs (Decidable (Suits event.format event.address))

/-- A patch that gives the format by its value has been checked.  One that leaves
the format may change the address to one that goes with it.  One that names the
format has to go with the address it leaves. -/
def Consistent (data : EventUpdateSchema) (event : Event) : Prop :=
  match data.format with
  | none => ∀ address ∈ data.address, Suits event.format address
  | some none => True
  | some (some text) => text = "offline" ∨ text = "online" ∨
      ∀ format ∈ storedFormat text, Suits format (data.address.getD event.address)

instance (data : EventUpdateSchema) (event : Event) : Decidable (Consistent data event) :=
  match h : data.format with
  | none => decidable_of_iff (∀ address ∈ data.address, Suits event.format address)
      (by simp [Consistent, h])
  | some none => decidable_of_iff True (by simp [Consistent, h])
  | some (some text) => decidable_of_iff (text = "offline" ∨ text = "online" ∨
      ∀ format ∈ storedFormat text, Suits format (data.address.getD event.address))
      (by simp [Consistent, h])

/-! ## One statement -/

theorem valid_newEvent {data : EventCreateSchema} {userId id : Nat} {event : Event}
    (h : newEvent data userId id = some event) : Valid event := by
  obtain ⟨description, -, rfl⟩ := Option.map_eq_some_iff.mp h
  exact ⟨data.address_of_offline, data.address_of_online⟩

theorem suits_offline {data : EventUpdateSchema} (hformat : data.format = some (some "offline"))
    (old : Option String) : Suits .offline (data.address.getD old) := by
  have hgiven := data.address_of_offline hformat
  refine ⟨fun _ => ?_, by simp⟩
  cases haddress : data.address with
  | none => simp [haddress, givesAddress] at hgiven
  | some address =>
      rw [haddress] at hgiven
      exact hgiven

theorem suits_online {data : EventUpdateSchema} (hformat : data.format = some (some "online"))
    (old : Option String) : Suits .online (data.address.getD old) := by
  rw [data.address_of_online hformat]
  exact ⟨by simp, fun _ => rfl⟩

/-- An update of a valid event leaves it valid exactly when the patch is
consistent with it. -/
theorem valid_apply_iff {data : EventUpdateSchema} {event new : Event} (hvalid : Valid event)
    (happly : data.apply event = some new) (hreadable : data.readable) :
    Valid new ↔ Consistent data event := by
  obtain ⟨hformat, haddress⟩ := EventUpdateSchema.apply_address happly
  unfold Valid Consistent at *
  rw [haddress]
  cases hpatch : data.format with
  | none =>
      have hsame : new.format = event.format := by
        simpa [EventUpdateSchema.newFormat, hpatch] using hformat.symm
      rw [hsame]
      cases data.address with
      | none => simpa using hvalid
      | some address => simp
  | some value =>
      cases value with
      | none => simp [EventUpdateSchema.newFormat, hpatch] at hformat
      | some text =>
          have hstored : storedFormat text = some new.format := by
            obtain ⟨format, hread⟩ := Option.isSome_iff_exists.mp
              (show (storedFormat text).isSome by
                simpa [EventUpdateSchema.readable, hpatch] using hreadable)
            simpa [EventUpdateSchema.newFormat, hpatch, hread] using hformat
          simp only [hstored, Option.mem_def, Option.some.injEq, forall_eq']
          constructor
          · exact fun h => .inr (.inr h)
          · rintro (rfl | rfl | h)
            · have hoffline : new.format = .offline := by simpa [storedFormat] using hstored.symm
              rw [hoffline]
              exact suits_offline hpatch _
            · have honline : new.format = .online := by simpa [storedFormat] using hstored.symm
              rw [honline]
              exact suits_online hpatch _
            · exact h

/-! ## Whole runs -/

def patching : Pc → Act → Option (EventUpdateSchema × Event)
  | .updateEvent (.matched data event), .edit (.run _) => some (data, event)
  | _, _ => none

def ConsistentUpdates {ι : Type} (w : World ι Store Row Pc) (i : ι) (a : Act) : Prop :=
  ∀ patch ∈ patching (w.pc i) a, Consistent patch.1 patch.2

instance {ι : Type} (w : World ι Store Row Pc) (i : ι) (a : Act) :
    Decidable (ConsistentUpdates w i a) :=
  inferInstanceAs (Decidable (∀ patch ∈ patching (w.pc i) a, Consistent patch.1 patch.2))

def version : Pc → Option Event
  | .createEvent (.inserted event) => some event
  | .updateEvent (.matched _ event) => some event
  | .updateEvent (.updated event) => some event
  | _ => none

def AllValid (s : Store) : Prop := ∀ event ∈ s.db.events, Valid event

theorem AllValid.writes {s : Store} {pc : Pc} {a : Act} {eff : Effect Store Row} (h : AllValid s)
    (hversion : ∀ event ∈ version pc, Valid event) (hwrites : Writes s pc a eff) :
    AllValid (eff.apply s) := by
  cases hwrites with
  | nothing hkept => exact fun event hevent => h event (hkept.events ▸ hevent)
  | insertEvent =>
      intro event hevent
      rcases List.mem_append.mp hevent with hevent | hevent
      · exact h event hevent
      · exact hversion event (List.mem_singleton.mp hevent ▸ rfl)
  | insertEventCategory => exact h
  | replaceEvent =>
      intro event hevent
      obtain ⟨old, hold, rfl⟩ := List.mem_map.mp hevent
      split_ifs
      · exact hversion _ rfl
      · exact h old hold
  | setState =>
      intro event hevent
      obtain ⟨old, hold, rfl⟩ := List.mem_map.mp hevent
      split_ifs
      · exact h old hold
      · exact h old hold
  | insertTicketCategory => exact h
  | putTicketCategory => exact h

theorem SystemStep.version {s : Store} {pc pc' : Pc} {a : Act} {eff : Effect Store Row}
    (hvalid : AllValid s) (hversion : ∀ event ∈ version pc, Valid event)
    (hok : ∀ patch ∈ patching pc a, Consistent patch.1 patch.2) (h : SystemStep s pc a eff pc') :
    ∀ event ∈ Addresses.version pc', Valid event := by
  have hidle : Addresses.version pc' = none → ∀ event ∈ Addresses.version pc', Valid event := by
    intro hnone
    simp [hnone]
  cases h with
  | createEvent h =>
      cases h with
      | insert hnew =>
          intro event hevent
          cases hevent
          exact valid_newEvent hnew
      | _ => exact hidle rfl
  | updateEvent h =>
      cases h with
      | find hfind =>
          intro event hevent
          cases hevent
          exact hvalid _ (List.mem_of_find?_eq_some hfind)
      | update happly _ hreadable =>
          intro event hevent
          cases hevent
          exact (valid_apply_iff (hversion _ rfl) happly hreadable).mpr (hok _ rfl)
      | _ => exact hidle rfl
  | _ => exact hidle rfl

section Run

variable {ι : Type}

def outline : Outline ι Store Row Pc where
  inv := AllValid
  at_ _ _ _ pc := ∀ event ∈ version pc, Valid event
  apart _ _ := True

theorem outline_sound : (outline : Outline ι Store Row Pc).Sound systemStep ConsistentUpdates where
  own _ i _ _ _ hw hok hP _ :=
    ⟨hw.inv.writes (hw.at_ i) (systemStep_cases hP).writes,
      SystemStep.version hw.inv (hw.at_ i) hok (systemStep_cases hP)⟩
  frame _ _ j _ _ _ hw _ _ _ _ := ⟨hw.at_ j, trivial, trivial⟩

/-- While every patch applied is consistent with the event it meets, every event
stored in any interleaving is valid. -/
theorem events_valid [DecidableEq ι] {s : Store} (hvalid : AllValid s) (calls : ι → Call)
    {w : World ι Store Row Pc} (h : Run systemStep ConsistentUpdates (atCalls s calls) w) :
    AllValid w.shared := by
  refine (outline_sound.run h ⟨hvalid, fun i => ?_, fun _ _ _ => trivial⟩).inv
  show ∀ event ∈ version (calls i).pc, Valid event
  cases calls i <;> simp [Call.pc, version]

end Run

/-! ## An address for the online concert -/

def moveConcert (data : EventUpdateSchema) : Unit → Call := fun _ => .updateEvent data 1 1

def toHall : EventUpdateSchema where
  format := some (some "offline")
  address := some (some "Main Street 1")

def addressOnly : EventUpdateSchema where
  address := some (some "Main Street 1")

/-- With the format, the address is accepted and the event stays valid. -/
theorem events_valid_toHall :
    ∃ w, Run systemStep ConsistentUpdates (atCalls stage (moveConcert toHall)) w ∧
      (w.shared.db.events.map fun event => event.address) = [some "Main Street 1"] ∧
      AllValid w.shared := by
  have hrun : ((atCalls stage (moveConcert toHall)).guardedSteps systemStep ConsistentUpdates
      (List.replicate 3 ((), .edit (.run 0)))).map
      (fun w => w.shared.db.events.map fun event => event.address) =
        some [some "Main Street 1"] := by
    decide
  obtain ⟨w, hw, haddress⟩ := Option.map_eq_some_iff.mp hrun
  have h := Run.of_guardedSteps hw
  have hstage : ∀ event ∈ stage.db.events, Valid event := by decide
  exact ⟨w, h, haddress, events_valid hstage (moveConcert toHall) h⟩

/-- Alone, it is stored with a format it does not go with. -/
theorem online_with_address :
    ¬ ∀ w, Run systemStep anyStep (atCalls stage (moveConcert addressOnly)) w →
      AllValid w.shared := by
  intro hall
  have hrun : ((atCalls stage (moveConcert addressOnly)).steps systemStep
      (List.replicate 3 ((), .edit (.run 0)))).map
      (fun w => decide (∀ event ∈ w.shared.db.events, Valid event)) = some false := by
    decide
  obtain ⟨w, hw, hinvalid⟩ := Option.map_eq_some_iff.mp hrun
  exact of_decide_eq_false hinvalid (hall w (Run.of_steps hw))

end TicketBooking.Catalog.Addresses
