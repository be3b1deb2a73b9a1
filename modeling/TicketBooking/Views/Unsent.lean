import TicketBooking.Library.Runs
import TicketBooking.Views.Counting
/-!
# Views that are not sent

`increment_views` when any of its calls of the cache or the queue raises.  The visitor
is added to the daily sets before the message is sent, and nothing is taken back: a
view is lost when it was added and the message never sent.
-/

namespace TicketBooking.Views.Unsent

open TicketBooking.Library.Runs
open TicketBooking.Views.Counting TicketBooking.Views.Logs TicketBooking.Views.Mixins

/-- How a cache call ends.  A call that raises `CacheUnavailableError`, or any other
exception, has changed the keys it reached. -/
inductive CallEnd
  | answered
  | unavailable (reached : String → Bool)
  | raised (reached : String → Bool)

def CallEnd.reaches : CallEnd → String → Bool
  | .answered => fun _ => true
  | .unavailable reached => reached
  | .raised reached => reached

def CallEnd.isRaised : CallEnd → Bool
  | .raised _ => true
  | _ => false

/-- A message may be published although sending it raised. -/
inductive SendEnd
  | sent
  | raised (published : Bool)
  deriving DecidableEq, Repr

def SendEnd.publishes : SendEnd → Bool
  | .sent => true
  | .raised published => published

structure Failures where
  pfadd : CallEnd := .answered
  incr : CallEnd := .answered
  expire : CallEnd := .answered
  send : SendEnd := .sent

/-- The cache, and every message published so far. -/
structure State where
  cache : ViewCache
  sent : List ViewPayload

inductive Ending
  | returned
  | raised
  deriving DecidableEq, Repr

section Increment

variable (modelName visitorHash : String)

def send (f : Failures) (objectIds : List Int) (s : State) : Ending × State :=
  (match f.send with
    | .sent => .returned
    | .raised _ => .raised,
   if f.send.publishes then { s with sent := s.sent ++ [⟨modelName, objectIds, visitorHash⟩] }
   else s)

/-- `cache.pfadd`, with what it leaves. -/
def State.mark (f : Failures) (keys : List String) (s : State) : State :=
  { s with cache := { s.cache with
      visitors := (pfadd visitorHash (keys.filter f.pfadd.reaches) s.cache.visitors).2 } }

def State.count (f : Failures) (keys : List String) (s : State) : State :=
  { s with cache := { s.cache with
      counters := incr (keys.filter f.incr.reaches) s.cache.counters } }

/-- How `increment_views` ends, and what it leaves. -/
def incrementViews (objId : ObjId) (f : Failures) (s : State) : Ending × State :=
  match objId with
  | .many ids =>
      if ids = [] then (.returned, s)
      else
        let keys := ids.map (getHllKey modelName)
        let marked := s.mark visitorHash f keys
        match f.pfadd with
        | .raised _ => (.raised, marked)
        | .unavailable _ => send modelName visitorHash f ids marked
        | .answered =>
            let unique := uniqueIds ids (pfadd visitorHash keys s.cache.visitors).1
            if unique = [] then (.returned, marked)
            else
              let counted := marked.count f (unique.map (getCacheKey modelName))
              match f.incr with
              | .raised _ => (.raised, counted)
              | .unavailable _ => send modelName visitorHash f ids counted
              | .answered => send modelName visitorHash f unique counted
  | .one id =>
      if id = 0 then (.returned, s)
      else
        let marked := s.mark visitorHash f [getHllKey modelName id]
        match f.pfadd with
        | .raised _ => (.raised, marked)
        | .unavailable _ => send modelName visitorHash f [id] marked
        | .answered =>
            if visitorHash ∈ s.cache.visitors (getHllKey modelName id) then (.returned, marked)
            else
              let counted := marked.count f [getCacheKey modelName id]
              match f.incr, f.expire with
              | .raised _, _ => (.raised, counted)
              | .answered, .raised _ => (.raised, counted)
              | _, _ => send modelName visitorHash f [id] counted

/-! ## What an increment does -/

/-- An exception other than `CacheUnavailableError` while the view is counted. -/
def countingRaises (objId : ObjId) (f : Failures) : Bool :=
  match objId, f.incr with
  | _, .raised _ => true
  | .one _, .answered => f.expire.isRaised
  | _, _ => false

/-- A call that has something to send ends before its message is published. -/
def aborts (objId : ObjId) (f : Failures) : Bool :=
  match f.pfadd with
  | .raised _ => true
  | .unavailable _ => !f.send.publishes
  | .answered => countingRaises objId f || !f.send.publishes

/-- The sets of the objects with the visitor added where the call got to. -/
def marked (objId : ObjId) (f : Failures) (s : State) : String → Finset String :=
  (s.mark visitorHash f ((requested objId).map (getHllKey modelName))).cache.visitors

/-- The ends of an increment: there is nothing to send, or the message is published,
or it is not. -/
inductive Outcome (objId : ObjId) (f : Failures) (s : State) : Ending → State → Prop
  | nothing {s' : State} (hvisitors : s'.cache.visitors = marked modelName visitorHash objId f s)
      (hsent : s'.sent = s.sent)
      (hknown : ∀ id ∈ requested objId, visitorHash ∈ s.cache.visitors (getHllKey modelName id)) :
      Outcome objId f s .returned s'
  | published {ending : Ending} {s' : State} {ids : List Int}
      (hvisitors : s'.cache.visitors = marked modelName visitorHash objId f s)
      (hsent : s'.sent = s.sent ++ [⟨modelName, ids, visitorHash⟩])
      (hcovers : ∀ id ∈ requested objId,
        id ∈ ids ∨ visitorHash ∈ s.cache.visitors (getHllKey modelName id))
      (hnew : f.pfadd = .answered → f.incr = .answered →
        ∀ id ∈ ids, visitorHash ∉ s.cache.visitors (getHllKey modelName id))
      (hends : aborts objId f = false) : Outcome objId f s ending s'
  | aborted {s' : State} (hvisitors : s'.cache.visitors = marked modelName visitorHash objId f s)
      (hsent : s'.sent = s.sent) (haborts : aborts objId f = true) : Outcome objId f s .raised s'

variable {modelName visitorHash} {f : Failures} {s : State}

theorem getHllKey_injective {model model' : String} {id id' : Int}
    (h : getHllKey model id = getHllKey model' id') : model = model' ∧ id = id' := by
  apply getCacheKey_injective
  exact (String.append_left_inj _).mp h

/-- A new visitor is reported for the first occurrence of an object. -/
theorem mem_uniqueIds_of_new {ids : List Int} {id : Int} {sets : String → Finset String}
    (hmem : id ∈ ids) (hnew : visitorHash ∉ sets (getHllKey modelName id)) :
    id ∈ uniqueIds ids (pfadd visitorHash (ids.map (getHllKey modelName)) sets).1 := by
  induction ids generalizing sets with
  | nil => cases hmem
  | cons oid ids ih =>
      rw [List.map_cons, pfadd, uniqueIds_cons]
      by_cases hoid : id = oid
      · subst hoid
        rw [if_pos (by simpa using hnew)]
        exact List.mem_cons_self
      · have hlater : visitorHash ∉ Function.update sets (getHllKey modelName oid)
            (insert visitorHash (sets (getHllKey modelName oid))) (getHllKey modelName id) := by
          rwa [Function.update_of_ne fun hkey => hoid (getHllKey_injective hkey).2]
        have hrest := ih ((List.mem_cons.mp hmem).resolve_left hoid) hlater
        split_ifs
        · exact List.mem_cons_of_mem _ hrest
        · exact hrest

theorem mem_pfadd {value hash key : String} {keys : List String} {sets : String → Finset String} :
    hash ∈ (pfadd value keys sets).2 key ↔ hash ∈ sets key ∨ hash = value ∧ key ∈ keys := by
  induction keys generalizing sets with
  | nil => simp [pfadd]
  | cons k keys ih =>
      rw [pfadd, ih]
      by_cases hkey : key = k
      · subst hkey
        rw [Function.update_self, Finset.mem_insert]
        simp only [List.mem_cons, true_or, and_true]
        tauto
      · rw [Function.update_of_ne hkey]
        simp [hkey]

theorem mem_marked {objId : ObjId} {key hash : String} :
    hash ∈ marked modelName visitorHash objId f s key ↔
      hash ∈ s.cache.visitors key ∨
        hash = visitorHash ∧ f.pfadd.reaches key ∧
          ∃ id ∈ requested objId, getHllKey modelName id = key := by
  show hash ∈ (pfadd visitorHash _ s.cache.visitors).2 key ↔ _
  rw [mem_pfadd, List.mem_filter, List.mem_map, and_comm (a := ∃ _, _)]

theorem send_outcome {objId : ObjId} {ids : List Int} {s' : State}
    (hvisitors : s'.cache.visitors = marked modelName visitorHash objId f s)
    (hsent : s'.sent = s.sent)
    (hcovers : ∀ id ∈ requested objId,
      id ∈ ids ∨ visitorHash ∈ s.cache.visitors (getHllKey modelName id))
    (hnew : f.pfadd = .answered → f.incr = .answered →
      ∀ id ∈ ids, visitorHash ∉ s.cache.visitors (getHllKey modelName id))
    (haborts : aborts objId f = !f.send.publishes) :
    Outcome modelName visitorHash objId f s (send modelName visitorHash f ids s').1
      (send modelName visitorHash f ids s').2 := by
  unfold send
  cases hsend : f.send with
  | sent =>
      refine .published hvisitors ?_ hcovers hnew (by rw [haborts, hsend]; rfl)
      rw [← hsent]
      rfl
  | raised published =>
      cases published with
      | false => exact .aborted hvisitors hsent (by rw [haborts, hsend]; rfl)
      | true =>
          refine .published hvisitors ?_ hcovers hnew (by rw [haborts, hsend]; rfl)
          rw [← hsent]
          rfl

theorem outcome_many (modelName visitorHash : String) (ids : List Int) (f : Failures)
    (s : State) :
    Outcome modelName visitorHash (.many ids) f s
      (incrementViews modelName visitorHash (.many ids) f s).1
      (incrementViews modelName visitorHash (.many ids) f s).2 := by
  unfold incrementViews
  by_cases hids : ids = []
  · subst hids
    exact .nothing rfl rfl (by simp [requested])
  simp only [hids, if_false]
  cases hpfadd : f.pfadd with
  | raised reached => exact .aborted rfl rfl (by simp [aborts, hpfadd])
  | unavailable reached =>
      refine send_outcome rfl rfl (fun id hid => .inl hid) ?_ (by simp [aborts, hpfadd])
      intro hanswered
      rw [hpfadd] at hanswered
      cases hanswered
  | answered =>
      have hunique : ∀ id, id ∈ uniqueIds ids
          (pfadd visitorHash (ids.map (getHllKey modelName)) s.cache.visitors).1 →
          visitorHash ∉ s.cache.visitors (getHllKey modelName id) :=
        fun id hid => (mem_uniqueIds hid).2
      have hcovers : ∀ id ∈ ids, id ∈ uniqueIds ids
          (pfadd visitorHash (ids.map (getHllKey modelName)) s.cache.visitors).1 ∨
          visitorHash ∈ s.cache.visitors (getHllKey modelName id) := by
        intro id hid
        by_cases hknown : visitorHash ∈ s.cache.visitors (getHllKey modelName id)
        · exact .inr hknown
        · exact .inl (mem_uniqueIds_of_new hid hknown)
      simp only
      split_ifs with hnone
      · refine .nothing rfl rfl fun id hid => (hcovers id hid).resolve_left ?_
        rw [hnone]
        exact List.not_mem_nil
      · cases hincr : f.incr with
        | raised reached =>
            exact .aborted rfl rfl (by simp [aborts, hpfadd, countingRaises, hincr])
        | unavailable reached =>
            refine send_outcome rfl rfl (fun id hid => .inl hid) ?_
              (by simp [aborts, hpfadd, countingRaises, hincr])
            intro _ hanswered
            rw [hincr] at hanswered
            cases hanswered
        | answered =>
            exact send_outcome rfl rfl hcovers (fun _ _ => hunique)
              (by simp [aborts, hpfadd, countingRaises, hincr])

theorem outcome_one (modelName visitorHash : String) (id : Int) (f : Failures) (s : State) :
    Outcome modelName visitorHash (.one id) f s
      (incrementViews modelName visitorHash (.one id) f s).1
      (incrementViews modelName visitorHash (.one id) f s).2 := by
  unfold incrementViews
  by_cases hzero : id = 0
  · subst hzero
    exact .nothing rfl rfl (by simp [requested])
  have hrequested : requested (.one id) = [id] := by simp [requested, hzero]
  have hvisitors : (s.mark visitorHash f [getHllKey modelName id]).cache.visitors =
      marked modelName visitorHash (.one id) f s := by
    rw [marked, hrequested]
    rfl
  have hcovers : ∀ oid ∈ requested (.one id),
      oid ∈ [id] ∨ visitorHash ∈ s.cache.visitors (getHllKey modelName oid) := by
    rw [hrequested]
    exact fun oid hoid => .inl hoid
  simp only [hzero, if_false]
  cases hpfadd : f.pfadd with
  | raised reached => exact .aborted hvisitors rfl (by simp [aborts, hpfadd])
  | unavailable reached =>
      refine send_outcome hvisitors rfl hcovers ?_ (by simp [aborts, hpfadd])
      intro hanswered
      rw [hpfadd] at hanswered
      cases hanswered
  | answered =>
      simp only
      split_ifs with hknown
      · refine .nothing hvisitors rfl fun oid hoid => ?_
        rw [hrequested, List.mem_singleton] at hoid
        rwa [hoid]
      · have hnew : ∀ oid ∈ [id], visitorHash ∉ s.cache.visitors (getHllKey modelName oid) := by
          intro oid hoid
          rwa [List.mem_singleton.mp hoid]
        cases hincr : f.incr with
        | raised reached =>
            exact .aborted hvisitors rfl (by simp [aborts, hpfadd, countingRaises, hincr])
        | unavailable reached =>
            exact send_outcome hvisitors rfl hcovers (fun _ _ => hnew)
              (by simp [aborts, hpfadd, countingRaises, hincr])
        | answered =>
            cases hexpire : f.expire with
            | raised reached =>
                exact .aborted hvisitors rfl
                  (by simp [aborts, hpfadd, countingRaises, hincr, hexpire, CallEnd.isRaised])
            | unavailable reached =>
                exact send_outcome hvisitors rfl hcovers (fun _ _ => hnew)
                  (by simp [aborts, hpfadd, countingRaises, hincr, hexpire, CallEnd.isRaised])
            | answered =>
                exact send_outcome hvisitors rfl hcovers (fun _ _ => hnew)
                  (by simp [aborts, hpfadd, countingRaises, hincr, hexpire, CallEnd.isRaised])

theorem outcome_incrementViews (modelName visitorHash : String) (objId : ObjId) (f : Failures)
    (s : State) :
    Outcome modelName visitorHash objId f s (incrementViews modelName visitorHash objId f s).1
      (incrementViews modelName visitorHash objId f s).2 := by
  cases objId with
  | one id => exact outcome_one modelName visitorHash id f s
  | many ids => exact outcome_many modelName visitorHash ids f s

end Increment

/-! ## Lost views -/

def AllSent (s : State) : Prop :=
  ∀ modelName id visitorHash, visitorHash ∈ s.cache.visitors (getHllKey modelName id) →
    viewOf modelName id visitorHash ∈ flatLogs s.sent

section Lost

variable (modelName visitorHash : String) (objId : ObjId) (f : Failures) (s : State)

/-- The call ends before its message is published, after the visitor was added to the
set of an object whose view has not been sent. -/
def Loses : Prop :=
  aborts objId f = true ∧ ∃ id ∈ requested objId,
    f.pfadd.reaches (getHllKey modelName id) ∧
      viewOf modelName id visitorHash ∉ flatLogs s.sent

instance : Decidable (Loses modelName visitorHash objId f s) :=
  inferInstanceAs (Decidable (_ ∧ ∃ id ∈ requested objId, _ ∧ _))

/-- After a call that raised the same call sends whatever has not been sent. -/
def Recovers : Prop :=
  (incrementViews modelName visitorHash objId f s).1 = .raised → ∀ id ∈ requested objId,
    viewOf modelName id visitorHash ∈ flatLogs (incrementViews modelName visitorHash objId {}
      (incrementViews modelName visitorHash objId f s).2).2.sent

variable {modelName visitorHash objId f s} {ending : Ending} {s' : State}

theorem mem_sent_append {model hash : String} {id : Int} {ids : List Int}
    {sent : List ViewPayload} :
    viewOf model id hash ∈ flatLogs (sent ++ [⟨modelName, ids, visitorHash⟩]) ↔
      viewOf model id hash ∈ flatLogs sent ∨
        model = modelName ∧ id ∈ ids ∧ hash = visitorHash := by
  have hpayload : viewOf model id hash ∈
      flatLogs [(⟨modelName, ids, visitorHash⟩ : ViewPayload)] ↔
        model = modelName ∧ id ∈ ids ∧ hash = visitorHash := by
    rw [mem_flatLogs]
    simp only [List.mem_singleton, exists_eq_left, ViewPayload.logs, List.mem_map, viewOf,
      ViewLog.mk.injEq]
    constructor
    · rintro ⟨oid, hoid, rfl, rfl, rfl⟩
      exact ⟨rfl, hoid, rfl⟩
    · rintro ⟨rfl, hid, rfl⟩
      exact ⟨id, hid, rfl, rfl, rfl⟩
  rw [flatLogs_append, List.mem_append, hpayload]

/-- Unless a view is lost, who is in a set has had a message sent. -/
theorem allSent_of_outcome (hs : AllSent s) (hloses : ¬ Loses modelName visitorHash objId f s)
    (h : Outcome modelName visitorHash objId f s ending s') : AllSent s' := by
  intro model id hash hmem
  cases h with
  | nothing hvisitors hsent hknown =>
      rw [hvisitors, mem_marked] at hmem
      rw [hsent]
      rcases hmem with hmem | ⟨rfl, -, oid, hoid, hkey⟩
      · exact hs model id hash hmem
      · exact hs model id hash (hkey ▸ hknown oid hoid)
  | published hvisitors hsent hcovers hnew hends =>
      rw [hvisitors, mem_marked] at hmem
      rw [hsent, mem_sent_append]
      rcases hmem with hmem | ⟨rfl, -, oid, hoid, hkey⟩
      · exact .inl (hs model id hash hmem)
      · obtain ⟨rfl, rfl⟩ := getHllKey_injective hkey
        rcases hcovers oid hoid with hids | hknown
        · exact .inr ⟨rfl, hids, rfl⟩
        · exact .inl (hs _ _ _ hknown)
  | aborted hvisitors hsent haborts =>
      rw [hvisitors, mem_marked] at hmem
      rw [hsent]
      rcases hmem with hmem | ⟨rfl, hreached, oid, hoid, hkey⟩
      · exact hs model id hash hmem
      · obtain ⟨rfl, rfl⟩ := getHllKey_injective hkey
        by_contra hunsent
        exact hloses ⟨haborts, oid, hoid, hreached, hunsent⟩

/-- A lost view is in its set, and nothing was sent. -/
theorem lost_of_outcome (hs : AllSent s) (hloses : Loses modelName visitorHash objId f s)
    (h : Outcome modelName visitorHash objId f s ending s') :
    ending = .raised ∧ ∃ id ∈ requested objId,
      visitorHash ∈ s'.cache.visitors (getHllKey modelName id) ∧
        viewOf modelName id visitorHash ∉ flatLogs s'.sent := by
  obtain ⟨haborts, id, hid, hreached, hunsent⟩ := hloses
  cases h with
  | nothing hvisitors hsent hknown => exact absurd (hs _ _ _ (hknown id hid)) hunsent
  | published hvisitors hsent hcovers hnew hends =>
      rw [haborts] at hends
      cases hends
  | aborted hvisitors hsent haborts =>
      refine ⟨rfl, id, hid, ?_, by rwa [hsent]⟩
      rw [hvisitors, mem_marked]
      exact .inr ⟨rfl, hreached, id, hid, rfl⟩

theorem not_loses_unfailing : ¬ Loses modelName visitorHash objId {} s := by
  rintro ⟨haborts, -⟩
  cases objId <;> cases haborts

theorem sent_of_unfailing (hs : AllSent s) {id : Int} (hid : id ∈ requested objId)
    (h : Outcome modelName visitorHash objId {} s ending s') :
    viewOf modelName id visitorHash ∈ flatLogs s'.sent := by
  apply allSent_of_outcome hs not_loses_unfailing h
  have hmarked : s'.cache.visitors = marked modelName visitorHash objId {} s := by
    cases h <;> assumption
  rw [hmarked, mem_marked]
  exact .inr ⟨rfl, rfl, id, hid, rfl⟩

theorem unsent_of_unfailing {id : Int}
    (hknown : visitorHash ∈ s.cache.visitors (getHllKey modelName id))
    (hunsent : viewOf modelName id visitorHash ∉ flatLogs s.sent)
    (h : Outcome modelName visitorHash objId {} s ending s') :
    viewOf modelName id visitorHash ∉ flatLogs s'.sent := by
  cases h with
  | nothing hvisitors hsent _ => rwa [hsent]
  | published hvisitors hsent hcovers hnew hends =>
      rw [hsent, mem_sent_append]
      rintro (hsent | ⟨-, hids, -⟩)
      · exact hunsent hsent
      · exact hnew rfl rfl id hids hknown
  | aborted hvisitors hsent haborts => rwa [hsent]

theorem recovers_iff_not_loses (hs : AllSent s) :
    Recovers modelName visitorHash objId f s ↔ ¬ Loses modelName visitorHash objId f s := by
  have houtcome := outcome_incrementViews modelName visitorHash objId f s
  have hrepeat := outcome_incrementViews modelName visitorHash objId {}
    (incrementViews modelName visitorHash objId f s).2
  constructor
  · intro hrecovers hloses
    obtain ⟨hraised, id, hid, hknown, hunsent⟩ := lost_of_outcome hs hloses houtcome
    exact unsent_of_unfailing hknown hunsent hrepeat (hrecovers hraised id hid)
  · intro hloses _ id hid
    exact sent_of_unfailing (allSent_of_outcome hs hloses houtcome) hid hrepeat

theorem allSent_iff_not_loses (hs : AllSent s) :
    AllSent (incrementViews modelName visitorHash objId f s).2 ↔
      ¬ Loses modelName visitorHash objId f s := by
  have houtcome := outcome_incrementViews modelName visitorHash objId f s
  constructor
  · intro hsent hloses
    obtain ⟨-, id, -, hknown, hunsent⟩ := lost_of_outcome hs hloses houtcome
    exact hunsent (hsent _ _ _ hknown)
  · intro hloses
    exact allSent_of_outcome hs hloses houtcome

end Lost

/-- Without failures this is `increment_views` over a cache that has none. -/
theorem incrementViews_unfailing (modelName visitorHash : String) (objId : ObjId) (s : State) :
    (incrementViews modelName visitorHash objId {} s).2 =
      ⟨(Mixins.incrementViews modelName visitorHash objId s.cache).2,
        s.sent ++ (Mixins.incrementViews modelName visitorHash objId s.cache).1.toList⟩ := by
  have hall : ∀ keys : List String, keys.filter CallEnd.answered.reaches = keys :=
    fun keys => List.filter_eq_self.mpr fun _ _ => rfl
  cases objId with
  | many ids =>
      unfold incrementViews Mixins.incrementViews
      simp only [State.mark, State.count, hall, send, SendEnd.publishes, if_true]
      split_ifs <;> simp
  | one id =>
      unfold incrementViews Mixins.incrementViews
      simp only [State.mark, State.count, hall, send, SendEnd.publishes, if_true, pfadd]
      split_ifs with hzero hnew
      · simp
      · simp
      · simp

/-! ## Whole runs -/

inductive Op
  | incrementViews (modelName : String) (objId : ObjId) (visitor : VisitorData) (f : Failures)
  | evict (key : String)

section Runs

variable (md5 : String → String)

def step (s : State) : Op → Option State
  | .incrementViews modelName objId visitor f =>
      some (incrementViews modelName (getVisitorHash md5 visitor) objId f s).2
  | .evict key => some { s with cache := s.cache.evict key }

def Keeps (s : State) : Op → Prop
  | .incrementViews modelName objId visitor f =>
      ¬ Loses modelName (getVisitorHash md5 visitor) objId f s
  | .evict _ => True

theorem allSent_step {s s' : State} {op : Op} (hs : AllSent s) (hkeeps : Keeps md5 s op)
    (hstep : step md5 s op = some s') : AllSent s' := by
  cases op with
  | incrementViews modelName objId visitor f =>
      cases hstep
      exact allSent_of_outcome hs hkeeps (outcome_incrementViews _ _ _ _ _)
  | evict key =>
      cases hstep
      intro modelName id hash hmem
      by_cases hkey : getHllKey modelName id = key
      · simp [ViewCache.evict, hkey] at hmem
      · refine hs modelName id hash ?_
        simpa [ViewCache.evict, Function.update_of_ne hkey] using hmem

theorem allSent_run {sent : List ViewPayload} {s : State}
    (hrun : Run (step md5) (Keeps md5) ⟨.empty, sent⟩ s) : AllSent s := by
  apply hrun.invariant (I := AllSent)
  · intro t u op ht hkeeps hstep
    exact allSent_step md5 ht hkeeps hstep
  · intro modelName id hash hmem
    exact absurd hmem (Finset.notMem_empty hash)

/-- As long as no call loses a view, who is in a daily set has had a message sent; and
in such a state a call that raised can be repeated, and leaves such a state, exactly when
it loses no view. -/
theorem recovers_iff :
    (∀ sent s, Run (step md5) (Keeps md5) ⟨.empty, sent⟩ s → AllSent s) ∧
      ∀ s, AllSent s → ∀ modelName visitor objId f,
        (Recovers modelName (getVisitorHash md5 visitor) objId f s ↔
          ¬ Loses modelName (getVisitorHash md5 visitor) objId f s) ∧
        (AllSent (incrementViews modelName (getVisitorHash md5 visitor) objId f s).2 ↔
          ¬ Loses modelName (getVisitorHash md5 visitor) objId f s) :=
  ⟨fun _ _ hrun => allSent_run md5 hrun,
    fun _ hs _ _ _ _ => ⟨recovers_iff_not_loses hs, allSent_iff_not_loses hs⟩⟩

end Runs

/-- Sending the first view of event 1 fails: the visitor is in the daily set, and the
same call sends nothing. -/
theorem unsent_view_lost :
    AllSent ⟨.empty, []⟩ ∧
      (incrementViews "events" (getVisitorHash twoDigests visitorA) (.one 1)
        { send := .raised false } ⟨.empty, []⟩).1 = .raised ∧
      (incrementViews "events" (getVisitorHash twoDigests visitorA) (.one 1) {}
        (incrementViews "events" (getVisitorHash twoDigests visitorA) (.one 1)
          { send := .raised false } ⟨.empty, []⟩).2).2.sent = [] ∧
      ¬ Recovers "events" (getVisitorHash twoDigests visitorA) (.one 1)
        { send := .raised false } ⟨.empty, []⟩ := by
  have hsent : AllSent ⟨.empty, []⟩ := fun _ _ hash hmem => absurd hmem (Finset.notMem_empty hash)
  refine ⟨hsent, by decide, by decide, ?_⟩
  intro hrecovers
  exact absurd (hrecovers (by decide) 1 (by decide)) (by decide)

end TicketBooking.Views.Unsent
