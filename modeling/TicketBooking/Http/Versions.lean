import TicketBooking.Http.Freshness
/-!
# Versions that are new

The wrappers take the present millisecond for a version that was never used.  As
long as it is, a version that is still to be written is known to its maker only,
and no response is kept under it.  So it is on a clock that ticks between any two
readings, and there a cached read is never older than an invalidation before it.
-/

namespace TicketBooking.Http.Versions

open TicketBooking.Http.Caching TicketBooking.Http.Freshness
open TicketBooking.Library TicketBooking.Library.Sessions

variable {ι D B E : Type} {manager : Manager}

/-! ## Who knows a version -/

def millis (versions : List (Tag × Version)) : List (Tag × Nat) :=
  versions.map fun tv => (tv.1, tv.2.millis)

def held : Pc D B E → List (Tag × Nat)
  | .versioning _ versions missing todo =>
      millis versions ++ missing ++
        todo.filterMap fun found => found.2.map fun v => (found.1, v.millis)
  | .filling _ versions missing => millis versions ++ missing
  | .querying _ versions => millis versions
  | .storing _ r => millis r.under
  | .invalidating _ _ todo => todo
  | _ => []

def pending : Pc D B E → List (Tag × Nat)
  | .versioning _ _ missing _ => missing
  | .filling _ _ missing => missing
  | .invalidating _ _ todo => todo
  | _ => []

theorem mem_held_of_pending {pc : Pc D B E} {tv : Tag × Nat} (h : tv ∈ pending pc) :
    tv ∈ held pc := by
  cases pc with
  | versioning call versions missing todo =>
      exact List.mem_append_left _ (List.mem_append_right _ h)
  | filling call versions missing => exact List.mem_append_right _ h
  | invalidating n done todo => exact h
  | _ => cases h

/-- The version of a tag is cached, or a response under it is. -/
def Kept (s : Site D B) (tv : Tag × Nat) : Prop :=
  s.version tv.1 = some tv.2 ∨ ∃ key r, (key, Stored.response r) ∈ s.cache ∧ tv ∈ millis r.under

def Known (w : World ι (Site D B) Empty (Pc D B E)) (tv : Tag × Nat) : Prop :=
  Kept w.shared tv ∨ ∃ i, tv ∈ held (w.pc i)

def stamped : Pc D B E → List Tag
  | .versioning _ _ _ ((t, none) :: _) => [t]
  | .returned tags _ => tags
  | _ => []

/-- Every tag of the call has its version, or is still to get it. -/
def Covered : Pc D B E → Prop
  | .versioning call versions _ todo =>
      ∀ t ∈ call.tags, (Dict.get t versions).isSome ∨ t ∈ todo.map Prod.fst
  | .filling call versions _ => ∀ t ∈ call.tags, (Dict.get t versions).isSome
  | .querying call versions => ∀ t ∈ call.tags, (Dict.get t versions).isSome
  | _ => True

theorem mem_of_mem_tagsVersions {tags : List Tag} {versions : List (Tag × Version)}
    {tv : Tag × Version} (hcovered : ∀ t ∈ tags, (Dict.get t versions).isSome)
    (h : tv ∈ tagsVersions tags versions) : tv ∈ versions := by
  obtain ⟨t, ht, rfl⟩ := List.mem_map.mp h
  obtain ⟨v, hv⟩ := Option.isSome_iff_exists.mp
    (hcovered t ((List.mem_insertionSort _).mp ht))
  rw [hv]
  exact Dict.mem_of_get hv

/-! ## What a statement makes known -/

section Statement

variable {s : Site D B} {pc pc' : Pc D B E} {a : Act D} {eff : Effect (Site D B) Empty}
  {tv : Tag × Nat}

theorem of_mem_millis_set {t : Tag} {v : Version} {versions : List (Tag × Version)}
    (h : tv ∈ millis (Dict.set t v versions)) : tv = (t, v.millis) ∨ tv ∈ millis versions := by
  obtain ⟨found, hfound, rfl⟩ := List.mem_map.mp h
  rcases Dict.of_mem_set hfound with rfl | hold
  · exact .inl rfl
  · exact .inr (List.mem_map_of_mem hold)

/-- A request learns a version from the cache or makes it from the clock. -/
theorem held_of_step (hcovered : Covered pc) (h : CachingStep manager s pc a eff pc')
    (htv : tv ∈ held pc') :
    tv ∈ held pc ∨ Kept s tv ∨ tv.1 ∈ stamped pc ∧ a = .run tv.2 := by
  cases h with
  | @getVersions call now =>
      obtain ⟨found, hfound, hsome⟩ := List.mem_filterMap.mp htv
      obtain ⟨t, -, rfl⟩ := List.mem_map.mp hfound
      obtain ⟨v, hv, rfl⟩ := Option.map_eq_some_iff.mp hsome
      obtain ⟨ms, hms, rfl⟩ := Option.map_eq_some_iff.mp hv
      refine .inr (.inl (.inl ?_))
      rw [Manager.millis_readBack]
      exact hms
  | @known call versions missing t v now todo =>
      refine .inl ?_
      simp only [held, List.mem_append, List.filterMap_cons, Option.map_some, List.mem_cons]
        at htv ⊢
      rcases htv with (hset | hmissing) | htodo
      · rcases of_mem_millis_set hset with rfl | hold
        · exact .inr (.inl rfl)
        · exact .inl (.inl hold)
      · exact .inl (.inr hmissing)
      · exact .inr (.inr htodo)
  | @stamp call versions missing t now todo hclock =>
      simp only [held, List.mem_append, List.filterMap_cons, Option.map_none] at htv ⊢
      rcases htv with (hset | hset) | htodo
      · rcases of_mem_millis_set hset with rfl | hold
        · exact .inr (.inr ⟨List.mem_singleton_self _, rfl⟩)
        · exact .inl (.inl (.inl hold))
      · rcases Dict.of_mem_set hset with rfl | hold
        · exact .inr (.inr ⟨List.mem_singleton_self _, rfl⟩)
        · exact .inl (.inl (.inr hold))
      · exact .inl (.inr htodo)
  | gathered => exact .inl (List.mem_append_left _ htv)
  | fill =>
      refine .inl ?_
      rcases List.mem_append.mp htv with hold | hmissing
      · exact List.mem_append_left _ hold
      · exact List.mem_append_right _ (List.mem_cons_of_mem _ hmissing)
  | miss => exact .inl (List.mem_append_left _ htv)
  | query =>
      obtain ⟨found, hfound, rfl⟩ := List.mem_map.mp htv
      exact .inl (List.mem_map_of_mem (mem_of_mem_tagsVersions hcovered hfound))
  | @newVersion tags n now hclock =>
      obtain ⟨t, ht, rfl⟩ := Dict.of_mem_ofList htv
      exact .inr (.inr ⟨ht, rfl⟩)
  | announce => exact .inl (List.mem_cons_of_mem _ htv)
  | _ => cases htv

theorem pending_of_step (h : CachingStep manager s pc a eff pc') (htv : tv ∈ pending pc') :
    tv ∈ pending pc ∨ tv.1 ∈ stamped pc ∧ a = .run tv.2 := by
  cases h with
  | known => exact .inl htv
  | stamp =>
      rcases Dict.of_mem_set htv with rfl | hold
      · exact .inr ⟨List.mem_singleton_self _, rfl⟩
      · exact .inl hold
  | gathered => exact .inl htv
  | fill => exact .inl (List.mem_cons_of_mem _ htv)
  | newVersion =>
      obtain ⟨t, ht, rfl⟩ := Dict.of_mem_ofList htv
      exact .inr ⟨ht, rfl⟩
  | announce => exact .inl (List.mem_cons_of_mem _ htv)
  | _ => cases htv

theorem distinct_of_step (hdistinct : ((pending pc).map Prod.fst).Nodup)
    (h : CachingStep manager s pc a eff pc') : ((pending pc').map Prod.fst).Nodup := by
  cases h with
  | known => exact hdistinct
  | stamp => exact Dict.nodup_set hdistinct
  | gathered => exact hdistinct
  | fill => exact hdistinct.of_cons
  | newVersion => exact Dict.nodup_ofList _
  | announce => exact hdistinct.of_cons
  | _ => exact List.nodup_nil

/-- Once the version of the next tag is there, the other tags are left to get theirs. -/
theorem covered_set {versions : List (Tag × Version)} {t t' : Tag} {v : Version}
    {todo : List Tag}
    (h : (Dict.get t versions).isSome ∨ t ∈ t' :: todo) :
    (Dict.get t (Dict.set t' v versions)).isSome ∨ t ∈ todo := by
  rw [Dict.get_set]
  split_ifs with heq
  · exact .inl rfl
  · rcases h with hold | htodo
    · exact .inl hold
    · exact .inr ((List.mem_cons.mp htodo).resolve_left (Ne.symm heq))

theorem covered_of_step (hcovered : Covered pc) (h : CachingStep manager s pc a eff pc') :
    Covered pc' := by
  cases h with
  | getVersions =>
      intro t ht
      rw [List.map_map]
      exact .inr (List.mem_map.mpr ⟨t, ht, rfl⟩)
  | known => exact fun t ht => covered_set (hcovered t ht)
  | stamp => exact fun t ht => covered_set (hcovered t ht)
  | gathered => exact fun t ht => (hcovered t ht).resolve_right List.not_mem_nil
  | fill => exact hcovered
  | miss => exact hcovered
  | _ => trivial

/-- What the cache keeps afterwards it kept before, or the request held, and has it
no longer to write. -/
theorem kept_of_step (hdistinct : ((pending pc).map Prod.fst).Nodup)
    (h : CachingStep manager s pc a eff pc') (htv : Kept (eff.apply s) tv) :
    Kept s tv ∨ tv ∈ held pc ∧ tv ∉ pending pc' := by
  have hwritten : ∀ {t : Tag} {v : Nat} {rest : List (Tag × Nat)},
      ((((t, v) :: rest).map Prod.fst).Nodup) → Kept (s.setVersion t v) tv →
        Kept s tv ∨ tv = (t, v) ∧ tv ∉ rest := by
    intro t v rest hnodup hkept
    rcases hkept with hversion | ⟨key, r, hr, hunder⟩
    · rw [Site.version_setVersion] at hversion
      split_ifs at hversion with ht
      · obtain rfl : tv = (t, v) := Prod.ext ht.symm (Option.some.inj hversion).symm
        exact .inr ⟨rfl, fun hmem => (List.nodup_cons.mp hnodup).1 (List.mem_map_of_mem hmem)⟩
      · exact .inl (.inl hversion)
    · rcases Dict.of_mem_set hr with heq | hold
      · cases heq
      · exact .inl (.inr ⟨key, r, hold, hunder⟩)
  cases h with
  | fill =>
      refine (hwritten hdistinct htv).imp_right fun hnew => ⟨?_, hnew.2⟩
      rw [hnew.1]
      exact List.mem_append_right _ List.mem_cons_self
  | announce =>
      refine (hwritten hdistinct htv).imp_right fun hnew => ⟨?_, hnew.2⟩
      rw [hnew.1]
      exact List.mem_cons_self
  | store =>
      rcases htv with hversion | ⟨key, r', hr, hunder⟩
      · rw [Effect.apply_emit, Site.version_store] at hversion
        exact .inl (.inl hversion)
      · rcases Dict.of_mem_set hr with heq | hold
        · cases heq
          exact .inr ⟨hunder, List.not_mem_nil⟩
        · exact .inl (.inr ⟨key, r', hold, hunder⟩)
  | evict =>
      rcases htv with hversion | ⟨key, r', hr, hunder⟩
      · exact .inl (.inl (Site.version_of_evict hversion))
      · exact .inl (.inr ⟨key, r', Dict.mem_of_mem_erase hr, hunder⟩)
  | _ => exact .inl htv

end Statement

/-! ## Versions made once -/

/-- No request makes a version that is known already. -/
def NeverUsed (w : World ι (Site D B) Empty (Pc D B E)) (i : ι) : Act D → Prop
  | .run now => ∀ t ∈ stamped (w.pc i), ¬ Known w (t, now)
  | _ => True

/-- A version that is still to be written is known to its maker only. -/
structure Separate (w : World ι (Site D B) Empty (Pc D B E)) : Prop where
  unkept : ∀ i, ∀ tv ∈ pending (w.pc i), ¬ Kept w.shared tv
  apart : ∀ i j, j ≠ i → ∀ tv ∈ pending (w.pc i), tv ∉ held (w.pc j)
  distinct : ∀ i, ((pending (w.pc i)).map Prod.fst).Nodup
  covered : ∀ i, Covered (w.pc i)

/-- No response is kept, or about to be, under a version about to be written. -/
theorem Separate.fresh {w : World ι (Site D B) Empty (Pc D B E)} (h : Separate w) {i : ι}
    {tv : Tag × Nat} (htv : tv ∈ pending (w.pc i)) {v : Version} (hv : v.millis = tv.2) (n : Nat) :
    Fresh w tv.1 v n := by
  have hmillis : ∀ r : Response B, (tv.1, v) ∈ r.under → tv ∈ millis r.under := by
    intro r hunder
    have hmem := List.mem_map_of_mem (f := fun tv => (tv.1, tv.2.millis)) hunder
    rw [hv] at hmem
    exact hmem
  refine ⟨fun entry hentry => ?_, fun j => ?_⟩
  · cases hvalue : entry.2 with
    | version _ => trivial
    | response r =>
        intro hunder
        have hkept : (entry.1, Stored.response r) ∈ w.shared.cache := hvalue ▸ hentry
        exact absurd (Or.inr ⟨entry.1, r, hkept, hmillis r hunder⟩) (h.unkept i tv htv)
  · cases hpc : w.pc j with
    | storing call r =>
        intro hunder
        have hij : j ≠ i := by
          rintro rfl
          rw [hpc] at htv
          cases htv
        refine absurd ?_ (h.apart i j hij tv htv)
        rw [hpc]
        exact hmillis r hunder
    | _ => trivial

theorem Separate.unshared {w : World ι (Site D B) Empty (Pc D B E)} (h : Separate w)
    (manager : Manager) (i : ι) (a : Act D) : Unshared manager w i a := by
  cases a with
  | run now =>
      intro x hx
      cases hpc : w.pc i with
      | filling call versions missing =>
          rw [hpc] at hx
          cases missing with
          | nil => cases hx
          | cons tv missing =>
              have hmem : tv ∈ pending (w.pc i) := by
                rw [hpc]
                exact List.mem_cons_self
              rcases List.mem_cons.mp hx with rfl | hx
              · exact h.fresh hmem rfl _
              · cases List.mem_singleton.mp hx
                exact h.fresh hmem (Manager.millis_readBack manager _) _
      | invalidating n done todo =>
          rw [hpc] at hx
          cases todo with
          | nil => cases hx
          | cons tv todo =>
              have hmem : tv ∈ pending (w.pc i) := by
                rw [hpc]
                exact List.mem_cons_self
              cases List.mem_singleton.mp hx
              exact h.fresh hmem (Manager.millis_readBack manager _) _
      | _ =>
          rw [hpc] at hx
          cases hx
  | _ => trivial

theorem separate_of_starts {w : World ι (Site D B) Empty (Pc D B E)} (h : Starts w) :
    Separate w := by
  have hpending : ∀ i, pending (w.pc i) = [] := by
    intro i
    rcases h.begins i with ⟨call, hpc⟩ | ⟨tags, hpc⟩ | hpc
    all_goals rw [hpc]; rfl
  refine ⟨fun i tv htv => ?_, fun i j _ tv htv => ?_, fun i => ?_, fun i => ?_⟩
  · rw [hpending i] at htv
    cases htv
  · rw [hpending i] at htv
    cases htv
  · rw [hpending i]
    exact List.nodup_nil
  · rcases h.begins i with ⟨call, hpc⟩ | ⟨tags, hpc⟩ | hpc
    all_goals rw [hpc]; trivial

section Step

variable [DecidableEq ι] {w w' : World ι (Site D B) Empty (Pc D B E)} {i : ι} {a : Act D}

theorem known_of_step (hw : Separate w) (hs : w.step (cachingStep manager) i a = some w')
    {tv : Tag × Nat} (h : Known w' tv) :
    Known w tv ∨ tv.1 ∈ stamped (w.pc i) ∧ a = .run tv.2 := by
  obtain ⟨eff, pc, hP, -, rfl⟩ := World.step_eq_some.mp hs
  have hstep := cachingStep_cases hP
  rcases h with hkept | ⟨j, hj⟩
  · rw [World.after_shared] at hkept
    rcases kept_of_step (hw.distinct i) hstep hkept with hold | hheld
    · exact .inl (.inl hold)
    · exact .inl (.inr ⟨i, hheld.1⟩)
  · by_cases hji : j = i
    · subst hji
      rw [World.after_pc_self] at hj
      rcases held_of_step (hw.covered j) hstep hj with hold | hkept | hnew
      · exact .inl (.inr ⟨j, hold⟩)
      · exact .inl (.inl hkept)
      · exact .inr hnew
    · rw [World.after_pc_other w hji] at hj
      exact .inl (.inr ⟨j, hj⟩)

theorem Separate.step (h : Separate w) (hok : NeverUsed w i a)
    (hs : w.step (cachingStep manager) i a = some w') : Separate w' := by
  obtain ⟨eff, pc, hP, -, rfl⟩ := World.step_eq_some.mp hs
  have hstep := cachingStep_cases hP
  have hnew : ∀ tv : Tag × Nat, tv.1 ∈ stamped (w.pc i) ∧ a = .run tv.2 → ¬ Known w tv := by
    rintro tv ⟨ht, rfl⟩
    exact hok tv.1 ht
  -- what session `i` has to write afterwards was unknown to the others before
  have hunkept : ∀ tv ∈ pending pc, ¬ Kept w.shared tv := by
    intro tv htv hkept
    rcases pending_of_step hstep htv with hold | hstamp
    · exact h.unkept i tv hold hkept
    · exact hnew tv hstamp (.inl hkept)
  have hapart : ∀ tv ∈ pending pc, ∀ j, j ≠ i → tv ∉ held (w.pc j) := by
    intro tv htv j hji hheld
    rcases pending_of_step hstep htv with hold | hstamp
    · exact h.apart i j hji tv hold hheld
    · exact hnew tv hstamp (.inr ⟨j, hheld⟩)
  refine ⟨fun j tv htv hkept => ?_, fun j k hkj tv htv hheld => ?_,
    World.after_pc_forall (Q := fun _ pc => ((pending pc).map Prod.fst).Nodup)
      (distinct_of_step (h.distinct i) hstep) fun j _ => h.distinct j,
    World.after_pc_forall (Q := fun _ => Covered) (covered_of_step (h.covered i) hstep)
      fun j _ => h.covered j⟩
  · rw [World.after_shared] at hkept
    have hbefore := kept_of_step (h.distinct i) hstep hkept
    by_cases hji : j = i
    · subst hji
      rw [World.after_pc_self] at htv
      rcases hbefore with hold | hwritten
      · exact hunkept tv htv hold
      · exact hwritten.2 htv
    · rw [World.after_pc_other w hji] at htv
      rcases hbefore with hold | hwritten
      · exact h.unkept j tv htv hold
      · exact h.apart j i (Ne.symm hji) tv htv hwritten.1
  · by_cases hji : j = i
    · subst hji
      rw [World.after_pc_self] at htv
      rw [World.after_pc_other w hkj] at hheld
      exact hapart tv htv k hkj hheld
    · rw [World.after_pc_other w hji] at htv
      by_cases hki : k = i
      · subst hki
        rw [World.after_pc_self] at hheld
        rcases held_of_step (h.covered k) hstep hheld with hold | hkept | hstamp
        · exact h.apart j k hkj tv htv hold
        · exact h.unkept j tv htv hkept
        · exact hnew tv hstamp (.inr ⟨j, mem_held_of_pending htv⟩)
      · rw [World.after_pc_other w hki] at hheld
        exact h.apart j k hkj tv htv hheld

end Step

/-! ## A clock that ticks -/

/-- The clock shows a later millisecond at every reading. -/
def Ticks (w : World ι (Site D B) Empty (Pc D B E)) (i : ι) : Act D → Prop
  | .run now => stamped (w.pc i) ≠ [] → w.shared.clock < now
  | _ => True

/-- No version is ahead of the clock. -/
def Behind (w : World ι (Site D B) Empty (Pc D B E)) : Prop :=
  ∀ tv, Known w tv → tv.2 ≤ w.shared.clock

theorem Behind.neverUsed {w : World ι (Site D B) Empty (Pc D B E)} (h : Behind w) {i : ι}
    {a : Act D} (hok : Ticks w i a) : NeverUsed w i a := by
  cases a with
  | run now =>
      intro t ht hknown
      have hle : now ≤ w.shared.clock := h (t, now) hknown
      have hlt : w.shared.clock < now := hok (List.ne_nil_of_mem ht)
      omega
  | _ => trivial

theorem clock_le {s : Site D B} {pc pc' : Pc D B E} {a : Act D} {eff : Effect (Site D B) Empty}
    (h : CachingStep manager s pc a eff pc') : s.clock ≤ (eff.apply s).clock := by
  cases h with
  | stamp hclock => exact hclock
  | newVersion hclock => exact hclock
  | _ => exact le_rfl

theorem clock_of_stamped {s : Site D B} {pc pc' : Pc D B E} {now : Nat}
    {eff : Effect (Site D B) Empty} {t : Tag} (ht : t ∈ stamped pc)
    (h : CachingStep manager s pc (.run now) eff pc') : (eff.apply s).clock = now := by
  cases h with
  | stamp => rfl
  | newVersion => rfl
  | _ => cases ht

theorem Behind.step [DecidableEq ι] {w w' : World ι (Site D B) Empty (Pc D B E)} {i : ι}
    {a : Act D} (h : Behind w) (hw : Separate w) (hs : w.step (cachingStep manager) i a = some w') :
    Behind w' := by
  intro tv hknown
  have hbefore := known_of_step hw hs hknown
  obtain ⟨eff, pc, hP, -, rfl⟩ := World.step_eq_some.mp hs
  have hstep := cachingStep_cases hP
  rw [World.after_shared]
  rcases hbefore with hold | ⟨ht, rfl⟩
  · exact (h tv hold).trans (clock_le hstep)
  · exact (clock_of_stamped ht hstep).ge

/-! ## Runs -/

section Runs

variable [DecidableEq ι] {w₀ w w' : World ι (Site D B) Empty (Pc D B E)}

/-- Every version to be written is new, and none is ahead of the clock. -/
structure New (w : World ι (Site D B) Empty (Pc D B E)) : Prop where
  separate : Separate w
  behind : Behind w

theorem New.step {i : ι} {a : Act D} (h : New w) (hok : Ticks w i a)
    (hs : w.step (cachingStep manager) i a = some w') : New w' where
  separate := h.separate.step (h.behind.neverUsed hok) hs
  behind := h.behind.step h.separate hs

theorem New.run (h : New w) (hrun : Run (cachingStep manager) Ticks w w') : New w' :=
  hrun.invariant (fun _ _ _ _ hv hok hs => hv.step hok hs) h

theorem New.run_unshared (h : New w) (hrun : Run (cachingStep manager) Ticks w w') :
    Run (cachingStep manager) (Unshared manager) w w' :=
  (hrun.with_invariant (fun _ _ _ _ hv hok hs => hv.step hok hs) h).mono
    fun _ i a hok => hok.2.separate.unshared manager i a

/-- On a clock that shows a later millisecond at every reading, no read that begins
after a mutation has written its version of a common tag returns anything older than
the mutation's commit. -/
theorem read_on_ticking_clock (h₀ : Starts w₀) (hbehind : Behind w₀)
    (hrun : Run (cachingStep manager) Ticks w₀ w) (hrun' : Run (cachingStep manager) Ticks w w')
    {i j : ι} {t : Tag} (hdone : t ∈ announcedTags (w.pc i)) (hcalled : t ∈ calledTags (w.pc j))
    {r : Response B} (hanswer : answer (w'.pc j) = some r) : commitOf (w.pc i) ≤ r.asOf := by
  have hnew₀ : New w₀ := ⟨separate_of_starts h₀, hbehind⟩
  exact (h₀.reads (hnew₀.run_unshared hrun) hdone hcalled).run
    ((hnew₀.run hrun).run_unshared hrun') hanswer

end Runs

/-! ## The three listings on a ticking clock -/

theorem behind_listings : Behind listings := by
  rintro tv ((hversion | ⟨key, r, hr, -⟩) | ⟨i, hi⟩)
  · cases hversion
  · cases hr
  · by_cases h : i.val = 1 <;> simp [listings, World.start, h, held] at hi

instance {n : Nat} (w : World (Fin n) (Site D B) Empty (Pc D B E)) (i : Fin n) :
    (a : Act D) → Decidable (Ticks w i a)
  | .run now => inferInstanceAs (Decidable (stamped (w.pc i) ≠ [] → w.shared.clock < now))
  | .commit _ | .returns | .raises | .fail | .evict _ => inferInstanceAs (Decidable True)

theorem read_on_ticking_clock_listings :
    ∃ w w' : World (Fin 4) (Site (List Nat) (List Nat)) Empty (Pc (List Nat) (List Nat) Empty),
      Run (cachingStep .redis) Ticks listings w ∧ Run (cachingStep .redis) Ticks w w' ∧
        commitOf (w.pc 1) = 1 ∧ ∃ r, answer (w'.pc 3) = some r ∧ commitOf (w.pc 1) ≤ r.asOf := by
  have hrun : ((listings.guardedSteps (cachingStep .redis) Ticks (upToInvalidation 6)).bind
      fun w => (w.guardedSteps (cachingStep .redis) Ticks (afterInvalidation 7)).map fun w' =>
        (decide (CacheTag.upcomingEvents.tag ∈ announcedTags (w.pc 1)),
          decide (CacheTag.upcomingEvents.tag ∈ calledTags (w.pc 3)), commitOf (w.pc 1),
          (answer (w'.pc 3)).map fun r => r.body)) = some (true, true, 1, some [2, 1]) := by
    decide
  obtain ⟨w, hw, hrun⟩ := Option.bind_eq_some_iff.mp hrun
  obtain ⟨w', hw', hfacts⟩ := Option.map_eq_some_iff.mp hrun
  simp only [Prod.mk.injEq, decide_eq_true_eq] at hfacts
  obtain ⟨hdone, hcalled, hcommit, hanswer⟩ := hfacts
  obtain ⟨r, hanswer, -⟩ := Option.map_eq_some_iff.mp hanswer
  exact ⟨w, w', .of_guardedSteps hw, .of_guardedSteps hw', hcommit, r, hanswer,
    read_on_ticking_clock starts_listings behind_listings (.of_guardedSteps hw)
      (.of_guardedSteps hw') hdone hcalled hanswer⟩

end TicketBooking.Http.Versions
