import TicketBooking.Http.Caching
/-!
# Reads after an invalidation

A response a cached read returns is no older than the mutations whose versions
were written before the read began, as long as no version is written under which
an older response is kept: under the text its readers will find, and for a reader
that writes a missing version also under the text it has made itself.
-/

namespace TicketBooking.Http.Freshness

open TicketBooking.Http.Caching
open TicketBooking.Library TicketBooking.Library.Sessions

variable {ι D B E : Type} {manager : Manager}

/-! ## Responses under a version -/

def ResponseFresh (t : Tag) (v : Version) (n : Nat) (r : Response B) : Prop :=
  (t, v) ∈ r.under → n ≤ r.asOf

instance (t : Tag) (v : Version) (n : Nat) (r : Response B) : Decidable (ResponseFresh t v n r) :=
  inferInstanceAs (Decidable (_ → _))

def StoredFresh (t : Tag) (v : Version) (n : Nat) : Stored B → Prop
  | .version _ => True
  | .response r => ResponseFresh t v n r

instance (t : Tag) (v : Version) (n : Nat) : (x : Stored B) → Decidable (StoredFresh t v n x)
  | .version _ => inferInstanceAs (Decidable True)
  | .response r => inferInstanceAs (Decidable (ResponseFresh t v n r))

def PcFresh (t : Tag) (v : Version) (n : Nat) : Pc D B E → Prop
  | .storing _ r => ResponseFresh t v n r
  | _ => True

instance (t : Tag) (v : Version) (n : Nat) : (pc : Pc D B E) → Decidable (PcFresh t v n pc)
  | .storing _ r => inferInstanceAs (Decidable (ResponseFresh t v n r))
  | .called _ | .versioning _ _ _ _ | .filling _ _ _ | .querying _ _ | .stored _ _ | .bypassing _
  | .responded _ | .raised _ | .mutating _ _ | .returned _ _ | .invalidating _ _ _
  | .invalidated _ _ | .mutationRaised | .storage => inferInstanceAs (Decidable True)

/-- Every response kept or about to be kept under version `v` of `t` has seen
commit `n`. -/
structure Fresh (w : World ι (Site D B) Empty (Pc D B E)) (t : Tag) (v : Version) (n : Nat) :
    Prop where
  cached : ∀ entry ∈ w.shared.cache, StoredFresh t v n entry.2
  underway : ∀ i, PcFresh t v n (w.pc i)

theorem Fresh.mono {w : World ι (Site D B) Empty (Pc D B E)} {t : Tag} {v : Version}
    {n m : Nat} (h : Fresh w t v n) (hm : m ≤ n) : Fresh w t v m where
  cached := by
    intro entry hentry
    have hfresh := h.cached entry hentry
    cases hvalue : entry.2 with
    | version _ => trivial
    | response r =>
        rw [hvalue] at hfresh
        exact fun hunder => hm.trans (hfresh hunder)
  underway := by
    intro i
    have hfresh := h.underway i
    cases hpc : w.pc i with
    | storing call r =>
        rw [hpc] at hfresh
        exact fun hunder => hm.trans (hfresh hunder)
    | _ => trivial

variable [DecidableEq ι]

theorem Fresh.step {w w' : World ι (Site D B) Empty (Pc D B E)} {i : ι} {a : Act D} {t : Tag}
    {v : Version} {n : Nat} (h : Fresh w t v n) (hn : n ≤ w.shared.commits)
    (hs : w.step (cachingStep manager) i a = some w') : Fresh w' t v n := by
  obtain ⟨eff, pc, hP, -, rfl⟩ := World.step_eq_some.mp hs
  have hstep := cachingStep_cases hP
  have hown := h.underway i
  have hcached : ∀ entry ∈ (eff.apply w.shared).cache, StoredFresh t v n entry.2 := by
    generalize w.pc i = pc₀ at hstep hown
    intro entry hentry
    cases hstep with
    | fill =>
        rcases Dict.of_mem_set hentry with rfl | hentry
        · trivial
        · exact h.cached entry hentry
    | announce =>
        rcases Dict.of_mem_set hentry with rfl | hentry
        · trivial
        · exact h.cached entry hentry
    | store =>
        rcases Dict.of_mem_set hentry with rfl | hentry
        · exact hown
        · exact h.cached entry hentry
    | evict => exact h.cached entry (Dict.mem_of_mem_erase hentry)
    | _ => exact h.cached entry hentry
  refine ⟨hcached, World.after_pc_forall (Q := fun _ => PcFresh t v n) ?_ fun j _ => h.underway j⟩
  generalize w.pc i = pc₀ at hstep
  cases hstep with
  | query => exact fun _ => hn
  | _ => trivial

/-! ## The condition -/

/-- The version a wrapper's next statement writes, for which tag and under which
texts it is looked up from then on, and the commit it announces. -/
def writes (manager : Manager) : Pc D B E → List (Tag × Version × Nat)
  | .filling _ _ ((t, v) :: _) => [(t, .str v, 0), (t, manager.readBack v, 0)]
  | .invalidating n _ ((t, v) :: _) => [(t, manager.readBack v, n)]
  | _ => []

/-- A version is written only if no response that is older than a mutation of the
tag, announced before or by this very statement, is kept under that version. -/
def Unshared (manager : Manager) (w : World ι (Site D B) Empty (Pc D B E)) (i : ι) : Act D → Prop
  | .run _ => ∀ x ∈ writes manager (w.pc i),
      Fresh w x.1 x.2.1 (max (w.shared.announced x.1) x.2.2)
  | _ => True

/-! ## The invariant -/

def commitOf : Pc D B E → Nat
  | .mutating _ n => n
  | .returned _ n => n
  | .invalidating n _ _ => n
  | .invalidated n _ => n
  | _ => 0

def announcedTags : Pc D B E → List Tag
  | .invalidating _ done _ => done
  | .invalidated _ done => done
  | _ => []

structure Consistent (manager : Manager) (w : World ι (Site D B) Empty (Pc D B E)) : Prop where
  counted : ∀ t, w.shared.announced t ≤ w.shared.commits
  committed : ∀ i, commitOf (w.pc i) ≤ w.shared.commits
  posted : ∀ i, ∀ t ∈ announcedTags (w.pc i), commitOf (w.pc i) ≤ w.shared.announced t
  current : ∀ t v, w.shared.version t = some v →
    Fresh w t (manager.readBack v) (w.shared.announced t)
  keyed : ∀ key r, (key, Stored.response r) ∈ w.shared.cache →
    ∃ queryHash, key = cacheKey r.under queryHash

section Step

variable {w w' : World ι (Site D B) Empty (Pc D B E)} {i : ι} {a : Act D}

theorem commits_le (hs : w.step (cachingStep manager) i a = some w') :
    w.shared.commits ≤ w'.shared.commits := by
  obtain ⟨eff, pc, hP, -, rfl⟩ := World.step_eq_some.mp hs
  have hstep := cachingStep_cases hP
  rw [World.after_shared]
  generalize w.pc i = pc₀ at hstep
  cases hstep with
  | commit => exact Nat.le_succ _
  | _ => exact le_rfl

theorem announced_le (hs : w.step (cachingStep manager) i a = some w') (t : Tag) :
    w.shared.announced t ≤ w'.shared.announced t := by
  obtain ⟨eff, pc, hP, -, rfl⟩ := World.step_eq_some.mp hs
  have hstep := cachingStep_cases hP
  rw [World.after_shared]
  generalize w.pc i = pc₀ at hstep
  cases hstep with
  | announce => exact Site.le_announced _ _ _ _ _
  | _ => exact le_rfl

theorem announced_le_commits (hw : Consistent manager w)
    (hs : w.step (cachingStep manager) i a = some w') (t : Tag) :
    w'.shared.announced t ≤ w'.shared.commits := by
  obtain ⟨eff, pc, hP, -, rfl⟩ := World.step_eq_some.mp hs
  have hstep := cachingStep_cases hP
  have hcommit := hw.committed i
  rw [World.after_shared]
  generalize w.pc i = pc₀ at hstep hcommit
  cases hstep with
  | commit => exact (hw.counted t).trans (Nat.le_succ _)
  | announce => exact Site.announced_le hw.counted hcommit _ t
  | _ => exact hw.counted t

theorem commitOf_le (hw : Consistent manager w) (hs : w.step (cachingStep manager) i a = some w')
    (j : ι) :
    commitOf (w'.pc j) ≤ w'.shared.commits := by
  have hle := commits_le hs
  obtain ⟨eff, pc, hP, -, rfl⟩ := World.step_eq_some.mp hs
  refine World.after_pc_forall (Q := fun _ pc' => commitOf pc' ≤ (w.after i eff pc).shared.commits)
    ?_ (fun j _ => (hw.committed j).trans hle) j
  have hstep := cachingStep_cases hP
  have hcommit := hw.committed i
  generalize w.pc i = pc₀ at hstep hcommit
  cases hstep with
  | commit => exact le_rfl
  | returns => exact hcommit
  | newVersion => exact hcommit
  | announce => exact hcommit
  | announced => exact hcommit
  | failReturned => exact hcommit
  | failInvalidating => exact hcommit
  | _ => exact Nat.zero_le _

theorem posted_step (hw : Consistent manager w) (hs : w.step (cachingStep manager) i a = some w')
    (j : ι) (t : Tag) (ht : t ∈ announcedTags (w'.pc j)) :
    commitOf (w'.pc j) ≤ w'.shared.announced t := by
  have hle := announced_le hs t
  obtain ⟨eff, pc, hP, -, rfl⟩ := World.step_eq_some.mp hs
  by_cases hj : j = i
  · subst hj
    have hstep := cachingStep_cases hP
    have hposted := hw.posted j t
    rw [World.after_pc_self] at ht ⊢
    rw [World.after_shared] at hle ⊢
    generalize w.pc j = pc₀ at hstep hposted
    cases hstep with
    | @announce n done t' v now todo =>
        rcases List.mem_cons.mp ht with rfl | ht
        · simp [Site.announce, commitOf]
        · exact (hposted ht).trans hle
    | announced => exact hposted ht
    | failInvalidating => exact hposted ht
    | _ => cases ht
  · rw [World.after_pc_other w hj] at ht ⊢
    exact (hw.posted j t ht).trans hle

theorem keyed_step (hw : Consistent manager w) (hs : w.step (cachingStep manager) i a = some w')
    (key : String) (r : Response B)
    (hmem : (key, Stored.response r) ∈ w'.shared.cache) :
    ∃ queryHash, key = cacheKey r.under queryHash := by
  obtain ⟨eff, pc, hP, -, rfl⟩ := World.step_eq_some.mp hs
  have hstep := cachingStep_cases hP
  rw [World.after_shared] at hmem
  generalize w.pc i = pc₀ at hstep
  cases hstep with
  | fill =>
      rcases Dict.of_mem_set hmem with heq | hmem
      · cases heq
      · exact hw.keyed key r hmem
  | announce =>
      rcases Dict.of_mem_set hmem with heq | hmem
      · cases heq
      · exact hw.keyed key r hmem
  | @store call r' now =>
      rcases Dict.of_mem_set hmem with heq | hmem
      · cases heq
        exact ⟨call.queryHash, rfl⟩
      · exact hw.keyed key r hmem
  | evict => exact hw.keyed key r (Dict.mem_of_mem_erase hmem)
  | _ => exact hw.keyed key r hmem

theorem current_step (hw : Consistent manager w) (hok : Unshared manager w i a)
    (hs : w.step (cachingStep manager) i a = some w') (t : Tag) (v : Nat)
    (hv : w'.shared.version t = some v) :
    Fresh w' t (manager.readBack v) (w'.shared.announced t) := by
  suffices h : Fresh w t (manager.readBack v) (w'.shared.announced t) ∧
      w'.shared.announced t ≤ w.shared.commits from h.1.step h.2 hs
  obtain ⟨eff, pc, hP, -, rfl⟩ := World.step_eq_some.mp hs
  have hstep := cachingStep_cases hP
  have hcommit := hw.committed i
  have hguard : ∀ now, a = .run now → ∀ x ∈ writes manager (w.pc i),
      Fresh w x.1 x.2.1 (max (w.shared.announced x.1) x.2.2) := by
    rintro now rfl
    exact hok
  rw [World.after_shared] at hv ⊢
  generalize w.pc i = pc₀ at hstep hcommit hguard
  cases hstep with
  | @fill call versions missing t' v' now =>
      refine ⟨?_, hw.counted t⟩
      rw [Effect.apply_emit, Site.version_setVersion] at hv
      split_ifs at hv with ht
      · subst ht
        cases hv
        exact (hguard now rfl (t', manager.readBack v, 0) (by simp [writes])).mono
          (le_max_left _ _)
      · exact hw.current t v hv
  | @announce n done t' v' now todo =>
      refine ⟨?_, Site.announced_le hw.counted hcommit v' t⟩
      rw [Effect.apply_emit, Site.version_announce, Site.version_setVersion] at hv
      split_ifs at hv with ht
      · subst ht
        cases hv
        have hmax : (w.shared.announce t' v n).announced t' = max (w.shared.announced t') n := by
          simp [Site.announce]
        rw [Effect.apply_emit, hmax]
        exact hguard now rfl _ (List.mem_singleton_self _)
      · have hkeep : (w.shared.announce t' v' n).announced t = w.shared.announced t :=
          Function.update_of_ne (Ne.symm ht) _ _
        rw [Effect.apply_emit, hkeep]
        exact hw.current t v hv
  | store =>
      rw [Effect.apply_emit, Site.version_store] at hv
      exact ⟨hw.current t v hv, hw.counted t⟩
  | evict => exact ⟨hw.current t v (Site.version_of_evict hv), hw.counted t⟩
  | _ => exact ⟨hw.current t v hv, hw.counted t⟩

theorem Consistent.step (hw : Consistent manager w) (hok : Unshared manager w i a)
    (hs : w.step (cachingStep manager) i a = some w') : Consistent manager w' where
  counted := announced_le_commits hw hs
  committed := commitOf_le hw hs
  posted := posted_step hw hs
  current := current_step hw hok hs
  keyed := keyed_step hw hs

end Step

/-! ## A read of the tag -/

section Read

variable {w w' : World ι (Site D B) Empty (Pc D B E)} {i j : ι} {a : Act D} {t : Tag} {n : Nat}

/-- The read's version of `t` is still to be written, or nothing older than commit
`n` is kept under it. -/
def Settled (w : World ι (Site D B) Empty (Pc D B E)) (t : Tag) (n : Nat)
    (versions : List (Tag × Version)) (missing : List (Tag × Nat)) : Prop :=
  ∃ v, Dict.get t versions = some v ∧
    ((∃ ms, v = .str ms ∧ (t, ms) ∈ missing) ∨ Fresh w t v n)

/-- A read of the tag `t` that began after commit `n` was announced. -/
def ReadAt (w : World ι (Site D B) Empty (Pc D B E)) (t : Tag) (n : Nat) : Pc D B E → Prop
  | .called call => t ∈ call.tags
  | .versioning call versions missing todo =>
      t ∈ call.tags ∧ (∀ v, (t, some v) ∈ todo → Fresh w t v n) ∧
        (t ∈ todo.map Prod.fst ∨ Settled w t n versions missing)
  | .filling call versions missing => t ∈ call.tags ∧ Settled w t n versions missing
  | .storing _ r => n ≤ r.asOf
  | .stored _ r => n ≤ r.asOf
  | .responded r => n ≤ r.asOf
  | _ => True

theorem Settled.step {versions : List (Tag × Version)} {missing : List (Tag × Nat)}
    (h : Settled w t n versions missing) (hn : n ≤ w.shared.commits)
    (hs : w.step (cachingStep manager) i a = some w') :
    Settled w' t n versions missing := by
  obtain ⟨v, hget, hv⟩ := h
  exact ⟨v, hget, hv.imp_right fun hfresh => hfresh.step hn hs⟩

theorem ReadAt.step {pc : Pc D B E} (h : ReadAt w t n pc) (hn : n ≤ w.shared.commits)
    (hs : w.step (cachingStep manager) i a = some w') : ReadAt w' t n pc := by
  cases pc with
  | versioning call versions missing todo =>
      obtain ⟨htag, hfound, hsettled⟩ := h
      exact ⟨htag, fun v hv => (hfound v hv).step hn hs,
        hsettled.imp_right fun hsettled => hsettled.step hn hs⟩
  | filling call versions missing => exact ⟨h.1, h.2.step hn hs⟩
  | _ => exact h

omit [DecidableEq ι] in
theorem settled_set {versions : List (Tag × Version)} {missing : List (Tag × Nat)} {t' : Tag}
    {v : Version} (ht : t' ≠ t) (h : Settled w t n versions missing) :
    Settled w t n (Dict.set t' v versions) missing := by
  obtain ⟨u, hget, hu⟩ := h
  refine ⟨u, ?_, hu⟩
  rw [Dict.get_set, if_neg ht, hget]

omit [DecidableEq ι] in
theorem settled_missing {versions : List (Tag × Version)} {missing : List (Tag × Nat)}
    {t' : Tag} {v : Nat} (ht : t' ≠ t) (h : Settled w t n versions missing) :
    Settled w t n versions (Dict.set t' v missing) := by
  obtain ⟨u, hget, hu⟩ := h
  refine ⟨u, hget, hu.imp_left ?_⟩
  rintro ⟨ms, hms, hmem⟩
  exact ⟨ms, hms, Dict.mem_set_of_ne hmem (Ne.symm ht)⟩

omit [DecidableEq ι] in
theorem settled_other {versions : List (Tag × Version)} {missing : List (Tag × Nat)} {t' : Tag}
    {found : Option Version} {todo : List (Tag × Option Version)} (ht : t' ≠ t)
    (h : t ∈ ((t', found) :: todo).map Prod.fst ∨ Settled w t n versions missing) (v : Version) :
    t ∈ todo.map Prod.fst ∨ Settled w t n (Dict.set t' v versions) missing := by
  rcases h with htodo | hsettled
  · exact .inl ((List.mem_cons.mp htodo).resolve_left (Ne.symm ht))
  · exact .inr (settled_set ht hsettled)

omit [DecidableEq ι] in
theorem readAt_own {eff : Effect (Site D B) Empty} {pc pc' : Pc D B E} (hw : Consistent manager w)
    (hguard : ∀ now, a = .run now → ∀ x ∈ writes manager pc,
      Fresh w x.1 x.2.1 (max (w.shared.announced x.1) x.2.2))
    (hn : n ≤ w.shared.announced t) (h : ReadAt w t n pc)
    (hstep : CachingStep manager w.shared pc a eff pc') : ReadAt w t n pc' := by
  have hcommits : n ≤ w.shared.commits := hn.trans (hw.counted t)
  cases hstep with
  | @getVersions call now =>
      refine ⟨h, fun v hv => ?_, .inl ?_⟩
      · obtain ⟨t', ht', heq⟩ := List.mem_map.mp hv
        rw [Prod.mk.injEq] at heq
        obtain ⟨rfl, hversion⟩ := heq
        obtain ⟨ms, hms, rfl⟩ := Option.map_eq_some_iff.mp hversion
        exact (hw.current t' ms hms).mono hn
      · rw [List.map_map]
        exact List.mem_map.mpr ⟨t, h, rfl⟩
  | @known call versions missing t' v now todo =>
      obtain ⟨htag, hfound, hsettled⟩ := h
      refine ⟨htag, fun u hu => hfound u (List.mem_cons_of_mem _ hu), ?_⟩
      by_cases ht : t' = t
      · subst ht
        have hget : Dict.get t' (Dict.set t' v versions) = some v := by
          rw [Dict.get_set, if_pos rfl]
        exact .inr ⟨v, hget, .inr (hfound v List.mem_cons_self)⟩
      · exact settled_other ht hsettled v
  | @stamp call versions missing t' now todo hclock =>
      obtain ⟨htag, hfound, hsettled⟩ := h
      refine ⟨htag, fun u hu => hfound u (List.mem_cons_of_mem _ hu), ?_⟩
      by_cases ht : t' = t
      · subst ht
        have hget : Dict.get t' (Dict.set t' (.str now) versions) = some (.str now) := by
          rw [Dict.get_set, if_pos rfl]
        exact .inr ⟨.str now, hget, .inl ⟨now, rfl, Dict.mem_set_self t' now missing⟩⟩
      · exact (settled_other ht hsettled (.str now)).imp_right (settled_missing ht)
  | gathered =>
      obtain ⟨htag, -, hsettled⟩ := h
      exact ⟨htag, hsettled.resolve_left fun htodo => by cases htodo⟩
  | @fill call versions missing t' v now =>
      obtain ⟨htag, u, hget, hu⟩ := h
      refine ⟨htag, u, hget, ?_⟩
      rcases hu with ⟨ms, rfl, hmem⟩ | hfresh
      · rcases List.mem_cons.mp hmem with heq | hmem
        · cases heq
          refine .inr ((hguard now rfl (t, .str v, 0) (by simp [writes])).mono ?_)
          exact hn.trans (le_max_left _ _)
        · exact .inl ⟨ms, rfl, hmem⟩
      · exact .inr hfresh
  | @hit call versions now r hlookup =>
      -- the key tells under which versions the response was stored
      obtain ⟨htag, v, hget, hv⟩ := h
      have hfresh : Fresh w t v n := hv.resolve_left fun ⟨ms, _, hms⟩ => List.not_mem_nil hms
      have hmem := Site.mem_of_lookup hlookup
      obtain ⟨queryHash, hkey⟩ := hw.keyed _ r hmem
      have hunder : tagsVersions call.tags versions = r.under := (cacheKey_injective hkey).1
      have hr := hfresh.cached _ hmem
      exact hr (hunder ▸ mem_tagsVersions htag hget)
  | miss => trivial
  | query => exact hcommits
  | store => exact h
  | respond => exact h
  | bypass => exact hcommits
  | _ => trivial

theorem readAt_step (hw : Consistent manager w) (hok : Unshared manager w i a)
    (hn : n ≤ w.shared.announced t) (h : ReadAt w t n (w.pc j))
    (hs : w.step (cachingStep manager) i a = some w') :
    ReadAt w' t n (w'.pc j) := by
  have hcommits : n ≤ w.shared.commits := hn.trans (hw.counted t)
  obtain ⟨eff, pc, hP, -, hafter⟩ := World.step_eq_some.mp hs
  by_cases hj : j = i
  · subst hj
    have hguard : ∀ now, a = .run now → ∀ x ∈ writes manager (w.pc j),
        Fresh w x.1 x.2.1 (max (w.shared.announced x.1) x.2.2) := by
      rintro now rfl
      exact hok
    have hpc : w'.pc j = pc := by
      rw [hafter, World.after_pc_self]
    rw [hpc]
    exact (readAt_own hw hguard hn h (cachingStep_cases hP)).step hcommits hs
  · have hpc : w'.pc j = w.pc j := by
      rw [hafter, World.after_pc_other w hj]
    rw [hpc]
    exact h.step hcommits hs

end Read

/-! ## Runs -/

/-- No request has begun, and the responses in the cache are stored under their own
keys. -/
structure Starts (w : World ι (Site D B) Empty (Pc D B E)) : Prop where
  announced : ∀ t, w.shared.announced t = 0
  begins : ∀ i, (∃ call, w.pc i = .called call) ∨ (∃ tags, w.pc i = .mutating tags 0) ∨
    w.pc i = .storage
  keyed : ∀ key r, (key, Stored.response r) ∈ w.shared.cache →
    ∃ queryHash, key = cacheKey r.under queryHash

omit [DecidableEq ι] in
theorem Starts.consistent {w : World ι (Site D B) Empty (Pc D B E)} (h : Starts w) :
    Consistent manager w where
  counted := fun t => by rw [h.announced t]; exact Nat.zero_le _
  committed := fun i => by
    rcases h.begins i with ⟨call, hpc⟩ | ⟨tags, hpc⟩ | hpc
    all_goals rw [hpc]; exact Nat.zero_le _
  posted := fun i t ht => by
    rcases h.begins i with ⟨call, hpc⟩ | ⟨tags, hpc⟩ | hpc
    all_goals rw [hpc] at ht; cases ht
  current := fun t v _ => by
    rw [h.announced t]
    refine ⟨fun entry _ => ?_, fun i => ?_⟩
    · cases entry.2 with
      | version _ => trivial
      | response r => exact fun _ => Nat.zero_le _
    · rcases h.begins i with ⟨call, hpc⟩ | ⟨tags, hpc⟩ | hpc
      all_goals rw [hpc]; trivial
  keyed := h.keyed

def calledTags : Pc D B E → List Tag
  | .called call => call.tags
  | _ => []

def answer : Pc D B E → Option (Response B)
  | .responded r => some r
  | _ => none

structure Reads (manager : Manager) (j : ι) (t : Tag) (n : Nat)
    (w : World ι (Site D B) Empty (Pc D B E)) : Prop where
  consistent : Consistent manager w
  le : n ≤ w.shared.announced t
  at_ : ReadAt w t n (w.pc j)

theorem Reads.step {w w' : World ι (Site D B) Empty (Pc D B E)} {i j : ι} {a : Act D} {t : Tag}
    {n : Nat} (h : Reads manager j t n w) (hok : Unshared manager w i a)
    (hs : w.step (cachingStep manager) i a = some w') : Reads manager j t n w' where
  consistent := h.consistent.step hok hs
  le := h.le.trans (announced_le hs t)
  at_ := readAt_step h.consistent hok h.le h.at_ hs

theorem Reads.run {w w' : World ι (Site D B) Empty (Pc D B E)} {j : ι} {t : Tag} {n : Nat}
    (h : Reads manager j t n w) (hrun : Run (cachingStep manager) (Unshared manager) w w')
    {r : Response B} (hanswer : answer (w'.pc j) = some r) : n ≤ r.asOf := by
  have hend := (hrun.invariant (fun _ _ _ _ hv hok hs => hv.step hok hs) h).at_
  cases hpc : w'.pc j with
  | responded r' =>
      rw [hpc] at hend hanswer
      cases hanswer
      exact hend
  | _ =>
      rw [hpc] at hanswer
      cases hanswer

/-- A read that is about to begin after commit `n` was announced for a common tag. -/
theorem Starts.reads {w₀ w : World ι (Site D B) Empty (Pc D B E)} (h₀ : Starts w₀)
    (hrun : Run (cachingStep manager) (Unshared manager) w₀ w) {i j : ι} {t : Tag}
    (hdone : t ∈ announcedTags (w.pc i)) (hcalled : t ∈ calledTags (w.pc j)) :
    Reads manager j t (commitOf (w.pc i)) w := by
  have hw : Consistent manager w :=
    hrun.invariant (fun _ _ _ _ hv hok hs => hv.step hok hs) h₀.consistent
  refine ⟨hw, hw.posted i t hdone, ?_⟩
  cases hpc : w.pc j with
  | called call =>
      rw [hpc] at hcalled
      exact hcalled
  | _ =>
      rw [hpc] at hcalled
      cases hcalled

/-- A read that begins after a mutation has written its version of a common tag
returns nothing older than the mutation's commit. -/
theorem read_after_invalidation {w₀ w w' : World ι (Site D B) Empty (Pc D B E)} (h₀ : Starts w₀)
    (hrun : Run (cachingStep manager) (Unshared manager) w₀ w)
    (hrun' : Run (cachingStep manager) (Unshared manager) w w') {i j : ι}
    {t : Tag} (hdone : t ∈ announcedTags (w.pc i)) (hcalled : t ∈ calledTags (w.pc j))
    {r : Response B} (hanswer : answer (w'.pc j) = some r) : commitOf (w.pc i) ≤ r.asOf :=
  (h₀.reads hrun hdone hcalled).run hrun' hanswer

/-! ## One tag, two listings -/

def upcoming : ReadCall (List Nat) (List Nat) Empty where
  tags := [CacheTag.upcomingEvents.tag]
  queryHash := ⟨"2f1a", by decide⟩
  handler := .ok
  service _ := false

def listings : World (Fin 4) (Site (List Nat) (List Nat)) Empty (Pc (List Nat) (List Nat) Empty) :=
  .start { db := [1] } fun i =>
    if i.val = 1 then .mutating [CacheTag.upcomingEvents.tag] 0 else .called upcoming

theorem starts_listings : Starts listings where
  announced := fun _ => rfl
  begins := by
    intro i
    by_cases h : i.val = 1
    · exact .inr (.inl ⟨_, if_pos h⟩)
    · exact .inl ⟨_, if_neg h⟩
  keyed := fun _ _ h => by cases h

/-- The first listing makes the version of millisecond 5, the second one reads it back
and queries; then the event is moderated. -/
def upToInvalidation (now : Nat) : List (Fin 4 × Act (List Nat)) :=
  List.replicate 4 (0, .run 5) ++ List.replicate 5 (2, .run 5) ++
    [(1, .commit (2 :: ·)), (1, .returns), (1, .run now), (1, .run now)]

instance {n : Nat} (w : World (Fin n) (Site D B) Empty (Pc D B E)) (t : Tag) (v : Version)
    (m : Nat) : Decidable (Fresh w t v m) :=
  decidable_of_iff ((∀ entry ∈ w.shared.cache, StoredFresh t v m entry.2) ∧
    ∀ i, PcFresh t v m (w.pc i)) ⟨fun h => ⟨h.1, h.2⟩, fun h => ⟨h.1, h.2⟩⟩

instance {n : Nat} (w : World (Fin n) (Site D B) Empty (Pc D B E)) (i : Fin n) :
    (a : Act D) → Decidable (Unshared manager w i a)
  | .run _ => inferInstanceAs (Decidable (∀ x ∈ writes manager (w.pc i),
      Fresh w x.1 x.2.1 (max (w.shared.announced x.1) x.2.2)))
  | .commit _ | .returns | .raises | .fail | .evict _ => inferInstanceAs (Decidable True)

/-- The second listing is stored, the third runs to its end. -/
def afterInvalidation (n : Nat) : List (Fin 4 × Act (List Nat)) :=
  (2, .run 6) :: List.replicate n (3, .run 6)

/-- The third listing computes its own response. -/
theorem read_after_invalidation_listings :
    ∃ w w' : World (Fin 4) (Site (List Nat) (List Nat)) Empty (Pc (List Nat) (List Nat) Empty),
      Run (cachingStep .redis) (Unshared .redis) listings w ∧
        Run (cachingStep .redis) (Unshared .redis) w w' ∧
        commitOf (w.pc 1) = 1 ∧ ∃ r, answer (w'.pc 3) = some r ∧ commitOf (w.pc 1) ≤ r.asOf := by
  have hrun : ((listings.guardedSteps (cachingStep .redis) (Unshared .redis)
      (upToInvalidation 6)).bind fun w =>
        (w.guardedSteps (cachingStep .redis) (Unshared .redis) (afterInvalidation 7)).map fun w' =>
          (decide (CacheTag.upcomingEvents.tag ∈ announcedTags (w.pc 1)),
            decide (CacheTag.upcomingEvents.tag ∈ calledTags (w.pc 3)), commitOf (w.pc 1),
            (answer (w'.pc 3)).map fun r => r.body)) = some (true, true, 1, some [2, 1]) := by
    decide
  obtain ⟨w, hw, hrun⟩ := Option.bind_eq_some_iff.mp hrun
  obtain ⟨w', hw', hfacts⟩ := Option.map_eq_some_iff.mp hrun
  simp only [Prod.mk.injEq, decide_eq_true_eq] at hfacts
  obtain ⟨hdone, hcalled, hcommit, hanswer⟩ := hfacts
  obtain ⟨r, hanswer, -⟩ := Option.map_eq_some_iff.mp hanswer
  exact ⟨w, w', .of_guardedSteps hw, .of_guardedSteps hw', hcommit, r, hanswer,
    read_after_invalidation starts_listings (.of_guardedSteps hw) (.of_guardedSteps hw') hdone
      hcalled hanswer⟩

/-- In one millisecond with the first listing the moderation gives the tag the
version it had, the second listing is stored under it from before the moderation, and
the third one is answered with that. -/
theorem stale_listing_served :
    ∃ w w' : World (Fin 4) (Site (List Nat) (List Nat)) Empty (Pc (List Nat) (List Nat) Empty),
      Starts listings ∧ Run (cachingStep .redis) anyStep listings w ∧
        Run (cachingStep .redis) anyStep w w' ∧
        CacheTag.upcomingEvents.tag ∈ announcedTags (w.pc 1) ∧
        CacheTag.upcomingEvents.tag ∈ calledTags (w.pc 3) ∧
        ∃ r, answer (w'.pc 3) = some r ∧ r.body = [1] ∧ ¬ commitOf (w.pc 1) ≤ r.asOf := by
  have hrun : ((listings.steps (cachingStep .redis) (upToInvalidation 5)).bind fun w =>
      (w.steps (cachingStep .redis) (afterInvalidation 4)).map fun w' =>
        (decide (CacheTag.upcomingEvents.tag ∈ announcedTags (w.pc 1)),
          decide (CacheTag.upcomingEvents.tag ∈ calledTags (w.pc 3)), commitOf (w.pc 1),
          (answer (w'.pc 3)).map fun r => (r.body, r.asOf))) =
        some (true, true, 1, some ([1], 0)) := by
    decide
  obtain ⟨w, hw, hrun⟩ := Option.bind_eq_some_iff.mp hrun
  obtain ⟨w', hw', hfacts⟩ := Option.map_eq_some_iff.mp hrun
  simp only [Prod.mk.injEq, decide_eq_true_eq] at hfacts
  obtain ⟨hdone, hcalled, hcommit, hanswer⟩ := hfacts
  obtain ⟨r, hanswer, heq⟩ := Option.map_eq_some_iff.mp hanswer
  rw [Prod.mk.injEq] at heq
  refine ⟨w, w', starts_listings, .of_steps hw, .of_steps hw', hdone, hcalled, r, hanswer,
    heq.1, ?_⟩
  omega

end TicketBooking.Http.Freshness
