import Mathlib.Data.List.Nodup
import Mathlib.Logic.Function.Basic
/-!
# Joins

Rows of named tables joined one table after another, each name at most once.
An environment says which row stands under each joined name.  A path of joins
can also be walked on its own, from row to row; the two views agree when every
name is reached by one join only, and rows that several paths pass through are
determined by the joins that lead to them.
-/

namespace TicketBooking.Library.Joins

structure Join (M Row : Type*) where
  source : M
  target : M
  on : Row → Row → Bool

abbrev Env (M Row : Type*) := M → Option Row

variable {M Row : Type*}

/-- Both rows are there, and the ON clause holds of them. -/
def Satisfies (tables : M → List Row) (env : Env M Row) (j : Join M Row) : Prop :=
  ∃ x y, env j.source = some x ∧ env j.target = some y ∧ y ∈ tables j.target ∧ j.on x y

/-- A row is joined with one row at most. -/
def Functional (tables : M → List Row) (j : Join M Row) : Prop :=
  ∀ x y y', y ∈ tables j.target → y' ∈ tables j.target → j.on x y → j.on x y' → y = y'

/-- The names bound before each join are those it may start from, and it binds
a new one. -/
def Scoped (bound : List M) : List (Join M Row) → Prop
  | [] => True
  | j :: joins => j.source ∈ bound ∧ j.target ∉ bound ∧ Scoped (j.target :: bound) joins

/-- Each join starts where the one before it ends. -/
def Linked (m : M) : List (Join M Row) → Prop
  | [] => True
  | j :: joins => j.source = m ∧ Linked j.target joins

def endOf (m : M) : List (Join M Row) → M
  | [] => m
  | j :: joins => endOf j.target joins

theorem endOf_mem (m : M) (joins : List (Join M Row)) :
    endOf m joins = m ∨ endOf m joins ∈ joins.map Join.target := by
  induction joins generalizing m with
  | nil => exact .inl rfl
  | cons j joins ih =>
      right
      rcases ih j.target with heq | hmem
      · exact heq ▸ List.mem_cons_self
      · exact List.mem_cons_of_mem _ hmem

def reached (tables : M → List Row) : List (Join M Row) → Row → List Row
  | [], x => [x]
  | j :: joins, x => ((tables j.target).filter (j.on x)).flatMap (reached tables joins)

theorem mem_reached_cons {tables : M → List Row} {j : Join M Row} {joins : List (Join M Row)}
    {x y : Row} :
    y ∈ reached tables (j :: joins) x ↔
      ∃ z ∈ tables j.target, j.on x z ∧ y ∈ reached tables joins z := by
  simp only [reached, List.mem_flatMap, List.mem_filter, and_assoc]

theorem Satisfies.mono {tables : M → List Row} {env env' : Env M Row} {j : Join M Row}
    (h : Satisfies tables env j) (hext : ∀ m x, env m = some x → env' m = some x) :
    Satisfies tables env' j := by
  obtain ⟨x, y, hx, hy, hmem, hon⟩ := h
  exact ⟨x, y, hext _ _ hx, hext _ _ hy, hmem, hon⟩

theorem Scoped.notMem_targets {bound : List M} {joins : List (Join M Row)}
    (h : Scoped bound joins) {m : M} (hm : m ∈ bound) : m ∉ joins.map Join.target := by
  induction joins generalizing bound with
  | nil => exact List.not_mem_nil
  | cons j joins ih =>
      obtain ⟨-, hnew, hrest⟩ := h
      rw [List.map_cons, List.mem_cons, not_or]
      exact ⟨fun heq => hnew (heq ▸ hm), ih hrest (List.mem_cons_of_mem _ hm)⟩

/-! ## Paths inside an environment -/

/-- Following a path through an environment is walking it. -/
theorem mem_reached_of_satisfies {tables : M → List Row} {env : Env M Row} {m : M}
    {path : List (Join M Row)} {x : Row} (hlinked : Linked m path) (hx : env m = some x)
    (hall : ∀ j ∈ path, Satisfies tables env j) :
    ∃ y, env (endOf m path) = some y ∧ y ∈ reached tables path x := by
  induction path generalizing m x with
  | nil => exact ⟨x, hx, List.mem_singleton_self x⟩
  | cons j path ih =>
      obtain ⟨rfl, hlinked⟩ := hlinked
      obtain ⟨⟨x', z, hx', hz, hmem, hon⟩, hall⟩ := List.forall_mem_cons.mp hall
      have hxx : x' = x := Option.some.inj (hx'.symm.trans hx)
      subst hxx
      obtain ⟨y, hy, hreached⟩ := ih hlinked hz hall
      exact ⟨y, hy, mem_reached_cons.mpr ⟨z, hmem, hon, hreached⟩⟩

theorem linked_source {m : M} {path : List (Join M Row)} (h : Linked m path) {i : Nat}
    (hi : i + 1 < path.length) : path[i + 1].source = path[i].target := by
  induction path generalizing m i with
  | nil => cases hi
  | cons j path ih =>
      cases i with
      | succ i => exact ih h.2 _
      | zero =>
          cases path with
          | nil => simp at hi
          | cons j' path => exact h.2.1

/-- A path that reaches each name by one join, and never its start, reaches
each name once. -/
theorem nodup_of_linked {m : M} {path : List (Join M Row)} (hlinked : Linked m path)
    (hroot : m ∉ path.map Join.target)
    (hsame : ∀ j ∈ path, ∀ j' ∈ path, j.target = j'.target → j = j') :
    (path.map Join.target).Nodup := by
  have hne : ∀ i k (hi : i < path.length) (hk : k < path.length), i < k →
      path[i].target ≠ path[k].target := by
    intro i
    induction i with
    | zero =>
        intro k hi hk hlt heq
        obtain ⟨k, rfl⟩ := Nat.exists_eq_add_of_lt hlt
        have hstart : path[0].source = m := by
          cases path with
          | nil => cases hi
          | cons j path => exact hlinked.1
        have hsource := linked_source hlinked (i := 0 + k) hk
        rw [← hsame _ (List.getElem_mem hi) _ (List.getElem_mem hk) heq, hstart] at hsource
        exact hroot (hsource ▸ List.mem_map_of_mem (List.getElem_mem _))
    | succ i ih =>
        intro k hi hk hlt heq
        obtain ⟨k, rfl⟩ := Nat.exists_eq_add_of_lt hlt
        refine ih (i + 1 + k) (by omega) (by omega) (by omega) ?_
        have hsource := linked_source hlinked (i := i + 1 + k) hk
        rw [← hsame _ (List.getElem_mem hi) _ (List.getElem_mem hk) heq] at hsource
        rw [← hsource, linked_source hlinked hi]
  rw [List.Nodup, List.pairwise_map, List.pairwise_iff_getElem]
  exact hne

/-- A path that names no table twice can be joined from its first row. -/
theorem scoped_of_linked {bound : List M} {m : M} {path : List (Join M Row)}
    (hlinked : Linked m path) (hm : m ∈ bound) (hnew : ∀ j ∈ path, j.target ∉ bound)
    (hnodup : (path.map Join.target).Nodup) : Scoped bound path := by
  induction path generalizing bound m with
  | nil => trivial
  | cons j path ih =>
      obtain ⟨rfl, hlinked⟩ := hlinked
      rw [List.map_cons, List.nodup_cons] at hnodup
      obtain ⟨hfirst, hnew⟩ := List.forall_mem_cons.mp hnew
      refine ⟨hm, hfirst, ih hlinked List.mem_cons_self (fun j' hj' hmem => ?_) hnodup.2⟩
      rcases List.mem_cons.mp hmem with heq | hmem
      · exact hnodup.1 (heq ▸ List.mem_map_of_mem hj')
      · exact hnew j' hj' hmem

theorem scoped_concat {bound : List M} {joins : List (Join M Row)} {j : Join M Row} :
    Scoped bound (joins ++ [j]) ↔ Scoped bound joins ∧
      (j.source ∈ bound ∨ j.source ∈ joins.map Join.target) ∧
      j.target ∉ bound ∧ j.target ∉ joins.map Join.target := by
  induction joins generalizing bound with
  | nil => simp [Scoped]
  | cons j' joins ih =>
      simp only [List.cons_append, Scoped, ih, List.mem_cons, List.map_cons, not_or]
      tauto

section Environments

variable [DecidableEq M]

/-- `FROM ... JOIN ... JOIN ...`: the environments that extend `env`. -/
def environments (tables : M → List Row) : List (Join M Row) → Env M Row → List (Env M Row)
  | [], env => [env]
  | j :: joins, env =>
      match env j.source with
      | none => []
      | some x => ((tables j.target).filter (j.on x)).flatMap fun y =>
          environments tables joins (Function.update env j.target (some y))

def single (m : M) (x : Row) : Env M Row := Function.update (fun _ => none) m (some x)

@[simp] theorem single_self (m : M) (x : Row) : single m x m = some x := by
  simp [single]

theorem single_of_ne {m m' : M} (x : Row) (h : m' ≠ m) : single m x m' = none := by
  simp [single, h]

theorem isSome_single {m : M} {x : Row} (m' : M) : (single m x m').isSome ↔ m' ∈ [m] := by
  by_cases h : m' = m
  · simp [h]
  · simp [single_of_ne x h, h]

/-- A joined environment keeps what was bound, binds the targets and nothing
else, and satisfies every ON clause. -/
theorem mem_environments {tables : M → List Row} {joins : List (Join M Row)} {bound : List M}
    {start env : Env M Row} (hscoped : Scoped bound joins)
    (hstart : ∀ m, (start m).isSome ↔ m ∈ bound) :
    env ∈ environments tables joins start ↔
      (∀ m ∉ joins.map Join.target, env m = start m) ∧ ∀ j ∈ joins, Satisfies tables env j := by
  induction joins generalizing bound start with
  | nil => simp [environments, funext_iff]
  | cons j joins ih =>
      obtain ⟨hsource, hnew, hrest⟩ := hscoped
      obtain ⟨x, hx⟩ := Option.isSome_iff_exists.mp ((hstart j.source).mpr hsource)
      have hne : j.source ≠ j.target := fun heq => hnew (heq ▸ hsource)
      have hbound : ∀ y m, (Function.update start j.target (some y) m).isSome ↔
          m ∈ j.target :: bound := by
        intro y m
        by_cases hm : m = j.target
        · simp [hm]
        · simp [hm, hstart]
      have htargets : j.target ∉ joins.map Join.target :=
        hrest.notMem_targets List.mem_cons_self
      have hsources : j.source ∉ joins.map Join.target :=
        hrest.notMem_targets (List.mem_cons_of_mem _ hsource)
      simp only [environments, hx, List.mem_flatMap, List.mem_filter]
      constructor
      · rintro ⟨y, ⟨hy, hon⟩, henv⟩
        obtain ⟨hkept, hall⟩ := (ih hrest (hbound y)).mp henv
        have htarget : env j.target = some y := by
          rw [hkept _ htargets, Function.update_self]
        have hsourceEnv : env j.source = some x := by
          rw [hkept _ hsources, Function.update_of_ne hne, hx]
        refine ⟨fun m hm => ?_,
          List.forall_mem_cons.mpr ⟨⟨x, y, hsourceEnv, htarget, hy, hon⟩, hall⟩⟩
        rw [List.map_cons, List.mem_cons, not_or] at hm
        rw [hkept m hm.2, Function.update_of_ne hm.1]
      · rintro ⟨hkept, hall⟩
        obtain ⟨⟨x', y, hx', hy', hmem, hon⟩, hall⟩ := List.forall_mem_cons.mp hall
        have hsourceEnv : env j.source = some x := by
          rw [hkept _ (List.not_mem_cons_of_ne_of_not_mem hne hsources), hx]
        have hxx : x' = x := Option.some.inj (hx'.symm.trans hsourceEnv)
        subst hxx
        refine ⟨y, ⟨hmem, hon⟩, (ih hrest (hbound y)).mpr ⟨fun m hm => ?_, hall⟩⟩
        by_cases heq : m = j.target
        · rw [heq, hy', Function.update_self]
        · rw [Function.update_of_ne heq, hkept]
          rw [List.map_cons, List.mem_cons, not_or]
          exact ⟨heq, hm⟩

/-- A walk can be laid into an environment that has the rows of the joins it
shares with it, when those joins are functional. -/
theorem exists_extension {tables : M → List Row} {path : List (Join M Row)} {env : Env M Row}
    {m : M} {x y : Row} (hlinked : Linked m path) (hnodup : (path.map Join.target).Nodup)
    (hx : env m = some x) (hy : y ∈ reached tables path x)
    (hshared : ∀ j ∈ path, (env j.target).isSome → Satisfies tables env j ∧ Functional tables j) :
    ∃ env' : Env M Row, (∀ m x, env m = some x → env' m = some x) ∧
      (∀ m ∉ path.map Join.target, env' m = env m) ∧
      (∀ j ∈ path, Satisfies tables env' j) ∧ env' (endOf m path) = some y := by
  induction path generalizing env m x with
  | nil =>
      rw [reached, List.mem_singleton] at hy
      exact ⟨env, fun _ _ h => h, fun _ _ => rfl, by simp, by rw [hy]; exact hx⟩
  | cons j path ih =>
      obtain ⟨rfl, hlinked⟩ := hlinked
      obtain ⟨z, hz, hon, hy⟩ := mem_reached_cons.mp hy
      rw [List.map_cons, List.nodup_cons] at hnodup
      obtain ⟨hnew, hnodup⟩ := hnodup
      obtain ⟨hhead, hshared⟩ := List.forall_mem_cons.mp hshared
      cases htarget : env j.target with
      | some z' =>
          obtain ⟨⟨x', z'', hx', hz'', hmem, hon'⟩, hfunctional⟩ := hhead (by rw [htarget]; rfl)
          have hxx : x' = x := Option.some.inj (hx'.symm.trans hx)
          subst hxx
          have hzz : z'' = z := hfunctional _ _ _ hmem hz hon' hon
          subst hzz
          obtain ⟨env', hext, hkept, hall, hend⟩ := ih hlinked hnodup hz'' hy hshared
          refine ⟨env', hext, fun m hm => hkept m fun hmem => hm (List.mem_cons_of_mem _ hmem),
            List.forall_mem_cons.mpr ⟨⟨x', z'', hext _ _ hx', hext _ _ hz'', hz, hon⟩, hall⟩, hend⟩
      | none =>
          have hext₀ : ∀ m x, env m = some x →
              Function.update env j.target (some z) m = some x := by
            intro m x h
            rw [Function.update_of_ne, h]
            rintro rfl
            rw [htarget] at h
            cases h
          have hshared' : ∀ j' ∈ path,
              (Function.update env j.target (some z) j'.target).isSome →
                Satisfies tables (Function.update env j.target (some z)) j' ∧
                  Functional tables j' := by
            intro j' hj' hsome
            have hne : j'.target ≠ j.target := fun heq => hnew (heq ▸ List.mem_map_of_mem hj')
            rw [Function.update_of_ne hne] at hsome
            exact ⟨(hshared j' hj' hsome).1.mono hext₀, (hshared j' hj' hsome).2⟩
          obtain ⟨env', hext, hkept, hall, hend⟩ :=
            ih hlinked hnodup (Function.update_self _ _ _) hy hshared'
          have hz' : env' j.target = some z := hext _ _ (Function.update_self _ _ _)
          refine ⟨env', fun m x h => hext _ _ (hext₀ m x h), fun m hm => ?_,
            List.forall_mem_cons.mpr ⟨⟨x, z, hext _ _ (hext₀ _ _ hx), hz', hz, hon⟩, hall⟩, hend⟩
          rw [List.map_cons, List.mem_cons, not_or] at hm
          rw [hkept m hm.2, Function.update_of_ne hm.1]

/-- Joining a path that names each table once is walking it. -/
theorem exists_environment_iff {tables : M → List Row} {path : List (Join M Row)} {m : M} {x : Row}
    (hlinked : Linked m path) (hnodup : (m :: path.map Join.target).Nodup) {P : Row → Prop} :
    (∃ env ∈ environments tables path (single m x), ∃ y, env (endOf m path) = some y ∧ P y) ↔
      ∃ y ∈ reached tables path x, P y := by
  obtain ⟨hroot, hnodup⟩ := List.nodup_cons.mp hnodup
  have hscoped : Scoped [m] path := by
    refine scoped_of_linked hlinked (List.mem_singleton_self m) (fun j hj hmem => ?_) hnodup
    exact hroot (List.mem_singleton.mp hmem ▸ List.mem_map_of_mem hj)
  constructor
  · rintro ⟨env, henv, y, hy, hP⟩
    obtain ⟨hkept, hall⟩ := (mem_environments hscoped isSome_single).mp henv
    have hx : env m = some x := by rw [hkept m hroot, single_self]
    obtain ⟨y', hy', hreached⟩ := mem_reached_of_satisfies hlinked hx hall
    cases hy.symm.trans hy'
    exact ⟨y, hreached, hP⟩
  · rintro ⟨y, hreached, hP⟩
    have hfresh : ∀ j ∈ path, (single m x j.target).isSome →
        Satisfies tables (single m x) j ∧ Functional tables j := by
      intro j hj hsome
      have htarget := List.mem_singleton.mp ((isSome_single j.target).mp hsome)
      exact absurd (htarget ▸ List.mem_map_of_mem hj) hroot
    obtain ⟨env, -, hkept, hall, hend⟩ :=
      exists_extension hlinked hnodup (single_self m x) hreached hfresh
    exact ⟨env, (mem_environments hscoped isSome_single).mpr ⟨hkept, hall⟩, y, hend, hP⟩

/-- Walks from one row fit into one environment when every name several of them
reach is reached by the same functional join. -/
theorem exists_joint {tables : M → List Row} {m : M} {x : Row}
    {walks : List (List (Join M Row) × Row)}
    (hlinked : ∀ w ∈ walks, Linked m w.1) (hnodup : ∀ w ∈ walks, (w.1.map Join.target).Nodup)
    (hroot : ∀ w ∈ walks, m ∉ w.1.map Join.target)
    (hreached : ∀ w ∈ walks, w.2 ∈ reached tables w.1 x)
    (hshared : walks.Pairwise fun w w' => ∀ j ∈ w.1, ∀ j' ∈ w'.1, j.target = j'.target →
      j = j' ∧ Functional tables j) :
    ∃ env : Env M Row, env m = some x ∧
      (∀ m', m' ≠ m → (∀ w ∈ walks, m' ∉ w.1.map Join.target) → env m' = none) ∧
      ∀ w ∈ walks, (∀ j ∈ w.1, Satisfies tables env j) ∧ env (endOf m w.1) = some w.2 := by
  induction walks with
  | nil => exact ⟨single m x, single_self m x, fun m' hne _ => single_of_ne x hne, by simp⟩
  | cons w walks ih =>
      obtain ⟨hlinked, hlinkeds⟩ := List.forall_mem_cons.mp hlinked
      obtain ⟨hnodup, hnodups⟩ := List.forall_mem_cons.mp hnodup
      obtain ⟨hroot, hroots⟩ := List.forall_mem_cons.mp hroot
      obtain ⟨hreached, hreacheds⟩ := List.forall_mem_cons.mp hreached
      obtain ⟨hshared, hshareds⟩ := List.pairwise_cons.mp hshared
      obtain ⟨env, hx, hdomain, hall⟩ := ih hlinkeds hnodups hroots hreacheds hshareds
      have hmeet : ∀ j ∈ w.1, (env j.target).isSome →
          Satisfies tables env j ∧ Functional tables j := by
        intro j hj hsome
        have hne : j.target ≠ m := fun heq => hroot (heq ▸ List.mem_map_of_mem hj)
        by_contra hnot
        have hnone : env j.target = none := by
          refine hdomain _ hne fun w' hw' hmem => hnot ?_
          obtain ⟨j', hj', heq⟩ := List.mem_map.mp hmem
          obtain ⟨rfl, hfunctional⟩ := hshared w' hw' j hj j' hj' heq.symm
          exact ⟨(hall w' hw').1 j hj', hfunctional⟩
        rw [hnone] at hsome
        cases hsome
      obtain ⟨env', hext, hkept, hpath, hend⟩ :=
        exists_extension hlinked hnodup hx hreached hmeet
      refine ⟨env', hext _ _ hx, fun m' hne hnone => ?_,
        List.forall_mem_cons.mpr ⟨⟨hpath, hend⟩, fun w' hw' => ?_⟩⟩
      · obtain ⟨hw, hws⟩ := List.forall_mem_cons.mp hnone
        rw [hkept m' hw, hdomain m' hne hws]
      · exact ⟨fun j hj => ((hall w' hw').1 j hj).mono hext, hext _ _ (hall w' hw').2⟩

/-! ## Joining each name once -/

/-- Add the joins of a path, leaving out those whose target is joined already. -/
def joinOnce (joined : List (Join M Row)) : List (Join M Row) → List (Join M Row)
  | [] => joined
  | j :: path =>
      if j.target ∈ joined.map Join.target then joinOnce joined path
      else joinOnce (joined ++ [j]) path

theorem scoped_joinOnce {m m' : M} {joined path : List (Join M Row)} (hscoped : Scoped [m] joined)
    (hlinked : Linked m' path) (hstart : m' = m ∨ m' ∈ joined.map Join.target)
    (hroot : m ∉ path.map Join.target) : Scoped [m] (joinOnce joined path) := by
  induction path generalizing joined m' with
  | nil => exact hscoped
  | cons j path ih =>
      obtain ⟨rfl, hlinked⟩ := hlinked
      rw [List.map_cons, List.mem_cons, not_or] at hroot
      unfold joinOnce
      split_ifs with hjoined
      · exact ih hscoped hlinked (.inr hjoined) hroot.2
      · refine ih (scoped_concat.mpr ⟨hscoped, ?_, ?_, hjoined⟩) hlinked (.inr ?_) hroot.2
        · exact hstart.imp_left List.mem_singleton.mpr
        · exact fun hmem => hroot.1 (List.mem_singleton.mp hmem).symm
        · simp

theorem mem_of_mem_joinOnce {joined path : List (Join M Row)} {j : Join M Row}
    (h : j ∈ joinOnce joined path) : j ∈ joined ∨ j ∈ path := by
  induction path generalizing joined with
  | nil => exact .inl h
  | cons j' path ih =>
      unfold joinOnce at h
      split_ifs at h with hjoined
      · exact (ih h).imp_right (List.mem_cons_of_mem _)
      · rcases ih h with hmem | hmem
        · rcases List.mem_append.mp hmem with hmem | hmem
          · exact .inl hmem
          · exact .inr (List.mem_singleton.mp hmem ▸ List.mem_cons_self)
        · exact .inr (List.mem_cons_of_mem _ hmem)

theorem mem_joinOnce_of_mem {joined path : List (Join M Row)} {j : Join M Row} (h : j ∈ joined) :
    j ∈ joinOnce joined path := by
  induction path generalizing joined with
  | nil => exact h
  | cons j' path ih =>
      unfold joinOnce
      split_ifs
      · exact ih h
      · exact ih (List.mem_append_left _ h)

theorem exists_joinOnce {joined path : List (Join M Row)} {j : Join M Row} (h : j ∈ path) :
    ∃ j' ∈ joinOnce joined path, j'.target = j.target := by
  induction path generalizing joined with
  | nil => cases h
  | cons j₀ path ih =>
      rcases List.mem_cons.mp h with rfl | h
      · unfold joinOnce
        split_ifs with hjoined
        · obtain ⟨j', hj', heq⟩ := List.mem_map.mp hjoined
          exact ⟨j', mem_joinOnce_of_mem hj', heq⟩
        · exact ⟨j, mem_joinOnce_of_mem (by simp), rfl⟩
      · unfold joinOnce
        split_ifs <;> exact ih h

/-- The joins of several paths from one name. -/
def joinPaths (paths : List (List (Join M Row))) : List (Join M Row) :=
  paths.foldl joinOnce []

section Paths

variable {m : M} {paths : List (List (Join M Row))}

theorem scoped_joinPaths (hlinked : ∀ path ∈ paths, Linked m path)
    (hroot : ∀ path ∈ paths, m ∉ path.map Join.target) : Scoped [m] (joinPaths paths) := by
  have hfold : ∀ joined, Scoped [m] joined → Scoped [m] (paths.foldl joinOnce joined) := by
    induction paths with
    | nil => exact fun _ h => h
    | cons path paths ih =>
        obtain ⟨hlinked, hlinkeds⟩ := List.forall_mem_cons.mp hlinked
        obtain ⟨hroot, hroots⟩ := List.forall_mem_cons.mp hroot
        exact fun joined h => ih hlinkeds hroots _ (scoped_joinOnce h hlinked (.inl rfl) hroot)
  exact hfold [] trivial

theorem mem_of_mem_joinPaths {j : Join M Row} (h : j ∈ joinPaths paths) :
    ∃ path ∈ paths, j ∈ path := by
  have hfold : ∀ joined, j ∈ paths.foldl joinOnce joined →
      j ∈ joined ∨ ∃ path ∈ paths, j ∈ path := by
    clear h
    induction paths with
    | nil => exact fun _ h => .inl h
    | cons path paths ih =>
        intro joined h
        rcases ih _ h with hmem | ⟨path', hpath', hmem⟩
        · exact (mem_of_mem_joinOnce hmem).imp_right fun hmem => ⟨path, List.mem_cons_self, hmem⟩
        · exact .inr ⟨path', List.mem_cons_of_mem _ hpath', hmem⟩
  exact (hfold [] h).resolve_left List.not_mem_nil

theorem exists_joinPaths {path : List (Join M Row)} {j : Join M Row} (hpath : path ∈ paths)
    (hj : j ∈ path) : ∃ j' ∈ joinPaths paths, j'.target = j.target := by
  have hfold : ∀ joined, (∃ j' ∈ joined, j'.target = j.target) ∨ path ∈ paths →
      ∃ j' ∈ paths.foldl joinOnce joined, j'.target = j.target := by
    clear hpath
    induction paths with
    | nil => exact fun _ h => h.resolve_right List.not_mem_nil
    | cons path' paths ih =>
        intro joined h
        refine ih _ ?_
        rcases h with ⟨j', hj', heq⟩ | h
        · exact .inl ⟨j', mem_joinOnce_of_mem hj', heq⟩
        · rcases List.mem_cons.mp h with rfl | h
          · exact .inl (exists_joinOnce hj)
          · exact .inr h
  exact hfold [] (.inr hpath)

/-- When a name is reached by one join only, all joins of all paths are made. -/
theorem mem_joinPaths {path : List (Join M Row)} {j : Join M Row} (hpath : path ∈ paths)
    (hj : j ∈ path)
    (hsame : ∀ path' ∈ paths, ∀ j' ∈ path', j'.target = j.target → j' = j) :
    j ∈ joinPaths paths := by
  obtain ⟨j', hj', heq⟩ := exists_joinPaths hpath hj
  obtain ⟨path', hpath', hmem⟩ := mem_of_mem_joinPaths hj'
  exact hsame path' hpath' j' hmem heq ▸ hj'

theorem mem_joinOnce_iff {joined path : List (Join M Row)} {j : Join M Row} :
    j ∈ joinOnce joined path ↔ j ∈ joined ∨ j.target ∉ joined.map Join.target ∧
      path.find? (fun j' => j'.target = j.target) = some j := by
  induction path generalizing joined with
  | nil => simp [joinOnce]
  | cons j' path ih =>
      unfold joinOnce
      by_cases htarget : j'.target = j.target
      · rw [List.find?_cons_of_pos (by simpa using htarget), htarget]
        split_ifs with hjoined
        · rw [ih]
          simp [hjoined]
        · rw [ih]
          have hlast : j.target ∈ (joined ++ [j']).map Join.target := by simp [htarget]
          simp only [hlast, not_true_eq_false, false_and, or_false, List.mem_append,
            List.mem_singleton, hjoined, not_false_eq_true, true_and, Option.some.injEq,
            eq_comm (a := j)]
      · rw [List.find?_cons_of_neg (by simpa using htarget)]
        have hne : j ≠ j' := fun heq => htarget (heq ▸ rfl)
        split_ifs with hjoined
        · exact ih
        · rw [ih]
          simp [hne, Ne.symm htarget]

theorem joinOnce_append (joined path path' : List (Join M Row)) :
    joinOnce joined (path ++ path') = joinOnce (joinOnce joined path) path' := by
  induction path generalizing joined with
  | nil => rfl
  | cons j path ih =>
      simp only [List.cons_append, joinOnce]
      split_ifs
      · exact ih joined
      · exact ih (joined ++ [j])

/-- The joins made are those that are first to reach their names. -/
theorem mem_joinPaths_iff {j : Join M Row} :
    j ∈ joinPaths paths ↔
      paths.flatten.find? (fun j' => j'.target = j.target) = some j := by
  have hfold : ∀ joined, paths.foldl joinOnce joined = joinOnce joined paths.flatten := by
    induction paths with
    | nil => exact fun _ => rfl
    | cons path paths ih =>
        intro joined
        rw [List.foldl_cons, ih, List.flatten_cons, joinOnce_append]
  rw [joinPaths, hfold, mem_joinOnce_iff]
  simp

end Paths

/-! ## Joins of two kinds -/

omit [DecidableEq M] in
theorem Scoped.source_mem {bound : List M} {joins : List (Join M Row)} (h : Scoped bound joins)
    {j : Join M Row} (hj : j ∈ joins) : j.source ∈ bound ∨ j.source ∈ joins.map Join.target := by
  induction joins generalizing bound with
  | nil => cases hj
  | cons j' joins ih =>
      obtain ⟨hsource, -, hrest⟩ := h
      rcases List.mem_cons.mp hj with rfl | hj
      · exact .inl hsource
      · rcases ih hrest hj with hmem | hmem
        · rcases List.mem_cons.mp hmem with heq | hmem
          · exact .inr (heq ▸ List.mem_cons_self)
          · exact .inl hmem
        · exact .inr (List.mem_cons_of_mem _ hmem)

section Fits

variable {tables : M → List Row} {m : M} {x : Row}

def Fits (tables : M → List Row) (m : M) (x : Row) (joins : List (Join M Row)) (env : Env M Row) :
    Prop :=
  (∀ n ∉ joins.map Join.target, env n = single m x n) ∧ ∀ j ∈ joins, Satisfies tables env j

variable {joins joins' fewer : List (Join M Row)} {env env' : Env M Row}

theorem Fits.root (h : Fits tables m x joins env) (hroot : m ∉ joins.map Join.target) :
    env m = some x := by
  rw [h.1 m hroot, single_self]

theorem Fits.part (h : Fits tables m x joins env) (hroot : m ∉ joins.map Join.target)
    (hscoped : Scoped [m] fewer) (hsub : ∀ j ∈ fewer, j ∈ joins) :
    ∃ env', Fits tables m x fewer env' ∧
      ∀ n, n = m ∨ n ∈ fewer.map Join.target → env' n = env n := by
  refine ⟨fun n => if n = m ∨ n ∈ fewer.map Join.target then env n else none, ⟨?_, ?_⟩, ?_⟩
  · intro n hn
    by_cases hm : n = m
    · simp [hm, h.root hroot]
    · simp [hm, hn, single_of_ne x hm]
  · intro j hj
    obtain ⟨y, z, hy, hz, hmem, hon⟩ := h.2 j (hsub j hj)
    have hsource : j.source = m ∨ j.source ∈ fewer.map Join.target :=
      (hscoped.source_mem hj).imp_left List.mem_singleton.mp
    have htarget : j.target = m ∨ j.target ∈ fewer.map Join.target :=
      .inr (List.mem_map_of_mem hj)
    exact ⟨y, z, (if_pos hsource).trans hy, (if_pos htarget).trans hz, hmem, hon⟩
  · exact fun n hn => if_pos hn

/-- Two environments have the same rows under the names both join, when they are reached by
the same functional joins. -/
theorem Fits.agree (h : Fits tables m x joins env) (h' : Fits tables m x joins' env')
    (hroot : m ∉ joins.map Join.target) (hroot' : m ∉ joins'.map Join.target)
    (hscoped : Scoped [m] joins) (hscoped' : Scoped [m] joins')
    (hsame : ∀ j ∈ joins, ∀ j' ∈ joins', j.target = j'.target → j = j')
    (hfunctional : ∀ j ∈ joins, Functional tables j) {n : M} (hn : n ∈ joins.map Join.target)
    (hn' : n ∈ joins'.map Join.target) : env n = env' n := by
  have hinduction : ∀ (later : List (Join M Row)) (bound : List M), Scoped bound later →
      (∀ j ∈ later, j ∈ joins) →
      (∀ k ∈ bound, k = m ∨ k ∈ joins'.map Join.target → env k = env' k) →
      ∀ k ∈ later.map Join.target, k ∈ joins'.map Join.target → env k = env' k := by
    intro later
    induction later with
    | nil => exact fun _ _ _ _ k hk => absurd hk List.not_mem_nil
    | cons j later ih =>
        intro bound hscoped hsub hbound
        obtain ⟨hsource, -, hlater⟩ := hscoped
        obtain ⟨hj, hsub⟩ := List.forall_mem_cons.mp hsub
        have hfirst : j.target ∈ joins'.map Join.target → env j.target = env' j.target := by
          intro hmem
          obtain ⟨j', hj', htarget⟩ := List.mem_map.mp hmem
          obtain rfl := hsame j hj j' hj' htarget.symm
          obtain ⟨y, z, hy, hz, hmem, hon⟩ := h.2 j hj
          obtain ⟨y', z', hy', hz', hmem', hon'⟩ := h'.2 j hj'
          have heq := hbound j.source hsource
            ((hscoped'.source_mem hj').imp_left List.mem_singleton.mp)
          rw [hy, hy'] at heq
          cases heq
          rw [hz, hz', hfunctional j hj y z z' hmem hmem' hon hon']
        refine List.forall_mem_cons.mpr ⟨hfirst, ih (j.target :: bound) hlater hsub ?_⟩
        refine List.forall_mem_cons.mpr ⟨fun hk => ?_, hbound⟩
        rcases hk with hk | hk
        · exact absurd (hk ▸ List.mem_map_of_mem hj) hroot
        · exact hfirst hk
  refine hinduction joins [m] hscoped (fun _ h => h) ?_ n hn hn'
  intro k hk _
  rw [List.mem_singleton.mp hk, h.root hroot, h'.root hroot']

/-- Environments that agree are parts of one. -/
theorem Fits.union {all : List (Join M Row)} (h : Fits tables m x joins env)
    (h' : Fits tables m x joins' env')
    (hagree : ∀ n ∈ joins.map Join.target, n ∈ joins'.map Join.target → env n = env' n)
    (hroot : m ∉ joins.map Join.target) (hroot' : m ∉ joins'.map Join.target)
    (hall : ∀ j, j ∈ all ↔ j ∈ joins ∨ j ∈ joins') :
    ∃ env'', Fits tables m x all env'' ∧ (∀ n y, env n = some y → env'' n = some y) ∧
      ∀ n y, env' n = some y → env'' n = some y := by
  have hleft : ∀ n y, env n = some y → (env n).or (env' n) = some y := by
    intro n y hy
    rw [hy, Option.some_or]
  have hright : ∀ n y, env' n = some y → (env n).or (env' n) = some y := by
    intro n y hy
    by_cases hm : n = m
    · subst hm
      rw [h.root hroot, Option.some_or, ← h'.root hroot', hy]
    · by_cases hn : n ∈ joins.map Join.target
      · have hn' : n ∈ joins'.map Join.target := by
          by_contra hnot
          rw [h'.1 n hnot, single_of_ne x hm] at hy
          cases hy
        rw [hagree n hn hn', hy, Option.some_or]
      · rw [h.1 n hn, single_of_ne x hm, Option.none_or, hy]
  refine ⟨fun n => (env n).or (env' n), ⟨fun n hn => ?_, fun j hj => ?_⟩, hleft, hright⟩
  · have hfree : ∀ part : List (Join M Row), (∀ j ∈ part, j ∈ all) →
        n ∉ part.map Join.target := by
      intro part hsub hmem
      obtain ⟨j, hj, heq⟩ := List.mem_map.mp hmem
      exact hn (List.mem_map.mpr ⟨j, hsub j hj, heq⟩)
    dsimp only
    rw [h.1 n (hfree joins fun j hj => (hall j).mpr (.inl hj)),
      h'.1 n (hfree joins' fun j hj => (hall j).mpr (.inr hj)), Option.or_self]
  · rcases (hall j).mp hj with hj | hj
    · exact (h.2 j hj).mono hleft
    · exact (h'.2 j hj).mono hright

end Fits

end Environments

end TicketBooking.Library.Joins
