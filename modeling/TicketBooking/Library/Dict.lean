import Mathlib.Data.List.Induction
/-!
# Insertion-ordered dictionaries

A dictionary is a list of key-value pairs.  Assigning to a key that is present
replaces its value where it stands; a new key goes to the end.
-/

namespace TicketBooking.Library.Dict

variable {κ α : Type*} [DecidableEq κ]

/-- `d[k] = v`. -/
def set (k : κ) (v : α) : List (κ × α) → List (κ × α)
  | [] => [(k, v)]
  | (k', v') :: rest => if k' = k then (k, v) :: rest else (k', v') :: set k v rest

/-- `d.get(k)`. -/
def get (k : κ) : List (κ × α) → Option α
  | [] => none
  | (k', v') :: rest => if k' = k then some v' else get k rest

/-- `d.pop(k, None)`. -/
def erase (k : κ) (d : List (κ × α)) : List (κ × α) := d.filter fun kv => kv.1 ≠ k

/-- `{key(x): value(x) for x in xs}`. -/
def ofList {β : Type*} (key : β → κ) (value : β → α) (xs : List β) : List (κ × α) :=
  xs.foldl (fun d x => set (key x) (value x) d) []

/-- `d.update(e)`. -/
def update (d e : List (κ × α)) : List (κ × α) := e.foldl (fun d kv => set kv.1 kv.2 d) d

theorem get_set (k k' : κ) (v : α) (d : List (κ × α)) :
    get k' (set k v d) = if k = k' then some v else get k' d := by
  induction d with
  | nil => simp [set, get]
  | cons kv rest ih =>
      obtain ⟨k₀, v₀⟩ := kv
      by_cases h₀ : k₀ = k
      · subst h₀
        by_cases h : k₀ = k' <;> simp [set, get, h]
      · by_cases h : k₀ = k'
        · subst h
          simp [set, get, h₀, Ne.symm h₀]
        · simp [set, get, h₀, h, ih]

theorem mem_of_get {k : κ} {v : α} {d : List (κ × α)} (h : get k d = some v) : (k, v) ∈ d := by
  induction d with
  | nil => cases h
  | cons kv rest ih =>
      obtain ⟨k₀, v₀⟩ := kv
      by_cases h₀ : k₀ = k
      · subst h₀
        rw [get, if_pos rfl] at h
        cases h
        exact List.mem_cons_self
      · rw [get, if_neg h₀] at h
        exact List.mem_cons_of_mem _ (ih h)

theorem get_eq_none {k : κ} {d : List (κ × α)} (h : k ∉ d.map Prod.fst) : get k d = none := by
  cases hget : get k d with
  | none => rfl
  | some v => exact absurd (List.mem_map_of_mem (mem_of_get hget)) h

theorem exists_get {k : κ} {d : List (κ × α)} (h : k ∈ d.map Prod.fst) :
    ∃ v, get k d = some v := by
  induction d with
  | nil => cases h
  | cons kv rest ih =>
      obtain ⟨k', v'⟩ := kv
      by_cases hkey : k' = k
      · exact ⟨v', if_pos hkey⟩
      · obtain ⟨v, hv⟩ := ih ((List.mem_cons.mp h).resolve_left fun heq => hkey heq.symm)
        exact ⟨v, (if_neg hkey).trans hv⟩

theorem get_of_mem {k : κ} {v : α} {d : List (κ × α)} (hkeys : (d.map Prod.fst).Nodup)
    (h : (k, v) ∈ d) : get k d = some v := by
  induction d with
  | nil => cases h
  | cons kv rest ih =>
      rw [List.map_cons, List.nodup_cons] at hkeys
      rcases List.mem_cons.mp h with rfl | h
      · exact if_pos rfl
      · have hne : kv.1 ≠ k := by
          rintro rfl
          exact hkeys.1 (List.mem_map.mpr ⟨_, h, rfl⟩)
        exact (if_neg hne).trans (ih hkeys.2 h)

theorem mem_set_self (k : κ) (v : α) (d : List (κ × α)) : (k, v) ∈ set k v d :=
  mem_of_get (by rw [get_set, if_pos rfl])

theorem of_mem_set {k : κ} {v : α} {d : List (κ × α)} {kv : κ × α} (h : kv ∈ set k v d) :
    kv = (k, v) ∨ kv ∈ d := by
  induction d with
  | nil => exact .inl (List.mem_singleton.mp h)
  | cons kv₀ rest ih =>
      obtain ⟨k₀, v₀⟩ := kv₀
      by_cases h₀ : k₀ = k
      · rw [set, if_pos h₀] at h
        rcases List.mem_cons.mp h with rfl | h
        · exact .inl rfl
        · exact .inr (List.mem_cons_of_mem _ h)
      · rw [set, if_neg h₀] at h
        rcases List.mem_cons.mp h with rfl | h
        · exact .inr List.mem_cons_self
        · exact (ih h).imp_right (List.mem_cons_of_mem _)

theorem mem_set_of_ne {k : κ} {v : α} {d : List (κ × α)} {kv : κ × α} (h : kv ∈ d)
    (hkey : kv.1 ≠ k) : kv ∈ set k v d := by
  induction d with
  | nil => cases h
  | cons kv₀ rest ih =>
      obtain ⟨k₀, v₀⟩ := kv₀
      by_cases h₀ : k₀ = k
      · rw [set, if_pos h₀]
        rcases List.mem_cons.mp h with rfl | h
        · exact absurd h₀ hkey
        · exact List.mem_cons_of_mem _ h
      · rw [set, if_neg h₀]
        rcases List.mem_cons.mp h with rfl | h
        · exact List.mem_cons_self
        · exact List.mem_cons_of_mem _ (ih h)

theorem nodup_set {k : κ} {v : α} {d : List (κ × α)} (h : (d.map Prod.fst).Nodup) :
    ((set k v d).map Prod.fst).Nodup := by
  induction d with
  | nil => simp [set]
  | cons kv rest ih =>
      obtain ⟨k₀, v₀⟩ := kv
      rw [List.map_cons, List.nodup_cons] at h
      by_cases h₀ : k₀ = k
      · subst h₀
        rw [set, if_pos rfl, List.map_cons, List.nodup_cons]
        exact h
      · rw [set, if_neg h₀, List.map_cons, List.nodup_cons]
        refine ⟨fun hmem => ?_, ih h.2⟩
        obtain ⟨kv, hkv, hkey⟩ := List.mem_map.mp hmem
        rcases of_mem_set hkv with rfl | hkv
        · exact h₀ hkey.symm
        · exact h.1 (List.mem_map.mpr ⟨kv, hkv, hkey⟩)

theorem set_of_notMem {k : κ} (v : α) {d : List (κ × α)} (h : k ∉ d.map Prod.fst) :
    set k v d = d ++ [(k, v)] := by
  induction d with
  | nil => rfl
  | cons kv rest ih =>
      rw [List.map_cons, List.mem_cons, not_or] at h
      rw [set, if_neg (Ne.symm h.1), ih h.2, List.cons_append]

/-- New keys go to the end. -/
theorem update_of_disjoint {d e : List (κ × α)} (hkeys : ((d ++ e).map Prod.fst).Nodup) :
    update d e = d ++ e := by
  induction e generalizing d with
  | nil => simp [update]
  | cons kv e ih =>
      have hnew : kv.1 ∉ d.map Prod.fst := by
        rw [List.map_append, List.nodup_append] at hkeys
        intro hmem
        exact hkeys.2.2 _ hmem _ (by simp) rfl
      have hset : update d (kv :: e) = update (d ++ [kv]) e :=
        congrArg (update · e) (set_of_notMem kv.2 hnew)
      rw [hset, ih (by simpa using hkeys)]
      simp

/-- What is updated wins. -/
theorem get_update (k : κ) (d : List (κ × α)) {e : List (κ × α)} (hkeys : (e.map Prod.fst).Nodup) :
    get k (update d e) = (get k e).or (get k d) := by
  induction e generalizing d with
  | nil => rfl
  | cons kv e ih =>
      rw [List.map_cons, List.nodup_cons] at hkeys
      show get k (update (set kv.1 kv.2 d) e) = _
      rw [ih _ hkeys.2, get_set, get]
      split_ifs with hk
      · rw [get_eq_none (hk ▸ hkeys.1)]
        rfl
      · rfl

theorem get_erase (k k' : κ) (d : List (κ × α)) :
    get k' (erase k d) = if k = k' then none else get k' d := by
  induction d with
  | nil => simp [erase, get]
  | cons kv rest ih =>
      obtain ⟨k₀, v₀⟩ := kv
      unfold erase at ih ⊢
      by_cases h₀ : k₀ = k
      · subst h₀
        rw [List.filter_cons_of_neg (by simp), ih]
        split_ifs with h
        · rfl
        · rw [get, if_neg h]
      · rw [List.filter_cons_of_pos (by simpa using h₀), get, get, ih]
        by_cases h : k₀ = k'
        · rw [if_pos h, if_pos h, if_neg fun hk => h₀ (h.trans hk.symm)]
        · rw [if_neg h, if_neg h]

theorem mem_of_mem_erase {k : κ} {d : List (κ × α)} {kv : κ × α} (h : kv ∈ erase k d) : kv ∈ d :=
  (List.mem_filter.mp h).1

section OfList

variable {β : Type*} {key : β → κ} {value : β → α}

theorem ofList_append_single (xs : List β) (x : β) :
    ofList key value (xs ++ [x]) = set (key x) (value x) (ofList key value xs) := by
  simp [ofList]

theorem nodup_ofList (xs : List β) : ((ofList key value xs).map Prod.fst).Nodup := by
  induction xs using List.reverseRecOn with
  | nil => exact List.nodup_nil
  | append_singleton xs x ih =>
      rw [ofList_append_single]
      exact nodup_set ih

theorem of_mem_ofList {xs : List β} {kv : κ × α} (h : kv ∈ ofList key value xs) :
    ∃ x ∈ xs, kv = (key x, value x) := by
  induction xs using List.reverseRecOn with
  | nil => cases h
  | append_singleton xs x ih =>
      rw [ofList_append_single] at h
      rcases of_mem_set h with rfl | h
      · exact ⟨x, by simp, rfl⟩
      · obtain ⟨y, hy, heq⟩ := ih h
        exact ⟨y, by simp [hy], heq⟩

/-- The last element of a key decides it. -/
theorem get_ofList (xs : List β) (k : κ) :
    get k (ofList key value xs) = (xs.reverse.find? fun x => key x = k).map value := by
  induction xs using List.reverseRecOn with
  | nil => rfl
  | append_singleton xs x ih =>
      rw [ofList_append_single, get_set, List.reverse_append, List.reverse_singleton,
        List.singleton_append, List.find?_cons]
      by_cases hk : key x = k
      · simp [hk]
      · simp [hk, ih]

/-- A key of the comprehension is a key of some element, and the value is that
of one such element. -/
theorem get_ofList_eq_some {xs : List β} {k : κ} {v : α}
    (h : get k (ofList key value xs) = some v) : ∃ x ∈ xs, key x = k ∧ value x = v := by
  induction xs using List.reverseRecOn with
  | nil => simp [ofList, get] at h
  | append_singleton xs x ih =>
      rw [ofList_append_single, get_set] at h
      split_ifs at h with hk
      · exact ⟨x, by simp, hk, by simpa using h⟩
      · obtain ⟨y, hy, hyk⟩ := ih h
        exact ⟨y, by simp [hy], hyk⟩

theorem get_ofList_of_mem {xs : List β} {x : β} (h : x ∈ xs) :
    ∃ v, get (key x) (ofList key value xs) = some v := by
  induction xs using List.reverseRecOn with
  | nil => cases h
  | append_singleton xs y ih =>
      rw [ofList_append_single, get_set]
      split_ifs with hk
      · exact ⟨_, rfl⟩
      · rcases List.mem_append.mp h with h | h
        · exact ih h
        · rw [List.mem_singleton.mp h] at hk
          exact absurd rfl hk

/-- `{x: value(x) for x in xs}`. -/
theorem get_ofList_id (value : κ → α) (xs : List κ) (k : κ) :
    get k (ofList (fun x => x) value xs) = if k ∈ xs then some (value k) else none := by
  split_ifs with h
  · obtain ⟨v, hget⟩ := @get_ofList_of_mem κ α _ κ (fun x => x) value xs k h
    obtain ⟨x, -, rfl, rfl⟩ := get_ofList_eq_some hget
    exact hget
  · apply get_eq_none
    intro hmem
    obtain ⟨kv, hkv, rfl⟩ := List.mem_map.mp hmem
    obtain ⟨x, hx, rfl⟩ := of_mem_ofList hkv
    exact h hx

theorem ofList_of_nodup (value : κ → α) {xs : List κ} (h : xs.Nodup) :
    ofList (fun x => x) value xs = xs.map fun x => (x, value x) := by
  have hupdate : ofList (fun x => x) value xs = update [] (xs.map fun x => (x, value x)) := by
    rw [update, List.foldl_map, ofList]
  rw [hupdate, update_of_disjoint (by simpa [Function.comp_def] using h), List.nil_append]

/-- Elements that come later decide the keys they have. -/
theorem get_ofList_append {xs ys : List β} {y : β} (h : y ∈ ys) :
    get (key y) (ofList key value (xs ++ ys)) = get (key y) (ofList key value ys) := by
  induction ys using List.reverseRecOn with
  | nil => cases h
  | append_singleton ys y' ih =>
      rw [← List.append_assoc, ofList_append_single, ofList_append_single, get_set, get_set]
      split_ifs with hkey
      · rfl
      · rcases List.mem_append.mp h with h | h
        · exact ih h
        · exact absurd (List.mem_singleton.mp h ▸ rfl) hkey

end OfList

end TicketBooking.Library.Dict
