import SignetApp.Collections.OrderedMap

/-!
# Lists with one value for each key

A list with one value for each key and the map built from it hold the same. Merging a second list
into the map, value by value, merges the two lists key by key (`foldl_merge`).
-/

namespace SignetApp

variable {κ α : Type} {key : α → κ}

/-- One value for each key. -/
def OneEach (key : α → κ) (as : List α) : Prop := (as.map key).Nodup

/-- Each value is stored under its key. -/
def Keyed (key : α → κ) (m : OrderedMap κ α) : Prop := ∀ e ∈ m.entries, key e.2 = e.1

/-- `Array.from(m.values())`. -/
def OrderedMap.values (m : OrderedMap κ α) : List α := m.entries.map Prod.snd

variable {m : OrderedMap κ α}

theorem oneEach_values (h : Keyed key m) : OneEach key m.values := by
  have hkeys : m.values.map key = m.keys := by
    rw [OrderedMap.values, List.map_map]
    exact List.map_congr_left fun e he => h e he
  rw [OneEach, hkeys]
  exact m.nodup_keys

variable [DecidableEq κ]

/-! ## Lists -/

def valueFor (key : α → κ) (as : List α) (k : κ) : Option α := as.find? fun a => decide (key a = k)

@[simp] theorem valueFor_nil (k : κ) : valueFor key [] k = none := rfl

theorem valueFor_cons (a : α) (as : List α) (k : κ) :
    valueFor key (a :: as) k = if key a = k then some a else valueFor key as k := by
  rw [valueFor, List.find?_cons]
  by_cases h : key a = k <;> simp [h, valueFor]

variable {k : κ} {as : List α}

theorem valueFor_eq_none (h : k ∉ as.map key) : valueFor key as k = none := by
  rw [valueFor, List.find?_eq_none]
  intro a ha hk
  exact h (List.mem_map.mpr ⟨a, ha, of_decide_eq_true hk⟩)

theorem valueFor_eq_some_iff {as : List α} (h : OneEach key as) {k : κ} {a : α} :
    valueFor key as k = some a ↔ a ∈ as ∧ key a = k := by
  induction as with
  | nil => simp
  | cons b as ih =>
    obtain ⟨hnew, has⟩ := List.nodup_cons.mp h
    rw [valueFor_cons, List.mem_cons]
    split
    · next hb =>
      -- No later value has this key.
      have hrest : ∀ c ∈ as, key c ≠ k := fun c hc hk =>
        hnew (List.mem_map.mpr ⟨c, hc, hk.trans hb.symm⟩)
      constructor
      · intro heq
        cases Option.some.inj heq
        exact ⟨.inl rfl, hb⟩
      · rintro ⟨rfl | hmem, hk⟩
        · rfl
        · exact absurd hk (hrest a hmem)
    · next hb =>
      rw [ih has]
      constructor
      · exact fun ⟨hmem, hk⟩ => ⟨.inr hmem, hk⟩
      · rintro ⟨rfl | hmem, hk⟩
        · exact absurd hk hb
        · exact ⟨hmem, hk⟩

variable {a : α}

theorem valueFor_self (h : OneEach key as) (ha : a ∈ as) : valueFor key as (key a) = some a :=
  (valueFor_eq_some_iff h).mpr ⟨ha, rfl⟩

/-! ## Maps -/

/-- The map a list is turned into. -/
def byKey (key : α → κ) (as : List α) : OrderedMap κ α :=
  as.foldl (fun m a => m.set (key a) a) .empty

theorem get_byKey_concat (as : List α) (a : α) (k : κ) :
    (byKey key (as ++ [a])).get k = if k = key a then some a else (byKey key as).get k := by
  rw [byKey, List.foldl_append, List.foldl_cons, List.foldl_nil, OrderedMap.get_set]
  rfl

theorem mem_of_get_byKey (h : (byKey key as).get k = some a) : a ∈ as ∧ key a = k := by
  induction as using List.reverseRecOn with
  | nil => cases h
  | append_singleton as b ih =>
    rw [get_byKey_concat] at h
    split at h
    · next hk =>
      cases h
      exact ⟨List.mem_append_right as List.mem_cons_self, hk.symm⟩
    · obtain ⟨hmem, hk⟩ := ih h
      exact ⟨List.mem_append_left _ hmem, hk⟩

theorem has_byKey : (byKey key as).has k = true ↔ k ∈ as.map key := by
  induction as using List.reverseRecOn with
  | nil => exact ⟨fun h => (by cases h), fun h => (by cases h)⟩
  | append_singleton as b ih =>
    rw [OrderedMap.has] at ih ⊢
    rw [get_byKey_concat, List.map_append, List.mem_append, ← ih]
    split
    · next hk => simp [hk]
    · next hk => simp [hk]

theorem Keyed.of_get (h : Keyed key m) (ha : m.get k = some a) : key a = k :=
  h (k, a) (OrderedMap.mem_entries_iff.mpr ha)

theorem Keyed.set (h : Keyed key m) (hk : key a = k) : Keyed key (m.set k a) := by
  rintro ⟨k', b⟩ hmem
  rw [OrderedMap.mem_entries_iff, OrderedMap.get_set] at hmem
  split at hmem
  · next hkey => rw [← Option.some.inj hmem, hk, hkey]
  · exact h.of_get hmem

theorem valueFor_values (h : Keyed key m) (k : κ) : valueFor key m.values k = m.get k := by
  ext a
  rw [valueFor_eq_some_iff (oneEach_values h), ← OrderedMap.mem_entries_iff]
  constructor
  · rintro ⟨hmem, rfl⟩
    obtain ⟨⟨k, b⟩, hb, rfl⟩ := List.mem_map.mp hmem
    rw [h (k, b) hb]
    exact hb
  · intro hmem
    exact ⟨List.mem_map.mpr ⟨(k, a), hmem, rfl⟩, h (k, a) hmem⟩

theorem values_byKey (h : OneEach key as) : (byKey key as).values = as := by
  rw [OrderedMap.values, byKey, OrderedMap.entries_foldl_set h, List.map_map]
  exact List.map_id as

theorem keyed_byKey (h : OneEach key as) : Keyed key (byKey key as) := by
  intro e he
  rw [byKey, OrderedMap.entries_foldl_set h] at he
  obtain ⟨a, -, rfl⟩ := List.mem_map.mp he
  rfl

theorem get_byKey (h : OneEach key as) (k : κ) : (byKey key as).get k = valueFor key as k := by
  rw [← valueFor_values (keyed_byKey h), values_byKey h]

/-! ## Merging value by value -/

section
variable {σ : Type} {step : σ → α → σ} {mapOf : σ → OrderedMap κ α} {f : α → α → α}

/-- A pass merges one value into the map. -/
def Merges (key : α → κ) (mapOf : σ → OrderedMap κ α) (f : α → α → α) (step : σ → α → σ) : Prop :=
  ∀ s a, Keyed key (mapOf s) → Keyed key (mapOf (step s a)) ∧
    ∀ k, (mapOf (step s a)).get k =
      if k = key a then ((mapOf s).get k).merge f (some a) else (mapOf s).get k

theorem foldl_merge (hstep : Merges key mapOf f step) {as : List α} (has : OneEach key as) {s : σ}
    (hs : Keyed key (mapOf s)) :
    Keyed key (mapOf (as.foldl step s)) ∧
    ∀ k, (mapOf (as.foldl step s)).get k = ((mapOf s).get k).merge f (valueFor key as k) := by
  induction as generalizing s with
  | nil => exact ⟨hs, by simp⟩
  | cons a as ih =>
    obtain ⟨hkeyed, hget⟩ := hstep s a hs
    obtain ⟨hnew, has⟩ := List.nodup_cons.mp has
    obtain ⟨ihKeyed, ihGet⟩ := ih has hkeyed
    refine ⟨ihKeyed, fun k => ?_⟩
    rw [List.foldl_cons, ihGet, hget, valueFor_cons]
    by_cases hk : k = key a
    · rw [if_pos hk, if_pos hk.symm, hk, valueFor_eq_none hnew, Option.merge_none_right]
    · rw [if_neg hk, if_neg (Ne.symm hk)]

end

end SignetApp
