import Mathlib

/-!
# Insertion-ordered maps

The `Map` of JavaScript: iteration follows the order in which keys were first set, and setting a
key that is present keeps its place. Keys are compared by equality.
-/

namespace SignetApp

/-- A finite map whose entries are listed in insertion order. -/
@[ext]
structure OrderedMap (κ α : Type) where
  entries : List (κ × α)
  nodup : (entries.map Prod.fst).Nodup

namespace OrderedMap

variable {κ α : Type} [DecidableEq κ]

instance [DecidableEq α] : DecidableEq (OrderedMap κ α) := fun m n =>
  decidable_of_iff (m.entries = n.entries) ⟨OrderedMap.ext, fun h => h ▸ rfl⟩

def empty : OrderedMap κ α := ⟨[], List.nodup_nil⟩

/-- The keys, in insertion order. -/
def keys (m : OrderedMap κ α) : List κ := m.entries.map Prod.fst

/-- The value at a key. -/
def get (m : OrderedMap κ α) (k : κ) : Option α := m.entries.lookup k

/-- Is the key present? -/
def has (m : OrderedMap κ α) (k : κ) : Bool := (m.get k).isSome

/-- Replace the value of a key in place, or append it. -/
def setEntries (k : κ) (a : α) : List (κ × α) → List (κ × α)
  | [] => [(k, a)]
  | (l, b) :: rest => if l = k then (k, a) :: rest else (l, b) :: setEntries k a rest

theorem map_fst_setEntries (k : κ) (a : α) : ∀ l : List (κ × α),
    (setEntries k a l).map Prod.fst
      = if k ∈ l.map Prod.fst then l.map Prod.fst else l.map Prod.fst ++ [k]
  | [] => by simp [setEntries]
  | (l, b) :: rest => by
    have ih := map_fst_setEntries k a rest
    by_cases hlk : l = k
    · simp [setEntries, hlk]
    · have hkl : ¬ k = l := fun h => hlk h.symm
      by_cases hm : k ∈ rest.map Prod.fst
      · rw [if_pos hm] at ih
        simp only [setEntries, if_neg hlk, List.map_cons, ih]
        rw [if_pos (List.mem_cons_of_mem _ hm)]
      · rw [if_neg hm] at ih
        have hm' : k ∉ l :: rest.map Prod.fst := by
          rintro (_ | ⟨_, h⟩)
          · exact hkl rfl
          · exact hm h
        simp only [setEntries, if_neg hlk, List.map_cons, ih]
        rw [if_neg hm', List.cons_append]

/-- `m.set(k, a)`. -/
def set (m : OrderedMap κ α) (k : κ) (a : α) : OrderedMap κ α where
  entries := setEntries k a m.entries
  nodup := by
    rw [map_fst_setEntries]
    split
    · exact m.nodup
    · next h => exact List.nodup_append.mpr ⟨m.nodup, List.pairwise_singleton _ k, by
        intro x hx y hy hxy
        rw [List.mem_singleton] at hy
        exact h (hy ▸ hxy ▸ hx)⟩

/-! ## Lookup -/

variable {k : κ}

theorem mem_iff_lookup {l : List (κ × α)} (hl : (l.map Prod.fst).Nodup) {a : α} :
    (k, a) ∈ l ↔ l.lookup k = some a := by
  induction l with
  | nil => simp
  | cons e rest ih =>
    obtain ⟨l, b⟩ := e
    simp only [List.map_cons, List.nodup_cons] at hl
    rw [List.lookup_cons]
    by_cases h : k = l
    · subst h
      have hk : (k, a) ∉ rest := fun hm => hl.1 (List.mem_map.mpr ⟨_, hm, rfl⟩)
      simp [hk, eq_comm]
    · have hb : (k == l) = false := by simpa using h
      simp [hb, h, ih hl.2]

variable {m : OrderedMap κ α}

theorem mem_entries_iff {a : α} :
    (k, a) ∈ m.entries ↔ m.get k = some a := mem_iff_lookup m.nodup

@[simp] theorem get_empty (k : κ) : (empty : OrderedMap κ α).get k = none := rfl

theorem lookup_setEntries (k k' : κ) (a : α) (l : List (κ × α)) :
    (setEntries k a l).lookup k' = if k' = k then some a else l.lookup k' := by
  induction l with
  | nil =>
    by_cases h : k' = k
    · simp [setEntries, h]
    · simp [setEntries, h]
  | cons e rest ih =>
    obtain ⟨l, b⟩ := e
    by_cases hlk : l = k
    · subst hlk
      by_cases h : k' = l
      · simp [setEntries, h]
      · have hb : (k' == l) = false := by simpa using h
        simp [setEntries, List.lookup_cons, hb, h]
    · simp only [setEntries, if_neg hlk, List.lookup_cons]
      by_cases h : k' = l
      · have hne : ¬ l = k := hlk
        simp [h, hne]
      · have hb : (k' == l) = false := by simpa using h
        simp [hb, ih]

theorem get_set (m : OrderedMap κ α) (k k' : κ) (a : α) :
    (m.set k a).get k' = if k' = k then some a else m.get k' :=
  lookup_setEntries k k' a m.entries

@[simp] theorem get_set_self (m : OrderedMap κ α) (k : κ) (a : α) :
    (m.set k a).get k = some a := by rw [get_set, if_pos rfl]

theorem get_set_of_ne (m : OrderedMap κ α) {k' : κ} (a : α) (h : k' ≠ k) :
    (m.set k a).get k' = m.get k' := by rw [get_set, if_neg h]

/-! ## Keys -/

omit [DecidableEq κ] in
@[simp] theorem keys_empty : (empty : OrderedMap κ α).keys = [] := rfl

omit [DecidableEq κ] in
theorem nodup_keys (m : OrderedMap κ α) : m.keys.Nodup := m.nodup

theorem mem_keys_iff : k ∈ m.keys ↔ (m.get k).isSome := by
  rw [Option.isSome_iff_exists, keys, List.mem_map]
  constructor
  · rintro ⟨⟨l, a⟩, hm, rfl⟩
    exact ⟨a, mem_entries_iff.mp hm⟩
  · rintro ⟨a, ha⟩
    exact ⟨(k, a), mem_entries_iff.mpr ha, rfl⟩

theorem has_eq_true_iff : m.has k = true ↔ k ∈ m.keys :=
  mem_keys_iff.symm

theorem get_eq_none_iff : m.get k = none ↔ k ∉ m.keys := by
  rw [mem_keys_iff]
  cases m.get k <;> simp

theorem keys_set (m : OrderedMap κ α) (k : κ) (a : α) :
    (m.set k a).keys = if k ∈ m.keys then m.keys else m.keys ++ [k] :=
  map_fst_setEntries k a m.entries

theorem get_foldl_set (f : κ → α) (ks : List κ) (m : OrderedMap κ α) (k : κ) :
    (ks.foldl (fun n k' => n.set k' (f k')) m).get k = if k ∈ ks then some (f k) else m.get k := by
  induction ks generalizing m with
  | nil => simp
  | cons k' ks ih =>
    rw [List.foldl_cons, ih, get_set]
    by_cases hmem : k ∈ ks
    · simp [hmem]
    · by_cases hk : k = k'
      · simp [hk]
      · simp [hmem, hk]

theorem setEntries_of_not_mem (a : α) {l : List (κ × α)} (h : k ∉ l.map Prod.fst) :
    setEntries k a l = l ++ [(k, a)] := by
  induction l with
  | nil => rfl
  | cons e rest ih =>
    rw [List.map_cons, List.mem_cons, not_or] at h
    rw [setEntries, if_neg (Ne.symm h.1), ih h.2, List.cons_append]

theorem entries_foldl_set {key : α → κ} {as : List α} (h : (as.map key).Nodup) :
    (as.foldl (fun m a => m.set (key a) a) empty).entries = as.map fun a => (key a, a) := by
  have hfold : ∀ (as : List α) (m : OrderedMap κ α), (m.keys ++ as.map key).Nodup →
      (as.foldl (fun m a => m.set (key a) a) m).entries
        = m.entries ++ as.map fun a => (key a, a) := by
    intro as
    induction as with
    | nil => intro m _; simp
    | cons a as ih =>
      intro m hm
      have hnew : key a ∉ m.keys := fun hmem =>
        (List.nodup_append.mp hm).2.2 _ hmem _ List.mem_cons_self rfl
      have hset : (m.set (key a) a).entries = m.entries ++ [(key a, a)] :=
        setEntries_of_not_mem a hnew
      rw [List.foldl_cons, ih _ (by rw [keys_set, if_neg hnew]; simpa using hm), hset]
      simp
  exact hfold as empty (by simpa using h)

/-! ## Changing every value -/

/-- Rewrite each value, in place. -/
def mapEntries (m : OrderedMap κ α) (f : κ → α → α) : OrderedMap κ α where
  entries := m.entries.map fun e => (e.1, f e.1 e.2)
  nodup := by
    have h : (m.entries.map fun e => (e.1, f e.1 e.2)).map Prod.fst = m.entries.map Prod.fst := by
      rw [List.map_map]; rfl
    rw [h]
    exact m.nodup

theorem get_mapEntries (m : OrderedMap κ α) (f : κ → α → α) (k : κ) :
    (m.mapEntries f).get k = (m.get k).map (f k) := by
  simp only [get, mapEntries]
  generalize m.entries = l
  induction l with
  | nil => rfl
  | cons e rest ih =>
    obtain ⟨l, b⟩ := e
    by_cases h : k = l
    · simp [h]
    · have hb : (k == l) = false := by simpa using h
      simp [List.lookup_cons, hb, ih]

omit [DecidableEq κ] in
@[simp] theorem keys_mapEntries (m : OrderedMap κ α) (f : κ → α → α) :
    (m.mapEntries f).keys = m.keys := by
  simp only [keys, mapEntries, List.map_map]
  rfl

theorem entries_eq_filterMap (m : OrderedMap κ α) :
    m.entries = m.keys.filterMap fun k => (m.get k).map (Prod.mk k) := by
  rw [keys, List.filterMap_map]
  have h : ∀ e ∈ m.entries, ((fun k => (m.get k).map (Prod.mk k)) ∘ Prod.fst) e = some e := by
    rintro ⟨k, a⟩ he
    simp [mem_entries_iff.mp he]
  rw [List.filterMap_congr h, List.filterMap_some]

theorem filter_entries_eq {p : κ → Bool} {n : OrderedMap κ α} (hkeys : m.keys.filter p = n.keys)
    (hget : ∀ k ∈ n.keys, m.get k = n.get k) : m.entries.filter (fun e => p e.1) = n.entries := by
  have hpart : m.entries.filter (fun e => p e.1)
      = (m.keys.filter p).filterMap fun k => (m.get k).map (Prod.mk k) := by
    conv_lhs => rw [entries_eq_filterMap m]
    rw [List.filter_filterMap, List.filterMap_filter]
    refine List.filterMap_congr fun k _ => ?_
    cases m.get k <;> by_cases hp : p k = true <;> simp [hp, Option.filter]
  rw [hpart, hkeys, entries_eq_filterMap n]
  exact List.filterMap_congr fun k hk => by rw [hget k hk]

end OrderedMap

/-! ## Insertion-ordered sets -/

section Sets

variable {α : Type} [DecidableEq α]

/-- `set.add(a)`: a member keeps its place. -/
def insertNew (as : List α) (a : α) : List α := if a ∈ as then as else as ++ [a]

theorem mem_insertNew {as : List α} {a b : α} : b ∈ insertNew as a ↔ b ∈ as ∨ b = a := by
  unfold insertNew
  split
  · next h => exact ⟨.inl, fun | .inl hb => hb | .inr hb => hb ▸ h⟩
  · simp

/-- `[...new Set(as)]`: the first occurrence of each element. -/
def distinct (as : List α) : List α := as.foldl insertNew []

theorem distinct_concat (as : List α) (a : α) :
    distinct (as ++ [a]) = insertNew (distinct as) a := List.foldl_append

theorem mem_distinct {as : List α} {a : α} : a ∈ distinct as ↔ a ∈ as := by
  induction as using List.reverseRecOn with
  | nil => rfl
  | append_singleton as b ih =>
    rw [distinct_concat, mem_insertNew, ih, List.mem_append, List.mem_singleton]

theorem nodup_distinct (as : List α) : (distinct as).Nodup := by
  induction as using List.reverseRecOn with
  | nil => exact List.nodup_nil
  | append_singleton as a ih =>
    rw [distinct_concat, insertNew]
    split
    · exact ih
    · next h => exact List.nodup_append.mpr ⟨ih, List.nodup_singleton a, by grind⟩

theorem filter_distinct (p : α → Bool) (as : List α) :
    (distinct as).filter p = distinct (as.filter p) := by
  induction as using List.reverseRecOn with
  | nil => rfl
  | append_singleton as a ih =>
    rw [distinct_concat, List.filter_append]
    by_cases hp : p a = true
    · rw [List.filter_cons_of_pos hp, List.filter_nil, distinct_concat, ← ih]
      unfold insertNew
      by_cases hmem : a ∈ distinct as
      · rw [if_pos hmem, if_pos (List.mem_filter.mpr ⟨hmem, hp⟩)]
      · rw [if_neg hmem, if_neg fun h => hmem (List.mem_of_mem_filter h), List.filter_append,
          List.filter_cons_of_pos hp, List.filter_nil]
    · rw [List.filter_cons_of_neg hp, List.filter_nil, List.append_nil, ← ih]
      unfold insertNew
      split
      · rfl
      · rw [List.filter_append, List.filter_cons_of_neg hp, List.filter_nil, List.append_nil]

theorem length_insertNew_le (as : List α) (a : α) : (insertNew as a).length ≤ as.length + 1 := by
  unfold insertNew
  split <;> simp

theorem find?_distinct (p : α → Bool) (as : List α) : (distinct as).find? p = as.find? p := by
  induction as using List.reverseRecOn with
  | nil => rfl
  | append_singleton as a ih =>
    rw [distinct_concat, List.find?_append, ← ih, insertNew]
    split
    · next hmem =>
      by_cases hp : p a = true
      · have hsome : ((distinct as).find? p).isSome = true := List.find?_isSome.mpr ⟨a, hmem, hp⟩
        rw [Option.or_of_isSome hsome]
      · simp [hp]
    · rw [List.find?_append]

theorem length_distinct_le (as : List α) : (distinct as).length ≤ as.length := by
  have h : ∀ (bs acc : List α), (bs.foldl insertNew acc).length ≤ acc.length + bs.length := by
    intro bs
    induction bs with
    | nil => intro acc; simp
    | cons b bs ih =>
      intro acc
      have h₁ := ih (insertNew acc b)
      have h₂ := length_insertNew_le acc b
      rw [List.foldl_cons, List.length_cons]
      omega
  simpa [distinct] using h as []

end Sets

/-- Rewrite the first element that satisfies `p`. -/
def modifyFirst {α : Type} (p : α → Bool) (f : α → α) : List α → List α
  | [] => []
  | a :: as => if p a then f a :: as else a :: modifyFirst p f as

theorem map_modifyFirst {α β : Type} {p : α → Bool} {f : α → α} {g : α → β}
    (h : ∀ a, g (f a) = g a) (as : List α) : (modifyFirst p f as).map g = as.map g := by
  induction as with
  | nil => rfl
  | cons a as ih =>
    unfold modifyFirst
    split
    · rw [List.map_cons, List.map_cons, h]
    · rw [List.map_cons, List.map_cons, ih]

end SignetApp
