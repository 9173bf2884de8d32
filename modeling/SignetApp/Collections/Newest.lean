import SignetApp.Collections.OrderedMap

/-!
# Bounded stamped maps

A map whose values carry a stamp, joined with another by keeping the later value of each key, then
cut back to the `limit` latest entries. Cutting loses entries, so joining twice is not joining once
in general; it is when the second map is the same (`newest_absorb_newest`): an entry that was cut
is behind every entry that was kept.
-/

namespace SignetApp.OrderedMap

variable {κ α τ : Type} [LinearOrder τ] (stamp : α → τ)

/-! ## The order of entries -/

section

variable [LinearOrder κ]

/-- Later stamps first, then smaller keys. -/
def Ahead (e f : κ × α) : Prop := stamp f.2 < stamp e.2 ∨ (stamp f.2 = stamp e.2 ∧ e.1 ≤ f.1)

instance decidableAhead : DecidableRel (Ahead stamp (κ := κ)) :=
  fun _ _ => inferInstanceAs (Decidable (_ ∨ (_ ∧ _)))

variable {e f : κ × α}

theorem ahead_trans {g : κ × α} (hef : Ahead stamp e f) (hfg : Ahead stamp f g) :
    Ahead stamp e g := by
  obtain hef | ⟨hef, hkef⟩ := hef
  · obtain hfg | ⟨hfg, _⟩ := hfg
    · exact .inl (hfg.trans hef)
    · exact .inl (hfg.trans_lt hef)
  · obtain hfg | ⟨hfg, hkfg⟩ := hfg
    · exact .inl (hfg.trans_eq hef)
    · exact .inr ⟨hfg.trans hef, hkef.trans hkfg⟩

theorem ahead_total (e f : κ × α) : Ahead stamp e f ∨ Ahead stamp f e := by
  obtain h | h | h := lt_trichotomy (stamp e.2) (stamp f.2)
  · exact .inr (.inl h)
  · obtain hk | hk := le_total e.1 f.1
    · exact .inl (.inr ⟨h.symm, hk⟩)
    · exact .inr (.inr ⟨h, hk⟩)
  · exact .inl (.inl h)

instance totalAhead : Std.Total (Ahead stamp (κ := κ)) := ⟨ahead_total stamp⟩

instance transAhead : IsTrans (κ × α) (Ahead stamp) := ⟨fun _ _ _ => ahead_trans stamp⟩

theorem fst_eq_of_ahead (hef : Ahead stamp e f) (hfe : Ahead stamp f e) : e.1 = f.1 := by
  obtain hef | ⟨heq, hkef⟩ := hef
  · obtain hfe | ⟨hfe, _⟩ := hfe
    · exact absurd hef hfe.asymm
    · exact absurd hef hfe.not_gt
  · obtain hfe | ⟨_, hkfe⟩ := hfe
    · exact absurd hfe heq.not_gt
    · exact hkef.antisymm hkfe

/-! ## Cutting a map back -/

/-- The `limit` latest entries, in order. -/
def newest (limit : ℕ) (m : OrderedMap κ α) : OrderedMap κ α where
  entries := (m.entries.insertionSort (Ahead stamp)).take limit
  nodup := by
    have hperm := (List.perm_insertionSort (Ahead stamp) m.entries).map Prod.fst
    exact (hperm.nodup_iff.mpr m.nodup).sublist ((List.take_sublist _ _).map _)

theorem length_newest_le (limit : ℕ) (m : OrderedMap κ α) :
    (newest stamp limit m).entries.length ≤ limit := List.length_take_le _ _

theorem pairwise_newest (limit : ℕ) (m : OrderedMap κ α) :
    (newest stamp limit m).entries.Pairwise (Ahead stamp) :=
  (List.pairwise_insertionSort _ _).sublist (List.take_sublist _ _)

variable {m : OrderedMap κ α} {limit : ℕ}

theorem mem_of_mem_newest (h : e ∈ (newest stamp limit m).entries) : e ∈ m.entries :=
  (List.mem_insertionSort _).mp (List.mem_of_mem_take h)

theorem ahead_of_cut (he : e ∈ (newest stamp limit m).entries) (hf : f ∈ m.entries)
    (hcut : f ∉ (newest stamp limit m).entries) : Ahead stamp e f := by
  have hsplit := List.take_append_drop limit (m.entries.insertionSort (Ahead stamp))
  have hsorted := List.pairwise_insertionSort (Ahead stamp) m.entries
  rw [← hsplit, List.pairwise_append] at hsorted
  have hmem := (List.mem_insertionSort (Ahead stamp)).mpr hf
  rw [← hsplit, List.mem_append] at hmem
  exact hsorted.2.2 e he f (hmem.resolve_left hcut)

theorem length_of_cut (hf : f ∈ m.entries) (hcut : f ∉ (newest stamp limit m).entries) :
    (newest stamp limit m).entries.length = limit := by
  have hmem := (List.mem_insertionSort (Ahead stamp)).mpr hf
  show ((m.entries.insertionSort (Ahead stamp)).take limit).length = limit
  rw [List.length_take]
  apply Nat.min_eq_left
  apply Nat.le_of_not_lt
  intro hlt
  apply hcut
  show f ∈ (m.entries.insertionSort (Ahead stamp)).take limit
  rwa [List.take_of_length_le hlt.le]

theorem newest_eq_of_perm {t : OrderedMap κ α} {rest : List (κ × α)}
    (hperm : m.entries.Perm (t.entries ++ rest)) (hsorted : t.entries.Pairwise (Ahead stamp))
    (hbehind : ∀ e ∈ t.entries, ∀ f ∈ rest, Ahead stamp e f)
    (hlen : t.entries.length ≤ limit) (hfull : rest = [] ∨ t.entries.length = limit) :
    newest stamp limit m = t := by
  have hsort : m.entries.insertionSort (Ahead stamp)
      = t.entries ++ rest.insertionSort (Ahead stamp) := by
    have hl := List.perm_insertionSort (Ahead stamp) m.entries
    have hr := (List.perm_insertionSort (Ahead stamp) rest).append_left t.entries
    apply List.Perm.eq_of_pairwise _ (List.pairwise_insertionSort _ _)
      (List.pairwise_append.mpr ⟨hsorted, List.pairwise_insertionSort _ _, fun e he f hf =>
        hbehind e he f ((List.mem_insertionSort _).mp hf)⟩)
      (hl.trans (hperm.trans hr.symm))
    -- The keys of a map are distinct, so entries ahead of each other are one entry.
    intro e f he hf hef hfe
    have he' := (List.mem_insertionSort _).mp he
    have hf' := hperm.symm.subset (hr.subset hf)
    exact List.inj_on_of_nodup_map m.nodup he' hf' (fst_eq_of_ahead stamp hef hfe)
  apply OrderedMap.ext
  show (m.entries.insertionSort (Ahead stamp)).take limit = t.entries
  rw [hsort]
  obtain hnil | hfull := hfull
  · rw [hnil, List.insertionSort_nil, List.append_nil, List.take_of_length_le hlen]
  · rw [← hfull, List.take_left']
    rfl

@[simp] theorem newest_newest (limit : ℕ) (m : OrderedMap κ α) :
    newest stamp limit (newest stamp limit m) = newest stamp limit m :=
  newest_eq_of_perm stamp (by rw [List.append_nil]) (pairwise_newest stamp limit m)
    (fun _ _ _ hf => absurd hf List.not_mem_nil) (length_newest_le stamp limit m) (.inl rfl)

end

/-! ## Joining two maps -/

section

variable [DecidableEq κ]

/-- The later of two values, the first where the stamps tie. -/
def later : Option α → Option α → Option α
  | some a, some b => if stamp a < stamp b then some b else some a
  | some a, none => some a
  | none, b => b

/-- The entry of another map, taken unless this map has one as late. -/
def absorbEntry (m : OrderedMap κ α) (e : κ × α) : OrderedMap κ α :=
  match m.get e.1 with
  | some a => if stamp a < stamp e.2 then m.set e.1 e.2 else m
  | none => m.set e.1 e.2

/-- Every key of either map, with its later value. -/
def absorb (m n : OrderedMap κ α) : OrderedMap κ α := n.entries.foldl (absorbEntry stamp) m

theorem get_absorbEntry (m : OrderedMap κ α) (e : κ × α) (k : κ) :
    (absorbEntry stamp m e).get k = if k = e.1 then later stamp (m.get k) (some e.2) else m.get k := by
  unfold absorbEntry
  by_cases hk : k = e.1
  · subst hk
    rw [if_pos rfl]
    cases h : m.get e.1 with
    | none => simp [later]
    | some a =>
      simp only [later]
      split
      · exact get_set_self m e.1 e.2
      · exact h
  · rw [if_neg hk]
    split
    · split
      · exact get_set_of_ne m e.2 hk
      · rfl
    · exact get_set_of_ne m e.2 hk

theorem later_none_right (a : Option α) : later stamp a none = a := by cases a <;> rfl

theorem get_foldl_absorbEntry {l : List (κ × α)} (hl : (l.map Prod.fst).Nodup)
    (m : OrderedMap κ α) (k : κ) :
    (l.foldl (absorbEntry stamp) m).get k = later stamp (m.get k) (l.lookup k) := by
  induction l generalizing m with
  | nil => exact (later_none_right stamp _).symm
  | cons e rest ih =>
    rw [List.map_cons, List.nodup_cons] at hl
    rw [List.foldl_cons, ih hl.2, get_absorbEntry, List.lookup_cons]
    by_cases hk : k = e.1
    · -- The key does not occur again.
      have hrest : rest.lookup k = none := by
        rw [List.lookup_eq_none_iff]
        intro p hp
        have hne : p.1 ≠ e.1 := fun h => hl.1 (h ▸ List.mem_map_of_mem hp)
        simpa [hk] using hne.symm
      rw [if_pos hk, hrest, later_none_right]
      simp [hk]
    · have hb : (k == e.1) = false := by simpa using hk
      rw [if_neg hk, hb]

theorem get_absorb (m n : OrderedMap κ α) (k : κ) :
    (absorb stamp m n).get k = later stamp (m.get k) (n.get k) :=
  get_foldl_absorbEntry stamp n.nodup m k

@[simp] theorem later_later (a b : Option α) :
    later stamp (later stamp a b) b = later stamp a b := by
  cases a with
  | none => cases b <;> simp [later]
  | some a =>
    cases b with
    | none => rfl
    | some b =>
      by_cases h : stamp a < stamp b
      · simp [later, h]
      · simp [later, h]

theorem foldl_absorbEntry_eq_self {m : OrderedMap κ α} {l : List (κ × α)}
    (h : ∀ e ∈ l, ∃ a, m.get e.1 = some a ∧ ¬ stamp a < stamp e.2) :
    l.foldl (absorbEntry stamp) m = m := by
  induction l with
  | nil => rfl
  | cons e rest ih =>
    obtain ⟨a, hget, hlt⟩ := h e List.mem_cons_self
    have hstep : absorbEntry stamp m e = m := by simp only [absorbEntry, hget, if_neg hlt]
    rw [List.foldl_cons, hstep]
    exact ih fun f hf => h f (List.mem_cons_of_mem e hf)

@[simp] theorem absorb_self (m : OrderedMap κ α) : absorb stamp m m = m :=
  foldl_absorbEntry_eq_self stamp fun _ he => ⟨_, mem_entries_iff.mp he, lt_irrefl _⟩

end

/-- **Joining the same map again, cutting back each time, changes nothing.** -/
theorem newest_absorb_newest [DecidableEq κ] [LinearOrder κ] (limit : ℕ) (m n : OrderedMap κ α) :
    newest stamp limit (absorb stamp (newest stamp limit (absorb stamp m n)) n)
      = newest stamp limit (absorb stamp m n) := by
  set u := absorb stamp m n with hu
  set t := newest stamp limit u with ht
  -- An entry of `n` whose key was cut is behind the entry that was cut.
  have hcut : ∀ f ∈ n.entries, f.1 ∉ t.keys → ∃ g ∈ u.entries, g ∉ t.entries ∧ Ahead stamp g f := by
    intro f hf hkey
    have hget : u.get f.1 = later stamp (m.get f.1) (some f.2) := by
      rw [hu, get_absorb, mem_entries_iff.mp hf]
    have hkeep : ∀ g : κ × α, g.1 = f.1 → g ∉ t.entries := fun g hg hmem =>
      hkey (hg ▸ List.mem_map_of_mem hmem)
    cases hm : m.get f.1 with
    | none =>
      rw [hm] at hget
      exact ⟨f, mem_entries_iff.mpr hget, hkeep f rfl, .inr ⟨rfl, le_rfl⟩⟩
    | some a =>
      rw [hm, later] at hget
      split at hget
      · exact ⟨f, mem_entries_iff.mpr hget, hkeep f rfl, .inr ⟨rfl, le_rfl⟩⟩
      · next hle =>
        refine ⟨(f.1, a), mem_entries_iff.mpr hget, hkeep _ rfl, ?_⟩
        obtain hlt | heq := (not_lt.mp hle).lt_or_eq
        · exact .inl hlt
        · exact .inr ⟨heq, le_rfl⟩
  have hget : ∀ k, (absorb stamp t n).get k = if k ∈ t.keys then t.get k else n.get k := by
    intro k
    rw [get_absorb]
    by_cases hk : k ∈ t.keys
    · obtain ⟨a, ha⟩ := Option.isSome_iff_exists.mp (mem_keys_iff.mp hk)
      have hua : u.get k = some a := mem_entries_iff.mp (mem_of_mem_newest stamp (mem_entries_iff.mpr ha))
      rw [if_pos hk, ha, ← hua, hu, get_absorb, later_later]
    · rw [if_neg hk, get_eq_none_iff.mpr hk]
      cases n.get k <;> rfl
  have hperm : (absorb stamp t n).entries.Perm
      (t.entries ++ n.entries.filter fun e => e.1 ∉ t.keys) := by
    have hdisjoint : (t.entries ++ n.entries.filter fun e => e.1 ∉ t.keys).Nodup := by
      rw [List.nodup_append]
      refine ⟨t.nodup.of_map, n.nodup.of_map.filter _, fun e he f hf hef => ?_⟩
      have hkey := (List.mem_filter.mp hf).2
      rw [decide_eq_true_eq] at hkey
      exact hkey (hef ▸ List.mem_map_of_mem he)
    rw [List.perm_ext_iff_of_nodup (absorb stamp t n).nodup.of_map hdisjoint]
    rintro ⟨k, a⟩
    rw [List.mem_append, List.mem_filter, mem_entries_iff, hget, mem_entries_iff, mem_entries_iff]
    by_cases hk : k ∈ t.keys
    · simp [hk]
    · simp [hk, get_eq_none_iff.mpr hk]
  apply newest_eq_of_perm stamp hperm (pairwise_newest stamp limit u)
  · intro e he f hf
    obtain ⟨hf, hkey⟩ := List.mem_filter.mp hf
    obtain ⟨g, hg, hgt, hgf⟩ := hcut f hf (of_decide_eq_true hkey)
    exact ahead_trans stamp (ahead_of_cut stamp he hg hgt) hgf
  · exact length_newest_le stamp limit u
  · cases hrest : n.entries.filter fun e => e.1 ∉ t.keys with
    | nil => exact .inl rfl
    | cons f rest =>
      have hf : f ∈ n.entries.filter fun e => e.1 ∉ t.keys := hrest ▸ List.mem_cons_self
      obtain ⟨hf, hkey⟩ := List.mem_filter.mp hf
      obtain ⟨g, hg, hgt, _⟩ := hcut f hf (of_decide_eq_true hkey)
      exact .inr (length_of_cut stamp hg hgt)

end SignetApp.OrderedMap
