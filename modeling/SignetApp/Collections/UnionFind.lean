import SignetApp.Collections.OrderedMap

/-!
# Union-find over a parent map, with path compression

Classes are kept as a map from elements to parents; an element without a parent, or its own
parent, is a root. Finding a root re-points every element passed on the way at it. Neither rank
nor size is kept: the caller says which root is attached to which.

`Forest.find` is the class view: compression does not change it (`find_root`), and attaching one
class to another redirects exactly that class (`find_link`).
-/

namespace SignetApp

variable {κ : Type} [DecidableEq κ]

/-- An element nothing points on from. -/
def IsRoot (parent : OrderedMap κ κ) (k : κ) : Prop :=
  parent.get k = none ∨ parent.get k = some k

/-- `Climbs parent k n r`: following `n` parent pointers from `k` ends at the root `r`. -/
inductive Climbs (parent : OrderedMap κ κ) : κ → ℕ → κ → Prop
  | root {k} : IsRoot parent k → Climbs parent k 0 k
  | step {k p n r} : parent.get k = some p → p ≠ k → Climbs parent p n r →
      Climbs parent k (n + 1) r

namespace Climbs

variable {parent : OrderedMap κ κ} {k p r s : κ} {m n : ℕ}

theorem isRoot (h : Climbs parent k n r) : IsRoot parent r := by
  induction h with
  | root hr => exact hr
  | step _ _ _ ih => exact ih

theorem unique (h : Climbs parent k m r) (h' : Climbs parent k n s) : m = n ∧ r = s := by
  induction h generalizing n s with
  | root hr =>
    cases h' with
    | root _ => exact ⟨rfl, rfl⟩
    | step hp hne _ => rcases hr with hr | hr <;> rw [hr] at hp <;> cases hp; exact absurd rfl hne
  | step hp hne _ ih =>
    cases h' with
    | root hr => rcases hr with hr | hr <;> rw [hr] at hp <;> cases hp; exact absurd rfl hne
    | step hp' _ h' =>
      rw [hp] at hp'
      cases hp'
      obtain ⟨rfl, rfl⟩ := ih h'
      exact ⟨rfl, rfl⟩

theorem exists_path (h : Climbs parent k n r) :
    ∃ path : List κ, path.length = n ∧ path.Nodup ∧
      ∀ x ∈ path, x ∈ parent.keys ∧ ∃ m, m ≤ n ∧ Climbs parent x m r := by
  induction h with
  | root _ => exact ⟨[], rfl, List.nodup_nil, fun x hx => by cases hx⟩
  | @step k p n r hp hne h ih =>
    obtain ⟨path, hlen, hnd, hpath⟩ := ih
    have hk : Climbs parent k (n + 1) r := .step hp hne h
    refine ⟨k :: path, by rw [List.length_cons, hlen], List.nodup_cons.mpr ⟨fun hmem => ?_, hnd⟩, ?_⟩
    · obtain ⟨m, hm, hc⟩ := (hpath k hmem).2
      have := (hk.unique hc).1
      omega
    · intro x hx
      rcases List.mem_cons.mp hx with rfl | hx
      · exact ⟨OrderedMap.mem_keys_iff.mpr (by rw [hp]; rfl), n + 1, Nat.le_refl _, hk⟩
      · obtain ⟨hkey, m, hm, hc⟩ := hpath x hx
        exact ⟨hkey, m, by omega, hc⟩

theorem length_le (h : Climbs parent k n r) : n ≤ parent.entries.length := by
  obtain ⟨path, rfl, hnd, hpath⟩ := h.exists_path
  have hsub : path ⊆ parent.keys := fun x hx => (hpath x hx).1
  have hle := (List.subperm_of_subset hnd hsub).length_le
  rwa [OrderedMap.keys, List.length_map] at hle

variable {x : κ}

theorem set_root (hk : Climbs parent k n r) (hkr : k ≠ r) (hx : Climbs parent x m s) :
    ∃ m', Climbs (parent.set k r) x m' s := by
  have hr : Climbs (parent.set k r) r 0 r := by
    refine .root ?_
    rw [IsRoot, OrderedMap.get_set_of_ne _ _ (Ne.symm hkr)]
    exact hk.isRoot
  induction hx with
  | @root x hroot =>
    have hxk : x ≠ k := by
      rintro rfl
      exact hkr ((Climbs.root hroot).unique hk).2
    refine ⟨0, .root ?_⟩
    rw [IsRoot, OrderedMap.get_set_of_ne _ _ hxk]
    exact hroot
  | @step x p m s hp hne h ih =>
    by_cases hxk : x = k
    · subst hxk
      obtain ⟨-, rfl⟩ := (Climbs.step hp hne h).unique hk
      exact ⟨1, .step (OrderedMap.get_set_self _ _ _) (Ne.symm hkr) hr⟩
    · obtain ⟨m', h'⟩ := ih
      exact ⟨m' + 1, .step (by rw [OrderedMap.get_set_of_ne _ _ hxk]; exact hp) hne h'⟩

theorem set_link {a b : κ} (ha : IsRoot parent a) (hb : IsRoot parent b) (hab : a ≠ b)
    (hx : Climbs parent x m s) :
    ∃ m', Climbs (parent.set a b) x m' (if s = a then b else s) := by
  induction hx with
  | @root x hroot =>
    by_cases hxa : x = a
    · subst hxa
      rw [if_pos rfl]
      refine ⟨1, .step (OrderedMap.get_set_self _ _ _) (Ne.symm hab) (.root ?_)⟩
      rw [IsRoot, OrderedMap.get_set_of_ne _ _ (Ne.symm hab)]
      exact hb
    · rw [if_neg hxa]
      refine ⟨0, .root ?_⟩
      rw [IsRoot, OrderedMap.get_set_of_ne _ _ hxa]
      exact hroot
  | @step x p m s hp hne h ih =>
    obtain ⟨m', h'⟩ := ih
    have hxa : x ≠ a := by
      rintro rfl
      rcases ha with ha | ha <;> rw [ha] at hp <;> cases hp
      exact hne rfl
    exact ⟨m' + 1, .step (by rw [OrderedMap.get_set_of_ne _ _ hxa]; exact hp) hne h'⟩

end Climbs

/-! ## Finding a root -/

/-- The root of `k`, and the parent map with every element on the way re-pointed at it. -/
def chase (parent : OrderedMap κ κ) : ℕ → κ → κ × OrderedMap κ κ
  | 0, k => (k, parent)
  | fuel + 1, k =>
    match parent.get k with
    | none => (k, parent)
    | some p =>
      if p = k then (k, parent)
      else
        let found := chase parent fuel p
        (found.1, found.2.set k found.1)

/-- With fuel for the climb, the chase finds the root and keeps every root. -/
theorem chase_spec {parent : OrderedMap κ κ} {k r : κ} {n : ℕ} (h : Climbs parent k n r) :
    ∀ {fuel : ℕ}, n ≤ fuel → (chase parent fuel k).1 = r ∧
      ∀ {x s : κ} {m : ℕ}, Climbs parent x m s → ∃ m', Climbs (chase parent fuel k).2 x m' s := by
  induction h with
  | @root k hroot =>
    intro fuel _
    cases fuel with
    | zero => exact ⟨rfl, fun h => ⟨_, h⟩⟩
    | succ fuel =>
      have hc : chase parent (fuel + 1) k = (k, parent) := by
        rcases hroot with hk | hk <;> simp [chase, hk]
      rw [hc]
      exact ⟨rfl, fun h => ⟨_, h⟩⟩
  | @step k p n r hp hne h ih =>
    intro fuel hfuel
    obtain ⟨fuel, rfl⟩ : ∃ f, fuel = f + 1 := ⟨fuel - 1, by omega⟩
    have hn : n ≤ fuel := by omega
    obtain ⟨hfound, hkeep⟩ := ih hn
    simp only [chase, hp, if_neg hne]
    refine ⟨hfound, fun {x s m} hx => ?_⟩
    have hkr : k ≠ r := by
      rintro rfl
      have := (Climbs.step hp hne h).unique (Climbs.root h.isRoot)
      omega
    obtain ⟨_, hk⟩ := hkeep (Climbs.step hp hne h)
    obtain ⟨_, hx'⟩ := hkeep hx
    rw [hfound]
    exact hk.set_root hkr hx'

/-- Parent maps without cycles. -/
structure Forest (κ : Type) [DecidableEq κ] where
  parent : OrderedMap κ κ
  rooted : ∀ k, ∃ n r, Climbs parent k n r

namespace Forest

/-- Every element is its own root. -/
def empty : Forest κ where
  parent := OrderedMap.empty
  rooted k := ⟨0, k, .root (.inl rfl)⟩

/-- The root of an element, compressing the path to it. -/
def root (f : Forest κ) (k : κ) : κ × Forest κ :=
  ((chase f.parent f.parent.entries.length k).1,
    { parent := (chase f.parent f.parent.entries.length k).2
      rooted := fun x => by
        obtain ⟨n, r, h⟩ := f.rooted k
        obtain ⟨m, s, hx⟩ := f.rooted x
        obtain ⟨m', h'⟩ := (chase_spec h h.length_le).2 hx
        exact ⟨m', s, h'⟩ })

/-- The root of an element. -/
def find (f : Forest κ) (k : κ) : κ := (f.root k).1

variable {f : Forest κ}

theorem find_eq_of_climbs {k r : κ} {n : ℕ} (h : Climbs f.parent k n r) : f.find k = r :=
  (chase_spec h h.length_le).1

theorem climbs_find (f : Forest κ) (k : κ) : ∃ n, Climbs f.parent k n (f.find k) := by
  obtain ⟨n, r, h⟩ := f.rooted k
  exact ⟨n, by rw [find_eq_of_climbs h]; exact h⟩

@[simp] theorem fst_root (f : Forest κ) (k : κ) : (f.root k).1 = f.find k := rfl

@[simp] theorem find_root (f : Forest κ) (k x : κ) : (f.root k).2.find x = f.find x := by
  obtain ⟨n, h⟩ := f.climbs_find k
  obtain ⟨m, hx⟩ := f.climbs_find x
  obtain ⟨m', h'⟩ := (chase_spec h h.length_le).2 hx
  exact find_eq_of_climbs h'

theorem isRoot_find (f : Forest κ) (k : κ) : IsRoot f.parent (f.find k) :=
  (f.climbs_find k).choose_spec.isRoot

@[simp] theorem find_find (f : Forest κ) (k : κ) : f.find (f.find k) = f.find k :=
  find_eq_of_climbs (.root (f.isRoot_find k))

@[simp] theorem find_empty (k : κ) : (empty : Forest κ).find k = k := rfl

/-! ## Joining two classes -/

/-- Attach the root of `a` to the root of `b`, unless they are the same. -/
def link (f : Forest κ) (a b : κ) : Forest κ :=
  let rb := f.root b
  let ra := rb.2.root a
  if h : ra.1 = rb.1 then ra.2
  else
    { parent := ra.2.parent.set ra.1 rb.1
      rooted := fun x => by
        have ha : IsRoot ra.2.parent ra.1 := by
          have := ra.2.isRoot_find ra.1
          simpa [ra, rb] using this
        have hb : IsRoot ra.2.parent rb.1 := by
          have := ra.2.isRoot_find rb.1
          simpa [ra, rb] using this
        obtain ⟨m, hx⟩ := ra.2.climbs_find x
        obtain ⟨m', h'⟩ := hx.set_link ha hb h
        exact ⟨m', _, h'⟩ }

theorem find_link (f : Forest κ) (a b x : κ) :
    (f.link a b).find x = if f.find x = f.find a then f.find b else f.find x := by
  have ha : IsRoot (((f.root b).2.root a).2).parent (f.find a) := by
    have := ((f.root b).2.root a).2.isRoot_find a
    simpa using this
  have hb : IsRoot (((f.root b).2.root a).2).parent (f.find b) := by
    have := ((f.root b).2.root a).2.isRoot_find b
    simpa using this
  unfold link
  by_cases h : f.find a = f.find b
  · rw [dif_pos (by simpa using h)]
    by_cases hx : f.find x = f.find a
    · simp [hx, h]
    · simp [hx]
  · rw [dif_neg (by simpa using h)]
    obtain ⟨m, hx⟩ := ((f.root b).2.root a).2.climbs_find x
    obtain ⟨m', h'⟩ := hx.set_link ha hb h
    simp only [find_root] at h'
    exact find_eq_of_climbs (by simpa using h')

/-! ## Classes -/

/-- Two elements of one class. -/
def Same (f : Forest κ) (a b : κ) : Prop := f.find a = f.find b

instance (f : Forest κ) (a b : κ) : Decidable (f.Same a b) :=
  inferInstanceAs (Decidable (f.find a = f.find b))

variable {a b : κ}

@[simp] theorem same_empty : (empty : Forest κ).Same a b ↔ a = b := Iff.rfl

variable {x y : κ}

theorem same_link :
    (f.link a b).Same x y ↔
      f.Same x y ∨ (f.Same x a ∧ f.Same y b) ∨ (f.Same x b ∧ f.Same y a) := by
  simp only [Same, find_link]
  split <;> split <;> grind

/-- Join the class of `a` with the class of each of `bs` in turn. -/
def links (f : Forest κ) (a : κ) (bs : List κ) : Forest κ := bs.foldl (fun f b => f.link a b) f

variable {bs : List κ}

theorem same_links :
    (f.links a bs).Same x y ↔
      f.Same x y ∨ ((f.Same x a ∨ ∃ b ∈ bs, f.Same x b) ∧ (f.Same y a ∨ ∃ b ∈ bs, f.Same y b) ∧
        bs ≠ []) := by
  induction bs generalizing f with
  | nil => simp [links]
  | cons b bs ih =>
    change ((f.link a b).links a bs).Same x y ↔ _
    rw [ih]
    have hsplit : ∀ z, ((f.link a b).Same z a ∨ ∃ c ∈ bs, (f.link a b).Same z c)
        ↔ f.Same z a ∨ ∃ c ∈ b :: bs, f.Same z c := by
      intro z
      simp only [same_link, List.mem_cons, exists_eq_or_imp]
      constructor
      · rintro (h | ⟨c, hc, h⟩)
        · grind [Same]
        · grind [Same]
      · rintro (h | h | ⟨c, hc, h⟩)
        · exact .inl (.inl h)
        · grind [Same]
        · exact .inr ⟨c, hc, .inl h⟩
    rw [hsplit, hsplit, same_link]
    grind [Same]

theorem find_links_of_respects {β : Type} {g : κ → β}
    (h : ∀ k, g (f.find k) = g k) (hbs : ∀ b ∈ bs, g b = g a) (k : κ) :
    g ((f.links a bs).find k) = g k := by
  induction bs generalizing f with
  | nil => exact h k
  | cons b bs ih =>
    refine ih (fun k => ?_) fun c hc => hbs c (List.mem_cons_of_mem _ hc)
    rw [find_link]
    split
    · next hk => rw [h, hbs b List.mem_cons_self, ← h a, ← hk, h]
    · exact h k

end Forest
end SignetApp
