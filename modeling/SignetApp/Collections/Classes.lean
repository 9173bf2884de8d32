import SignetApp.Collections.OrderedMap

/-!
# Classes of a key list

Keys are listed by class, a class being named by a root. The first key of a class leads it, and
every key is mapped to its leader and every leader to its class.
-/

namespace SignetApp

variable {κ : Type} [DecidableEq κ]

/-- The keys by root, roots and keys in the order of the list. -/
def classes (root : κ → κ) (keys : List κ) : OrderedMap κ (List κ) :=
  keys.foldl (fun groups key =>
    groups.set (root key) ((groups.get (root key)).getD [] ++ [key])) .empty

/-- Each key to the first key of its class. -/
def leaders (groups : List (List κ)) : OrderedMap κ κ :=
  groups.foldl (fun aliases group =>
    group.foldl (fun aliases key => aliases.set key (group.headD key)) aliases) .empty

/-- Each leader to its class. -/
def byLeader (groups : List (List κ)) : OrderedMap κ (List κ) :=
  groups.foldl (fun grouped group =>
    match group with
    | [] => grouped
    | leader :: _ => grouped.set leader group) .empty

/-! ## The class of a key -/

def classAt (root : κ → κ) (keys : List κ) (r : κ) : List κ := keys.filter fun k => root k = r

/-- The first key of a key's class, the key itself when it is not listed. -/
def leaderOf (root : κ → κ) (keys : List κ) (k : κ) : κ :=
  if k ∈ keys then (classAt root keys (root k)).headD k else k

variable {root : κ → κ} {keys : List κ} {k j r : κ}

theorem mem_classAt : k ∈ classAt root keys r ↔ k ∈ keys ∧ root k = r := by
  simp [classAt]

theorem leaderOf_of_not_mem (h : k ∉ keys) : leaderOf root keys k = k := if_neg h

theorem classAt_eq_leaderOf_cons (root : κ → κ) (h : k ∈ keys) :
    ∃ rest, classAt root keys (root k) = leaderOf root keys k :: rest := by
  have hk : k ∈ classAt root keys (root k) := mem_classAt.mpr ⟨h, rfl⟩
  rw [leaderOf, if_pos h]
  cases hc : classAt root keys (root k) with
  | nil => rw [hc] at hk; cases hk
  | cons leader rest => exact ⟨rest, rfl⟩

theorem leaderOf_mem_classAt (h : k ∈ keys) :
    leaderOf root keys k ∈ classAt root keys (root k) := by
  obtain ⟨rest, hrest⟩ := classAt_eq_leaderOf_cons root h
  rw [hrest]
  exact List.mem_cons_self

theorem leaderOf_mem (h : k ∈ keys) : leaderOf root keys k ∈ keys :=
  (mem_classAt.mp (leaderOf_mem_classAt h)).1

theorem root_leaderOf (root : κ → κ) (keys : List κ) (k : κ) : root (leaderOf root keys k) = root k := by
  by_cases h : k ∈ keys
  · exact (mem_classAt.mp (leaderOf_mem_classAt h)).2
  · rw [leaderOf_of_not_mem h]

theorem leaderOf_congr (hk : k ∈ keys) (hj : j ∈ keys) (h : root k = root j) :
    leaderOf root keys k = leaderOf root keys j := by
  obtain ⟨_, hrest⟩ := classAt_eq_leaderOf_cons root hk
  obtain ⟨_, hrest'⟩ := classAt_eq_leaderOf_cons root hj
  rw [h, hrest'] at hrest
  exact (List.cons.inj hrest).1.symm

@[simp] theorem leaderOf_leaderOf (k : κ) :
    leaderOf root keys (leaderOf root keys k) = leaderOf root keys k := by
  by_cases h : k ∈ keys
  · exact leaderOf_congr (leaderOf_mem h) h (root_leaderOf root keys k)
  · rw [leaderOf_of_not_mem h, leaderOf_of_not_mem h]

/-! ## Specifications -/

theorem get_classes (r : κ) :
    (classes root keys).get r
      = if classAt root keys r = [] then none else some (classAt root keys r) := by
  induction keys using List.reverseRecOn generalizing r with
  | nil => rfl
  | append_singleton keys key ih =>
    have hstep : classes root (keys ++ [key]) = (classes root keys).set (root key)
        (((classes root keys).get (root key)).getD [] ++ [key]) := by
      simp [classes, List.foldl_append]
    have hprev : ((classes root keys).get (root key)).getD [] = classAt root keys (root key) := by
      rw [ih]
      split
      · next h => rw [h]; rfl
      · rfl
    rw [hstep, OrderedMap.get_set, hprev]
    by_cases hr : r = root key
    · subst hr
      simp [classAt]
    · have hne : classAt root (keys ++ [key]) r = classAt root keys r := by
        have hr' : ¬ root key = r := fun h => hr h.symm
        simp [classAt, hr']
      rw [if_neg hr, ih, hne]

theorem mem_classes_iff {group : List κ} :
    group ∈ (classes root keys).entries.map Prod.snd
      ↔ ∃ k ∈ keys, group = classAt root keys (root k) := by
  rw [List.mem_map]
  constructor
  · rintro ⟨⟨r, g⟩, hmem, rfl⟩
    rw [OrderedMap.mem_entries_iff, get_classes] at hmem
    split at hmem
    · cases hmem
    · next hne =>
      cases hmem
      obtain ⟨k, hk⟩ := List.exists_mem_of_ne_nil _ hne
      exact ⟨k, (mem_classAt.mp hk).1, by rw [(mem_classAt.mp hk).2]⟩
  · rintro ⟨k, hk, rfl⟩
    refine ⟨(root k, classAt root keys (root k)), ?_, rfl⟩
    have hne : classAt root keys (root k) ≠ [] :=
      List.ne_nil_of_mem (mem_classAt.mpr ⟨hk, rfl⟩)
    rw [OrderedMap.mem_entries_iff, get_classes, if_neg hne]

theorem get_leaders {groups : List (List κ)} {leader : κ}
    (h : ∀ g ∈ groups, k ∈ g → g.headD k = leader) :
    (leaders groups).get k = if ∃ g ∈ groups, k ∈ g then some leader else none := by
  induction groups using List.reverseRecOn with
  | nil => simp [leaders]
  | append_singleton groups group ih =>
    have ih := ih fun g hg => h g (List.mem_append_left _ hg)
    have hstep : (leaders (groups ++ [group])).get k
        = if k ∈ group then some (group.headD k) else (leaders groups).get k := by
      rw [leaders, List.foldl_append, List.foldl_cons, List.foldl_nil, OrderedMap.get_foldl_set]
      rfl
    rw [hstep, ih]
    by_cases hk : k ∈ group
    · rw [if_pos hk, h group (by simp) hk, if_pos ⟨group, by simp, hk⟩]
    · simp [hk, or_and_right, exists_or]

theorem get_leaders_classes (k : κ) :
    (leaders ((classes root keys).entries.map Prod.snd)).get k
      = if k ∈ keys then some (leaderOf root keys k) else none := by
  have hgroup : ∀ g ∈ (classes root keys).entries.map Prod.snd, k ∈ g →
      k ∈ keys ∧ g = classAt root keys (root k) := by
    intro g hg hk
    obtain ⟨j, hj, rfl⟩ := mem_classes_iff.mp hg
    obtain ⟨hk', hr⟩ := mem_classAt.mp hk
    exact ⟨hk', by rw [hr]⟩
  have hlead : ∀ g ∈ (classes root keys).entries.map Prod.snd, k ∈ g →
      g.headD k = leaderOf root keys k := by
    intro g hg hkg
    obtain ⟨hk, rfl⟩ := hgroup g hg hkg
    rw [leaderOf, if_pos hk]
  rw [get_leaders hlead]
  by_cases hk : k ∈ keys
  · rw [if_pos hk, if_pos ⟨_, mem_classes_iff.mpr ⟨k, hk, rfl⟩, mem_classAt.mpr ⟨hk, rfl⟩⟩]
  · rw [if_neg hk, if_neg]
    rintro ⟨g, hg, hkg⟩
    exact hk (hgroup g hg hkg).1

theorem get_byLeader {groups : List (List κ)} {group : List κ}
    (h : ∀ g ∈ groups, g.head? = some k → g = group) :
    (byLeader groups).get k
      = if ∃ g ∈ groups, g.head? = some k then some group else none := by
  induction groups using List.reverseRecOn with
  | nil => simp [byLeader]
  | append_singleton groups last ih =>
    have ih := ih fun g hg => h g (List.mem_append_left _ hg)
    cases last with
    | nil =>
      rw [byLeader, List.foldl_append, List.foldl_cons, List.foldl_nil]
      change (byLeader groups).get k = _
      rw [ih]
      simp [or_and_right, exists_or]
    | cons leader rest =>
      rw [byLeader, List.foldl_append, List.foldl_cons, List.foldl_nil]
      change ((byLeader groups).set leader (leader :: rest)).get k = _
      rw [OrderedMap.get_set, ih]
      by_cases hk : k = leader
      · subst hk
        rw [if_pos rfl, ← h (k :: rest) (by simp) rfl, if_pos ⟨k :: rest, by simp, rfl⟩]
      · have hk' : ¬ leader = k := fun h => hk h.symm
        simp [hk, hk', or_and_right, exists_or]

theorem get_byLeader_classes (k : κ) :
    (byLeader ((classes root keys).entries.map Prod.snd)).get k
      = if k ∈ keys ∧ leaderOf root keys k = k then some (classAt root keys (root k)) else none := by
  have hgroup : ∀ g ∈ (classes root keys).entries.map Prod.snd, g.head? = some k →
      g = classAt root keys (root k) ∧ k ∈ keys ∧ leaderOf root keys k = k := by
    intro g hg hk
    obtain ⟨j, hj, rfl⟩ := mem_classes_iff.mp hg
    obtain ⟨rest, hrest⟩ := classAt_eq_leaderOf_cons root hj
    rw [hrest, List.head?_cons, Option.some.injEq] at hk
    subst hk
    rw [root_leaderOf root keys j]
    exact ⟨rfl, leaderOf_mem hj, leaderOf_leaderOf j⟩
  rw [get_byLeader fun g hg hk => (hgroup g hg hk).1]
  by_cases hk : k ∈ keys ∧ leaderOf root keys k = k
  · obtain ⟨rest, hrest⟩ := classAt_eq_leaderOf_cons root hk.1
    have hhead : (classAt root keys (root k)).head? = some k := by
      rw [hrest, List.head?_cons, hk.2]
    rw [if_pos hk, if_pos ⟨_, mem_classes_iff.mpr ⟨k, hk.1, rfl⟩, hhead⟩]
  · rw [if_neg hk, if_neg]
    rintro ⟨g, hg, hkg⟩
    exact hk (hgroup g hg hkg).2

end SignetApp
