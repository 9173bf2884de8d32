import SignetApp.Collections.OrderedMap
import SignetApp.Collections.UnionFind

/-!
# Groups formed by gaining what another holds

Whoever gains something joins every group that holds it at the time. A release ends a whole
group's hold; it does not split the group. `Holding` says this with relations; a forest with a list
of holders for each thing implements it (`Implements`).
-/

namespace SignetApp

/-- Who was linked to whom, and who holds what. -/
structure Holding (κ σ : Type) where
  linked : κ → κ → Prop
  held : σ → κ → Prop

namespace Holding

variable {κ σ : Type}

/-- Nobody is linked, and nothing is held. -/
def empty : Holding κ σ := ⟨fun _ _ => False, fun _ _ => False⟩

/-- In one group: connected by a chain of links. -/
def Same (h : Holding κ σ) : κ → κ → Prop := Relation.EqvGen h.linked

/-- Some member of the group holds it. -/
def GroupHolds (h : Holding κ σ) (s : σ) (a : κ) : Prop := ∃ b, h.held s b ∧ h.Same b a

/-- `a` gains `s`: it is linked to every member of a group that holds `s`, and holds it too. -/
def gain (h : Holding κ σ) (s : σ) (a : κ) : Holding κ σ where
  linked x y := h.linked x y ∨ (x = a ∧ h.GroupHolds s y)
  held t x := h.held t x ∨ (t = s ∧ x = a)

/-- The group of `a` lets go of everything in `S`. -/
def release (h : Holding κ σ) (S : σ → Prop) (a : κ) : Holding κ σ where
  linked := h.linked
  held t x := h.held t x ∧ ¬ (S t ∧ h.Same x a)

variable {h : Holding κ σ} {s t : σ} {S : σ → Prop} {a x y z : κ}

/-! ## Groups -/

theorem same_refl (x : κ) : h.Same x x := .refl x

theorem Same.symm (hxy : h.Same x y) : h.Same y x := Relation.EqvGen.symm x y hxy

theorem Same.trans (hxy : h.Same x y) (hyz : h.Same y z) : h.Same x z :=
  Relation.EqvGen.trans x y z hxy hyz

@[simp] theorem same_empty : (empty : Holding κ σ).Same x y ↔ x = y := by
  constructor
  · intro hxy
    induction hxy with
    | rel _ _ hlinked => cases hlinked
    | refl _ => rfl
    | symm _ _ _ ih => exact ih.symm
    | trans _ _ _ _ _ ih₁ ih₂ => exact ih₁.trans ih₂
  · rintro rfl
    exact same_refl x

theorem GroupHolds.of_same (hx : h.GroupHolds s x) (hxy : h.Same x y) : h.GroupHolds s y := by
  obtain ⟨b, hb, hbx⟩ := hx
  exact ⟨b, hb, hbx.trans hxy⟩

/-- The groups a gain makes one: that of `a`, and those that hold `s`. -/
def Joins (h : Holding κ σ) (s : σ) (a x : κ) : Prop := h.Same x a ∨ h.GroupHolds s x

theorem Joins.of_same (hx : h.Joins s a x) (hxy : h.Same x y) : h.Joins s a y := by
  rcases hx with hx | hx
  · exact .inl (hxy.symm.trans hx)
  · exact .inr (hx.of_same hxy)

theorem Same.gain (hxy : h.Same x y) (s : σ) (a : κ) : (h.gain s a).Same x y := by
  induction hxy with
  | rel _ _ hlinked => exact .rel _ _ (.inl hlinked)
  | refl _ => exact same_refl _
  | symm _ _ _ ih => exact ih.symm
  | trans _ _ _ _ _ ih₁ ih₂ => exact ih₁.trans ih₂

/-- **A gain joins those groups and no others.** -/
theorem same_gain : (h.gain s a).Same x y ↔ h.Same x y ∨ (h.Joins s a x ∧ h.Joins s a y) := by
  constructor
  · intro hxy
    induction hxy with
    | rel x y hlinked =>
      rcases hlinked with hlinked | ⟨rfl, hholds⟩
      · exact .inl (.rel _ _ hlinked)
      · exact .inr ⟨.inl (same_refl _), .inr hholds⟩
    | refl x => exact .inl (same_refl x)
    | symm x y _ ih =>
      rcases ih with ih | ⟨hx, hy⟩
      · exact .inl ih.symm
      · exact .inr ⟨hy, hx⟩
    | trans x y z _ _ ih₁ ih₂ =>
      rcases ih₁ with hxy | ⟨hx, hy⟩
      · rcases ih₂ with hyz | ⟨hy, hz⟩
        · exact .inl (hxy.trans hyz)
        · exact .inr ⟨hy.of_same hxy.symm, hz⟩
      · rcases ih₂ with hyz | ⟨_, hz⟩
        · exact .inr ⟨hx, hy.of_same hyz⟩
        · exact .inr ⟨hx, hz⟩
  · -- Everything joined is linked to `a`.
    have hjoined : ∀ {z}, h.Joins s a z → (h.gain s a).Same a z := by
      rintro z (hz | hz)
      · exact (hz.gain s a).symm
      · exact .rel _ _ (.inr ⟨rfl, hz⟩)
    rintro (hxy | ⟨hx, hy⟩)
    · exact hxy.gain s a
    · exact (hjoined hx).symm.trans (hjoined hy)

@[simp] theorem same_release : (h.release S a).Same x y ↔ h.Same x y := Iff.rfl

/-! ## Holds -/

theorem not_groupHolds_release (hs : S s) (hx : h.Same x a) : ¬ (h.release S a).GroupHolds s x := by
  rintro ⟨b, ⟨-, hb⟩, hbx⟩
  exact hb ⟨hs, hbx.trans hx⟩

theorem groupHolds_of_release (hx : (h.release S a).GroupHolds s x) : h.GroupHolds s x := by
  obtain ⟨b, ⟨hb, -⟩, hbx⟩ := hx
  exact ⟨b, hb, hbx⟩

/-- A gain brings `s` back to a group: the group takes part in it, and either `s` is what is
gained or another group that takes part holds it. -/
theorem groupHolds_gain (hx : (h.gain t a).GroupHolds s x) :
    h.GroupHolds s x ∨
      (h.Joins t a x ∧ (t = s ∨ ∃ z, h.Joins t a z ∧ h.GroupHolds s z)) := by
  obtain ⟨b, hb, hbx⟩ := hx
  rcases same_gain.mp hbx with hsame | ⟨hjb, hjx⟩
  · rcases hb with hb | ⟨rfl, rfl⟩
    · exact .inl ⟨b, hb, hsame⟩
    · exact .inr ⟨.inl hsame.symm, .inl rfl⟩
  · rcases hb with hb | ⟨rfl, -⟩
    · exact .inr ⟨hjx, .inr ⟨b, hjb, b, hb, same_refl b⟩⟩
    · exact .inr ⟨hjx, .inl rfl⟩

theorem same_gain_of_not_joins (hx : ¬ h.Joins s a x) : (h.gain s a).Same x y ↔ h.Same x y := by
  rw [same_gain]
  exact or_iff_left fun hj => hx hj.1

/-! ## Implementation -/

variable [DecidableEq κ]

/-- A forest of the groups, with the holders of each thing. -/
structure Implements (f : Forest κ) (holders : σ → List κ) (h : Holding κ σ) : Prop where
  same : ∀ {x y}, f.Same x y ↔ h.Same x y
  held : ∀ {s x}, x ∈ holders s ↔ h.held s x

variable {f : Forest κ} {holders : σ → List κ}

theorem Implements.empty :
    Implements (Forest.empty : Forest κ) (fun _ : σ => []) Holding.empty where
  same := by simp
  held := by simp [Holding.empty]

theorem Implements.joins (hi : Implements f holders h) :
    (f.Same x a ∨ ∃ b ∈ holders s, f.Same x b) ↔ h.Joins s a x := by
  unfold Joins GroupHolds
  rw [hi.same]
  refine or_congr_right ⟨?_, ?_⟩
  · rintro ⟨b, hb, hxb⟩
    exact ⟨b, hi.held.mp hb, (hi.same.mp hxb).symm⟩
  · rintro ⟨b, hb, hbx⟩
    exact ⟨b, hi.held.mpr hb, hi.same.mpr hbx.symm⟩

/-- Linking the gainer to every holder implements a gain. -/
theorem Implements.gain [DecidableEq σ] (hi : Implements f holders h) (s : σ) (a : κ) {holders' : σ → List κ}
    (hholders : ∀ t, holders' t = if t = s then insertNew (holders s) a else holders t) :
    Implements (f.links a (holders s)) holders' (h.gain s a) where
  same {x y} := by
    rw [Forest.same_links, same_gain, hi.same, hi.joins, hi.joins]
    constructor
    · rintro (hxy | ⟨hx, hy, -⟩)
      · exact .inl hxy
      · exact .inr ⟨hx, hy⟩
    · rintro (hxy | ⟨hx, hy⟩)
      · exact .inl hxy
      · by_cases hnil : holders s = []
        · -- Nobody holds it, so both are in the gainer's group.
          have hown : ∀ {z}, h.Joins s a z → h.Same z a := by
            rintro z (hz | ⟨b, hb, -⟩)
            · exact hz
            · rw [← hi.held, hnil] at hb
              cases hb
          exact .inl ((hown hx).trans (hown hy).symm)
        · exact .inr ⟨hx, hy, hnil⟩
  held {t x} := by
    rw [hholders]
    change _ ↔ h.held t x ∨ (t = s ∧ x = a)
    by_cases ht : t = s
    · subst ht
      rw [if_pos rfl, mem_insertNew, hi.held]
      simp
    · rw [if_neg ht, hi.held]
      simp [ht]

theorem Implements.release (hi : Implements f holders h) {a : κ} {holders' : σ → List κ}
    (hholders : ∀ t x, x ∈ holders' t ↔ x ∈ holders t ∧ ¬ (S t ∧ f.Same x a)) :
    Implements f holders' (h.release S a) where
  same := hi.same.trans same_release.symm
  held {t x} := by
    rw [hholders, hi.held, hi.same]
    rfl

end Holding

end SignetApp
