import Mathlib.Data.Finset.Sort
import Mathlib.Order.Fin.Basic
import SignetApp.ChildContacts.PolicyDecision
import SignetApp.Collections.Disagreement

/-!
# Merged views

Views of one pairing disagree as `Disagreement` has it: of the newest that are not one, the merge keeps whom all
of them allow and whom any of them blocks.
-/

namespace SignetApp.ChildContacts

open SignetApp.Js SignetApp.Sync
open SignetApp.Contacts (ContactCeilingTier Hex64)
open SignetApp.Family.ChildContact (ContactPolicy ceilings pairwise_lt_eq_of_toFinset)

/-! ## The text of a view says which it is -/

theorem hexToJs_injective {n : ℕ} {a b : Hex n} (h : a.toJs = b.toJs) : a = b := by
  have hread := congrArg (isHex n) h
  rw [isHex_toJs, isHex_toJs] at hread
  exact Option.some.inj hread

theorem keysToJs_injective {ks ks' : List Hex64} (h : keysToJs ks = keysToJs ks') : ks = ks' := by
  have hread := congrArg (isArrayOf (isHex 64)) h
  unfold keysToJs at hread
  rw [isArrayOf_toJs isHex_toJs, isArrayOf_toJs isHex_toJs] at hread
  exact Option.some.inj hread

theorem unionToJs_injective {α : Type} [StringUnion α] [LawfulStringUnion α] {a b : α}
    (h : StringUnion.toJs a = StringUnion.toJs b) : a = b := by
  have hread := congrArg (StringUnion.parse (α := α)) h
  rw [parse_toJs, parse_toJs] at hread
  exact Option.some.inj hread

theorem viewToJs_injective {a b : ChildContactPolicyView} (h : a.toJs = b.toJs) : a = b := by
  have hget := fun name => congrArg (fun v => JsValue.get v name) h
  have hguardian : a.guardian = b.guardian := hexToJs_injective (hget "guardian")
  have hrecipient : a.recipient = b.recipient := hexToJs_injective (hget "recipient")
  have hnumber : ∀ {m n : ℕ}, JsValue.ofNat m = JsValue.ofNat n → m = n := by
    intro m n hmn
    have hread := congrArg isNonNegativeInt hmn
    rw [isNonNegativeInt_ofNat, isNonNegativeInt_ofNat] at hread
    exact Option.some.inj hread
  have hrevision : a.revision = b.revision := hnumber (hget "revision")
  have hexpires : a.expiresAt = b.expiresAt := hnumber (hget "expiresAt")
  have hpolicy : a.policy = b.policy := unionToJs_injective (hget "policy")
  have hceiling : a.ceiling = b.ceiling := unionToJs_injective (hget "ceiling")
  have hconflicted : a.conflicted = b.conflicted := JsValue.bool.inj (hget "conflicted")
  have hallowed : a.allowed = b.allowed := keysToJs_injective (hget "allowed")
  have hblocked : a.blocked = b.blocked := keysToJs_injective (hget "blocked")
  cases a
  cases b
  simp only [ChildContactPolicyView.mk.injEq]
  exact ⟨hguardian, hrecipient, hrevision, hexpires, hpolicy, hceiling, hconflicted, hallowed, hblocked⟩

theorem view_eq_of_text [Numerals] (hint : IntegersSurvive) {a b : ChildContactPolicyView}
    (h : jsonText a.toJs = jsonText b.toJs) : a = b := by
  have hread := congrArg parse h
  rw [parse_jsonText (isJson_view hint a), parse_jsonText (isJson_view hint b), Option.some.injEq] at hread
  exact viewToJs_injective hread

/-! ## What views have in common -/

def ceilingIndex : ContactCeilingTier → Fin 4
  | .none => 0
  | .ken => 1
  | .kith => 2
  | .kin => 3

def ceilingAt (i : Fin 4) : ContactCeilingTier := ceilings.getD i.val .none

theorem ceilingIndex_ceilingAt (i : Fin 4) : ceilingIndex (ceilingAt i) = i := by
  revert i
  decide

/-- The lower ceiling, the earlier end, whom all allow, and whom any blocks. -/
abbrev PolicyCommon := (Fin 4)ᵒᵈ × ℕᵒᵈ × (Finset Hex64)ᵒᵈ × Finset Hex64

def inSortOrder (ks : Finset Hex64) : List Hex64 := ks.sort

theorem pairwise_inSortOrder (ks : Finset Hex64) : (inSortOrder ks).Pairwise (· < ·) :=
  (Finset.sortedLT_sort ks).pairwise

theorem toFinset_inSortOrder (ks : Finset Hex64) : (inSortOrder ks).toFinset = ks := Finset.sort_toFinset ks _

/-- How the views of one pairing disagree. -/
def policies (guardian recipient : Hex64) : Disagreement ChildContactPolicyView PolicyCommon where
  age view := view.revision
  common view := (OrderDual.toDual (ceilingIndex view.ceiling), OrderDual.toDual view.expiresAt,
    OrderDual.toDual view.allowed.toFinset, view.blocked.toFinset)
  settle n l := {
    guardian
    recipient
    revision := n
    expiresAt := OrderDual.ofDual l.2.1
    policy := .kinOnly
    ceiling := ceilingAt (OrderDual.ofDual l.1)
    conflicted := true
    allowed := inSortOrder (OrderDual.ofDual l.2.2.1)
    blocked := inSortOrder l.2.2.2 }
  age_settle _ _ := rfl
  common_settle n l := by
    obtain ⟨ceiling, expiresAt, allowed, blocked⟩ := l
    dsimp only
    rw [ceilingIndex_ceilingAt, toFinset_inSortOrder, toFinset_inSortOrder]
    rfl

/-- A view of the pairing, its keys in order. -/
structure OfPairing (guardian recipient : Hex64) (view : ChildContactPolicyView) : Prop where
  guardian : view.guardian = guardian
  recipient : view.recipient = recipient
  allowed : view.allowed.Pairwise (· < ·)
  blocked : view.blocked.Pairwise (· < ·)

theorem min_ceiling (a b : ContactCeilingTier) :
    ceilings.getD (min (ceilings.idxOf a) (ceilings.idxOf b)) .none =
      ceilingAt (min (ceilingIndex a) (ceilingIndex b)) := by
  cases a <;> cases b <;> decide

section

variable [Numerals] {guardian recipient : Hex64} {a b : ChildContactPolicyView}

omit [Numerals] in
theorem ofPairing_settle (n : ℕ) (l : PolicyCommon) :
    OfPairing guardian recipient ((policies guardian recipient).settle n l) where
  guardian := rfl
  recipient := rfl
  allowed := pairwise_inSortOrder (OrderDual.ofDual l.2.2.1)
  blocked := pairwise_inSortOrder l.2.2.2

omit [Numerals] in
theorem OfPairing.merge (ha : OfPairing guardian recipient a) (hb : OfPairing guardian recipient b) :
    OfPairing guardian recipient ((policies guardian recipient).merge a b) := by
  unfold Disagreement.merge
  split
  · exact ha
  · split
    · exact hb
    · split
      · exact ha
      · exact ofPairing_settle _ _

/-- **The source's merge is the merge of values that disagree.** -/
theorem merge_eq (hint : IntegersSurvive) (ha : OfPairing guardian recipient a)
    (hb : OfPairing guardian recipient b) :
    mergeChildContactPolicy (some a) b = some ((policies guardian recipient).merge a b) := by
  have hguardian : a.guardian = b.guardian := ha.guardian.trans hb.guardian.symm
  have hrecipient : a.recipient = b.recipient := ha.recipient.trans hb.recipient.symm
  unfold mergeChildContactPolicy Disagreement.merge
  dsimp only
  rw [if_neg (by rintro (h | h) <;> contradiction)]
  show (if b.revision < a.revision then some a else if a.revision < b.revision then some b else _) =
    some (if b.revision < a.revision then a else if a.revision < b.revision then b else _)
  split
  · rfl
  · split
    · rfl
    · by_cases hab : a = b
      · rw [if_pos (by rw [hab]), if_pos hab]
      · rw [if_neg fun htext => hab (view_eq_of_text hint htext), if_neg hab, Option.some.injEq]
        have hallowed : a.allowed.filter b.allowed.contains =
            inSortOrder (a.allowed.toFinset ∩ b.allowed.toFinset) := by
          refine pairwise_lt_eq_of_toFinset (ha.allowed.sublist List.filter_sublist) (pairwise_inSortOrder _) ?_
          rw [toFinset_inSortOrder]
          ext k
          simp
        have hblocked : sorted (distinct (a.blocked ++ b.blocked)) =
            inSortOrder (a.blocked.toFinset ∪ b.blocked.toFinset) := by
          refine pairwise_lt_eq_of_toFinset (pairwise_inOrder _) (pairwise_inSortOrder _) ?_
          rw [toFinset_inSortOrder]
          ext k
          rw [List.mem_toFinset, ← inOrder, mem_inOrder]
          simp
        rw [hallowed, hblocked, min_ceiling, ← ha.guardian, ← ha.recipient]
        rfl

theorem merges_policies (hint : IntegersSurvive) :
    (policies guardian recipient).Merges (OfPairing guardian recipient) mergeChildContactPolicy where
  first _ := rfl
  next ha hb := merge_eq hint ha hb
  keeps ha hb := ha.merge hb

end

/-! ## What is left of views -/

section

variable {guardian recipient : Hex64} {views : List ChildContactPolicyView} {result : ChildContactPolicyView}

variable {view : ChildContactPolicyView}

theorem lists_of_left (h : (policies guardian recipient).Left views result)
    (hview : view ∈ views) (hnewest : view.revision = result.revision) :
    (∀ k ∈ result.allowed, k ∈ view.allowed) ∧ ∀ k ∈ view.blocked, k ∈ result.blocked := by
  obtain ⟨-, -, hallowed, hblocked⟩ := h.common_le hview hnewest
  constructor
  · intro k hk
    have hsub : result.allowed.toFinset ⊆ view.allowed.toFinset := hallowed
    exact List.mem_toFinset.1 (hsub (List.mem_toFinset.2 hk))
  · intro k hk
    have hsub : view.blocked.toFinset ⊆ result.blocked.toFinset := hblocked
    exact List.mem_toFinset.1 (hsub (List.mem_toFinset.2 hk))

theorem allow_of_left (h : (policies guardian recipient).Left views result) {peer : JsString} {now : ℕ}
    (hallow : childContactPolicyDecision (some result) peer now = .allow)
    (hview : view ∈ views) (hnewest : view.revision = result.revision) :
    childContactPolicyDecision (some view) peer now = .allow := by
  cases h with
  | one ha hle hone => rw [hone view hview hnewest, hallow]
  | settled ha hb hage hne hle hlub =>
    -- a pause: nobody is allowed
    rw [childContactPolicyDecision, if_pos (.inr (.inr (.inr (.inr (.inl rfl)))))] at hallow
    cases hallow

/-- The keys on the views of a revision. -/
def keysOf (views : List ChildContactPolicyView) (revision : ℕ) : List Hex64 :=
  distinct ((views.filter fun view => view.revision = revision).flatMap fun view => view.allowed ++ view.blocked)

theorem mem_keysOf {views : List ChildContactPolicyView} (hview : view ∈ views)
    {k : Hex64} (hk : k ∈ view.allowed ∨ k ∈ view.blocked) : k ∈ keysOf views view.revision := by
  rw [keysOf, mem_distinct, List.mem_flatMap]
  exact ⟨view, List.mem_filter.2 ⟨hview, decide_eq_true rfl⟩, List.mem_append.2 hk⟩

/-- **What is left is a view that the parser accepts**, where it has room for all keys. -/
theorem tidy_of_left (h : (policies guardian recipient).Left views result) (htidy : ∀ view ∈ views, view.Tidy)
    (hroom : (keysOf views result.revision).length ≤ maxPeers) : result.Tidy := by
  cases h with
  | one ha hle hone => exact htidy _ ha
  | @settled a b l ha hb hage hne hle hlub =>
    obtain ⟨ceiling, expiresAt, allowed, blocked⟩ := l
    have hupper : ∀ view ∈ views, view.revision = a.revision →
        (policies guardian recipient).common view ≤ (ceiling, expiresAt, allowed, blocked) :=
      fun view hview hrevision => hlub.1 ⟨view, hview, hrevision, rfl⟩
    have hleast : ∀ u : PolicyCommon, (∀ view ∈ views, view.revision = a.revision →
        (policies guardian recipient).common view ≤ u) → (ceiling, expiresAt, allowed, blocked) ≤ u := by
      intro u hu
      refine hlub.2 ?_
      rintro _ ⟨view, hview, hrevision, rfl⟩
      exact hu view hview hrevision
    have hatidy := htidy a ha
    obtain ⟨-, hexpires, hallowed, -⟩ := hupper a ha rfl
    have hexpires' : OrderDual.ofDual expiresAt ≤ a.expiresAt := hexpires
    -- the end is after the revision, as each view's is
    have hafter : a.revision + 1 ≤ OrderDual.ofDual expiresAt := by
      have hle := hleast (ceiling, OrderDual.toDual (a.revision + 1), allowed, blocked) fun view hview hrevision => by
        obtain ⟨hc, -, ha', hb'⟩ := hupper view hview hrevision
        have hlife := (htidy view hview).valid.lifetime.1
        exact ⟨hc, by
          show a.revision + 1 ≤ view.expiresAt
          omega, ha', hb'⟩
      exact hle.2.1
    -- and nobody is blocked whom no view blocks
    have hblocked : ∀ k ∈ blocked, ∃ view ∈ views, view.revision = a.revision ∧ k ∈ view.blocked := by
      intro k hk
      by_contra hnone
      have hle := hleast (ceiling, expiresAt, allowed, blocked.erase k) fun view hview hrevision => by
        obtain ⟨hc, he, ha', hb'⟩ := hupper view hview hrevision
        refine ⟨hc, he, ha', ?_⟩
        show view.blocked.toFinset ⊆ blocked.erase k
        intro k' hk'
        refine Finset.mem_erase.2 ⟨?_, hb' hk'⟩
        rintro rfl
        exact hnone ⟨view, hview, hrevision, List.mem_toFinset.1 hk'⟩
      have hsub : blocked ⊆ blocked.erase k := hle.2.2.2
      exact (Finset.mem_erase.1 (hsub hk)).1 rfl
    have hallowedSub : ∀ k ∈ OrderDual.ofDual allowed, ∀ view ∈ views, view.revision = a.revision →
        k ∈ view.allowed := by
      intro k hk view hview hrevision
      obtain ⟨-, -, ha', -⟩ := hupper view hview hrevision
      have hsub : OrderDual.ofDual allowed ⊆ view.allowed.toFinset := ha'
      exact List.mem_toFinset.1 (hsub hk)
    have hdisjoint : Disjoint (OrderDual.ofDual allowed) blocked := by
      rw [Finset.disjoint_left]
      intro k hk hkb
      obtain ⟨view, hview, hrevision, hkv⟩ := hblocked k hkb
      exact (htidy view hview).valid.apart k (hallowedSub k hk view hview hrevision) hkv
    have htogether : (OrderDual.ofDual allowed).card + blocked.card ≤ maxPeers := by
      rw [← Finset.card_union_of_disjoint hdisjoint]
      refine (Finset.card_le_card ?_).trans ((List.toFinset_card_le _).trans hroom)
      intro k hk
      rw [List.mem_toFinset]
      rcases Finset.mem_union.1 hk with hk | hk
      · exact mem_keysOf ha (.inl (hallowedSub k hk a ha rfl))
      · obtain ⟨view, hview, hrevision, hkv⟩ := hblocked k hk
        show k ∈ keysOf views a.revision
        rw [← hrevision]
        exact mem_keysOf hview (.inr hkv)
    have hlength : (inSortOrder (OrderDual.ofDual allowed)).length + (inSortOrder blocked).length ≤ maxPeers := by
      rwa [inSortOrder, inSortOrder, Finset.length_sort, Finset.length_sort]
    have hlife := hatidy.valid.lifetime.2
    have htimes := hatidy.valid.times
    refine ⟨⟨⟨htimes.1, hexpires'.trans htimes.2⟩, ⟨hafter, ?_⟩, ⟨?_, ?_⟩, ?_, ?_⟩, pairwise_inSortOrder _,
      pairwise_inSortOrder _⟩
    · show OrderDual.ofDual expiresAt - a.revision ≤ ttl
      omega
    · exact (Nat.le_add_right _ _).trans hlength
    · exact (Nat.le_add_left _ _).trans hlength
    · show (inOrder (inSortOrder _)).length + (inOrder (inSortOrder _)).length ≤ maxPeers
      rwa [inOrder_eq (pairwise_inSortOrder _), inOrder_eq (pairwise_inSortOrder _)]
    · intro k hk hkb
      have hk' : k ∈ OrderDual.ofDual allowed := by
        rw [← toFinset_inSortOrder (OrderDual.ofDual allowed), List.mem_toFinset]
        exact hk
      have hkb' : k ∈ blocked := by
        rw [← toFinset_inSortOrder blocked, List.mem_toFinset]
        exact hkb
      exact Finset.disjoint_left.1 hdisjoint hk' hkb'

end

end SignetApp.ChildContacts
