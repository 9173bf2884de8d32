import Mathlib.Data.Prod.Lex
import SignetApp.Child.Rules
import SignetApp.Collections.Exchange

/-!
# Rules converge

A version of a rule is ranked by its time, its tombstone and its canonical text, which tells
versions apart up to when they were last used. A merge is the join of the ranks, id by id, so the
order in which devices merge does not show (`mergeChildRules_converge`).
-/

namespace SignetApp.Child

open SignetApp.Js SignetApp.Sync
open SignetApp.Grants (Decision)

/-! ## Canonical text -/

theorem lookup_optionalProp (name k : String) (v : Option JsValue) :
    (optionalProp name v).lookup k = if k = name then v else none := by
  cases v with
  | none => simp [optionalProp]
  | some v =>
    by_cases h : k = name
    · simp [optionalProp, h]
    · have hb : (k == name) = false := by simpa using h
      simp [optionalProp, List.lookup_cons, h, hb]

theorem names_optionalProp (name : String) (v : Option JsValue) :
    ((optionalProp name v).map Prod.fst).Sublist [name] := by
  cases v with
  | none => exact List.nil_sublist _
  | some v => exact List.Sublist.refl _

theorem lookup_eq_of_perm {xs ys : JsObject} (h : xs.Perm ys) (hnodup : (xs.map Prod.fst).Nodup)
    (name : String) : xs.lookup name = ys.lookup name := by
  have hnodup' : (ys.map Prod.fst).Nodup := (h.map Prod.fst).nodup_iff.mp hnodup
  ext v
  rw [← OrderedMap.mem_iff_lookup hnodup, ← OrderedMap.mem_iff_lookup hnodup', h.mem_iff]

theorem AppPermissionBinding.toJs_injective : Function.Injective AppPermissionBinding.toJs := by
  intro p q h
  obtain ⟨appId, installKey⟩ := p
  obtain ⟨appId', installKey'⟩ := q
  simpa [AppPermissionBinding.toJs] using h

theorem PosInt.toJs_injective : Function.Injective PosInt.toJs := by
  intro m n h
  apply Subtype.ext
  simpa [PosInt.toJs, JsValue.ofNat] using h

theorem decisionName_injective : Function.Injective Decision.name := by
  intro d e h
  cases d <;> cases e <;> first | rfl | simp [Decision.name] at h

theorem lastUse_eq_sup (l r : WithBot PosInt) : lastUse l r = l ⊔ r := by
  induction l with
  | bot => exact (bot_sup_eq r).symm
  | coe l =>
    induction r with
    | bot => exact (sup_bot_eq (l : WithBot PosInt)).symm
    | coe r =>
      have hmax : (if l.val < r.val then r else l) = l ⊔ r := by
        split
        · next h => exact (sup_eq_right.mpr (show l ≤ r from h.le)).symm
        · next h => exact (sup_eq_left.mpr (show r ≤ l from not_lt.mp h)).symm
      exact (congrArg some hmax).trans (WithBot.coe_sup l r)

section
variable [Numerals]

theorem nodup_rest (r : SyncedRule) : (r.rest.map Prod.fst).Nodup := by
  have hsub : (r.rest.map Prod.fst).Sublist
      (["id", "dependantId", "persona", "scope", "target", "decision", "createdAt", "updatedAt"]
        ++ ["schedule"] ++ ["label"] ++ ["expiresAt"] ++ ["appPermission"] ++ ["tombstonedAt"]) := by
    simp only [ChildRule.rest, List.map_append]
    refine List.Sublist.append (List.Sublist.append (List.Sublist.append (List.Sublist.append
      (List.Sublist.append ?_ ?_) ?_) ?_) ?_) ?_
    · exact List.Sublist.refl _
    all_goals exact names_optionalProp _ _
  exact hsub.nodup (by decide)

theorem isJson_rest (hint : IntegersSurvive) (r : SyncedRule) : ∀ p ∈ r.rest, IsJson p.2 := by
  have hopt : ∀ (name : String) (v : Option JsValue), (∀ w ∈ v, IsJson w) →
      ∀ p ∈ optionalProp name v, IsJson p.2 := by
    intro name v hv p hp
    obtain ⟨w, hw, rfl⟩ := List.mem_map.mp hp
    exact hv w (Option.mem_toList.mp hw)
  have hmap : ∀ {α : Type} (v : Option α) (f : α → JsValue), (∀ a, IsJson (f a)) →
      ∀ w ∈ v.map f, IsJson w := by
    intro α v f hf w hw
    obtain ⟨a, -, rfl⟩ := Option.map_eq_some_iff.mp hw
    exact hf a
  have hpos : ∀ n : PosInt, IsJson (PosInt.toJs n) := fun n => hint.nat n.val
  intro p hp
  simp only [ChildRule.rest, List.mem_append] at hp
  rcases hp with ((((hp | hp) | hp) | hp) | hp) | hp
  · simp only [List.mem_cons, List.not_mem_nil, or_false] at hp
    rcases hp with rfl | rfl | rfl | rfl | rfl | rfl | rfl | rfl
    all_goals first | exact trivial | exact hpos _
  · exact hopt _ _ (hmap _ _ fun v => v.property) p hp
  · exact hopt _ _ (hmap r.label JsValue.str fun _ => trivial) p hp
  · exact hopt _ _ (hmap _ _ hpos) p hp
  · refine hopt _ _ (hmap _ _ fun v => ?_) p hp
    simp only [AppPermissionBinding.toJs, IsJson, HoldJson, and_true, List.map_cons, List.map_nil]
    exact ⟨by decide, hint.nat 1⟩
  · exact hopt _ _ (hmap _ _ hpos) p hp

theorem perm_rest_of_canonicalRuleJson (hint : IntegersSurvive) {l r : SyncedRule}
    (h : canonicalRuleJson l = canonicalRuleJson r) : l.rest.Perm r.rest := by
  have hsorted : ∀ s : SyncedRule,
      (s.rest.mergeSort fun x y => decide (x.1 ≤ y.1)).Perm s.rest := fun s =>
    List.mergeSort_perm _ _
  have hjson : ∀ s : SyncedRule,
      IsJson (.obj (s.rest.mergeSort fun x y => decide (x.1 ≤ y.1))) := by
    intro s
    rw [IsJson, holdJson_iff]
    exact ⟨((hsorted s).map Prod.fst).nodup_iff.mpr (nodup_rest s),
      fun p hp => isJson_rest hint s p ((hsorted s).mem_iff.mp hp)⟩
  have hparse := congrArg parse h
  rw [canonicalRuleJson, canonicalRuleJson, parse_jsonText (hjson l), parse_jsonText (hjson r)]
    at hparse
  have heq := JsValue.obj.inj (Option.some.inj hparse)
  exact (hsorted l).symm.trans (heq ▸ hsorted r)

theorem lookup_rest {l r : SyncedRule} (h : l.rest.Perm r.rest) (name : String) :
    l.rest.lookup name = r.rest.lookup name :=
  lookup_eq_of_perm h (nodup_rest l) name

/-- **The canonical text tells two versions apart**, up to when they were last used. -/
theorem eq_of_canonicalRuleJson (hint : IntegersSurvive) {l r : SyncedRule}
    (h : canonicalRuleJson l = canonicalRuleJson r) (hused : l.lastUsedAt = r.lastUsedAt) :
    l = r := by
  have hlookup := lookup_rest (perm_rest_of_canonicalRuleJson hint h)
  have hid : l.id = r.id := by
    simpa [ChildRule.rest, List.lookup_cons] using hlookup "id"
  have hdep : l.dependantId = r.dependantId := by
    simpa [ChildRule.rest, List.lookup_cons] using hlookup "dependantId"
  have hpersona : l.persona = r.persona := by
    simpa [ChildRule.rest, List.lookup_cons] using hlookup "persona"
  have hscope : l.scope = r.scope := by
    simpa [ChildRule.rest, List.lookup_cons] using hlookup "scope"
  have htarget : l.target = r.target := by
    simpa [ChildRule.rest, List.lookup_cons] using hlookup "target"
  have hdecision : l.decision = r.decision := by
    have hlit : lit l.decision.name = lit r.decision.name := by
      simpa [ChildRule.rest, List.lookup_cons, JsValue.ofLit] using hlookup "decision"
    exact decisionName_injective (by simpa using congrArg nameOf hlit)
  have hcreated : l.createdAt = r.createdAt := by
    have h := hlookup "createdAt"
    simp only [ChildRule.rest, List.cons_append, List.lookup_cons] at h
    exact PosInt.toJs_injective (Option.some.inj h)
  have hupdated : l.updatedAt = r.updatedAt := by
    have h := hlookup "updatedAt"
    simp only [ChildRule.rest, List.cons_append, List.lookup_cons] at h
    exact PosInt.toJs_injective (Option.some.inj h)
  have hschedule : l.schedule = r.schedule := by
    apply Option.map_injective Subtype.val_injective
    simpa [ChildRule.rest, List.lookup_append, List.lookup_cons, lookup_optionalProp]
      using hlookup "schedule"
  have hlabel : l.label = r.label := by
    apply Option.map_injective (fun _ _ => JsValue.str.inj)
    simpa [ChildRule.rest, List.lookup_append, List.lookup_cons, lookup_optionalProp]
      using hlookup "label"
  have hexpires : l.expiresAt = r.expiresAt := by
    apply Option.map_injective PosInt.toJs_injective
    simpa [ChildRule.rest, List.lookup_append, List.lookup_cons, lookup_optionalProp]
      using hlookup "expiresAt"
  have happ : l.appPermission = r.appPermission := by
    apply Option.map_injective AppPermissionBinding.toJs_injective
    simpa [ChildRule.rest, List.lookup_append, List.lookup_cons, lookup_optionalProp]
      using hlookup "appPermission"
  have htomb : l.tombstonedAt = r.tombstonedAt := by
    apply Option.map_injective PosInt.toJs_injective
    simpa [ChildRule.rest, List.lookup_append, List.lookup_cons, lookup_optionalProp]
      using hlookup "tombstonedAt"
  cases l
  cases r
  simp_all

/-! ## The order of versions -/

/-- What decides between two versions: the time, then the tombstone, then the canonical text. -/
abbrev Rank := ℕ ×ₗ Bool ×ₗ JsString

def rank (r : SyncedRule) : Rank :=
  toLex (effectiveTime r, toLex (r.tombstonedAt.isSome, canonicalRuleJson r))

theorem rank_lt_iff {l r : SyncedRule} :
    rank l < rank r ↔ effectiveTime l < effectiveTime r ∨ (effectiveTime l = effectiveTime r ∧
      (l.tombstonedAt.isSome < r.tombstonedAt.isSome ∨
        (l.tombstonedAt.isSome = r.tombstonedAt.isSome ∧
          canonicalRuleJson l < canonicalRuleJson r))) := by
  rw [rank, rank, Prod.Lex.toLex_lt_toLex, Prod.Lex.toLex_lt_toLex]

theorem rank_eq_iff {l r : SyncedRule} :
    rank l = rank r ↔ effectiveTime l = effectiveTime r ∧
      l.tombstonedAt.isSome = r.tombstonedAt.isSome ∧
        canonicalRuleJson l = canonicalRuleJson r := by
  simp [rank]

theorem pick_cases (l r : SyncedRule) :
    (pick l r = .remote ∧ rank l < rank r) ∨ (pick l r = .same ∧ rank l = rank r) ∨
      (pick l r = .local ∧ rank r < rank l) := by
  rw [rank_lt_iff, rank_eq_iff, rank_lt_iff, pick]
  by_cases htime : effectiveTime r = effectiveTime l
  · simp only [htime, ne_eq, not_true, if_false, lt_irrefl, true_and, false_or]
    cases htl : l.tombstonedAt.isSome <;> cases htr : r.tombstonedAt.isSome
    case false.true => simp
    case true.false => simp
    all_goals
      simp only [not_true, if_false, lt_irrefl, true_and, false_or]
      rcases lt_trichotomy (canonicalRuleJson l) (canonicalRuleJson r) with h | h | h
      · simp [h, h.ne]
      · simp [h]
      · simp [h, h.ne', h.not_gt]
  · rcases Nat.lt_or_gt_of_ne htime with h | h
    · simp [htime, h, h.not_gt]
    · simp [htime, h]

theorem pick_eq_remote_iff {l r : SyncedRule} : pick l r = .remote ↔ rank l < rank r := by
  rcases pick_cases l r with ⟨hpick, hrank⟩ | ⟨hpick, hrank⟩ | ⟨hpick, hrank⟩
  · simp [hpick, hrank]
  · simp [hpick, hrank]
  · simp [hpick, hrank.not_gt]

theorem pick_eq_local_iff {l r : SyncedRule} : pick l r = .local ↔ rank r < rank l := by
  rcases pick_cases l r with ⟨hpick, hrank⟩ | ⟨hpick, hrank⟩ | ⟨hpick, hrank⟩
  · simp [hpick, hrank.not_gt]
  · simp [hpick, hrank]
  · simp [hpick, hrank]

/-- What a merge keeps of a version: its rank, and when it was last used. -/
def shown (r : SyncedRule) : Rank × WithBot PosInt := (rank r, r.lastUsedAt)

theorem shown_injective (hint : IntegersSurvive) : Function.Injective shown := by
  intro l r h
  obtain ⟨hrank, hused⟩ := Prod.mk.inj h
  exact eq_of_canonicalRuleJson hint (rank_eq_iff.mp hrank).2.2 hused

theorem mergeRule_eq (l r : SyncedRule) :
    mergeRule l r = { (if rank l < rank r then r else l) with
      lastUsedAt := lastUse l.lastUsedAt r.lastUsedAt } := by
  have hwinner : (if pick l r = .remote then r else l) = if rank l < rank r then r else l := by
    simp only [pick_eq_remote_iff]
  rw [mergeRule, hwinner]
  cases hused : lastUse l.lastUsedAt r.lastUsedAt with
  | some used => rfl
  | none =>
    have hnone : l.lastUsedAt = none ∧ r.lastUsedAt = none := by
      cases hl : l.lastUsedAt <;> cases hr : r.lastUsedAt <;> simp [lastUse, hl, hr] at hused ⊢
    simp only
    split
    · rw [← hnone.2]
    · rw [← hnone.1]

theorem shown_mergeRule (l r : SyncedRule) : shown (mergeRule l r) = shown l ⊔ shown r := by
  rw [mergeRule_eq]
  apply Prod.ext
  · show rank (if rank l < rank r then r else l) = rank l ⊔ rank r
    split
    · next h => exact (sup_eq_right.mpr h.le).symm
    · next h => exact (sup_eq_left.mpr (not_lt.mp h)).symm
  · exact lastUse_eq_sup _ _

/-! ## Id by id -/

abbrev ruleFor (rules : List SyncedRule) (id : JsString) : Option SyncedRule :=
  valueFor ChildRule.id rules id

/-! ## The loop -/

theorem mergeRule_id {l r : SyncedRule} (h : l.id = r.id) : (mergeRule l r).id = r.id := by
  rw [mergeRule_eq]
  show (if rank l < rank r then r else l).id = r.id
  split
  · rfl
  · exact h

theorem mergeRule_eq_left_iff {l r : SyncedRule} :
    mergeRule l r = l ↔ ¬ (pick l r = .remote ∨ (mergeRule l r).lastUsedAt ≠ l.lastUsedAt) := by
  rw [pick_eq_remote_iff]
  constructor
  · rintro heq (hlt | hused)
    · have hrank : rank l ⊔ rank r = rank l :=
        (congrArg Prod.fst (shown_mergeRule l r)).symm.trans (congrArg rank heq)
      exact absurd hlt (not_lt.mpr (sup_eq_left.mp hrank))
    · exact hused (congrArg _ heq)
  · intro h
    obtain ⟨hlt, hused⟩ := not_or.mp h
    rw [mergeRule_eq, if_neg hlt] at hused ⊢
    rw [show lastUse l.lastUsedAt r.lastUsedAt = l.lastUsedAt from not_not.mp hused]

/-- The map of the loop, beside its flag. -/
abbrev mapOf : OrderedMap JsString SyncedRule × Bool → OrderedMap JsString SyncedRule := Prod.fst

theorem mergeStep_cases (byId : OrderedMap JsString SyncedRule) (changed : Bool) (r : SyncedRule) :
    let next := (byId.get r.id).merge mergeRule (some r)
    (mergeStep (byId, changed) r = (byId, changed) ∧ next = byId.get r.id) ∨
    ∃ s, next = some s ∧ mergeStep (byId, changed) r = (byId.set r.id s, true) ∧
      next ≠ byId.get r.id := by
  cases hl : byId.get r.id with
  | none =>
    refine .inr ⟨r, rfl, ?_, by simp⟩
    rw [mergeStep]
    simp only [hl]
  | some l =>
    by_cases hsame : mergeRule l r = l
    · refine .inl ⟨?_, by simp [hsame]⟩
      rw [mergeStep]
      simp only [hl, if_neg (mergeRule_eq_left_iff.mp hsame)]
    · refine .inr ⟨mergeRule l r, rfl, ?_, fun heq => hsame (Option.some.inj heq)⟩
      rw [mergeStep]
      simp only [hl, if_pos (not_not.mp (mt mergeRule_eq_left_iff.mpr hsame))]

theorem merges_mergeStep : Merges ChildRule.id mapOf mergeRule mergeStep := by
  rintro ⟨byId, changed⟩ r hkeyed
  rcases mergeStep_cases byId changed r with ⟨hstep, hnext⟩ | ⟨s, hnext, hstep, -⟩
  · rw [hstep]
    refine ⟨hkeyed, fun id => ?_⟩
    split
    · next hid => rw [hid]; exact hnext.symm
    · rfl
  · have hid : s.id = r.id := by
      cases hl : byId.get r.id with
      | none => rw [hl] at hnext; exact congrArg ChildRule.id (Option.some.inj hnext).symm
      | some l =>
        rw [hl] at hnext
        rw [← Option.some.inj hnext]
        exact mergeRule_id (hkeyed.of_get hl)
    rw [hstep]
    refine ⟨hkeyed.set hid, fun id => ?_⟩
    rw [mapOf, OrderedMap.get_set]
    split
    · next hid => rw [hid]; exact hnext.symm
    · rfl

/-- The flag says whether some rule changed. -/
theorem foldl_mergeStep_changed {remotes : List SyncedRule} (hr : OneEach ChildRule.id remotes)
    {byId : OrderedMap JsString SyncedRule} (hkeyed : Keyed ChildRule.id byId) (changed : Bool) :
    ((remotes.foldl mergeStep (byId, changed)).2 = true ↔ changed = true ∨
      ∃ id, (byId.get id).merge mergeRule (ruleFor remotes id) ≠ byId.get id) ∧
    ((remotes.foldl mergeStep (byId, changed)).2 = false →
      (remotes.foldl mergeStep (byId, changed)).1 = byId) := by
  induction remotes generalizing byId changed with
  | nil => exact ⟨by simp, fun _ => rfl⟩
  | cons r remotes ih =>
    obtain ⟨hnew, hrest⟩ := List.nodup_cons.mp hr
    have hfresh : valueFor ChildRule.id remotes r.id = none := valueFor_eq_none hnew
    rw [List.foldl_cons]
    rcases mergeStep_cases byId changed r with ⟨hstep, hnext⟩ | ⟨s, hnext, hstep, hne⟩
    · -- The rule of this id stays: whatever changes, changes later.
      obtain ⟨ihChanged, ihSame⟩ := ih hrest hkeyed changed
      rw [hstep]
      refine ⟨ihChanged.trans (or_congr_right (exists_congr fun id => not_congr ?_)), ihSame⟩
      rw [ruleFor, ruleFor, valueFor_cons]
      by_cases hid : r.id = id
      · rw [if_pos hid, ← hid, hfresh, Option.merge_none_right, hnext]
      · rw [if_neg hid]
    · have hset := (merges_mergeStep (byId, changed) r hkeyed).1
      rw [mapOf, hstep] at hset
      have hflag := (ih hrest hset true).1.mpr (.inl rfl)
      rw [hstep]
      refine ⟨iff_of_true hflag (.inr ⟨r.id, ?_⟩), fun hfalse => ?_⟩
      · rw [ruleFor, valueFor_cons, if_pos rfl]
        exact hne
      · rw [hflag] at hfalse
        cases hfalse

/-! ## Merging lists -/

section
variable {l r : List SyncedRule}

theorem mergeChildRules_spec (hl : OneEach ChildRule.id l) (hr : OneEach ChildRule.id r) :
    OneEach ChildRule.id (mergeChildRules l r).1 ∧
    (∀ id, ruleFor (mergeChildRules l r).1 id = (ruleFor l id).merge mergeRule (ruleFor r id)) ∧
    ((mergeChildRules l r).2 = true ↔ ∃ id, ruleFor (mergeChildRules l r).1 id ≠ ruleFor l id) ∧
    ((mergeChildRules l r).2 = false → (mergeChildRules l r).1 = l) := by
  obtain ⟨hkeyed, hget⟩ :=
    foldl_merge (s := (byKey ChildRule.id l, false)) merges_mergeStep hr (keyed_byKey hl)
  obtain ⟨hchanged, hsame⟩ := foldl_mergeStep_changed hr (keyed_byKey hl) false
  have hrule : ∀ id, ruleFor (mergeChildRules l r).1 id
      = (ruleFor l id).merge mergeRule (ruleFor r id) := by
    intro id
    rw [show ruleFor l id = (byKey ChildRule.id l).get id from (get_byKey hl id).symm]
    exact (valueFor_values hkeyed id).trans (hget id)
  refine ⟨oneEach_values hkeyed, hrule, ?_, fun h => ?_⟩
  · simp only [hrule]
    simp only [get_byKey hl] at hchanged
    exact hchanged.trans (by simp)
  · exact (congrArg OrderedMap.values (hsame h)).trans (values_byKey hl)

/-- What a merge keeps of a list. -/
def shownRules (rules : List SyncedRule) : JsString → WithBot (Rank × WithBot PosInt) :=
  fun id => (ruleFor rules id).map shown

theorem shownRules_merge (hl : OneEach ChildRule.id l) (hr : OneEach ChildRule.id r) :
    shownRules (mergeChildRules l r).1 = shownRules l ⊔ shownRules r := by
  funext id
  show (ruleFor (mergeChildRules l r).1 id).map shown = shownRules l id ⊔ shownRules r id
  rw [(mergeChildRules_spec hl hr).2.1, shownRules, shownRules]
  cases ruleFor l id with
  | none =>
    rw [Option.merge_none_left]
    exact (bot_sup_eq (α := WithBot (Rank × WithBot PosInt)) _).symm
  | some v =>
    cases ruleFor r id with
    | none => exact (sup_bot_eq (α := WithBot (Rank × WithBot PosInt)) _).symm
    | some w => exact congrArg some (shown_mergeRule v w)

theorem ruleFor_eq_of_shownRules (hint : IntegersSurvive) (h : shownRules l = shownRules r)
    (id : JsString) : ruleFor l id = ruleFor r id :=
  Option.map_injective (shown_injective hint) (congrFun h id)

theorem isRulesRicherThan_of_same (hl : OneEach ChildRule.id l) (hr : OneEach ChildRule.id r)
    (h : ∀ id, ruleFor l id = ruleFor r id) : isRulesRicherThan l r = false := by
  rw [isRulesRicherThan, List.any_eq_false]
  intro v hv
  have hget : (byKey ChildRule.id r).get v.id = some v := by
    rw [get_byKey hr, ← ruleFor, ← h]
    exact valueFor_self hl hv
  have hpick : ¬ pick v v = .local := fun hlocal => lt_irrefl _ (pick_eq_local_iff.mp hlocal)
  simp only [hget]
  simpa using hpick

end

theorem isSome_tombstonedAt_mergeRule {l r : SyncedRule} (htime : effectiveTime l = effectiveTime r)
    (h : l.tombstonedAt.isSome = true ∨ r.tombstonedAt.isSome = true) :
    (mergeRule l r).tombstonedAt.isSome = true := by
  rw [mergeRule_eq]
  show (if rank l < rank r then r else l).tombstonedAt.isSome = true
  split
  · next hlt =>
    rw [rank_lt_iff] at hlt
    rcases h with hl | hr
    · rw [hl] at hlt
      rcases hlt with hlt | ⟨-, hlt | ⟨heq, -⟩⟩
      · omega
      · exact absurd hlt (by cases r.tombstonedAt.isSome <;> decide)
      · exact heq.symm
    · exact hr
  · next hlt =>
    by_contra hl
    have hr := h.resolve_left hl
    refine hlt (rank_lt_iff.mpr (.inr ⟨htime, .inl ?_⟩))
    rw [Bool.not_eq_true] at hl
    rw [hl, hr]
    decide

/-! ## Any number of devices -/

/-- The rules a device ends with. -/
def endsWith (t : Exchange (List SyncedRule)) : List SyncedRule :=
  t.outcome fun l r => (mergeChildRules l r).1

section
variable {t : Exchange (List SyncedRule)}

theorem oneEach_endsWith (ht : ∀ a ∈ t.sources, OneEach ChildRule.id a) : OneEach ChildRule.id (endsWith t) :=
  Exchange.outcome_of_sources (P := OneEach ChildRule.id) (fun _ _ hl hr => (mergeChildRules_spec hl hr).1) ht

theorem isLUB_endsWith (ht : ∀ a ∈ t.sources, OneEach ChildRule.id a) :
    IsLUB (Set.image shownRules {a | a ∈ t.sources}) (shownRules (endsWith t)) :=
  Exchange.isLUB_outcome (P := OneEach ChildRule.id) (fun _ _ hl hr => (mergeChildRules_spec hl hr).1)
    (fun _ _ hl hr => shownRules_merge hl hr) ht

/-- Each version a device ends with is one that some device started with, but for its use. -/
theorem exists_source (ht : ∀ a ∈ t.sources, OneEach ChildRule.id a) {id : JsString} {w : SyncedRule}
    (hw : ruleFor (endsWith t) id = some w) :
    ∃ b ∈ t.sources, ∃ x, ruleFor b id = some x ∧ rank x = rank w := by
  induction t generalizing w with
  | holds a => exact ⟨a, List.mem_cons_self, w, hw, rfl⟩
  | merge own remote ihOwn ihRemote =>
    have hown : ∀ a ∈ own.sources, OneEach ChildRule.id a := fun a ha => ht a (List.mem_append_left _ ha)
    have hremote : ∀ a ∈ remote.sources, OneEach ChildRule.id a := fun a ha =>
      ht a (List.mem_append_right _ ha)
    have hleft : ∀ w, ruleFor (endsWith own) id = some w →
        ∃ b ∈ (Exchange.merge own remote).sources, ∃ x, ruleFor b id = some x ∧ rank x = rank w := by
      intro w hw
      obtain ⟨b, hb, hx⟩ := ihOwn hown hw
      exact ⟨b, List.mem_append_left _ hb, hx⟩
    have hright : ∀ w, ruleFor (endsWith remote) id = some w →
        ∃ b ∈ (Exchange.merge own remote).sources, ∃ x, ruleFor b id = some x ∧ rank x = rank w := by
      intro w hw
      obtain ⟨b, hb, hx⟩ := ihRemote hremote hw
      exact ⟨b, List.mem_append_right _ hb, hx⟩
    have hspec := (mergeChildRules_spec (oneEach_endsWith hown) (oneEach_endsWith hremote)).2.1 id
    rw [show endsWith (.merge own remote)
      = (mergeChildRules (endsWith own) (endsWith remote)).1 from rfl, hspec] at hw
    cases hl : ruleFor (endsWith own) id with
    | none =>
      rw [hl, Option.merge_none_left] at hw
      exact hright w hw
    | some u =>
      cases hr : ruleFor (endsWith remote) id with
      | none =>
        rw [hl, hr] at hw
        exact hleft w (hl.trans hw)
      | some v =>
        rw [hl, hr] at hw
        obtain rfl := Option.some.inj hw
        have hrank : rank (mergeRule u v) = rank u ⊔ rank v :=
          congrArg Prod.fst (shown_mergeRule u v)
        rcases le_total (rank u) (rank v) with hle | hle
        · rw [hrank, sup_eq_right.mpr hle]
          exact hright v hr
        · rw [hrank, sup_eq_left.mpr hle]
          exact hleft u hl

theorem le_endsWith (ht : ∀ a ∈ t.sources, OneEach ChildRule.id a) {a : List SyncedRule} (ha : a ∈ t.sources)
    {id : JsString} {v : SyncedRule} (hv : ruleFor a id = some v) :
    ∃ w, ruleFor (endsWith t) id = some w ∧ rank v ≤ rank w := by
  have hle : shownRules a id ≤ shownRules (endsWith t) id :=
    (isLUB_endsWith ht).1 (Set.mem_image_of_mem _ ha) id
  rw [shownRules, shownRules, hv] at hle
  cases hw : ruleFor (endsWith t) id with
  | none =>
    rw [hw] at hle
    exact absurd hle (WithBot.not_coe_le_bot _)
  | some w =>
    rw [hw] at hle
    exact ⟨w, rfl, (WithBot.coe_le_coe.mp hle).1⟩

end

/-- What convergence of the rules is, for lists with one record for each id. -/
structure RulesConverge : Prop where
  /-- A merge keeps one record for each id, and merges the versions id by id. -/
  version : ∀ l r, OneEach ChildRule.id l → OneEach ChildRule.id r → OneEach ChildRule.id (mergeChildRules l r).1 ∧
    ∀ id, ruleFor (mergeChildRules l r).1 id = (ruleFor l id).merge mergeRule (ruleFor r id)
  /-- Of two versions the greater is kept, with the later use. -/
  greatest : ∀ v w : SyncedRule, mergeRule v w = { (if rank v < rank w then w else v) with
    lastUsedAt := lastUse v.lastUsedAt w.lastUsedAt }
  tombstone_wins : ∀ v w : SyncedRule, effectiveTime v = effectiveTime w →
    v.tombstonedAt.isSome = true ∨ w.tombstonedAt.isSome = true →
    (mergeRule v w).tombstonedAt.isSome = true
  changed_iff : ∀ l r, OneEach ChildRule.id l → OneEach ChildRule.id r → ((mergeChildRules l r).2 = true ↔
    ∃ id, ruleFor (mergeChildRules l r).1 id ≠ ruleFor l id)
  unchanged : ∀ l r, OneEach ChildRule.id l → OneEach ChildRule.id r → (mergeChildRules l r).2 = false →
    (mergeChildRules l r).1 = l
  comm : ∀ l r, OneEach ChildRule.id l → OneEach ChildRule.id r → ∀ id,
    ruleFor (mergeChildRules l r).1 id = ruleFor (mergeChildRules r l).1 id
  assoc : ∀ a b c, OneEach ChildRule.id a → OneEach ChildRule.id b → OneEach ChildRule.id c → ∀ id,
    ruleFor (mergeChildRules (mergeChildRules a b).1 c).1 id
      = ruleFor (mergeChildRules a (mergeChildRules b c).1).1 id
  idem : ∀ l, OneEach ChildRule.id l → ∀ id, ruleFor (mergeChildRules l l).1 id = ruleFor l id
  /-- Devices that heard of the same lists end with the same rules. -/
  any_order : ∀ t u : Exchange (List SyncedRule), (∀ a ∈ t.sources, OneEach ChildRule.id a) →
    (∀ a, a ∈ t.sources ↔ a ∈ u.sources) → ∀ id,
    ruleFor (endsWith t) id = ruleFor (endsWith u) id
  not_richer : ∀ l r, OneEach ChildRule.id l → OneEach ChildRule.id r → (∀ id, ruleFor l id = ruleFor r id) →
    isRulesRicherThan l r = false
  /-- Only a version of a later time, held by some device, revives a removed rule. -/
  revived_later : ∀ t : Exchange (List SyncedRule), (∀ a ∈ t.sources, OneEach ChildRule.id a) →
    ∀ a ∈ t.sources, ∀ id v, ruleFor a id = some v → v.tombstonedAt.isSome = true →
    ∃ w, ruleFor (endsWith t) id = some w ∧ (w.tombstonedAt = none →
      effectiveTime v < effectiveTime w ∧
      ∃ b ∈ t.sources, ∃ x, ruleFor b id = some x ∧ rank x = rank w)

theorem later_of_revived {v w : SyncedRule} (hle : rank v ≤ rank w)
    (hv : v.tombstonedAt.isSome = true) (hw : w.tombstonedAt = none) :
    effectiveTime v < effectiveTime w := by
  have hlive : w.tombstonedAt.isSome = false := by rw [hw]; rfl
  rcases hle.lt_or_eq with hlt | heq
  · rcases rank_lt_iff.mp hlt with h | ⟨-, h | ⟨h, -⟩⟩
    · exact h
    · rw [hv, hlive] at h
      exact absurd h (by decide)
    · rw [hv, hlive] at h
      cases h
  · have h := (rank_eq_iff.mp heq).2.1
    rw [hv, hlive] at h
    cases h

/-- **Child rules converge** on every device. -/
theorem mergeChildRules_converge (hint : IntegersSurvive) : RulesConverge where
  version l r hl hr := ⟨(mergeChildRules_spec hl hr).1, (mergeChildRules_spec hl hr).2.1⟩
  greatest := mergeRule_eq
  tombstone_wins _ _ := isSome_tombstonedAt_mergeRule
  changed_iff _ _ hl hr := (mergeChildRules_spec hl hr).2.2.1
  unchanged _ _ hl hr := (mergeChildRules_spec hl hr).2.2.2
  comm l r hl hr := by
    apply ruleFor_eq_of_shownRules hint
    rw [shownRules_merge hl hr, shownRules_merge hr hl, sup_comm]
  assoc a b c ha hb hc := by
    apply ruleFor_eq_of_shownRules hint
    rw [shownRules_merge (mergeChildRules_spec ha hb).1 hc, shownRules_merge ha hb,
      shownRules_merge ha (mergeChildRules_spec hb hc).1, shownRules_merge hb hc, sup_assoc]
  idem l hl := by
    apply ruleFor_eq_of_shownRules hint
    rw [shownRules_merge hl hl, sup_idem]
  any_order t u ht hsame := by
    apply ruleFor_eq_of_shownRules hint
    exact Exchange.view_outcome_eq (P := OneEach ChildRule.id)
      (fun _ _ hl hr => (mergeChildRules_spec hl hr).1)
      (fun _ _ hl hr => shownRules_merge hl hr) ht hsame
  not_richer _ _ := isRulesRicherThan_of_same
  revived_later t ht a ha id v hv hremoved := by
    obtain ⟨w, hw, hle⟩ := le_endsWith ht ha hv
    exact ⟨w, hw, fun hlive => ⟨later_of_revived hle hremoved hlive, exists_source ht hw⟩⟩

end

theorem mergeChildRules_converge_decimal : @RulesConverge decimalNumerals :=
  @mergeChildRules_converge decimalNumerals integersSurvive_decimal

end SignetApp.Child
