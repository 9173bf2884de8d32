import SignetApp.Collections.Dated
import SignetApp.Collections.Exchange
import SignetApp.Family.ChildContactSettings
import SignetApp.Sync.Wire

/-!
# The strictest choice wins

Rows of one child and guardian are dated, marked choices: of two rows the later one stands, and rows
of one date that differ are met. The text of a row only picks the policy, and it picks the lesser one.
-/

namespace SignetApp.Family.ChildContact

open SignetApp.Js SignetApp.Sync
open SignetApp.Contacts (ContactCeilingTier ContactRecord DirectoryId maxCheckTime rankOf
  resolveEffective)

/-! ## Rows as values -/

theorem pairwise_lt_eq_of_toFinset {α : Type} [LinearOrder α] {xs ys : List α}
    (hxs : xs.Pairwise (· < ·)) (hys : ys.Pairwise (· < ·)) (h : xs.toFinset = ys.toFinset) :
    xs = ys := by
  have hperm : xs.Perm ys := by
    apply (List.perm_ext_iff_of_nodup hxs.sortedLT.nodup hys.sortedLT.nodup).2
    intro a
    rw [← List.mem_toFinset, h, List.mem_toFinset]
  exact hperm.eq_of_pairwise (fun a b _ _ hab hba => absurd hba hab.asymm) hxs hys

theorem ApprovedContacts.ofList_val (a : ApprovedContacts) :
    ApprovedContacts.ofList a.val a.property.2 = a := by
  apply Subtype.ext
  apply pairwise_lt_eq_of_toFinset (ApprovedContacts.ofList a.val a.property.2).property.1 a.property.1
  show ((distinct a.val).insertionSort (· ≤ ·)).toFinset = a.val.toFinset
  ext key
  rw [List.mem_toFinset, List.mem_insertionSort, mem_distinct, List.mem_toFinset]

/-- A portable row reads as itself. -/
@[simp] theorem portable_toJs (s : ChildSettings) : portableChildContactSettings s.toJs = some s := by
  have happroved : isArrayOf (isHex 64) (.arr (s.approvedContacts.val.map Hex.toJs))
      = some s.approvedContacts.val := isArrayOf_toJs isHex_toJs _
  have hconflicted : isOpt isBool (s.toJs.get "contactPolicyConflicted")
      = some (if s.contactPolicyConflicted then some true else none) := by
    unfold ChildSettings.toJs ChildSettings.rest
    cases s.contactPolicyConflicted <;> rfl
  have hceiling : orDefault (StringUnion.toJs s.defaultChildCeiling) (.ofLit "ken")
      = StringUnion.toJs s.defaultChildCeiling := by
    cases s.defaultChildCeiling <;> rfl
  have hupdated : orDefault s.updatedAt.toJs (.ofNat 0) = s.updatedAt.toJs := rfl
  have hlist : orDefault (.arr (s.approvedContacts.val.map Hex.toJs)) (.arr [])
      = .arr (s.approvedContacts.val.map Hex.toJs) := rfl
  have hobj : isObj s.toJs = true := rfl
  have hget : ∀ name v, s.rest.lookup name = some v → s.toJs.get name = v := by
    intro name v hv
    show ((s.rest ++ _).lookup name).getD .undefined = v
    rw [List.lookup_append, hv]
    rfl
  unfold portableChildContactSettings
  rw [hobj, hget "childPubkey" _ rfl, hget "guardianPubkey" _ rfl, hget "contactPolicy" _ rfl,
    hget "defaultChildCeiling" _ rfl, hget "updatedAt" _ rfl, hget "approvedContacts" _ rfl,
    hconflicted, hceiling, hupdated, hlist, happroved]
  simp only [isHex_toJs, parse_toJs, isBoundedNat_toJs, guard_true, Option.bind_eq_bind,
    Option.bind_some, Option.pure_def, dif_pos s.approvedContacts.property.2, ApprovedContacts.ofList_val]
  have hmark : (if s.contactPolicyConflicted then some true else none).getD false
      = s.contactPolicyConflicted := by
    cases s.contactPolicyConflicted <;> rfl
  rw [hmark]

/-! ## The text of a row -/

theorem append_lt_append_iff (p a b : JsString) : p ++ a < p ++ b ↔ a < b := by
  induction p with
  | nil => exact Iff.rfl
  | cons u p ih =>
    rw [List.cons_append, List.cons_append, List.cons_lt_cons_iff]
    simp [ih]

/-- The policies in the order of their texts. -/
def policyRank : ContactPolicy → ℕ
  | .approved => 0
  | .kinOnly => 1
  | .open => 2

theorem policyRank_injective : Function.Injective policyRank := by
  intro p q h
  cases p <;> cases q <;> first | rfl | cases h

/-- The letter that the text of a policy starts with. -/
def policyLetter : ContactPolicy → CodeUnit
  | .approved => 97
  | .kinOnly => 107
  | .open => 111

theorem quote_policy (p : ContactPolicy) : ∃ rest, quote (lit (StringUnion.name p))
    = quoteMark :: policyLetter p :: rest := by
  refine ⟨(quote (lit (StringUnion.name p))).drop 2, ?_⟩
  cases p <;> decide

theorem quote_ceiling_append {c d : ContactCeilingTier} {xs ys : JsString}
    (h : quote (lit (StringUnion.name c)) ++ xs = quote (lit (StringUnion.name d)) ++ ys) : c = d := by
  have hnone : quote (lit (StringUnion.name ContactCeilingTier.none)) = [34, 110, 111, 110, 101, 34] := by
    decide
  have hken : quote (lit (StringUnion.name ContactCeilingTier.ken)) = [34, 107, 101, 110, 34] := by
    decide
  have hkith : quote (lit (StringUnion.name ContactCeilingTier.kith)) = [34, 107, 105, 116, 104, 34] := by
    decide
  have hkin : quote (lit (StringUnion.name ContactCeilingTier.kin)) = [34, 107, 105, 110, 34] := by
    decide
  cases c <;> cases d <;> first | rfl | simp [hnone, hken, hkith, hkin] at h

/-- The text up to the policy. -/
def textHead (s : ChildSettings) : JsString :=
  openBrace :: (quote (lit "childPubkey") ++ colon :: quote s.childPubkey.val ++ comma ::
    (quote (lit "guardianPubkey") ++ colon :: quote s.guardianPubkey.val ++ comma ::
      (quote (lit "contactPolicy") ++ [colon])))

variable {x y : ChildSettings}

theorem textHead_eq (hchild : x.childPubkey = y.childPubkey)
    (hguardian : x.guardianPubkey = y.guardianPubkey) : textHead x = textHead y := by
  unfold textHead
  rw [hchild, hguardian]

section

variable [Platform]

/-- The text from the approved contacts on. -/
def textTail (s : ChildSettings) : JsString :=
  comma :: (quote (lit "approvedContacts") ++ colon :: jsonText
    (.arr (s.approvedContacts.val.map Hex.toJs)) ++ comma :: (quote (lit "updatedAt") ++ colon ::
      (Platform.numberText s.updatedAt.val ++ [closeBrace])))

theorem withoutConflict_eq (s : ChildSettings) : withoutConflict s =
    textHead s ++ (quote (lit (StringUnion.name s.contactPolicy)) ++ (comma ::
      (quote (lit "defaultChildCeiling") ++ colon :: (quote (lit (StringUnion.name s.defaultChildCeiling))
        ++ textTail s)))) := by
  unfold withoutConflict jsonText ChildSettings.rest
  simp [stringify, memberTexts, commaSeparated, Hex.toJs, StringUnion.toJs, JsValue.ofLit,
    BoundedNat.toJs, JsValue.ofNat, textHead, textTail, jsonText]

theorem withoutConflict_lt (hchild : x.childPubkey = y.childPubkey)
    (hguardian : x.guardianPubkey = y.guardianPubkey)
    (h : policyRank x.contactPolicy < policyRank y.contactPolicy) :
    withoutConflict x < withoutConflict y := by
  rw [withoutConflict_eq, withoutConflict_eq, textHead_eq hchild hguardian, append_lt_append_iff]
  obtain ⟨xs, hxs⟩ := quote_policy x.contactPolicy
  obtain ⟨ys, hys⟩ := quote_policy y.contactPolicy
  rw [hxs, hys, List.cons_append, List.cons_append, List.cons_append, List.cons_append,
    List.cons_lt_cons_iff, List.cons_lt_cons_iff]
  right
  refine ⟨rfl, .inl ?_⟩
  revert h
  cases x.contactPolicy <;> cases y.contactPolicy <;> decide

/-- The platform, reading no numbers. -/
@[reducible] def withoutNumbers : Numerals where
  readNumber _ := none

theorem hexTexts_injective {xs ys : List (Hex 64)}
    (h : jsonText (.arr (xs.map Hex.toJs)) = jsonText (.arr (ys.map Hex.toJs))) : xs = ys := by
  have hparse := congrArg (@parse withoutNumbers) h
  rw [@parse_jsonText withoutNumbers _ (@isJson_map_toJs withoutNumbers _ xs),
    @parse_jsonText withoutNumbers _ (@isJson_map_toJs withoutNumbers _ ys)] at hparse
  have hmap := JsValue.arr.inj (Option.some.inj hparse)
  apply List.map_injective_iff.2 _ hmap
  intro k l hkl
  exact Subtype.ext (JsValue.str.inj hkl)

theorem eq_of_withoutConflict (hchild : x.childPubkey = y.childPubkey)
    (hguardian : x.guardianPubkey = y.guardianPubkey) (hupdated : x.updatedAt = y.updatedAt)
    (h : withoutConflict x = withoutConflict y) : x.contactPolicy = y.contactPolicy ∧
      x.defaultChildCeiling = y.defaultChildCeiling ∧ x.approvedContacts = y.approvedContacts := by
  have hpolicy : x.contactPolicy = y.contactPolicy := by
    apply policyRank_injective
    obtain hlt | heq | hgt := lt_trichotomy (policyRank x.contactPolicy) (policyRank y.contactPolicy)
    · exact absurd h (ne_of_lt (withoutConflict_lt hchild hguardian hlt))
    · exact heq
    · exact absurd h.symm (ne_of_lt (withoutConflict_lt hchild.symm hguardian.symm hgt))
  rw [withoutConflict_eq, withoutConflict_eq, textHead_eq hchild hguardian, hpolicy] at h
  have hrest := List.append_cancel_left (List.append_cancel_left h)
  rw [List.cons.injEq] at hrest
  have hrest := List.append_cancel_left (hrest.2)
  rw [List.cons.injEq] at hrest
  have hceiling := quote_ceiling_append hrest.2
  refine ⟨hpolicy, hceiling, ?_⟩
  rw [hceiling] at hrest
  have htail := List.append_cancel_left hrest.2
  unfold textTail at htail
  rw [hupdated, List.cons.injEq] at htail
  apply Subtype.ext
  apply hexTexts_injective
  have hlist := List.append_cancel_right htail.2
  have hlist := List.append_cancel_left hlist
  exact (List.cons.inj hlist).2

end

/-! ## A row as a dated, marked choice -/

abbrev Choice := ℕ × ℕ × Finset (Hex 64)

def ChildSettings.view (s : ChildSettings) : Dated ℕ (Marked Choice) where
  date := s.updatedAt.val
  value := {
    value := (policyRank s.contactPolicy, rankOf s.defaultChildCeiling, s.approvedContacts.val.toFinset)
    conflicted := s.contactPolicyConflicted }

theorem rankOf_injective : Function.Injective rankOf := by
  intro c d h
  cases c <;> cases d <;> first | rfl | cases h

theorem approved_eq_of_toFinset {a b : ApprovedContacts} (h : a.val.toFinset = b.val.toFinset) :
    a = b :=
  Subtype.ext (pairwise_lt_eq_of_toFinset a.property.1 b.property.1 h)

theorem toFinset_inter (a b : ApprovedContacts) :
    (a.inter b).val.toFinset = a.val.toFinset ∩ b.val.toFinset := by
  ext key
  show key ∈ (a.val.filter fun peer => b.val.contains peer).toFinset ↔ _
  simp

theorem eq_of_view (hchild : x.childPubkey = y.childPubkey)
    (hguardian : x.guardianPubkey = y.guardianPubkey) (h : x.view = y.view) : x = y := by
  obtain ⟨xChild, xGuardian, xPolicy, xCeiling, xApproved, xUpdated, xMark⟩ := x
  obtain ⟨yChild, yGuardian, yPolicy, yCeiling, yApproved, yUpdated, yMark⟩ := y
  obtain rfl : xChild = yChild := hchild
  obtain rfl : xGuardian = yGuardian := hguardian
  obtain rfl : xUpdated = yUpdated := Subtype.ext (congrArg Dated.date h)
  have hvalue := congrArg (fun d => d.value.value) h
  obtain rfl : xMark = yMark := congrArg (fun d => d.value.conflicted) h
  obtain rfl : xPolicy = yPolicy := policyRank_injective (congrArg Prod.fst hvalue)
  obtain rfl : xCeiling = yCeiling := rankOf_injective (congrArg (fun c => c.2.1) hvalue)
  obtain rfl : xApproved = yApproved := approved_eq_of_toFinset (congrArg (fun c => c.2.2) hvalue)
  rfl

theorem strictest_rank (c d : ContactCeilingTier) :
    rankOf (ceilings.getD (min (ceilings.idxOf c) (ceilings.idxOf d)) .none) = min (rankOf c) (rankOf d) := by
  cases c <;> cases d <;> decide

/-! ## Accepted rows -/

/-- A row of the child and the guardian. -/
def Accepted (child guardian : Hex 64) (row : JsValue) : Prop :=
  ∃ s, portableChildContactSettings row = some s ∧ s.childPubkey = child ∧ s.guardianPubkey = guardian

def rowView (row : JsValue) : WithBot (Dated ℕ (Marked Choice)) :=
  (portableChildContactSettings row).map ChildSettings.view

variable {child guardian : Hex 64} {r r' : JsValue} {a b : ChildSettings}

theorem eq_of_rowView (hr : Accepted child guardian r) (hr' : Accepted child guardian r')
    (h : rowView r = rowView r') :
    portableChildContactSettings r = portableChildContactSettings r' := by
  obtain ⟨a, ha, hachild, haguardian⟩ := hr
  obtain ⟨b, hb, hbchild, hbguardian⟩ := hr'
  unfold rowView at h
  rw [ha, hb] at h ⊢
  rw [eq_of_view (hachild.trans hbchild.symm) (haguardian.trans hbguardian.symm) (Option.some.inj h)]

theorem decision_of_conflicted {peer : JsString} {records : List ContactRecord}
    {directoryId : DirectoryId} {active : List (Hex 64)} (hchild : a.childPubkey = b.childPubkey)
    (hguardian : a.guardianPubkey = b.guardianPubkey) (hconflicted : a.contactPolicyConflicted = true)
    (h : contactInviteDecision peer records directoryId (some a) active = .allow) :
    contactInviteDecision peer records directoryId (some b) active = .allow := by
  have hsame : b.hasAuthority directoryId active = a.hasAuthority directoryId active := by
    unfold ChildSettings.hasAuthority
    rw [hchild, hguardian]
  unfold contactInviteDecision at h ⊢
  cases hauthority : a.hasAuthority directoryId active with
  | false =>
    simp only [Option.filter, hauthority, hsame] at h ⊢
    exact h
  | true =>
    obtain ⟨rfl, -⟩ : directoryId = .dependant a.childPubkey ∧ _ := by
      simpa [ChildSettings.hasAuthority] using hauthority
    simp [Option.filter, hauthority, hconflicted] at h

/-- `s` lets nobody through that `a` does not. -/
structure AtMost (s a : ChildSettings) : Prop where
  ceiling : rankOf s.defaultChildCeiling ≤ rankOf a.defaultChildCeiling
  approved : ∀ key ∈ s.approvedContacts.val, key ∈ a.approvedContacts.val
  decision : ∀ peer records directoryId active,
    contactInviteDecision peer records directoryId (some s) active = .allow →
      contactInviteDecision peer records directoryId (some a) active = .allow

theorem atMost_of_view {s : ChildSettings} (hchild : s.childPubkey = a.childPubkey)
    (hguardian : s.guardianPubkey = a.guardianPubkey) (h : a.view.value ≤ s.view.value)
    (hconflicted : s.contactPolicyConflicted = true) : AtMost s a where
  ceiling := (Marked.value_le_of_le h).2.1
  approved := by
    intro key hkey
    have hsub : s.approvedContacts.val.toFinset ⊆ a.approvedContacts.val.toFinset :=
      (Marked.value_le_of_le h).2.2
    exact List.mem_toFinset.1 (hsub (List.mem_toFinset.2 hkey))
  decision := fun _ _ _ _ hallow => decision_of_conflicted hchild hguardian hconflicted hallow

section

variable [Platform]

theorem merge_childPubkey (hchild : x.childPubkey = y.childPubkey) :
    (x.merge y).childPubkey = x.childPubkey := by
  unfold ChildSettings.merge
  split
  · rfl
  · split
    · exact hchild.symm
    · dsimp only
      split
      · rfl
      · dsimp only
        split
        · rfl
        · exact hchild.symm

theorem merge_guardianPubkey (hguardian : x.guardianPubkey = y.guardianPubkey) :
    (x.merge y).guardianPubkey = x.guardianPubkey := by
  unfold ChildSettings.merge
  split
  · rfl
  · split
    · exact hguardian.symm
    · dsimp only
      split
      · rfl
      · dsimp only
        split
        · rfl
        · exact hguardian.symm

theorem policyRank_of_texts (hchild : x.childPubkey = y.childPubkey)
    (hguardian : x.guardianPubkey = y.guardianPubkey) :
    policyRank (if withoutConflict x < withoutConflict y then x else y).contactPolicy
      = min (policyRank x.contactPolicy) (policyRank y.contactPolicy) := by
  obtain hlt | heq | hgt := lt_trichotomy (policyRank x.contactPolicy) (policyRank y.contactPolicy)
  · rw [if_pos (withoutConflict_lt hchild hguardian hlt), min_eq_left hlt.le]
  · rw [← heq, min_self]
    split
    · rfl
    · exact heq.symm
  · rw [if_neg (withoutConflict_lt hchild.symm hguardian.symm hgt).asymm, min_eq_right hgt.le]

/-- **A merge is a join.** -/
theorem view_merge (hchild : x.childPubkey = y.childPubkey)
    (hguardian : x.guardianPubkey = y.guardianPubkey) : (x.merge y).view = x.view ⊔ y.view := by
  unfold ChildSettings.merge
  split
  · next hgt => exact (Dated.sup_of_gt hgt).symm
  · next hle =>
    split
    · next hlt => exact (Dated.sup_of_lt hlt).symm
    · next hge =>
      have hdate : x.updatedAt.val = y.updatedAt.val := by omega
      rw [Dated.sup_of_eq (show x.view.date = y.view.date from hdate)]
      dsimp only
      split
      · next hsame =>
        obtain ⟨htext, hx, hy⟩ := hsame
        obtain ⟨hpolicy, hceiling, happroved⟩ :=
          eq_of_withoutConflict hchild hguardian (Subtype.ext hdate) htext
        have hview : x.view.value = y.view.value := by
          unfold ChildSettings.view
          rw [hpolicy, hceiling, happroved, hx, hy]
        rw [← hview, sup_idem]
      · next hdiffer =>
        apply Dated.ext
        · show (if withoutConflict x < withoutConflict y then x else y).updatedAt.val = x.updatedAt.val
          split
          · rfl
          · exact hdate.symm
        · apply Marked.ext_iff_conflicted
          · refine Prod.ext ?_ (Prod.ext ?_ ?_)
            · exact policyRank_of_texts hchild hguardian
            · exact strictest_rank _ _
            · exact toFinset_inter _ _
          · refine iff_of_true rfl ?_
            apply Marked.conflicted_sup_iff.2
            by_contra hnot
            obtain ⟨hx, hy, hvalue⟩ : x.contactPolicyConflicted = false ∧
                y.contactPolicyConflicted = false ∧ x.view.value.value = y.view.value.value := by
              simpa [ChildSettings.view] using hnot
            have heq : x = y := by
              apply eq_of_view hchild hguardian
              exact Dated.ext hdate (Marked.ext hvalue (hx.trans hy.symm))
            exact hdiffer ⟨congrArg withoutConflict heq, hx, hy⟩

/-! ## Rows that are merged -/

/-- `restoreChildContactSettings`: the row that is stored afterwards. -/
def restoreChildContactSettings (previous incoming : JsValue) : JsValue :=
  match mergeChildContactSettings (some previous) incoming with
  | some next => next.toJs
  | none => previous

theorem merge_rows (hr : portableChildContactSettings r = some a)
    (hr' : portableChildContactSettings r' = some b) (hchild : a.childPubkey = b.childPubkey)
    (hguardian : a.guardianPubkey = b.guardianPubkey) :
    mergeChildContactSettings (some r) r' = some (a.merge b) := by
  unfold mergeChildContactSettings
  simp [hr, hr', hchild, hguardian]

theorem restore_rows (hr : portableChildContactSettings r = some a)
    (hr' : portableChildContactSettings r' = some b) (hchild : a.childPubkey = b.childPubkey)
    (hguardian : a.guardianPubkey = b.guardianPubkey) :
    restoreChildContactSettings r r' = (a.merge b).toJs := by
  unfold restoreChildContactSettings
  rw [merge_rows hr hr' hchild hguardian]

theorem Accepted.restore (hr : Accepted child guardian r) (hr' : Accepted child guardian r') :
    Accepted child guardian (restoreChildContactSettings r r') := by
  obtain ⟨a, ha, hachild, haguardian⟩ := hr
  obtain ⟨b, hb, hbchild, hbguardian⟩ := hr'
  have hchild := hachild.trans hbchild.symm
  have hguardian := haguardian.trans hbguardian.symm
  refine ⟨a.merge b, ?_, ?_, ?_⟩
  · rw [restore_rows ha hb hchild hguardian, portable_toJs]
  · rw [merge_childPubkey hchild, hachild]
  · rw [merge_guardianPubkey hguardian, haguardian]

theorem rowView_restore (hr : Accepted child guardian r) (hr' : Accepted child guardian r') :
    rowView (restoreChildContactSettings r r') = rowView r ⊔ rowView r' := by
  obtain ⟨a, ha, hachild, haguardian⟩ := hr
  obtain ⟨b, hb, hbchild, hbguardian⟩ := hr'
  have hchild := hachild.trans hbchild.symm
  have hguardian := haguardian.trans hbguardian.symm
  unfold rowView
  rw [restore_rows ha hb hchild hguardian, portable_toJs, ha, hb, Option.map_some,
    view_merge hchild hguardian]
  exact WithBot.coe_sup _ _

variable {s : ChildSettings} {t : Exchange JsValue}

theorem view_le_outcome (ht : ∀ row ∈ t.sources, Accepted child guardian row)
    (hr : r ∈ t.sources) (ha : portableChildContactSettings r = some a)
    (hs : portableChildContactSettings (t.outcome restoreChildContactSettings) = some s) :
    a.view ≤ s.view := by
  have hlub := Exchange.isLUB_outcome (fun _ _ => Accepted.restore)
    (fun _ _ => rowView_restore) ht
  have hle := hlub.1 ⟨r, hr, rfl⟩
  unfold rowView at hle
  rw [ha, hs] at hle
  exact WithBot.coe_le_coe.1 hle

/-! ## The strictest choice -/

/-- Of the rows `t` merges, none is newer than `a`. -/
def Latest (t : Exchange JsValue) (a : ChildSettings) : Prop :=
  ∀ row ∈ t.sources, ∀ c, portableChildContactSettings row = some c → c.updatedAt.val ≤ a.updatedAt.val

structure MergesToStrictest (child guardian : Hex 64) : Prop where
  accepts : ∀ x y, Accepted child guardian x → Accepted child guardian y →
    (mergeChildContactSettings (some x) y).isSome
  commutative : ∀ x y, Accepted child guardian x → Accepted child guardian y →
    mergeChildContactSettings (some x) y = mergeChildContactSettings (some y) x
  associative : ∀ x y z, Accepted child guardian x → Accepted child guardian y →
    Accepted child guardian z →
    restoreChildContactSettings (restoreChildContactSettings x y) z
      = restoreChildContactSettings x (restoreChildContactSettings y z)
  idempotent : ∀ x, Accepted child guardian x →
    mergeChildContactSettings (some x) x = portableChildContactSettings x
  /-- Devices that merge the same rows, in any order and nesting, end with one row. -/
  converges : ∀ t u : Exchange JsValue, (∀ row ∈ t.sources, Accepted child guardian row) →
    (∀ row, row ∈ t.sources ↔ row ∈ u.sources) →
    portableChildContactSettings (t.outcome restoreChildContactSettings)
        = portableChildContactSettings (u.outcome restoreChildContactSettings) ∧
      (portableChildContactSettings (t.outcome restoreChildContactSettings)).isSome
  /-- A later row wins as a whole. -/
  later : ∀ x y a b, Accepted child guardian x → Accepted child guardian y →
    portableChildContactSettings x = some a → portableChildContactSettings y = some b →
    a.updatedAt.val < b.updatedAt.val →
    mergeChildContactSettings (some x) y = some b ∧ mergeChildContactSettings (some y) x = some b
  /-- Two different choices of one date come to the strictest, marked. -/
  strictest : ∀ t : Exchange JsValue, (∀ row ∈ t.sources, Accepted child guardian row) →
    ∀ x ∈ t.sources, ∀ y ∈ t.sources, ∀ a b, portableChildContactSettings x = some a →
    portableChildContactSettings y = some b → a ≠ b → a.updatedAt.val = b.updatedAt.val → Latest t a →
    ∃ s, portableChildContactSettings (t.outcome restoreChildContactSettings) = some s ∧
      s.updatedAt = a.updatedAt ∧ s.contactPolicyConflicted = true ∧ AtMost s a ∧ AtMost s b
  /-- The mark stays until a newer row arrives. -/
  marked : ∀ t : Exchange JsValue, (∀ row ∈ t.sources, Accepted child guardian row) →
    ∀ x ∈ t.sources, ∀ a, portableChildContactSettings x = some a →
    a.contactPolicyConflicted = true → Latest t a →
    ∃ s, portableChildContactSettings (t.outcome restoreChildContactSettings) = some s ∧
      s.updatedAt = a.updatedAt ∧ s.contactPolicyConflicted = true ∧ AtMost s a

theorem outcome_accepted (ht : ∀ row ∈ t.sources, Accepted child guardian row) :
    Accepted child guardian (t.outcome restoreChildContactSettings) :=
  Exchange.outcome_of_sources (fun _ _ => Accepted.restore) ht

theorem outcome_le (ht : ∀ row ∈ t.sources, Accepted child guardian row)
    (hlatest : Latest t a) : Accepted child guardian (t.outcome restoreChildContactSettings) ∧
      ∀ s, portableChildContactSettings (t.outcome restoreChildContactSettings) = some s →
        s.updatedAt.val ≤ a.updatedAt.val := by
  apply @Exchange.outcome_of_sources _ _ (fun row => Accepted child guardian row ∧
    ∀ s, portableChildContactSettings row = some s → s.updatedAt.val ≤ a.updatedAt.val)
  · rintro x y ⟨hx, hxle⟩ ⟨hy, hyle⟩
    refine ⟨hx.restore hy, ?_⟩
    intro s hs
    obtain ⟨b, hb, hbchild, hbguardian⟩ := hx
    obtain ⟨c, hc, hcchild, hcguardian⟩ := hy
    have hchild := hbchild.trans hcchild.symm
    have hguardian := hbguardian.trans hcguardian.symm
    rw [restore_rows hb hc hchild hguardian, portable_toJs] at hs
    obtain rfl := Option.some.inj hs
    have hdate := congrArg Dated.date (view_merge hchild hguardian)
    rw [Dated.date_sup] at hdate
    show (b.merge c).view.date ≤ _
    rw [hdate]
    exact max_le (hxle b hb) (hyle c hc)
  · exact fun row hrow => ⟨ht row hrow, hlatest row hrow⟩

theorem outcome_of_latest (ht : ∀ row ∈ t.sources, Accepted child guardian row)
    (hr : r ∈ t.sources) (ha : portableChildContactSettings r = some a) (hlatest : Latest t a)
    (hs : portableChildContactSettings (t.outcome restoreChildContactSettings) = some s) :
    s.updatedAt = a.updatedAt ∧ a.view.value ≤ s.view.value := by
  have hle := view_le_outcome ht hr ha hs
  have hdate : s.updatedAt.val ≤ a.updatedAt.val := (outcome_le ht hlatest).2 s hs
  have heq : s.updatedAt = a.updatedAt := Subtype.ext (le_antisymm hdate (Dated.date_le hle))
  exact ⟨heq, Dated.value_le hle (congrArg Subtype.val heq).symm⟩

theorem merges_to_strictest (child guardian : Hex 64) : MergesToStrictest child guardian where
  accepts := by
    rintro x y ⟨a, ha, hachild, haguardian⟩ ⟨b, hb, hbchild, hbguardian⟩
    rw [merge_rows ha hb (hachild.trans hbchild.symm) (haguardian.trans hbguardian.symm)]
    rfl
  commutative := by
    rintro x y ⟨a, ha, hachild, haguardian⟩ ⟨b, hb, hbchild, hbguardian⟩
    have hchild := hachild.trans hbchild.symm
    have hguardian := haguardian.trans hbguardian.symm
    rw [merge_rows ha hb hchild hguardian, merge_rows hb ha hchild.symm hguardian.symm]
    apply congrArg some
    apply eq_of_view
    · rw [merge_childPubkey hchild, merge_childPubkey hchild.symm, hchild]
    · rw [merge_guardianPubkey hguardian, merge_guardianPubkey hguardian.symm, hguardian]
    · rw [view_merge hchild hguardian, view_merge hchild.symm hguardian.symm, sup_comm]
  associative := by
    rintro x y z ⟨a, ha, hachild, haguardian⟩ ⟨b, hb, hbchild, hbguardian⟩ ⟨c, hc, hcchild, hcguardian⟩
    have hab := hachild.trans hbchild.symm
    have hab' := haguardian.trans hbguardian.symm
    have hbc := hbchild.trans hcchild.symm
    have hbc' := hbguardian.trans hcguardian.symm
    have hleft : (a.merge b).childPubkey = c.childPubkey := by
      rw [merge_childPubkey hab, hachild, hcchild]
    have hleft' : (a.merge b).guardianPubkey = c.guardianPubkey := by
      rw [merge_guardianPubkey hab', haguardian, hcguardian]
    have hright : a.childPubkey = (b.merge c).childPubkey := by
      rw [merge_childPubkey hbc, hab]
    have hright' : a.guardianPubkey = (b.merge c).guardianPubkey := by
      rw [merge_guardianPubkey hbc', hab']
    rw [restore_rows ha hb hab hab', restore_rows hb hc hbc hbc',
      restore_rows (portable_toJs _) hc hleft hleft', restore_rows ha (portable_toJs _) hright hright']
    apply congrArg ChildSettings.toJs
    apply eq_of_view
    · rw [merge_childPubkey hleft, merge_childPubkey hab, merge_childPubkey hright]
    · rw [merge_guardianPubkey hleft', merge_guardianPubkey hab', merge_guardianPubkey hright']
    · rw [view_merge hleft hleft', view_merge hab hab', view_merge hright hright', view_merge hbc hbc',
        sup_assoc]
  idempotent := by
    rintro x ⟨a, ha, -⟩
    rw [merge_rows ha ha rfl rfl, ha]
    apply congrArg some
    apply eq_of_view
    · exact merge_childPubkey rfl
    · exact merge_guardianPubkey rfl
    · rw [view_merge rfl rfl, sup_idem]
  converges := by
    intro t u ht hsame
    have hu : ∀ row ∈ u.sources, Accepted child guardian row := fun row h => ht row ((hsame row).2 h)
    obtain ⟨s, hs, -⟩ := outcome_accepted ht
    constructor
    · apply eq_of_rowView (outcome_accepted ht) (outcome_accepted hu)
      exact Exchange.view_outcome_eq (fun _ _ => Accepted.restore) (fun _ _ => rowView_restore) ht hsame
    · rw [hs]
      rfl
  later := by
    rintro x y a b ⟨a', ha, hachild, haguardian⟩ ⟨b', hb, hbchild, hbguardian⟩ ha' hb' hlt
    obtain rfl := Option.some.inj (ha.symm.trans ha')
    obtain rfl := Option.some.inj (hb.symm.trans hb')
    have hchild := hachild.trans hbchild.symm
    have hguardian := haguardian.trans hbguardian.symm
    rw [merge_rows ha hb hchild hguardian, merge_rows hb ha hchild.symm hguardian.symm]
    unfold ChildSettings.merge
    rw [if_neg hlt.asymm, if_pos hlt, if_pos hlt]
    exact ⟨rfl, rfl⟩
  strictest := by
    intro t ht x hx y hy a b ha hb hne hdate hlatest
    obtain ⟨s, hs, hschild, hsguardian⟩ := outcome_accepted ht
    obtain ⟨a', ha', hachild, haguardian⟩ := ht x hx
    obtain rfl := Option.some.inj (ha.symm.trans ha')
    obtain ⟨b', hb', hbchild, hbguardian⟩ := ht y hy
    obtain rfl := Option.some.inj (hb.symm.trans hb')
    have hlatest' : Latest t b := fun row hrow c hc => (hlatest row hrow c hc).trans hdate.le
    obtain ⟨hupdated, hleA⟩ := outcome_of_latest ht hx ha hlatest hs
    obtain ⟨-, hleB⟩ := outcome_of_latest ht hy hb hlatest' hs
    have hconflicted : s.contactPolicyConflicted = true := by
      apply Marked.conflicted_of_ne hleA hleB
      intro heq
      apply hne
      apply eq_of_view (hachild.trans hbchild.symm) (haguardian.trans hbguardian.symm)
      exact Dated.ext hdate heq
    exact ⟨s, hs, hupdated, hconflicted,
      atMost_of_view (hschild.trans hachild.symm) (hsguardian.trans haguardian.symm) hleA hconflicted,
      atMost_of_view (hschild.trans hbchild.symm) (hsguardian.trans hbguardian.symm) hleB hconflicted⟩
  marked := by
    intro t ht x hx a ha hmark hlatest
    obtain ⟨s, hs, hschild, hsguardian⟩ := outcome_accepted ht
    obtain ⟨a', ha', hachild, haguardian⟩ := ht x hx
    obtain rfl := Option.some.inj (ha.symm.trans ha')
    obtain ⟨hupdated, hle⟩ := outcome_of_latest ht hx ha hlatest hs
    have hconflicted : s.contactPolicyConflicted = true := Marked.conflicted_of_le hle hmark
    exact ⟨s, hs, hupdated, hconflicted,
      atMost_of_view (hschild.trans hachild.symm) (hsguardian.trans haguardian.symm) hle hconflicted⟩

end

end SignetApp.Family.ChildContact
