import SignetApp.ChildContacts.PolicyText

/-!
# The child's phone decides as the guardian does

Of every peer, by the view that was projected.
-/

namespace SignetApp.ChildContacts

open SignetApp.Js SignetApp.Sync
open SignetApp.Contacts (ContactCeilingTier ContactRecord EffectiveContact DirectoryId Hex64 resolveEffective)
open SignetApp.Family.ChildContact (ContactPolicy ContactInviteDecision ChildSettings contactInviteDecision
  orDefault portableChildContactSettings portable_toJs)

/-- The records of a peer, as they are in effect. -/
def matching (peer : JsString) (records : List ContactRecord) (child guardian : Hex64) (settings : ChildSettings) :
    List EffectiveContact :=
  (records.filter fun record => record.directoryId = .dependant child &&
    record.identities.any fun identity => identity.pubkey.val = peer).map fun record =>
      resolveEffective record {
        activeGuardianPubkeys := [guardian]
        defaultChildCeiling := settings.defaultChildCeiling
        directoryIsDependant := true }

theorem decision_eq {child guardian : Hex64} {settings : ChildSettings} (hchild : settings.childPubkey = child)
    (hguardian : settings.guardianPubkey = guardian) (records : List ContactRecord) (peer : JsString) :
    contactInviteDecision peer records (.dependant child) (some settings) [guardian] =
      if isHexOf 64 peer = false then .deny
      else if (matching peer records child guardian settings).any (·.blocked) then .deny
      else if settings.contactPolicyConflicted then .deny
      else match settings.contactPolicy with
        | .open => .allow
        | .approved =>
          if settings.approvedContacts.val.any fun key => key.val = peer then .allow else .guardianReview
        | .kinOnly =>
          if (matching peer records child guardian settings).any fun record =>
            record.lifecycle = .active && record.effectiveTier = .kin then .allow
          else .deny := by
  have hauthority : (some settings).filter (fun s => s.hasAuthority (.dependant child) [guardian]) =
      some settings := by
    rw [Option.filter, if_pos]
    simp [ChildSettings.hasAuthority, hchild, hguardian]
  unfold contactInviteDecision
  rw [hauthority]
  simp only [Option.elim_some, Option.any_some, matching, and_false, Bool.true_eq_false, if_false]
  rfl

/-- A child without a row has the strictest. -/
def defaultSettings (child guardian : Hex64) : ChildSettings where
  childPubkey := child
  guardianPubkey := guardian
  contactPolicy := .kinOnly
  defaultChildCeiling := .ken
  approvedContacts := .ofList [] (Nat.zero_le _)
  updatedAt := ⟨0, Nat.zero_le _⟩
  contactPolicyConflicted := false

theorem portable_noSettings (child guardian : Hex64) :
    portableChildContactSettings (noSettings child guardian) = some (defaultSettings child guardian) := by
  have hobj : isObj (noSettings child guardian) = true := rfl
  have hchild : (noSettings child guardian).get "childPubkey" = child.toJs := rfl
  have hguardian : (noSettings child guardian).get "guardianPubkey" = guardian.toJs := rfl
  have hpolicy : (noSettings child guardian).get "contactPolicy" = StringUnion.toJs ContactPolicy.kinOnly := rfl
  have hceiling : orDefault ((noSettings child guardian).get "defaultChildCeiling") (.ofLit "ken") =
      StringUnion.toJs ContactCeilingTier.ken := rfl
  have hupdated : orDefault ((noSettings child guardian).get "updatedAt") (.ofNat 0) = .ofNat 0 := rfl
  have hconflicted : isOpt isBool ((noSettings child guardian).get "contactPolicyConflicted") = some none := rfl
  have happroved : isArrayOf (isHex 64) (orDefault ((noSettings child guardian).get "approvedContacts") (.arr [])) =
      some [] := rfl
  have hzero : isBoundedNat Contacts.maxCheckTime (.ofNat 0) = some ⟨0, Nat.zero_le _⟩ :=
    isBoundedNat_toJs (⟨0, Nat.zero_le _⟩ : BoundedNat Contacts.maxCheckTime)
  unfold portableChildContactSettings
  rw [hobj, hchild, hguardian, hpolicy, hceiling, hupdated, hconflicted, happroved, hzero]
  simp only [isHex_toJs, parse_toJs, guard_true, Option.bind_eq_bind, Option.bind_some, Option.pure_def]
  rfl

theorem decision_none (child guardian : Hex64) (records : List ContactRecord) (peer : JsString) :
    contactInviteDecision peer records (.dependant child) none [guardian] =
      contactInviteDecision peer records (.dependant child) (some (defaultSettings child guardian)) [guardian] := by
  rw [@decision_eq child guardian (defaultSettings child guardian) rfl rfl records peer]
  unfold contactInviteDecision
  simp only [Option.filter_none, Option.elim_none, Option.any_none, matching, and_false, Bool.true_eq_false, if_false]
  rfl

/-! ## Who is on the view -/

section

variable {child guardian : Hex64} {settings : ChildSettings} {records : List ContactRecord} {peer : Hex64}

theorem isBlockedPeer_eq (hchild : settings.childPubkey = child) (hguardian : settings.guardianPubkey = guardian) :
    isBlockedPeer child guardian records settings peer =
      (matching peer.val records child guardian settings).any (·.blocked) := by
  unfold isBlockedPeer
  rw [@decision_eq child guardian { settings with contactPolicy := .open, contactPolicyConflicted := false } hchild
    hguardian records peer.val]
  have hmatching : matching peer.val records child guardian
      { settings with contactPolicy := .open, contactPolicyConflicted := false } =
        matching peer.val records child guardian settings := rfl
  have hhex : isHexOf 64 peer.val = true := peer.property
  rw [hmatching, hhex]
  cases (matching peer.val records child guardian settings).any (·.blocked) <;> rfl

theorem mem_candidates_of_matching {p : EffectiveContact → Bool}
    (h : (matching peer.val records child guardian settings).any p = true) : peer ∈ candidates records settings := by
  obtain ⟨e, he, -⟩ := List.any_eq_true.1 h
  obtain ⟨record, hrecord, -⟩ := List.mem_map.1 he
  obtain ⟨hmem, hpeer⟩ := List.mem_filter.1 hrecord
  simp only [Bool.and_eq_true, List.any_eq_true, decide_eq_true_eq] at hpeer
  obtain ⟨-, identity, hidentity, hkey⟩ := hpeer
  rw [candidates, mem_distinct, List.mem_append, List.mem_flatMap]
  refine .inl ⟨record, hmem, ?_⟩
  rw [← Subtype.ext hkey]
  exact List.mem_map_of_mem hidentity

theorem mem_candidates_of_approved (h : peer ∈ settings.approvedContacts.val) :
    peer ∈ candidates records settings := by
  rw [candidates, mem_distinct, List.mem_append]
  exact .inr h

theorem any_val_eq {ks : List Hex64} : ks.any (fun key => key.val = peer.val) = true ↔ peer ∈ ks := by
  simp only [List.any_eq_true, decide_eq_true_eq]
  constructor
  · rintro ⟨key, hkey, heq⟩
    rwa [← Subtype.ext heq]
  · exact fun h => ⟨peer, h, rfl⟩

/-- What a view that lists the candidates decides. -/
theorem listed_decision {view : ChildContactPolicyView} {now : ℕ}
    (hchild : settings.childPubkey = child) (hguardian : settings.guardianPubkey = guardian)
    (hpolicy : view.policy = settings.contactPolicy) (hconflicted : view.conflicted = settings.contactPolicyConflicted)
    (hallowed : ∀ k, k ∈ view.allowed ↔
      k ∈ candidates records settings ∧ isAllowedPeer child guardian records settings k = true)
    (hblocked : ∀ k, k ∈ view.blocked ↔
      k ∈ candidates records settings ∧ isBlockedPeer child guardian records settings k = true)
    (hnow : now ≤ maxTime) (hfrom : view.revision ≤ now + 300) (huntil : now < view.expiresAt) (name : JsString) :
    childContactPolicyDecision (some view) name now =
      contactInviteDecision name records (.dependant child) (some settings) [guardian] := by
  rw [decision_eq hchild hguardian]
  unfold childContactPolicyDecision
  dsimp only
  by_cases hhex : isHexOf 64 name = false
  · rw [if_pos (.inl hhex), if_pos hhex]
  · rw [if_neg hhex]
    rw [Bool.not_eq_false] at hhex
    obtain ⟨peer, hpeer⟩ : ∃ peer : Hex64, peer.val = name := ⟨⟨name, hhex⟩, rfl⟩
    subst hpeer
    have hmatch := @isBlockedPeer_eq _ _ _ records peer hchild hguardian
    have hinvite := @decision_eq child guardian settings hchild hguardian records peer.val
    rw [if_neg (by rw [hhex]; decide)] at hinvite
    -- a peer is on the view's lists as the guardian decides, where it is blocked or allowed at all
    have hblockedIff : view.blocked.any (fun key => key.val = peer.val) = true ↔
        (matching peer.val records child guardian settings).any (·.blocked) = true := by
      rw [any_val_eq, hblocked, hmatch]
      exact and_iff_right_of_imp mem_candidates_of_matching
    by_cases hb : (matching peer.val records child guardian settings).any (·.blocked) = true
    · rw [if_pos (.inr (.inr (.inr (.inr (.inr (hblockedIff.2 hb)))))), if_pos hb]
    · rw [if_neg hb] at hinvite ⊢
      by_cases hc : settings.contactPolicyConflicted = true
      · rw [if_pos (.inr (.inr (.inr (.inr (.inl (hconflicted.trans hc)))))), if_pos hc]
      · rw [if_neg hc] at hinvite ⊢
        have hopen : ¬ (isHexOf 64 peer.val = false ∨ maxTime < now ∨ now + 300 < view.revision ∨
            view.expiresAt ≤ now ∨ view.conflicted = true ∨
              view.blocked.any (fun key => key.val = peer.val) = true) := by
          rintro (h | h | h | h | h | h)
          · rw [hhex] at h
            cases h
          · exact absurd hnow (Nat.not_le_of_lt h)
          · exact absurd hfrom (Nat.not_le_of_lt h)
          · exact absurd huntil (Nat.not_lt_of_le h)
          · exact hc (hconflicted.symm.trans h)
          · exact hb (hblockedIff.1 h)
        have hallowedIff : view.allowed.any (fun key => key.val = peer.val) = true ↔
            peer ∈ candidates records settings ∧
              contactInviteDecision peer.val records (.dependant child) (some settings) [guardian] = .allow := by
          rw [any_val_eq, hallowed, isAllowedPeer, hmatch, Bool.eq_false_iff.2 hb]
          simp
        rw [if_neg hopen, hpolicy]
        cases hp : settings.contactPolicy with
        | «open» => rw [if_pos (.inl rfl)]
        | approved =>
          rw [hp] at hinvite
          dsimp only at hinvite ⊢
          by_cases happroved : settings.approvedContacts.val.any (fun key => key.val = peer.val) = true
          · rw [if_pos happroved] at hinvite ⊢
            rw [if_pos (.inr (hallowedIff.2 ⟨mem_candidates_of_approved (any_val_eq.1 happroved), hinvite⟩))]
          · rw [if_neg happroved] at hinvite ⊢
            rw [if_neg, if_pos rfl]
            rintro (h | h)
            · cases h
            · rw [hallowedIff, hinvite] at h
              cases h.2
        | kinOnly =>
          rw [hp] at hinvite
          dsimp only at hinvite ⊢
          by_cases hkin : (matching peer.val records child guardian settings).any (fun record =>
              record.lifecycle = .active && record.effectiveTier = .kin) = true
          · rw [if_pos hkin] at hinvite ⊢
            rw [if_pos (.inr (hallowedIff.2 ⟨mem_candidates_of_matching hkin, hinvite⟩))]
          · rw [if_neg hkin] at hinvite ⊢
            rw [if_neg, if_neg (by decide)]
            rintro (h | h)
            · cases h
            · rw [hallowedIff, hinvite] at h
              cases h.2

end

/-! ## What is projected -/

variable [Numerals]

/-- **The child's phone decides as the guardian does**, of everybody, while the view is good. -/
theorem projected_decision (hint : IntegersSurvive) {s : PolicyScope} {now : ℕ} {view : ChildContactPolicyView}
    (h : projectChildContactPolicy s now = some view) {child guardian : Hex64} (hchild : child.val = s.child)
    (hguardian : guardian.val = s.guardian) {at_ : ℕ} (hat : at_ ≤ maxTime) (hfrom : view.revision ≤ at_ + 300)
    (huntil : at_ < view.expiresAt) (peer : JsString) :
    childContactPolicyDecision (some view) peer at_ =
      contactInviteDecision peer s.records (.dependant child) s.settings [guardian] := by
  unfold projectChildContactPolicy at h
  simp only [Option.bind_eq_bind, Option.bind_eq_some_iff, Option.guard_eq_some'] at h
  obtain ⟨child', hchild', guardian', hguardian', recipient, -, _, -, _, -, settings, hsettings, _,
    ⟨hc, hg⟩, _, -, h⟩ := h
  have hread : ∀ {key : Hex64} {text : JsString} {read : Hex64}, key.val = text →
      isHex 64 (.str text) = some read → read = key := by
    intro key text read hkey hread
    rw [← hkey] at hread
    exact Option.some.inj (hread.symm.trans (isHex_toJs key))
  obtain rfl := hread hchild hchild'
  obtain rfl := hread hguardian hguardian'
  obtain ⟨-, hvalid, rfl⟩ := (parse_view hint).1 h
  have hdecision := @listed_decision _ _ _ s.records (ChildContactPolicyView.tidied _) _ hc hg rfl rfl
    (fun k => mem_inOrder.trans List.mem_filter) (fun k => mem_inOrder.trans List.mem_filter) hat hfrom huntil peer
  refine hdecision.trans ?_
  cases hs : s.settings with
  | none =>
    rw [hs] at hsettings
    rw [decision_none]
    cases (portable_noSettings child' guardian').symm.trans hsettings
    rfl
  | some row =>
    rw [hs] at hsettings
    cases (portable_toJs row).symm.trans hsettings
    rfl

end SignetApp.ChildContacts
