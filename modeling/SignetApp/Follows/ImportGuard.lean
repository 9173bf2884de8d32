import SignetApp.Contacts.RoundTrip
import SignetApp.Contacts.Validation
import SignetApp.Follows.Import
import SignetApp.Follows.Unfollow

/-!
# An import and the guard of operations

An import is saved as a whole or not at all, so every planned operation has to pass `validateOperation`. The sanitiser
caps a name at 100 code points and the guard at 100 code units, and the two differ.
-/

namespace SignetApp.Follows

open SignetApp.Js SignetApp.Sync SignetApp.Contacts

/-! ## One operation -/

def ImportAction.actionName : ImportAction → ActionName
  | .linkList _ => .linkList
  | .add _ _ => .add
  | .addIdentity _ _ => .addIdentity
  | .recordOrigin _ _ _ _ _ => .recordOrigin

/-- What the guard reads around the value of a planned operation. -/
def ImportOperation.header (op : ImportOperation) (h : 1 ≤ op.logicalClock) : OperationHeader where
  ownerIdentityPubkey := op.ownerIdentityPubkey
  operationId := op.operationId
  directoryId := op.directoryId
  contactId := op.contactId
  itemId := none
  actorPubkey := op.actor.actorPubkey
  actorRole := op.actor.actorRole
  actorDeviceId := op.actor.actorDeviceId
  logicalClock := ⟨op.logicalClock, h⟩
  createdAt := op.createdAt
  targetOperationId := none
  action := op.action.actionName

theorem get_ownerIdentityPubkey (op : ImportOperation) :
    (JsValue.obj op.toJs).get "ownerIdentityPubkey" = optToJs Hex.toJs op.ownerIdentityPubkey := by
  obtain ⟨id, directory, contact, actor, clock, action, created, owner⟩ := op
  cases owner <;> rfl

theorem parse_action (action : ImportAction) :
    StringUnion.parse (.ofLit action.name) = some action.actionName := by
  have hread : ∀ name ∈ [ActionName.linkList, .add, .addIdentity, .recordOrigin],
      StringUnion.parse (StringUnion.toJs name) = some name := by decide
  cases action with
  | linkList _ => exact hread .linkList (by simp)
  | add _ _ => exact hread .add (by simp)
  | addIdentity _ _ => exact hread .addIdentity (by simp)
  | recordOrigin _ _ _ _ _ => exact hread .recordOrigin (by simp)

theorem validateHeader_import (op : ImportOperation) (h : 1 ≤ op.logicalClock) :
    validateHeader (.obj op.toJs) = some (op.header h) := by
  have howner : isOpt (isHex 64) ((JsValue.obj op.toJs).get "ownerIdentityPubkey")
      = some op.ownerIdentityPubkey := by
    rw [get_ownerIdentityPubkey]
    exact isOpt_optToJs isHex_toJs (fun _ h => by cases h) _
  have hitem : (JsValue.obj op.toJs).get "itemId" = .undefined := by
    obtain ⟨id, directory, contact, actor, clock, action, created, owner⟩ := op
    cases owner <;> rfl
  have htarget : (JsValue.obj op.toJs).get "targetOperationId" = .undefined := by
    obtain ⟨id, directory, contact, actor, clock, action, created, owner⟩ := op
    cases owner <;> rfl
  have hclock : isLamportClock (.ofNat op.logicalClock) = some ⟨op.logicalClock, h⟩ := by
    unfold isLamportClock
    rw [isNonNegativeInt_ofNat]
    exact dif_pos h
  unfold validateHeader
  rw [howner, hitem, htarget]
  show (do
    guard (isObj (.obj op.toJs))
    let operationId ← isHex 32 op.operationId.toJs
    let directoryId ← isDirectoryId op.directoryId.toJs
    let contactId ← isHex 32 op.contactId.toJs
    let actorPubkey ← isHex 64 op.actor.actorPubkey.toJs
    let actorRole ← StringUnion.parse (StringUnion.toJs op.actor.actorRole)
    let actorDeviceId ← isHex 32 op.actor.actorDeviceId.toJs
    let logicalClock ← isLamportClock (.ofNat op.logicalClock)
    let createdAt ← isTimestamp op.createdAt.toJs
    let action ← StringUnion.parse (.ofLit op.action.name)
    some (OperationHeader.mk op.ownerIdentityPubkey operationId directoryId contactId none actorPubkey actorRole
      actorDeviceId logicalClock createdAt none action)) = some (op.header h)
  rw [isHex_toJs, isDirectoryId_toJs, isHex_toJs, isHex_toJs, parse_toJs, isHex_toJs, hclock, isTimestamp_toJs,
    parse_action]
  rfl

/-- An origin is recorded by its own list. -/
def ImportOperation.Owned (op : ImportOperation) : Prop :=
  match op.action with
  | .recordOrigin _ owner _ _ _ => op.ownerIdentityPubkey = some owner
  | _ => True

variable {s : JsString} {cap : ℕ}

theorem isStr_isSome_iff : (isStr cap (.str s)).isSome ↔ 0 < s.length ∧ s.length ≤ cap := by
  by_cases h : 0 < s.length ∧ s.length ≤ cap
  · exact iff_of_true (congrArg Option.isSome (@isStr_toJs cap ⟨s, h⟩)) h
  · have hnone : isStr cap (.str s) = none := dif_neg h
    rw [hnone]
    exact iff_of_false Bool.false_ne_true h

theorem isText_isSome_iff : (isText cap (.str s)).isSome ↔ s.length ≤ cap := by
  by_cases h : s.length ≤ cap
  · exact iff_of_true (congrArg Option.isSome (@isText_toJs cap ⟨s, h⟩)) h
  · have hnone : isText cap (.str s) = none := dif_neg h
    rw [hnone]
    exact iff_of_false Bool.false_ne_true h

theorem isBoundedNat_isSome_iff {bound : ℕ} {t : Timestamp} :
    (isBoundedNat bound t.toJs).isSome ↔ ∃ n : ℕ, t.val = n ∧ n ≤ bound := by
  constructor
  · intro h
    unfold isBoundedNat isNonNegativeInt Timestamp.toJs at h
    dsimp only at h
    split at h
    · next hint =>
      rw [Option.bind_some] at h
      split at h
      · next hle =>
        refine ⟨t.val.num.toNat, ?_, hle⟩
        have hnum : ((t.val.num.toNat : ℕ) : ℤ) = t.val.num := Int.toNat_of_nonneg hint.2
        calc t.val = t.val.num := ((Rat.den_eq_one_iff t.val).1 hint.1).symm
          _ = ((t.val.num.toNat : ℕ) : ℤ) := by rw [hnum]
          _ = (t.val.num.toNat : ℕ) := by norm_cast
      · cases h
    · cases h
  · rintro ⟨n, hn, hle⟩
    have hread := @isBoundedNat_toJs bound ⟨n, hle⟩
    unfold Timestamp.toJs
    rw [hn]
    exact congrArg Option.isSome hread

section

variable [Platform]

theorem accepted_ne_none_iff {row : JsValue} {header : OperationHeader} (h : validateHeader row = some header) :
    accepted row ≠ none ↔ permitted row header = true ∧
      ∃ action, validateValue header.action (row.get "value") header.targetOperationId = .ok (some action) := by
  unfold accepted validateOperation
  rw [h]
  by_cases hp : permitted row header = true
  · simp only [hp, true_and]
    cases hv : validateValue header.action (row.get "value") header.targetOperationId with
    | error e => simp [bind, Except.bind]
    | ok action => cases action <;> simp [bind, Except.bind, pure, Except.pure]
  · simp [hp, pure, Except.pure]

omit [Platform] in
theorem permitted_import_iff (op : ImportOperation) (h : 1 ≤ op.logicalClock) (howned : op.Owned) :
    permitted (.obj op.toJs) (op.header h) = true ↔
      op.actor.actorRole ≠ .app ∨ ∃ itemId pubkey, op.action = .addIdentity itemId pubkey := by
  have hvalue : (JsValue.obj op.toJs).get "value" = .obj op.action.value := by
    obtain ⟨id, directory, contact, actor, clock, action, created, owner⟩ := op
    cases owner <;> rfl
  unfold permitted
  rw [get_ownerIdentityPubkey, hvalue]
  unfold ImportOperation.header
  dsimp only
  cases haction : op.action with
  | linkList owner => simp [ImportAction.actionName, appAllowedActions, isObj]
  | add displayName owner =>
    have hdefined : (JsValue.obj (ImportAction.add displayName owner).value).get "ownerIdentityPubkey" ≠ .undefined :=
      fun h => by cases h
    simp [ImportAction.actionName, appAllowedActions, isObj, hdefined]
  | addIdentity itemId pubkey => simp [ImportAction.actionName, appAllowedActions, isObj]
  | recordOrigin id owner method addedAt caption =>
    have howner : optToJs Hex.toJs op.ownerIdentityPubkey
        = (JsValue.obj (ImportAction.recordOrigin id owner method addedAt caption).value).get "ownerIdentityPubkey" := by
      unfold ImportOperation.Owned at howned
      rw [haction] at howned
      rw [howned]
      rfl
    rw [howner]
    simp [ImportAction.actionName, appAllowedActions, isObj]

/-- What the guard of values asks of a planned action. -/
def ImportAction.Sound : ImportAction → Prop
  | .add displayName _ => 0 < displayName.length ∧ displayName.length ≤ capName
  | .recordOrigin _ _ _ addedAt caption =>
    (∃ n : ℕ, addedAt.val = n ∧ n ≤ maxCheckTime) ∧ caption.length ≤ capOriginText
  | _ => True

theorem pureValue_iff {name : ActionName} (hname : name ≠ .addIdentity) (v : JsValue) :
    (∃ action, validateValue name v none = .ok (some action)) ↔ (validatePureValue name v none).isSome := by
  unfold validateValue
  rw [if_neg hname]
  cases validatePureValue name v none with
  | none => exact iff_of_false (fun ⟨_, h⟩ => by cases h) Bool.false_ne_true
  | some action => exact iff_of_true ⟨action, rfl⟩ rfl

theorem value_import_iff (action : ImportAction) :
    (∃ a, validateValue action.actionName (.obj action.value) none = .ok (some a)) ↔ action.Sound := by
  cases action with
  | linkList owner =>
    have hread : validatePureValue .linkList (.obj (ImportAction.linkList owner).value) none
        = (isHex 64 owner.toJs).map .linkList := rfl
    rw [pureValue_iff (fun h => by cases h)]
    unfold ImportAction.actionName
    rw [hread, isHex_toJs]
    exact iff_of_true rfl trivial
  | add displayName owner =>
    have hread : validatePureValue .add (.obj (ImportAction.add displayName owner).value) none = (do
        let type ← StringUnion.parse (StringUnion.toJs ContactType.person)
        let name ← isStr capName (.str displayName)
        let tier ← StringUnion.parse (StringUnion.toJs ContactTier.ken)
        let ownerIdentityPubkey ← isOpt (isHex 64) owner.toJs
        some (.add { type, displayName := name, tier, ownerIdentityPubkey })) := rfl
    have howner : isOpt (isHex 64) owner.toJs = some (some owner) :=
      isOpt_optToJs isHex_toJs (fun _ h => by cases h) (some owner)
    rw [pureValue_iff (fun h => by cases h)]
    unfold ImportAction.actionName
    rw [hread, parse_toJs, parse_toJs, howner]
    show _ ↔ 0 < displayName.length ∧ displayName.length ≤ capName
    rw [← isStr_isSome_iff]
    cases isStr capName (.str displayName) <;> rfl
  | addIdentity itemId pubkey =>
    have hread : addIdentityValue (.obj (ImportAction.addIdentity itemId pubkey).value) = (do
        let itemId ← isHex 32 itemId.toJs
        let pubkey ← isHex 64 pubkey.toJs
        let provenance ← StringUnion.parse (StringUnion.toJs ContactIdentityProvenance.direct)
        let verification ← StringUnion.parse (StringUnion.toJs ContactVerification.unverified)
        some { itemId, pubkey, provenance, verification }) := rfl
    rw [isHex_toJs, isHex_toJs, parse_toJs, parse_toJs] at hread
    refine iff_of_true ?_ trivial
    unfold ImportAction.actionName validateValue
    rw [if_pos rfl, hread]
    exact ⟨_, rfl⟩
  | recordOrigin id owner method addedAt caption =>
    have hread : validatePureValue .recordOrigin
        (.obj (ImportAction.recordOrigin id owner method addedAt caption).value) none = (do
          let id ← isHex 32 id.toJs
          let ownerIdentityPubkey ← isHex 64 owner.toJs
          let method ← StringUnion.parse (StringUnion.toJs method)
          let addedAt ← isBoundedNat maxCheckTime addedAt.toJs
          let caption ← (isText capOriginText (.str caption)).map some
          some (ContactOrigin.mk id ownerIdentityPubkey method addedAt none none caption none)).map .recordOrigin :=
      rfl
    rw [pureValue_iff (fun h => by cases h)]
    unfold ImportAction.actionName
    rw [hread, isHex_toJs, isHex_toJs, parse_toJs]
    show _ ↔ (∃ n : ℕ, addedAt.val = n ∧ n ≤ maxCheckTime) ∧ caption.length ≤ capOriginText
    rw [← isBoundedNat_isSome_iff, ← isText_isSome_iff]
    cases isBoundedNat maxCheckTime addedAt.toJs with
    | none => exact iff_of_false Bool.false_ne_true fun h => absurd h.1 Bool.false_ne_true
    | some time => cases isText capOriginText (.str caption) <;> simp

/-- Is a planned operation one that the guard lets through, under any clock? -/
def ImportOperation.Good (op : ImportOperation) : Prop :=
  (op.actor.actorRole ≠ .app ∨ ∃ itemId pubkey, op.action = .addIdentity itemId pubkey) ∧ op.action.Sound

theorem accepted_import_iff (op : ImportOperation) (h : 1 ≤ op.logicalClock) (howned : op.Owned) :
    accepted (.obj op.toJs) ≠ none ↔ op.Good := by
  have hvalue : (JsValue.obj op.toJs).get "value" = .obj op.action.value := by
    obtain ⟨id, directory, contact, actor, clock, action, created, owner⟩ := op
    cases owner <;> rfl
  rw [accepted_ne_none_iff (validateHeader_import op h), permitted_import_iff op h howned, hvalue]
  exact and_congr_right fun _ => value_import_iff op.action

theorem accepted_stampFrom_iff {ops : List ImportOperation} (clock : ℕ) (howned : ∀ op ∈ ops, op.Owned) :
    (∀ op ∈ stampFrom clock ops, accepted (.obj op.toJs) ≠ none) ↔ ∀ op ∈ ops, op.Good := by
  induction ops generalizing clock with
  | nil => exact iff_of_true (fun _ h => by cases h) (fun _ h => by cases h)
  | cons op ops ih =>
    obtain ⟨hop, hops⟩ := List.forall_mem_cons.1 howned
    rw [stampFrom, List.forall_mem_cons, List.forall_mem_cons, ih (addOne clock) hops]
    refine and_congr_left fun _ => ?_
    exact accepted_import_iff { op with logicalClock := addOne clock }
      (one_le_toDouble (Nat.le_add_left 1 clock)) hop

end

/-! ## The whole plan -/

theorem nameOf_ne_nil (displayName : JsString) : nameOf displayName ≠ [] := by
  unfold nameOf
  dsimp only
  split
  · decide
  · assumption

/-- A deduped entry is one of the list, under its sanitised name. -/
theorem mem_dedupe {byKey : OrderedMap Hex64 ContactRecord} {entries : List FollowImportEntry} {entry : KeyedEntry}
    (h : entry ∈ dedupe byKey entries) :
    ∃ raw ∈ entries, toLowerCase raw.pubkey = entry.pubkey.val ∧ entry.displayName = nameOf raw.displayName := by
  have hfold : ∀ (rest : List FollowImportEntry) (d : Deduping), rest ⊆ entries →
      (∀ e ∈ d.entries, ∃ raw ∈ entries, toLowerCase raw.pubkey = e.pubkey.val ∧
        e.displayName = nameOf raw.displayName) →
      ∀ e ∈ (rest.foldl (dedupeStep byKey) d).entries, ∃ raw ∈ entries,
        toLowerCase raw.pubkey = e.pubkey.val ∧ e.displayName = nameOf raw.displayName := by
    intro rest
    induction rest with
    | nil => exact fun d _ hd => hd
    | cons raw rest ih =>
      intro d hsub hd
      obtain ⟨hraw, hrest⟩ := List.cons_subset.1 hsub
      rw [List.foldl_cons]
      apply ih _ hrest
      intro e he
      unfold dedupeStep at he
      split at he
      · exact hd e he
      · next key hkey =>
        have hnew : ∀ e ∈ d.entries ++ [⟨key, nameOf raw.displayName⟩], ∃ raw ∈ entries,
            toLowerCase raw.pubkey = e.pubkey.val ∧ e.displayName = nameOf raw.displayName := by
          intro e he
          rcases List.mem_append.1 he with he | he
          · exact hd e he
          · rw [List.mem_singleton.1 he]
            refine ⟨raw, hraw, ?_, rfl⟩
            exact JsValue.str.inj (isHex_eq_some_iff.1 hkey)
        split at he
        · exact hd e he
        · dsimp only at he
          split at he
          · exact hnew e he
          · split at he
            · exact hd e he
            · exact hnew e he
  exact hfold entries ⟨[], [], []⟩ (List.Subset.refl entries) (fun e he => by cases he) entry h

section

variable {args : ImportArgs}

/-- The time and the caption of an import can be recorded as an origin. -/
def ImportArgs.OriginSound (args : ImportArgs) : Prop :=
  (∃ n : ℕ, args.now.val = n ∧ n ≤ maxCheckTime) ∧ args.caption.length ≤ capOriginText

/-- What the guard asks of an entry that is imported. A contact that was removed, or that is on the list, is left
alone; one that is full of history gets no origin. -/
def ImportArgs.Guarded (args : ImportArgs) (entry : KeyedEntry) : Prop :=
  match args.byKey.get entry.pubkey with
  | none => args.actor.actorRole ≠ .app ∧ entry.displayName.length ≤ capName ∧ args.OriginSound
  | some existing =>
    existing.lifecycle = .removed ∨ contactBelongsToList existing args.ownerIdentityPubkey = true ∨
      (args.actor.actorRole ≠ .app ∧ (64 ≤ (existing.origins.getD []).length ∨ args.OriginSound))

theorem good_origin_iff (contactId id operationId : Hex32) :
    (args.origin contactId id operationId).Good ↔ args.actor.actorRole ≠ .app ∧ args.OriginSound :=
  and_congr_left fun _ => or_iff_left fun ⟨_, _, h⟩ => (by cases h)

theorem good_link_iff (contactId operationId : Hex32) (owner : Hex64) :
    (args.make contactId operationId (.linkList owner)).Good ↔ args.actor.actorRole ≠ .app :=
  (and_iff_left trivial).trans (or_iff_left fun ⟨_, _, h⟩ => (by cases h))

theorem good_add_iff (contactId operationId : Hex32) (displayName : JsString) (owner : Hex64) :
    (args.make contactId operationId (.add displayName owner)).Good ↔
      args.actor.actorRole ≠ .app ∧ 0 < displayName.length ∧ displayName.length ≤ capName :=
  and_congr_left fun _ => or_iff_left fun ⟨_, _, h⟩ => (by cases h)

theorem good_addIdentity (contactId operationId itemId : Hex32) (pubkey : Hex64) :
    (args.make contactId operationId (.addIdentity itemId pubkey)).Good :=
  ⟨.inr ⟨itemId, pubkey, rfl⟩, trivial⟩

variable {entry : KeyedEntry}

/-- The operations of an entry pass exactly if the entry is one the guard allows. -/
theorem good_outcome_iff (hname : entry.displayName ≠ []) (i : ℕ) :
    (∀ g, args.outcomeOf args.byKey entry i = .work g → ∀ op ∈ g.ops, op.Good) ↔ args.Guarded entry := by
  unfold ImportArgs.outcomeOf ImportArgs.Guarded
  dsimp only
  cases args.byKey.get entry.pubkey with
  | none =>
    dsimp only
    have hpos : 0 < entry.displayName.length := List.length_pos_iff.2 hname
    simp only [Outcome.work.injEq, forall_eq', List.mem_cons, List.not_mem_nil, or_false, forall_eq_or_imp, forall_eq,
      good_add_iff, good_addIdentity, good_origin_iff, hpos, true_and]
    tauto
  | some existing =>
    dsimp only
    split
    · next hremoved => simp [hremoved]
    · next hlive =>
      split
      · next hbelongs => simp [hbelongs]
      · next hbelongs =>
        simp only [Outcome.work.injEq, forall_eq', hlive, hbelongs, false_or]
        split
        · next hroom =>
          simp only [List.mem_cons, List.not_mem_nil, or_false, forall_eq_or_imp, forall_eq, good_link_iff,
            good_origin_iff]
          have hnot : ¬64 ≤ (existing.origins.getD []).length := not_le.2 hroom
          tauto
        · next hfull =>
          simp only [List.mem_singleton, forall_eq, good_link_iff]
          have hle : 64 ≤ (existing.origins.getD []).length := not_lt.1 hfull
          tauto

variable {g : Group} {i : ℕ}

theorem owned_of_work (h : args.outcomeOf args.byKey entry i = .work g) :
    ∀ op ∈ g.ops, op.Owned := by
  unfold ImportArgs.outcomeOf at h
  dsimp only at h
  split at h
  · split at h
    · cases h
    · split at h
      · cases h
      · cases h
        dsimp only
        split
        · exact List.forall_mem_cons.2 ⟨trivial, List.forall_mem_singleton.2 rfl⟩
        · exact List.forall_mem_singleton.2 trivial
  · cases h
    exact List.forall_mem_cons.2 ⟨trivial, List.forall_mem_cons.2 ⟨trivial, List.forall_mem_singleton.2 rfl⟩⟩

theorem mem_groups_of_work (hget : args.dedupedEntries[i]? = some entry)
    (hwork : args.outcomeOf args.byKey entry i = .work g) : g ∈ args.groups := by
  rw [groups_eq]
  refine List.mem_filterMap.2 ⟨(entry, i), List.mem_zipIdx_iff_getElem?.2 hget, ?_⟩
  dsimp only
  rw [hwork]
  rfl

/-- Every planned operation passes the guard exactly if every entry that the plan covers is one the guard allows: for
a new contact that its sanitised name has at most 100 code units. -/
theorem import_passes_guard_iff [Platform] (args : ImportArgs) :
    (∀ op ∈ (planFollowsImport args).ops, accepted (.obj op.toJs) ≠ none) ↔
      ∀ i entry, args.dedupedEntries[i]? = some entry → args.firstKept args.keptFrom ≤ i → args.Guarded entry := by
  have hplan : (planFollowsImport args).ops
      = stampFrom args.baseClock ((args.groups.drop args.keptFrom).flatMap Group.ops) := rfl
  have howned : ∀ op ∈ (args.groups.drop args.keptFrom).flatMap Group.ops, op.Owned := by
    intro op hop
    obtain ⟨g, hg, hop⟩ := List.mem_flatMap.1 hop
    obtain ⟨entry, -, hwork⟩ := exists_entry (List.mem_of_mem_drop hg)
    exact owned_of_work hwork op hop
  have hnamed : ∀ (i : ℕ) (entry : KeyedEntry), args.dedupedEntries[i]? = some entry →
      entry.displayName ≠ [] := by
    intro i entry hget
    obtain ⟨raw, -, -, hname⟩ := mem_dedupe (List.mem_of_getElem? hget)
    rw [hname]
    exact nameOf_ne_nil raw.displayName
  rw [hplan, accepted_stampFrom_iff args.baseClock howned]
  constructor
  · intro h i entry hget hfirst
    rw [← good_outcome_iff (hnamed i entry hget) i]
    intro g hwork op hop
    refine h op (List.mem_flatMap.2 ⟨g, ?_, hop⟩)
    rw [drop_groups, List.mem_filter]
    refine ⟨mem_groups_of_work hget hwork, ?_⟩
    rw [(work_cases hwork).1]
    simpa using hfirst
  · intro h op hop
    obtain ⟨g, hg, hop⟩ := List.mem_flatMap.1 hop
    rw [drop_groups, List.mem_filter] at hg
    obtain ⟨entry, hget, hwork⟩ := exists_entry hg.1
    exact (good_outcome_iff (hnamed _ entry hget) g.entryIndex).2
      (h g.entryIndex entry hget (by simpa using hg.2)) g hwork op hop

end

section

attribute [local instance] decimalNumerals

/-- One follow whose name is 51 faces: 51 code points and 102 code units. -/
def facesArgs : ImportArgs :=
  { sampleArgs 1 100 with
    entries := [⟨(Hex.repeated 64 3).val, (List.replicate 51 (encodeChar (Char.ofNat 0x1f600))).flatten⟩]
    caption := followsOriginCaption }

/-- The name of one follow rejects the whole import. -/
theorem faces_reject_import :
    facesArgs.actor.actorRole = .owner ∧ facesArgs.caption.length ≤ 200 ∧
      ¬∀ op ∈ (planFollowsImport facesArgs).ops, accepted (.obj op.toJs) ≠ none := by
  refine ⟨rfl, by decide, ?_⟩
  intro h
  have hall : (planFollowsImport facesArgs).ops.all fun op => (accepted (.obj op.toJs)).isSome := by
    rw [List.all_eq_true]
    intro op hop
    exact Option.isSome_iff_ne_none.2 (h op hop)
  exact absurd hall (by decide +kernel)

end

end SignetApp.Follows
