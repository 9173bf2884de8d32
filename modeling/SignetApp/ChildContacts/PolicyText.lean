import SignetApp.ChildContacts.Directory
import SignetApp.ChildContacts.DirectoryText
import SignetApp.Family.StrictestChoice
import SignetApp.Sync.TextSize

/-!
# A child's contact policy on the wire

`child-contact-policy-wire.ts`: the guardian's decisions about invitations as a view of bounded size, how a
child's phone decides by it, and how two views are merged; with `child-contact-policy-cache.ts`, which keeps the
merged view.
-/

namespace SignetApp.ChildContacts

open SignetApp.Js SignetApp.Sync
open SignetApp.Contacts (ContactCeilingTier ContactRecord Hex64)
open SignetApp.Family.ChildContact (ContactPolicy ContactInviteDecision ChildSettings ceilings contactInviteDecision
  portableChildContactSettings)

def maxPeers : ℕ := 500

/-- `MAX_BYTES` of the policy's text. -/
def maxPolicyBytes : ℕ := 100000

structure ChildContactPolicyView where
  guardian : Hex64
  recipient : Hex64
  revision : ℕ
  expiresAt : ℕ
  policy : ContactPolicy
  ceiling : ContactCeilingTier
  conflicted : Bool
  allowed : List Hex64
  blocked : List Hex64
  deriving DecidableEq

def ChildContactPolicyView.toJs (view : ChildContactPolicyView) : JsValue :=
  .obj [("v", .ofNat 1), ("guardian", view.guardian.toJs), ("recipient", view.recipient.toJs),
    ("revision", .ofNat view.revision), ("expiresAt", .ofNat view.expiresAt),
    ("policy", StringUnion.toJs view.policy), ("ceiling", StringUnion.toJs view.ceiling),
    ("conflicted", .bool view.conflicted), ("allowed", keysToJs view.allowed), ("blocked", keysToJs view.blocked)]

/-! ## Reading -/

/-- `peers`: in order, each of them once. -/
def peers (v : JsValue) : Option (List Hex64) :=
  ((isArrayOf (isHex 64) v).filter fun ks => decide (ks.length ≤ maxPeers)).map fun ks => sorted (distinct ks)

def policyOf (v : JsValue) : Option ChildContactPolicyView := do
  guard (v.get "v" = .ofNat 1)
  let guardian ← isHex 64 (v.get "guardian")
  let recipient ← isHex 64 (v.get "recipient")
  let revision ← isTime (v.get "revision")
  let expiresAt ← isTime (v.get "expiresAt")
  guard (revision < expiresAt ∧ expiresAt - revision ≤ ttl)
  let policy ← StringUnion.parse (v.get "policy")
  let ceiling ← StringUnion.parse (v.get "ceiling")
  let conflicted ← isBool (v.get "conflicted")
  let allowed ← peers (v.get "allowed")
  let blocked ← peers (v.get "blocked")
  guard (allowed.length + blocked.length ≤ maxPeers ∧ allowed.any blocked.contains = false)
  pure ⟨guardian, recipient, revision, expiresAt, policy, ceiling, conflicted, allowed, blocked⟩

section

variable [Numerals]

def parseChildContactPolicy (raw : JsString) : Option ChildContactPolicyView :=
  if maxPolicyBytes < utf8Length raw then none else (parse raw).bind policyOf

/-! ## Projecting -/

structure PolicyScope where
  child : JsString
  guardian : JsString
  recipient : JsString
  settings : Option ChildSettings
  records : List ContactRecord

/-- The row of a child that has none. -/
def noSettings (child guardian : Hex64) : JsValue :=
  .obj [("childPubkey", child.toJs), ("guardianPubkey", guardian.toJs), ("contactPolicy", .ofLit "kin-only")]

/-- Everybody the guardian's data say something of. -/
def candidates (records : List ContactRecord) (settings : ChildSettings) : List Hex64 :=
  distinct (records.flatMap (fun record => record.identities.map fun i => i.pubkey) ++ settings.approvedContacts.val)

/-- Under the open policy only who is blocked is denied. -/
def isBlockedPeer (child guardian : Hex64) (records : List ContactRecord) (settings : ChildSettings)
    (peer : Hex64) : Bool :=
  decide (contactInviteDecision peer.val records (.dependant child)
    (some { settings with contactPolicy := .open, contactPolicyConflicted := false }) [guardian] = .deny)

def isAllowedPeer (child guardian : Hex64) (records : List ContactRecord) (settings : ChildSettings)
    (peer : Hex64) : Bool :=
  !isBlockedPeer child guardian records settings peer &&
    decide (contactInviteDecision peer.val records (.dependant child) (some settings) [guardian] = .allow)

/-- `none` where it throws. -/
def projectChildContactPolicy (s : PolicyScope) (now : ℕ) : Option ChildContactPolicyView := do
  let child ← isHex 64 (.str s.child)
  let guardian ← isHex 64 (.str s.guardian)
  let recipient ← isHex 64 (.str s.recipient)
  guard (now ≤ maxTime)
  guard (∀ record ∈ s.records, record.directoryId = .dependant child)
  let settings ← portableChildContactSettings (s.settings.elim (noSettings child guardian) ChildSettings.toJs)
  guard (settings.childPubkey = child ∧ settings.guardianPubkey = guardian)
  let peers := candidates s.records settings
  guard (peers.length ≤ maxPeers)
  parseChildContactPolicy (jsonText (ChildContactPolicyView.toJs {
    guardian
    recipient
    revision := now
    expiresAt := now + ttl
    policy := settings.contactPolicy
    ceiling := settings.defaultChildCeiling
    conflicted := settings.contactPolicyConflicted
    allowed := peers.filter (isAllowedPeer child guardian s.records settings)
    blocked := peers.filter (isBlockedPeer child guardian s.records settings) }))

/-! ## Deciding -/

def childContactPolicyDecision (view : Option ChildContactPolicyView) (peer : JsString) (now : ℕ) :
    ContactInviteDecision :=
  match view with
  | none => .deny
  | some view =>
    if isHexOf 64 peer = false ∨ maxTime < now ∨ now + 300 < view.revision ∨ view.expiresAt ≤ now ∨
        view.conflicted = true ∨ view.blocked.any (fun key => key.val = peer) = true then .deny
    else if view.policy = .open ∨ view.allowed.any (fun key => key.val = peer) = true then .allow
    else if view.policy = .approved then .guardianReview
    else .deny

/-! ## Merging -/

/-- `none` where it throws. -/
def mergeChildContactPolicy (previous : Option ChildContactPolicyView) (incoming : ChildContactPolicyView) :
    Option ChildContactPolicyView :=
  match previous with
  | none => some incoming
  | some previous =>
    if previous.guardian ≠ incoming.guardian ∨ previous.recipient ≠ incoming.recipient then none
    else if incoming.revision < previous.revision then some previous
    else if previous.revision < incoming.revision then some incoming
    else if jsonText previous.toJs = jsonText incoming.toJs then some previous
    else
      some { previous with
        policy := .kinOnly
        conflicted := true
        ceiling := ceilings.getD (min (ceilings.idxOf previous.ceiling) (ceilings.idxOf incoming.ceiling)) .none
        expiresAt := min previous.expiresAt incoming.expiresAt
        allowed := previous.allowed.filter incoming.allowed.contains
        blocked := sorted (distinct (previous.blocked ++ incoming.blocked)) }

/-! ## The cache -/

/-- What is cached of a pairing, `none` where it is refused. -/
def decode (guardian recipient : Hex64) (raw : Option JsString) : Option (Option ChildContactPolicyView) :=
  match raw with
  | none => some none
  | some text =>
    ((parseChildContactPolicy text).filter fun view =>
      decide (view.guardian = guardian ∧ view.recipient = recipient)).map some

/-- What is cached next, `none` where nothing is saved. -/
def saveChildContactPolicyCache (guardian recipient : Hex64) (raw : Option JsString)
    (incoming : ChildContactPolicyView) : Option JsString := do
  let view ← parseChildContactPolicy (jsonText incoming.toJs)
  guard (view.guardian = guardian ∧ view.recipient = recipient)
  let previous ← decode guardian recipient raw
  let merged ← mergeChildContactPolicy previous view
  pure (jsonText merged.toJs)

end

end SignetApp.ChildContacts

/-!
## A view and its text

What is read of a view is in order, and what is in order and no larger than it may be is read as it was written.
-/

namespace SignetApp.ChildContacts

open SignetApp.Js SignetApp.Sync
open SignetApp.Contacts (ContactCeilingTier Hex64)
open SignetApp.Family.ChildContact (ContactPolicy pairwise_lt_eq_of_toFinset)

/-! ## Keys in order -/

/-- In order, each of them once. -/
def inOrder (ks : List Hex64) : List Hex64 := sorted (distinct ks)

variable {ks : List Hex64}

theorem mem_inOrder {k : Hex64} : k ∈ inOrder ks ↔ k ∈ ks := by
  rw [inOrder, sorted, List.mem_insertionSort, mem_distinct]

theorem pairwise_inOrder (ks : List Hex64) : (inOrder ks).Pairwise (· < ·) := by
  have hsorted := List.pairwise_insertionSort (· ≤ ·) (distinct ks)
  have hnodup : (inOrder ks).Nodup := (List.perm_insertionSort (· ≤ ·) _).nodup_iff.2 (nodup_distinct ks)
  exact (hsorted.and hnodup).imp fun h => lt_of_le_of_ne h.1 h.2

theorem inOrder_eq (h : ks.Pairwise (· < ·)) : inOrder ks = ks := by
  refine pairwise_lt_eq_of_toFinset (pairwise_inOrder ks) h ?_
  ext k
  rw [List.mem_toFinset, List.mem_toFinset, mem_inOrder]

/-! ## Values that are read -/

namespace ChildContactPolicyView

def tidied (view : ChildContactPolicyView) : ChildContactPolicyView :=
  { view with allowed := inOrder view.allowed, blocked := inOrder view.blocked }

/-- What the parser asks of a view. -/
structure Valid (view : ChildContactPolicyView) : Prop where
  times : view.revision ≤ maxTime ∧ view.expiresAt ≤ maxTime
  lifetime : view.revision < view.expiresAt ∧ view.expiresAt - view.revision ≤ ttl
  lists : view.allowed.length ≤ maxPeers ∧ view.blocked.length ≤ maxPeers
  together : (inOrder view.allowed).length + (inOrder view.blocked).length ≤ maxPeers
  apart : ∀ k ∈ view.allowed, k ∉ view.blocked

/-- A view as it is read. -/
structure Tidy (view : ChildContactPolicyView) : Prop where
  valid : view.Valid
  allowed : view.allowed.Pairwise (· < ·)
  blocked : view.blocked.Pairwise (· < ·)

theorem tidied_of_tidy {view : ChildContactPolicyView} (h : view.Tidy) : view.tidied = view := by
  unfold tidied
  rw [inOrder_eq h.allowed, inOrder_eq h.blocked]

end ChildContactPolicyView

open ChildContactPolicyView

@[simp]
theorem peers_keysToJs (ks : List Hex64) :
    peers (keysToJs ks) = if ks.length ≤ maxPeers then some (inOrder ks) else none := by
  unfold peers keysToJs
  rw [isArrayOf_toJs isHex_toJs, Option.filter]
  simp only [decide_eq_true_eq]
  split <;> rfl

variable {view : ChildContactPolicyView}

/-- What is written is read, in order, if it is valid. -/
theorem policyOf_toJs {view' : ChildContactPolicyView} :
    policyOf view.toJs = some view' ↔ view.Valid ∧ view' = view.tidied := by
  have hv : view.toJs.get "v" = .ofNat 1 := by simp [ChildContactPolicyView.toJs, JsValue.get_obj_cons]
  have hguardian : view.toJs.get "guardian" = view.guardian.toJs := by
    simp [ChildContactPolicyView.toJs, JsValue.get_obj_cons]
  have hrecipient : view.toJs.get "recipient" = view.recipient.toJs := by
    simp [ChildContactPolicyView.toJs, JsValue.get_obj_cons]
  have hrevision : view.toJs.get "revision" = .ofNat view.revision := by
    simp [ChildContactPolicyView.toJs, JsValue.get_obj_cons]
  have hexpires : view.toJs.get "expiresAt" = .ofNat view.expiresAt := by
    simp [ChildContactPolicyView.toJs, JsValue.get_obj_cons]
  have hpolicy : view.toJs.get "policy" = StringUnion.toJs view.policy := by
    simp [ChildContactPolicyView.toJs, JsValue.get_obj_cons]
  have hceiling : view.toJs.get "ceiling" = StringUnion.toJs view.ceiling := by
    simp [ChildContactPolicyView.toJs, JsValue.get_obj_cons]
  have hconflicted : view.toJs.get "conflicted" = .bool view.conflicted := by
    simp [ChildContactPolicyView.toJs, JsValue.get_obj_cons]
  have hallowed : view.toJs.get "allowed" = keysToJs view.allowed := by
    simp [ChildContactPolicyView.toJs, JsValue.get_obj_cons]
  have hblocked : view.toJs.get "blocked" = keysToJs view.blocked := by
    simp [ChildContactPolicyView.toJs, JsValue.get_obj_cons]
  have hdisjoint : (inOrder view.allowed).any (inOrder view.blocked).contains = false ↔
      ∀ k ∈ view.allowed, k ∉ view.blocked := by
    simp [mem_inOrder]
  unfold policyOf
  rw [hv, hguardian, hrecipient, hrevision, hexpires, hpolicy, hceiling, hconflicted, hallowed, hblocked]
  simp only [isHex_toJs, isTime_ofNat, isBool, parse_toJs, peers_keysToJs,
    Option.bind_eq_bind, Option.bind_some, Option.bind_eq_some_iff, Option.guard_eq_some',
    Option.ite_none_right_eq_some, Option.some.injEq, Option.pure_def]
  constructor
  · rintro ⟨_, -, _, ⟨hr, rfl⟩, _, ⟨hx, rfl⟩, _, hlife, _, ⟨ha, rfl⟩, _, ⟨hb, rfl⟩, _, ⟨htogether, hapart⟩, rfl⟩
    exact ⟨⟨⟨hr, hx⟩, hlife, ⟨ha, hb⟩, htogether, hdisjoint.1 hapart⟩, rfl⟩
  · rintro ⟨⟨⟨hr, hx⟩, hlife, ⟨ha, hb⟩, htogether, hapart⟩, rfl⟩
    exact ⟨(), trivial, _, ⟨hr, rfl⟩, _, ⟨hx, rfl⟩, (), hlife, _, ⟨ha, rfl⟩, _, ⟨hb, rfl⟩, (),
      ⟨htogether, hdisjoint.2 hapart⟩, rfl⟩

theorem tidy_of_policyOf {v : JsValue} (h : policyOf v = some view) : view.Tidy := by
  have hpeers : ∀ {v : JsValue} {ks : List Hex64}, peers v = some ks → ks.Pairwise (· < ·) := by
    intro v ks h
    obtain ⟨ks', -, rfl⟩ := Option.map_eq_some_iff.1 h
    exact pairwise_inOrder ks'
  have htime : ∀ {v : JsValue} {n : ℕ}, isTime v = some n → n ≤ maxTime := by
    intro v n h
    obtain ⟨t, -, rfl⟩ := Option.map_eq_some_iff.1 h
    exact t.property
  simp only [policyOf, Option.bind_eq_bind, Option.bind_eq_some_iff, Option.guard_eq_some', Option.pure_def,
    Option.some.injEq] at h
  obtain ⟨_, -, _, -, _, -, _, hr, _, hx, _, hlife, _, -, _, -, _, -, as, ha, bs, hb, _, ⟨htogether, hapart⟩, rfl⟩ := h
  refine ⟨⟨⟨htime hr, htime hx⟩, hlife, ⟨?_, ?_⟩, ?_, ?_⟩, hpeers ha, hpeers hb⟩
  · exact (Nat.le_add_right _ _).trans htogether
  · exact (Nat.le_add_left _ _).trans htogether
  · show (inOrder as).length + (inOrder bs).length ≤ maxPeers
    rwa [inOrder_eq (hpeers ha), inOrder_eq (hpeers hb)]
  · simpa using hapart

/-! ## Texts -/

section

variable [Numerals]

theorem isJson_view (hint : IntegersSurvive) (view : ChildContactPolicyView) : IsJson view.toJs := by
  simp only [ChildContactPolicyView.toJs, IsJson, HoldJson, and_true, List.map_cons, List.map_nil]
  exact ⟨by decide, hint.nat _, trivial, trivial, hint.nat _, hint.nat _, isJson_ofLit _, isJson_ofLit _, trivial,
    isJson_keysToJs _, isJson_keysToJs _⟩

theorem utf8Length_keysToJs (ks : List Hex64) :
    utf8Length (jsonText (keysToJs ks)) = 67 * ks.length - 1 + 2 := by
  have hbytes : bytes ((ks.map Hex.toJs).map jsonText) = 67 * ks.length := by
    rw [bytes, List.map_map, List.map_map]
    induction ks with
    | nil => rfl
    | cons k ks ih =>
      rw [List.map_cons, List.sum_cons, ih, List.length_cons]
      show utf8Length (jsonText k.toJs) + 1 + _ = _
      rw [utf8Length_jsonText_hex]
      omega
  rw [keysToJs, utf8Length_jsonText_arr, hbytes]
  intro v hv
  obtain ⟨k, -, rfl⟩ := List.mem_map.1 hv
  exact written_str k.val

/-- What a view's text takes besides its lists. -/
def headBytes (view : ChildContactPolicyView) : ℕ :=
  memberBytes [("v", .ofNat 1), ("guardian", view.guardian.toJs), ("recipient", view.recipient.toJs),
    ("revision", .ofNat view.revision), ("expiresAt", .ofNat view.expiresAt),
    ("policy", StringUnion.toJs view.policy), ("ceiling", StringUnion.toJs view.ceiling),
    ("conflicted", .bool view.conflicted)]

theorem utf8Length_view (view : ChildContactPolicyView) :
    utf8Length (jsonText view.toJs) =
      headBytes view + (67 * view.allowed.length - 1) + (67 * view.blocked.length - 1) + 27 := by
  have hquote : utf8Length (quote (lit "allowed")) = 9 ∧ utf8Length (quote (lit "blocked")) = 9 := by decide
  rw [ChildContactPolicyView.toJs, utf8Length_jsonText_obj]
  · simp only [headBytes, memberBytes_cons, memberBytes_nil, hquote, utf8Length_keysToJs]
    omega
  · simp [StringUnion.toJs, JsValue.ofLit, JsValue.ofNat, Hex.toJs, keysToJs]
  · simp

theorem jsonText_toJs_le {α : Type} [StringUnion α] {n : ℕ}
    (h : ∀ a : α, utf8Length (quote (lit (StringUnion.name a))) ≤ n) (a : α) :
    utf8Length (jsonText (StringUnion.toJs a)) ≤ n := by
  rw [StringUnion.toJs, JsValue.ofLit, jsonText, stringify]
  exact h a

variable {view : ChildContactPolicyView}

theorem utf8Length_view_le (hdecimal : IntegersInDecimal) (h : view.Tidy) :
    utf8Length (jsonText view.toJs) ≤ maxPolicyBytes := by
  have hnumber : ∀ {n : ℕ}, n ≤ maxTime → utf8Length (jsonText (.ofNat n)) ≤ 12 := fun hn =>
    utf8Length_jsonText_ofNat hdecimal (by decide) (by decide) (hn.trans_lt (by decide))
  have hpolicy : utf8Length (jsonText (StringUnion.toJs view.policy)) ≤ 10 :=
    jsonText_toJs_le (fun a => by cases a <;> decide) view.policy
  have hceiling : utf8Length (jsonText (StringUnion.toJs view.ceiling)) ≤ 6 :=
    jsonText_toJs_le (fun a => by cases a <;> decide) view.ceiling
  have hconflicted : utf8Length (jsonText (.bool view.conflicted)) ≤ 5 := by
    cases view.conflicted <;> rw [jsonText, stringify] <;> decide
  have hone : utf8Length (jsonText (.ofNat 1)) ≤ 12 := hnumber (by decide)
  have hnames : ["v", "guardian", "recipient", "revision", "expiresAt", "policy", "ceiling", "conflicted"].map
      (fun name => utf8Length (quote (lit name))) = [3, 10, 11, 10, 11, 8, 9, 12] := by decide
  simp only [List.map_cons, List.map_nil, List.cons.injEq] at hnames
  have hrevision := hnumber h.valid.times.1
  have hexpires := hnumber h.valid.times.2
  have htogether := h.valid.together
  rw [inOrder_eq h.allowed, inOrder_eq h.blocked] at htogether
  rw [utf8Length_view, headBytes]
  simp only [memberBytes_cons, memberBytes_nil, hnames, utf8Length_jsonText_hex]
  show _ ≤ 100000
  unfold maxPeers at htogether
  omega

theorem parse_view (hint : IntegersSurvive) {view' : ChildContactPolicyView} :
    parseChildContactPolicy (jsonText view.toJs) = some view' ↔
      utf8Length (jsonText view.toJs) ≤ maxPolicyBytes ∧ view.Valid ∧ view' = view.tidied := by
  unfold parseChildContactPolicy
  split
  · rename_i hlarge
    constructor
    · intro h
      cases h
    · rintro ⟨hle, -⟩
      exact absurd hle (Nat.not_le_of_lt hlarge)
  · rename_i hsmall
    rw [parse_jsonText (isJson_view hint view), Option.bind_some, policyOf_toJs]
    exact (and_iff_right (Nat.le_of_not_lt hsmall)).symm

theorem tidy_of_parsePolicy {raw : JsString}
    (h : parseChildContactPolicy raw = some view) : view.Tidy := by
  unfold parseChildContactPolicy at h
  split at h
  · cases h
  · obtain ⟨v, -, hv⟩ := Option.bind_eq_some_iff.1 h
    exact tidy_of_policyOf hv

theorem parse_tidy (hint : IntegersSurvive) (hdecimal : IntegersInDecimal)
    (h : view.Tidy) : parseChildContactPolicy (jsonText view.toJs) = some view :=
  (parse_view hint).2 ⟨utf8Length_view_le hdecimal h, h.valid, (ChildContactPolicyView.tidied_of_tidy h).symm⟩

end

end SignetApp.ChildContacts
