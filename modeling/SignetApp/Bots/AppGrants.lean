import SignetApp.Apps.Registry
import SignetApp.Bots.Registry

/-!
# The grants of bot apps

`bot-app-grants.ts`: what an app may have a bot sign, on one device. A grant is never taken out of the
store: it is revoked, and then stays as it is. So the store only grows (`Grows`), an id stands for one
grant for ever, and of the grants to one app at most one is live.
-/

namespace SignetApp.Bots

open SignetApp.Js SignetApp.Sync
open SignetApp.Contacts (sanitizeDisplayName)
open SignetApp.Apps (isValidRelayUrl)

/-! ## The store -/

structure BotAppGrant where
  id : JsString
  botPubkey : JsString
  clientPubkey : JsString
  appName : JsString
  relayUrl : JsString
  eventKinds : List ℚ
  createdAt : ℚ
  expiresAt : ℚ
  revokedAt : Option ℚ
  deriving DecidableEq

def maxLifetime : ℕ := 30 * 24 * 60 * 60
def maxGrants : ℕ := 256
def maxGrantsText : ℕ := 256 * 1024
def maxAppName : ℕ := 100

def isEventKind (kind : ℚ) : Bool := kind.den = 1 && decide (0 ≤ kind ∧ kind ≤ 65535)

def BotAppGrant.valid (root : JsString) (grant : BotAppGrant) : Bool :=
  isHexOf 32 grant.id && isHexOf 64 grant.botPubkey && isHexOf 64 grant.clientPubkey
    && grant.botPubkey != root && grant.botPubkey != grant.clientPubkey
    && !(trim grant.appName).isEmpty && decide (grant.appName.length ≤ maxAppName)
    && decide (grant.relayUrl.length ≤ 1024) && isValidRelayUrl grant.relayUrl
    && decide (1 ≤ grant.eventKinds.length) && decide (grant.eventKinds.length ≤ 32)
    && grant.eventKinds.all isEventKind && decide grant.eventKinds.Nodup
    && isStamp grant.createdAt && isStamp grant.expiresAt && decide (grant.createdAt < grant.expiresAt)
    && decide (grant.expiresAt - grant.createdAt ≤ maxLifetime)
    && grant.revokedAt.all fun t => isStamp t && decide (grant.createdAt ≤ t)

/-- `none` when it throws. The fields of a grant are kept as they are. -/
def parseGrants (grants : List BotAppGrant) (root : JsString) : Option (List BotAppGrant) :=
  if grants.length > maxGrants ∨ ¬ (grants.map BotAppGrant.id).Nodup then none
  else if grants.all (BotAppGrant.valid root) = false then none
  else some grants

/-! ## Consent -/

/-- `registry.bots.some(...)`. -/
def isLive (registry : BotRegistry) (botPubkey : JsString) : Bool :=
  registry.bots.any fun bot => bot.publicKey = botPubkey && bot.removedAt.isNone

/-- The grants an approval replaces. -/
def revokeOlder (now : ℚ) (grant existing : BotAppGrant) : BotAppGrant :=
  if existing.botPubkey = grant.botPubkey ∧ existing.clientPubkey = grant.clientPubkey
      ∧ existing.revokedAt = none then
    { existing with revokedAt := some (max now existing.createdAt) }
  else existing

/-- `grant.appName = sanitizeDisplayName(grant.appName, 100)`. -/
def BotAppGrant.clean (grant : BotAppGrant) : BotAppGrant :=
  { grant with appName := sanitizeDisplayName grant.appName maxAppName }

/-- What is checked of a grant before anything is read. -/
def approvable (root : JsString) (grant : BotAppGrant) : Bool :=
  (parseGrants [grant.clean] root).isSome && grant.revokedAt.isNone

/-- What `approveBotAppGrant` stores, at a time and with the registry it read. -/
def approve (root : JsString) (now : ℚ) (registry : BotRegistry) (grant : BotAppGrant)
    (previous : List BotAppGrant) : Option (List BotAppGrant) :=
  if grant.createdAt > now ∨ grant.expiresAt ≤ now then none
  else if isLive registry grant.botPubkey = false then none
  else (parseGrants previous root).bind fun grants =>
    if grants.any (fun existing => existing.id = grant.id) then none
    else parseGrants (grants.map (revokeOlder now grant) ++ [grant]) root

/-- What `revokeBotAppGrant` stores. -/
def revoke (root : JsString) (now : ℚ) (grantId : JsString) (previous : List BotAppGrant) :
    Option (List BotAppGrant) :=
  (parseGrants previous root).bind fun grants =>
    (grants.find? fun g => g.id = grantId).map fun grant =>
      if grant.revokedAt.isSome then grants
      else grants.map fun g =>
        if g.id = grant.id then { g with revokedAt := some (max grant.createdAt now) } else g

/-! ## What is stored -/

/-- A store that was checked. -/
structure Stored (root : JsString) (grants : List BotAppGrant) : Prop where
  length : grants.length ≤ maxGrants
  distinctIds : (grants.map BotAppGrant.id).Nodup
  valid : ∀ grant ∈ grants, grant.valid root = true

/-- Of the grants to one app at most one is not revoked. -/
def OneLive (grants : List BotAppGrant) : Prop :=
  ∀ g ∈ grants, ∀ g' ∈ grants, g.revokedAt = none → g'.revokedAt = none →
    g.botPubkey = g'.botPubkey → g.clientPubkey = g'.clientPubkey → g = g'

/-- The grant it is later: the same, or revoked since. -/
def Follows (g g' : BotAppGrant) : Prop :=
  g' = g ∨ (g.revokedAt = none ∧ ∃ t, g' = { g with revokedAt := some t })

/-- No grant is taken out, and none is changed but by being revoked. -/
def Grows (grants grants' : List BotAppGrant) : Prop :=
  ∀ g ∈ grants, ∃ g' ∈ grants', Follows g g'

variable {root : JsString} {grants grants' grants'' : List BotAppGrant} {now : ℚ}

variable {g g' : BotAppGrant}

theorem Follows.trans {g'' : BotAppGrant} (h : Follows g g') (h' : Follows g' g'') :
    Follows g g'' := by
  rcases h with rfl | ⟨hnone, t, rfl⟩
  · exact h'
  · rcases h' with rfl | ⟨hsome, -⟩
    · exact .inr ⟨hnone, t, rfl⟩
    · cases hsome

theorem Follows.id (h : Follows g g') : g'.id = g.id := by
  rcases h with rfl | ⟨-, t, rfl⟩
  · rfl
  · rfl

theorem Grows.refl (grants : List BotAppGrant) : Grows grants grants :=
  fun g hg => ⟨g, hg, .inl rfl⟩

theorem Grows.trans (h : Grows grants grants') (h' : Grows grants' grants'') :
    Grows grants grants'' := by
  intro g hg
  obtain ⟨g', hg', hfollows⟩ := h g hg
  obtain ⟨g'', hg'', hfollows'⟩ := h' g' hg'
  exact ⟨g'', hg'', hfollows.trans hfollows'⟩

theorem stored_iff : parseGrants grants root = some grants' ↔ grants' = grants ∧ Stored root grants := by
  unfold parseGrants
  constructor
  · intro h
    split_ifs at h with hshape hvalid
    obtain ⟨hlength, hids⟩ := not_or.1 hshape
    rw [Bool.not_eq_false, List.all_eq_true] at hvalid
    exact ⟨(Option.some.inj h).symm, not_lt.1 hlength, not_not.1 hids, hvalid⟩
  · rintro ⟨rfl, h⟩
    rw [if_neg, if_neg]
    · rw [Bool.not_eq_false, List.all_eq_true]
      exact h.valid
    · rw [not_or, not_not, not_lt]
      exact ⟨h.length, h.distinctIds⟩

theorem Stored.nil : Stored root [] :=
  ⟨Nat.zero_le _, List.nodup_nil, fun _ hg => by cases hg⟩

theorem Stored.eq_of_id (h : Stored root grants) (hg : g ∈ grants)
    (hg' : g' ∈ grants) (hid : g.id = g'.id) : g = g' :=
  List.inj_on_of_nodup_map h.distinctIds hg hg' hid

theorem isStamp_max {p q : ℚ} (hp : isStamp p = true) (hq : isStamp q = true) :
    isStamp (max p q) = true := by
  rcases max_cases p q with ⟨h, -⟩ | ⟨h, -⟩
  · rw [h]
    exact hp
  · rw [h]
    exact hq

variable {grant : BotAppGrant}

theorem stamps_of_valid (h : grant.valid root = true) : isStamp grant.createdAt = true := by
  unfold BotAppGrant.valid at h
  simp only [Bool.and_eq_true] at h
  exact h.1.1.1.1.2

theorem valid_revoked {t : ℚ} (h : grant.valid root = true)
    (ht : isStamp t = true) (hcreated : grant.createdAt ≤ t) :
    { grant with revokedAt := some t : BotAppGrant }.valid root = true := by
  unfold BotAppGrant.valid at h ⊢
  rw [Bool.and_eq_true] at h ⊢
  refine ⟨h.1, ?_⟩
  show (isStamp t && decide (grant.createdAt ≤ t)) = true
  rw [ht, decide_eq_true hcreated]
  rfl

theorem Stored.map (h : Stored root grants) {f : BotAppGrant → BotAppGrant}
    (hf : ∀ g ∈ grants, f g = g ∨ ∃ t, isStamp t = true ∧ g.createdAt ≤ t ∧
      f g = { g with revokedAt := some t }) : Stored root (grants.map f) := by
  refine { length := ?_, distinctIds := ?_, valid := ?_ }
  · rw [List.length_map]
    exact h.length
  · have hids : (grants.map f).map BotAppGrant.id = grants.map BotAppGrant.id := by
      rw [List.map_map]
      apply List.map_congr_left
      intro g hg
      rcases hf g hg with heq | ⟨t, -, -, heq⟩
      · exact congrArg BotAppGrant.id heq
      · show (f g).id = g.id
        rw [heq]
    rw [hids]
    exact h.distinctIds
  · intro g hg
    obtain ⟨g₀, hg₀, rfl⟩ := List.mem_map.1 hg
    rcases hf g₀ hg₀ with heq | ⟨t, ht, hcreated, heq⟩
    · rw [heq]
      exact h.valid g₀ hg₀
    · rw [heq]
      exact valid_revoked (h.valid g₀ hg₀) ht hcreated

/-! ## Approvals -/

theorem follows_revokeOlder (now : ℚ) (grant g : BotAppGrant) : Follows g (revokeOlder now grant g) := by
  unfold revokeOlder
  split
  · next h => exact .inr ⟨h.2.2, _, rfl⟩
  · exact .inl rfl

variable {registry : BotRegistry}

theorem approve_eq_some (h : approve root now registry grant grants = some grants') :
    grant.createdAt ≤ now ∧ now < grant.expiresAt ∧ isLive registry grant.botPubkey = true ∧
      grants' = grants.map (revokeOlder now grant) ++ [grant] ∧ Stored root grants' := by
  unfold approve at h
  split_ifs at h with htime hlive
  obtain ⟨stored, hparse, hrest⟩ := Option.bind_eq_some_iff.1 h
  split_ifs at hrest
  obtain ⟨rfl, -⟩ := stored_iff.1 hparse
  obtain ⟨rfl, hstored⟩ := stored_iff.1 hrest
  rw [not_or, not_lt, not_le] at htime
  exact ⟨htime.1, htime.2, Bool.not_eq_false _ ▸ hlive, rfl, hstored⟩

theorem grows_approve
    (h : approve root now registry grant grants = some grants') : Grows grants grants' := by
  obtain ⟨-, -, -, rfl, -⟩ := approve_eq_some h
  intro g hg
  exact ⟨_, List.mem_append_left _ (List.mem_map_of_mem hg), follows_revokeOlder now grant g⟩

theorem OneLive.approve (hone : OneLive grants)
    (h : approve root now registry grant grants = some grants') : OneLive grants' := by
  obtain ⟨-, -, -, rfl, hstored⟩ := approve_eq_some h
  -- A grant that the approval leaves live is an older one, to another app.
  have hold : ∀ g ∈ grants.map (revokeOlder now grant), g.revokedAt = none →
      g ∈ grants ∧ ¬ (g.botPubkey = grant.botPubkey ∧ g.clientPubkey = grant.clientPubkey) := by
    intro g hg hlive
    obtain ⟨g₀, hg₀, rfl⟩ := List.mem_map.1 hg
    unfold revokeOlder at hlive ⊢
    split at hlive
    · cases hlive
    · next hnot =>
      rw [if_neg hnot]
      exact ⟨hg₀, fun hsame => hnot ⟨hsame.1, hsame.2, hlive⟩⟩
  intro g hg g' hg' hlive hlive' hbot hclient
  rcases List.mem_append.1 hg with hg | hg
  · obtain ⟨hmem, hother⟩ := hold g hg hlive
    rcases List.mem_append.1 hg' with hg' | hg'
    · exact hone g hmem g' (hold g' hg' hlive').1 hlive hlive' hbot hclient
    · rw [List.mem_singleton.1 hg'] at hbot hclient
      exact absurd ⟨hbot, hclient⟩ hother
  · rw [List.mem_singleton.1 hg] at hbot hclient ⊢
    rcases List.mem_append.1 hg' with hg' | hg'
    · exact absurd ⟨hbot.symm, hclient.symm⟩ (hold g' hg' hlive').2
    · exact (List.mem_singleton.1 hg').symm

/-- **A valid approval succeeds**, while the store has room. -/
theorem approve_ok (h : Stored root grants)
    (hroom : grants.length < maxGrants) (hnow : isStamp now = true) (hvalid : grant.valid root = true)
    (hcreated : grant.createdAt ≤ now) (hexpires : now < grant.expiresAt)
    (hlive : isLive registry grant.botPubkey = true) (hnew : ∀ g ∈ grants, g.id ≠ grant.id) :
    approve root now registry grant grants = some (grants.map (revokeOlder now grant) ++ [grant]) := by
  have hrevoked : Stored root (grants.map (revokeOlder now grant)) := by
    apply h.map
    intro g hg
    unfold revokeOlder
    split
    · exact .inr ⟨_, isStamp_max hnow (stamps_of_valid (h.valid g hg)), le_max_right _ _, rfl⟩
    · exact .inl rfl
  have hstored : Stored root (grants.map (revokeOlder now grant) ++ [grant]) := by
    refine { length := ?_, distinctIds := ?_, valid := ?_ }
    · rw [List.length_append, List.length_map]
      exact hroom
    · rw [List.map_append, List.nodup_append]
      refine ⟨hrevoked.distinctIds, List.nodup_singleton _, ?_⟩
      intro id hid id' hid' heq
      obtain ⟨g, hg, rfl⟩ := List.mem_map.1 hid
      obtain ⟨g₀, hg₀, rfl⟩ := List.mem_map.1 hg
      rw [List.map_singleton, List.mem_singleton] at hid'
      apply hnew g₀ hg₀
      rw [← (follows_revokeOlder now grant g₀).id, heq, hid']
    · intro g hg
      rcases List.mem_append.1 hg with hg | hg
      · exact hrevoked.valid g hg
      · rw [List.mem_singleton.1 hg]
        exact hvalid
  have hany : grants.any (fun existing => existing.id = grant.id) ≠ true := by
    rw [Ne, List.any_eq_true]
    rintro ⟨g, hg, hid⟩
    exact hnew g hg (of_decide_eq_true hid)
  unfold approve
  rw [if_neg (not_or.2 ⟨not_lt.2 hcreated, not_le.2 hexpires⟩), if_neg (by rw [hlive]; exact Bool.true_eq_false_eq_False),
    stored_iff.2 ⟨rfl, h⟩, Option.bind_some, if_neg hany]
  exact stored_iff.2 ⟨rfl, hstored⟩

theorem approve_full (hfull : grants.length = maxGrants) :
    approve root now registry grant grants = none := by
  cases h : approve root now registry grant grants with
  | none => rfl
  | some grants' =>
    obtain ⟨-, -, -, rfl, hstored⟩ := approve_eq_some h
    have hlength := hstored.length
    rw [List.length_append, List.length_map, hfull] at hlength
    exact absurd hlength (Nat.not_succ_le_self _)

/-! ## Revocations -/

variable {grantId : JsString}

theorem revoke_eq_some (h : revoke root now grantId grants = some grants') :
    Stored root grants ∧ (grants' = grants ∨ ∃ grant ∈ grants, grant.id = grantId ∧
      grant.revokedAt = none ∧ grants' = grants.map fun g =>
        if g.id = grant.id then { g with revokedAt := some (max grant.createdAt now) } else g) := by
  unfold revoke at h
  obtain ⟨stored, hparse, hrest⟩ := Option.bind_eq_some_iff.1 h
  obtain ⟨rfl, hstored⟩ := stored_iff.1 hparse
  obtain ⟨grant, hfind, hchange⟩ := Option.map_eq_some_iff.1 hrest
  refine ⟨hstored, ?_⟩
  split_ifs at hchange with hrevoked
  · exact .inl hchange.symm
  · have hid := List.find?_some hfind
    refine .inr ⟨grant, List.mem_of_find?_eq_some hfind, of_decide_eq_true hid, ?_, hchange.symm⟩
    simpa using hrevoked

theorem Stored.revoke_at (h : Stored root grants) {t : ℚ} (hgrant : grant ∈ grants)
    (hlive : grant.revokedAt = none) (hg : g ∈ grants) :
    Follows g (if g.id = grant.id then { g with revokedAt := some t } else g) := by
  split
  · next hid =>
    obtain rfl := h.eq_of_id hg hgrant hid
    exact .inr ⟨hlive, t, rfl⟩
  · exact .inl rfl

theorem grows_revoke (h : revoke root now grantId grants = some grants') :
    Grows grants grants' := by
  obtain ⟨hstored, rfl | ⟨grant, hgrant, -, hlive, rfl⟩⟩ := revoke_eq_some h
  · exact Grows.refl _
  · intro g hg
    exact ⟨_, List.mem_map_of_mem hg, hstored.revoke_at hgrant hlive hg⟩

theorem Stored.revoke (hnow : isStamp now = true)
    (h : revoke root now grantId grants = some grants') : Stored root grants' := by
  obtain ⟨hstored, rfl | ⟨grant, hgrant, -, -, rfl⟩⟩ := revoke_eq_some h
  · exact hstored
  · apply hstored.map
    intro g hg
    split
    · next hid =>
      obtain rfl := hstored.eq_of_id hg hgrant hid
      exact .inr ⟨_, isStamp_max (stamps_of_valid (hstored.valid g hg)) hnow, le_max_left _ _, rfl⟩
    · exact .inl rfl

theorem OneLive.revoke (hone : OneLive grants)
    (h : revoke root now grantId grants = some grants') : OneLive grants' := by
  obtain ⟨-, rfl | ⟨grant, -, -, -, rfl⟩⟩ := revoke_eq_some h
  · exact hone
  · -- What is live afterwards was live before, and is the same.
    have hold : ∀ g ∈ grants.map (fun g => if g.id = grant.id then
        { g with revokedAt := some (max grant.createdAt now) } else g), g.revokedAt = none → g ∈ grants := by
      intro g hg hlive
      obtain ⟨g₀, hg₀, rfl⟩ := List.mem_map.1 hg
      split_ifs at hlive ⊢
      exact hg₀
    intro g hg g' hg' hlive hlive' hbot hclient
    exact hone g (hold g hg hlive) g' (hold g' hg' hlive') hlive hlive' hbot hclient

end SignetApp.Bots
