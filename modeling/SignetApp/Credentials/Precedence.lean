import Mathlib.Data.Prod.Lex
import Mathlib.Order.WithBot
import SignetApp.Collections.Exchange
import SignetApp.Collections.Keyed
import SignetApp.Js.Guards
import SignetApp.Js.SafeUrl

/-!
# Credentials between devices

`credentials-sync.ts`: what a device publishes of its credentials, how another one reads it, and how
the two lists are merged.
-/

namespace SignetApp.Credentials

open SignetApp.Js

/-! ## The record -/

inductive KeypairType where
  | naturalPerson | persona | professional
  deriving DecidableEq

inductive VerifierStatus where
  | confirmed | pending | expiredPending
  deriving DecidableEq

instance : StringUnion KeypairType where
  members := [.naturalPerson, .persona, .professional]
  name
    | .naturalPerson => "natural-person" | .persona => "persona" | .professional => "professional"

instance : StringUnion VerifierStatus where
  members := [.confirmed, .pending, .expiredPending]
  name
    | .confirmed => "confirmed" | .pending => "pending" | .expiredPending => "expired-pending"

instance : LawfulStringUnion KeypairType := ⟨by intro a; cases a <;> decide⟩
instance : LawfulStringUnion VerifierStatus := ⟨by intro a; cases a <;> decide⟩

structure StoredCredential where
  id : Hex 64
  documentId : JsString
  keypairType : KeypairType
  event : JsString
  merkleLeaves : Option (List (String × JsString))
  merkleProofs : Option JsString
  verifierPubkey : JsString
  verifiedAt : ℚ
  verifierStatus : VerifierStatus
  pendingIssuedAt : Option ℚ
  confirmationAt : Option ℚ
  expiresAt : Option ℚ
  revokedAt : Option ℚ
  deriving DecidableEq

/-! ## Publishing -/

def schemaV : ℕ := 1

def numToJs (q : ℚ) : JsValue := .num (.finite q)

/-- A property that is there when its value is. -/
def optionalProp {α : Type} (name : String) (toJs : α → JsValue) (v : Option α) : JsObject :=
  v.toList.map fun a => (name, toJs a)

def leavesToJs (leaves : List (String × JsString)) : JsValue :=
  .obj (leaves.map fun leaf => (leaf.1, .str leaf.2))

def StoredCredential.toJs (c : StoredCredential) : JsValue :=
  .obj ([("id", c.id.toJs), ("documentId", .str c.documentId),
      ("keypairType", StringUnion.toJs c.keypairType), ("event", .str c.event),
      ("verifierPubkey", .str c.verifierPubkey), ("verifiedAt", numToJs c.verifiedAt),
      ("verifierStatus", StringUnion.toJs c.verifierStatus)]
    ++ optionalProp "merkleLeaves" leavesToJs c.merkleLeaves
    ++ optionalProp "merkleProofs" .str c.merkleProofs
    ++ optionalProp "pendingIssuedAt" numToJs c.pendingIssuedAt
    ++ optionalProp "confirmationAt" numToJs c.confirmationAt
    ++ optionalProp "expiresAt" numToJs c.expiresAt
    ++ optionalProp "revokedAt" numToJs c.revokedAt)

/-- `SyncedCredentialsPayload`. -/
def payload (credentials : List StoredCredential) : JsValue :=
  .obj [("v", .ofNat schemaV), ("credentials", .arr (credentials.map StoredCredential.toJs))]

/-! ## Reading -/

def maxSyncCredentials : ℕ := 500
def maxEventLen : ℕ := 16384
def maxRoutingFieldLen : ℕ := 1024
def maxLeaves : ℕ := 256
def maxLeafValueLen : ℕ := 1024

/-- `/^[0-9a-f]{64}$/i.test(v)`, lower-cased. -/
def hexAnyCase : JsValue → Option (Hex 64)
  | .str s => if h : isHexOf 64 (toLowerCase s) = true then some ⟨toLowerCase s, h⟩ else none
  | _ => none

/-- A string of at most `cap` code units. -/
def textUpTo (cap : ℕ) : JsValue → Option JsString
  | .str s => if s.length ≤ cap then some s else none
  | _ => none

/-- `Object.entries(v)`. -/
def entries : JsValue → List (String × JsValue)
  | .obj props => (JsValue.obj props).keys.map fun k => (k, (JsValue.obj props).get k)
  | .arr elems => elems.zipIdx.map fun e => (toString e.2, e.1)
  | _ => []

/-- One pass of the loop over the leaves. A leaf named `__proto__` is no property of its own. -/
def addLeaf (leaves : List (String × JsString)) (entry : String × JsValue) :
    List (String × JsString) :=
  if leaves.length ≥ maxLeaves ∨ (lit entry.1).length > maxRoutingFieldLen ∨ entry.1 = "__proto__" then
    leaves
  else match textUpTo maxLeafValueLen entry.2 with
    | some v => leaves ++ [(entry.1, v)]
    | none => leaves

def parseLeaves (v : JsValue) : Option (List (String × JsString)) :=
  let leaves := (entries v).foldl addLeaf []
  if leaves = [] then none else some leaves

/-- One credential of a payload; `none` where the loop goes on to the next. -/
def parseItem (c : JsValue) : Option StoredCredential := do
  let id ← hexAnyCase (c.get "id")
  let documentId ← textUpTo maxRoutingFieldLen (c.get "documentId")
  let keypairType ← StringUnion.parse (c.get "keypairType")
  let event ← textUpTo maxEventLen (c.get "event")
  let verifierPubkey ← hexAnyCase (c.get "verifierPubkey")
  let verifiedAt ← isFinite (c.get "verifiedAt")
  let verifierStatus ← StringUnion.parse (c.get "verifierStatus")
  pure {
    id, documentId, keypairType, event
    merkleLeaves := parseLeaves (c.get "merkleLeaves")
    merkleProofs := textUpTo maxEventLen (c.get "merkleProofs")
    verifierPubkey := verifierPubkey.val
    verifiedAt, verifierStatus
    pendingIssuedAt := isFinite (c.get "pendingIssuedAt")
    confirmationAt := isFinite (c.get "confirmationAt")
    expiresAt := isFinite (c.get "expiresAt")
    revokedAt := isFinite (c.get "revokedAt") }

/-- From the value the text of a payload stands for. -/
def parsePayload (p : JsValue) : Option (List StoredCredential) := do
  let v ← isFinite (p.get "v")
  guard (v ≤ schemaV)
  match p.get "credentials" with
  | .arr credentials =>
    if credentials.length > maxSyncCredentials then none else pure (credentials.filterMap parseItem)
  | _ => none

/-! ## Merging -/

def statusRank : VerifierStatus → ℕ
  | .pending => 0
  | .expiredPending => 0
  | .confirmed => 1

/-- Should `candidate` replace `existing`? -/
def isNewer (candidate existing : StoredCredential) : Bool :=
  if candidate.verifiedAt ≠ existing.verifiedAt then decide (candidate.verifiedAt > existing.verifiedAt)
  else match candidate.revokedAt, existing.revokedAt with
    | some c, some e => decide (c > e)
    | some _, none => true
    | none, some _ => false
    | none, none =>
      if statusRank candidate.verifierStatus ≠ statusRank existing.verifierStatus then
        decide (statusRank candidate.verifierStatus > statusRank existing.verifierStatus)
      else if candidate.confirmationAt.isSome || existing.confirmationAt.isSome then
        decide (candidate.confirmationAt.getD 0 > existing.confirmationAt.getD 0)
      else false

/-- One pass of the loop over the remote credentials. -/
def mergeStep (acc : OrderedMap (Hex 64) StoredCredential × List StoredCredential)
    (r : StoredCredential) : OrderedMap (Hex 64) StoredCredential × List StoredCredential :=
  match acc.1.get r.id with
  | none => (acc.1.set r.id r, acc.2 ++ [r])
  | some l => if isNewer r l then (acc.1.set r.id r, acc.2 ++ [r]) else acc

structure Merged where
  merged : List StoredCredential
  toSave : List StoredCredential

def mergeCredentialLists (locals remotes : List StoredCredential) : Merged :=
  let (byId, toSave) := remotes.foldl mergeStep (byKey StoredCredential.id locals, [])
  { merged := byId.values, toSave }

/-! ## Devices -/

/-- What a device reads of another one's published list. -/
def received (remotes : List StoredCredential) : List StoredCredential :=
  (parsePayload (payload remotes)).getD []

/-- The list of a device after it merged another one's. -/
def mergeReceived (locals remotes : List StoredCredential) : List StoredCredential :=
  (mergeCredentialLists locals (received remotes)).merged

/-!
## The precedence of credentials

A version of a credential is ranked by the time of its verification, then by its revocation, then by
its status and confirmation. A merge takes the rank of every id to the highest of the two lists; the
rest of a record comes along with its rank, and does not take part.
-/

/-! ## Ranks -/

abbrev Rank := ℚ ×ₗ ℕ ×ₗ ℚ ×ₗ ℚ

def rank (c : StoredCredential) : Rank :=
  match c.revokedAt with
  | some t => toLex (c.verifiedAt, toLex (1, toLex (t, 0)))
  | none => toLex (c.verifiedAt, toLex (0, toLex ((statusRank c.verifierStatus : ℚ),
      c.confirmationAt.getD 0)))

theorem rank_of_revoked {c : StoredCredential} {t : ℚ} (h : c.revokedAt = some t) :
    rank c = toLex (c.verifiedAt, toLex (1, toLex (t, 0))) := by
  unfold rank
  rw [h]

theorem rank_of_live {c : StoredCredential} (h : c.revokedAt = none) :
    rank c = toLex (c.verifiedAt, toLex (0, toLex ((statusRank c.verifierStatus : ℚ),
      c.confirmationAt.getD 0))) := by
  unfold rank
  rw [h]

theorem isNewer_iff (c e : StoredCredential) : isNewer c e = true ↔ rank e < rank c := by
  unfold isNewer
  by_cases hverified : c.verifiedAt = e.verifiedAt
  · rw [if_neg (not_not.2 hverified)]
    cases hc : c.revokedAt with
    | some s =>
      rw [rank_of_revoked hc]
      cases he : e.revokedAt with
      | some t =>
        rw [rank_of_revoked he]
        simp [Prod.Lex.toLex_lt_toLex, hverified]
      | none =>
        rw [rank_of_live he]
        simp [Prod.Lex.toLex_lt_toLex, hverified]
    | none =>
      rw [rank_of_live hc]
      cases he : e.revokedAt with
      | some t =>
        rw [rank_of_revoked he]
        simp [Prod.Lex.toLex_lt_toLex, hverified]
      | none =>
        rw [rank_of_live he]
        dsimp only
        by_cases hstatus : statusRank c.verifierStatus = statusRank e.verifierStatus
        · rw [if_neg (not_not.2 hstatus)]
          cases hcc : c.confirmationAt with
          | none =>
            cases hec : e.confirmationAt with
            | none => simp [hverified, hstatus]
            | some t => simp [Prod.Lex.toLex_lt_toLex, hverified, hstatus]
          | some s => simp [Prod.Lex.toLex_lt_toLex, hverified, hstatus]
        · rw [if_pos hstatus]
          simp [Prod.Lex.toLex_lt_toLex, hverified, Ne.symm hstatus]
  · rw [if_pos hverified]
    have hfst : ∀ d : StoredCredential, (ofLex (rank d)).1 = d.verifiedAt := by
      intro d
      unfold rank
      split
      · rfl
      · rfl
    rw [Prod.Lex.lt_iff, hfst, hfst]
    simp [Ne.symm hverified]

/-- What the rank of a record says of it. -/
structure SameStanding (c d : StoredCredential) : Prop where
  verifiedAt : c.verifiedAt = d.verifiedAt
  revokedAt : c.revokedAt = d.revokedAt
  status : c.revokedAt = none → statusRank c.verifierStatus = statusRank d.verifierStatus
  confirmationAt : c.revokedAt = none → c.confirmationAt.getD 0 = d.confirmationAt.getD 0

theorem sameStanding_of_rank {c d : StoredCredential} (h : rank c = rank d) : SameStanding c d := by
  cases hc : c.revokedAt with
  | some s =>
    rw [rank_of_revoked hc] at h
    cases hd : d.revokedAt with
    | some t =>
      rw [rank_of_revoked hd] at h
      obtain ⟨hv, ht⟩ : c.verifiedAt = d.verifiedAt ∧ s = t := by simpa using h
      exact ⟨hv, by rw [hc, hd, ht], by simp [hc], by simp [hc]⟩
    | none =>
      rw [rank_of_live hd] at h
      simp at h
  | none =>
    rw [rank_of_live hc] at h
    cases hd : d.revokedAt with
    | some t =>
      rw [rank_of_revoked hd] at h
      simp at h
    | none =>
      rw [rank_of_live hd] at h
      obtain ⟨hv, hs, hconf⟩ : c.verifiedAt = d.verifiedAt ∧
          statusRank c.verifierStatus = statusRank d.verifierStatus ∧
          c.confirmationAt.getD 0 = d.confirmationAt.getD 0 := by simpa using h
      exact ⟨hv, by rw [hc, hd], fun _ => hs, fun _ => hconf⟩

theorem revoked_of_rank_le {c d : StoredCredential} (h : rank d ≤ rank c)
    (hd : d.revokedAt.isSome = true) : c.revokedAt.isSome = true ∨ d.verifiedAt < c.verifiedAt := by
  obtain ⟨t, ht⟩ := Option.isSome_iff_exists.1 hd
  cases hc : c.revokedAt with
  | some s => exact .inl rfl
  | none =>
    rw [rank_of_revoked ht, rank_of_live hc] at h
    right
    simpa [Prod.Lex.toLex_le_toLex] using h

theorem confirmed_of_rank_le {c d : StoredCredential} (h : rank d ≤ rank c)
    (hd : d.verifierStatus = .confirmed) : c.verifierStatus = .confirmed ∨ c.revokedAt.isSome = true ∨
      d.verifiedAt < c.verifiedAt := by
  cases hc : c.revokedAt with
  | some s => exact .inr (.inl rfl)
  | none =>
    cases hdr : d.revokedAt with
    | some t =>
      obtain hrevoked | hlt := revoked_of_rank_le h (by rw [hdr]; rfl)
      · rw [hc] at hrevoked
        cases hrevoked
      · exact .inr (.inr hlt)
    | none =>
      rw [rank_of_live hc, rank_of_live hdr, hd] at h
      cases hstatus : c.verifierStatus with
      | confirmed => exact .inl rfl
      | pending =>
        rw [hstatus] at h
        right; right
        simpa [Prod.Lex.toLex_le_toLex, statusRank, (zero_lt_one' ℚ).not_gt, (zero_lt_one' ℚ).not_ge] using h
      | expiredPending =>
        rw [hstatus] at h
        right; right
        simpa [Prod.Lex.toLex_le_toLex, statusRank, (zero_lt_one' ℚ).not_gt, (zero_lt_one' ℚ).not_ge] using h

/-! ## The highest rank of an id -/

/-- The highest rank of the records of an id. -/
def topRank (id : Hex 64) : List StoredCredential → WithBot Rank
  | [] => ⊥
  | c :: cs => (if c.id = id then (rank c : WithBot Rank) else ⊥) ⊔ topRank id cs

variable {id : Hex 64} {cs ds : List StoredCredential} {c d : StoredCredential}

theorem le_topRank (hc : c ∈ cs) : (rank c : WithBot Rank) ≤ topRank c.id cs := by
  induction cs with
  | nil => cases hc
  | cons d cs ih =>
    show _ ≤ _ ⊔ topRank c.id cs
    obtain rfl | hc := List.mem_cons.1 hc
    · rw [if_pos rfl]
      exact le_sup_left
    · exact (ih hc).trans le_sup_right

theorem topRank_le {b : WithBot Rank} (h : ∀ c ∈ cs, c.id = id → (rank c : WithBot Rank) ≤ b) :
    topRank id cs ≤ b := by
  induction cs with
  | nil => exact bot_le
  | cons c cs ih =>
    apply sup_le
    · split
      · next hid => exact h c List.mem_cons_self hid
      · exact bot_le
    · exact ih fun d hd => h d (List.mem_cons_of_mem _ hd)

theorem topRank_append : topRank id (cs ++ ds) = topRank id cs ⊔ topRank id ds := by
  induction cs with
  | nil => exact (bot_sup_eq _).symm
  | cons c cs ih =>
    show _ ⊔ topRank id (cs ++ ds) = (_ ⊔ topRank id cs) ⊔ _
    rw [ih, sup_assoc]

theorem topRank_congr (h : ∀ c, c ∈ cs ↔ c ∈ ds) : topRank id cs = topRank id ds := by
  apply le_antisymm
  · apply topRank_le
    rintro c hc rfl
    exact le_topRank ((h c).1 hc)
  · apply topRank_le
    rintro c hc rfl
    exact le_topRank ((h c).2 hc)

theorem topRank_oneEach (h : OneEach StoredCredential.id cs) :
    topRank id cs = (valueFor StoredCredential.id cs id).elim ⊥ fun c => (rank c : WithBot Rank) := by
  apply le_antisymm
  · apply topRank_le
    rintro c hc rfl
    rw [valueFor_self h hc]
    exact le_rfl
  · cases hv : valueFor StoredCredential.id cs id with
    | none => exact bot_le
    | some c =>
      obtain ⟨hc, rfl⟩ := (valueFor_eq_some_iff h).1 hv
      exact le_topRank hc

/-! ## One merge -/

/-- The rank that a map holds for an id. -/
def mapRank (m : OrderedMap (Hex 64) StoredCredential) (id : Hex 64) : WithBot Rank :=
  (m.get id).elim ⊥ fun c => (rank c : WithBot Rank)

theorem topRank_values {m : OrderedMap (Hex 64) StoredCredential} (h : Keyed StoredCredential.id m) :
    topRank id m.values = mapRank m id := by
  rw [topRank_oneEach (oneEach_values h), valueFor_values h]
  rfl

theorem mapRank_byKey (h : OneEach StoredCredential.id cs) :
    mapRank (byKey StoredCredential.id cs) id = topRank id cs := by
  rw [topRank_oneEach h, mapRank, get_byKey h]

variable {acc : OrderedMap (Hex 64) StoredCredential × List StoredCredential} {r : StoredCredential}

theorem mergeStep_cases : (mapRank acc.1 r.id < rank r ∧
      mergeStep acc r = (acc.1.set r.id r, acc.2 ++ [r])) ∨
    (rank r : WithBot Rank) ≤ mapRank acc.1 r.id ∧ mergeStep acc r = acc := by
  unfold mergeStep mapRank
  cases hget : acc.1.get r.id with
  | none => exact .inl ⟨WithBot.bot_lt_coe _, rfl⟩
  | some l =>
    dsimp only [Option.elim]
    split
    · next hnewer => exact .inl ⟨WithBot.coe_lt_coe.2 ((isNewer_iff _ _).1 hnewer), rfl⟩
    · next hnot =>
      right
      refine ⟨WithBot.coe_le_coe.2 ?_, rfl⟩
      exact not_lt.1 fun hlt => hnot ((isNewer_iff _ _).2 hlt)

theorem mapRank_set : mapRank (acc.1.set r.id r) id = if r.id = id then (rank r : WithBot Rank)
    else mapRank acc.1 id := by
  unfold mapRank
  rw [OrderedMap.get_set]
  by_cases h : r.id = id
  · rw [if_pos h, if_pos h.symm]
    rfl
  · rw [if_neg h, if_neg (Ne.symm h)]

theorem mapRank_mergeStep : mapRank (mergeStep acc r).1 id =
    mapRank acc.1 id ⊔ if r.id = id then (rank r : WithBot Rank) else ⊥ := by
  obtain ⟨hlt, heq⟩ | ⟨hle, heq⟩ := @mergeStep_cases acc r
  · rw [heq, mapRank_set]
    split
    · next hid => rw [← hid, sup_eq_right.2 hlt.le]
    · rw [sup_bot_eq]
  · rw [heq]
    split
    · next hid => rw [← hid, sup_eq_left.2 hle]
    · rw [sup_bot_eq]

theorem keyed_mergeStep (h : Keyed StoredCredential.id acc.1) :
    Keyed StoredCredential.id (mergeStep acc r).1 := by
  obtain ⟨-, heq⟩ | ⟨-, heq⟩ := @mergeStep_cases acc r
  · rw [heq]
    exact h.set rfl
  · rw [heq]
    exact h

theorem keyed_foldl (h : Keyed StoredCredential.id acc.1) :
    Keyed StoredCredential.id (cs.foldl mergeStep acc).1 := by
  induction cs generalizing acc with
  | nil => exact h
  | cons c cs ih => exact ih (keyed_mergeStep h)

theorem mapRank_foldl : mapRank (cs.foldl mergeStep acc).1 id = mapRank acc.1 id ⊔ topRank id cs := by
  induction cs generalizing acc with
  | nil => exact (sup_bot_eq _).symm
  | cons c cs ih =>
    rw [List.foldl_cons, ih, mapRank_mergeStep, sup_assoc]
    rfl

theorem get_foldl : (cs.foldl mergeStep acc).1.get id = acc.1.get id ∨
    ∃ r ∈ cs, r.id = id ∧ (cs.foldl mergeStep acc).1.get id = some r ∧ mapRank acc.1 id < rank r := by
  induction cs generalizing acc with
  | nil => exact .inl rfl
  | cons c cs ih =>
    rw [List.foldl_cons]
    have hle : mapRank acc.1 id ≤ mapRank (mergeStep acc c).1 id := by
      rw [mapRank_mergeStep]
      exact le_sup_left
    obtain hsame | ⟨r, hr, hid, hget, hlt⟩ := @ih (mergeStep acc c)
    · obtain ⟨hlt, heq⟩ | ⟨-, heq⟩ := @mergeStep_cases acc c
      · by_cases hid : c.id = id
        · right
          refine ⟨c, List.mem_cons_self, hid, ?_, hid ▸ hlt⟩
          rw [hsame, heq, OrderedMap.get_set, if_pos hid.symm]
        · left
          rw [hsame, heq, OrderedMap.get_set, if_neg (Ne.symm hid)]
      · left
        rw [hsame, heq]
    · exact .inr ⟨r, List.mem_cons_of_mem _ hr, hid, hget, hle.trans_lt hlt⟩

theorem foldl_of_le (h : ∀ r ∈ cs, (rank r : WithBot Rank) ≤ mapRank acc.1 r.id) :
    cs.foldl mergeStep acc = acc := by
  induction cs with
  | nil => rfl
  | cons c cs ih =>
    have hc := h c List.mem_cons_self
    obtain ⟨hlt, -⟩ | ⟨-, heq⟩ := @mergeStep_cases acc c
    · exact absurd hc hlt.not_ge
    · rw [List.foldl_cons, heq]
      exact ih fun r hr => h r (List.mem_cons_of_mem _ hr)

end SignetApp.Credentials
