import SignetApp.Collections.OrderedMap
import SignetApp.Js.SafeUrl

/-!
# The professional trust chain

`verify-chain.ts`: a credential is backed by a registry record, the firm's `signet.json`, and a
roster that names the credential's author. Signatures are checked by the protocol package and URLs
are parsed by the platform; what the caches, the registry and the relays give is taken as it comes.
-/

namespace SignetApp.Professional

open Js

/-- An event as it is handed in. Nothing about it has been checked. -/
structure ProEvent where
  id : JsString
  pubkey : JsString
  createdAt : ℤ
  kind : ℤ
  tags : List (List JsString)
  content : JsString
  sig : JsString
  deriving DecidableEq

/-- `tags?.find(t => t[0] === name)?.[1]`. -/
def ProEvent.tagValue (e : ProEvent) (name : String) : Option JsString :=
  (e.tags.find? fun t => t.head? = some (lit name)).bind fun t => t[1]?

/-- `tags?.some(t => t[0] === name && t[1] === value)`. -/
def ProEvent.hasTag (e : ProEvent) (name : String) (value : JsString) : Bool :=
  e.tags.any fun t => t.head? = some (lit name) && t[1]? = some value

/-- The fields of a registry record that the verifier reads. -/
structure RegulatedEntityRecord where
  registry : JsString
  identifier : JsString
  name : JsString
  status : JsString
  website : Option JsString

/-- The fields of a `signet.json` that the verifier reads. -/
structure ProSignetJson where
  identifier : JsString
  /-- Absent in a file cached before leads were normalised. -/
  leadPubkeys : Option (List JsString)
  leadPubkey : JsString
  entities : Option (List JsString)
  fetchedFromHost : Option JsString

/-- `leadPubkeys ?? [leadPubkey]`. -/
def ProSignetJson.leads (json : ProSignetJson) : List JsString :=
  json.leadPubkeys.getD [json.leadPubkey]

inductive FailReason where
  | registryNotFound
  | statusInactive
  | domainMismatch
  | signetJsonMismatch
  | signerNotInRoster
  | signatureInvalid
  | chainError
  | revoked
  deriving DecidableEq

inductive VerifyChainResult where
  | ok (firmName : JsString) (role : Option JsString) (profession jurisdiction : JsString)
  | fail (reason : FailReason) (detail : Option String)
  deriving DecidableEq

/-- What the verifier takes from outside: signatures, URLs, and the answers of the registry, of the
firm's website and of the relays, cached or not. -/
class ProSources where
  verifyEvent : ProEvent → Bool
  /-- `new URL(s).host`, `none` when the constructor raises. -/
  urlHost : JsString → Option JsString
  registryRecord : JsString → JsString → JsString → Option RegulatedEntityRecord
  signetJson : JsString → Option ProSignetJson
  /-- The answer to a filter for revocations by these authors under this d-tag, `none` when the
  relays cannot be reached. The authors are a hint. -/
  fetchEvents : List JsString → JsString → Option (List ProEvent)

export ProSources (verifyEvent urlHost registryRecord signetJson fetchEvents)

/-! ## The authority union -/

/-- The delegates named in these tags, each once. -/
def delegatesOf (tags : List (List JsString)) : List JsString :=
  distinct (tags.filterMap fun t =>
    if t.head? = some (lit "delegate") then t[1]?.filter (· ≠ []) else none)

/-- `getCurrentAuthorityUnion`: the leads, and the delegates that the rosters name. -/
def getCurrentAuthorityUnion (leadPubkeys : List JsString) (latestRosters : List ProEvent) :
    List JsString :=
  distinct (leadPubkeys ++ delegatesOf (latestRosters.flatMap (·.tags)))

section
variable [ProSources]

/-! ## Steps -/

/-- `raw.replace(/^www\./, '')`. -/
def withoutWww (s : JsString) : JsString :=
  if (lit "www.").isPrefixOf s then s.drop 4 else s

def normaliseHost (raw : JsString) : JsString :=
  match urlHost (if (lit "http").isPrefixOf raw then raw else lit "https://" ++ raw) with
  | some host => toLowerCase (withoutWww host)
  | none => toLowerCase (withoutWww raw)

/-- Sub-domains are refused; a path of the registry's own URL may go on. -/
def hostsMatch (registryWebsite fetchedFromHost : JsString) : Bool :=
  let a := normaliseHost registryWebsite
  let b := normaliseHost fetchedFromHost
  a = b || a.contains (unit '/') && a.isPrefixOf b

def proDTag (registry identifier : JsString) : JsString := registry ++ lit ":" ++ identifier

/-- What one fetched event says about a member of the firm: `some` detail when it revokes. -/
def revocationIn (dTag : JsString) (leadPubkeys : List JsString) (memberPubkey : JsString)
    (ev : ProEvent) : Option String :=
  if !leadPubkeys.contains ev.pubkey then none
  else if !verifyEvent ev then none
  else if ev.tagValue "d" ≠ some dTag then none
  else match ev.tagValue "p" with
    | none => some "professional role revoked"
    | some revoked => if revoked = memberPubkey then some "sub-role member revoked" else none

/-- The events a revocation check looks at, `none` when the relays cannot be reached. -/
def fetchedRevocations (dTag : JsString) (leadPubkeys : List JsString) : Option (List ProEvent) :=
  if leadPubkeys = [] then some [] else fetchEvents leadPubkeys dTag

/-- Steps (a) to (c): the registry record and the `signet.json` of the firm. -/
def firmOf (credential : ProEvent) (professionKind jurisdiction : JsString) :
    Except (FailReason × Option String) (RegulatedEntityRecord × ProSignetJson) :=
  match (credential.tagValue "identifier").filter (· ≠ []) with
  | none => .error (.chainError, some "no identifier tag on credential")
  | some identifier =>
    match registryRecord identifier professionKind jurisdiction with
    | none => .error (.registryNotFound, none)
    | some record =>
      if record.status ≠ lit "Active" then .error (.statusInactive, none)
      else match record.website.filter (· ≠ []) with
        | none => .error (.chainError, some "registry record has no website")
        | some website =>
          match signetJson website with
          | none => .error (.chainError, some "signet.json not reachable")
          | some json =>
            if !hostsMatch website (json.fetchedFromHost.getD website) then
              .error (.domainMismatch, none)
            else
              let matched := match json.entities.filter (· ≠ []) with
                | some entities => entities.contains identifier
                | none => json.identifier = identifier
              if matched then .ok (record, json) else .error (.signetJsonMismatch, none)

def verifyProChain (credential rosterEvent : ProEvent) (professionKind jurisdiction : JsString) :
    VerifyChainResult :=
  match firmOf credential professionKind jurisdiction with
  | .error (reason, detail) => .fail reason detail
  | .ok (record, json) =>
    -- the union is computed from the roster whose authority it decides
    if !(getCurrentAuthorityUnion json.leads [rosterEvent]).contains rosterEvent.pubkey then
      .fail .signetJsonMismatch
        (some "roster not signed by any pubkey in the authority union (leads ∪ delegates)")
    else
      let dTag := proDTag record.registry record.identifier
      match fetchedRevocations dTag json.leads with
      | none => .fail .chainError (some "revocation check unreachable")
      | some events =>
        match events.findSome? (revocationIn dTag json.leads credential.pubkey) with
        | some detail => .fail .revoked (some detail)
        | none =>
          if !rosterEvent.hasTag "p" credential.pubkey then .fail .signerNotInRoster none
          else if !verifyEvent credential then .fail .signatureInvalid none
          else
            let role := (rosterEvent.tags.find? fun t =>
              t.head? = some (lit "p") && t[1]? = some credential.pubkey).bind fun t => t[2]?
            .ok record.name role professionKind jurisdiction

/-! ## What the chain promises -/

/-- A roster speaks for the firm: it is signed by its author, who is a lead or whom a roster signed
by a lead names as a delegate. -/
structure Authorised (leads : List JsString) (roster : ProEvent) : Prop where
  signed : verifyEvent roster = true
  author : roster.pubkey ∈ leads ∨ ∃ r, verifyEvent r = true ∧ r.pubkey ∈ leads
    ∧ r.hasTag "delegate" roster.pubkey = true

/-- A lead's signed revocation under the firm's d-tag: of the firm, or of a member it names. -/
structure Revokes (dTag : JsString) (leads : List JsString) (member : JsString) (ev : ProEvent) :
    Prop where
  lead : ev.pubkey ∈ leads
  signed : verifyEvent ev = true
  firm : ev.tagValue "d" = some dTag
  names : ev.tagValue "p" = none ∨ ev.hasTag "p" member = true

/-- A credential that is accepted is backed by a lead. -/
def BackedByLead (credential roster : ProEvent) (professionKind jurisdiction : JsString) : Prop :=
  ∀ firmName role profession jurisdiction',
    verifyProChain credential roster professionKind jurisdiction
        = .ok firmName role profession jurisdiction' →
      ∃ record json events, firmOf credential professionKind jurisdiction = .ok (record, json)
        ∧ fetchedRevocations (proDTag record.registry record.identifier) json.leads = some events
        ∧ Authorised json.leads roster ∧ roster.hasTag "p" credential.pubkey = true
        ∧ verifyEvent credential = true
        ∧ ∀ ev ∈ events, ¬ Revokes (proDTag record.registry record.identifier) json.leads
          credential.pubkey ev

/-- What the verifier checks of a roster and a credential, once the firm is known. -/
structure Checked (record : RegulatedEntityRecord) (json : ProSignetJson) (events : List ProEvent)
    (credential roster : ProEvent) : Prop where
  /-- The author is a lead, or names itself as a delegate. -/
  author : roster.pubkey ∈ json.leads ∨ roster.pubkey ∈ delegatesOf roster.tags
  listed : roster.hasTag "p" credential.pubkey = true
  signed : verifyEvent credential = true
  /-- No revocation names the member in its first `p` tag, or nobody. -/
  standing : ∀ ev ∈ events, revocationIn (proDTag record.registry record.identifier) json.leads
    credential.pubkey ev = none

omit [ProSources] in
theorem mem_authorityUnion {leads : List JsString} {roster : ProEvent} {p : JsString} :
    p ∈ getCurrentAuthorityUnion leads [roster] ↔ p ∈ leads ∨ p ∈ delegatesOf roster.tags := by
  rw [getCurrentAuthorityUnion, mem_distinct, List.mem_append, List.flatMap_singleton]

/-- An event that a revocation check passes over. -/
theorem revocationIn_eq_none_iff {dTag member : JsString} {leads : List JsString} {ev : ProEvent} :
    revocationIn dTag leads member ev = none ↔ (ev.pubkey ∈ leads → verifyEvent ev = true →
      ev.tagValue "d" = some dTag → ∃ revoked, ev.tagValue "p" = some revoked
        ∧ revoked ≠ member) := by
  unfold revocationIn
  split
  · next hlead =>
    have hlead : ev.pubkey ∉ leads := by simpa using hlead
    exact ⟨fun _ h => absurd h hlead, fun _ => rfl⟩
  · next hlead =>
    have hlead : ev.pubkey ∈ leads := by simpa using hlead
    split
    · next hsigned => simp_all
    · next hsigned =>
      split
      · next hd => simp_all
      · next hd =>
        have hsigned : verifyEvent ev = true := by simpa using hsigned
        have hd : ev.tagValue "d" = some dTag := of_not_not hd
        split
        · next hp =>
          constructor
          · intro h
            cases h
          · intro h
            obtain ⟨revoked, hrevoked, -⟩ := h hlead hsigned hd
            cases hp.symm.trans hrevoked
        · next revoked hp =>
          constructor
          · intro h _ _ _
            refine ⟨revoked, hp, ?_⟩
            rintro rfl
            rw [if_pos rfl] at h
            cases h
          · intro h
            obtain ⟨revoked', hrevoked, hne⟩ := h hlead hsigned hd
            obtain rfl := Option.some.inj (hp.symm.trans hrevoked)
            exact if_neg hne

/-- The verifier accepts what passes its checks, and nothing else. -/
theorem verifyProChain_ok_iff {credential roster : ProEvent}
    {professionKind jurisdiction : JsString} :
    (∃ firmName role profession jurisdiction', verifyProChain credential roster professionKind
        jurisdiction = .ok firmName role profession jurisdiction')
      ↔ ∃ record json events, firmOf credential professionKind jurisdiction = .ok (record, json)
        ∧ fetchedRevocations (proDTag record.registry record.identifier) json.leads = some events
        ∧ Checked record json events credential roster := by
  constructor
  · rintro ⟨firmName, role, profession, jurisdiction', h⟩
    unfold verifyProChain at h
    split at h
    · cases h
    · next record json hfirm =>
      split at h
      · cases h
      · next hunion =>
        dsimp only at h
        split at h
        · cases h
        · next events hevents =>
          split at h
          · cases h
          · next hnone =>
            split at h
            · cases h
            · next hlisted =>
              split at h
              · cases h
              · next hsigned =>
                refine ⟨record, json, events, hfirm, hevents, ?_, ?_, ?_, ?_⟩
                · exact mem_authorityUnion.1 (by simpa using hunion)
                · simpa using hlisted
                · simpa using hsigned
                · exact List.findSome?_eq_none_iff.1 hnone
  · rintro ⟨record, json, events, hfirm, hevents, h⟩
    have hunion : (getCurrentAuthorityUnion json.leads [roster]).contains roster.pubkey = true := by
      simpa using mem_authorityUnion.2 h.author
    have hnone : events.findSome? (revocationIn (proDTag record.registry record.identifier)
        json.leads credential.pubkey) = none := List.findSome?_eq_none_iff.2 h.standing
    unfold verifyProChain
    simp only [hfirm, hunion, hevents, hnone, h.listed, h.signed, Bool.not_true,
      Bool.false_eq_true, if_false]
    exact ⟨_, _, _, _, rfl⟩

end

/-! ## A roster of its own making -/

/-- A stranger's credential. -/
def strangerCredential : ProEvent :=
  ⟨lit "c", lit "mallory", 0, 29999, [[lit "identifier", lit "RXL"]], [], lit "mallory's"⟩

/-- A roster that the stranger signs, naming itself as a delegate and as a member. -/
def strangerRoster : ProEvent :=
  ⟨lit "r", lit "mallory", 0, 30202,
    [[lit "delegate", lit "mallory"], [lit "p", lit "mallory", lit "gp"]], [], lit "mallory's"⟩

/-- A firm with one lead, whose website and registry agree. The stranger has signed two events, and
the lead none. -/
@[reducible] def sampleSources : ProSources where
  verifyEvent e := e = strangerCredential ∨ e = strangerRoster
  urlHost _ := some (lit "springfield.gp.nhs.uk")
  registryRecord _ _ _ := some ⟨lit "CQC", lit "RXL", lit "Springfield Practice", lit "Active",
    some (lit "springfield.gp.nhs.uk")⟩
  signetJson _ := some ⟨lit "RXL", some [lit "lead"], lit "lead", none, none⟩
  fetchEvents _ _ := some []

end SignetApp.Professional
