import SignetApp.Collections.Replaced
import SignetApp.Js.Json
import SignetApp.Professional.VerifyChain

/-!
# Professional events

`role-anchor.ts` and `roster-append.ts`: the events a lead makes about the firm, as templates. What
signs them is not part of this.
-/

namespace SignetApp.Professional

open Js

structure EventTemplate where
  kind : ℤ
  createdAt : ℤ
  tags : List (List JsString)
  content : JsString

/-- The fields of the context that these builders read. -/
structure AnchorContext where
  registry : JsString
  identifier : JsString
  professionKind : JsString
  entityName : JsString

structure RosterMember where
  pubkey : JsString
  role : JsString
  scope : Option JsString := none
  deriving DecidableEq

/-- `identifier` of the builders that sign. -/
structure IdentifierRef where
  kind : JsString
  value : JsString

def proRoster : ℤ := 30202

def proRevocation : ℤ := 30204

def dTag (registry identifier : JsString) : JsString := registry ++ lit ":" ++ identifier

def IdentifierRef.dTag (i : IdentifierRef) : JsString := i.kind ++ lit ":" ++ i.value

/-- The tag of a member. An empty scope is left out. -/
def RosterMember.tag (m : RosterMember) : List JsString :=
  match m.scope.filter (· ≠ []) with
  | some scope => [lit "p", m.pubkey, m.role, scope]
  | none => [lit "p", m.pubkey, m.role]

def delegateTag (d : JsString) : List JsString := [lit "delegate", d]

def AnchorContext.rosterTags (ctx : AnchorContext) : List (List JsString) :=
  [[lit "d", dTag ctx.registry ctx.identifier], [lit "profession", ctx.professionKind],
    [lit "registry", ctx.registry], [lit "identifier", ctx.identifier], [lit "entity", ctx.entityName]]

/-! ## Rosters -/

def buildRosterEvent (ctx : AnchorContext) (members : List RosterMember) (delegates : List JsString)
    (now : ℤ) : EventTemplate where
  kind := proRoster
  createdAt := now
  tags := ctx.rosterTags ++ members.map RosterMember.tag ++ delegates.map delegateTag
  content := []

/-- A delegate is added or removed; the members stay. -/
def buildRosterUpdate (currentMembers : List RosterMember) (currentDelegates : List JsString)
    (addDelegate removeDelegate : Option JsString) : List RosterMember × List JsString :=
  let added := match addDelegate with
    | some d => if d ∈ currentDelegates then currentDelegates else currentDelegates ++ [d]
    | none => currentDelegates
  let left := match removeDelegate with
    | some d => added.filter (· ≠ d)
    | none => added
  (currentMembers, left)

/-- The roster with one more member. It names no delegates. -/
def buildRosterAppendEvent (ctx : AnchorContext) (existingMembers : List RosterMember)
    (newStaffPubkey newMemberRole : JsString) (now : ℤ) : EventTemplate where
  kind := proRoster
  createdAt := now
  tags :=
    let updatedMembers :=
      if existingMembers.any fun m => m.pubkey = newStaffPubkey then existingMembers
      else existingMembers ++ [{ pubkey := newStaffPubkey, role := newMemberRole }]
    ctx.rosterTags ++ updatedMembers.map RosterMember.tag
  content := []

/-! ## Revocations -/

/-- A member is revoked. -/
def buildRevocationEvent (ctx : AnchorContext) (revokedPubkey revokedRole : JsString) (now : ℤ) :
    EventTemplate where
  kind := proRevocation
  createdAt := now
  tags := [[lit "d", dTag ctx.registry ctx.identifier], [lit "registry", ctx.registry],
    [lit "identifier", ctx.identifier], [lit "p", revokedPubkey], [lit "role", revokedRole]]
  content := []

section

variable [Platform]

def IdentifierRef.toJs (i : IdentifierRef) : JsValue :=
  .obj [("kind", .str i.kind), ("value", .str i.value)]

def RosterMember.toJs (m : RosterMember) : JsValue :=
  .obj ([("pubkey", .str m.pubkey), ("subRole", .str m.role)]
    ++ (m.scope.map fun scope => ("scope", .str scope)).toList)

/-- A roster without a member: its members are in its text. -/
def buildRosterRevocationEvent (identifier : IdentifierRef) (professionKind : JsString)
    (remainingMembers : List RosterMember) (revokedPubkey : JsString) (now : ℤ) (revokedAt : JsString) :
    EventTemplate where
  kind := proRoster
  createdAt := now
  tags := [[lit "d", identifier.dTag], [lit "profession", professionKind], [lit "revoked", revokedPubkey]]
  content := (stringify (.obj [("identifier", identifier.toJs), ("professionKind", .str professionKind),
    ("members", .arr (remainingMembers.map RosterMember.toJs)), ("revokedPubkey", .str revokedPubkey),
    ("revokedAt", .str revokedAt)])).getD []

/-- The firm's role is revoked. -/
def buildRoleAnchorRevocationEvent (identifier : IdentifierRef) (professionKind : JsString)
    (reason : Option JsString) (now : ℤ) (revokedAt : JsString) : EventTemplate where
  kind := proRevocation
  createdAt := now
  tags := [[lit "d", identifier.dTag], [lit "profession", professionKind]]
  content := (stringify (.obj [("identifier", identifier.toJs), ("professionKind", .str professionKind),
    ("revokedAt", .str revokedAt), ("reason", (reason.map JsValue.str).getD .null)])).getD []

end

/-! ## Signed events -/

/-- The address an event is held under: what comes later there takes its place. -/
def ProEvent.address (e : ProEvent) : ℤ × JsString × Option JsString := (e.kind, e.pubkey, e.tagValue "d")

section

variable [ProSources]

/-- The event is the template, signed. -/
structure SignedAs (t : EventTemplate) (ev : ProEvent) : Prop where
  kind : ev.kind = t.kind
  createdAt : ev.createdAt = t.createdAt
  tags : ev.tags = t.tags
  content : ev.content = t.content
  signed : verifyEvent ev = true

end

/-!
## Published revocations

A lead revokes members, or the firm's role, and a verifier asks the relays. A relay holds the newest
event of each address; the pool (`fetchEvents` of `relay-service.ts`) merges what its relays answer, and
one that does not answer adds nothing.
-/

/-! ## What a lead publishes -/

inductive Revocation where
  | member (pubkey role : JsString)
  | firm (reason : Option JsString)

/-- Is the member revoked by it? -/
def Revocation.Covers (member : JsString) : Revocation → Prop
  | .member pubkey _ => pubkey = member
  | .firm _ => True

section Template

variable [Platform]

def Revocation.template (ctx : AnchorContext) (identifierKind : JsString) (now : ℤ) (revokedAt : JsString) :
    Revocation → EventTemplate
  | .member pubkey role => buildRevocationEvent ctx pubkey role now
  | .firm reason =>
    buildRoleAnchorRevocationEvent ⟨identifierKind, ctx.identifier⟩ ctx.professionKind reason now revokedAt

/-- The event is this revocation, signed. -/
def Publishes [ProSources] (ctx : AnchorContext) (identifierKind : JsString) (r : Revocation) (ev : ProEvent) :
    Prop :=
  ∃ now revokedAt, SignedAs (r.template ctx identifierKind now revokedAt) ev

end Template

/-- The revocations that leads have published, in order. -/
abbrev History := List (Revocation × ProEvent)

/-- What the relays hold of them. -/
def History.held (h : History) : List ProEvent := standing ProEvent.address (h.map Prod.snd)

def History.Revokes (h : History) (member : JsString) : Prop := ∃ p ∈ h, p.1.Covers member

/-! ## The relay pool -/

/-- The filter of a revocation check. -/
def matchesRevocationFilter (authors : List JsString) (d : JsString) (ev : ProEvent) : Bool :=
  ev.kind = proRevocation && authors.contains ev.pubkey && ev.hasTag "d" d

/-- A relay's answer, if it gives one. -/
def relayAnswer (held : List ProEvent) (authors : List JsString) (d : JsString) (answers : Bool) :
    Option (List ProEvent) :=
  if answers then some (held.filter (matchesRevocationFilter authors d)) else none

/-- `fetchEvents`: it never fails. -/
def poolFetch (relays : List Bool) (held : List ProEvent) (authors : List JsString) (d : JsString) :
    List ProEvent :=
  firstOfEach ProEvent.id (relays.filterMap (relayAnswer held authors d)).flatten

/-- The verifier's sources, with these relays. -/
@[reducible]
def asking (S : ProSources) (relays : List Bool) (held : List ProEvent) : ProSources :=
  { S with fetchEvents := fun authors d => some (poolFetch relays held authors d) }

theorem mem_poolFetch {relays : List Bool} {held : List ProEvent} {authors : List JsString} {d : JsString}
    (hids : ∀ a ∈ held, ∀ b ∈ held, a.id = b.id → a = b) {ev : ProEvent} :
    ev ∈ poolFetch relays held authors d ↔
      true ∈ relays ∧ ev ∈ held ∧ matchesRevocationFilter authors d ev = true := by
  have hmem : ∀ e, e ∈ (relays.filterMap (relayAnswer held authors d)).flatten ↔
      true ∈ relays ∧ e ∈ held ∧ matchesRevocationFilter authors d e = true := by
    intro e
    rw [List.mem_flatten]
    constructor
    · rintro ⟨answer, hanswer, he⟩
      obtain ⟨answers, hrelay, hgiven⟩ := List.mem_filterMap.1 hanswer
      cases answers with
      | false => cases hgiven
      | true =>
        obtain rfl := Option.some.inj hgiven
        exact ⟨hrelay, List.mem_filter.1 he⟩
    · rintro ⟨hrelay, he⟩
      exact ⟨_, List.mem_filterMap.2 ⟨true, hrelay, rfl⟩, List.mem_filter.2 he⟩
  unfold poolFetch
  rw [mem_firstOfEach, hmem]
  intro a ha b hb
  exact hids a ((hmem a).1 ha).2.1 b ((hmem b).1 hb).2.1

/-! ## What the verifier sees -/

/-- The verifier accepts the credential. -/
def Accepts (S : ProSources) (credential roster : ProEvent) (professionKind jurisdiction : JsString) : Prop :=
  ∃ firmName role profession jurisdiction', @verifyProChain S credential roster professionKind jurisdiction
    = .ok firmName role profession jurisdiction'

/-- Nobody revoked is accepted, and nobody at all where no relay answers. -/
def Honoured (S : ProSources) (relays : List Bool) (h : History) (credential roster : ProEvent)
    (professionKind jurisdiction : JsString) : Prop :=
  (h.Revokes credential.pubkey →
    ¬ Accepts (asking S relays h.held) credential roster professionKind jurisdiction) ∧
  (Accepts (asking S relays h.held) credential roster professionKind jurisdiction → true ∈ relays)

/-- The verifier's other checks pass. -/
structure Passes (S : ProSources) (json : ProSignetJson) (credential roster : ProEvent) : Prop where
  author : roster.pubkey ∈ json.leads ∨ roster.pubkey ∈ delegatesOf roster.tags
  listed : roster.hasTag "p" credential.pubkey = true
  signed : S.verifyEvent credential = true

/-- The verifier would see this revocation of the member. -/
def Revocation.Seen (ctx : AnchorContext) (identifierKind member : JsString) : Revocation → Prop
  | .member pubkey _ => pubkey = member
  | .firm _ => identifierKind = ctx.registry

/-- The firm that is found is the one of the history, and its file lists the leads that published. -/
structure ListsLeads (ctx : AnchorContext) (h : History) (record : RegulatedEntityRecord)
    (json : ProSignetJson) : Prop where
  registry : record.registry = ctx.registry
  identifier : record.identifier = ctx.identifier
  nonempty : json.leads ≠ []
  leads : ∀ p ∈ h, p.2.pubkey ∈ json.leads

section

variable [Platform] [S : ProSources] {ctx : AnchorContext} {identifierKind : JsString}

/-- The address a revocation is published under. -/
def Revocation.dTag (ctx : AnchorContext) (identifierKind : JsString) : Revocation → JsString
  | .member _ _ => Professional.dTag ctx.registry ctx.identifier
  | .firm _ => Professional.dTag identifierKind ctx.identifier

/-- Whom it names. -/
def Revocation.named : Revocation → Option JsString
  | .member pubkey _ => some pubkey
  | .firm _ => none

variable {ev : ProEvent} {r : Revocation}

theorem tagValue_d (h : Publishes ctx identifierKind r ev) :
    ev.tagValue "d" = some (r.dTag ctx identifierKind) := by
  obtain ⟨now, revokedAt, h⟩ := h
  unfold ProEvent.tagValue
  rw [h.tags]
  cases r <;> rfl

theorem tagValue_p (h : Publishes ctx identifierKind r ev) : ev.tagValue "p" = r.named := by
  obtain ⟨now, revokedAt, h⟩ := h
  unfold ProEvent.tagValue
  rw [h.tags]
  cases r <;> rfl

theorem hasTag_d (h : Publishes ctx identifierKind r ev) {d : JsString} :
    ev.hasTag "d" d = true ↔ r.dTag ctx identifierKind = d := by
  obtain ⟨now, revokedAt, h⟩ := h
  have hother : ∀ name ∈ [lit "registry", lit "identifier", lit "p", lit "role", lit "profession"],
      name ≠ lit "d" := by decide
  unfold ProEvent.hasTag
  rw [h.tags]
  cases r <;> simp [Revocation.template, buildRevocationEvent, buildRoleAnchorRevocationEvent,
    Revocation.dTag, IdentifierRef.dTag, Professional.dTag, hother]

theorem kind_eq (h : Publishes ctx identifierKind r ev) : ev.kind = proRevocation := by
  obtain ⟨now, revokedAt, h⟩ := h
  rw [h.kind]
  cases r <;> rfl

theorem verified (h : Publishes ctx identifierKind r ev) : verifyEvent ev = true := by
  obtain ⟨now, revokedAt, h⟩ := h
  exact h.signed

omit [Platform] S in
theorem dTag_eq_iff : r.dTag ctx identifierKind = proDTag ctx.registry ctx.identifier ↔
    (r.named = none → identifierKind = ctx.registry) := by
  cases r with
  | member pubkey role =>
    constructor
    · intro _ hnamed
      cases hnamed
    · exact fun _ => rfl
  | firm reason =>
    show identifierKind ++ lit ":" ++ ctx.identifier = ctx.registry ++ lit ":" ++ ctx.identifier ↔ _
    rw [List.append_left_inj, List.append_left_inj]
    exact ⟨fun h _ => h, fun h => h rfl⟩

/-- **What the verifier sees of a revocation**: its own member's, or a full one that is under the address it
asks for. -/
theorem sees_iff (h : Publishes ctx identifierKind r ev)
    {leads : List JsString} (hlead : ev.pubkey ∈ leads) {member : JsString} :
    matchesRevocationFilter leads (proDTag ctx.registry ctx.identifier) ev = true ∧
      revocationIn (proDTag ctx.registry ctx.identifier) leads member ev ≠ none ↔
      r.Seen ctx identifierKind member := by
  have hmatches : matchesRevocationFilter leads (proDTag ctx.registry ctx.identifier) ev = true ↔
      r.dTag ctx identifierKind = proDTag ctx.registry ctx.identifier := by
    unfold matchesRevocationFilter
    rw [Bool.and_eq_true, Bool.and_eq_true, hasTag_d h]
    exact ⟨fun hall => hall.2, fun hd => ⟨⟨decide_eq_true (kind_eq h), List.contains_iff_mem.2 hlead⟩, hd⟩⟩
  have hrevokes : r.dTag ctx identifierKind = proDTag ctx.registry ctx.identifier →
      (revocationIn (proDTag ctx.registry ctx.identifier) leads member ev ≠ none ↔
        ∀ pubkey, r.named = some pubkey → pubkey = member) := by
    intro hd
    rw [Ne, revocationIn_eq_none_iff, tagValue_d h, tagValue_p h, hd]
    constructor
    · intro hnot pubkey hnamed
      by_contra hne
      exact hnot fun _ _ _ => ⟨pubkey, hnamed, hne⟩
    · intro hall hnone
      obtain ⟨pubkey, hnamed, hne⟩ := hnone hlead (verified h) rfl
      exact hne (hall pubkey hnamed)
  rw [hmatches, and_congr_right hrevokes, dTag_eq_iff]
  cases r with
  | member pubkey role =>
    constructor
    · exact fun hboth => hboth.2 pubkey rfl
    · intro hpubkey
      refine ⟨fun hnamed => (by cases hnamed), fun other hother => ?_⟩
      rw [← Option.some.inj hother]
      exact hpubkey
  | firm reason =>
    constructor
    · exact fun hboth => hboth.1 rfl
    · exact fun hkind => ⟨fun _ => hkind, fun other hother => (by cases hother)⟩

/-! ## When revocations are honoured -/

/-- **Revocations are honoured exactly** when the credential is refused for another reason; or a relay
answers, and a member who was revoked is revoked by what stands at the address the verifier asks for. -/
theorem honoured_iff {relays : List Bool} {h : History} {credential roster : ProEvent}
    {professionKind jurisdiction : JsString} (hpublished : ∀ p ∈ h, Publishes ctx identifierKind p.1 p.2)
    (hids : ∀ p ∈ h, ∀ q ∈ h, p.2.id = q.2.id → p.2 = q.2)
    (hfirm : ∀ record json, firmOf credential professionKind jurisdiction = .ok (record, json) →
      ListsLeads ctx h record json) :
    Honoured S relays h credential roster professionKind jurisdiction ↔
      ∀ record json, firmOf credential professionKind jurisdiction = .ok (record, json) →
        Passes S json credential roster →
        true ∈ relays ∧ (h.Revokes credential.pubkey → ∃ p ∈ h, p.2 ∈ h.held ∧
          p.1.Seen ctx identifierKind credential.pubkey) := by
  have hheld : ∀ a ∈ h.held, ∀ b ∈ h.held, a.id = b.id → a = b := by
    intro a ha b hb
    obtain ⟨p, hp, rfl⟩ := List.mem_map.1 (mem_of_mem_standing ha)
    obtain ⟨q, hq, rfl⟩ := List.mem_map.1 (mem_of_mem_standing hb)
    exact hids p hp q hq
  -- Accepted is what passes, and of which no revocation is seen.
  have haccepts : Accepts (asking S relays h.held) credential roster professionKind jurisdiction ↔
      ∃ record json, firmOf credential professionKind jurisdiction = .ok (record, json) ∧
        Passes S json credential roster ∧ ¬ (true ∈ relays ∧ ∃ p ∈ h, p.2 ∈ h.held ∧
          p.1.Seen ctx identifierKind credential.pubkey) := by
    unfold Accepts
    rw [@verifyProChain_ok_iff (asking S relays h.held)]
    constructor
    · rintro ⟨record, json, events, hfound, hevents, hauthor, hlisted, hsigned, hstanding⟩
      obtain ⟨hregistry, hidentifier, hnonempty, hleads⟩ := hfirm record json hfound
      refine ⟨record, json, hfound, ⟨hauthor, hlisted, hsigned⟩, ?_⟩
      rintro ⟨hrelay, p, hp, hstands, hseen⟩
      obtain ⟨hmatches, hrevokes⟩ := (sees_iff (hpublished p hp) (hleads p hp)).2 hseen
      unfold fetchedRevocations at hevents
      rw [if_neg hnonempty] at hevents
      obtain rfl := Option.some.inj hevents
      rw [← hregistry, ← hidentifier] at hmatches hrevokes
      exact hrevokes (hstanding p.2 ((mem_poolFetch hheld).2 ⟨hrelay, hstands, hmatches⟩))
    · rintro ⟨record, json, hfound, hpasses, hunseen⟩
      obtain ⟨hregistry, hidentifier, hnonempty, hleads⟩ := hfirm record json hfound
      refine ⟨record, json, _, hfound, if_neg hnonempty,
        @Checked.mk (asking S relays h.held) _ _ _ _ _ hpasses.author hpasses.listed hpasses.signed ?_⟩
      intro ev hev
      obtain ⟨hrelay, hstands, hmatches⟩ := (mem_poolFetch hheld).1 hev
      obtain ⟨p, hp, rfl⟩ := List.mem_map.1 (mem_of_mem_standing hstands)
      by_contra hrevokes
      apply hunseen
      refine ⟨hrelay, p, hp, hstands, (sees_iff (hpublished p hp) (hleads p hp)).1 ?_⟩
      rw [hregistry, hidentifier] at hmatches hrevokes
      exact ⟨hmatches, hrevokes⟩
  unfold Honoured
  rw [haccepts]
  constructor
  · rintro ⟨hrevoked, hanswered⟩ record json hfound hpasses
    by_cases hrelay : true ∈ relays
    · refine ⟨hrelay, fun hcovered => ?_⟩
      by_contra hunseen
      exact hrevoked hcovered ⟨record, json, hfound, hpasses, fun hboth => hunseen hboth.2⟩
    · exact absurd (hanswered ⟨record, json, hfound, hpasses, fun hboth => hrelay hboth.1⟩) hrelay
  · intro hcondition
    constructor
    · rintro hcovered ⟨record, json, hfound, hpasses, hunseen⟩
      obtain ⟨hrelay, hseen⟩ := hcondition record json hfound hpasses
      exact hunseen ⟨hrelay, hseen hcovered⟩
    · rintro ⟨record, json, hfound, hpasses, -⟩
      exact (hcondition record json hfound hpasses).1

end

/-! ## A practice with two members -/

attribute [local instance] samplePlatform

def practiceLead : JsString := lit "79be667ef9dcbbac55a06295ce870b07029bfcdb2dce28d959f2815b16f81798"
def practiceAlice : JsString := lit "c6047f9441ed7d6d3045406e95c07cd85c778e4b8cef3ca7abac09b95c709ee5"
def practiceBob : JsString := lit "f9308a019258c31049344f85f89d5229b531c845836f99b08601f113bce036f9"

def practiceContext : AnchorContext where
  registry := lit "CQC"
  identifier := lit "1-123456789"
  professionKind := lit "gp-practice"
  entityName := lit "Springfield Practice"

def practiceKind : JsString := lit "CQC-ProviderID"

/-- A template as it is signed, with an id and a signature of its own. -/
def signedBy (pubkey id : JsString) (t : EventTemplate) : ProEvent :=
  ⟨id, pubkey, t.createdAt, t.kind, t.tags, t.content, id⟩

def practiceRoster : ProEvent := signedBy practiceLead (lit "a1") <|
  buildRosterEvent practiceContext [⟨practiceAlice, lit "gp", none⟩, ⟨practiceBob, lit "nurse", none⟩] []
    1700000000

def aliceCredential : ProEvent :=
  ⟨lit "a2", practiceAlice, 1700000001, 29999, [[lit "identifier", lit "1-123456789"]], [], lit "a2"⟩

def aliceRevoked : Revocation × ProEvent :=
  (.member practiceAlice (lit "gp"), signedBy practiceLead (lit "a3")
    (buildRevocationEvent practiceContext practiceAlice (lit "gp") 1700000002))

def bobRevoked : Revocation × ProEvent :=
  (.member practiceBob (lit "nurse"), signedBy practiceLead (lit "a4")
    (buildRevocationEvent practiceContext practiceBob (lit "nurse") 1700000003))

def practiceRevoked : Revocation × ProEvent :=
  (.firm none, signedBy practiceLead (lit "a5") (buildRoleAnchorRevocationEvent
    ⟨practiceKind, practiceContext.identifier⟩ practiceContext.professionKind none 1700000004
    (lit "2023-11-14T22:13:24.000Z")))

/-- The practice's registry and website agree, and its events are validly signed. -/
@[reducible] def practiceSources : ProSources where
  verifyEvent e := e ∈ [practiceRoster, aliceCredential, aliceRevoked.2, bobRevoked.2, practiceRevoked.2]
  urlHost _ := some (lit "springfield.gp.nhs.uk")
  registryRecord _ _ _ := some ⟨lit "CQC", lit "1-123456789", lit "Springfield Practice", lit "Active",
    some (lit "springfield.gp.nhs.uk")⟩
  signetJson _ := some ⟨lit "1-123456789", some [practiceLead], practiceLead, none, none⟩
  fetchEvents _ _ := some []

/-- Accepted are: anyone, while no relay answers; one who was revoked before another was; and one whose firm
was revoked. -/
theorem revocations_not_honoured :
    ¬ Honoured practiceSources [false] [] aliceCredential practiceRoster (lit "gp-practice") (lit "england") ∧
    ¬ Honoured practiceSources [true] [aliceRevoked, bobRevoked] aliceCredential practiceRoster
      (lit "gp-practice") (lit "england") ∧
    ¬ Honoured practiceSources [true] [practiceRevoked] aliceCredential practiceRoster (lit "gp-practice")
      (lit "england") := by
  have hdown : Accepts (asking practiceSources [false] (History.held [])) aliceCredential practiceRoster
      (lit "gp-practice") (lit "england") :=
    ⟨lit "Springfield Practice", some (lit "gp"), lit "gp-practice", lit "england", by decide +kernel⟩
  have htwice : Accepts (asking practiceSources [true] (History.held [aliceRevoked, bobRevoked]))
      aliceCredential practiceRoster (lit "gp-practice") (lit "england") :=
    ⟨lit "Springfield Practice", some (lit "gp"), lit "gp-practice", lit "england", by decide +kernel⟩
  have hfirm : Accepts (asking practiceSources [true] (History.held [practiceRevoked])) aliceCredential
      practiceRoster (lit "gp-practice") (lit "england") :=
    ⟨lit "Springfield Practice", some (lit "gp"), lit "gp-practice", lit "england", by decide +kernel⟩
  refine ⟨fun h => ?_, fun h => ?_, fun h => ?_⟩
  · exact absurd (h.2 hdown) (by decide)
  · exact h.1 ⟨aliceRevoked, List.mem_cons_self, rfl⟩ htwice
  · exact h.1 ⟨practiceRevoked, List.mem_cons_self, trivial⟩ hfirm

/-- The last revocation is honoured, where a relay answers. -/
theorem honoured_iff_alice : Honoured practiceSources [false, true] [bobRevoked, aliceRevoked] aliceCredential
    practiceRoster (lit "gp-practice") (lit "england") := by
  have hstands : aliceRevoked.2 ∈ History.held [bobRevoked, aliceRevoked] := by decide +kernel
  refine (@honoured_iff samplePlatform practiceSources practiceContext practiceKind _ _ _ _ _ _ ?_ ?_ ?_).2 ?_
  · intro p hp
    rcases List.mem_cons.1 hp with rfl | hp
    · exact ⟨1700000003, [], @SignedAs.mk practiceSources _ _ rfl rfl rfl rfl (by decide +kernel)⟩
    · rw [List.mem_singleton.1 hp]
      exact ⟨1700000002, [], @SignedAs.mk practiceSources _ _ rfl rfl rfl rfl (by decide +kernel)⟩
  · decide +kernel
  · intro record json hfound
    have hleads : ∀ p ∈ [bobRevoked, aliceRevoked], p.2.pubkey ∈ [practiceLead] := by decide +kernel
    have heq : @firmOf practiceSources aliceCredential (lit "gp-practice") (lit "england") =
        .ok (⟨lit "CQC", lit "1-123456789", lit "Springfield Practice", lit "Active",
          some (lit "springfield.gp.nhs.uk")⟩,
          ⟨lit "1-123456789", some [practiceLead], practiceLead, none, none⟩) := by rfl
    rw [heq] at hfound
    cases hfound
    exact ⟨rfl, rfl, List.cons_ne_nil _ _, hleads⟩
  · intro record json _ _
    exact ⟨by decide, fun _ => ⟨aliceRevoked, List.mem_cons_of_mem _ (List.mem_singleton_self _), hstands, rfl⟩⟩

end SignetApp.Professional
