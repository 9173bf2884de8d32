import SignetApp.Js.JsonIndent
import SignetApp.Professional.Revocation
import SignetApp.Professional.VerifyChain
import SignetApp.Sync.Wire

/-!
# The firm's file

`signet-json.ts`: the text that a lead has put on the firm's website, and what a verifier reads there.
-/

namespace SignetApp.Professional.SignetJson

open Js

structure GenerateSignetJsonOptions where
  professionKind : JsString
  entityName : JsString
  identifier : JsString
  identifierKind : JsString
  /-- One entry is written as `headPubkey`, several as `headPubkeys`. -/
  leadPubkeyNpubs : List JsString
  canonicalDomain : JsString
  relays : List JsString
  publishedAt : JsString

/-- `normaliseHost` of this file. -/
def normaliseHost (host : JsString) : JsString :=
  let h := toLowerCase (trim host)
  let h := if (lit "/").isSuffixOf h then h.dropLast else h
  if (lit "www.").isPrefixOf h then h.drop 4 else h

/-- The leads, each once: at least one, at most ten. -/
def normaliseLeadPubkeys (headPubkey : Option JsString) (headPubkeys : List JsString) :
    Option (List JsString) :=
  let combined := distinct ((headPubkey.filter (· ≠ [])).toList ++ headPubkeys)
  if combined = [] ∨ 10 < combined.length then none else some combined

/-! ## Writing -/

/-- The property that names the leads. -/
def leadProp (leadPubkeyNpubs : List JsString) : String × JsValue :=
  match leadPubkeyNpubs with
  | [npub] => ("headPubkey", .str npub)
  | npubs => ("headPubkeys", .arr (npubs.map .str))

def payload (opts : GenerateSignetJsonOptions) : JsValue :=
  .obj [("schemaVersion", .num (.finite 1)), ("kind", .str opts.professionKind),
    ("entityName", .str opts.entityName),
    ("identifier", .obj [("kind", .str opts.identifierKind), ("value", .str opts.identifier)]),
    ("relays", .arr (opts.relays.map .str)),
    ("canonicalPage", .str (lit "https://" ++ normaliseHost opts.canonicalDomain ++ lit "/")),
    ("publishedAt", .str opts.publishedAt), leadProp opts.leadPubkeyNpubs]

def generateSignetJson [Platform] (opts : GenerateSignetJsonOptions) : JsString :=
  (stringifyIndented (payload opts)).getD []

/-! ## Reading -/

def maxFetchBytes : ℕ := 8192

def asString : JsValue → Option JsString
  | .str s => some s
  | _ => none

/-- `Array.isArray(v) ? v : undefined`. -/
def asArray : JsValue → Option (List JsValue)
  | .arr elems => some elems
  | _ => none

/-- What a verifier takes from the object. Of an array of leads only the texts can match a key. -/
def signetJsonOf (v : JsValue) (fetchedFromHost : JsString) : Option ProSignetJson := do
  let headPubkey := (asString (v.get "headPubkey")).or (asString (v.get "leadPubkey"))
  let headPubkeys := (asArray (v.get "headPubkeys")).getD []
  let leadPubkeys ← normaliseLeadPubkeys headPubkey (headPubkeys.filterMap asString)
  let identifier ← asString ((v.get "identifier").get "value")
  let entities := (asArray (v.get "entities")).map fun elems =>
    elems.map fun e => (asString (e.get "value")).getD []
  some ⟨identifier, some leadPubkeys, leadPubkeys.head?.getD [], entities, some fetchedFromHost⟩

/-- `fetchProSignetJson`, of the text that the website answers from this host. -/
def fetchProSignetJson [Numerals] (text fetchedFromHost : JsString) : Option ProSignetJson :=
  if maxFetchBytes < text.length then none
  else (parse text).bind fun v => signetJsonOf v fetchedFromHost

/-! ## What is read of what was written -/

theorem isJson_leadProp [Numerals] (npubs : List JsString) : IsJson (leadProp npubs).2 := by
  unfold leadProp
  split
  · trivial
  · show AreJson _
    rw [areJson_iff]
    intro v hv
    obtain ⟨s, -, rfl⟩ := List.mem_map.1 hv
    trivial

theorem leadProp_name (npubs : List JsString) :
    (leadProp npubs).1 = "headPubkey" ∨ (leadProp npubs).1 = "headPubkeys" := by
  unfold leadProp
  split
  · exact .inl rfl
  · exact .inr rfl

theorem isJson_payload [Numerals] (hone : Survives 1) (opts : GenerateSignetJsonOptions) :
    IsJson (payload opts) := by
  constructor
  · rcases leadProp_name opts.leadPubkeyNpubs with h | h <;>
      simp [h]
  · have hrelays : IsJson (.arr (opts.relays.map .str)) := by
      show AreJson _
      rw [areJson_iff]
      intro v hv
      obtain ⟨s, -, rfl⟩ := List.mem_map.1 hv
      trivial
    rw [holdJson_iff]
    intro p hp
    simp only [List.mem_cons, List.not_mem_nil, or_false] at hp
    rcases hp with rfl | rfl | rfl | rfl | rfl | rfl | rfl | rfl
    · exact hone
    · trivial
    · trivial
    · exact ⟨by simp, trivial, trivial, trivial⟩
    · exact hrelays
    · trivial
    · trivial
    · exact isJson_leadProp opts.leadPubkeyNpubs

theorem filterMap_asString (npubs : List JsString) : (npubs.map JsValue.str).filterMap asString = npubs := by
  induction npubs with
  | nil => rfl
  | cons npub npubs ih => simp [asString, ih]

theorem normaliseLeadPubkeys_distinct (headPubkey : Option JsString) (headPubkeys : List JsString)
    (hne : (headPubkey.filter (· ≠ [])).toList ++ headPubkeys ≠ [])
    (hten : ((headPubkey.filter (· ≠ [])).toList ++ headPubkeys).length ≤ 10) :
    ∃ leads, normaliseLeadPubkeys headPubkey headPubkeys = some leads ∧
      ∀ key, key ∈ leads ↔ key ∈ (headPubkey.filter (· ≠ [])).toList ++ headPubkeys := by
  refine ⟨_, if_neg ?_, fun key => mem_distinct⟩
  rintro (hnone | hmany)
  · obtain ⟨key, rest, hkey⟩ := List.exists_cons_of_ne_nil hne
    have hmem : key ∈ distinct ((headPubkey.filter (· ≠ [])).toList ++ headPubkeys) := by
      rw [mem_distinct, hkey]
      exact List.mem_cons_self
    rw [hnone] at hmem
    cases hmem
  · have hsub : distinct ((headPubkey.filter (· ≠ [])).toList ++ headPubkeys) ⊆
        (headPubkey.filter (· ≠ [])).toList ++ headPubkeys := fun key => mem_distinct.1
    have hle := ((nodup_distinct _).subperm hsub).length_le
    omega

/-- The leads that are read are those that were written. -/
theorem leads_read {opts : GenerateSignetJsonOptions} (hne : opts.leadPubkeyNpubs ≠ [])
    (hten : opts.leadPubkeyNpubs.length ≤ 10) (hkeys : ∀ npub ∈ opts.leadPubkeyNpubs, npub ≠ [])
    (host : JsString) :
    ∃ json, signetJsonOf (payload opts) host = some json ∧ json.identifier = opts.identifier ∧
      json.entities = none ∧ json.fetchedFromHost = some host ∧
      ∀ key, key ∈ json.leads ↔ key ∈ opts.leadPubkeyNpubs := by
  obtain ⟨kind, entity, identifier, identifierKind, npubs, domain, relays, publishedAt⟩ := opts
  -- One lead is under a name of its own.
  match npubs with
  | [] => exact absurd rfl hne
  | [npub] =>
    have hnpub : ((some npub).filter (· ≠ [])).toList = [npub] := by
      simp [Option.filter, hkeys npub List.mem_cons_self]
    obtain ⟨leads, hleads, hmem⟩ := normaliseLeadPubkeys_distinct (some npub) []
      (by rw [hnpub]; exact List.cons_ne_nil _ _) (by rw [hnpub]; simp)
    refine ⟨⟨identifier, some leads, leads.head?.getD [], none, some host⟩, ?_, rfl, rfl, rfl, ?_⟩
    · show (normaliseLeadPubkeys (some npub) []).bind _ = _
      rw [hleads]
      rfl
    · intro key
      show key ∈ leads ↔ _
      rw [hmem, hnpub]
      rfl
  | first :: second :: rest =>
    obtain ⟨leads, hleads, hmem⟩ := normaliseLeadPubkeys_distinct none
      (first :: second :: rest) (by simp) hten
    refine ⟨⟨identifier, some leads, leads.head?.getD [], none, some host⟩, ?_, rfl, rfl, rfl, ?_⟩
    · show (normaliseLeadPubkeys none
        (((first :: second :: rest).map JsValue.str).filterMap asString)).bind _ = _
      rw [filterMap_asString, hleads]
      rfl
    · intro key
      show key ∈ leads ↔ _
      rw [hmem]
      rfl

theorem fetchProSignetJson_generate [Numerals] (hone : Survives 1) (opts : GenerateSignetJsonOptions)
    (hfits : (generateSignetJson opts).length ≤ maxFetchBytes) (hne : opts.leadPubkeyNpubs ≠ [])
    (hten : opts.leadPubkeyNpubs.length ≤ 10) (hkeys : ∀ npub ∈ opts.leadPubkeyNpubs, npub ≠ [])
    (host : JsString) :
    ∃ json, fetchProSignetJson (generateSignetJson opts) host = some json ∧
      json.identifier = opts.identifier ∧ json.entities = none ∧ json.fetchedFromHost = some host ∧
      ∀ key, key ∈ json.leads ↔ key ∈ opts.leadPubkeyNpubs := by
  obtain ⟨json, hjson, hfields⟩ := leads_read hne hten hkeys host
  refine ⟨json, ?_, hfields⟩
  obtain ⟨text, htext, hparse⟩ := parse_stringifyIndented (isJson_payload hone opts)
  have hgenerate : generateSignetJson opts = text := by
    unfold generateSignetJson
    rw [htext]
    rfl
  unfold fetchProSignetJson
  rw [if_neg (by omega), hgenerate, hparse]
  exact hjson

end SignetApp.Professional.SignetJson

/-!
## Roster edits

Leads edit the firm's roster, each from the one of theirs that stands (`App.tsx` reads it before it opens
the pages that edit), and a verifier judges a credential by the roster that was published last.
-/

namespace SignetApp.Professional

open Js

/-! ## What a roster names -/

/-- Members and delegates, as keys. -/
structure Staff where
  members : List JsString
  delegates : List JsString

/-- The same people. An empty text is no delegate. -/
structure Staff.Same (a b : Staff) : Prop where
  members : ∀ k, k ∈ a.members ↔ k ∈ b.members
  delegates : ∀ d, d ≠ [] → (d ∈ a.delegates ↔ d ∈ b.delegates)

theorem Staff.Same.trans {a b c : Staff} (hab : a.Same b) (hbc : b.Same c) : a.Same c :=
  ⟨fun k => (hab.members k).trans (hbc.members k),
    fun d hd => (hab.delegates d hd).trans (hbc.delegates d hd)⟩

/-- `t[0] === 'p' && typeof t[1] === 'string'`. -/
def memberOfTag : List JsString → Option RosterMember
  | name :: key :: rest => if name = lit "p" then some ⟨key, rest.head?.getD [], rest[1]?⟩ else none
  | _ => none

/-- `t[0] === 'delegate' && typeof t[1] === 'string'`. -/
def delegateOfTag : List JsString → Option JsString
  | name :: key :: _ => if name = lit "delegate" then some key else none
  | _ => none

def ProEvent.rosterMembers (e : ProEvent) : List RosterMember := e.tags.filterMap memberOfTag

def ProEvent.rosterDelegates (e : ProEvent) : List JsString := e.tags.filterMap delegateOfTag

/-- Whom tags name. -/
def staffOfTags (tags : List (List JsString)) : Staff :=
  ⟨(tags.filterMap memberOfTag).map RosterMember.pubkey, tags.filterMap delegateOfTag⟩

/-- Whom the roster names, if there is one. -/
def staffOf (roster : Option ProEvent) : Staff := staffOfTags ((roster.map ProEvent.tags).getD [])

theorem hasTag_p_iff {e : ProEvent} {k : JsString} :
    e.hasTag "p" k = true ↔ k ∈ (staffOfTags e.tags).members := by
  unfold ProEvent.hasTag staffOfTags
  rw [List.any_eq_true]
  simp only [List.mem_map, List.mem_filterMap]
  constructor
  · rintro ⟨t, ht, hname⟩
    match t, ht, hname with
    | name :: key :: rest, ht, hname =>
      simp only [List.head?_cons, Option.some.injEq, List.getElem?_cons_succ, List.getElem?_cons_zero,
        Bool.and_eq_true, decide_eq_true_eq] at hname
      exact ⟨_, ⟨_, ht, if_pos hname.1⟩, hname.2⟩
    | [name], ht, hname => simp at hname
    | [], ht, hname => simp at hname
  · rintro ⟨m, ⟨t, ht, hm⟩, rfl⟩
    refine ⟨t, ht, ?_⟩
    match t, hm with
    | name :: key :: rest, hm =>
      by_cases hname : name = lit "p"
      · obtain rfl := Option.some.inj ((if_pos hname).symm.trans hm)
        simp [hname]
      · cases (if_neg hname).symm.trans hm

theorem mem_delegatesOf_iff {tags : List (List JsString)} {d : JsString} (hd : d ≠ []) :
    d ∈ delegatesOf tags ↔ d ∈ (staffOfTags tags).delegates := by
  unfold delegatesOf staffOfTags
  rw [mem_distinct]
  simp only [List.mem_filterMap]
  refine exists_congr fun t => and_congr_right fun _ => ?_
  match t with
  | name :: key :: rest =>
    by_cases hname : name = lit "delegate"
    · simp only [hname, delegateOfTag, List.head?_cons, if_true, List.getElem?_cons_succ,
        List.getElem?_cons_zero, Option.filter_eq_some_iff, Option.some.injEq]
      constructor
      · exact fun h => h.1
      · rintro rfl
        exact ⟨rfl, decide_eq_true hd⟩
    · simp [hname, delegateOfTag]
  | [name] => simp [delegateOfTag]
  | [] => simp [delegateOfTag]

/-! ## What builders write -/

theorem memberOfTag_tag (m : RosterMember) :
    ∃ m', memberOfTag m.tag = some m' ∧ m'.pubkey = m.pubkey := by
  unfold RosterMember.tag
  split
  · exact ⟨_, rfl, rfl⟩
  · exact ⟨_, rfl, rfl⟩

theorem delegateOfTag_tag (m : RosterMember) : delegateOfTag m.tag = none := by
  have hname : lit "p" ≠ lit "delegate" := by decide
  unfold RosterMember.tag
  split <;> simp [delegateOfTag, hname]

theorem staffOfTags_append (tags tags' : List (List JsString)) : staffOfTags (tags ++ tags') =
    ⟨(staffOfTags tags).members ++ (staffOfTags tags').members,
      (staffOfTags tags).delegates ++ (staffOfTags tags').delegates⟩ := by
  simp [staffOfTags]

theorem staffOfTags_members (ms : List RosterMember) :
    staffOfTags (ms.map RosterMember.tag) = ⟨ms.map RosterMember.pubkey, []⟩ := by
  induction ms with
  | nil => rfl
  | cons m ms ih =>
    obtain ⟨m', hm', hpubkey⟩ := memberOfTag_tag m
    have hmembers := congrArg Staff.members ih
    have hdelegates := congrArg Staff.delegates ih
    simp only [staffOfTags] at hmembers hdelegates ⊢
    rw [List.map_cons, List.filterMap_cons_some hm', List.filterMap_cons_none (delegateOfTag_tag m),
      List.map_cons, List.map_cons, hmembers, hdelegates, hpubkey]

theorem staffOfTags_delegates (ds : List JsString) : staffOfTags (ds.map delegateTag) = ⟨[], ds⟩ := by
  have hname : lit "delegate" ≠ lit "p" := by decide
  induction ds with
  | nil => rfl
  | cons d ds ih =>
    have hmembers := congrArg Staff.members ih
    have hdelegates := congrArg Staff.delegates ih
    have hmember : memberOfTag (delegateTag d) = none := by simp [memberOfTag, delegateTag, hname]
    have hdelegate : delegateOfTag (delegateTag d) = some d := rfl
    simp only [staffOfTags] at hmembers hdelegates ⊢
    rw [List.map_cons, List.filterMap_cons_some hdelegate, List.filterMap_cons_none hmember, hmembers,
      hdelegates]

theorem staffOfTags_rosterTags (ctx : AnchorContext) : staffOfTags ctx.rosterTags = ⟨[], []⟩ := by
  have hother : ∀ name ∈ [lit "d", lit "profession", lit "registry", lit "identifier", lit "entity"],
      name ≠ lit "p" ∧ name ≠ lit "delegate" := by decide
  simp only [List.mem_cons, List.not_mem_nil, or_false, forall_eq_or_imp, forall_eq] at hother
  simp [staffOfTags, AnchorContext.rosterTags, memberOfTag, delegateOfTag, hother]

theorem staffOfTags_buildRosterEvent (ctx : AnchorContext) (ms : List RosterMember) (ds : List JsString)
    (now : ℤ) : staffOfTags (buildRosterEvent ctx ms ds now).tags = ⟨ms.map RosterMember.pubkey, ds⟩ := by
  show staffOfTags (ctx.rosterTags ++ _ ++ _) = _
  rw [staffOfTags_append, staffOfTags_append, staffOfTags_rosterTags, staffOfTags_members,
    staffOfTags_delegates]
  simp

theorem staffOfTags_buildRosterAppendEvent (ctx : AnchorContext) (ms : List RosterMember)
    (k role : JsString) (now : ℤ) :
    (staffOfTags (buildRosterAppendEvent ctx ms k role now).tags).delegates = [] ∧
      ∀ k', k' ∈ (staffOfTags (buildRosterAppendEvent ctx ms k role now).tags).members ↔
        k' ∈ ms.map RosterMember.pubkey ∨ k' = k := by
  have htags : staffOfTags (buildRosterAppendEvent ctx ms k role now).tags =
      ⟨(if ms.any fun m => m.pubkey = k then ms
        else ms ++ [{ pubkey := k, role := role }]).map RosterMember.pubkey, []⟩ := by
    show staffOfTags (ctx.rosterTags ++ _) = _
    rw [staffOfTags_append, staffOfTags_rosterTags, staffOfTags_members]
    simp
  rw [htags]
  refine ⟨rfl, fun k' => ?_⟩
  split
  · next hpresent =>
    obtain ⟨m, hm, hk⟩ := List.any_eq_true.1 hpresent
    have hmem : k ∈ ms.map RosterMember.pubkey := List.mem_map.2 ⟨m, hm, of_decide_eq_true hk⟩
    exact ⟨.inl, fun h => h.elim id fun heq => heq ▸ hmem⟩
  · simp [or_comm]

theorem staffOfTags_buildRosterRevocationEvent [Platform] (i : IdentifierRef) (kind : JsString)
    (ms : List RosterMember) (k : JsString) (now : ℤ) (revokedAt : JsString) :
    staffOfTags (buildRosterRevocationEvent i kind ms k now revokedAt).tags = ⟨[], []⟩ := by
  have hother : ∀ name ∈ [lit "d", lit "profession", lit "revoked"],
      name ≠ lit "p" ∧ name ≠ lit "delegate" := by decide
  simp only [List.mem_cons, List.not_mem_nil, or_false, forall_eq_or_imp, forall_eq] at hother
  simp [staffOfTags, buildRosterRevocationEvent, memberOfTag, delegateOfTag, hother]

theorem mem_buildRosterUpdate (ms : List RosterMember) (ds : List JsString) (add remove : Option JsString)
    (d : JsString) :
    d ∈ (buildRosterUpdate ms ds add remove).2 ↔ (d ∈ ds ∨ add = some d) ∧ remove ≠ some d := by
  have hadded : d ∈ (buildRosterUpdate ms ds add none).2 ↔ d ∈ ds ∨ add = some d := by
    cases add with
    | none => simp [buildRosterUpdate]
    | some a =>
      by_cases ha : a ∈ ds
      · simp only [buildRosterUpdate, if_pos ha, Option.some.injEq]
        exact ⟨.inl, fun h => h.elim id fun heq => heq ▸ ha⟩
      · simp [buildRosterUpdate, ha, eq_comm]
  cases remove with
  | none => simpa using hadded
  | some r =>
    have hremoved : (buildRosterUpdate ms ds add (some r)).2 =
        (buildRosterUpdate ms ds add none).2.filter (· ≠ r) := rfl
    rw [hremoved, List.mem_filter, hadded, decide_eq_true_eq, Ne, Ne, Option.some.injEq, eq_comm (a := d)]

/-! ## Edits -/

inductive RosterEdit where
  /-- A roster as a whole. -/
  | write (members : List RosterMember) (delegates : List JsString)
  | append (pubkey role : JsString)
  | update (addDelegate removeDelegate : Option JsString)
  | removeMember (pubkey : JsString)

/-- Whom the firm has after it. -/
def RosterEdit.outcome (s : Staff) : RosterEdit → Staff
  | .write members delegates => ⟨members.map RosterMember.pubkey, delegates⟩
  | .append pubkey _ => ⟨s.members ++ [pubkey], s.delegates⟩
  | .update add remove => ⟨s.members, (s.delegates ++ add.toList).filter fun d => remove ≠ some d⟩
  | .removeMember pubkey => ⟨s.members.filter (· ≠ pubkey), s.delegates⟩

/-- The event that the edit makes of the roster that stands. -/
def RosterEdit.template [Platform] (ctx : AnchorContext) (identifierKind : JsString)
    (current : Option ProEvent) (now : ℤ) (revokedAt : JsString) (e : RosterEdit) : EventTemplate :=
  let members := (current.map ProEvent.rosterMembers).getD []
  let delegates := (current.map ProEvent.rosterDelegates).getD []
  match e with
  | .write members delegates => buildRosterEvent ctx members delegates now
  | .append pubkey role => buildRosterAppendEvent ctx members pubkey role now
  | .update add remove =>
    let updated := buildRosterUpdate members delegates add remove
    buildRosterEvent ctx updated.1 updated.2 now
  | .removeMember pubkey =>
    buildRosterRevocationEvent ⟨identifierKind, ctx.identifier⟩ ctx.professionKind
      (members.filter fun m => m.pubkey ≠ pubkey) pubkey now revokedAt

/-- Its builder carries what the edit leaves of these people. -/
def RosterEdit.Carries (identifierKind : JsString) (ctx : AnchorContext) (s : Staff) : RosterEdit → Prop
  | .write _ _ | .update _ _ => True
  | .append _ _ => ∀ d ∈ s.delegates, d = []
  | .removeMember pubkey =>
    identifierKind = ctx.registry ∧ (∀ k ∈ s.members, k = pubkey) ∧ ∀ d ∈ s.delegates, d = []

theorem staffOf_eq (roster : Option ProEvent) : staffOf roster =
    ⟨((roster.map ProEvent.rosterMembers).getD []).map RosterMember.pubkey,
      (roster.map ProEvent.rosterDelegates).getD []⟩ := by
  cases roster <;> rfl

variable {s : Staff} {identifierKind : JsString} {ctx : AnchorContext}

/-- A template names whom the firm has after the edit, where it starts from the firm's people. -/
theorem template_same [Platform] {e : RosterEdit}
    {current : Option ProEvent} (hcarries : e.Carries identifierKind ctx s)
    (hcurrent : (∃ ms ds, e = .write ms ds) ∨ (staffOf current).Same s) (now : ℤ) (revokedAt : JsString) :
    (staffOfTags (e.template ctx identifierKind current now revokedAt).tags).Same (e.outcome s) := by
  cases e with
  | write ms ds =>
    show (staffOfTags (buildRosterEvent _ _ _ _).tags).Same _
    rw [staffOfTags_buildRosterEvent]
    exact ⟨fun k => Iff.rfl, fun d _ => Iff.rfl⟩
  | append k role =>
    obtain ⟨ms, ds, heq⟩ | hsame := hcurrent
    · cases heq
    · rw [staffOf_eq] at hsame
      obtain ⟨hnone, hmem⟩ := staffOfTags_buildRosterAppendEvent ctx
        ((current.map ProEvent.rosterMembers).getD []) k role now
      constructor
      · intro k'
        show k' ∈ (staffOfTags (buildRosterAppendEvent _ _ _ _ _).tags).members ↔ k' ∈ s.members ++ [k]
        rw [hmem, List.mem_append, List.mem_singleton, ← hsame.members]
      · intro d hd
        show d ∈ (staffOfTags (buildRosterAppendEvent _ _ _ _ _).tags).delegates ↔ d ∈ s.delegates
        rw [hnone]
        exact ⟨fun h => (by cases h), fun h => absurd (hcarries d h) hd⟩
  | update add remove =>
    obtain ⟨ms, ds, heq⟩ | hsame := hcurrent
    · cases heq
    · rw [staffOf_eq] at hsame
      show (staffOfTags (buildRosterEvent _ _ _ _).tags).Same _
      rw [staffOfTags_buildRosterEvent]
      refine ⟨hsame.members, fun d hd => ?_⟩
      show d ∈ (buildRosterUpdate ((current.map ProEvent.rosterMembers).getD []) _ add remove).2 ↔ d ∈ (s.delegates ++ add.toList).filter _
      rw [mem_buildRosterUpdate ((current.map ProEvent.rosterMembers).getD []), hsame.delegates d hd]
      simp [List.mem_filter, List.mem_append, or_and_right]
  | removeMember k =>
    show (staffOfTags (buildRosterRevocationEvent _ _ _ _ _ _).tags).Same _
    rw [staffOfTags_buildRosterRevocationEvent]
    constructor
    · intro k'
      show k' ∈ [] ↔ k' ∈ s.members.filter (· ≠ k)
      refine ⟨fun h => (by cases h), fun h => ?_⟩
      obtain ⟨hmem, hne⟩ := List.mem_filter.1 h
      exact absurd (hcarries.2.1 k' hmem) (of_decide_eq_true hne)
    · intro d hd
      show d ∈ [] ↔ d ∈ s.delegates
      exact ⟨fun h => (by cases h), fun h => absurd (hcarries.2.2 d h) hd⟩

theorem template_dTag [Platform] {e : RosterEdit}
    (hcarries : e.Carries identifierKind ctx s) (current : Option ProEvent) (now : ℤ) (revokedAt : JsString)
    {ev : ProEvent} (htags : ev.tags = (e.template ctx identifierKind current now revokedAt).tags) :
    ev.tagValue "d" = some (dTag ctx.registry ctx.identifier) := by
  unfold ProEvent.tagValue
  rw [htags]
  cases e with
  | write ms ds => rfl
  | append k role => rfl
  | update add remove => rfl
  | removeMember k =>
    show some (identifierKind ++ lit ":" ++ ctx.identifier) = _
    rw [hcarries.1]
    rfl

/-! ## Histories -/

/-- The edits so far, each with its event. -/
abbrev RosterHistory := List (RosterEdit × ProEvent)

namespace RosterHistory

/-- Who has been added and not removed. -/
def staff (h : RosterHistory) : Staff := h.foldl (fun s p => p.1.outcome s) ⟨[], []⟩

def newest (h : RosterHistory) : Option ProEvent := h.getLast?.map Prod.snd

/-- The roster of a lead that stands under the firm's d tag. -/
def current (ctx : AnchorContext) (h : RosterHistory) (lead : JsString) : Option ProEvent :=
  (standing ProEvent.address (h.map Prod.snd)).find? fun e =>
    e.address = (proRoster, lead, some (dTag ctx.registry ctx.identifier))

theorem staff_concat (h : RosterHistory) (p : RosterEdit × ProEvent) :
    staff (h ++ [p]) = p.1.outcome h.staff := List.foldl_append

theorem newest_concat (h : RosterHistory) (p : RosterEdit × ProEvent) : newest (h ++ [p]) = some p.2 := by
  simp [newest]

end RosterHistory

/-- A firm, the file on its website, and the revocations that the relays hold. -/
structure Firm where
  ctx : AnchorContext
  identifierKind : JsString
  /-- As hex keys. -/
  leads : List JsString
  file : SignetJson.GenerateSignetJsonOptions
  /-- The host that the file is answered from. -/
  host : JsString
  revocations : List ProEvent

/-- Sequences of edits by leads, each allowed. -/
inductive Edited [Platform] [ProSources] (f : Firm)
    (Allowed : RosterHistory → JsString → RosterEdit → Prop) : RosterHistory → Prop where
  | start : Edited f Allowed []
  | edit {h : RosterHistory} {e : RosterEdit} {ev : ProEvent} {now : ℤ} {revokedAt : JsString} :
    Edited f Allowed h → ev.pubkey ∈ f.leads → Allowed h ev.pubkey e →
    SignedAs (e.template f.ctx f.identifierKind (h.current f.ctx ev.pubkey) now revokedAt) ev →
    Edited f Allowed (h ++ [(e, ev)])

/-- No lead has revoked the member, or the firm. -/
def Firm.Unrevoked [ProSources] (f : Firm) (member : JsString) : Prop :=
  ∀ ev ∈ f.revocations, ¬ Revokes (proDTag f.ctx.registry f.ctx.identifier) f.leads member ev

/-- What the firm's events should say, and the verifier make of them. -/
structure Faithful (S : ProSources) (f : Firm) (professionKind jurisdiction : JsString) (h : RosterHistory) :
    Prop where
  oneAddress : ∀ p ∈ h, p.2.tagValue "d" = some (dTag f.ctx.registry f.ctx.identifier)
  members : ∀ roster ∈ h.newest, ∀ k, roster.hasTag "p" k = true ↔ k ∈ h.staff.members
  delegates : ∀ roster ∈ h.newest, ∀ d, d ≠ [] → (d ∈ delegatesOf roster.tags ↔ d ∈ h.staff.delegates)
  accepted : ∀ roster ∈ h.newest, ∀ credential : ProEvent,
    credential.tagValue "identifier" = some f.ctx.identifier →
    (Accepts (asking S [true] f.revocations) credential roster professionKind jurisdiction ↔
      credential.pubkey ∈ h.staff.members ∧ S.verifyEvent credential = true ∧ f.Unrevoked credential.pubkey)
  /-- For whatever firm the credential is. -/
  nobodyElse : ∀ roster ∈ h.newest, ∀ credential : ProEvent,
    Accepts (asking S [true] f.revocations) credential roster professionKind jurisdiction →
      credential.pubkey ∈ h.staff.members ∧ S.verifyEvent credential = true

/-- The registry knows the firm, and its website answers the file. -/
structure Served [Numerals] (S : ProSources) (npubEncode : JsString → JsString) (f : Firm)
    (professionKind jurisdiction : JsString) : Prop where
  someLead : f.leads ≠ []
  tenLeads : f.leads.length ≤ 10
  hexLeads : ∀ lead ∈ f.leads, isHexOf 64 lead = true
  hexAuthors : ∀ ev ∈ f.revocations, isHexOf 64 ev.pubkey = true
  fileLeads : f.file.leadPubkeyNpubs = f.leads.map npubEncode
  fileIdentifier : f.file.identifier = f.ctx.identifier
  answers : ∃ record website,
    S.registryRecord f.ctx.identifier professionKind jurisdiction = some record ∧
    record.registry = f.ctx.registry ∧ record.identifier = f.ctx.identifier ∧ record.status = lit "Active" ∧
    record.website = some website ∧ website ≠ [] ∧ hostsMatch website f.host = true ∧
    S.signetJson website = SignetJson.fetchProSignetJson (SignetJson.generateSignetJson f.file) f.host

/-- A verifier can read who the firm is. -/
def Firm.Readable [Platform] (f : Firm) : Prop :=
  (SignetJson.generateSignetJson f.file).length ≤ SignetJson.maxFetchBytes ∧ f.ctx.identifier ≠ []

section

variable [Numerals] [S : ProSources] {npubEncode : JsString → JsString} {f : Firm}
  {professionKind jurisdiction : JsString}

omit [Numerals] S in
theorem not_hex_npub {s : JsString} (h : (lit "npub1").isPrefixOf s = true) {n : ℕ} :
    isHexOf n s = false ∧ s ≠ [] := by
  obtain ⟨rest, rfl⟩ := List.isPrefixOf_iff_prefix.1 h
  have hfirst : (lit "npub1").all isHexDigit = false := by decide
  constructor
  · unfold isHexOf
    rw [List.all_append, hfirst, Bool.false_and, Bool.and_false]
  · exact fun hnil => absurd (List.append_eq_nil_iff.1 hnil).1 (by decide)

/-- The firm of its credentials: none while the file cannot be read, otherwise one whose leads are the
file's. -/
theorem firmOf_served (hone : Survives 1) (hnpub : ∀ k, (lit "npub1").isPrefixOf (npubEncode k) = true)
    (h : Served S npubEncode f professionKind jurisdiction) {credential : ProEvent}
    (hcredential : credential.tagValue "identifier" = some f.ctx.identifier) :
    (∃ failure, firmOf credential professionKind jurisdiction = .error failure ∧ ¬ f.Readable) ∨
    ∃ record json, firmOf credential professionKind jurisdiction = .ok (record, json) ∧ f.Readable ∧
      record.registry = f.ctx.registry ∧ record.identifier = f.ctx.identifier ∧
      ∀ k, k ∈ json.leads ↔ k ∈ f.leads.map npubEncode := by
  obtain ⟨record, website, hrecord, hregistry, hidentifier, hactive, hwebsite, hsite, hhosts, hanswer⟩ :=
    h.answers
  by_cases hnone : f.ctx.identifier = []
  · refine .inl ⟨(.chainError, some "no identifier tag on credential"), ?_, fun hreadable => hreadable.2 hnone⟩
    unfold firmOf
    rw [hcredential, hnone]
    rfl
  have hfound : (credential.tagValue "identifier").filter (· ≠ []) = some f.ctx.identifier := by
    rw [hcredential]
    exact if_pos (decide_eq_true hnone)
  have hsite' : record.website.filter (· ≠ []) = some website := by
    rw [hwebsite]
    exact if_pos (decide_eq_true hsite)
  by_cases hfits : (SignetJson.generateSignetJson f.file).length ≤ SignetJson.maxFetchBytes
  · right
    have hkeys : ∀ npub ∈ f.file.leadPubkeyNpubs, npub ≠ [] := by
      intro npub hmem
      rw [h.fileLeads] at hmem
      obtain ⟨k, -, rfl⟩ := List.mem_map.1 hmem
      exact (not_hex_npub (n := 64) (hnpub k)).2
    obtain ⟨json, hjson, hname, hentities, hhost, hleads⟩ := SignetJson.fetchProSignetJson_generate hone
      f.file hfits (by rw [h.fileLeads]; simpa using h.someLead)
      (by rw [h.fileLeads, List.length_map]; exact h.tenLeads) hkeys f.host
    refine ⟨record, json, ?_, ⟨hfits, hnone⟩, hregistry, hidentifier, fun k => by rw [hleads, h.fileLeads]⟩
    have hmatches : json.identifier = f.ctx.identifier := hname.trans h.fileIdentifier
    have hhosts' : hostsMatch website (json.fetchedFromHost.getD website) = true := by
      rw [hhost]
      exact hhosts
    unfold firmOf
    simp only [hfound, hrecord, hactive, hsite', hanswer, hjson, hhosts', hentities, hmatches, ne_eq,
      not_true_eq_false, if_false, Bool.not_true, Bool.false_eq_true]
    rfl
  · left
    have hlong : SignetJson.fetchProSignetJson (SignetJson.generateSignetJson f.file) f.host = none :=
      if_pos (by omega)
    refine ⟨(.chainError, some "signet.json not reachable"), ?_, fun hreadable => hfits hreadable.1⟩
    unfold firmOf
    simp only [hfound, hrecord, hactive, hsite', hanswer, hlong, ne_eq, not_true_eq_false, if_false]

/-- **Whom a roster of a hex key lets in**: nobody, unless its author names itself a delegate; and then no
revocation counts. -/
theorem accepts_iff (hone : Survives 1) (hnpub : ∀ k, (lit "npub1").isPrefixOf (npubEncode k) = true)
    (h : Served S npubEncode f professionKind jurisdiction) {credential roster : ProEvent}
    (hcredential : credential.tagValue "identifier" = some f.ctx.identifier)
    (hauthor : isHexOf 64 roster.pubkey = true) :
    Accepts (asking S [true] f.revocations) credential roster professionKind jurisdiction ↔
      f.Readable ∧ roster.pubkey ∈ delegatesOf roster.tags ∧ roster.hasTag "p" credential.pubkey = true ∧
        verifyEvent credential = true := by
  have hhex : ∀ k, isHexOf 64 k = true → k ∉ f.leads.map npubEncode := by
    intro k hk hmem
    obtain ⟨k', -, rfl⟩ := List.mem_map.1 hmem
    rw [(not_hex_npub (hnpub k')).1] at hk
    cases hk
  unfold Accepts
  rw [@verifyProChain_ok_iff (asking S [true] f.revocations)]
  rcases firmOf_served hone hnpub h hcredential with ⟨failure, hfail, hunreadable⟩ |
    ⟨record, json, hfirm, hreadable, hregistry, hidentifier, hleads⟩
  · constructor
    · rintro ⟨record, json, events, hfirm, -⟩
      cases hfail.symm.trans hfirm
    · exact fun hall => absurd hall.1 hunreadable
  · constructor
    · rintro ⟨record', json', events, hfirm', hevents, hlisted⟩
      obtain ⟨rfl, rfl⟩ := Prod.mk.inj (Except.ok.inj (hfirm.symm.trans hfirm'))
      obtain ⟨hauthority, hlisted, hsigned, -⟩ := hlisted
      rcases hauthority with hlead | hdelegate
      · exact absurd ((hleads _).1 hlead) (hhex _ hauthor)
      · exact ⟨hreadable, hdelegate, hlisted, hsigned⟩
    · rintro ⟨-, hdelegate, hlisted, hsigned⟩
      have hsome : json.leads ≠ [] := by
        obtain ⟨lead, rest, hlead⟩ := List.exists_cons_of_ne_nil h.someLead
        have hmem : npubEncode lead ∈ json.leads := by
          rw [hleads, hlead]
          exact List.mem_cons_self
        exact List.ne_nil_of_mem hmem
      refine ⟨record, json, _, hfirm, if_neg hsome,
        @Checked.mk (asking S [true] f.revocations) _ _ _ _ _ (.inr hdelegate) hlisted hsigned ?_⟩
      intro ev hev
      have hheld : ev ∈ f.revocations := by
        have hanswer := mem_of_mem_firstOfEach hev
        obtain ⟨answer, hgiven, hmem⟩ := List.mem_flatten.1 hanswer
        obtain ⟨answers, hrelay, hsome⟩ := List.mem_filterMap.1 hgiven
        rw [List.mem_singleton.1 hrelay] at hsome
        obtain rfl := Option.some.inj hsome
        exact (List.mem_filter.1 hmem).1
      -- No event is by an author in the file's form.
      rw [@revocationIn_eq_none_iff (asking S [true] f.revocations)]
      intro hlead
      exact absurd ((hleads _).1 hlead) (hhex _ (h.hexAuthors ev hheld))

/-! ## When edits are faithful -/

/-- Can the lead make the edit so that the roster says what it should, and is accepted? -/
structure Sound (f : Firm) (h : RosterHistory) (lead : JsString) (e : RosterEdit) : Prop where
  /-- The roster that the edit starts from names the same people as the firm's newest. -/
  own : (∃ ms ds, e = .write ms ds) ∨ (staffOf (h.current f.ctx lead)).Same (staffOf h.newest)
  carries : e.Carries f.identifierKind f.ctx h.staff
  /-- There is nobody to accept; or the lead is a delegate, and no lead has revoked anyone. -/
  reads : (e.outcome h.staff).members = [] ∨ f.Readable ∧ lead ∈ (e.outcome h.staff).delegates ∧
    ∀ m ∈ (e.outcome h.staff).members, f.Unrevoked m

omit [Numerals] in
theorem Faithful.same {h : RosterHistory} (hf : Faithful S f professionKind jurisdiction h) :
    (staffOf h.newest).Same h.staff := by
  rcases List.eq_nil_or_concat h with rfl | ⟨h, p, rfl⟩
  · exact ⟨fun k => Iff.rfl, fun d _ => Iff.rfl⟩
  · have hnewest := RosterHistory.newest_concat h p
    rw [List.concat_eq_append] at hf ⊢
    rw [hnewest]
    constructor
    · intro k
      show k ∈ (staffOfTags p.2.tags).members ↔ _
      rw [← hasTag_p_iff]
      exact hf.members p.2 hnewest k
    · intro d hd
      show d ∈ (staffOfTags p.2.tags).delegates ↔ _
      rw [← mem_delegatesOf_iff hd]
      exact hf.delegates p.2 hnewest d hd

/-- **A sound edit** leaves the firm's events faithful. -/
theorem Faithful.edit (hone : Survives 1) (hnpub : ∀ k, (lit "npub1").isPrefixOf (npubEncode k) = true)
    (hserved : Served S npubEncode f professionKind jurisdiction) {h : RosterHistory} {e : RosterEdit}
    {ev : ProEvent} {now : ℤ} {revokedAt : JsString} (hf : Faithful S f professionKind jurisdiction h)
    (hlead : ev.pubkey ∈ f.leads) (hsound : Sound f h ev.pubkey e)
    (hsigned : SignedAs (e.template f.ctx f.identifierKind (h.current f.ctx ev.pubkey) now revokedAt) ev) :
    Faithful S f professionKind jurisdiction (h ++ [(e, ev)]) := by
  have hnewest := RosterHistory.newest_concat h (e, ev)
  have hstaff := RosterHistory.staff_concat h (e, ev)
  have hown := hsound.own.imp id fun hsame => hsame.trans hf.same
  have hsame : (staffOfTags ev.tags).Same (e.outcome h.staff) := by
    rw [hsigned.tags]
    exact template_same hsound.carries hown now revokedAt
  have hmembers : ∀ k, ev.hasTag "p" k = true ↔ k ∈ (e.outcome h.staff).members := by
    intro k
    rw [hasTag_p_iff]
    exact hsame.members k
  have hdelegates : ∀ d, d ≠ [] → (d ∈ delegatesOf ev.tags ↔ d ∈ (e.outcome h.staff).delegates) := by
    intro d hd
    rw [mem_delegatesOf_iff hd]
    exact hsame.delegates d hd
  have hlisted : ∀ credential : ProEvent,
      Accepts (asking S [true] f.revocations) credential ev professionKind jurisdiction →
        credential.pubkey ∈ (e.outcome h.staff).members ∧ S.verifyEvent credential = true := by
    intro credential haccepts
    obtain ⟨_, _, _, -, -, -, hlisted, hsigned, -⟩ :=
      (@verifyProChain_ok_iff (asking S [true] f.revocations) _ _ _ _).1 haccepts
    exact ⟨(hmembers _).1 hlisted, hsigned⟩
  constructor
  · intro p hp
    rcases List.mem_append.1 hp with hp | hp
    · exact hf.oneAddress p hp
    · rw [List.mem_singleton.1 hp]
      exact template_dTag hsound.carries _ now revokedAt hsigned.tags
  · rw [hnewest, hstaff]
    rintro roster ⟨⟩
    exact hmembers
  · rw [hnewest, hstaff]
    rintro roster ⟨⟩
    exact hdelegates
  · rw [hnewest, hstaff]
    rintro roster ⟨⟩ credential hcredential
    have hhex := hserved.hexLeads ev.pubkey hlead
    have hkey : ev.pubkey ≠ [] := by
      intro hnil
      rw [hnil] at hhex
      cases hhex
    rcases hsound.reads with hnobody | ⟨hreadable, hdelegate, hunrevoked⟩
    · constructor
      · intro haccepts
        have hmem := (hlisted credential haccepts).1
        rw [hnobody] at hmem
        cases hmem
      · rintro ⟨hmem, -⟩
        have hmem : credential.pubkey ∈ (e.outcome h.staff).members := hmem
        rw [hnobody] at hmem
        cases hmem
    · rw [accepts_iff hone hnpub hserved hcredential hhex, hmembers]
      constructor
      · rintro ⟨-, -, hmem, hsigned⟩
        exact ⟨hmem, hsigned, hunrevoked _ hmem⟩
      · rintro ⟨hmem, hsigned, -⟩
        exact ⟨hreadable, (hdelegates _ hkey).2 hdelegate, hmem, hsigned⟩
  · rw [hnewest, hstaff]
    rintro roster ⟨⟩
    exact hlisted

/-- **What the app publishes for a firm is what its verifier accepts**, in every history of sound edits. -/
theorem faithful_of_sound (hone : Survives 1)
    (hnpub : ∀ k, (lit "npub1").isPrefixOf (npubEncode k) = true)
    (hserved : Served S npubEncode f professionKind jurisdiction) {h : RosterHistory}
    (hedited : Edited f (Sound f) h) : Faithful S f professionKind jurisdiction h := by
  induction hedited with
  | start =>
    constructor
    · intro p hp
      cases hp
    all_goals
      intro roster hroster
      cases hroster
  | edit _ hlead hsound hsigned ih => exact ih.edit hone hnpub hserved hlead hsound hsigned

end

/-! ## A practice's rosters -/

attribute [local instance] Sync.decimalNumerals

/-- `npubEncode`, of the practice's lead; of other keys only the form is right. -/
def practiceNpub (k : JsString) : JsString :=
  if k = practiceLead then lit "npub10xlxvlhemja6c4dqv22uapctqupfhlxm9h8z3k2e72q4k9hcz7vqpkge6d"
  else lit "npub1" ++ k

def practice : Firm where
  ctx := practiceContext
  identifierKind := practiceKind
  leads := [practiceLead]
  file := ⟨practiceContext.professionKind, practiceContext.entityName, practiceContext.identifier, practiceKind,
    [practiceNpub practiceLead], lit "springfield.gp.nhs.uk", [lit "wss://relay.example"],
    lit "2023-11-14T22:13:20.000Z"⟩
  host := lit "springfield.gp.nhs.uk"
  revocations := []

/-- An edit by the lead after others, with its event. -/
def byLead (h : RosterHistory) (id : JsString) (now : ℤ) (e : RosterEdit) : RosterEdit × ProEvent :=
  (e, signedBy practiceLead id (e.template practice.ctx practice.identifierKind
    (h.current practice.ctx practiceLead) now (lit "2023-11-14T22:13:20.000Z")))

def aliceMember : RosterMember := ⟨practiceAlice, lit "gp", none⟩

/-- Alice is on the roster. -/
def aliceWritten : RosterHistory := [byLead [] (lit "b1") 1700000000 (.write [aliceMember] [])]

/-- Alice is, and the lead is its own delegate. -/
def leadDelegated : RosterHistory := [byLead [] (lit "b2") 1700000000 (.write [aliceMember] [practiceLead])]

def bobAppended : RosterHistory :=
  leadDelegated ++ [byLead leadDelegated (lit "b3") 1700000001 (.append practiceBob (lit "nurse"))]

def aliceRemoved : RosterHistory :=
  leadDelegated ++ [byLead leadDelegated (lit "b4") 1700000001 (.removeMember practiceAlice)]

def bobDelegated : RosterHistory :=
  leadDelegated ++ [byLead leadDelegated (lit "b5") 1700000001 (.update (some practiceBob) none)]

/-- The practice's registry and website agree, and its events are validly signed. -/
@[reducible] def rosterSources : ProSources where
  verifyEvent e := e = aliceCredential ||
    (aliceWritten ++ bobAppended ++ aliceRemoved ++ bobDelegated).any fun p => e = p.2
  urlHost _ := some (lit "springfield.gp.nhs.uk")
  registryRecord _ _ _ := some ⟨lit "CQC", lit "1-123456789", lit "Springfield Practice", lit "Active",
    some (lit "springfield.gp.nhs.uk")⟩
  signetJson _ := SignetJson.fetchProSignetJson (SignetJson.generateSignetJson practice.file) practice.host
  fetchEvents _ _ := some []

theorem practice_served : Served rosterSources practiceNpub practice (lit "gp-practice") (lit "england") where
  someLead := List.cons_ne_nil _ _
  tenLeads := by decide
  hexLeads := by decide
  hexAuthors := by
    intro ev hev
    cases hev
  fileLeads := rfl
  fileIdentifier := rfl
  answers := ⟨_, lit "springfield.gp.nhs.uk", rfl, rfl, rfl, rfl, rfl, by decide, by decide, rfl⟩

theorem practiceNpub_form (k : JsString) : (lit "npub1").isPrefixOf (practiceNpub k) = true := by
  unfold practiceNpub
  split
  · decide
  · exact List.isPrefixOf_iff_prefix.2 (List.prefix_append _ _)

theorem survives_one : Survives 1 := by
  have hone := Sync.integersSurvive_decimal 1
  rwa [Int.cast_one] at hone

theorem edited_byLead {Allowed : RosterHistory → JsString → RosterEdit → Prop} {h : RosterHistory}
    {id : JsString} {now : ℤ} {e : RosterEdit} (hedited : @Edited _ rosterSources practice Allowed h)
    (hallowed : Allowed h practiceLead e) (hsigned : rosterSources.verifyEvent (byLead h id now e).2 = true) :
    @Edited _ rosterSources practice Allowed (h ++ [byLead h id now e]) :=
  @Edited.edit _ rosterSources _ _ _ _ _ now _ hedited (List.mem_singleton_self _) hallowed
    (@SignedAs.mk rosterSources _ _ rfl rfl rfl rfl hsigned)

/-- Edits that are not faithful: a first roster, by which nobody is accepted; an append, that drops a delegate;
and a removal, that is elsewhere. -/
theorem rosters_not_faithful :
    Served rosterSources practiceNpub practice (lit "gp-practice") (lit "england") ∧
    ∀ h ∈ [aliceWritten, bobAppended, aliceRemoved], @Edited _ rosterSources practice (fun _ _ _ => True) h ∧
      ¬ Faithful rosterSources practice (lit "gp-practice") (lit "england") h := by
  have hstart : @Edited _ rosterSources practice (fun _ _ _ => True) [] := @Edited.start _ rosterSources _ _
  have hdelegated : @Edited _ rosterSources practice (fun _ _ _ => True) leadDelegated :=
    edited_byLead hstart trivial (by decide +kernel)
  refine ⟨practice_served, ?_⟩
  simp only [List.mem_cons, List.not_mem_nil, or_false, forall_eq_or_imp, forall_eq]
  refine ⟨⟨edited_byLead hstart trivial (by decide +kernel), fun hf => ?_⟩,
    ⟨edited_byLead hdelegated trivial (by decide +kernel), fun hf => ?_⟩,
    ⟨edited_byLead hdelegated trivial (by decide +kernel), fun hf => ?_⟩⟩
  · have haccepts := (hf.accepted _ rfl aliceCredential (by decide +kernel)).2
      ⟨List.mem_singleton_self _, by decide +kernel, fun ev hev => (by cases hev)⟩
    have hdelegate := ((@accepts_iff _ rosterSources _ _ _ _ survives_one practiceNpub_form practice_served _ _
      (by decide +kernel) (by decide +kernel)).1 haccepts).2.1
    revert hdelegate
    decide +kernel
  · have hdelegate := (hf.delegates _ rfl practiceLead (by decide +kernel)).2 (List.mem_singleton_self _)
    revert hdelegate
    decide +kernel
  · have haddress := hf.oneAddress (byLead leadDelegated (lit "b4") 1700000001 (.removeMember practiceAlice))
      (List.mem_append_right _ (List.mem_singleton_self _))
    revert haddress
    decide +kernel

/-- With the lead as its own delegate, another delegate can be added. -/
theorem faithful_of_sound_bob :
    Faithful rosterSources practice (lit "gp-practice") (lit "england") bobDelegated := by
  have hreadable : practice.Readable := ⟨by decide +kernel, by decide +kernel⟩
  have hunrevoked : ∀ m, @Firm.Unrevoked rosterSources practice m := by
    intro m ev hev
    cases hev
  have hcurrent : leadDelegated.current practice.ctx practiceLead = leadDelegated.newest := by
    decide +kernel
  have hfirst : @Sound _ rosterSources practice [] practiceLead (.write [aliceMember] [practiceLead]) :=
    @Sound.mk _ rosterSources _ _ _ _ (.inl ⟨_, _, rfl⟩) trivial
      (.inr ⟨hreadable, List.mem_singleton_self _, fun m _ => hunrevoked m⟩)
  have hsecond : @Sound _ rosterSources practice leadDelegated practiceLead (.update (some practiceBob) none) := by
    refine @Sound.mk _ rosterSources _ _ _ _ (.inr ?_) trivial
      (.inr ⟨hreadable, by decide +kernel, fun m _ => hunrevoked m⟩)
    rw [hcurrent]
    exact ⟨fun k => Iff.rfl, fun d _ => Iff.rfl⟩
  have hedited : @Edited _ rosterSources practice (@Sound _ rosterSources practice) leadDelegated :=
    edited_byLead (@Edited.start _ rosterSources _ _) hfirst (by decide +kernel)
  exact @faithful_of_sound _ rosterSources _ _ _ _ survives_one practiceNpub_form practice_served _
    (edited_byLead hedited hsecond (by decide +kernel))

end SignetApp.Professional
