import SignetApp.ChildPhone.Tasks

/-!
# One slot for a phone

What holds of every run of the pairing hook, and a run that mints late.
-/

namespace SignetApp.ChildPhone

open SignetApp.Js SignetApp.Async
open SignetApp.Family (DeviceClientSlot CompilerDependant)

/-! ## What was minted -/

section

variable [PairSdk] {w : World} (H : Heartwood)

/-- The calls of `nostrconnectV2` that were made. -/
def mintCalls (log : List (Did Action World)) : List MintCall := log.filterMap fun did => did.label.mintCall

omit [PairSdk] H in
theorem mintCalls_concat (log : List (Did Action World)) (did : Did Action World) :
    mintCalls (log ++ [did]) = mintCalls log ++ did.label.mintCall.toList := by
  unfold mintCalls
  rw [List.filterMap_append]
  cases hlabel : did.label.mintCall <;> simp [hlabel]

def MintCall.code (call : MintCall) : JsString := call.confirmation.session.code

variable {d : Device} {clock : ℕ} {log : List (Did Action World)} {ts : List (Op Unit)}

/-- What was minted for once stays so, and no code is minted for again. -/
theorem mintCalls_once (hd : ∀ s ∈ d.slots, fingerprintOf s ∈ d.issued)
    (h : Run (Starts H) (World.initial d clock) log w ts) :
    ((mintCalls log).map MintCall.code).Nodup ∧ ∀ call ∈ mintCalls log,
      1 ≤ w.minted call.confirmation.session.gen ∧
      (call.confirmation.session.gen, call.code) ∈ w.offers := by
  induction h with
  | init =>
    refine ⟨List.nodup_nil, fun call hcall => ?_⟩
    cases hcall
  | start _ _ ih => exact ih
  | drop _ ih => exact ih
  | @act log w ts us γ β label run next c hrun ih =>
    obtain ⟨hnodup, hcalls⟩ := ih
    have hsound := (Discipline.sound_of_run (invariant_initial hd clock) (fun _ => keeps_of_starts H) hrun).1
    obtain ⟨permits, hinv⟩ := hsound.inv
    obtain ⟨hguarantee, hev, -⟩ := hsound.act c
    have hstill : ∀ call ∈ mintCalls log, 1 ≤ (run c w).2.minted call.confirmation.session.gen ∧
        (call.confirmation.session.gen, call.code) ∈ (run c w).2.offers := by
      intro call hcall
      obtain ⟨hminted, hoffer⟩ := hcalls call hcall
      exact ⟨hminted.trans (hev.minted _), hev.offers _ hoffer⟩
    rw [mintCalls_concat]
    dsimp only
    cases hlabel : label.mintCall with
    | none =>
      rw [Option.toList_none, List.append_nil]
      exact ⟨hnodup, hstill⟩
    | some call =>
      obtain rfl : label = .mint call := by
        cases label <;> simp_all [Action.mintCall]
      obtain ⟨hallowed, hminted⟩ := hguarantee.sound
      rw [Option.toList_some]
      refine ⟨?_, ?_⟩
      · rw [List.map_append, List.map_singleton, List.nodup_append']
        refine ⟨hnodup, List.nodup_singleton _, ?_⟩
        rw [List.disjoint_singleton]
        intro hmem
        obtain ⟨call', hcall', hcode⟩ := List.mem_map.1 hmem
        -- Two offers under one code are one, and that was minted for already.
        obtain ⟨hminted', hoffer'⟩ := hcalls call' hcall'
        have hpair := List.inj_on_of_nodup_map hinv.1.codes hoffer' hallowed.offer hcode
        rw [Prod.mk.injEq] at hpair
        rw [hpair.1, hallowed.once] at hminted'
        exact absurd hminted' (by decide)
      · intro call' hcall'
        rcases List.mem_append.1 hcall' with hcall' | hcall'
        · exact hstill call' hcall'
        · rw [List.mem_singleton.1 hcall']
          exact ⟨hminted, hev.offers _ hallowed.offer⟩

theorem made_by_call (hd : ∀ s ∈ d.slots, fingerprintOf s ∈ d.issued)
    (h : Run (Starts H) (World.initial d clock) log w ts) :
    ∀ m ∈ w.made, ∃ call ∈ mintCalls log, m.gen = call.confirmation.session.gen ∧
      m.clientPubkey = call.request.clientPubkey := by
  induction h with
  | init =>
    intro m hm
    cases hm
  | start _ _ ih => exact ih
  | drop _ ih => exact ih
  | act c hrun ih =>
    have hsound := (Discipline.sound_of_run (invariant_initial hd clock) (fun _ => keeps_of_starts H) hrun).1
    obtain ⟨hguarantee, -, -⟩ := hsound.act c
    intro m hm
    rw [mintCalls_concat]
    rcases hguarantee.made m hm with hm | hmakes
    · obtain ⟨call, hcall, hmade⟩ := ih m hm
      exact ⟨call, List.mem_append_left _ hcall, hmade⟩
    · obtain ⟨call, hlabel, hmade⟩ := Action.makes_iff.1 hmakes
      exact ⟨call, List.mem_append_right _ (Option.mem_toList.2 hlabel), hmade⟩

/-- What holds of a run of the hook. -/
structure PairsSafely (log : List (Did Action World)) (w : World) : Prop where
  /-- A code is minted for once. -/
  once : ((mintCalls log).map MintCall.code).Nodup
  /-- A mint is for the one phone that answered the code, and that the guardian confirmed by its words. -/
  allowed : ∀ did ∈ log, ∀ call, did.label = .mint call → MintAllowed did.before call
  /-- What is saved as the child's device was verified. -/
  verified : ∀ did ∈ log, ∀ s, did.label = .save s → ∀ p ∈ s.minted,
    (verifyMintedSlot p.1 p.2).isSome = true ∧ s.dep.current = some p.2.slot
  /-- A slot that was made and is there: its attempt is not over, or it saved the dependant, or it said
  that it could not tell. -/
  stranded : ∀ m ∈ w.made, On m w.device →
    (∃ call ∈ mintCalls log, m.gen = call.confirmation.session.gen ∧
      m.clientPubkey = call.request.clientPubkey) ∧
    ∀ did ∈ log, ∀ state, did.label = .ends m.gen state → m.gen ∈ w.saved ∨ state = .error .mintUnconfirmed
  /-- The slot of the phone that is paired goes only for a phone that was saved. -/
  replaced : ∀ did ∈ log, ∀ r, did.label = .revoke r →
    r.gen ∈ did.before.saved ∨ isSameSlot r.slot r.current = false

/-- **Pairing a child's phone mints at most one slot, and strands none**, whatever its tasks, the phones
and the Heartwood do, in whatever order. -/
theorem pairing_mints_one_slot (hd : ∀ s ∈ d.slots, fingerprintOf s ∈ d.issued)
    (h : Run (Starts H) (World.initial d clock) log w ts) : PairsSafely log w := by
  have hsound := (Discipline.sound_of_run (invariant_initial hd clock) (fun _ => keeps_of_starts H) h).2
  have hevolves := Discipline.evolves_of_run (invariant_initial hd clock) (fun _ => keeps_of_starts H) h
  refine { once := (mintCalls_once H hd h).1, allowed := ?_, verified := ?_, stranded := ?_, replaced := ?_ }
  · intro did hdid call hlabel
    have hdone := (hsound did hdid).1.sound
    rw [hlabel] at hdone
    exact hdone.1
  · intro did hdid s hlabel
    have hdone := (hsound did hdid).1.sound
    rw [hlabel] at hdone
    exact hdone
  · intro m hm hon
    refine ⟨made_by_call H hd h m hm, ?_⟩
    intro did hdid state hlabel
    have hdone := (hsound did hdid).1.sound
    have hev := (hevolves did hdid).2
    rw [hlabel] at hdone
    obtain ⟨hended, hclean⟩ := hdone
    by_contra hnot
    rw [not_or] at hnot
    have hmade := hev.made m hm (.inr hended)
    exact hclean (fun hsaved => hnot.1 (hev.saved _ hsaved)) hnot.2 m hmade rfl (hev.gone m hmade hon)
  · intro did hdid r hlabel
    have hdone := (hsound did hdid).1.sound
    rw [hlabel] at hdone
    exact hdone

end

/-! ## A late mint -/

def sampleKey : JsString := lit "79be667ef9dcbbac55a06295ce870b07029bfcdb2dce28d959f2815b16f81798"
def samplePersona : JsString := lit "c6047f9441ed7d6d3045406e95c07cd85c778e4b8cef3ca7abac09b95c709ee5"
def sampleRail : JsString := lit "f9308a019258c31049344f85f89d5229b531c845836f99b08601f113bce036f9"
def sampleCode : JsString := lit "0123456789abcdef000000000001cf24"
def sampleRelay : JsString := lit "wss://relay.example"
def sampleLink : JsString :=
  lit "nostrconnect://79be667ef9dcbbac55a06295ce870b07029bfcdb2dce28d959f2815b16f81798?secret=s3cr3t"
def sampleSecret : JsString := lit "s3cr3t"

/-- The words of the sample's code and key, and the reading of its link. -/
@[reducible]
def samplePairSdk : PairSdk where
  pairCheckWords _ _ := [lit "alien", lit "asthma", lit "autumn", lit "addict"]
  parseNostrConnectURI uri := if uri = sampleLink then some ⟨sampleKey, sampleSecret⟩ else none

attribute [local instance] samplePairSdk

/-- A fingerprint that is longer than every other. -/
def freshFingerprint (d : Device) : JsString :=
  List.replicate ((d.issued.map List.length).foldr max 63 + 1) 97

theorem freshFingerprint_fresh (d : Device) : freshFingerprint d ∉ d.issued := by
  intro hmem
  have hle : ∀ l : List ℕ, ∀ n ∈ l, n ≤ l.foldr max 63 := by
    intro l
    induction l with
    | nil =>
      intro n hn
      cases hn
    | cons k l ih =>
      intro n hn
      rw [List.foldr_cons]
      rcases List.mem_cons.1 hn with rfl | hn
      · exact le_max_left _ _
      · exact (ih n hn).trans (le_max_right _ _)
  have hlength := hle _ _ (List.mem_map_of_mem (f := List.length) hmem)
  unfold freshFingerprint at hlength
  rw [List.length_replicate] at hlength
  omega

theorem toLowerCase_freshFingerprint (d : Device) : toLowerCase (freshFingerprint d) = freshFingerprint d := by
  unfold freshFingerprint toLowerCase
  rw [List.map_replicate]
  rfl

def sampleSlot (req : MintRequest) (d : Device) : DeviceClientSlot where
  slotIndex := d.slots.length
  label := req.label
  secretFingerprint := freshFingerprint d
  autoApprove := req.policy.autoApprove
  signingApproved := true
  strictPermissions := false
  currentPubkey := some (toLowerCase req.clientPubkey)
  authorizedPubkeys := []
  allowedKinds := req.policy.allowedKinds
  allowedMethods := req.policy.allowedMethods
  escalate := req.policy.escalate
  petitionOnDeny := req.policy.petitionOnDeny
  auditChildWrap := req.policy.auditChildWrap
  boundIdentity := some req.identity

/-- A Heartwood that answers, or fails before it does anything. -/
def sampleHeartwood : Heartwood where
  Choice := Bool
  mint works req d :=
    if works then
      (.ok
        { slotIndex := some (sampleSlot req d).slotIndex
          secretFingerprint := some (sampleSlot req d).secretFingerprint
          identity := some req.identity
          policyVersion := some 2
          allowedMethods := some req.policy.allowedMethods
          allowedKinds := some req.policy.allowedKinds
          autoApprove := some req.policy.autoApprove },
        ⟨d.slots ++ [sampleSlot req d], fingerprintOf (sampleSlot req d) :: d.issued⟩)
    else (.error (), d)
  revoke works ref d :=
    if works then
      (.ok ⟨true, some ref.slotIndex⟩, { d with slots := d.slots.filter fun s => !(refOf s).same ref })
    else (.error (), d)
  list works d := if works then .ok d.slots else .error ()
  move _ d := ⟨d.slots, d.slots.map fingerprintOf ++ d.issued⟩
  mint_spec works req d := by
    cases works with
    | false => exact .inl ⟨rfl, (), rfl⟩
    | true =>
      right
      refine ⟨sampleSlot req d, { fresh := ?_, label := rfl, client := rfl }, rfl, fun r hr => ?_⟩
      · show toLowerCase (freshFingerprint d) ∉ d.issued
        rw [toLowerCase_freshFingerprint]
        exact freshFingerprint_fresh d
      · cases hr
        refine ⟨fun i hi => (Option.some.inj hi).symm, fun f hf => ?_⟩
        rw [← Option.some.inj hf]
        rfl
  revoke_spec works ref d := by
    cases works with
    | false => exact ⟨rfl, fun _ hs => hs, fun r hr => by cases hr⟩
    | true =>
      refine ⟨rfl, fun s hs => (List.mem_filter.1 hs).1, fun r _ _ s hs => ?_⟩
      have hnot := (List.mem_filter.1 hs).2
      rwa [Bool.not_eq_true'] at hnot
  list_spec works d slots hlist := by
    cases works with
    | false => cases hlist
    | true => exact (Except.ok.inj hlist).symm
  move_spec _ d := by
    refine ⟨fun f hf => List.mem_append_right _ hf, fun s hs => ⟨?_, fun _ => ⟨s, hs, ?_, rfl, rfl⟩⟩⟩
    · exact List.mem_append_left _ (List.mem_map_of_mem hs)
    · exact same_iff.2 ⟨rfl, rfl⟩

def sampleClock : ℕ := 1700000000000

def sampleDep : DependantIdentity where
  id := lit "d1"
  personaKey := samplePersona
  bunkerEndpoint := some ⟨sampleRail, samplePersona⟩
  childDevice := none

def sampleSession : Session where
  gen := 1
  code := sampleCode
  expiresAtMs := sampleClock + childPairTtl * 1000
  persona := samplePersona
  label := childDirectSlotLabel (lit "d1")
  relay := sampleRelay
  dep := sampleDep
  request := none

def sampleRequest : ChildPairRequest where
  code := sampleCode
  nostrconnect := sampleLink
  clientPubkey := sampleKey
  createdAt := 1700000000

/-- The offer is shown. -/
def sampleOffered : World :=
  { World.initial ⟨[], []⟩ sampleClock with
    gen := 1
    session := some sampleSession
    screen := .offer sampleSession.expiresAtMs
    offers := [(1, sampleCode)]
    cancelled := [0] }

theorem alone_start : Alone (start sampleHeartwood) (World.initial ⟨[], []⟩ sampleClock) (.ok ())
    sampleOffered := by
  refine .bind (.once () rfl) ?_
  refine .bind (.once (.ok true) rfl) ?_
  refine .bind (.once sampleDep rfl) ?_
  refine .bind (.once () rfl) ?_
  refine .bind (.once (.ok { hasOperator := true, status := some (some true), guardianNpPubkey := sampleRail
                             railRelay := sampleRelay, hwRelays := [sampleRelay] }) rfl) ?_
  refine .bind (.once (true : Bool) rfl) ?_
  refine .bind (.once () rfl) ?_
  refine .bind (.done (some sampleDep) _) ?_
  refine .bind (.once (.ok sampleCode) rfl) ?_
  refine .bind (.once () rfl) ?_
  refine .bind (.once () rfl) ?_
  refine .bind (.once (.ok true) rfl) ?_
  refine .bind (.once () rfl) ?_
  exact .once () rfl

/-- A phone has answered, and its words are shown. -/
def sampleAnswered : World :=
  { sampleOffered with
    session := some { sampleSession with request := some sampleRequest }
    screen := .confirm [lit "alien", lit "asthma", lit "autumn", lit "addict"] sampleKey
    heard := [(1, sampleKey)]
    displayed := [⟨1, [lit "alien", lit "asthma", lit "autumn", lit "addict"], sampleKey⟩] }

theorem alone_request : Alone (onRequestEvent 1) sampleOffered (.ok ()) sampleAnswered := by
  refine .bind (.once () rfl) ?_
  refine .bind (.once (.ok (some sampleRequest)) rfl) ?_
  exact .once () rfl

def sampleConfirmation : Confirmation :=
  ⟨{ sampleSession with request := some sampleRequest }, sampleRequest, sampleClock⟩

def sampleConfirmed : World :=
  { sampleAnswered with session := none, confirmed := [sampleConfirmation] }

theorem alone_confirm : Alone confirm sampleAnswered (.ok sampleConfirmation) sampleConfirmed :=
  .once () rfl

/-- The child's rules: all is paused. -/
def sampleRules : CompilerDependant where
  id := lit "d1"
  identityPubkeys := [samplePersona]
  dormantIdentityPubkeys := []
  autonomyStage := .requestApprove
  hasDefaultSchedule := true
  auditVisible := false
  petitionOnDeny := false
  grants := []
  defaultSchedulePaused := true

def samplePrepared : Prepared where
  dep := sampleDep
  seedPending := false
  call :=
    { confirmation := sampleConfirmation
      request :=
        { clientPubkey := sampleKey, secret := sampleSecret, createdAt := 1700000000, relay := sampleRelay
          identity := samplePersona, label := childDirectSlotLabel (lit "d1")
          policy := { Family.lockedSlotPolicy with boundIdentity := some samplePersona } } }

def sampleReady : World := { sampleConfirmed with screen := .minting, passed := [1] }

theorem alone_readDependant (s : Session) (w : World) : Alone (readDependant s) w (.ok s.dep) w := by
  refine .bind (.once (.ok false) rfl) ?_
  exact .done s.dep w

theorem alone_prepare : Alone (prepare sampleHeartwood sampleConfirmation) sampleConfirmed
    (.ok samplePrepared) sampleReady := by
  refine .bind (.once (.ok true) rfl) ?_
  refine .bind (.once (.ok true) rfl) ?_
  refine .bind (.once () rfl) ?_
  refine .bind (alone_readDependant _ _) ?_
  refine .bind (.once () rfl) ?_
  refine .bind (.once (true : Bool) rfl) ?_
  refine .bind (.once (.ok false) rfl) ?_
  refine .bind (.once () rfl) ?_
  refine .bind (.once () rfl) ?_
  refine .bind (.once (.ok (some sampleRules)) rfl) ?_
  exact .done samplePrepared _

/-- Some time after, and cancelled. -/
def sampleLate : World :=
  { sampleReady with clock := sampleClock + 700000, gen := 2, screen := .idle }

def sampleEnd : World :=
  { (sampleLate.mint sampleHeartwood samplePrepared.call true).2 with saved := [1], ended := [1] }

theorem run_late : ∃ log, Run (Starts sampleHeartwood) (World.initial ⟨[], []⟩ sampleClock) log
    sampleEnd [] ∧ ∃ did ∈ log, did.before = sampleLate ∧ did.label = .mint samplePrepared.call := by
  have hinit : Run (Starts sampleHeartwood) (World.initial ⟨[], []⟩ sampleClock) []
      (World.initial ⟨[], []⟩ sampleClock) [] := .init
  obtain ⟨log₁, hoffered⟩ := (hinit.start .start).alone_of_head alone_start
  obtain ⟨log₂, hanswered⟩ := (hoffered.start (.request 1)).alone_of_head alone_request
  obtain ⟨log₃, hconfirmed⟩ := (hanswered.start .confirm).head_bind alone_confirm
  obtain ⟨log₄, hready⟩ := hconfirmed.head_bind alone_prepare
  obtain ⟨log₅, hticked⟩ := (hready.start (.tick 700000)).alone_of_head (.once () rfl)
  obtain ⟨log₆, hlate⟩ := (hticked.start .cancel).alone_of_head (.once () rfl)
  have hminted := Run.act true (show Run _ _ _ sampleLate ([] ++ Async.act _ _ _ :: []) from hlate)
  obtain ⟨log₇, hend⟩ := @Run.alone_of_head _ _ _ _ _ _ _ sampleEnd (.ok ()) (by
    refine .bind (.done _ _) ?_
    refine .bind (.once true rfl) ?_
    refine .bind (.once () rfl) ?_
    refine .bind (.once true rfl) ?_
    refine .bind (.done true _) ?_
    exact .once () rfl) _ _ hminted
  refine ⟨_, hend, _, List.mem_append_left _ (List.mem_append_right _ (List.mem_singleton_self _)), rfl, rfl⟩

/-- A mint may come after its code has expired, for a request that is too old, and after a cancellation. -/
theorem mint_may_be_late : ∃ log w ts, Run (Starts sampleHeartwood) (World.initial ⟨[], []⟩ sampleClock) log w ts ∧
    ∃ did ∈ log, ∃ call, did.label = .mint call ∧ call.confirmation.session.expiresAtMs < did.before.clock ∧
      pairRequestMaxAge < (did.before.clock / 1000 : ℕ) - call.confirmation.request.createdAt ∧
      call.confirmation.session.gen < did.before.gen ∧ did.before.screen = .idle := by
  obtain ⟨log, hrun, did, hdid, hbefore, hlabel⟩ := run_late
  refine ⟨log, sampleEnd, [], hrun, did, hdid, samplePrepared.call, hlabel, ?_⟩
  rw [hbefore]
  decide

/-- What holds of every run holds of one that mints. -/
theorem pairing_mints_one_slot_late : ∃ log, Run (Starts sampleHeartwood) (World.initial ⟨[], []⟩ sampleClock)
    log sampleEnd [] ∧ sampleEnd.device.slots.length = 1 ∧ PairsSafely log sampleEnd := by
  obtain ⟨log, hrun, -⟩ := run_late
  exact ⟨log, hrun, rfl, pairing_mints_one_slot sampleHeartwood (fun s hs => by cases hs) hrun⟩

end SignetApp.ChildPhone
