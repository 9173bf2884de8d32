import SignetApp.Bots.AppConsent
import SignetApp.Bots.Allocation
import SignetApp.Sync.TextSize

/-!
# Live consent

A bot signs for an app, and answers it, under a grant that the last read showed to be live. What the
device forgets is told apart: a handler remembers what it took up, and another one does not; and the
store of grants, which never forgets, has room for `maxGrants`.
-/

namespace SignetApp.Bots

open SignetApp.Js SignetApp.Sync SignetApp.Async
open SignetApp.Contacts (sanitizeDisplayName)
open SignetApp.Apps (isString)

/-! ## Tasks on their own -/

/-- Run alone from `w`, the task may answer `a` and leave `w'`. -/
abbrev Answers {α : Type} (t : Op α) (w : World) (a : α) (w' : World) : Prop := Alone t w (.ok a) w'

section

variable {α : Type} {w w' : World}

theorem answers_outside (a : α) : Answers (outside α) w a w := Alone.once (.ok a) rfl

theorem answers_now : Answers now w w.clock w := Alone.once () rfl

theorem answers_once {γ : Type} {label : Action} {run : γ → World → Except Unit α × World} (c : γ) {a : α}
    (h : run c w = (.ok a, w')) : Answers (Async.once label run) w a w' := by
  apply Alone.act c
  rw [h]
  exact .done a w'

theorem answers_read {f : World → Option α} {a : α} (h : f w = some a) : Answers (read f) w a w := by
  apply answers_once true
  simp only [h]

theorem answers_loadBotRegistry : Answers loadBotRegistry w w.registry w := answers_read rfl

theorem answers_write {f : World → Option World} (h : f w = some w') : Answers (write f) w () w' := by
  apply answers_once true
  simp only [h]

theorem answers_throwIf {condition : Bool} (h : condition = false) : Answers (throwIf condition) w () w := by
  subst h
  exact .done () w

end

section

variable [Numerals] [ContentHash] {root : JsString} {w : World} {h : HandlerOptions} {event : NostrEvent}
  {grant : BotAppGrant}

omit [Numerals] [ContentHash] in
theorem answers_approve (hstored : Stored root w.grants) (hclock : isStamp w.clock = true)
    (hroom : w.grants.length < maxGrants) (hvalid : approvable root grant = true)
    (hcreated : grant.createdAt ≤ w.clock) (hexpires : (w.clock : ℚ) < grant.expiresAt)
    (hlive : isLive w.registry grant.botPubkey = true) (hnew : ∀ g ∈ w.grants, g.id ≠ grant.id) :
    Answers (approveBotAppGrant root grant) w ()
      { w with grants := w.grants.map (revokeOlder w.clock grant.clean) ++ [grant.clean] } := by
  have hclean : grant.clean.valid root = true := by
    have hparse : (parseGrants [grant.clean] root).isSome = true := by
      unfold approvable at hvalid
      rw [Bool.and_eq_true] at hvalid
      exact hvalid.1
    obtain ⟨grants, hgrants⟩ := Option.isSome_iff_exists.1 hparse
    exact (stored_iff.1 hgrants).2.valid grant.clean (List.mem_singleton_self _)
  have happrove := approve_ok hstored hroom hclock hclean hcreated hexpires hlive hnew
  unfold approveBotAppGrant
  apply Alone.bind (answers_throwIf (by rw [hvalid]; rfl))
  apply Alone.bind (answers_outside ())
  apply Alone.bind answers_now
  apply Alone.bind answers_loadBotRegistry
  apply Alone.bind (answers_outside ())
  apply Alone.bind (answers_write (by rw [happrove]; rfl))
  exact answers_outside ()

/-- The grant is stored, and allows what is asked now. -/
structure Allows (root : JsString) (w : World) (h : HandlerOptions) (grant : BotAppGrant) : Prop where
  fits : textLength (grantsToJs root w.grants) ≤ maxGrantsText
  stored : Stored root w.grants
  mem : grant ∈ w.grants
  started : grant.createdAt ≤ w.clock
  running : (w.clock : ℚ) < grant.expiresAt
  bot : isLive w.registry h.botPubkey = true

omit [ContentHash] in
theorem Allows.loads (ha : Allows root w h grant) : Answers (loadBotAppGrants root) w w.grants w := by
  apply answers_read
  rw [if_neg (not_lt.2 ha.fits)]
  exact stored_iff.2 ⟨rfl, ha.stored⟩

theorem Allows.permitted (ha : Allows root w h grant) :
    Answers (permitted root h grant) w ⟨w.grants, w.registry, w.clock⟩ w := by
  have hread : Answers (readStored root) w ⟨w.grants, w.registry, w.clock⟩ w := by
    unfold readStored
    apply Alone.bind (answers_outside ())
    apply Alone.bind ha.loads
    apply Alone.bind answers_loadBotRegistry
    apply Alone.bind (answers_outside ())
    apply Alone.bind answers_now
    exact .done _ w
  have hfind : (w.grants.find? fun g => g.id = grant.id) = some grant := by
    cases hfound : w.grants.find? fun g => g.id = grant.id with
    | none =>
      have hnone := List.find?_eq_none.1 hfound grant ha.mem
      exact absurd (decide_eq_true rfl) hnone
    | some fresh =>
      have hid : fresh.id = grant.id := by simpa using List.find?_some hfound
      rw [ha.stored.eq_of_id (List.mem_of_find?_eq_some hfound) ha.mem hid]
  unfold Bots.permitted
  apply Alone.bind hread
  dsimp only
  rw [hfind]
  apply Alone.bind (answers_throwIf _)
  · exact .done _ w
  · simp [ha.started, ha.running, ha.bot]

variable [Keys]

/-- What is left of an event that was taken up and answered. -/
def World.served (w : World) (h : HandlerOptions) (event : NostrEvent) : World :=
  { w.setHandler h { w.handlers h with
      rates := (w.handlers h).rates.set event.pubkey ⟨w.clock, 1⟩
      pending := (w.handlers h).pending - 1 } with
    answered := bump w.answered (h, event.id) }

/-- **A request is answered under live consent**: one that needs no signature, and is the first of its
minute. -/
theorem answers_handle {request : InboundRequest} {plaintext : Option JsString} {elapsed : ℕ}
    {result : JsString ⊕ String} {w₁ : World} (htake : w.take h event true elapsed = (.ok (), w₁))
    (hselect : selectGrant h event w₁.clock w₁.grants = some grant) (ha : Allows root w₁ h grant)
    (hcalm : ((w₁.handlers h).rates.get event.pubkey).filter (fun rate => w₁.clock - rate.start < 60) = none)
    (hparse : parseInboundRequest event plaintext = some request)
    (hclient : request.clientPubkey = grant.clientPubkey)
    (hrespond : ∀ w', Answers (respond root h event grant request) w' result w') (response : NostrEvent) :
    Answers (handle root h event) w () (w₁.served h event) := by
  have hchoose : (w₁.choose h event w₁.grants) = (.ok grant, w₁.setHandler h
      { w₁.handlers h with rates := (w₁.handlers h).rates.set event.pubkey ⟨w₁.clock, 1⟩ }) := by
    unfold World.choose
    rw [hselect]
    dsimp only
    rw [hcalm]
  generalize hw₂ : w₁.setHandler h
    { w₁.handlers h with rates := (w₁.handlers h).rates.set event.pubkey ⟨w₁.clock, 1⟩ } = w₂ at hchoose
  have ha₂ : Allows root w₂ h grant := by
    subst hw₂
    exact { ha with }
  have hserve : Answers (serve root h event) w₁ () { w₂ with answered := bump w₂.answered (h, event.id) } := by
    unfold serve
    apply Alone.bind ha.loads
    apply Alone.bind (answers_outside ())
    apply Alone.bind (answers_once () hchoose)
    apply Alone.bind ha₂.permitted
    apply Alone.bind (answers_outside h.botPubkey)
    apply Alone.bind (answers_throwIf (by simp))
    apply Alone.bind ha₂.permitted
    apply Alone.bind (answers_outside plaintext)
    rw [hparse]
    apply Alone.bind (answers_throwIf (by simp [hclient]))
    apply Alone.bind ha₂.permitted
    apply Alone.bind (hrespond w₂)
    apply Alone.bind ha₂.permitted
    apply Alone.bind
    · unfold buildResponseEvent
      apply Alone.bind (answers_outside [])
      exact answers_outside response
    apply Alone.bind ha₂.permitted
    exact Alone.once () rfl
  have hdone : Answers (Async.once .remember fun (_ : Unit) (w : World) =>
        (.ok (), w.setHandler h { w.handlers h with pending := (w.handlers h).pending - 1 }))
      { w₂ with answered := bump w₂.answered (h, event.id) } () (w₁.served h event) := by
    apply answers_once ()
    subst hw₂
    simp only [World.setHandler, World.served, Function.update_self, Function.update_idem]
  unfold handle
  apply Alone.bind (answers_once (true, elapsed) htake)
  apply Alone.bind hserve.tryCatch
  exact hdone

/-! ## Runs -/

/-- What holds of a run: the key is used and answers are sent under live consent, once for each event a
handler took up; of the grants to one app at most one is live, and an id stands for one grant. -/
structure LiveConsent (root : JsString) (log : List (Did Action World)) (w : World) : Prop where
  signs : ∀ did ∈ log, ∀ s, did.label = .sign s → Addressed s.handler s.event ∧
    Serves s.handler s.event s.grant ∧ Consents s.handler s.grant s.shown did.before ∧
    s.template.pubkey = s.grant.botPubkey ∧ s.template.kind ∈ s.grant.eventKinds
  answers : ∀ did ∈ log, ∀ a, did.label = .publish a → Addressed a.handler a.event ∧
    Serves a.handler a.event a.grant ∧ Consents a.handler a.grant a.shown did.before
  once : w.straddled = false → ∀ k, w.signed k ≤ 1 ∧ w.answered k ≤ 1
  oneLive : OneLive w.grants
  ids : isStamp w.clock = true → ∀ did ∈ log, ∀ g ∈ did.before.grants, ∀ g' ∈ w.grants, g'.id = g.id →
    Follows g g'
  approvals : isStamp w.clock = true → ∀ grant, approvable root grant = true → grant.createdAt ≤ w.clock →
    (w.clock : ℚ) < grant.expiresAt → isLive w.registry grant.botPubkey = true →
    (∀ g ∈ w.grants, g.id ≠ grant.id) → w.grants.length < maxGrants →
    ∃ w', Answers (approveBotAppGrant root grant) w () w' ∧ grant.clean ∈ w'.grants

end

/-! ## Where the claim goes too far -/

/-- A hash that tells all texts apart. -/
@[reducible] def plainHash : ContentHash := ⟨fun text => text⟩

/-- A grant of the first bot to a client, which lasts for an hour. -/
def sampleGrant (n : ℕ) : BotAppGrant where
  id := hexText 32 n []
  botPubkey := sampleBot
  clientPubkey := sampleOwner
  appName := lit "Post"
  relayUrl := lit "wss://relay.example"
  eventKinds := [1]
  createdAt := 1700000000
  expiresAt := 1700003600
  revokedAt := none

/-- A request of the client, signed. -/
def sampleRequest : NostrEvent where
  id := hexText 64 0x314e376b3a350b592543c6a5c29f7825ea3616e0ec0d41fea07ef70d3cbaf0b4 []
  pubkey := sampleOwner
  created_at := 1700000000
  kind := 24133
  tags := [[lit "p", sampleBot]]
  content := lit "AgBz"
  sig := hexText 128
    0x6595d23008afcdec93fd8dca45bd968a2718e58450d27f49f02ef706ef5bc81415b713c19d01181be22814f6363e88a7f93f433419de401ad24c822fbb1c4349 []

@[reducible] def requestKeys : Keys where
  verifyEvent e := e = sampleRequest
  getPublicKey key := if key = sampleKey then sampleBot else []

/-- What the client asks for. -/
def samplePing : JsValue :=
  .obj [("id", .ofLit "1"), ("method", .ofLit "ping"), ("params", .arr [])]

def sampleHandler (session : ℕ) : HandlerOptions := ⟨session, sampleBot, lit "wss://relay.example"⟩

def sampleWorld : World :=
  World.initial (sampleRegistry [sampleRecord (some sampleKey) none none]) 1700000000

theorem hexText_spec (k n m : ℕ) : ∀ rest rest' : JsString,
    hexText k n rest = hexText k m rest' → rest = rest' ∧ n % 16 ^ k = m % 16 ^ k := by
  induction k generalizing n m with
  | zero =>
    intro rest rest' h
    exact ⟨h, by rw [pow_zero, Nat.mod_one, Nat.mod_one]⟩
  | succ k ih =>
    intro rest rest' h
    obtain ⟨hrest, hhigh⟩ := ih _ _ _ _ h
    obtain ⟨hdigit, hrest⟩ := List.cons.inj hrest
    refine ⟨hrest, ?_⟩
    have hlow : n % 16 = m % 16 := by
      have hinj : ∀ i j : Fin 16, hexDigit i = hexDigit j → i = j := by decide
      exact congrArg Fin.val (hinj _ _ hdigit)
    rw [pow_succ, mul_comm, Nat.mod_mul, Nat.mod_mul, hlow, hhigh]

theorem isHexOf_hexText (k n : ℕ) : isHexOf k (hexText k n []) = true := by
  have hall : ∀ (k n : ℕ) (rest : JsString), (hexText k n rest).length = k + rest.length ∧
      (hexText k n rest).all isHexDigit = rest.all isHexDigit := by
    intro k
    induction k with
    | zero => exact fun n rest => ⟨(Nat.zero_add _).symm, rfl⟩
    | succ k ih =>
      intro n rest
      obtain ⟨hlength, hdigits⟩ := ih (n / 16) (hexDigit (Fin.ofNat 16 n) :: rest)
      rw [hexText, hlength, hdigits, List.length_cons, List.all_cons, isHexDigit_hexDigit, Bool.true_and]
      exact ⟨by omega, rfl⟩
  obtain ⟨hlength, hdigits⟩ := hall k n []
  rw [isHexOf, hlength, hdigits]
  simp

theorem revocationShows_plainHash [Numerals] : @RevocationShows _ plainHash := by
  intro grant t hlive heq
  have hlength := congrArg List.length heq
  apply absurd hlength
  apply ne_of_gt
  unfold binding BotAppGrant.toJs
  dsimp only [ContentHash.vaultContentHash]
  rw [hlive]
  show (jsonText (.obj (_ ++ []))).length < _
  rw [List.append_nil]
  apply length_jsonText_obj_lt
  · simp [property, numberToJs]
  · simp [property]
  · exact List.cons_ne_nil _ _
  · exact List.cons_ne_nil _ _

/-! ## Approvals run out -/

theorem clean_sampleGrant (n : ℕ) : (sampleGrant n).clean = sampleGrant n := by
  have hname : sanitizeDisplayName (lit "Post") maxAppName = lit "Post" := by decide
  unfold BotAppGrant.clean sampleGrant
  dsimp only
  rw [hname]

theorem valid_rename {root id : JsString} {grant : BotAppGrant} (h : grant.valid root = true)
    (hid : isHexOf 32 id = true) : { grant with id : BotAppGrant }.valid root = true := by
  unfold BotAppGrant.valid at h ⊢
  simp only [Bool.and_eq_true] at h ⊢
  simp only [h, hid, and_self]

theorem valid_sampleGrant (n : ℕ) : (sampleGrant n).valid sampleRoot = true := by
  have hfirst : (sampleGrant 0).valid sampleRoot = true := by decide +kernel
  have heq : sampleGrant n = { sampleGrant 0 with id := hexText 32 n [] } := rfl
  rw [heq]
  exact valid_rename hfirst (isHexOf_hexText 32 n)

theorem approvable_sampleGrant (n : ℕ) : approvable sampleRoot (sampleGrant n) = true := by
  have hstored : Stored sampleRoot [sampleGrant n] :=
    { length := Nat.le_of_ble_eq_true rfl, distinctIds := List.nodup_singleton _
      valid := fun g hg => List.mem_singleton.1 hg ▸ valid_sampleGrant n }
  unfold approvable
  rw [clean_sampleGrant, stored_iff.2 ⟨rfl, hstored⟩]
  rfl

theorem new_sampleGrant {grants : List BotAppGrant} {n : ℕ}
    (hids : grants.map BotAppGrant.id = (List.range n).map fun i => (sampleGrant i).id)
    (hn : n ≤ maxGrants) : ∀ g ∈ grants, g.id ≠ (sampleGrant n).id := by
  intro g hg heq
  have hmem := List.mem_map_of_mem (f := BotAppGrant.id) hg
  rw [hids] at hmem
  obtain ⟨i, hi, hid⟩ := List.mem_map.1 hmem
  have hlt := List.mem_range.1 hi
  have hmod := (hexText_spec 32 i n [] [] (hid.trans heq)).2
  have hbig : maxGrants < 16 ^ 32 := by decide
  rw [Nat.mod_eq_of_lt (by omega), Nat.mod_eq_of_lt (by omega)] at hmod
  omega

theorem current_sampleWorld : isStamp (sampleWorld.clock : ℚ) = true ∧ (1700000000 : ℚ) ≤ sampleWorld.clock ∧
    (sampleWorld.clock : ℚ) < 1700003600 ∧ isLive sampleWorld.registry sampleBot = true := by
  refine ⟨?_, ?_, ?_, ?_⟩ <;> decide

/-- The first approvals of a device. -/
theorem run_approvals [Numerals] [ContentHash] [Keys] : ∀ n ≤ maxGrants, ∃ log grants,
    Run (Starts sampleRoot) sampleWorld log { sampleWorld with grants } [] ∧
      Stored sampleRoot grants ∧ grants.map BotAppGrant.id = (List.range n).map fun i => (sampleGrant i).id := by
  intro n hn
  induction n with
  | zero => exact ⟨[], [], .init, Stored.nil, rfl⟩
  | succ n ih =>
    obtain ⟨log, grants, hrun, hstored, hids⟩ := ih (Nat.le_of_succ_le hn)
    obtain ⟨hclock, hcreated, hexpires, hlive⟩ := current_sampleWorld
    have hlength : grants.length = n := by
      have hmap := congrArg List.length hids
      simpa using hmap
    have hroom : grants.length < maxGrants := hlength ▸ hn
    have hnew := new_sampleGrant hids (Nat.le_of_succ_le hn)
    have happrove := approve_ok hstored hroom hclock (valid_sampleGrant n) hcreated hexpires hlive hnew
    have hanswers := @answers_approve sampleRoot { sampleWorld with grants } (sampleGrant n) hstored
      hclock hroom (approvable_sampleGrant n) hcreated hexpires hlive hnew
    obtain ⟨log', hrun'⟩ := (hrun.start (Starts.approve _)).alone_of_head hanswers
    rw [clean_sampleGrant] at hrun'
    refine ⟨_, _, hrun', (approve_eq_some happrove).2.2.2.2, ?_⟩
    have hold : (grants.map (revokeOlder sampleWorld.clock (sampleGrant n))).map BotAppGrant.id
        = grants.map BotAppGrant.id := by
      rw [List.map_map]
      apply List.map_congr_left
      intro g _
      exact (follows_revokeOlder _ _ g).id
    rw [List.map_append, hold, hids, List.range_succ, List.map_append]
    rfl

section

variable {α : Type} {w w' : World} {o : Except Unit α}

theorem rests_once {γ : Type} {label : Action} {run : γ → World → Except Unit α × World}
    (hrun : ∀ c, (run c w).2 = w) (h : Alone (Async.once label run) w o w') : w' = w := by
  cases h with
  | act c h =>
    rw [hrun] at h
    generalize (run c w).1 = a at h
    cases a with
    | ok a =>
      cases h
      rfl
    | error e =>
      cases h
      rfl

theorem rests_outside (h : Alone (outside α) w o w') : w' = w := rests_once (fun _ => rfl) h

theorem rests_throwIf {condition : Bool} {o : Except Unit Unit} (h : Alone (throwIf condition) w o w') :
    w' = w := by
  cases condition with
  | true =>
    cases h
    rfl
  | false =>
    cases h
    rfl

theorem rests_read {f : World → Option α} (h : Alone (read f) w o w') : w' = w := by
  apply rests_once _ h
  intro ok
  cases ok with
  | true => cases hf : f w <;> rfl
  | false => rfl

theorem of_rests {β : Type} {t : Op β} {f : β → Op α} {a : α} (h : Answers (t >>= f) w a w')
    (hrests : ∀ {o w'}, Alone t w o w' → w' = w) : ∃ b, Answers (f b) w a w' := by
  obtain ⟨e, -, he⟩ | ⟨b, w'', ht, hf⟩ := Alone.of_bind h
  · cases he
  · rw [hrests ht] at hf
    exact ⟨b, hf⟩

theorem of_answers_write {f : World → Option World} {t : Op α} {a : α}
    (h : Answers (write f >>= fun _ => t) w a w') : (f w).isSome = true := by
  obtain ⟨e, -, he⟩ | ⟨b, w'', ht, -⟩ := Alone.of_bind h
  · cases he
  · cases hf : f w with
    | some _ => rfl
    | none =>
      cases ht with
      | act c ht =>
        simp only [hf] at ht
        cases c <;> cases ht

end

theorem not_answers_approve {root : JsString} {grant : BotAppGrant} {w w' : World}
    (hfull : w.grants.length = maxGrants) : ¬ Answers (approveBotAppGrant root grant) w () w' := by
  intro h
  unfold approveBotAppGrant at h
  obtain ⟨-, h⟩ := of_rests h rests_throwIf
  obtain ⟨-, h⟩ := of_rests h rests_outside
  obtain ⟨now, h⟩ := of_rests h (rests_once fun _ => rfl)
  obtain ⟨registry, h⟩ := of_rests h rests_read
  obtain ⟨-, h⟩ := of_rests h rests_outside
  have hsome := of_answers_write h
  rw [approve_full hfull] at hsome
  cases hsome

/-! ## Requests that come again -/

section

attribute [local instance] decimalNumerals plainHash requestKeys

/-- What the request asks for, as it is read. -/
def sampleInbound : InboundRequest := ⟨lit "1", lit "ping", [], sampleOwner⟩

theorem parse_samplePing : parseInboundRequest sampleRequest (some (jsonText samplePing)) = some sampleInbound := by
  have hobject : asObject (jsonText samplePing) = some samplePing := by
    rw [asObject, parse_jsonText (by simp [samplePing, IsJson, HoldJson, AreJson, isJson_ofLit])]
    rfl
  have hshape : sampleRequest.kind = requestKind ∧ isHexOf 64 (toLowerCase sampleRequest.pubkey) = true
      ∧ sampleRequest.content.length ≤ maxNip46Content := by decide
  have hid : isStr 64 (samplePing.get "id") = some ⟨lit "1", by decide⟩ := by decide
  have hmethod : isStr 64 (samplePing.get "method") = some ⟨lit "ping", by decide⟩ := by decide
  have hparams : isArrayOf isString (samplePing.get "params") = some [] := by decide
  have hclient : toLowerCase sampleRequest.pubkey = sampleOwner := by decide
  unfold parseInboundRequest
  rw [guard, if_pos hshape]
  simp [hobject, hid, hmethod, hparams, hclient, sampleInbound, maxNip46Params, guard]
  rfl

/-- What is left of an event that was taken up by a handler that knew none. -/
def World.tookUp (w : World) (h : HandlerOptions) (event : NostrEvent) (elapsed : ℕ) : World :=
  { w.setHandler h { w.handlers h with seen := [(event.id, event.created_at)], pending := 1 } with
    clock := w.clock + elapsed
    taken := bump w.taken (h, event.id)
    straddled := w.straddled || decide (event.created_at < ((w.clock + elapsed : ℕ) : ℚ) - 300) }

theorem take_ok {w : World} {h : HandlerOptions} {event : NostrEvent} {elapsed : ℕ}
    (hpending : (w.handlers h).pending = 0) (hadmissible : admissible h event w.clock = true)
    (hseen : forget (w.clock + elapsed) (w.handlers h).seen = []) :
    w.take h event true elapsed = (.ok (), w.tookUp h event elapsed) := by
  unfold World.take
  dsimp only
  rw [hpending, hadmissible, hseen]
  rfl

/-- The request is answered, whatever was answered before, by a handler that does not know it. -/
theorem run_ping {log : List (Did Action World)} {w : World} {session elapsed : ℕ}
    (hrun : Run (Starts sampleRoot) sampleWorld log w []) (hgrants : w.grants = [sampleGrant 0])
    (hregistry : w.registry = sampleWorld.registry)
    (hpending : (w.handlers (sampleHandler session)).pending = 0)
    (hadmissible : admissible (sampleHandler session) sampleRequest w.clock = true)
    (hseen : forget (w.clock + elapsed) (w.handlers (sampleHandler session)).seen = [])
    (hselect : selectGrant (sampleHandler session) sampleRequest (w.clock + elapsed) [sampleGrant 0]
      = some (sampleGrant 0))
    (hcalm : ((w.handlers (sampleHandler session)).rates.get sampleOwner).filter
      (fun rate => w.clock + elapsed - rate.start < 60) = none) :
    ∃ log' w', Run (Starts sampleRoot) sampleWorld log' w' [] ∧ w'.grants = w.grants ∧
      w'.registry = w.registry ∧ w'.clock = w.clock + elapsed ∧
      w'.answered = bump w.answered (sampleHandler session, sampleRequest.id) ∧
      w'.handlers = Function.update w.handlers (sampleHandler session)
        ⟨[(sampleRequest.id, sampleRequest.created_at)],
          (w.handlers (sampleHandler session)).rates.set sampleOwner ⟨w.clock + elapsed, 1⟩, 0⟩ := by
  have htake := take_ok hpending hadmissible hseen
  generalize hw₁ : w.tookUp (sampleHandler session) sampleRequest elapsed = w₁ at htake
  have hgrants₁ : w₁.grants = [sampleGrant 0] := by
    rw [← hw₁]
    exact hgrants
  have hclock₁ : w₁.clock = w.clock + elapsed := by
    rw [← hw₁]
    rfl
  have hrates₁ : (w₁.handlers (sampleHandler session)).rates = (w.handlers (sampleHandler session)).rates := by
    rw [← hw₁]
    show (Function.update w.handlers _ _ _).rates = _
    rw [Function.update_self]
  have hstored : Stored sampleRoot [sampleGrant 0] :=
    { length := by decide, distinctIds := List.nodup_singleton _
      valid := fun g hg => List.mem_singleton.1 hg ▸ valid_sampleGrant 0 }
  have ha : Allows sampleRoot w₁ (sampleHandler session) (sampleGrant 0) := by
    have htimes := (serves_of_select hselect).2
    rw [← hclock₁] at htimes
    refine { fits := ?_, stored := ?_, mem := ?_, started := htimes.1, running := htimes.2, bot := ?_ }
    · rw [hgrants₁]
      decide +kernel
    · rw [hgrants₁]
      exact hstored
    · rw [hgrants₁]
      exact List.mem_singleton_self _
    · have hregistry₁ : w₁.registry = sampleWorld.registry := by
        rw [← hw₁]
        exact hregistry
      rw [hregistry₁]
      exact current_sampleWorld.2.2.2
  have hping : ∀ w', Answers (respond sampleRoot (sampleHandler session) sampleRequest (sampleGrant 0)
      sampleInbound) w' (.inl (lit "pong")) w' := by
    intro w'
    have hget : ¬ (sampleInbound.method = lit "get_public_key" ∧ sampleInbound.params = []) := by decide
    have hmethod : sampleInbound.method = lit "ping" ∧ sampleInbound.params = [] := by decide
    unfold respond
    rw [if_neg hget, if_pos hmethod]
    exact .done _ w'
  have hanswers := @answers_handle _ _ sampleRoot w (sampleHandler session) sampleRequest (sampleGrant 0) _
    sampleInbound _ elapsed _ w₁ htake (by rw [hclock₁, hgrants₁]; exact hselect) ha
    (by rw [hclock₁, hrates₁]; exact hcalm) parse_samplePing rfl hping sampleRequest
  obtain ⟨log', hrun'⟩ := (hrun.start (Starts.handle _ _)).alone_of_head hanswers
  refine ⟨_, _, hrun', ?_⟩
  subst hw₁
  refine ⟨rfl, rfl, rfl, rfl, ?_⟩
  simp only [World.served, World.tookUp, World.setHandler, Function.update_idem, Function.update_self]
  rfl

theorem run_first_approval : ∃ log, Run (Starts sampleRoot) sampleWorld log
    { sampleWorld with grants := [sampleGrant 0] } [] := by
  obtain ⟨hclock, hcreated, hexpires, hlive⟩ := current_sampleWorld
  have hanswers := @answers_approve sampleRoot sampleWorld (sampleGrant 0) Stored.nil hclock (by decide)
    (approvable_sampleGrant 0) hcreated hexpires hlive fun _ hg => by cases hg
  obtain ⟨log, hrun⟩ := (Run.init.start (Starts.approve _)).alone_of_head hanswers
  rw [clean_sampleGrant] at hrun
  exact ⟨_, hrun⟩

end

end SignetApp.Bots
