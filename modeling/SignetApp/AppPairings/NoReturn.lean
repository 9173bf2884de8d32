import SignetApp.AppPairings.SerialOrder

/-!
# What is disconnected stays disconnected

A pairing comes back by a later add only, and goes by a removal only; so for the secret, the endpoint's keys, and
the phone.
-/

namespace SignetApp.AppPairings

open SignetApp.Js

/-! ## What the record says -/

namespace DependantIdentity

def pairings (dep : DependantIdentity) : List TrustedAppPairing :=
  dep.appBunkerEndpoint.elim [] TrustedAppEndpoint.pairings

def has (dep : DependantIdentity) (client : JsString) : Bool :=
  dep.pairings.any fun p => p.isOf (toLowerCase client)

def secret (dep : DependantIdentity) : Option JsString := dep.appBunkerEndpoint.bind TrustedAppEndpoint.pairingSecret

/-- The endpoint's keys. -/
def keys (dep : DependantIdentity) : Option (JsString × JsString) :=
  dep.appBunkerEndpoint.map fun endpoint => (endpoint.publicKey, endpoint.privateKey)

end DependantIdentity

/-- The clients that are paired, in lower case. -/
def clients (pairings : List TrustedAppPairing) : List JsString := pairings.map fun p => toLowerCase p.clientPubkey

/-- A record as these functions leave it. -/
structure WellFormed (dep : DependantIdentity) : Prop where
  complete : ∀ keys ∈ dep.keys, keys.1 ≠ [] ∧ keys.2 ≠ []
  once : (clients dep.pairings).Nodup
  few : dep.pairings.length ≤ trustedAppPairingCap
  secret : dep.secret ≠ some []

section

variable {dep : DependantIdentity} {call : Call}

@[simp] theorem pairings_puts : (call.puts dep).pairings = dep.pairings := by
  cases call <;> cases h : dep.appBunkerEndpoint <;>
    simp [Call.puts, toStore, DependantIdentity.pairings, TrustedAppEndpoint.stored, h]

@[simp] theorem keys_puts : (call.puts dep).keys = dep.keys := by
  cases call <;> cases h : dep.appBunkerEndpoint <;>
    simp [Call.puts, toStore, DependantIdentity.keys, TrustedAppEndpoint.stored, h]

theorem secret_puts (h : call ≠ .clearChildDevice) : (call.puts dep).secret = dep.secret.filter (· ≠ []) := by
  rw [puts_of_ne h]
  cases h : dep.appBunkerEndpoint <;>
    simp [toStore, DependantIdentity.secret, TrustedAppEndpoint.stored, h]

theorem has_iff {client : JsString} : dep.has client = true ↔ toLowerCase client ∈ clients dep.pairings := by
  unfold DependantIdentity.has clients
  rw [List.any_eq_true, List.mem_map]
  constructor
  · rintro ⟨p, hp, hclient⟩
    exact ⟨p, hp, of_decide_eq_true hclient⟩
  · rintro ⟨p, hp, hclient⟩
    exact ⟨p, hp, decide_eq_true hclient⟩

theorem clients_map {f : TrustedAppPairing → TrustedAppPairing} (hf : ∀ p, (f p).clientPubkey = p.clientPubkey)
    (pairings : List TrustedAppPairing) : clients (pairings.map f) = clients pairings := by
  unfold clients
  rw [List.map_map]
  exact List.map_congr_left fun p _ => congrArg toLowerCase (hf p)

theorem clients_filter (client : JsString) (pairings : List TrustedAppPairing) :
    clients (pairings.filter fun p => !p.isOf client) = (clients pairings).filter fun c => c ≠ client := by
  unfold clients
  rw [List.filter_map]
  refine congrArg _ (List.filter_congr fun p _ => ?_)
  simp [TrustedAppPairing.isOf]

theorem clients_bind {now : ℕ} {current next : List TrustedAppPairing} {pairing : TrustedAppPairing}
    (h : nextPairingsForBind now current pairing = .ok next) :
    (clients next = clients current ∧ next.length = current.length ∧
      toLowerCase pairing.clientPubkey ∈ clients current) ∨
    (clients next = clients current ++ [toLowerCase pairing.clientPubkey] ∧
      next.length = current.length + 1 ∧ current.length < trustedAppPairingCap ∧
      toLowerCase pairing.clientPubkey ∉ clients current) := by
  have hmem : (current.any fun p => p.isOf (toLowerCase pairing.clientPubkey)) = true ↔
      toLowerCase pairing.clientPubkey ∈ clients current := by
    simp [clients, TrustedAppPairing.isOf]
  unfold nextPairingsForBind at h
  dsimp only at h
  split at h
  · rename_i hpaired
    cases h
    refine .inl ⟨clients_map (fun p => ?_) current, List.length_map _, hmem.1 hpaired⟩
    split <;> rfl
  · rename_i hnew
    split at h
    · cases h
    · rename_i hroom
      cases h
      refine .inr ⟨?_, List.length_append, Nat.lt_of_not_le hroom, fun hin => hnew (hmem.2 hin)⟩
      simp [clients, toLowerCase_toLowerCase]

end

/-! ## What one call does -/

def Call.adds (client : JsString) : Call → Prop
  | .addAppBunkerPairing pairing => toLowerCase pairing.clientPubkey = toLowerCase client
  | .addAppBunkerPairingAndClearSecret pairing => toLowerCase pairing.clientPubkey = toLowerCase client
  | _ => False

def Call.removes (client : JsString) : Call → Prop
  | .removeAppBunkerPairing removed => toLowerCase removed = toLowerCase client
  | _ => False

def Call.setsSecret : Call → Prop
  | .setAppBunkerPairingSecret _ => True
  | _ => False

/-- A call that leaves no secret. -/
def Call.clearsSecret : Call → Prop
  | .clearAppBunkerPairingSecret => True
  | .addAppBunkerPairingAndClearSecret _ => True
  | _ => False

section

variable {dep : DependantIdentity} {effect : Served} {client : JsString}

theorem WellFormed.not_incomplete (h : WellFormed dep)
    (hnone : dep.appBunkerEndpoint.filter TrustedAppEndpoint.complete = none) : dep.appBunkerEndpoint = none := by
  cases hheld : dep.appBunkerEndpoint with
  | none => rfl
  | some endpoint =>
    have hkeys := h.complete (endpoint.publicKey, endpoint.privateKey) (by simp [DependantIdentity.keys, hheld])
    have hcomplete : endpoint.complete = true := by simp [TrustedAppEndpoint.complete, hkeys.1, hkeys.2]
    rw [hheld, Option.filter, if_pos hcomplete] at hnone
    cases hnone

variable {updated : DependantIdentity} {env : Surroundings}

/-- What a saved record pairs: the clients as before, or one more that was added, or one less that was removed. -/
theorem clients_saved {call : Call} (h : Saves env dep call updated) (hwf : WellFormed dep) :
    (clients updated.pairings = clients dep.pairings ∧ updated.pairings.length = dep.pairings.length ∧
      (∀ client, call.adds client → toLowerCase client ∈ clients dep.pairings) ∧ ∀ client, ¬ call.removes client) ∨
    (∃ client, call.adds client ∧ clients updated.pairings = clients dep.pairings ++ [toLowerCase client] ∧
      updated.pairings.length = dep.pairings.length + 1 ∧ dep.pairings.length < trustedAppPairingCap ∧
      toLowerCase client ∉ clients dep.pairings) ∨
    ∃ client, call.removes client ∧
      clients updated.pairings = (clients dep.pairings).filter (fun c => c ≠ toLowerCase client) ∧
      updated.pairings.length ≤ dep.pairings.length := by
  cases h with
  | ensure hnone =>
    have hheld := hwf.not_incomplete hnone
    refine .inl ⟨?_, ?_, fun _ hadds => (by cases hadds), fun _ hremoves => (by cases hremoves)⟩ <;>
      simp [DependantIdentity.pairings, hheld]
  | endpoint held next hheld hkeys hsecret hpairings hcleared =>
    have hdep : dep.pairings = held.pairings := by simp [DependantIdentity.pairings, hheld]
    have hupdated : ({ dep with appBunkerEndpoint := some next } : DependantIdentity).pairings = next.pairings := rfl
    rw [hdep, hupdated]
    obtain ⟨hcall, heq⟩ | ⟨pairing, hcall, hbind⟩ | ⟨removed, rfl, heq⟩ | ⟨touched, rfl, heq⟩ := hpairings
    · rw [heq]
      refine .inl ⟨rfl, rfl, fun client hadds => ?_, fun client hremoves => ?_⟩
      · obtain ⟨secret, rfl⟩ | rfl := hcall <;> cases hadds
      · obtain ⟨secret, rfl⟩ | rfl := hcall <;> cases hremoves
    · have hadds : call.adds pairing.clientPubkey := by
        obtain rfl | rfl := hcall <;> rfl
      have hclient : ∀ client, call.adds client → toLowerCase pairing.clientPubkey = toLowerCase client := by
        intro client hadds
        obtain rfl | rfl := hcall <;> exact hadds
      obtain ⟨hclients, hlength, hin⟩ | ⟨hclients, hlength, hroom, hnew⟩ := clients_bind hbind
      · refine .inl ⟨hclients, hlength, fun client hadds => ?_, fun client hremoves => ?_⟩
        · rw [← hclient client hadds]
          exact hin
        · obtain rfl | rfl := hcall <;> cases hremoves
      · exact .inr (.inl ⟨pairing.clientPubkey, hadds, hclients, hlength, hroom, hnew⟩)
    · rw [heq]
      exact .inr (.inr ⟨removed, rfl, clients_filter _ _, List.length_filter_le _ _⟩)
    · rw [heq]
      refine .inl ⟨clients_map (fun p => ?_) _, List.length_map _, fun _ hadds => (by cases hadds),
        fun _ hremoves => (by cases hremoves)⟩
      split <;> rfl
  | device childDevice bunkerEndpoint hdevice =>
    exact .inl ⟨rfl, rfl, fun _ hadds => (by cases hadds), fun _ hremoves => (by cases hremoves)⟩

theorem keys_saved {call : Call} (h : Saves env dep call updated) (hwf : WellFormed dep) :
    updated.keys = dep.keys ∨ dep.keys = none ∧ updated.keys = some (env.publicKey.val, env.privateKey.val) := by
  cases h with
  | ensure hnone =>
    have hheld := hwf.not_incomplete hnone
    exact .inr ⟨by simp [DependantIdentity.keys, hheld], rfl⟩
  | endpoint held next hheld hkeys =>
    refine .inl ?_
    simp [DependantIdentity.keys, hheld, hkeys.1, hkeys.2]
  | device => exact .inl rfl

theorem secret_saved {call : Call} (h : Saves env dep call updated) :
    (updated.secret = dep.secret ∨ updated.secret = none ∨ call.setsSecret) ∧
      (call.clearsSecret → updated.secret = none) := by
  cases h with
  | ensure => exact ⟨.inr (.inl rfl), fun hclears => (by cases hclears)⟩
  | endpoint held next hheld hkeys hsecret hpairings hcleared =>
    refine ⟨?_, fun hclears => ?_⟩
    · obtain heq | heq | ⟨secret, rfl, heq⟩ := hsecret
      · exact .inl (by simp [DependantIdentity.secret, hheld, heq])
      · exact .inr (.inl heq)
      · exact .inr (.inr trivial)
    · refine hcleared ?_
      cases call with
      | clearAppBunkerPairingSecret => exact .inl rfl
      | addAppBunkerPairingAndClearSecret pairing => exact .inr ⟨pairing, rfl⟩
      | _ => cases hclears
  | device => exact ⟨.inl rfl, fun hclears => (by cases hclears)⟩

/-- **A call keeps the record well formed.** -/
theorem WellFormed.serveOn (h : WellFormed dep) (effect : Served) : WellFormed (serveOn dep effect) := by
  obtain heq | ⟨updated, hsaves, heq⟩ := serveOn_cases dep effect
  · rwa [heq]
  · rw [heq]
    have hclients := clients_saved hsaves h
    refine ⟨?_, ?_, ?_, ?_⟩
    · rw [keys_puts]
      obtain hsame | ⟨-, hminted⟩ := keys_saved hsaves h
      · rw [hsame]
        exact h.complete
      · rw [hminted]
        intro keys hkeys
        cases hkeys
        have hne : ∀ key : Hex 64, key.val ≠ [] := fun key hnil => absurd (hnil ▸ key.property) (by decide)
        exact ⟨hne _, hne _⟩
    · rw [pairings_puts]
      obtain ⟨hsame, -⟩ | ⟨client, -, hadded, -, -, hnew⟩ | ⟨client, -, hremoved, -⟩ := hclients
      · rw [hsame]
        exact h.once
      · rw [hadded, List.nodup_append]
        refine ⟨h.once, List.nodup_singleton _, ?_⟩
        rintro c hc _ hlast rfl
        rw [List.mem_singleton.1 hlast] at hc
        exact hnew hc
      · rw [hremoved]
        exact h.once.filter _
    · rw [pairings_puts]
      have hfew := h.few
      obtain ⟨-, hlength, -⟩ | ⟨client, -, -, hlength, hroom, -⟩ | ⟨client, -, -, hlength⟩ := hclients <;> omega
    · by_cases hcall : effect.call = .clearChildDevice
      · rw [hcall] at hsaves ⊢
        have hsecret := h.secret
        cases hsaves with
        | endpoint held next hheld hkeys hsame hpairings =>
          obtain ⟨hcall', -⟩ | ⟨_, hcall', -⟩ | ⟨_, hcall', -⟩ | ⟨_, hcall', -⟩ := hpairings
          · obtain ⟨_, hcall'⟩ | hcall' := hcall' <;> cases hcall'
          · obtain hcall' | hcall' := hcall' <;> cases hcall'
          · cases hcall'
          · cases hcall'
        | device => exact hsecret
      · rw [secret_puts hcall]
        intro hempty
        have := (Option.filter_eq_some_iff.1 hempty).2
        simp at this

theorem has_of_serveOn (h : WellFormed dep) (hafter : (serveOn dep effect).has client = true) :
    dep.has client = true ∨ effect.call.adds client := by
  rw [has_iff] at hafter ⊢
  obtain heq | ⟨updated, hsaves, heq⟩ := serveOn_cases dep effect
  · rw [heq] at hafter
    exact .inl hafter
  · rw [heq, pairings_puts] at hafter
    obtain ⟨hsame, -⟩ | ⟨added, hadds, hadded, -⟩ | ⟨removed, -, hremoved, -⟩ := clients_saved hsaves h
    · rw [hsame] at hafter
      exact .inl hafter
    · rw [hadded, List.mem_append, List.mem_singleton] at hafter
      rcases hafter with hold | hclient
      · exact .inl hold
      · refine .inr ?_
        revert hadds
        cases effect.call with
        | addAppBunkerPairing pairing => exact fun hadds => hadds.trans hclient.symm
        | addAppBunkerPairingAndClearSecret pairing => exact fun hadds => hadds.trans hclient.symm
        | _ => exact fun hadds => (by cases hadds)
    · rw [hremoved, List.mem_filter] at hafter
      exact .inl hafter.1

theorem has_serveOn (h : WellFormed dep) (hbefore : dep.has client = true) :
    (serveOn dep effect).has client = true ∨ effect.call.removes client := by
  rw [has_iff] at hbefore ⊢
  obtain heq | ⟨updated, hsaves, heq⟩ := serveOn_cases dep effect
  · rw [heq]
    exact .inl hbefore
  · rw [heq, pairings_puts]
    obtain ⟨hsame, -⟩ | ⟨added, -, hadded, -⟩ | ⟨removed, hremoves, hremoved, -⟩ := clients_saved hsaves h
    · rw [hsame]
      exact .inl hbefore
    · rw [hadded]
      exact .inl (List.mem_append_left _ hbefore)
    · by_cases hclient : toLowerCase client = toLowerCase removed
      · refine .inr ?_
        revert hremoves
        cases effect.call with
        | removeAppBunkerPairing _ => exact fun hremoves => hremoves.trans hclient.symm
        | _ => exact fun hremoves => (by cases hremoves)
      · rw [hremoved]
        exact .inl (List.mem_filter.2 ⟨hbefore, decide_eq_true hclient⟩)

/-! ### What it leaves, where it returns -/

section

variable {saved : Option DependantIdentity}

theorem serveOn_of_change (h : effect.call.change effect.env dep = .ok (saved, effect.answer)) :
    (∃ updated, saved = some updated ∧ Saves effect.env dep effect.call updated ∧
      serveOn dep effect = effect.call.puts updated) ∨ saved = none ∧ serveOn dep effect = dep := by
  unfold serveOn
  rw [h]
  cases saved with
  | none => exact .inr ⟨rfl, rfl⟩
  | some updated => exact .inl ⟨updated, rfl, saves_of_change h, rfl⟩

/-- A client that is removed is not paired. -/
theorem not_has_of_removes (hcall : effect.call = .removeAppBunkerPairing client) :
    (serveOn dep effect).has client = false := by
  have hnone : toLowerCase client ∉ clients (serveOn dep effect).pairings := by
    unfold serveOn
    rw [hcall]
    simp only [Call.change, removeAppBunkerPairing, saveEndpoint, nothing]
    cases hheld : dep.appBunkerEndpoint with
    | none => simp [DependantIdentity.pairings, hheld, clients]
    | some held =>
      dsimp only
      split
      · rename_i hsaved
        split at hsaved
        · cases hsaved
        · cases hsaved
          rw [pairings_puts]
          show toLowerCase client ∉ clients (held.pairings.filter _)
          rw [clients_filter]
          intro hmem
          exact of_decide_eq_true (List.mem_filter.1 hmem).2 rfl
      · rename_i hunsaved
        split at hunsaved
        · rename_i hlength
          have hall := List.length_filter_eq_length_iff.1 hlength
          simp only [DependantIdentity.pairings, hheld, Option.elim_some, clients, List.mem_map, not_exists, not_and]
          intro p hp heq
          have hnot := hall p hp
          simp [TrustedAppPairing.isOf, heq] at hnot
        · exact absurd rfl (hunsaved _ _)
  rw [← Bool.not_eq_true, has_iff]
  exact hnone

/-- A client whose add returns is paired. -/
theorem has_of_adds (hwf : WellFormed dep) (h : effect.call.change effect.env dep = .ok (saved, effect.answer))
    (hadds : effect.call.adds client) : (serveOn dep effect).has client = true := by
  rw [has_iff]
  obtain ⟨updated, rfl, hsaves, heq⟩ | ⟨rfl, -⟩ := serveOn_of_change h
  · rw [heq, pairings_puts]
    obtain ⟨hsame, -, hin, -⟩ | ⟨added, hadds', hadded, -⟩ | ⟨removed, hremoves, -⟩ := clients_saved hsaves hwf
    · rw [hsame]
      exact hin client hadds
    · have hclient : toLowerCase client = toLowerCase added := by
        revert hadds hadds'
        cases effect.call with
        | addAppBunkerPairing pairing => exact fun hadds hadds' => hadds.symm.trans hadds'
        | addAppBunkerPairingAndClearSecret pairing => exact fun hadds hadds' => hadds.symm.trans hadds'
        | _ => exact fun hadds => (by cases hadds)
      rw [hadded, hclient]
      exact List.mem_append_right _ (List.mem_singleton.2 rfl)
    · revert hadds hremoves
      cases effect.call <;> intro hadds hremoves <;> first | cases hadds | cases hremoves
  · -- an add saves something, or throws
    revert h hadds
    have hbinds : ∀ secret pairing, AppPairings.bind secret effect.env pairing dep ≠ .ok (none, effect.answer) := by
      intro secret pairing hbind
      unfold AppPairings.bind at hbind
      split at hbind
      · cases hbind
      · split at hbind <;> cases hbind
    cases effect.call with
    | addAppBunkerPairing pairing => exact fun _ h => absurd h (hbinds id pairing)
    | addAppBunkerPairingAndClearSecret pairing => exact fun _ h => absurd h (hbinds (fun _ => none) pairing)
    | _ => exact fun hadds => (by cases hadds)

theorem secret_of_serveOn (hafter : (serveOn dep effect).secret ≠ none) :
    dep.secret ≠ none ∨ effect.call.setsSecret := by
  obtain heq | ⟨updated, hsaves, heq⟩ := serveOn_cases dep effect
  · rw [heq] at hafter
    exact .inl hafter
  · rw [heq] at hafter
    have hupdated : updated.secret ≠ none := by
      intro hnone
      by_cases hcall : effect.call = .clearChildDevice
      · rw [hcall] at hafter
        exact hafter hnone
      · rw [secret_puts hcall, hnone] at hafter
        exact hafter rfl
    obtain hsame | hnone | hsets := (secret_saved hsaves).1
    · rw [hsame] at hupdated
      exact .inl hupdated
    · exact absurd hnone hupdated
    · exact .inr hsets

/-- A completed pairing leaves no secret, nor does clearing it. -/
theorem secret_of_clears (hwf : WellFormed dep) (h : effect.call.change effect.env dep = .ok (saved, effect.answer))
    (hclears : effect.call.clearsSecret) : (serveOn dep effect).secret = none := by
  obtain ⟨updated, rfl, hsaves, heq⟩ | ⟨rfl, heq⟩ := serveOn_of_change h
  · have hcall : effect.call ≠ .clearChildDevice := by
      rintro hcall
      rw [hcall] at hclears
      cases hclears
    rw [heq, secret_puts hcall, (secret_saved hsaves).2 hclears]
    rfl
  · rw [heq]
    revert h hclears
    cases effect.call with
    | clearAppBunkerPairingSecret =>
      intro _ h
      simp only [Call.change, clearAppBunkerPairingSecret, nothing, saveEndpoint] at h
      cases hheld : dep.appBunkerEndpoint with
      | none => simp [DependantIdentity.secret, hheld]
      | some held =>
        rw [hheld] at h
        dsimp only at h
        split at h
        · rename_i hempty
          have hsecret := hwf.secret
          simp only [DependantIdentity.secret, hheld, Option.bind_some] at hsecret ⊢
          cases hs : held.pairingSecret with
          | none => rfl
          | some secret =>
            rw [hs] at hempty hsecret
            rw [Option.getD_some] at hempty
            rw [hempty] at hsecret
            exact absurd rfl hsecret
        · cases h
    | addAppBunkerPairingAndClearSecret pairing =>
      intro _ h
      simp only [Call.change, addAppBunkerPairingAndClearSecret, AppPairings.bind] at h
      split at h
      · cases h
      · split at h <;> cases h
    | _ => exact fun hclears => (by cases hclears)

theorem keys_serveOn {keys : JsString × JsString} (hwf : WellFormed dep) (h : dep.keys = some keys) :
    (serveOn dep effect).keys = some keys := by
  obtain heq | ⟨updated, hsaves, heq⟩ := serveOn_cases dep effect
  · rw [heq, h]
  · rw [heq, keys_puts]
    obtain hsame | ⟨hnone, -⟩ := keys_saved hsaves hwf
    · rw [hsame, h]
    · rw [hnone] at h
      cases h

/-- The endpoint that is returned is there. -/
theorem keys_of_ensure {endpoint : TrustedAppEndpoint}
    (h : effect.call.change effect.env dep = .ok (saved, effect.answer)) (hanswer : effect.answer = some endpoint) :
    (serveOn dep effect).keys = some (endpoint.publicKey, endpoint.privateKey) := by
  obtain ⟨caller, call, env, since, answer⟩ := effect
  dsimp only at h hanswer
  subst hanswer
  have hensure : call = .ensureAppBunkerEndpoint := by
    revert h
    cases call with
    | ensureAppBunkerEndpoint => exact fun _ => rfl
    | setAppBunkerPairingSecret secret =>
      intro h
      simp only [Call.change, setAppBunkerPairingSecret, nothing, saveEndpoint] at h
      split at h
      · cases h
      · split at h <;> cases h
    | clearAppBunkerPairingSecret =>
      intro h
      simp only [Call.change, clearAppBunkerPairingSecret, nothing, saveEndpoint] at h
      split at h
      · cases h
      · split at h <;> cases h
    | addAppBunkerPairing pairing =>
      intro h
      simp only [Call.change, addAppBunkerPairing, AppPairings.bind, saveEndpoint] at h
      split at h
      · cases h
      · split at h <;> cases h
    | addAppBunkerPairingAndClearSecret pairing =>
      intro h
      simp only [Call.change, addAppBunkerPairingAndClearSecret, AppPairings.bind, saveEndpoint] at h
      split at h
      · cases h
      · split at h <;> cases h
    | removeAppBunkerPairing client =>
      intro h
      simp only [Call.change, removeAppBunkerPairing, nothing, saveEndpoint] at h
      split at h
      · cases h
      · split at h <;> cases h
    | touchAppBunkerPairing client =>
      intro h
      simp only [Call.change, touchAppBunkerPairing, nothing, saveEndpoint] at h
      split at h
      · cases h
      · split at h <;> cases h
    | clearChildDevice =>
      intro h
      simp only [Call.change, clearChildDevice, nothing] at h
      split at h <;> cases h
  subst hensure
  obtain ⟨updated, hsaved, hsaves, heq⟩ | ⟨hsaved, heq⟩ :=
    @serveOn_of_change dep ⟨caller, .ensureAppBunkerEndpoint, env, since, some endpoint⟩ saved h
  · rw [heq, keys_puts]
    simp only [Call.change, ensureAppBunkerEndpoint] at h
    split at h
    · cases h
      cases hsaved
    · cases h
      cases hsaved
      rfl
  · rw [heq]
    simp only [Call.change, ensureAppBunkerEndpoint] at h
    split at h
    · rename_i held hheld
      cases h
      obtain ⟨hheld', -⟩ := Option.filter_eq_some_iff.1 hheld
      simp [DependantIdentity.keys, hheld']
    · cases h
      cases hsaved

theorem childDevice_of_clear (hcall : effect.call = .clearChildDevice) : (serveOn dep effect).childDevice = none := by
  unfold serveOn
  rw [hcall]
  simp only [Call.change, clearChildDevice, nothing]
  cases hdevice : dep.childDevice with
  | none => exact hdevice
  | some childDevice => rfl

end

end

/-! ## Runs -/

/-- A store that nothing has been asked of. -/
structure Fresh (w : World) : Prop where
  wellFormed : WellFormed w.stored
  idle : ∀ i, w.calls i = .idle
  served : w.served = []

/-- What is disconnected comes back only by a later call that connects it, and the like. -/
structure NoReturn (t : World) : Prop where
  removed : ∀ (k : ℕ) (effect : Served) (client : JsString), t.served[k]? = some effect →
    effect.call = .removeAppBunkerPairing client → t.stored.has client = true →
    ∃ (j : ℕ) (later : Served), k < j ∧ t.served[j]? = some later ∧ later.call.adds client
  added : ∀ (k : ℕ) (effect : Served) (client : JsString), t.served[k]? = some effect → effect.call.adds client →
    t.stored.has client = false →
    ∃ (j : ℕ) (later : Served), k < j ∧ t.served[j]? = some later ∧ later.call.removes client
  secret : ∀ (k : ℕ) (effect : Served), t.served[k]? = some effect → effect.call.clearsSecret → t.stored.secret ≠ none →
    ∃ (j : ℕ) (later : Served), k < j ∧ t.served[j]? = some later ∧ later.call.setsSecret
  endpoint : ∀ (k : ℕ) (effect : Served) (endpoint : TrustedAppEndpoint), t.served[k]? = some effect →
    effect.answer = some endpoint → t.stored.keys = some (endpoint.publicKey, endpoint.privateKey)
  device : ∀ (k : ℕ) (effect : Served), t.served[k]? = some effect → effect.call = .clearChildDevice →
    t.stored.childDevice = none
  oncePerClient : (clients t.stored.pairings).Nodup
  withinCap : t.stored.pairings.length ≤ trustedAppPairingCap

variable {start t : World}

theorem Fresh.serial (h : Fresh start) : Serial start start := by
  have hnone : ∀ (k : ℕ) (effect : Served), start.served[k]? = some effect → False := by
    intro k effect hk
    rw [h.served, List.getElem?_nil] at hk
    cases hk
  refine ⟨?_, fun k effect hk => (hnone k effect hk).elim, fun k effect hk => (hnone k effect hk).elim, ?_, ?_, ?_⟩
  · rw [afterEffects, h.served]
    rfl
  · rw [h.served]
    exact List.nodup_nil
  · intro i
    rw [h.idle i]
    intro effect heffect
    rw [h.served] at heffect
    cases heffect
  · intro effect heffect
    rw [h.served] at heffect
    cases heffect

/-- **In one order nothing returns.** -/
theorem Serial.noReturn (h : Serial start t) (hfresh : Fresh start) : NoReturn t := by
  have hkept : ∀ dep effect, WellFormed dep → WellFormed (serveOn dep effect) := fun _ effect hdep => hdep.serveOn effect
  have hwf : ∀ n, WellFormed (afterEffects start t n) := fun n =>
    afterFirst.keeps hkept (Nat.zero_le n) hfresh.wellFormed
  have hend : t.stored = afterFirst serveOn start.stored t.served t.served.length := h.stored
  have hafter : ∀ {k : ℕ} {effect : Served}, t.served[k]? = some effect →
      k + 1 ≤ t.served.length ∧ afterEffects start t (k + 1) = serveOn (afterEffects start t k) effect := by
    intro k effect hk
    exact ⟨(List.getElem?_eq_some_iff.1 hk).1, afterFirst.succ hk⟩
  have hlater : ∀ {k : ℕ} {A : Call → Prop},
      (∃ (j : ℕ) (later : Served), k + 1 ≤ j ∧ j < t.served.length ∧ t.served[j]? = some later ∧ A later.call) →
      ∃ (j : ℕ) (later : Served), k < j ∧ t.served[j]? = some later ∧ A later.call := by
    rintro k A ⟨j, later, hkj, -, hj, hA⟩
    exact ⟨j, later, hkj, hj, hA⟩
  refine ⟨?_, ?_, ?_, ?_, ?_, ?_, ?_⟩
  · intro k effect client hk hcall hhas
    obtain ⟨hle, heq⟩ := hafter hk
    have hgone : ¬ (afterEffects start t (k + 1)).has client = true := by
      rw [heq, not_has_of_removes hcall]
      decide
    rw [hend] at hhas
    exact hlater (afterFirst.comesByKeeping (Q := fun dep : DependantIdentity => dep.has client = true)
      hkept (fun _ _ hdep => has_of_serveOn hdep) hle (hwf _) hgone hhas)
  · intro k effect client hk hadds hhas
    obtain ⟨hle, heq⟩ := hafter hk
    obtain ⟨saved, hchange⟩ := h.answers k effect hk
    have hpaired : ¬ (afterEffects start t (k + 1)).has client = false := by
      rw [heq, has_of_adds (hwf k) hchange hadds]
      decide
    rw [hend] at hhas
    refine hlater (afterFirst.comesByKeeping (Q := fun dep : DependantIdentity => dep.has client = false)
      hkept (fun dep effect hdep hnot => ?_) hle (hwf _) hpaired hhas)
    cases hbefore : dep.has client with
    | false => exact .inl rfl
    | true =>
      obtain hstill | hremoves := @has_serveOn dep effect client hdep hbefore
      · rw [hnot] at hstill
        cases hstill
      · exact .inr hremoves
  · intro k effect hk hclears hsecret
    obtain ⟨hle, heq⟩ := hafter hk
    obtain ⟨saved, hchange⟩ := h.answers k effect hk
    have hgone : ¬ (afterEffects start t (k + 1)).secret ≠ none := by
      rw [heq, secret_of_clears (hwf k) hchange hclears]
      exact fun hne => hne rfl
    rw [hend] at hsecret
    exact hlater (afterFirst.comesBy (Q := fun dep : DependantIdentity => dep.secret ≠ none)
      (A := fun later : Served => later.call.setsSecret) (fun _ _ => secret_of_serveOn) hle hgone hsecret)
  · intro k effect endpoint hk hanswer
    obtain ⟨hle, heq⟩ := hafter hk
    obtain ⟨saved, hchange⟩ := h.answers k effect hk
    have hkeys : WellFormed (afterEffects start t (k + 1)) ∧
        (afterEffects start t (k + 1)).keys = some (endpoint.publicKey, endpoint.privateKey) := by
      refine ⟨hwf _, ?_⟩
      rw [heq]
      exact keys_of_ensure hchange hanswer
    rw [hend]
    exact (afterFirst.keeps (R := fun dep => WellFormed dep ∧ dep.keys = some (endpoint.publicKey, endpoint.privateKey))
      (fun _ effect hdep => ⟨hdep.1.serveOn effect, keys_serveOn hdep.1 hdep.2⟩) hle hkeys).2
  · intro k effect hk hcall
    obtain ⟨hle, heq⟩ := hafter hk
    have hgone : (afterEffects start t (k + 1)).childDevice = none := by
      rw [heq]
      exact childDevice_of_clear hcall
    rw [hend]
    exact afterFirst.keeps (R := fun dep => dep.childDevice = none)
      (fun dep effect hdep => childDevice_serveOn dep effect hdep) hle hgone
  · rw [hend]
    exact (hwf _).once
  · rw [hend]
    exact (hwf _).few

/-- **A disconnected app or phone does not come back**, while each call puts over what it read. -/
theorem undisturbed_no_return (hfresh : Fresh start) (h : Reaches next Undisturbed start t) :
    Serial start t ∧ NoReturn t := by
  have hserial : Serial start t := h.invariant hfresh.serial fun _ _ hw ha => hw.next _ ha
  exact ⟨hserial, hserial.noReturn hfresh⟩

/-! ## A run on one dependant -/

/-- An app that is paired, and a phone. -/
def connectedDependant : DependantIdentity where
  bunkerEndpoint := some ⟨some (lit "p1")⟩
  appBunkerEndpoint := some {
    publicKey := lit "e1"
    privateKey := lit "k1"
    createdAt := 1
    pairings := [{ clientPubkey := lit "a1", label := lit "Chess", pairedAt := 1 }] }
  childDevice := some ⟨lit "p1"⟩

def connectedWorld : World := ⟨connectedDependant, fun _ => .idle, []⟩

def laterSurroundings : Surroundings where
  publicKey := ⟨List.replicate 64 50, by decide⟩
  privateKey := ⟨List.replicate 64 51, by decide⟩
  now := 2

theorem connectedWorld_fresh : Fresh connectedWorld where
  wellFormed := by
    refine ⟨?_, by decide, by decide, by decide⟩
    intro keys hkeys
    cases hkeys
    decide
  idle _ := rfl
  served := rfl

/-- Each after the other: the app is used, then disconnected. -/
def calmRun : List Happening :=
  [.call 0 (.touchAppBunkerPairing (lit "a1")), .read 0 laterSurroundings, .reread 0, .put 0,
    .call 1 (.removeAppBunkerPairing (lit "a1")), .read 1 laterSurroundings, .reread 1, .put 1]

theorem undisturbed_no_return_calm :
    Fresh connectedWorld ∧ Reaches next Undisturbed connectedWorld (calmRun.foldl next connectedWorld) ∧
      Serial connectedWorld (calmRun.foldl next connectedWorld) ∧ NoReturn (calmRun.foldl next connectedWorld) := by
  have hrun : Reaches next Undisturbed connectedWorld (calmRun.foldl next connectedWorld) := by
    refine Reaches.run fun n a ha => ?_
    rcases n with _ | _ | _ | _ | _ | _ | _ | _ | n <;> cases ha
    -- only a put is asked to be undisturbed
    case succ.succ.succ.zero => rfl
    case succ.succ.succ.succ.succ.succ.succ.zero => rfl
    all_goals trivial
  exact ⟨connectedWorld_fresh, hrun, undisturbed_no_return connectedWorld_fresh hrun⟩

/-- The app is used while it is disconnected, and while the phone is. -/
def hastyRun : List Happening :=
  [.call 0 (.touchAppBunkerPairing (lit "a1")), .call 1 (.removeAppBunkerPairing (lit "a1")),
    .call 2 .clearChildDevice, .read 0 laterSurroundings, .reread 0, .read 1 laterSurroundings, .reread 1, .put 1,
    .read 2 laterSurroundings, .put 2, .put 0]

/-- What was disconnected is stored again by the use of it, though nothing connects it. -/
theorem touched_while_disconnected : ∃ start t : World,
    Fresh start ∧ Reaches next (fun _ _ => True) start t ∧ (∀ i, t.calls i = .idle ∨ t.calls i = .returned none) ∧
      (∃ (k : ℕ) (effect : Served), t.served[k]? = some effect ∧
        effect.call = .removeAppBunkerPairing (lit "a1")) ∧
      (∃ (k : ℕ) (effect : Served), t.served[k]? = some effect ∧ effect.call = .clearChildDevice) ∧
      (∀ effect ∈ t.served, ¬ effect.call.adds (lit "a1")) ∧ t.stored.has (lit "a1") = true ∧
      t.stored.childDevice ≠ none := by
  refine ⟨connectedWorld, hastyRun.foldl next connectedWorld, connectedWorld_fresh,
    Reaches.run fun _ _ _ => trivial, ?_, ⟨0, _, rfl, rfl⟩, ⟨1, _, rfl, rfl⟩, ?_, by decide +kernel, by decide +kernel⟩
  · intro i
    rcases i with _ | _ | _ | i
    · exact .inr rfl
    · exact .inr rfl
    · exact .inr rfl
    · exact .inl rfl
  · intro effect heffect
    have hcalls : effect.call = .removeAppBunkerPairing (lit "a1") ∨ effect.call = .clearChildDevice ∨
        effect.call = .touchAppBunkerPairing (lit "a1") := by
      rcases heffect with _ | ⟨_, _ | ⟨_, _ | ⟨_, hnone⟩⟩⟩
      · exact .inl rfl
      · exact .inr (.inl rfl)
      · exact .inr (.inr rfl)
      · cases hnone
    obtain h | h | h := hcalls <;> rw [h] <;> exact fun hadds => hadds

/-! ## In any order -/

/-- A well-formed record whose clients all satisfy `P`. -/
def Admits (P : JsString → Prop) (dep : DependantIdentity) : Prop :=
  WellFormed dep ∧ ∀ client, dep.has client = true → P client

/-- What a call asks for, or is about to put, is admitted. -/
def CallState.Admits (P : JsString → Prop) : CallState → Prop
  | .called call _ => ∀ client, call.adds client → P client
  -- whichever phone is read again before the put
  | .saving _ _ updated => ∀ phone, AppPairings.Admits P (toStore updated phone)
  | .writing _ _ next => AppPairings.Admits P next
  | _ => True

section

variable {P : JsString → Prop} {w : World} {call : Call}

theorem Admits.of_endpoint {dep other : DependantIdentity} (h : Admits P dep)
    (heq : other.appBunkerEndpoint = dep.appBunkerEndpoint) : Admits P other := by
  obtain ⟨⟨hcomplete, honce, hfew, hsecret⟩, hclients⟩ := h
  have hpairings : other.pairings = dep.pairings := congrArg (Option.elim · [] TrustedAppEndpoint.pairings) heq
  refine ⟨⟨?_, hpairings ▸ honce, hpairings ▸ hfew, ?_⟩, fun client hhas => hclients client ?_⟩
  · rwa [DependantIdentity.keys, heq]
  · rwa [DependantIdentity.secret, heq]
  · rwa [DependantIdentity.has, ← hpairings]

/-- What is put of a saved record is admitted, if what the record was read from is. -/
theorem Admits.puts {env : Surroundings} {updated : DependantIdentity} {answer : Option TrustedAppEndpoint}
    (h : Admits P w.stored) (hcall : ∀ client, call.adds client → P client)
    (hchange : call.change env w.stored = .ok (some updated, answer)) : Admits P (call.puts updated) := by
  have hserve : serveOn w.stored ⟨0, call, env, 0, answer⟩ = call.puts updated := by
    unfold serveOn
    rw [hchange]
  rw [← hserve]
  refine ⟨h.1.serveOn _, fun client hhas => ?_⟩
  obtain hbefore | hadds := has_of_serveOn h.1 hhas
  · exact h.2 client hbefore
  · exact hcall client hadds

/-- The record, and all that is on its way to it. -/
def World.Admits (P : JsString → Prop) (w : World) : Prop :=
  AppPairings.Admits P w.stored ∧ ∀ i, (w.calls i).Admits P

theorem World.Admits.setCall (h : w.Admits P) {i : ℕ} {state : CallState} (hstate : state.Admits P) :
    (w.setCall i state).Admits P := by
  refine ⟨h.1, fun j => ?_⟩
  show (if j = i then state else w.calls j).Admits P
  split
  · exact hstate
  · exact h.2 j

theorem World.Admits.next (h : w.Admits P) (a : Happening)
    (ha : ∀ i call, a = .call i call → ∀ client, call.adds client → P client) : (next w a).Admits P := by
  cases a with
  | call i call =>
    unfold AppPairings.next
    dsimp only
    split
    · exact h.setCall (ha i call rfl)
    · exact h
  | read i env =>
    have hcall := h.2 i
    unfold AppPairings.next
    dsimp only
    split
    · rename_i call since hcalled
      rw [hcalled] at hcall
      split
      · exact h.setCall trivial
      · exact World.Admits.setCall (w := { w with served := _ }) h trivial
      · rename_i updated answer hchange
        have hputs := h.1.puts hcall hchange
        split
        · exact h.setCall hputs
        · rename_i hother
          rw [puts_of_ne fun heq => hother heq] at hputs
          exact h.setCall fun phone => hputs.of_endpoint rfl
    · exact h
  | reread i =>
    have hcall := h.2 i
    unfold AppPairings.next
    dsimp only
    split
    · rename_i hsaving
      rw [hsaving] at hcall
      exact h.setCall (hcall _)
    · exact h
  | put i =>
    have hcall := h.2 i
    unfold AppPairings.next
    dsimp only
    split
    · rename_i hwriting
      rw [hwriting] at hcall
      exact World.Admits.setCall (w := { w with stored := _, served := _ }) ⟨hcall, h.2⟩ trivial
    · exact h

theorem World.Admits.run {happenings : List Happening} (h : w.Admits P)
    (ha : ∀ i call, .call i call ∈ happenings → ∀ client, call.adds client → P client) :
    (happenings.foldl AppPairings.next w).Admits P := by
  induction happenings generalizing w with
  | nil => exact h
  | cons a happenings ih =>
    refine ih (h.next a ?_) fun i call hcall => ha i call (List.mem_cons_of_mem _ hcall)
    rintro i call rfl
    exact ha i call List.mem_cons_self

end

/-- **Whatever the order**, updates that are lost included, no more apps are paired than may be, none twice, and
none that was not added. -/
theorem any_order_bounded (hfresh : Fresh start) (happenings : List Happening) :
    WellFormed (happenings.foldl next start).stored ∧
      ∀ client, (happenings.foldl next start).stored.has client = true → start.stored.has client = true ∨
        ∃ i call, .call i call ∈ happenings ∧ call.adds client := by
  have hstart : start.Admits fun client => start.stored.has client = true ∨
      ∃ i call, .call i call ∈ happenings ∧ call.adds client := by
    refine ⟨⟨hfresh.wellFormed, fun _ hhas => .inl hhas⟩, fun i => ?_⟩
    rw [hfresh.idle i]
    trivial
  exact (hstart.run fun i call hcall client hadds => .inr ⟨i, call, hcall, hadds⟩).1

theorem any_order_bounded_hasty : Fresh connectedWorld ∧ WellFormed (hastyRun.foldl next connectedWorld).stored :=
  ⟨connectedWorld_fresh, (any_order_bounded connectedWorld_fresh hastyRun).1⟩

end SignetApp.AppPairings
