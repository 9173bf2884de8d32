import SignetApp.Family.DependantRecord
import SignetApp.Family.EditOrder
import SignetApp.Sync.Decimal

/-!
# What an edit leaves alone

The endpoint changes by the four operations on it, personas come by `addDependantPersona`, and a name
that was given to a persona is not given again.
-/

namespace SignetApp.Family.Edits

open SignetApp.Js SignetApp.Sync

/-! ## The endpoint -/

section

variable {derive : JsString → JsString × JsString} {dep : DependantIdentity} {op : Operation}

@[simp] theorem mapSlot_bunkerEndpoint (target : Target) (f : Slot → Slot) :
    (dep.mapSlot target f).bunkerEndpoint = dep.bunkerEndpoint := by
  cases target with
  | naturalPerson => rfl
  | persona => rfl
  | extra publicKey => rfl

@[simp] theorem applyDependantPersonaTombstones_bunkerEndpoint :
    (applyDependantPersonaTombstones dep).bunkerEndpoint = dep.bunkerEndpoint := by
  unfold applyDependantPersonaTombstones
  split
  · rfl
  · rfl

/-- Every way an endpoint changes. -/
inductive EndpointStep (dep : DependantIdentity) :
    Operation → Option DependantBunkerEndpoint → Prop where
  | same (op : Operation) : EndpointStep dep op dep.bunkerEndpoint
  | cleared : EndpointStep dep .clearDependantBunkerEndpoint none
  | ensured (publicKey privateKey : JsString) (createdAt : ℤ) :
    EndpointStep dep (.ensureDependantBunkerEndpoint publicKey privateKey createdAt)
      (some { publicKey, privateKey, createdAt, pairing := ⟨none, none⟩ })
  | minted (secret : JsString) (e : DependantBunkerEndpoint) (he : dep.bunkerEndpoint = some e) :
    EndpointStep dep (.saveDependantPairingSecret secret)
      (some { e with pairing.pairingSecret := some secret })
  | bound (client : JsString) (e : DependantBunkerEndpoint) (he : dep.bunkerEndpoint = some e) :
    EndpointStep dep (.bindDependantBunkerClient client)
      (some { e with pairing := ⟨none, some (toLowerCase client)⟩ })

theorem endpointStep (dep : DependantIdentity) (op : Operation) :
    EndpointStep dep op (op.effect derive dep).bunkerEndpoint := by
  have hsame : ∀ r : DependantIdentity, r.bunkerEndpoint = dep.bunkerEndpoint →
      EndpointStep dep op r.bunkerEndpoint := by
    intro r hr
    rw [hr]
    exact .same op
  cases op with
  | ensureDependantBunkerEndpoint publicKey privateKey createdAt =>
    unfold Operation.effect Operation.run ensureDependantBunkerEndpoint
    dsimp only
    split
    · next updated h =>
      split at h
      · cases h
      · split at h
        · cases h
        · obtain rfl := Outcome.saves.inj h
          exact .ensured publicKey privateKey createdAt
    · exact .same _
    · exact .same _
  | saveDependantPairingSecret secret =>
    unfold Operation.effect Operation.run saveDependantPairingSecret
    dsimp only
    split
    · next updated h =>
      split at h
      · cases h
      · next e he =>
        split at h
        · cases h
        · obtain rfl := Outcome.saves.inj h
          exact .minted secret e he
    · exact .same _
    · exact .same _
  | bindDependantBunkerClient client =>
    unfold Operation.effect Operation.run bindDependantBunkerClient
    dsimp only
    split
    · next updated h =>
      split at h
      · cases h
      · next e he =>
        split at h
        · cases h
        · next pairing hpairing =>
          obtain rfl := Outcome.saves.inj h
          unfold Bunker.Connecting.bindDependantBunkerClient at hpairing
          simp only [Option.bind_some] at hpairing
          split at hpairing
          · cases hpairing
          · split at hpairing
            · cases hpairing
            · obtain rfl := Option.some.inj hpairing
              exact .bound client e he
    · exact .same _
    · exact .same _
  | clearDependantBunkerEndpoint =>
    unfold Operation.effect Operation.run
    dsimp only
    split
    · next updated h =>
      split at h
      · cases h
      · obtain rfl := Outcome.saves.inj h
        exact .cleared
    · exact .same _
    · exact .same _
  | addDependantPersona displayName =>
    apply hsame
    unfold Operation.effect Operation.run addDependantPersona
    dsimp only
    split
    · next updated h =>
      split at h
      · cases h
      · obtain rfl := Outcome.saves.inj h
        rfl
    · rfl
    · rfl
  | removeDependantExtraPersona personaPubkey now =>
    apply hsame
    unfold Operation.effect Operation.run removeDependantExtraPersona
    dsimp only
    split
    · next updated h =>
      split at h
      · cases h
      · obtain rfl := Outcome.saves.inj h
        simp
    · rfl
    · rfl
  | updateDependantName displayName =>
    apply hsame
    unfold Operation.effect Operation.run
    dsimp only
    split
    · next updated h =>
      split at h
      · obtain rfl := Outcome.saves.inj h
        rfl
      · obtain rfl := Outcome.saves.inj h
        rfl
    · rfl
    · rfl
  | activateDependantNaturalPerson name =>
    apply hsame
    unfold Operation.effect Operation.run
    dsimp only
    split
    · next updated h =>
      split at h
      · cases h
      · obtain rfl := Outcome.saves.inj h
        rfl
    · rfl
    · rfl
  | setDependantPersonaAvatar target avatar => exact hsame _ (mapSlot_bunkerEndpoint _ _)
  | clearDependantPersonaAvatar target => exact hsame _ (mapSlot_bunkerEndpoint _ _)
  | setDependantPersonaContactAvatar target contact => exact hsame _ (mapSlot_bunkerEndpoint _ _)
  | clearDependantPersonaContactAvatar target => exact hsame _ (mapSlot_bunkerEndpoint _ _)
  | setDependantSlotNip05Check target check => exact hsame _ (mapSlot_bunkerEndpoint _ _)
  | setDependantPersonaPublicProfile target config state base =>
    exact hsame _ (mapSlot_bunkerEndpoint _ _)
  | clearDependantPersonaPublicProfile target => exact hsame _ (mapSlot_bunkerEndpoint _ _)
  | updateDependantPersonaName target name => exact hsame _ (mapSlot_bunkerEndpoint _ _)
  | _ => exact hsame _ rfl

theorem comesBy_endpoint {k : JsString}
    (h : ∃ e, (op.effect derive dep).bunkerEndpoint = some e ∧ e.publicKey = k) :
    (∃ e, dep.bunkerEndpoint = some e ∧ e.publicKey = k) ∨
      ∃ privateKey createdAt, op = .ensureDependantBunkerEndpoint k privateKey createdAt := by
  obtain ⟨e, he, hk⟩ := h
  have hstep := @endpointStep derive dep op
  rw [he] at hstep
  generalize hr : some e = r at hstep
  cases hstep with
  | same => exact .inl ⟨e, hr.symm, hk⟩
  | cleared => cases hr
  | ensured publicKey privateKey createdAt =>
    obtain rfl := Option.some.inj hr
    exact .inr ⟨privateKey, createdAt, by rw [← hk]⟩
  | minted secret e' he' =>
    obtain rfl := Option.some.inj hr
    exact .inl ⟨e', he', hk⟩
  | bound client e' he' =>
    obtain rfl := Option.some.inj hr
    exact .inl ⟨e', he', hk⟩

theorem comesBy_client {c : JsString} (h : ∃ e, (op.effect derive dep).bunkerEndpoint = some e ∧
      e.pairing.authorizedClientPubkey = some c) :
    (∃ e, dep.bunkerEndpoint = some e ∧ e.pairing.authorizedClientPubkey = some c) ∨
      ∃ client, op = .bindDependantBunkerClient client ∧ toLowerCase client = c := by
  obtain ⟨e, he, hc⟩ := h
  have hstep := @endpointStep derive dep op
  rw [he] at hstep
  generalize hr : some e = r at hstep
  cases hstep with
  | same => exact .inl ⟨e, hr.symm, hc⟩
  | cleared => cases hr
  | ensured publicKey privateKey createdAt =>
    obtain rfl := Option.some.inj hr
    cases hc
  | minted secret e' he' =>
    obtain rfl := Option.some.inj hr
    exact .inl ⟨e', he', hc⟩
  | bound client e' he' =>
    obtain rfl := Option.some.inj hr
    exact .inr ⟨client, rfl, Option.some.inj hc⟩

theorem comesBy_secret {s : JsString} (h : (op.effect derive dep).pairingSecret = some s) :
    dep.pairingSecret = some s ∨ op = .saveDependantPairingSecret s := by
  unfold DependantIdentity.pairingSecret at h ⊢
  have hstep := @endpointStep derive dep op
  generalize (op.effect derive dep).bunkerEndpoint = r at h hstep
  cases hstep with
  | same => exact .inl h
  | cleared => cases h
  | ensured publicKey privateKey createdAt => cases h
  | minted secret e he =>
    obtain rfl : secret = s := Option.some.inj h
    exact .inr rfl
  | bound client e he => cases h

/-! ## Persona names -/

variable {n : ℕ} {path : JsString}

theorem personaNumber_personaName (hn : n ≤ maxSafeInteger) :
    personaNumber path (personaName path n) = some (some n) := by
  obtain ⟨hall, hne, hvalue⟩ := digitsValue_digitsText n
  unfold personaNumber personaName
  rw [isPrefixOf?_append]
  simp only
  rw [if_pos, hvalue, if_pos hn]
  refine ⟨hne, hall, ?_⟩
  by_cases hzero : n = 0
  · subst hzero
    exact .inl (by decide)
  · exact .inr (head?_digitsText (Nat.pos_of_ne_zero hzero))

theorem lt_nextNumber {n : ℕ} : ∀ {numbers : List (Option ℕ)}, some n ∈ numbers →
    n < nextNumber numbers
  | none :: rest, h => by
    obtain h | h := List.mem_cons.1 h
    · cases h
    · show n < nextNumber rest
      exact lt_nextNumber h
  | some m :: rest, h => by
    show n < max (m + 1) (nextNumber rest)
    obtain h | h := List.mem_cons.1 h
    · obtain rfl := Option.some.inj h
      omega
    · have hrest := lt_nextNumber h
      omega

theorem mem_of_mapM {α β : Type} {f : α → Option β} {a : α} {b : β} (hf : f a = some b) :
    ∀ {as : List α} {bs : List β}, as.mapM f = some bs → a ∈ as → b ∈ bs
  | x :: xs, bs, h, ha => by
    rw [List.mapM_cons] at h
    obtain ⟨y, hy, h⟩ := Option.bind_eq_some_iff.1 h
    obtain ⟨ys, hys, h⟩ := Option.bind_eq_some_iff.1 h
    obtain rfl : y :: ys = bs := Option.some.inj h
    obtain rfl | ha := List.mem_cons.1 ha
    · obtain rfl := Option.some.inj (hf.symm.trans hy)
      exact List.mem_cons_self
    · exact List.mem_cons_of_mem _ (mem_of_mapM hf hys ha)

theorem nextDependantPersonaName_fresh {name : JsString}
    (h : nextDependantPersonaName dep = some name)
    (hn : personaNumber dep.derivationPath name = some (some n)) : name ∉ dep.personaNames := by
  intro hmem
  unfold nextDependantPersonaName at h
  obtain ⟨numbers, hnumbers, h⟩ := Option.bind_eq_some_iff.1 h
  obtain ⟨_, hguard, h⟩ := Option.bind_eq_some_iff.1 h
  obtain rfl : personaName dep.derivationPath (nextNumber numbers) = name := Option.some.inj h
  have hle : nextNumber numbers ≤ maxSafeInteger := by
    by_contra hnot
    simp [guard, hnot] at hguard
  rw [personaNumber_personaName hle] at hn
  obtain rfl : nextNumber numbers = n := Option.some.inj (Option.some.inj hn)
  have hin := mem_of_mapM (personaNumber_personaName hle) hnumbers hmem
  exact absurd (lt_nextNumber hin) (Nat.lt_irrefl _)

theorem nextDependantPersonaName_number {name : JsString}
    (h : nextDependantPersonaName dep = some name) :
    ∃ n, personaNumber dep.derivationPath name = some (some n) := by
  unfold nextDependantPersonaName at h
  obtain ⟨numbers, -, h⟩ := Option.bind_eq_some_iff.1 h
  obtain ⟨_, hguard, h⟩ := Option.bind_eq_some_iff.1 h
  obtain rfl : personaName dep.derivationPath (nextNumber numbers) = name := Option.some.inj h
  have hle : nextNumber numbers ≤ maxSafeInteger := by
    by_contra hnot
    simp [guard, hnot] at hguard
  exact ⟨_, personaNumber_personaName hle⟩

/-! ## Personas -/

@[simp] theorem mapSlot_derivationPath (target : Target) (f : Slot → Slot) :
    (dep.mapSlot target f).derivationPath = dep.derivationPath := by
  cases target with
  | naturalPerson => rfl
  | persona => rfl
  | extra publicKey => rfl

@[simp] theorem mapSlot_extraPersonaTombstones (target : Target) (f : Slot → Slot) :
    (dep.mapSlot target f).extraPersonaTombstones = dep.extraPersonaTombstones := by
  cases target with
  | naturalPerson => rfl
  | persona => rfl
  | extra publicKey => rfl

variable {f : Slot → Slot} {target : Target}

theorem hasPersona_mapSlot {k name : JsString}
    (hf : ∀ s, (f s).publicKey = s.publicKey) (h : (dep.mapSlot target f).hasPersona k name) :
    dep.hasPersona k name := by
  cases target with
  | naturalPerson => exact h
  | persona => exact h
  | extra publicKey =>
    obtain ⟨p, hp, hk, hn⟩ := h
    obtain ⟨q, hq, rfl⟩ := List.mem_map.1 hp
    split at hk
    · next hkey =>
      rw [if_pos hkey] at hn
      exact ⟨q, hq, (hf q.slot).symm.trans hk, hn⟩
    · next hkey =>
      rw [if_neg hkey] at hn
      exact ⟨q, hq, hk, hn⟩

theorem mem_names_keepLatest {kept : List ExtraPersonaTombstone} {t : ExtraPersonaTombstone}
    {name : JsString} :
    name ∈ (keepLatest kept t).map (·.derivationName) ↔
      name ∈ kept.map (·.derivationName) ∨ name = t.derivationName := by
  unfold keepLatest
  split
  · next h =>
    obtain ⟨k, hk, hkt⟩ := List.any_eq_true.1 h
    have hname : k.derivationName = t.derivationName := by
      simp only [Bool.and_eq_true, decide_eq_true_eq] at hkt
      exact hkt.1
    constructor
    · exact .inl
    · rintro (h | rfl)
      · exact h
      · exact hname ▸ List.mem_map_of_mem hk
  · rw [List.map_append, List.mem_append]
    constructor
    · rintro (h | h)
      · obtain ⟨k, hk, rfl⟩ := List.mem_map.1 h
        exact .inl (List.mem_map_of_mem (List.mem_filter.1 hk).1)
      · exact .inr (List.mem_singleton.1 h)
    · rintro (h | rfl)
      · obtain ⟨k, hk, rfl⟩ := List.mem_map.1 h
        by_cases hkt : k.derivationName = t.derivationName
        · exact .inr (hkt ▸ List.mem_singleton_self _)
        · exact .inl (List.mem_map_of_mem (List.mem_filter.2 ⟨hk, by simpa using hkt⟩))
      · exact .inr (List.mem_singleton_self _)

theorem mem_names_foldl_keepLatest {name : JsString} :
    ∀ {ts kept : List ExtraPersonaTombstone},
      name ∈ (ts.foldl keepLatest kept).map (·.derivationName) ↔
        name ∈ kept.map (·.derivationName) ∨ name ∈ ts.map (·.derivationName)
  | [], kept => by simp
  | t :: ts, kept => by
    rw [List.foldl_cons, mem_names_foldl_keepLatest, mem_names_keepLatest, List.map_cons,
      List.mem_cons, or_assoc]

theorem mem_dependantPersonaTombstones {name : JsString}
    {input : List ExtraPersonaTombstone} (h : name ∈ input.map (·.derivationName))
    (hn : personaNumber path name = some (some n)) :
    name ∈ (dependantPersonaTombstones path input).map (·.derivationName) := by
  obtain ⟨t, ht, rfl⟩ := List.mem_map.1 h
  have hkept : t ∈ input.filter fun t => (personaNumber path t.derivationName).any (·.isSome) :=
    List.mem_filter.2 ⟨ht, by simp [hn]⟩
  have hfold := (@mem_names_foldl_keepLatest _ _ []).2 (.inr (List.mem_map_of_mem hkept))
  obtain ⟨t', ht', hname⟩ := List.mem_map.1 hfold
  exact List.mem_map.2 ⟨t', (List.mem_insertionSort _).2 ht', hname⟩

/-! ## A persona that is gone -/

/-- The record without the persona, which keeps its name from being given again. -/
structure Gone (k name : JsString) (dep : DependantIdentity) : Prop where
  absent : ¬ dep.hasPersona k name
  reserved : ∀ n, personaNumber dep.derivationPath name = some (some n) →
    name ∈ dep.extraPersonaTombstones.map (·.derivationName)

variable {k name : JsString}

variable {r : DependantIdentity}

theorem Gone.of_same (h : Gone k name dep) (hpersonas : r.hasPersona k name → dep.hasPersona k name)
    (hpath : r.derivationPath = dep.derivationPath)
    (htombstones : r.extraPersonaTombstones = dep.extraPersonaTombstones) : Gone k name r where
  absent hr := h.absent (hpersonas hr)
  reserved := by
    rw [hpath, htombstones]
    exact h.reserved

theorem Gone.mapSlot (h : Gone k name dep)
    (hf : ∀ s, (f s).publicKey = s.publicKey) : Gone k name (dep.mapSlot target f) :=
  h.of_same (hasPersona_mapSlot hf) (mapSlot_derivationPath _ _)
    (mapSlot_extraPersonaTombstones _ _)

theorem hasPersona_applyDependantPersonaTombstones
    (h : (applyDependantPersonaTombstones dep).hasPersona k name) : dep.hasPersona k name := by
  unfold applyDependantPersonaTombstones at h
  split at h
  · exact h
  · obtain ⟨p, hp, hpk⟩ := h
    exact ⟨p, (List.mem_filter.1 hp).1, hpk⟩

theorem applyDependantPersonaTombstones_path :
    (applyDependantPersonaTombstones dep).derivationPath = dep.derivationPath := by
  unfold applyDependantPersonaTombstones
  split
  · rfl
  · rfl

theorem applyDependantPersonaTombstones_tombstones :
    (applyDependantPersonaTombstones dep).extraPersonaTombstones = dep.extraPersonaTombstones := by
  unfold applyDependantPersonaTombstones
  split
  · rfl
  · rfl

variable {now : BoundedNat maxSafeInteger} {key : JsString}

theorem removeDependantExtraPersona_saves (h : removeDependantExtraPersona dep key now = .saves r) :
    ∃ persona, (dep.extraPersonas.find? fun p => p.slot.publicKey = key) = some persona ∧
      (∀ {k name}, r.hasPersona k name → dep.hasPersona k name ∧ k ≠ key) ∧
      r.derivationPath = dep.derivationPath ∧
      r.extraPersonaTombstones = dependantPersonaTombstones dep.derivationPath
        (dep.extraPersonaTombstones ++ [⟨persona.derivationName, now⟩]) := by
  unfold removeDependantExtraPersona at h
  split at h
  · cases h
  · next persona hfind =>
    obtain rfl := Outcome.saves.inj h
    refine ⟨persona, hfind, ?_, applyDependantPersonaTombstones_path,
      applyDependantPersonaTombstones_tombstones⟩
    intro k name hr
    obtain ⟨p, hp, hk, hn⟩ := hasPersona_applyDependantPersonaTombstones hr
    obtain ⟨hp, hkey⟩ := List.mem_filter.1 hp
    refine ⟨⟨p, hp, hk, hn⟩, ?_⟩
    rw [← hk]
    simpa using hkey

theorem effect_of {P : DependantIdentity → Prop} (hdep : P dep)
    (hsaves : ∀ r, op.run derive dep = .saves r → P r) : P (op.effect derive dep) := by
  unfold Operation.effect
  split
  · next r h => exact hsaves r h
  · exact hdep
  · exact hdep

/-- No edit brings the persona back. -/
theorem Gone.effect (h : Gone k name dep) : Gone k name (op.effect derive dep) := by
  apply effect_of h
  intro r hr
  cases op with
  | addDependantPersona displayName =>
    have hr' : addDependantPersona derive dep displayName = .saves r := hr
    unfold addDependantPersona at hr'
    split at hr'
    · cases hr'
    · next given hgiven =>
      obtain rfl := Outcome.saves.inj hr'
      refine ⟨?_, h.reserved⟩
      rintro ⟨p, hp, hk, hn⟩
      obtain hp | hp := List.mem_append.1 hp
      · exact h.absent ⟨p, hp, hk, hn⟩
      · obtain rfl := List.mem_singleton.1 hp
        obtain rfl : given = name := hn
        obtain ⟨n, hnumber⟩ := nextDependantPersonaName_number hgiven
        apply nextDependantPersonaName_fresh hgiven hnumber
        exact List.mem_append_right _ (h.reserved n hnumber)
  | removeDependantExtraPersona key now =>
    obtain ⟨persona, -, hpersonas, hpath, htombstones⟩ := removeDependantExtraPersona_saves hr
    refine ⟨fun hr => h.absent (hpersonas hr).1, ?_⟩
    rw [hpath, htombstones]
    intro n hn
    apply mem_dependantPersonaTombstones _ hn
    rw [List.map_append]
    exact List.mem_append_left _ (h.reserved n hn)
  | setDepExtraPersonaHidden key hidden =>
    obtain rfl := Outcome.saves.inj hr
    refine h.of_same ?_ rfl rfl
    rintro ⟨p, hp, hk, hn⟩
    obtain ⟨q, hq, rfl⟩ := List.mem_map.1 hp
    refine ⟨q, hq, ?_, ?_⟩
    · rw [← hk]
      split
      · rfl
      · rfl
    · rw [← hn]
      split
      · rfl
      · rfl
  | updateDependantName displayName =>
    unfold Operation.run at hr
    dsimp only at hr
    split at hr
    · obtain rfl := Outcome.saves.inj hr
      exact h.of_same id rfl rfl
    · obtain rfl := Outcome.saves.inj hr
      exact h.of_same id rfl rfl
  | activateDependantNaturalPerson legalName =>
    unfold Operation.run at hr
    dsimp only at hr
    split at hr
    · cases hr
    · obtain rfl := Outcome.saves.inj hr
      exact h.of_same id rfl rfl
  | ensureDependantBunkerEndpoint publicKey privateKey createdAt =>
    unfold Operation.run ensureDependantBunkerEndpoint at hr
    dsimp only at hr
    split at hr
    · cases hr
    · split at hr
      · cases hr
      · obtain rfl := Outcome.saves.inj hr
        exact h.of_same id rfl rfl
  | saveDependantPairingSecret secret =>
    unfold Operation.run saveDependantPairingSecret at hr
    dsimp only at hr
    split at hr
    · cases hr
    · split at hr
      · cases hr
      · obtain rfl := Outcome.saves.inj hr
        exact h.of_same id rfl rfl
  | bindDependantBunkerClient client =>
    unfold Operation.run bindDependantBunkerClient at hr
    dsimp only at hr
    split at hr
    · cases hr
    · split at hr
      · cases hr
      · obtain rfl := Outcome.saves.inj hr
        exact h.of_same id rfl rfl
  | clearDependantBunkerEndpoint =>
    unfold Operation.run at hr
    dsimp only at hr
    split at hr
    · cases hr
    · obtain rfl := Outcome.saves.inj hr
      exact h.of_same id rfl rfl
  | setDependantPersonaAvatar target avatar =>
    obtain rfl := Outcome.saves.inj hr
    exact h.mapSlot fun _ => rfl
  | clearDependantPersonaAvatar target =>
    obtain rfl := Outcome.saves.inj hr
    exact h.mapSlot fun _ => rfl
  | setDependantPersonaContactAvatar target contact =>
    obtain rfl := Outcome.saves.inj hr
    exact h.mapSlot fun _ => rfl
  | clearDependantPersonaContactAvatar target =>
    obtain rfl := Outcome.saves.inj hr
    exact h.mapSlot fun _ => rfl
  | setDependantSlotNip05Check target check =>
    obtain rfl := Outcome.saves.inj hr
    exact h.mapSlot fun _ => rfl
  | setDependantPersonaPublicProfile target config state base =>
    obtain rfl := Outcome.saves.inj hr
    exact h.mapSlot fun _ => rfl
  | clearDependantPersonaPublicProfile target =>
    obtain rfl := Outcome.saves.inj hr
    exact h.mapSlot fun _ => rfl
  | updateDependantPersonaName target displayName =>
    obtain rfl := Outcome.saves.inj hr
    exact h.mapSlot fun _ => rfl
  | _ =>
    obtain rfl := Outcome.saves.inj hr
    exact h.of_same id rfl rfl

/-- A removal is for good. -/
theorem gone_of_remove {p : ExtraPersona}
    (hp : (dep.extraPersonas.find? fun p => p.slot.publicKey = key) = some p) :
    Gone key p.derivationName
      ((Operation.removeDependantExtraPersona key now).effect derive dep) := by
  cases hrun : removeDependantExtraPersona dep key now with
  | saves r =>
    have heffect : (Operation.removeDependantExtraPersona key now).effect derive dep = r := by
      unfold Operation.effect Operation.run
      dsimp only
      rw [hrun]
    rw [heffect]
    obtain ⟨persona, hfind, hpersonas, hpath, htombstones⟩ := removeDependantExtraPersona_saves hrun
    obtain rfl := Option.some.inj (hp.symm.trans hfind)
    refine ⟨fun hr => (hpersonas hr).2 rfl, ?_⟩
    rw [hpath, htombstones]
    intro n hn
    apply mem_dependantPersonaTombstones _ hn
    rw [List.map_append]
    exact List.mem_append_right _ (List.mem_singleton_self _)
  | returns =>
    unfold removeDependantExtraPersona at hrun
    rw [hp] at hrun
    cases hrun
  | throws =>
    unfold removeDependantExtraPersona at hrun
    rw [hp] at hrun
    cases hrun

end

end SignetApp.Family.Edits

/-!
## No edit of a dependant is lost

Where every save is made from the record in storage, nothing that was taken away comes back except by
the operation that brings it. A save made from an older record brings back a revoked device.
-/

namespace SignetApp.Family.Edits

open SignetApp.Js

section

variable {derive : JsString → JsString × JsString} {dep : DependantIdentity} {w : World}

variable {r : DependantIdentity} {n : ℕ}

theorem Sound.next_of_ops (h : Sound derive dep w) {op : Operation}
    (hop : w.ops[n]? = some op) (hr : w.history[n]? = some r) :
    w.recordAfter derive dep (n + 1) = op.effect derive r := by
  rw [(h.history n r hr).2]
  exact afterFirst.succ hop

theorem Sound.comesBy (h : Sound derive dep w) {Q : DependantIdentity → Prop} {A : Operation → Prop}
    (hstep : ∀ s op, Q (Operation.effect derive s op) → Q s ∨ A op) {m : ℕ} (hnm : n < m)
    (hn : ¬ Q (w.recordAfter derive dep (n + 1))) (hr : w.history[m]? = some r) (hQ : Q r) :
    ∃ j op, n < j ∧ j < m ∧ w.ops[j]? = some op ∧ A op := by
  rw [(h.history m r hr).2] at hQ
  exact afterFirst.comesBy hstep hnm hn hQ

theorem clear_effect (r : DependantIdentity) :
    (Operation.clearDependantBunkerEndpoint.effect derive r).bunkerEndpoint = none := by
  unfold Operation.effect Operation.run
  dsimp only
  by_cases hnone : r.bunkerEndpoint = none
  · rw [if_pos hnone]
    exact hnone
  · rw [if_neg hnone]

theorem Sound.nothingLost (h : Sound derive dep w) : NothingLost derive dep w where
  serial := by
    rw [h.stored]
    unfold World.recordAfter
    have hlength : w.effects.length = w.ops.length := (List.length_map ..).symm
    rw [hlength, afterFirst.length]
  complete := by
    intro i e he hreturned
    apply h.complete i e he
    rw [hreturned]
    rfl
  once := h.once
  consistent := by
    intro m n x y e e' hx hy he he' t ht hle
    have hmt := h.endedAfter m x e t hx he ht
    have hbegan := h.beganBefore n y e' hy he'
    omega
  cleared := by
    intro n m r r' endpoint endpoint' hop hr hendpoint hnm hr' hendpoint'
    have hgone : (w.recordAfter derive dep (n + 1)).bunkerEndpoint = none := by
      rw [h.next_of_ops hop hr]
      exact clear_effect r
    constructor
    · intro hkey
      have hnot : ¬ ∃ e, (w.recordAfter derive dep (n + 1)).bunkerEndpoint = some e ∧
          e.publicKey = endpoint.publicKey := by
        rintro ⟨e, he, -⟩
        rw [hgone] at he
        cases he
      obtain ⟨j, op, hnj, hjm, hj, privateKey, createdAt, rfl⟩ :=
        h.comesBy (Q := fun s => ∃ e, s.bunkerEndpoint = some e ∧ e.publicKey = endpoint.publicKey)
          (fun _ _ => comesBy_endpoint) hnm hnot hr' ⟨endpoint', hendpoint', hkey⟩
      exact ⟨j, privateKey, createdAt, hnj, hjm, hj⟩
    · intro c hc
      have hnot : ¬ ∃ e, (w.recordAfter derive dep (n + 1)).bunkerEndpoint = some e ∧
          e.pairing.authorizedClientPubkey = some c := by
        rintro ⟨e, he, -⟩
        rw [hgone] at he
        cases he
      obtain ⟨j, op, hnj, hjm, hj, client, rfl, hclient⟩ :=
        h.comesBy (Q := fun s => ∃ e, s.bunkerEndpoint = some e ∧
            e.pairing.authorizedClientPubkey = some c)
          (fun _ _ => comesBy_client) hnm hnot hr' ⟨endpoint', hendpoint', hc⟩
      exact ⟨j, client, hnj, hjm, hj, hclient⟩
  consumed := by
    intro n m r r' secret client _ hr hsecret hnm hr' hsecret'
    have hnot : ¬ (w.recordAfter derive dep (n + 1)).pairingSecret = some secret := by
      rw [← (h.history _ r hr).2]
      exact hsecret
    obtain ⟨j, op, hnj, hjm, hj, rfl⟩ := h.comesBy (Q := fun s => s.pairingSecret = some secret)
      (fun _ _ => comesBy_secret) hnm hnot hr' hsecret'
    exact ⟨j, hnj, hjm, hj⟩
  removed := by
    intro n m r r' personaPubkey now p hop hr hp hnm hr'
    have hgone : Gone personaPubkey p.derivationName (w.recordAfter derive dep (n + 1)) := by
      rw [h.next_of_ops hop hr]
      exact gone_of_remove hp
    have hlater : Gone personaPubkey p.derivationName (w.recordAfter derive dep m) :=
      afterFirst.keeps (fun _ _ hs => hs.effect) hnm hgone
    rw [← (h.history m r' hr').2] at hlater
    exact hlater.absent

theorem nothing_lost (derive : JsString → JsString × JsString) (dep : DependantIdentity) {w : World}
    (h : Reaches (World.next derive) (Careful derive) (.start dep) w) : NothingLost derive dep w :=
  Sound.nothingLost (h.invariant (sound_start dep) fun _ a hw ha => Sound.next hw a ha)

/-! ## Runs -/

def sampleSlot (key : String) : Slot := .derived (lit key) (lit "00") (lit "Mia")

def samplePhone : JsString := lit "a1b2c3"

def sampleEndpoint : DependantBunkerEndpoint where
  publicKey := lit "e0"
  privateKey := lit "d0"
  createdAt := 1767225600
  pairing := ⟨none, some samplePhone⟩

/-- A child whose phone is paired. -/
def sampleDependant : DependantIdentity where
  displayName := lit "Mia"
  derivationPath := lit "dependant-0"
  naturalPerson := sampleSlot "f0"
  naturalPersonActive := true
  persona := sampleSlot "f1"
  extraPersonas := []
  extraPersonaTombstones := []
  primaryKeypair := lit "persona"
  autonomyStage := .fullControl
  auditVisibility := none
  petitionOnDeny := none
  photo := none
  sortIndex := none
  hiddenOnPairedDeviceKeys := []
  bunkerEndpoint := some sampleEndpoint

def sampleDerive (name : JsString) : JsString × JsString := (name, lit "99")

/-- A persona is added and removed, the phone is revoked, and another one is paired. -/
def sampleEdits : List Happening :=
  [.begins (.addDependantPersona (lit "Robin")) 0, .reads 0, .saves 0, .returns 0,
    .begins (.updateAutonomyStage .requestApprove) 1, .saves 1, .returns 1,
    .begins .clearDependantBunkerEndpoint 2, .saves 2, .returns 2,
    .begins (.ensureDependantBunkerEndpoint (lit "e1") (lit "d1") 1767225601) 3, .saves 3, .returns 3,
    .begins (.saveDependantPairingSecret (lit "c0ffee")) 0, .reads 4, .saves 4, .returns 4,
    .begins (.bindDependantBunkerClient (lit "B1C2D3")) 5, .saves 5, .returns 5]

theorem nothing_lost_paired :
    NothingLost sampleDerive sampleDependant
      (sampleEdits.foldl (World.next sampleDerive) (.start sampleDependant)) := by
  apply nothing_lost
  apply Reaches.run
  intro n a ha
  have hlt : n < sampleEdits.length := (List.getElem?_eq_some_iff.1 ha).1
  have hall : ∀ n < sampleEdits.length, ∀ a ∈ sampleEdits[n]?, Careful sampleDerive
      ((sampleEdits.take n).foldl (World.next sampleDerive) (.start sampleDependant)) a := by
    decide +kernel
  exact hall n hlt a ha

/-- The stage is changed from a record of before the revocation. -/
def sampleLag : List Happening :=
  [.begins .clearDependantBunkerEndpoint 0, .saves 0, .returns 0,
    .begins (.updateAutonomyStage .requestApprove) 0, .saves 1, .returns 1]

/-- A revoked phone is stored again by a change of the stage. -/
theorem phone_comes_back : ¬ ∀ (derive : JsString → JsString × JsString) (dep : DependantIdentity)
    (w : World), Reaches (World.next derive) (fun _ _ => True) (.start dep) w →
      NothingLost derive dep w := by
  intro hall
  have hrun : Reaches (World.next sampleDerive) (fun _ _ => True) (.start sampleDependant)
      (sampleLag.foldl (World.next sampleDerive) (.start sampleDependant)) :=
    Reaches.run fun _ _ _ => trivial
  have hserial := (hall _ _ _ hrun).serial
  have hlost : ((sampleLag.foldl (World.next sampleDerive) (.start sampleDependant)).ops.foldl
      (Operation.effect sampleDerive) sampleDependant).bunkerEndpoint = none := by decide +kernel
  have hstored : (sampleLag.foldl (World.next sampleDerive)
      (.start sampleDependant)).stored.bunkerEndpoint = some sampleEndpoint := by decide +kernel
  rw [hserial, hlost] at hstored
  cases hstored

end

end SignetApp.Family.Edits
