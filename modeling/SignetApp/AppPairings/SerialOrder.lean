import Mathlib.Data.List.Basic
import SignetApp.Concurrency.Reach
import SignetApp.Concurrency.Serial
import SignetApp.Js.SafeUrl

/-!
# The apps and the phone of a dependant

`db.ts`: the endpoint that a dependant's apps are paired to. Each function reads the whole record, changes one
field of it, and writes all of it back; other calls may act in between.
-/

namespace SignetApp.AppPairings

open SignetApp.Js

def trustedAppPairingCap : ℕ := 5

inductive PairingKind where
  | app | charter
  deriving DecidableEq

structure TrustedAppPairing where
  clientPubkey : JsString
  label : JsString
  origin : Option JsString := none
  pairedAt : ℕ
  lastSeenAt : Option ℕ := none
  kind : Option PairingKind := none
  deriving DecidableEq

structure TrustedAppEndpoint where
  publicKey : JsString
  privateKey : JsString
  createdAt : ℕ
  pairingSecret : Option JsString := none
  pairings : List TrustedAppPairing
  deriving DecidableEq

/-- Of a phone's pairing, the key it signs with. -/
structure ChildDevice where
  clientPubkey : JsString
  deriving DecidableEq

/-- Of the endpoint that the child's own phone connects to, the phone that may. -/
structure BunkerEndpoint where
  authorizedClientPubkey : Option JsString
  deriving DecidableEq

/-- A dependant that has not been handed over, with its secrets opened. -/
structure DependantIdentity where
  bunkerEndpoint : Option BunkerEndpoint
  appBunkerEndpoint : Option TrustedAppEndpoint
  childDevice : Option ChildDevice
  deriving DecidableEq

/-! ## What each function changes -/

/-- What a call is given while it runs: a fresh key pair, and the time. -/
structure Surroundings where
  publicKey : Hex 64
  privateKey : Hex 64
  now : ℕ

/-- What a function saves, if it saves anything, and what it returns; or what it throws. -/
abbrev Change := Except JsString (Option DependantIdentity × Option TrustedAppEndpoint)

def nothing : Change := .ok (none, none)

/-- `{ ...dep, appBunkerEndpoint }`. -/
def saveEndpoint (dep : DependantIdentity) (endpoint : TrustedAppEndpoint) : Change :=
  .ok (some { dep with appBunkerEndpoint := some endpoint }, none)

def noEndpoint : JsString := lit "Dependant has no app-bunker endpoint"

def TrustedAppEndpoint.complete (endpoint : TrustedAppEndpoint) : Bool :=
  endpoint.privateKey ≠ [] && endpoint.publicKey ≠ []

def ensureAppBunkerEndpoint (env : Surroundings) (dep : DependantIdentity) : Change :=
  let endpoint : TrustedAppEndpoint := {
    publicKey := env.publicKey.val
    privateKey := env.privateKey.val
    createdAt := env.now
    pairings := [] }
  match dep.appBunkerEndpoint.filter TrustedAppEndpoint.complete with
  | some held => .ok (none, some held)
  | none => .ok (some { dep with appBunkerEndpoint := some endpoint }, some endpoint)

def setAppBunkerPairingSecret (secret : JsString) (dep : DependantIdentity) : Change :=
  match dep.appBunkerEndpoint with
  | none => .error noEndpoint
  | some endpoint =>
    if endpoint.pairingSecret = some secret then nothing
    else saveEndpoint dep { endpoint with pairingSecret := some secret }

def clearAppBunkerPairingSecret (dep : DependantIdentity) : Change :=
  match dep.appBunkerEndpoint with
  | none => nothing
  | some endpoint =>
    if endpoint.pairingSecret.getD [] = [] then nothing
    else saveEndpoint dep { endpoint with pairingSecret := none }

/-- The same client, in whichever case it was stored. -/
def TrustedAppPairing.isOf (pairing : TrustedAppPairing) (client : JsString) : Bool :=
  toLowerCase pairing.clientPubkey = client

def nextPairingsForBind (now : ℕ) (current : List TrustedAppPairing) (pairing : TrustedAppPairing) :
    Except JsString (List TrustedAppPairing) :=
  let lcClient := toLowerCase pairing.clientPubkey
  if current.any fun p => p.isOf lcClient then
    .ok (current.map fun p =>
      if p.isOf lcClient then { p with lastSeenAt := some ((pairing.lastSeenAt.or p.lastSeenAt).getD now) } else p)
  else if trustedAppPairingCap ≤ current.length then .error (lit "pairing slot limit reached")
  else .ok (current ++ [{ pairing with clientPubkey := lcClient }])

/-- The two functions that bind differ in what they leave of the secret. -/
def bind (secret : Option JsString → Option JsString) (env : Surroundings) (pairing : TrustedAppPairing)
    (dep : DependantIdentity) : Change :=
  match dep.appBunkerEndpoint with
  | none => .error noEndpoint
  | some endpoint =>
    match nextPairingsForBind env.now endpoint.pairings pairing with
    | .error message => .error message
    | .ok pairings => saveEndpoint dep { endpoint with pairings, pairingSecret := secret endpoint.pairingSecret }

def addAppBunkerPairing (env : Surroundings) (pairing : TrustedAppPairing) (dep : DependantIdentity) : Change :=
  bind id env pairing dep

def addAppBunkerPairingAndClearSecret (env : Surroundings) (pairing : TrustedAppPairing) (dep : DependantIdentity) :
    Change := bind (fun _ => none) env pairing dep

def removeAppBunkerPairing (clientPubkey : JsString) (dep : DependantIdentity) : Change :=
  match dep.appBunkerEndpoint with
  | none => nothing
  | some endpoint =>
    let next := endpoint.pairings.filter fun p => !p.isOf (toLowerCase clientPubkey)
    if next.length = endpoint.pairings.length then nothing else saveEndpoint dep { endpoint with pairings := next }

def touchAppBunkerPairing (env : Surroundings) (clientPubkey : JsString) (dep : DependantIdentity) : Change :=
  match dep.appBunkerEndpoint with
  | none => nothing
  | some endpoint =>
    let lcClient := toLowerCase clientPubkey
    if endpoint.pairings.any fun p => p.isOf lcClient then
      saveEndpoint dep { endpoint with
        pairings := endpoint.pairings.map fun p => if p.isOf lcClient then { p with lastSeenAt := some env.now } else p }
    else nothing

/-- The phone goes, and so does the right of its key to connect. -/
def clearChildDevice (row : DependantIdentity) : Change :=
  match row.childDevice with
  | none => nothing
  | some childDevice =>
    .ok (some { row with
      childDevice := none
      bunkerEndpoint := row.bunkerEndpoint.map fun endpoint =>
        if endpoint.authorizedClientPubkey.getD [] ≠ [] ∧
            endpoint.authorizedClientPubkey = some childDevice.clientPubkey then
          { endpoint with authorizedClientPubkey := none }
        else endpoint }, none)

inductive Call where
  | ensureAppBunkerEndpoint
  | setAppBunkerPairingSecret (secret : JsString)
  | clearAppBunkerPairingSecret
  | addAppBunkerPairing (pairing : TrustedAppPairing)
  | addAppBunkerPairingAndClearSecret (pairing : TrustedAppPairing)
  | removeAppBunkerPairing (clientPubkey : JsString)
  | touchAppBunkerPairing (clientPubkey : JsString)
  | clearChildDevice

def Call.change (env : Surroundings) : Call → DependantIdentity → Change
  | .ensureAppBunkerEndpoint => AppPairings.ensureAppBunkerEndpoint env
  | .setAppBunkerPairingSecret secret => AppPairings.setAppBunkerPairingSecret secret
  | .clearAppBunkerPairingSecret => AppPairings.clearAppBunkerPairingSecret
  | .addAppBunkerPairing pairing => AppPairings.addAppBunkerPairing env pairing
  | .addAppBunkerPairingAndClearSecret pairing => AppPairings.addAppBunkerPairingAndClearSecret env pairing
  | .removeAppBunkerPairing clientPubkey => AppPairings.removeAppBunkerPairing clientPubkey
  | .touchAppBunkerPairing clientPubkey => AppPairings.touchAppBunkerPairing env clientPubkey
  | .clearChildDevice => AppPairings.clearChildDevice

/-! ## The store -/

/-- An empty secret is not stored. -/
def TrustedAppEndpoint.stored (endpoint : TrustedAppEndpoint) : TrustedAppEndpoint :=
  { endpoint with pairingSecret := endpoint.pairingSecret.filter (· ≠ []) }

/-- What `saveDependant` puts: a record without a phone keeps the one that was last read. -/
def toStore (dependant : DependantIdentity) (existing : Option ChildDevice) : DependantIdentity :=
  { dependant with
    appBunkerEndpoint := dependant.appBunkerEndpoint.map TrustedAppEndpoint.stored
    childDevice := dependant.childDevice.or existing }

/-- A call that has had its effect; `since` is how many had theirs when it was made. -/
structure Served where
  caller : ℕ
  call : Call
  env : Surroundings
  since : ℕ
  answer : Option TrustedAppEndpoint

/-- A call under way. -/
inductive CallState where
  | idle
  | called (call : Call) (since : ℕ)
  /-- The record was read as `base`; `updated` is being sealed. -/
  | saving (effect : Served) (base updated : DependantIdentity)
  /-- All that is left is to put `next`. -/
  | writing (effect : Served) (base next : DependantIdentity)
  | returned (answer : Option TrustedAppEndpoint)
  | threw (message : JsString)

structure World where
  stored : DependantIdentity
  calls : ℕ → CallState
  /-- The calls in the order of their effects. -/
  served : List Served

def World.setCall (w : World) (i : ℕ) (state : CallState) : World :=
  { w with calls := fun j => if j = i then state else w.calls j }

def World.serve (w : World) (effect : Served) : World :=
  ({ w with served := w.served ++ [effect] }).setCall effect.caller (.returned effect.answer)

inductive Happening where
  | call (i : ℕ) (call : Call)
  /-- The record is read. -/
  | read (i : ℕ) (env : Surroundings)
  /-- The stored phone is read, outside the transaction. -/
  | reread (i : ℕ)
  | put (i : ℕ)

def next (w : World) : Happening → World
  | .call i call =>
    match w.calls i with
    | .idle => w.setCall i (.called call w.served.length)
    | _ => w
  | .read i env =>
    match w.calls i with
    | .called call since =>
      match call.change env w.stored with
      | .error message => w.setCall i (.threw message)
      | .ok (none, answer) => w.serve ⟨i, call, env, since, answer⟩
      | .ok (some updated, answer) =>
        match call with
        | .clearChildDevice => w.setCall i (.writing ⟨i, call, env, since, answer⟩ w.stored updated)
        | _ => w.setCall i (.saving ⟨i, call, env, since, answer⟩ w.stored updated)
    | _ => w
  | .reread i =>
    match w.calls i with
    | .saving effect base updated => w.setCall i (.writing effect base (toStore updated w.stored.childDevice))
    | _ => w
  | .put i =>
    match w.calls i with
    | .writing effect _ next => ({ w with stored := next }).serve effect
    | _ => w

/-- What a call puts is put over what it read. -/
def Undisturbed (w : World) : Happening → Prop
  | .put i =>
    match w.calls i with
    | .writing _ base _ => w.stored = base
    | _ => True
  | _ => True

/-!
## Calls in one order

If what a call puts is put over what it read, the calls act as if one after another, in the order of their
effects. What such an order keeps, every run keeps.
-/

/-! ## One effect -/

/-- What is put of what a call saves, where no phone was stored meanwhile. -/
def Call.puts : Call → DependantIdentity → DependantIdentity
  | .clearChildDevice, row => row
  | _, dependant => toStore dependant none

/-- The effect of a call that acts at once. -/
def serveOn (dep : DependantIdentity) (effect : Served) : DependantIdentity :=
  match effect.call.change effect.env dep with
  | .ok (some updated, _) => effect.call.puts updated
  | _ => dep

/-- What the endpoint becomes, where one is saved: of each function, what it saves. -/
inductive Saves (env : Surroundings) (dep : DependantIdentity) : Call → DependantIdentity → Prop where
  | ensure (h : dep.appBunkerEndpoint.filter TrustedAppEndpoint.complete = none) :
      Saves env dep .ensureAppBunkerEndpoint { dep with
        appBunkerEndpoint := some ⟨env.publicKey.val, env.privateKey.val, env.now, none, []⟩ }
  | endpoint {call : Call} (held next : TrustedAppEndpoint) (h : dep.appBunkerEndpoint = some held)
      (hkeys : next.publicKey = held.publicKey ∧ next.privateKey = held.privateKey)
      (hsecret : next.pairingSecret = held.pairingSecret ∨ next.pairingSecret = none ∨
        ∃ secret, call = .setAppBunkerPairingSecret secret ∧ next.pairingSecret = some secret)
      (hpairings : ((∃ secret, call = .setAppBunkerPairingSecret secret) ∨ call = .clearAppBunkerPairingSecret) ∧
          next.pairings = held.pairings ∨
        (∃ pairing, (call = .addAppBunkerPairing pairing ∨ call = .addAppBunkerPairingAndClearSecret pairing) ∧
          nextPairingsForBind env.now held.pairings pairing = .ok next.pairings) ∨
        (∃ client, call = .removeAppBunkerPairing client ∧
          next.pairings = held.pairings.filter fun p => !p.isOf (toLowerCase client)) ∨
        ∃ client, call = .touchAppBunkerPairing client ∧ next.pairings = held.pairings.map fun p =>
          if p.isOf (toLowerCase client) then { p with lastSeenAt := some env.now } else p)
      (hcleared : call = .clearAppBunkerPairingSecret ∨ (∃ pairing, call = .addAppBunkerPairingAndClearSecret pairing) →
        next.pairingSecret = none) :
      Saves env dep call { dep with appBunkerEndpoint := some next }
  | device (childDevice : ChildDevice) (bunkerEndpoint : Option BunkerEndpoint) (h : dep.childDevice = some childDevice) :
      Saves env dep .clearChildDevice { dep with childDevice := none, bunkerEndpoint }

variable {dep updated : DependantIdentity} {env : Surroundings}

variable {answer : Option TrustedAppEndpoint}

theorem bind_saves {secret : Option JsString → Option JsString} {pairing : TrustedAppPairing}
    (h : bind secret env pairing dep = .ok (some updated, answer)) :
    ∃ held pairings, dep.appBunkerEndpoint = some held ∧
      nextPairingsForBind env.now held.pairings pairing = .ok pairings ∧
      updated = { dep with
        appBunkerEndpoint := some { held with pairings, pairingSecret := secret held.pairingSecret } } := by
  unfold bind at h
  split at h
  · cases h
  · rename_i held hheld
    split at h
    · cases h
    · rename_i pairings hpairings
      cases h
      exact ⟨held, pairings, hheld, hpairings, rfl⟩

variable {call : Call}

/-- **What a function can save.** -/
theorem saves_of_change (h : call.change env dep = .ok (some updated, answer)) :
    Saves env dep call updated := by
  cases call with
  | ensureAppBunkerEndpoint =>
    simp only [Call.change, ensureAppBunkerEndpoint] at h
    split at h
    · cases h
    · rename_i hnone
      cases h
      exact .ensure hnone
  | setAppBunkerPairingSecret secret =>
    simp only [Call.change, setAppBunkerPairingSecret, saveEndpoint, nothing] at h
    split at h
    · cases h
    · rename_i held hheld
      split at h
      · cases h
      · cases h
        refine .endpoint held _ hheld ⟨rfl, rfl⟩ (.inr (.inr ⟨secret, rfl, rfl⟩)) (.inl ⟨.inl ⟨secret, rfl⟩, rfl⟩) ?_
        rintro (hcall | ⟨pairing, hcall⟩) <;> cases hcall
  | clearAppBunkerPairingSecret =>
    simp only [Call.change, clearAppBunkerPairingSecret, saveEndpoint, nothing] at h
    split at h
    · cases h
    · rename_i held hheld
      split at h
      · cases h
      · cases h
        exact .endpoint held _ hheld ⟨rfl, rfl⟩ (.inr (.inl rfl)) (.inl ⟨.inr rfl, rfl⟩) fun _ => rfl
  | addAppBunkerPairing pairing =>
    obtain ⟨held, pairings, hheld, hpairings, rfl⟩ := bind_saves h
    refine .endpoint held _ hheld ⟨rfl, rfl⟩ (.inl rfl) (.inr (.inl ⟨pairing, .inl rfl, hpairings⟩)) ?_
    rintro (hcall | ⟨pairing, hcall⟩) <;> cases hcall
  | addAppBunkerPairingAndClearSecret pairing =>
    have hbind : bind (fun _ => none) env pairing dep = .ok (some updated, answer) := h
    obtain ⟨held, pairings, hheld, hpairings, rfl⟩ := bind_saves hbind
    exact .endpoint held _ hheld ⟨rfl, rfl⟩ (.inr (.inl rfl)) (.inr (.inl ⟨pairing, .inr rfl, hpairings⟩)) fun _ => rfl
  | removeAppBunkerPairing client =>
    simp only [Call.change, removeAppBunkerPairing, saveEndpoint, nothing] at h
    split at h
    · cases h
    · rename_i held hheld
      split at h
      · cases h
      · cases h
        refine .endpoint held _ hheld ⟨rfl, rfl⟩ (.inl rfl) (.inr (.inr (.inl ⟨client, rfl, rfl⟩))) ?_
        rintro (hcall | ⟨pairing, hcall⟩) <;> cases hcall
  | touchAppBunkerPairing client =>
    simp only [Call.change, touchAppBunkerPairing, saveEndpoint, nothing] at h
    split at h
    · cases h
    · rename_i held hheld
      split at h
      · cases h
        refine .endpoint held _ hheld ⟨rfl, rfl⟩ (.inl rfl) (.inr (.inr (.inr ⟨client, rfl, rfl⟩))) ?_
        rintro (hcall | ⟨pairing, hcall⟩) <;> cases hcall
      · cases h
  | clearChildDevice =>
    simp only [Call.change, clearChildDevice, nothing] at h
    split at h
    · cases h
    · rename_i childDevice hdevice
      cases h
      exact .device childDevice _ hdevice

theorem serveOn_cases (dep : DependantIdentity) (effect : Served) :
    serveOn dep effect = dep ∨
      ∃ updated, Saves effect.env dep effect.call updated ∧ serveOn dep effect = effect.call.puts updated := by
  unfold serveOn
  split
  · rename_i updated answer h
    exact .inr ⟨updated, saves_of_change h, rfl⟩
  · exact .inl rfl

theorem puts_of_ne (h : call ≠ .clearChildDevice) (dependant : DependantIdentity) :
    call.puts dependant = toStore dependant none := by
  cases call with
  | clearChildDevice => exact absurd rfl h
  | _ => rfl

theorem Saves.childDevice_eq
    (h : Saves env dep call updated) (hcall : call ≠ .clearChildDevice) : updated.childDevice = dep.childDevice := by
  cases h with
  | ensure => rfl
  | endpoint => rfl
  | device => exact absurd rfl hcall

theorem childDevice_serveOn (dep : DependantIdentity) (effect : Served) (h : dep.childDevice = none) :
    (serveOn dep effect).childDevice = none := by
  obtain heq | ⟨updated, hsaves, heq⟩ := serveOn_cases dep effect
  · rw [heq, h]
  · rw [heq]
    by_cases hcall : effect.call = .clearChildDevice
    · rw [hcall] at hsaves ⊢
      cases hsaves with
      | endpoint => exact h
      | device => rfl
    · rw [puts_of_ne hcall]
      show updated.childDevice.or none = none
      rw [hsaves.childDevice_eq hcall, h]
      rfl

/-! ## The order of effects -/

/-- The record after the first effects. -/
abbrev afterEffects (start w : World) (n : ℕ) : DependantIdentity := afterFirst serveOn start.stored w.served n

/-- The call has had no effect yet. -/
def World.Unserved (w : World) (i : ℕ) : Prop := ∀ effect ∈ w.served, effect.caller ≠ i

/-- What holds of a call under way. -/
def CallInv (w : World) (i : ℕ) : CallState → Prop
  | .idle => w.Unserved i
  | .called _ since => since ≤ w.served.length ∧ w.Unserved i
  | .saving effect base updated => effect.caller = i ∧ effect.since ≤ w.served.length ∧ w.Unserved i ∧
      effect.call ≠ .clearChildDevice ∧ effect.call.change effect.env base = .ok (some updated, effect.answer) ∧
      (updated.childDevice = none → w.stored.childDevice = none)
  | .writing effect base next => effect.caller = i ∧ effect.since ≤ w.served.length ∧ w.Unserved i ∧
      serveOn base effect = next ∧ ∃ saved, effect.call.change effect.env base = .ok (saved, effect.answer)
  | .returned answer => ∃ effect ∈ w.served, effect.caller = i ∧ effect.answer = answer
  | .threw _ => w.Unserved i

/-- The calls so far act as if one after another, each at its effect. -/
structure Serial (start w : World) : Prop where
  stored : w.stored = afterEffects start w w.served.length
  answers : ∀ (k : ℕ) (effect : Served), w.served[k]? = some effect →
    ∃ saved, effect.call.change effect.env (afterEffects start w k) = .ok (saved, effect.answer)
  since : ∀ (k : ℕ) (effect : Served), w.served[k]? = some effect → effect.since ≤ k
  once : (w.served.map Served.caller).Nodup
  calls : ∀ i, CallInv w i (w.calls i)
  returned : ∀ effect ∈ w.served, w.calls effect.caller = .returned effect.answer

section

variable {start w w' : World} {i : ℕ} {effect : Served}

variable {state : CallState}

/-- What the others do leaves a call as it was. -/
theorem CallInv.frame (h : CallInv w i state)
    (hserved : w'.served = w.served ∨ ∃ effect : Served, effect.caller ≠ i ∧ w'.served = w.served ++ [effect])
    (hdevice : w.stored.childDevice = none → w'.stored.childDevice = none) : CallInv w' i state := by
  have hunserved : w.Unserved i → w'.Unserved i := by
    intro hnone effect heffect
    obtain heq | ⟨other, hother, heq⟩ := hserved
    · exact hnone effect (heq ▸ heffect)
    · rw [heq] at heffect
      rcases List.mem_append.1 heffect with hold | hnew
      · exact hnone effect hold
      · rwa [List.mem_singleton.1 hnew]
  have hlength : w.served.length ≤ w'.served.length := by
    obtain heq | ⟨other, -, heq⟩ := hserved
    · rw [heq]
    · rw [heq, List.length_append]
      exact Nat.le_add_right _ _
  have hmem : ∀ effect ∈ w.served, effect ∈ w'.served := by
    intro effect heffect
    obtain heq | ⟨other, -, heq⟩ := hserved
    · rwa [heq]
    · rw [heq]
      exact List.mem_append_left _ heffect
  cases state with
  | idle => exact hunserved h
  | called call since => exact ⟨h.1.trans hlength, hunserved h.2⟩
  | saving effect base updated =>
    obtain ⟨hcaller, hsince, hnone, hcall, hchange, hphone⟩ := h
    exact ⟨hcaller, hsince.trans hlength, hunserved hnone, hcall, hchange, fun hnil => hdevice (hphone hnil)⟩
  | writing effect base next =>
    obtain ⟨hcaller, hsince, hnone, hnext, hchange⟩ := h
    exact ⟨hcaller, hsince.trans hlength, hunserved hnone, hnext, hchange⟩
  | returned answer =>
    obtain ⟨effect, heffect, hcaller, hanswer⟩ := h
    exact ⟨effect, hmem effect heffect, hcaller, hanswer⟩
  | threw message => exact hunserved h

theorem Serial.setCall (h : Serial start w) (hnone : w.Unserved i) (hcall : CallInv w i state) :
    Serial start (w.setCall i state) where
  stored := h.stored
  answers := h.answers
  since := h.since
  once := h.once
  calls j := by
    show CallInv _ j (if j = i then state else w.calls j)
    split
    · rename_i hji
      subst hji
      exact hcall.frame (.inl rfl) id
    · exact (h.calls j).frame (.inl rfl) id
  returned effect heffect := by
    show (if effect.caller = i then state else w.calls effect.caller) = _
    rw [if_neg (hnone effect heffect), h.returned effect heffect]

/-- **A call has its effect.** -/
theorem Serial.serve (h : Serial start w) (hsince : effect.since ≤ w.served.length) (hnew : w.Unserved effect.caller)
    {stored : DependantIdentity} (hstored : serveOn w.stored effect = stored)
    (hanswer : ∃ saved, effect.call.change effect.env w.stored = .ok (saved, effect.answer)) :
    Serial start (({ w with stored } : World).serve effect) := by
  have hearlier : ∀ k ≤ w.served.length, afterFirst serveOn start.stored (w.served ++ [effect]) k =
      afterFirst serveOn start.stored w.served k := fun k hk => afterFirst.append effect hk
  have hnow : afterFirst serveOn start.stored w.served w.served.length = w.stored := h.stored.symm
  have hlast : (w.served ++ [effect])[w.served.length]? = some effect := by simp
  have hget : ∀ (k : ℕ) (other : Served), (w.served ++ [effect])[k]? = some other →
      k < w.served.length ∧ w.served[k]? = some other ∨ k = w.served.length ∧ other = effect := by
    intro k other hk
    rw [List.getElem?_append] at hk
    split at hk
    · rename_i hlt
      exact .inl ⟨hlt, hk⟩
    · rename_i hge
      have hlt := (List.getElem?_eq_some_iff.1 hk).1
      rw [List.length_singleton] at hlt
      have hk' : k = w.served.length := by omega
      rw [hk', Nat.sub_self] at hk
      cases hk
      exact .inr ⟨hk', rfl⟩
  refine ⟨?_, ?_, ?_, ?_, ?_, ?_⟩
  · show stored = afterFirst serveOn start.stored (w.served ++ [effect]) (w.served ++ [effect]).length
    rw [List.length_append, List.length_singleton, afterFirst.succ hlast, hearlier _ le_rfl, hnow, hstored]
  · intro k other hk
    show ∃ saved, other.call.change other.env (afterFirst serveOn start.stored (w.served ++ [effect]) k) = _
    obtain ⟨hlt, hold⟩ | ⟨rfl, rfl⟩ := hget k other hk
    · rw [hearlier k hlt.le]
      exact h.answers k other hold
    · rw [hearlier _ le_rfl, hnow]
      exact hanswer
  · intro k other hk
    obtain ⟨-, hold⟩ | ⟨rfl, rfl⟩ := hget k other hk
    · exact h.since k other hold
    · exact hsince
  · show ((w.served ++ [effect]).map Served.caller).Nodup
    rw [List.map_append, List.nodup_append]
    refine ⟨h.once, List.nodup_singleton _, ?_⟩
    rintro caller hcaller _ hlater rfl
    obtain ⟨other, hother, rfl⟩ := List.mem_map.1 hcaller
    exact hnew other hother (List.mem_singleton.1 hlater)
  · intro j
    show CallInv _ j (if j = effect.caller then .returned effect.answer else w.calls j)
    split
    · rename_i hj
      exact ⟨effect, List.mem_append_right _ (List.mem_singleton.2 rfl), hj.symm, rfl⟩
    · rename_i hj
      refine (h.calls j).frame (.inr ⟨effect, Ne.symm hj, rfl⟩) fun hnone => ?_
      show stored.childDevice = none
      rw [← hstored]
      exact childDevice_serveOn _ _ hnone
  · intro other hother
    show (if other.caller = effect.caller then .returned effect.answer else w.calls other.caller) = _
    rcases List.mem_append.1 hother with hold | hlast
    · rw [if_neg (hnew other hold), h.returned other hold]
    · rw [List.mem_singleton.1 hlast, if_pos rfl]

theorem toStore_reread {base updated : DependantIdentity} {existing : Option ChildDevice}
    (hchange : effect.call.change effect.env base = .ok (some updated, effect.answer))
    (hcall : effect.call ≠ .clearChildDevice) (hphone : updated.childDevice = none → existing = none) :
    serveOn base effect = toStore updated existing := by
  have hserve : serveOn base effect = toStore updated none := by
    unfold serveOn
    rw [hchange]
    exact puts_of_ne hcall updated
  rw [hserve, toStore, toStore]
  cases hdevice : updated.childDevice with
  | none => rw [hphone hdevice]
  | some childDevice => rfl

/-- **Each step keeps the order.** -/
theorem Serial.next (h : Serial start w) (a : Happening) (ha : Undisturbed w a) : Serial start (next w a) := by
  cases a with
  | call i call =>
    have hcall := h.calls i
    unfold AppPairings.next
    dsimp only
    split
    · rename_i hidle
      rw [hidle] at hcall
      exact h.setCall hcall ⟨le_rfl, hcall⟩
    · exact h
  | read i env =>
    have hcall := h.calls i
    unfold AppPairings.next
    dsimp only
    split
    · rename_i call since hcalled
      rw [hcalled] at hcall
      obtain ⟨hsince, hnone⟩ := hcall
      split
      · exact h.setCall hnone hnone
      · rename_i answer hchange
        have hserve : serveOn w.stored ⟨i, call, env, since, answer⟩ = w.stored := by
          unfold serveOn
          rw [hchange]
        exact h.serve hsince hnone hserve ⟨none, hchange⟩
      · rename_i updated answer hchange
        split
        · refine h.setCall hnone ⟨rfl, hsince, hnone, ?_, _, hchange⟩
          unfold serveOn
          rw [hchange]
          rfl
        · rename_i hother
          have hne : call ≠ .clearChildDevice := fun heq => hother heq
          refine h.setCall hnone ⟨rfl, hsince, hnone, hne, hchange, fun hnil => ?_⟩
          rw [← hnil, (saves_of_change hchange).childDevice_eq hne]
    · exact h
  | reread i =>
    have hcall := h.calls i
    unfold AppPairings.next
    dsimp only
    split
    · rename_i effect base updated hsaving
      rw [hsaving] at hcall
      obtain ⟨hcaller, hsince, hnone, hother, hchange, hphone⟩ := hcall
      exact h.setCall hnone ⟨hcaller, hsince, hnone, toStore_reread hchange hother hphone, _, hchange⟩
    · exact h
  | put i =>
    have hcall := h.calls i
    unfold AppPairings.next
    unfold Undisturbed at ha
    dsimp only at ha ⊢
    split
    · rename_i effect base next hwriting
      rw [hwriting] at hcall ha
      obtain ⟨rfl, hsince, hnone, hnext, hchange⟩ := hcall
      have hbase : w.stored = base := ha
      subst hbase
      exact h.serve hsince hnone hnext hchange
    · exact h

end

end SignetApp.AppPairings
