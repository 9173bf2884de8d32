import SignetApp.ChildLink.CachedRules
import SignetApp.Sync.Decimal

/-!
# A paired phone

What holds of the link in every run, and of the cached rules in every run whose writes land in order.
-/

namespace SignetApp.ChildLink

open SignetApp.Js
open SignetApp.Contacts (Hex64)
open SignetApp.Pairing (NostrEvent Signatures)

/-- The link as its first rendering leaves it. -/
def DeviceLink.start (options : Options) (cache : Hex64 → Option ChildRulesPayload) : DeviceLink where
  options
  candidates := options.candidates none
  cacheRead := false
  committed := none
  tasks := []
  cache
  accepted := fun dep => (cache dep).toList
  rules := ⟨0, none, none, false, []⟩
  pairing := ⟨0, none, 0, false, false, []⟩
  ceremony := ⟨fun _ => none, [], [], fun _ => none, []⟩

namespace DeviceLink

theorem newestOf_toList (r : Option ChildRulesPayload) : NewestOf r.toList r := by
  cases r with
  | none => rfl
  | some r => exact ⟨List.mem_cons_self, fun p hp => by rw [List.mem_singleton.1 hp]⟩

theorem ordered_start (options : Options) (cache : Hex64 → Option ChildRulesPayload) :
    (start options cache).Ordered where
  settled dep := newestOf_toList (cache dep)
  linked l hl := by cases hl
  gens t ht := absurd ht List.not_mem_nil
  loading dep hd := absurd hd List.not_mem_nil
  loaded dep payload hd := absurd hd List.not_mem_nil
  memory l hl := by cases hl
  read l hl := by cases hl
  gone hu := by cases hu

/-- What the cache holds once nothing is to be written any more. -/
structure Cached (w : DeviceLink) : Prop where
  newest : ∀ dep, writes w.tasks dep = [] → NewestOf (w.accepted dep) (w.cache dep)
  memory : ∀ l, w.rules.linked = some l → w.reading = false → writes w.tasks l.dep = [] →
    w.rules.rules = w.cache l.dep
  gone : w.pairing.unpaired = true → ∀ dep, w.committedDep = some dep → writes w.tasks dep = [] →
    w.cache dep = none

theorem Cached.newest_of {w : DeviceLink} (h : w.Cached) {dep : Hex64} {r : Option ChildRulesPayload}
    (hwritten : writes w.tasks dep = []) (hcache : w.cache dep = r) : NewestOf (w.accepted dep) r :=
  hcache ▸ h.newest dep hwritten

theorem Ordered.cached {w : DeviceLink} (h : w.Ordered) : w.Cached := by
  have hsettled : ∀ {dep}, writes w.tasks dep = [] → w.settled dep = w.cache dep := by
    intro dep hdep
    rw [DeviceLink.settled, hdep]
    rfl
  constructor
  · intro dep hdep
    rw [← hsettled hdep]
    exact h.settled dep
  · intro l hl hreading hdep
    rw [← hsettled hdep]
    exact h.read l hl (w.reading_eq_false.1 hreading)
  · intro hu dep hcommit hdep
    rw [← hsettled hdep]
    exact h.gone hu dep hcommit

variable [Numerals] [Signatures]

theorem inv_start (options : Options) (cache : Hex64 → Option ChildRulesPayload) : (start options cache).Inv where
  newest := rfl
  silent _ := rfl
  watch := ⟨Nat.zero_le _, fun _ hw => absurd hw List.not_mem_nil, fun hw => absurd hw List.not_mem_nil,
    fun hu => by cases hu⟩
  approvals := ⟨fun _ hpr => absurd hpr List.not_mem_nil, fun k t ht => by cases ht⟩

/-- What every run keeps. -/
structure Kept (w : DeviceLink) : Prop where
  /-- In memory are the newest of the rules that were offered since the link was set up. -/
  newest : NewestOf w.rules.offered w.rules.rules
  silent : w.pairing.unpaired = true → w.rules.rules = none
  why : w.pairing.unpaired = true → Why w.pairing.heard
  deferred : ∀ pr ∈ w.ceremony.probes, pr.deferred = true → pr.force = true
  /-- A forced call ends with the result of its probe, or found no connection to probe. -/
  forced : ∀ k t how, w.ceremony.turns[k]? = some t → t.force = true → t.phase = .ended how →
    (how = .unavailable ∧ how.result = false) ∨
      ∃ ok, how = .probed ok ∧ how.result = ok ∧ ∃ pr ∈ w.ceremony.probes, pr.turn = k ∧ pr.persona = t.persona

theorem Inv.kept {w : DeviceLink} (h : w.Inv) : w.Kept := by
  refine ⟨h.newest, h.silent, h.watch.why, h.approvals.probes, fun k t how ht hforce hended => ?_⟩
  have hkeeps := h.approvals.turns k t ht hforce
  rw [hended] at hkeeps
  rcases hkeeps with rfl | ⟨ok, rfl, hprobe⟩
  · exact .inl ⟨rfl, rfl⟩
  · exact .inr ⟨ok, rfl, rfl, hprobe⟩

end DeviceLink

open DeviceLink

section

attribute [local instance] Sync.decimalNumerals

@[reducible] def noSignatures : Signatures := ⟨fun _ => false⟩

attribute [local instance] noSignatures

def boundPersona : JsString := List.replicate 64 97

def otherPersona : JsString := List.replicate 64 98

def sampleDependant : Hex64 := Hex.repeated 64 1

def sampleRecord : PairedChildRecord where
  id := lit "child"
  dependantPubkey := sampleDependant
  clientPub := List.replicate 64 99
  clientPriv := List.replicate 64 100
  railPub := List.replicate 64 101
  railRelay := lit "wss://relay.example"
  personaPubkey := boundPersona
  personas := [boundPersona, otherPersona]
  identityApprovals := []

/-- A phone whose router is not up. -/
def sampleOptions : Options := ⟨some sampleRecord, lit "key", none, [], []⟩

def nothingCached : Hex64 → Option ChildRulesPayload := fun _ => none

/-- "Approve now", with no connection to the device. -/
def unreachable : List LinkHappening := [.commit, .retryApproval otherPersona, .begin 0]

theorem unreachable_end :
    (unreachable.foldl DeviceLink.next (start sampleOptions nothingCached)).ceremony.turns =
        [⟨otherPersona, true, .ended .unavailable⟩] ∧
      (unreachable.foldl DeviceLink.next (start sampleOptions nothingCached)).ceremony.probes = [] := by
  decide

theorem unreachable_reaches : Reaches DeviceLink.next (fun _ _ => True) (start sampleOptions nothingCached)
    (unreachable.foldl DeviceLink.next (start sampleOptions nothingCached)) := .run fun _ _ _ => trivial

def sampleRules : ChildRulesPayload := ⟨1000, none, []⟩

def sampleEvent : NostrEvent := ⟨lit "id", lit "rail", 30078, 1, [], [], []⟩

/-- Rules arrive when the cache was read, and are saved. -/
def saved : List LinkHappening :=
  [.commit, .settle 0 .ok, .settle 0 .ok, .event sampleEvent (some sampleRules), .settle 0 .ok, .settle 0 .ok]

theorem saved_end :
    (saved.foldl DeviceLink.next (start sampleOptions nothingCached)).tasks = [] ∧
      (saved.foldl DeviceLink.next (start sampleOptions nothingCached)).cache sampleDependant = some sampleRules := by
  decide +kernel

instance (w : DeviceLink) (e : LinkHappening) : Decidable (Orderly w e) := by
  unfold Orderly
  cases e <;> infer_instance

theorem saved_orderly (n : Fin saved.length) :
    Orderly ((saved.take n).foldl DeviceLink.next (start sampleOptions nothingCached)) saved[n] := by
  revert n
  decide

theorem saved_reaches : Reaches DeviceLink.next Orderly (start sampleOptions nothingCached)
    (saved.foldl DeviceLink.next (start sampleOptions nothingCached)) := by
  refine Reaches.run fun n e he => ?_
  obtain ⟨hn, rfl⟩ := List.getElem?_eq_some_iff.1 he
  exact saved_orderly ⟨n, hn⟩

end

end SignetApp.ChildLink
