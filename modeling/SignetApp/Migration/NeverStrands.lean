import SignetApp.Migration.Enrolment
import SignetApp.Migration.EnrolmentPlan
import SignetApp.Sync.Wire

/-!
# No key is stranded

The wizard strips the phone's records with the tokens of a run that verified every slot of its plan
(`handleMigrationFinalize`). The records are those that stand by then, not those that were planned for.
-/

namespace SignetApp.Migration

open Js

/-! ## Plan and records -/

/-- The tokens of the slots that a run went through. -/
def tokens (slots : List EnrolmentSlot) : List JsString := slots.map EnrolmentSlot.token

/-- A slot of the plan has this public key. -/
def Known (slots : List EnrolmentSlot) (publicKey : JsString) : Prop :=
  ∃ slot ∈ slots, slot.expectedPubkeyHex = toLowerCase publicKey

/-! ## What a strip may do -/

/-- Nothing is emptied whose key the device did not return; and when the recovery words go, nothing that they
derive is left without a private key unless the device returned its public key. -/
structure NeverStrands (returned : List JsString) (before after : Records) : Prop where
  sameSlots : after.held.map (fun s => (s.token, s.publicKey)) = before.held.map fun s => (s.token, s.publicKey)
  kept : ∀ p ∈ before.held.zip after.held, p.2.privateKey = p.1.privateKey ∨
    p.2.privateKey = [] ∧ toLowerCase p.1.publicKey ∈ returned
  mnemonic : before.identity.mnemonic ≠ [] → after.identity.mnemonic = [] → ∀ s ∈ after.held,
    s.token ≠ none → s.privateKey = [] → toLowerCase s.publicKey ∈ returned

section

variable [Numerals] [Npubs]

/-- The slots that matter: those that a device can derive, and that are in the run by their token or have no
private key to begin with, where there is a private key or there are recovery words to lose. -/
def Exposed (slots : List EnrolmentSlot) (r : Records) (s : Held) : Prop :=
  (∃ t, s.token = some t ∧ (t ∈ tokens slots ∨ s.privateKey = [])) ∧
    (s.privateKey ≠ [] ∨ r.identity.mnemonic ≠ [])

theorem neverStrands_slots {slots : List EnrolmentSlot} {r : Records} {actions : List EnrolmentAction}
    (hverified : (Enrolment.run slots actions).stage = .verified) :
    NeverStrands (Enrolment.run slots actions).returned r (r.stripped (tokens slots)) ↔
      ∀ s ∈ r.held, Exposed slots r s → Known slots s.publicKey := by
  have hreturned : ∀ k, k ∈ (Enrolment.run _ actions).returned ↔ _ := fun k =>
    returned_of_verified hverified (k := k)
  have hslots := slots_ne_nil_of_verified hverified
  have hheld : (r.stripped (tokens slots)).held = r.held.map (Held.stripped (tokens slots)) := held_stripped r
  have hzip : r.held.zip (r.stripped (tokens slots)).held =
      r.held.map fun s => (s, s.stripped (tokens slots)) := by
    have hboth : (r.held.map id).zip (r.held.map (Held.stripped (tokens slots))) =
        r.held.map fun s => (s, s.stripped (tokens slots)) := List.zip_map'
    rw [List.map_id] at hboth
    rw [hheld]
    exact hboth
  constructor
  · rintro h s hs ⟨⟨t, ht, hgone⟩, hmatters⟩
    apply (hreturned _).1
    by_cases hprivate : s.privateKey = []
    · have hmnemonic : r.identity.mnemonic ≠ [] := hmatters.resolve_left (not_not.2 hprivate)
      have hafter : (s.stripped (tokens slots)) ∈ (r.stripped (tokens slots)).held := by
        rw [hheld]
        exact List.mem_map_of_mem hs
      have hempty : (s.stripped (tokens slots)).privateKey = [] := by
        unfold Held.stripped
        split
        · rfl
        · exact hprivate
      have hwords : (r.stripped (tokens slots)).identity.mnemonic = [] := if_pos (by simpa [tokens] using hslots)
      have hkey := h.mnemonic hmnemonic hwords _ hafter (by simp [ht]) hempty
      rwa [Held.stripped_publicKey] at hkey
    · have hmem := hgone.resolve_right hprivate
      have hpair : (s, s.stripped (tokens slots)) ∈ r.held.zip (r.stripped (tokens slots)).held := by
        rw [hzip]
        exact List.mem_map_of_mem hs
      rcases h.kept _ hpair with hkept | hemptied
      · rw [Held.stripped_of_mem ht hmem] at hkept
        exact absurd hkept.symm hprivate
      · exact hemptied.2
  · intro h
    constructor
    · rw [hheld, List.map_map]
      apply List.map_congr_left
      intro s _
      simp
    · intro p hp
      rw [hzip] at hp
      obtain ⟨s, hs, rfl⟩ := List.mem_map.1 hp
      show (s.stripped (tokens slots)).privateKey = s.privateKey ∨ _
      by_cases hmem : ∃ t, s.token = some t ∧ t ∈ tokens slots
      · obtain ⟨t, ht, hmem⟩ := hmem
        rw [Held.stripped_of_mem ht hmem]
        by_cases hprivate : s.privateKey = []
        · exact .inl hprivate.symm
        · exact .inr ⟨rfl, (hreturned _).2 (h s hs ⟨⟨t, ht, .inl hmem⟩, .inl hprivate⟩)⟩
      · rw [Held.stripped_of_not_mem fun t ht hin => hmem ⟨t, ht, hin⟩]
        exact .inl rfl
    · intro hmnemonic _ s hs htoken hempty
      rw [hheld] at hs
      obtain ⟨s, hmem, rfl⟩ := List.mem_map.1 hs
      rw [Held.stripped_token] at htoken
      rw [Held.stripped_publicKey, hreturned]
      obtain ⟨t, ht⟩ := Option.ne_none_iff_exists'.1 htoken
      refine h s hmem ⟨⟨t, ht, ?_⟩, .inr hmnemonic⟩
      by_cases hin : t ∈ tokens slots
      · exact .inl hin
      · rw [Held.stripped_of_not_mem fun t' ht' => (by rwa [← Option.some.inj (ht.symm.trans ht')])] at hempty
        exact .inr hempty

/-- **When a strip strands no key**: exactly when every slot that matters has the public key of a slot of the
plan. -/
theorem neverStrands_iff {planned r : Records} {actions : List EnrolmentAction}
    (hverified : (Enrolment.run (buildEnrolmentPlan planned.identity planned.dependants).slots actions).stage
      = .verified) :
    NeverStrands (Enrolment.run (buildEnrolmentPlan planned.identity planned.dependants).slots actions).returned
        r (r.stripped (tokens (buildEnrolmentPlan planned.identity planned.dependants).slots)) ↔
      ∀ s ∈ r.held, Exposed (buildEnrolmentPlan planned.identity planned.dependants).slots r s →
        Known (buildEnrolmentPlan planned.identity planned.dependants).slots s.publicKey :=
  neverStrands_slots hverified

end

/-! ## A phone with three keys -/

attribute [local instance] Sync.decimalNumerals

def adaKey : JsString := lit "79be667ef9dcbbac55a06295ce870b07029bfcdb2dce28d959f2815b16f81798"
def anonKey : JsString := lit "c6047f9441ed7d6d3045406e95c07cd85c778e4b8cef3ca7abac09b95c709ee5"
def workKey : JsString := lit "f9308a019258c31049344f85f89d5229b531c845836f99b08601f113bce036f9"
def robinKey : JsString := lit "e493dbf1c10d80f3581e4904930b1404cc6c13900ee0758474fa94abe8c4cd13"

def adaNpub : JsString := lit "npub10xlxvlhemja6c4dqv22uapctqupfhlxm9h8z3k2e72q4k9hcz7vqpkge6d"
def anonNpub : JsString := lit "npub1ccz8l9zpa47k6vz9gphftsrumpw80rjt3nhnefat4symjhrsnmjs38mnyd"
def workNpub : JsString := lit "npub1lycg5qvjtrp3qjf5f7zl382j9x6nrjz9sdhenvyxq8c3808qxmus6gq266"

/-- `decodeNpub`, of the keys that the device returns here. -/
@[reducible] def sampleNpubs : Npubs where
  decodeNpub := ([(adaNpub, adaKey), (anonNpub, anonKey), (workNpub, workKey)].lookup ·)

attribute [local instance] sampleNpubs

/-- What the device answers. -/
def derived (npub token : JsString) (index : ℚ) : EnrolmentAction :=
  .answer (.result ((stringify (.obj [("npub", .str npub), ("purpose", .str (lit "nostr:persona")),
    ("index", .num (.finite index)), ("personaName", .str token)])).getD []))

/-- Every slot is verified; the second at the second try. -/
def sampleRun : List EnrolmentAction :=
  [.capabilities true, derived adaNpub (lit "natural-person") 0, .answer .timedOut, .retry,
    derived anonNpub (lit "persona") 1, derived workNpub (lit "persona-2") 2]

def workPersona : ExtraPersona := ⟨⟨lit "Work", workKey, lit "03"⟩, lit "persona-2", false⟩

/-- A persona of the same name, without a public key. -/
def twinPersona : ExtraPersona := ⟨⟨lit "Old", [], lit "04"⟩, lit "persona-2", false⟩

/-- A dependant that was derived on the device by another phone. -/
def robin : DependantIdentity where
  id := lit "robin"
  displayName := lit "Robin"
  derivationPath := lit "dependant-0"
  naturalPerson := ⟨lit "Robin", robinKey, []⟩
  persona := ⟨lit "Robin", robinKey, []⟩
  extraPersonas := []

def phone (extras : List ExtraPersona) (dependants : List DependantIdentity) : Records where
  identity :=
    { mnemonic := lit "abandon ability able"
      naturalPerson := ⟨lit "Ada", adaKey, lit "01"⟩
      persona := ⟨lit "Anon", anonKey, lit "02"⟩
      professionalPersona := none
      extraPersonas := extras }
  dependants := dependants

/-- The slots of the plan for a phone. -/
abbrev planned (r : Records) : List EnrolmentSlot := (buildEnrolmentPlan r.identity r.dependants).slots

/-- Stranded are: a persona that has no public key but another's token; and a dependant that came from another
phone while the run went on. -/
theorem run_strands :
    ((Enrolment.run (planned (phone [workPersona, twinPersona] [])) sampleRun).stage = .verified ∧
      ¬ NeverStrands (Enrolment.run (planned (phone [workPersona, twinPersona] [])) sampleRun).returned
        (phone [workPersona, twinPersona] [])
        ((phone [workPersona, twinPersona] []).stripped (tokens (planned (phone [workPersona, twinPersona] []))))) ∧
    (Enrolment.run (planned (phone [workPersona] [])) sampleRun).stage = .verified ∧
      ¬ NeverStrands (Enrolment.run (planned (phone [workPersona] [])) sampleRun).returned
        (phone [workPersona] [robin])
        ((phone [workPersona] [robin]).stripped (tokens (planned (phone [workPersona] [])))) := by
  refine ⟨⟨by decide +kernel, fun h => ?_⟩, by decide +kernel, fun h => ?_⟩
  · have hkept := h.kept (⟨some (lit "persona-2"), [], lit "04"⟩, ⟨some (lit "persona-2"), [], []⟩)
      (by decide +kernel)
    revert hkept
    decide +kernel
  · have hkey := h.mnemonic (by decide +kernel) (by decide +kernel)
      ⟨some (lit "dependant-0-np"), robinKey, []⟩ (by decide +kernel) (Option.some_ne_none _) rfl
    revert hkey
    decide +kernel

/-- With every key in the plan, nothing is stranded. -/
theorem neverStrands_iff_ada :
    NeverStrands (Enrolment.run (planned (phone [workPersona] [])) sampleRun).returned (phone [workPersona] [])
      ((phone [workPersona] []).stripped (tokens (planned (phone [workPersona] [])))) := by
  have hknown : ∀ s ∈ (phone [workPersona] []).held, ∃ slot ∈ planned (phone [workPersona] []),
      slot.expectedPubkeyHex = toLowerCase s.publicKey := by decide +kernel
  refine (neverStrands_iff (by decide +kernel)).2 ?_
  intro s hs _
  exact hknown s hs

end SignetApp.Migration
