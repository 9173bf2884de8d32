import SignetApp.Bunker.OwnerRoutes

/-!
# "Allow always", and the persona it was given for

The flag is one per client and the routes are one per persona: what keeps a client to the personas it
was allowed for is only what it asks.
-/

namespace SignetApp.Bunker.OwnerRoutes

open SignetApp.Js SignetApp.Child SignetApp.Bunker.Connecting

/-! ## The invariant -/

section

variable {w : World} {i : ℕ} {hd : Handler} {stage : Stage}

/-- The row as read before the signer set to work, which is written back. -/
def Stage.kept : Stage → Option ConnectedClient
  | .serving row | .touching row => some row
  | _ => none

/-- The row that allows the client always. -/
def Stage.allows : Stage → Option ConnectedClient
  | .savingPair _ _ row | .savingAlways row => some row
  | _ => none

def World.Earned (w : World) (row : ConnectedClient) : Prop :=
  row.allowAlways = true → ∃ persona, ⟨toLowerCase row.clientPubkey, persona⟩ ∈ w.approvals

structure Sound (w : World) : Prop where
  given : ∀ s ∈ w.served, s.byHand = false → s.approval ∈ w.approvals
  earned : ∀ k row, w.clients k = some row → w.Earned row
  serving : ∀ h ∈ w.handlers, ∀ row, h.stage = .serving row → h.approval ∈ w.approvals
  kept : ∀ h ∈ w.handlers, ∀ row, h.stage.kept = some row → w.Earned row
  allows : ∀ h ∈ w.handlers, ∀ row, h.stage.allows = some row →
    toLowerCase row.clientPubkey = toLowerCase h.client

theorem Sound.keepsToPersona (h : Sound w) : KeepsToPersona w where
  given := h.given
  earned k row hk := h.earned k row hk

theorem sound_start (hfresh : w.Fresh) : Sound w := by
  obtain ⟨hhandlers, happrovals, hserved, hclients⟩ := hfresh
  refine { given := ?_, earned := ?_, serving := ?_, kept := ?_, allows := ?_ }
  · simp [hserved]
  · intro k row hk hallow
    rw [hclients k row hk] at hallow
    cases hallow
  · simp [hhandlers]
  · simp [hhandlers]
  · simp [hhandlers]

theorem Sound.move (h : Sound w) (hserving : ∀ row, stage = .serving row → hd.approval ∈ w.approvals)
    (hkept : ∀ row, stage.kept = some row → w.Earned row)
    (hallows : ∀ row, stage.allows = some row →
      toLowerCase row.clientPubkey = toLowerCase hd.client) : Sound (w.move i hd stage) := by
  have hmem : ∀ h' ∈ (w.move i hd stage).handlers, h' ∈ w.handlers ∨ h' = { hd with stage } :=
    fun h' hh' => List.mem_or_eq_of_mem_set hh'
  refine { given := h.given, earned := h.earned, serving := ?_, kept := ?_, allows := ?_ }
  · intro h' hh' row hs
    obtain hh' | rfl := hmem h' hh'
    · exact h.serving h' hh' row hs
    · exact hserving row hs
  · intro h' hh' row hs
    obtain hh' | rfl := hmem h' hh'
    · exact h.kept h' hh' row hs
    · exact hkept row hs
  · intro h' hh' row hs
    obtain hh' | rfl := hmem h' hh'
    · exact h.allows h' hh' row hs
    · exact hallows row hs

theorem Sound.proceed (h : Sound w) (hkept : stage.kept = none) (hallows : stage.allows = none) :
    Sound (w.move i hd stage) := by
  apply h.move
  · intro row hs
    rw [hs] at hkept
    cases hkept
  · intro row hs
    rw [hkept] at hs
    cases hs
  · intro row hs
    rw [hallows] at hs
    cases hs

theorem Sound.save (h : Sound w) {row : ConnectedClient} (hrow : w.Earned row) :
    Sound (w.save row) := by
  refine { given := h.given, earned := ?_, serving := h.serving, kept := h.kept,
           allows := h.allows }
  intro k row' hk
  by_cases hkey : k = row.clientPubkey
  · subst hkey
    have hk' : Function.update w.clients row.clientPubkey (some row) row.clientPubkey = some row' := hk
    rw [Function.update_self] at hk'
    obtain rfl := Option.some.inj hk'
    exact hrow
  · have hk' : Function.update w.clients row.clientPubkey (some row) k = some row' := hk
    rw [Function.update_of_ne hkey] at hk'
    exact h.earned k row' hk'

theorem Sound.approve (h : Sound w) (a : Approval) :
    Sound { w with approvals := w.approvals ++ [a] } := by
  have hgrow : ∀ row, w.Earned row → ({ w with approvals := w.approvals ++ [a] } : World).Earned row := by
    intro row hrow hallow
    obtain ⟨persona, hp⟩ := hrow hallow
    exact ⟨persona, List.mem_append_left _ hp⟩
  refine { given := ?_, earned := ?_, serving := ?_, kept := ?_, allows := h.allows }
  · intro s hs hauto
    exact List.mem_append_left _ (h.given s hs hauto)
  · intro k row hk
    exact hgrow row (h.earned k row hk)
  · intro h' hh' row hs
    exact List.mem_append_left _ (h.serving h' hh' row hs)
  · intro h' hh' row hs
    exact hgrow row (h.kept h' hh' row hs)

theorem Sound.serve (h : Sound w) {s : Served} (hs : s.byHand = false → s.approval ∈ w.approvals) :
    Sound { w with served := w.served ++ [s] } := by
  refine { given := ?_, earned := h.earned, serving := h.serving, kept := h.kept,
           allows := h.allows }
  intro s' hs' hauto
  obtain hs' | hs' := List.mem_append.1 hs'
  · exact h.given s' hs' hauto
  · obtain rfl := List.mem_singleton.1 hs'
    exact hs hauto

theorem Sound.register (h : Sound w) (register : List (JsString × AuthPairing)) :
    Sound { w with register } :=
  ⟨h.given, h.earned, h.serving, h.kept, h.allows⟩

/-! ## Every step -/

theorem Sound.toServing (h : Sound w) {row : ConnectedClient} (hrow : w.clients hd.client = some row)
    (happroved : hd.approval ∈ w.approvals) : Sound (w.move i hd (.serving row)) := by
  apply h.move
  · intro _ _
    exact happroved
  · intro row' hs
    obtain rfl := Option.some.inj hs
    exact h.earned hd.client row hrow
  · intro row' hs
    cases hs

theorem Sound.gated (h : Sound w) (hi : w.handlers[i]? = some hd) (hadmitted : hd.stage = .admitted)
    (hcareful : Careful w (.gated i)) : Sound (w.gated i hd) := by
  have hend : Sound (w.move i hd .ended) := h.proceed rfl rfl
  unfold World.gated
  split
  · split
    · split
      · exact (h.register _).proceed rfl rfl
      · exact (h.register _).proceed rfl rfl
    · exact hend
  · next method hrequest =>
    split
    · exact hend
    · next hpermits =>
      split
      · next row hrow =>
        obtain ⟨hrow, hallow⟩ := Option.filter_eq_some_iff.1 hrow
        apply h.toServing hrow
        apply hcareful hd hi hadmitted row hrow hallow
        rw [hrow] at hpermits
        unfold Handler.promptless
        rw [hrequest] at hpermits ⊢
        simpa [Request.kind] using hpermits
      · exact hend
  · next template hrequest =>
    split
    · exact hend
    · next hnames =>
      split
      · exact hend
      · next hpermits =>
        split
        · next row hrow =>
          obtain ⟨hrow, hsilent⟩ := Option.filter_eq_some_iff.1 hrow
          obtain ⟨hallow, hplain⟩ := Bool.and_eq_true_iff.1 hsilent
          apply h.toServing hrow
          apply hcareful hd hi hadmitted row hrow hallow
          rw [hrow] at hpermits
          unfold Handler.promptless
          rw [hrequest] at hpermits ⊢
          simp only [Bool.not_eq_true] at hnames
          simp only [hnames, hplain, Bool.not_false, Bool.and_self, Bool.and_true]
          simpa using hpermits
        · exact h.proceed rfl rfl

theorem Sound.recalled (h : Sound w) : Sound (w.recalled i hd) := by
  unfold World.recalled
  split
  · apply h.move
    · intro row hs
      cases hs
    · intro row hs
      cases hs
    · intro row hs
      obtain rfl := Option.some.inj hs
      exact toLowerCase_toLowerCase _
  · split
    · next row hrow =>
      apply h.move
      · intro row' hs
        cases hs
      · intro row' hs
        obtain rfl := Option.some.inj hs
        exact h.earned hd.client row hrow
      · intro row' hs
        cases hs
    · exact h.proceed rfl rfl
  · split
    · exact h.proceed rfl rfl
    · exact h.proceed rfl rfl
  · apply h.move
    · intro row hs
      cases hs
    · intro row hs
      cases hs
    · intro row hs
      obtain rfl := Option.some.inj hs
      rfl
  · exact h

theorem Sound.signed (h : Sound w) (hi : w.handlers[i]? = some hd) : Sound (w.signed i hd) := by
  have hmem : hd ∈ w.handlers := List.mem_of_getElem? hi
  unfold World.signed
  split
  · next row hstage =>
    have hserve : Sound { w with served := w.served ++ [⟨hd.approval, false⟩] } :=
      h.serve fun _ => h.serving hd hmem row hstage
    cases hd.request with
    | signEvent template =>
      apply hserve.move
      · intro row' hs
        cases hs
      · intro row' hs
        obtain rfl := Option.some.inj hs
        exact h.kept hd hmem row (by rw [hstage]; rfl)
      · intro row' hs
        cases hs
    | crypto method => exact hserve.proceed rfl rfl
    | connect secret metadata => exact hserve.proceed rfl rfl
  · next always hstage =>
    have hserve : Sound { w with served := w.served ++ [⟨hd.approval, true⟩] } :=
      h.serve fun hauto => by cases hauto
    cases always with
    | true => exact hserve.proceed rfl rfl
    | false => exact hserve.proceed rfl rfl
  · exact h

theorem Sound.saved (h : Sound w) (hi : w.handlers[i]? = some hd) : Sound (w.saved i hd) := by
  have hmem : hd ∈ w.handlers := List.mem_of_getElem? hi
  unfold World.saved
  split
  · next secret persona row hstage =>
    have happroved := h.approve ⟨toLowerCase hd.client, persona⟩
    have hmoved : Sound (World.move _ i hd (.paired secret)) := happroved.proceed rfl rfl
    apply hmoved.save
    intro _
    refine ⟨persona, ?_⟩
    rw [h.allows hd hmem row (by rw [hstage]; rfl)]
    exact List.mem_append_right _ (List.mem_singleton_self _)
  · next row hstage =>
    have hmoved : Sound (w.move i hd .ended) := h.proceed rfl rfl
    exact hmoved.save (h.kept hd hmem row (by rw [hstage]; rfl))
  · next row hstage =>
    have happroved := h.approve hd.approval
    have hmoved : Sound (World.move _ i hd .ended) := happroved.proceed rfl rfl
    apply hmoved.save
    intro _
    refine ⟨toLowerCase hd.route, ?_⟩
    rw [h.allows hd hmem row (by rw [hstage]; rfl)]
    exact List.mem_append_right _ (List.mem_singleton_self _)
  · exact h

theorem atHandler_of {P : World → Prop} {f : Handler → World} (h : P w)
    (hf : ∀ hd, w.handlers[i]? = some hd → P (f hd)) : P (w.atHandler i f) := by
  unfold World.atHandler
  split
  · next hd hi => exact hf hd hi
  · exact h

theorem Sound.arrived (h : Sound w) (client route : JsString) (request : Request) :
    Sound (w.next (.arrived client route request)) := by
  have hnew : ∀ h' ∈ (w.next (.arrived client route request)).handlers,
      h' ∈ w.handlers ∨ h'.stage = .arriving := by
    intro h' hh'
    obtain hh' | hh' := List.mem_append.1 hh'
    · exact .inl hh'
    · obtain rfl := List.mem_singleton.1 hh'
      exact .inr rfl
  refine { given := h.given, earned := h.earned, serving := ?_, kept := ?_, allows := ?_ }
  · intro h' hh' row hs
    obtain hh' | harriving := hnew h' hh'
    · exact h.serving h' hh' row hs
    · rw [harriving] at hs
      cases hs
  · intro h' hh' row hs
    obtain hh' | harriving := hnew h' hh'
    · exact h.kept h' hh' row hs
    · rw [harriving] at hs
      cases hs
  · intro h' hh' row hs
    obtain hh' | harriving := hnew h' hh'
    · exact h.allows h' hh' row hs
    · rw [harriving] at hs
      cases hs

theorem Sound.next (h : Sound w) (a : Happening) (hcareful : Careful w a) : Sound (w.next a) := by
  cases a with
  | tick ms => exact ⟨h.given, h.earned, h.serving, h.kept, h.allows⟩
  | arrived client route request => exact h.arrived client route request
  | admitted i =>
    apply atHandler_of h
    intro hd _
    split
    · unfold World.admit
      split
      · exact h.proceed rfl rfl
      · exact h.proceed rfl rfl
    · exact h
  | gated i =>
    apply atHandler_of h
    intro hd hi
    split
    · next hadmitted => exact h.gated hi hadmitted hcareful
    · exact h
  | recalled i => exact atHandler_of h fun hd _ => h.recalled
  | signed i => exact atHandler_of h fun hd hi => h.signed hi
  | saved i => exact atHandler_of h fun hd hi => h.saved hi
  | spent i =>
    apply atHandler_of h
    intro hd _
    split
    · have hmoved : Sound (w.move i hd .ended) := h.proceed rfl rfl
      exact hmoved.register _
    · exact h
  | approve i always =>
    apply atHandler_of h
    intro hd _
    split
    · exact h.proceed rfl rfl
    · exact h
  | ends i => exact atHandler_of h fun hd _ => h.proceed rfl rfl
  | minted secret entry => exact h.register _
  | revoked client =>
    refine { given := h.given, earned := ?_, serving := h.serving, kept := h.kept,
             allows := h.allows }
    intro k row hk
    by_cases hkey : k = client
    · subst hkey
      have hk' : Function.update w.clients k none k = some row := hk
      rw [Function.update_self] at hk'
      cases hk'
    · have hk' : Function.update w.clients client none k = some row := hk
      rw [Function.update_of_ne hkey] at hk'
      exact h.earned k row hk'

end

/-! ## Two runs -/

section

def sampleClient : JsString := List.replicate 64 (unit 'c')

def samplePersona : JsString := List.replicate 64 (unit 'a')

def sampleOtherPersona : JsString := List.replicate 64 (unit 'b')

def sampleStart : World :=
  { now := 1000, clients := fun _ => none, register := [], handlers := [], approvals := []
    served := [] }

/-- A note, whose template names `pubkey`. -/
def sampleNote (pubkey : JsString) : Request := .signEvent ⟨1, pubkey, lit "hello", []⟩

/-- The client asks one persona for a note and is allowed always. -/
def sampleAllowed : List Happening :=
  [.arrived sampleClient samplePersona (sampleNote []), .admitted 0, .gated 0, .approve 0 true,
    .recalled 0, .signed 0, .recalled 0, .saved 0]

/-- A second note and a decryption go unasked; a note in the name of that persona is refused on the
route of another. -/
def sampleKeeping : List Happening := sampleAllowed ++
  [.arrived sampleClient samplePersona (sampleNote samplePersona), .admitted 1, .gated 1, .signed 1,
    .saved 1, .arrived sampleClient samplePersona (.crypto .nip44Decrypt), .admitted 2, .gated 2,
    .signed 2, .recalled 2, .saved 2,
    .arrived sampleClient sampleOtherPersona (sampleNote samplePersona), .admitted 3, .gated 3]

/-- The same client asks another persona, naming none. -/
def sampleStraying : List Happening := sampleAllowed ++
  [.arrived sampleClient sampleOtherPersona (sampleNote []), .admitted 1, .gated 1, .signed 1]

end

end SignetApp.Bunker.OwnerRoutes
