import SignetApp.Companion.Rail
import SignetApp.Sync.Decimal

/-!
# What a revocation leaves

Once `revokeCompanionGrant` has returned, a live row of the grant can only come from a pass that had read the
row again before the revocation's write, and wrote after it.
-/

namespace SignetApp.Companion

open SignetApp.Js SignetApp.Sync
open SignetApp.Contacts (Hex64)

def RevokePhase.isReturned : RevokePhase → Bool
  | .returned .. => true
  | _ => false

namespace RailWorld

/-! ## Invariants -/

/-- A pass wrote back what it had read again before that time. -/
def Crossed (w : RailWorld) (app : Hex64) (m : ℕ) : Prop :=
  ∃ i checkedAt wroteAt, w.passes i = .wrote app checkedAt wroteAt ∧ checkedAt < m ∧ m < wroteAt

/-- A revocation of the app's grant wrote at that time, and has returned. -/
def Revoked (w : RailWorld) (app : Hex64) (m : ℕ) : Prop :=
  ∃ r g relayUrl now tombstoned, w.revocations r = .returned g relayUrl now tombstoned m ∧ g.appPubkey = app

/-- No revocation of the app was over when its row was read, then, as live. -/
structure Live (w : RailWorld) (app : Hex64) (readAt : ℕ) : Prop where
  past : readAt < w.clock
  live : ∀ m, w.Revoked app m → readAt < m ∨ w.Crossed app m

def HasTombstone (w : RailWorld) (g : CompanionGrant) (relayUrl : JsString) (now : ℤ) : Prop :=
  ∃ e ∈ w.events, e.relay = g.relay relayUrl ∧ e.app = g.appPubkey ∧ e.createdAt = now ∧ e.revoked = true

def PassKeeps (w : RailWorld) : PublishPhase → Prop
  | .holding g readAt => w.Live g.appPubkey readAt
  | .saving g _ checkedAt | .putting g _ checkedAt => w.Live g.appPubkey checkedAt
  | _ => True

def RevokeKeeps (w : RailWorld) : RevokePhase → Prop
  | .tombstoning _ _ now | .softening _ _ now | .putting _ _ now => now ≠ 0
  | .publishing g relayUrl now event =>
    now ≠ 0 ∧ event.relay = g.relay relayUrl ∧ event.app = g.appPubkey ∧ event.createdAt = now ∧ event.revoked = true
  | .deleting g relayUrl now => w.HasTombstone g relayUrl now
  | .returned g relayUrl now tombstoned m => m < w.clock ∧ (tombstoned = true → w.HasTombstone g relayUrl now)
  | _ => True

structure Inv (w : RailWorld) : Prop where
  passes : ∀ i, w.PassKeeps (w.passes i)
  revocations : ∀ r, w.RevokeKeeps (w.revocations r)
  rows : ∀ row ∈ w.rows, row.isRevoked = false → ∀ m, w.Revoked row.appPubkey m → w.Crossed row.appPubkey m
  sent : ∀ e ∈ w.sent, e.revoked = false → w.Live e.app e.readAt
  events : ∀ e ∈ w.events, e ∈ w.sent

/-- What a later world keeps of an earlier one. -/
structure Extends (w w' : RailWorld) : Prop where
  clock : w.clock ≤ w'.clock
  crossed : ∀ app m, w.Crossed app m → w'.Crossed app m
  revoked : ∀ app m, w'.Revoked app m → w.Revoked app m ∨ w.clock ≤ m
  events : ∀ e ∈ w.events, e ∈ w'.events

variable {w w' : RailWorld}

variable {app : Hex64}

theorem Extends.live (h : Extends w w') {readAt : ℕ} (hl : w.Live app readAt) :
    w'.Live app readAt := by
  refine ⟨Nat.lt_of_lt_of_le hl.past h.clock, fun m hm => ?_⟩
  rcases h.revoked app m hm with hm | hm
  · exact (hl.live m hm).imp id (h.crossed app m)
  · exact .inl (Nat.lt_of_lt_of_le hl.past hm)

variable {g : CompanionGrant}

theorem Extends.hasTombstone (h : Extends w w') {relayUrl : JsString} {now : ℤ}
    (ht : w.HasTombstone g relayUrl now) : w'.HasTombstone g relayUrl now := by
  obtain ⟨e, he, hrest⟩ := ht
  exact ⟨e, h.events e he, hrest⟩

theorem Extends.passKeeps (h : Extends w w') {phase : PublishPhase} (hk : w.PassKeeps phase) :
    w'.PassKeeps phase := by
  cases phase with
  | holding | saving | putting => exact h.live hk
  | _ => trivial

theorem Extends.revokeKeeps (h : Extends w w') {phase : RevokePhase} (hk : w.RevokeKeeps phase) :
    w'.RevokeKeeps phase := by
  cases phase with
  | tombstoning | softening | putting | publishing => exact hk
  | deleting => exact h.hasTombstone hk
  | returned => exact ⟨Nat.lt_of_lt_of_le hk.1 h.clock, fun ht => h.hasTombstone (hk.2 ht)⟩
  | _ => trivial

theorem Inv.live (h : Inv w) (hget : getCompanionGrant w.rows app = some g)
    (hlive : g.isRevoked = false) : g.appPubkey = app ∧ ∀ m, w.Revoked app m → w.Crossed app m := by
  have happ : g.appPubkey = app := by simpa using List.find?_some hget
  refine ⟨happ, ?_⟩
  rw [← happ]
  exact h.rows g (List.mem_of_find?_eq_some hget) hlive

/-! ## Steps of a pass -/

variable {i : ℕ}

theorem extends_goesOn {phase : PublishPhase} (hold : ∀ a c s, w.passes i ≠ .wrote a c s) :
    Extends w (w.goesOn i phase).tick := by
  refine ⟨Nat.le_succ _, ?_, fun app m hm => .inl hm, fun e he => he⟩
  rintro app m ⟨j, c, s, hj, hlt⟩
  have hne : j ≠ i := by
    rintro rfl
    exact hold _ _ _ hj
  exact ⟨j, c, s, (Function.update_of_ne hne _ _).trans hj, hlt⟩

theorem Inv.goesOn (h : Inv w) {phase : PublishPhase} (hold : ∀ a c s, w.passes i ≠ .wrote a c s)
    (hkeeps : (w.goesOn i phase).tick.PassKeeps phase) : Inv (w.goesOn i phase).tick := by
  have hext : Extends w (w.goesOn i phase).tick := extends_goesOn hold
  refine ⟨fun j => ?_, fun r => hext.revokeKeeps (h.revocations r), ?_, ?_, h.events⟩
  · by_cases hj : j = i
    · have hphase : (w.goesOn i phase).tick.passes j = phase := by
        rw [hj]
        exact Function.update_self _ _ _
      rw [hphase]
      exact hkeeps
    · have hphase : (w.goesOn i phase).tick.passes j = w.passes j := Function.update_of_ne hj _ _
      rw [hphase]
      exact hext.passKeeps (h.passes j)
  · intro row hrow hlive m hm
    exact hext.crossed _ _ (h.rows row hrow hlive m hm)
  · exact fun e he hsnapshot => hext.live (h.sent e he hsnapshot)

theorem Inv.live_goesOn (h : Inv w) {phase : PublishPhase}
    (hold : ∀ a c s, w.passes i ≠ .wrote a c s) (hget : getCompanionGrant w.rows app = some g)
    (hlive : g.isRevoked = false) : (w.goesOn i phase).tick.Live app w.clock :=
  ⟨Nat.lt_succ_self _, fun m hm => .inr ((extends_goesOn hold).crossed _ _ ((h.live hget hlive).2 m hm))⟩

theorem Inv.sends (h : Inv w) {event : RailEvent}
    (hlive : event.revoked = false → w.Live event.app event.readAt) : Inv (w.sends event) := by
  have hext : Extends w (w.sends event) :=
    ⟨Nat.le_refl _, fun _ _ hc => hc, fun _ _ hm => .inl hm, fun e he => he⟩
  refine ⟨fun i => hext.passKeeps (h.passes i), fun r => hext.revokeKeeps (h.revocations r), h.rows, ?_,
    fun e he => List.mem_append_left _ (h.events e he)⟩
  intro e he hsnapshot
  rcases List.mem_append.1 he with he | he
  · exact hext.live (h.sent e he hsnapshot)
  · rw [List.mem_singleton.1 he] at hsnapshot ⊢
    exact hext.live (hlive hsnapshot)

theorem Inv.deliver (h : Inv w) {event : RailEvent} (hsent : event ∈ w.sent) :
    Inv { w with events := w.events ++ [event] }.tick := by
  have hext : Extends w { w with events := w.events ++ [event] }.tick :=
    ⟨Nat.le_succ _, fun _ _ hc => hc, fun _ _ hm => .inl hm, fun e he => List.mem_append_left _ he⟩
  refine ⟨fun i => hext.passKeeps (h.passes i), fun r => hext.revokeKeeps (h.revocations r), h.rows,
    fun e he hsnapshot => hext.live (h.sent e he hsnapshot), ?_⟩
  intro e he
  rcases List.mem_append.1 he with he | he
  · exact h.events e he
  · rw [List.mem_singleton.1 he]
    exact hsent

/-- **The write of a pass**: where a revocation is over, it crosses it. -/
theorem Inv.put (h : Inv w) {g' : CompanionGrant} {hash : Hex64} {checkedAt : ℕ}
    (hphase : w.passes i = .putting g hash checkedAt) (happ : g'.appPubkey = g.appPubkey) :
    Inv ((w.put g').goesOn i (.wrote g.appPubkey checkedAt w.clock)).tick := by
  have hold : ∀ a c s, w.passes i ≠ .wrote a c s := by simp [hphase]
  have hext : Extends w ((w.put g').goesOn i (.wrote g.appPubkey checkedAt w.clock)).tick :=
    ⟨Nat.le_succ _, (extends_goesOn (w := w) hold).crossed, fun app m hm => .inl hm, fun e he => he⟩
  have hself : ((w.put g').goesOn i (.wrote g.appPubkey checkedAt w.clock)).tick.passes i =
      .wrote g.appPubkey checkedAt w.clock := Function.update_self _ _ _
  have hkeep := h.passes i
  rw [hphase] at hkeep
  refine ⟨fun j => ?_, fun r => hext.revokeKeeps (h.revocations r), ?_,
    fun e he hsnapshot => hext.live (h.sent e he hsnapshot), h.events⟩
  · by_cases hj : j = i
    · rw [hj, hself]
      trivial
    · have hother : ((w.put g').goesOn i (.wrote g.appPubkey checkedAt w.clock)).tick.passes j = w.passes j :=
        Function.update_of_ne hj _ _
      rw [hother]
      exact hext.passKeeps (h.passes j)
  · intro row hrow hlive m hm
    rcases mem_replace.1 hrow with ⟨hrow, -⟩ | rfl
    · exact hext.crossed _ _ (h.rows row hrow hlive m hm)
    · rw [happ] at hm ⊢
      rcases hkeep.live m hm with hlt | hcrossed
      · obtain ⟨r, gr, relayUrl, now, tombstoned, hr, -⟩ := hm
        have hpast := h.revocations r
        rw [show w.revocations r = _ from hr] at hpast
        exact ⟨i, checkedAt, w.clock, hself, hlt, hpast.1⟩
      · exact hext.crossed _ _ hcrossed

/-! ## Steps of a revocation -/

variable {r : ℕ}

theorem revoked_revokes {phase : RevokePhase} {m : ℕ}
    (h : (w.revokes r phase).tick.Revoked app m) : w.Revoked app m ∨
      ∃ g relayUrl now tombstoned, phase = .returned g relayUrl now tombstoned m ∧ g.appPubkey = app := by
  obtain ⟨k, g, relayUrl, now, tombstoned, hk, hrest⟩ := h
  by_cases hkr : k = r
  · rw [hkr, show (w.revokes r phase).tick.revocations r = phase from Function.update_self _ _ _] at hk
    exact .inr ⟨g, relayUrl, now, tombstoned, hk, hrest⟩
  · rw [show (w.revokes r phase).tick.revocations k = w.revocations k from Function.update_of_ne hkr _ _] at hk
    exact .inl ⟨k, g, relayUrl, now, tombstoned, hk, hrest⟩

/-- A revocation goes on: if it returns now, the rows have no live one of its grant. -/
theorem Inv.revokes (h : Inv w) {phase : RevokePhase} (rows : List CompanionGrant)
    (hreturned : ∀ g relayUrl now tombstoned m, phase = .returned g relayUrl now tombstoned m → m = w.clock)
    (hkeeps : ∀ w', Extends w w' → w.clock < w'.clock → w'.RevokeKeeps phase)
    (hrows : ∀ row ∈ rows, row.isRevoked = false → row ∈ w.rows ∧
      ∀ g relayUrl now tombstoned m, phase = .returned g relayUrl now tombstoned m →
        g.appPubkey ≠ row.appPubkey) :
    Inv ({ w with rows := rows }.revokes r phase).tick := by
  have hext : Extends w ({ w with rows := rows }.revokes r phase).tick := by
    refine ⟨Nat.le_succ _, fun _ _ hc => hc, fun app m hm => ?_, fun e he => he⟩
    rcases revoked_revokes hm with hm | ⟨g, relayUrl, now, tombstoned, hphase, -⟩
    · exact .inl hm
    · exact .inr (hreturned _ _ _ _ _ hphase).ge
  refine ⟨fun i => hext.passKeeps (h.passes i), fun k => ?_, ?_,
    fun e he hsnapshot => hext.live (h.sent e he hsnapshot), h.events⟩
  · by_cases hk : k = r
    · have hself : ({ w with rows := rows }.revokes r phase).tick.revocations r = phase :=
        Function.update_self _ _ _
      rw [hk, hself]
      exact hkeeps _ hext (Nat.lt_succ_self _)
    · have hother : ({ w with rows := rows }.revokes r phase).tick.revocations k = w.revocations k :=
        Function.update_of_ne hk _ _
      rw [hother]
      exact hext.revokeKeeps (h.revocations k)
  · intro row hrow hlive m hm
    obtain ⟨hmem, hother⟩ := hrows row hrow hlive
    rcases revoked_revokes hm with hm | ⟨g, relayUrl, now, tombstoned, hphase, happ⟩
    · exact h.rows row hmem hlive m hm
    · exact absurd happ (hother _ _ _ _ _ hphase)

theorem Inv.revokes_on (h : Inv w) {phase : RevokePhase} (hphase : phase.isReturned = false)
    (hkeeps : w.RevokeKeeps phase) : Inv (w.revokes r phase).tick := by
  have hnot : ∀ g relayUrl now tombstoned m, phase ≠ .returned g relayUrl now tombstoned m := by
    rintro g relayUrl now tombstoned m rfl
    cases hphase
  exact h.revokes w.rows (fun _ _ _ _ _ hp => absurd hp (hnot _ _ _ _ _))
    (fun w' hext _ => hext.revokeKeeps hkeeps)
    fun row hrow _ => ⟨hrow, fun _ _ _ _ _ hp => absurd hp (hnot _ _ _ _ _)⟩

/-! ## Every step -/

variable {ρ : Type} [GrantViews ρ] [Numerals] [Sha256]

omit [GrantViews ρ] [Numerals] [Sha256] in
theorem Inv.tick (h : Inv w) : Inv w.tick := by
  have hext : Extends w w.tick := ⟨Nat.le_succ _, fun _ _ hc => hc, fun _ _ hm => .inl hm, fun e he => he⟩
  exact ⟨fun i => hext.passKeeps (h.passes i), fun r => hext.revokeKeeps (h.revocations r), h.rows,
    fun e he hsnapshot => hext.live (h.sent e he hsnapshot), h.events⟩

/-- The clock that a revocation reads is past its first second: a time of zero revokes nothing. -/
def Allowed (_ : RailWorld) : RailHappening ρ → Prop
  | .revoke _ _ _ now => now ≠ 0
  | _ => True

theorem Inv.next (h : Inv w) (e : RailHappening ρ) (hallowed : Allowed w e) : Inv (w.next e) := by
  unfold RailWorld.next
  cases e with
  | publish i =>
    unfold step
    dsimp only
    split
    · rename_i hphase
      exact h.goesOn (by simp [hphase]) trivial
    · exact h.tick
  | list i app =>
    unfold step
    dsimp only
    split
    · rename_i hphase
      have hold : ∀ a c s, w.passes i ≠ .wrote a c s := by simp [hphase]
      split
      · rename_i g hget
        split
        · exact h.goesOn hold trivial
        · rename_i hlive
          have hlive := Bool.eq_false_iff.2 hlive
          refine h.goesOn hold ?_
          show (w.goesOn i _).tick.Live g.appPubkey w.clock
          rw [(h.live hget hlive).1]
          exact h.live_goesOn hold hget hlive
      · exact h.goesOn hold trivial
    · exact h.tick
  | sign i now relayUrl entries signed =>
    unfold step
    dsimp only
    split
    · rename_i g readAt hphase
      have hold : ∀ a c s, w.passes i ≠ .wrote a c s := by simp [hphase]
      have hkeep := h.passes i
      rw [hphase] at hkeep
      split
      · refine Inv.goesOn (h.sends fun _ => ?_) hold trivial
        exact hkeep
      · exact h.goesOn hold trivial
    · exact h.tick
  | deliver k =>
    unfold step
    dsimp only
    split
    · rename_i event hevent
      exact h.deliver (List.mem_of_getElem? hevent)
    · exact h.tick
  | answer i ok =>
    unfold step
    dsimp only
    split
    · rename_i g event hash hphase
      have hold : ∀ a c s, w.passes i ≠ .wrote a c s := by simp [hphase]
      split <;> exact h.goesOn hold trivial
    · exact h.tick
  | check i =>
    unfold step
    dsimp only
    split
    · rename_i g hash hphase
      have hold : ∀ a c s, w.passes i ≠ .wrote a c s := by simp [hphase]
      split
      · rename_i current hget
        split
        · exact h.goesOn hold trivial
        · rename_i hlive
          exact h.goesOn hold (h.live_goesOn hold hget (Bool.eq_false_iff.2 hlive))
      · exact h.goesOn hold trivial
    · exact h.tick
  | save i =>
    unfold step
    dsimp only
    split
    · rename_i g hash checkedAt hphase
      have hold : ∀ a c s, w.passes i ≠ .wrote a c s := by simp [hphase]
      have hkeep := h.passes i
      rw [hphase] at hkeep
      split
      · exact h.goesOn hold ((extends_goesOn hold).live hkeep)
      · exact h.goesOn hold trivial
    · exact h.tick
  | put i now =>
    unfold step
    dsimp only
    split
    · rename_i g hash checkedAt hphase
      exact h.put hphase rfl
    · exact h.tick
  | revoke r g relayUrl now =>
    unfold step
    dsimp only
    split
    · split <;> exact h.revokes_on rfl hallowed
    · exact h.tick
  | signTombstone r signed =>
    unfold step
    dsimp only
    split
    · rename_i g relayUrl now hphase
      have hkeep := h.revocations r
      rw [hphase] at hkeep
      split
      · refine (h.sends fun hsnapshot => ?_).revokes_on rfl ⟨hkeep, rfl, rfl, rfl, rfl⟩
        cases hsnapshot
      · exact h.revokes_on rfl trivial
    · exact h.tick
  | answerTombstone r ok =>
    unfold step
    dsimp only
    split
    · rename_i g relayUrl now event hphase
      have hkeep := h.revocations r
      rw [hphase] at hkeep
      split
      · rename_i hok
        have hmem : event ∈ w.events := by
          simp only [Bool.and_eq_true, List.contains_iff_mem] at hok
          exact hok.2
        exact h.revokes_on rfl ⟨event, hmem, hkeep.2⟩
      · exact h.revokes_on rfl hkeep.1
    · exact h.tick
  | delete r =>
    unfold step
    dsimp only
    split
    · rename_i g relayUrl now hphase
      have hkeep := h.revocations r
      rw [hphase] at hkeep
      refine h.revokes (deleteCompanionGrant w.rows g.appPubkey) ?_ ?_ ?_
      · rintro _ _ _ _ _ ⟨⟩
        rfl
      · exact fun w' hext hlt => ⟨hlt, fun _ => hext.hasTombstone hkeep⟩
      · intro row hrow _
        obtain ⟨hmem, hne⟩ := List.mem_filter.1 hrow
        refine ⟨hmem, ?_⟩
        rintro _ _ _ _ _ ⟨⟩ happ
        exact of_decide_eq_true hne happ.symm
    · exact h.tick
  | soften r =>
    unfold step
    dsimp only
    split
    · rename_i g relayUrl now hphase
      have hkeep := h.revocations r
      rw [hphase] at hkeep
      split
      · exact h.revokes_on rfl hkeep
      · exact h.revokes_on rfl trivial
    · exact h.tick
  | putSoft r =>
    unfold step
    dsimp only
    split
    · rename_i g relayUrl now hphase
      have hkeep := h.revocations r
      rw [hphase] at hkeep
      refine h.revokes (replace CompanionGrant.appPubkey w.rows { g with revokedAt := some now }) ?_ ?_ ?_
      · rintro _ _ _ _ _ ⟨⟩
        rfl
      · exact fun w' hext hlt => ⟨hlt, fun ht => by cases ht⟩
      · intro row hrow hlive
        rcases mem_replace.1 hrow with ⟨hmem, hne⟩ | rfl
        · refine ⟨hmem, ?_⟩
          rintro _ _ _ _ _ ⟨⟩ happ
          exact hne happ.symm
        · have hnow : now ≠ 0 := hkeep
          exact absurd hlive (by simp [CompanionGrant.isRevoked, hnow])
    · exact h.tick

/-! ## What is left -/

/-- The event that a relay keeps at an address: of those it has, one of the newest. -/
def Kept (w : RailWorld) (relay : JsString) (app : Hex64) (e : RailEvent) : Prop :=
  e ∈ w.events ∧ e.relay = relay ∧ e.app = app ∧
    ∀ e' ∈ w.events, e'.relay = relay → e'.app = app → e'.createdAt ≤ e.createdAt

/-- **What revocations leave**: where no pass crossed them, no live row, and no snapshot of a pass begun later;
and where their tombstone was accepted, and is newer than the snapshots, nothing but a tombstone. -/
structure Ends (w : RailWorld) : Prop where
  kept : ∀ r g relayUrl now m, w.revocations r = .returned g relayUrl now true m →
    w.HasTombstone g relayUrl now ∧
      ((∀ e ∈ w.events, e.relay = g.relay relayUrl → e.app = g.appPubkey → e.revoked = false →
          e.createdAt < now) →
        ∀ e, w.Kept (g.relay relayUrl) g.appPubkey e → e.revoked = true)
  row : ∀ r g relayUrl now tombstoned m, w.revocations r = .returned g relayUrl now tombstoned m →
    ¬ w.Crossed g.appPubkey m → ∀ row ∈ w.rows, row.appPubkey = g.appPubkey → row.isRevoked = true
  begun : ∀ r g relayUrl now tombstoned m, w.revocations r = .returned g relayUrl now tombstoned m →
    ¬ w.Crossed g.appPubkey m → ∀ e ∈ w.sent, e.app = g.appPubkey → e.revoked = false → e.readAt < m

omit [GrantViews ρ] [Numerals] [Sha256] in
theorem Inv.ends (h : Inv w) : Ends w := by
  refine ⟨?_, ?_, ?_⟩
  · intro r g relayUrl now m hr
    have hkeep := h.revocations r
    rw [hr] at hkeep
    refine ⟨hkeep.2 rfl, fun hbefore e he => ?_⟩
    obtain ⟨hmem, hrelay, happ, hnewest⟩ := he
    obtain ⟨tombstone, htombstone, htrelay, htapp, htime, -⟩ := hkeep.2 rfl
    by_contra hsnapshot
    have hlt := hbefore e hmem hrelay happ (Bool.eq_false_iff.2 hsnapshot)
    have hle := hnewest tombstone htombstone htrelay htapp
    omega
  · intro r g relayUrl now tombstoned m hr hcrossed row hrow happ
    by_contra hlive
    refine hcrossed ?_
    rw [← happ]
    exact h.rows row hrow (Bool.eq_false_iff.2 hlive) m ⟨r, g, relayUrl, now, tombstoned, hr, happ.symm⟩
  · intro r g relayUrl now tombstoned m hr hcrossed e he happ hsnapshot
    have hlive := (h.sent e he hsnapshot).live m ⟨r, g, relayUrl, now, tombstoned, hr, happ.symm⟩
    rw [happ] at hlive
    exact hlive.resolve_right hcrossed

/-- Nothing is under way. -/
structure Begins (w : RailWorld) : Prop where
  passes : ∀ i, w.passes i = .idle
  revocations : ∀ r, w.revocations r = .idle
  sent : ∀ e ∈ w.sent, e.readAt < w.clock
  events : ∀ e ∈ w.events, e ∈ w.sent

omit [GrantViews ρ] [Numerals] [Sha256] in
theorem Begins.inv (h : Begins w) : Inv w := by
  have hnone : ∀ app m, ¬ w.Revoked app m := by
    rintro app m ⟨r, g, relayUrl, now, tombstoned, hr, -⟩
    rw [h.revocations r] at hr
    cases hr
  refine ⟨fun i => ?_, fun r => ?_, fun row _ _ m hm => absurd hm (hnone _ m),
    fun e he _ => ⟨h.sent e he, fun m hm => absurd hm (hnone _ m)⟩, h.events⟩
  · rw [h.passes i]
    trivial
  · rw [h.revocations r]
    trivial

theorem ends_of_reaches (w w' : RailWorld) (h : Begins w)
    (hrun : Reaches (RailWorld.next : RailWorld → RailHappening ρ → RailWorld) Allowed w w') : Ends w' :=
  (hrun.invariant h.inv fun _ e hinv hallowed => hinv.next e hallowed).ends

end RailWorld

end SignetApp.Companion

/-!
## Companion apps

What the rail of one device keeps of a grant once it is revoked, and what the digests of its snapshots tell.
-/

namespace SignetApp.Companion

open SignetApp.Js SignetApp.Sync
open SignetApp.Contacts (Hex64)
open RailWorld

/-- **A revoked grant stays revoked, and its snapshots are known by their digests**: see `Ends` for a run;
two lists of the same contacts have one digest where no two of them in scope have one key; and lists with one
digest show the same. -/
theorem companions {ρ : Type} [GrantViews ρ] [Numerals] [Sha256] (hviews : GrantViews.Documented ρ) :
    (∀ w w' : RailWorld, Begins w →
      Reaches (RailWorld.next : RailWorld → RailHappening ρ → RailWorld) Allowed w w' → Ends w') ∧
    (∀ (scope : GrantScope) (entries entries' : List (KindredEntry ρ)), entries.Perm entries' →
      (∀ a ∈ entries.filterMap (admitEntry scope), ∀ b ∈ entries.filterMap (admitEntry scope),
        a.pubkey = b.pubkey → a = b) →
      hashSnapshot scope (snapshotViews scope entries) = hashSnapshot scope (snapshotViews scope entries')) ∧
    (∀ (scope scope' : GrantScope) (entries entries' : List (KindredEntry ρ)),
      (Sha256.hex (canonical scope (snapshotViews scope entries)) =
          Sha256.hex (canonical scope' (snapshotViews scope' entries')) →
        canonical scope (snapshotViews scope entries) = canonical scope' (snapshotViews scope' entries')) →
      hashSnapshot scope (snapshotViews scope entries) = hashSnapshot scope' (snapshotViews scope' entries') →
      scope = scope' ∧ (snapshotViews scope entries).Perm (snapshotViews scope' entries')) := by
  have hjson : ∀ (scope : GrantScope) (entries : List (KindredEntry ρ)),
      ∀ v ∈ snapshotViews scope entries, IsJson v := by
    intro scope entries v hv
    obtain ⟨e, -, rfl⟩ := List.mem_map.1 hv
    exact hviews.json e
  refine ⟨ends_of_reaches, ?_, ?_⟩
  · exact fun scope entries entries' hperm hone => hashSnapshot_views_perm hviews hperm hone
  · exact fun scope scope' entries entries' hfree h =>
      perm_of_hashSnapshot_eq (hjson scope entries) (hjson scope' entries') hfree h

/-! ## A relay that does not answer -/

section

attribute [local instance] decimalNumerals

@[reducible] def sampleViews : GrantViews JsString where
  toGrantView e := .obj [("pubkey", e.pubkey.toJs), ("displayName", .str e.rest)]

@[reducible] def sampleDigest : Sha256 where
  hex _ := Hex.repeated 64 0

attribute [local instance] sampleViews sampleDigest

theorem sampleViews_documented : GrantViews.Documented JsString := by
  refine ⟨fun e => ?_, fun e => ?_⟩
  · simp [GrantViews.toGrantView, JsValue.get_obj_cons]
  · simp [GrantViews.toGrantView, IsJson, HoldJson, Hex.toJs]

def sampleGrant : CompanionGrant where
  appPubkey := Hex.repeated 64 1
  snapshotRelay := lit "wss://relay.example"
  scope := { tiers := [.kin], personas := .all }

def sampleFriend : KindredEntry JsString where
  pubkey := Hex.repeated 64 2
  ownerPubkey := Hex.repeated 64 3
  tier := .kin
  addedAt := .finite 0
  rest := lit "Finn"

def sampleRail : RailWorld where
  clock := 0
  rows := [sampleGrant]
  sent := []
  events := []
  passes := fun _ => .idle
  revocations := fun _ => .idle

theorem sampleRail_begins : Begins sampleRail :=
  ⟨fun _ => rfl, fun _ => rfl, fun _ he => (by cases he), fun _ he => (by cases he)⟩

/-- A snapshot is published; then the grant is revoked, and the relay does not take the tombstone. -/
def unanswered : List (RailHappening JsString) :=
  [.publish 0, .list 0 sampleGrant.appPubkey, .sign 0 1000 [] [sampleFriend] true, .deliver 0, .answer 0 true,
    .check 0, .save 0, .put 0 1000,
    .revoke 0 sampleGrant [] 2000, .signTombstone 0 true, .answerTombstone 0 false, .soften 0, .putSoft 0]

def sampleSnapshot : RailEvent where
  relay := sampleGrant.snapshotRelay
  app := sampleGrant.appPubkey
  createdAt := 1000
  views := [GrantViews.toGrantView sampleFriend]
  revoked := false
  readAt := 1

theorem unanswered_end :
    (unanswered.foldl RailWorld.next sampleRail).revocations 0 = .returned sampleGrant [] 2000 false 12 ∧
      (unanswered.foldl RailWorld.next sampleRail).events = [sampleSnapshot] := by
  decide +kernel

theorem unanswered_reaches :
    Reaches (RailWorld.next : RailWorld → RailHappening JsString → RailWorld) Allowed sampleRail
      (unanswered.foldl RailWorld.next sampleRail) := by
  refine Reaches.run fun n e he => ?_
  have hmem := List.mem_of_getElem? he
  cases e with
  | revoke r g relayUrl now =>
    simp only [unanswered, List.mem_cons, reduceCtorEq, false_or, or_false, RailHappening.revoke.injEq,
      List.not_mem_nil] at hmem
    show now ≠ 0
    omega
  | _ => trivial

/-- The revocation has returned, and the relay keeps the snapshot. -/
theorem unanswered_keeps_snapshot :
    ∃ w : RailWorld,
      Reaches (RailWorld.next : RailWorld → RailHappening JsString → RailWorld) Allowed sampleRail w ∧
      ¬ ∀ r g relayUrl now tombstoned m, w.revocations r = .returned g relayUrl now tombstoned m →
        ∀ e, w.Kept (g.relay relayUrl) g.appPubkey e → e.revoked = true := by
  obtain ⟨hreturned, hevents⟩ := unanswered_end
  refine ⟨_, unanswered_reaches, fun h => ?_⟩
  have hkept : (unanswered.foldl RailWorld.next sampleRail).Kept (sampleGrant.relay []) sampleGrant.appPubkey
      sampleSnapshot := by
    refine ⟨by rw [hevents]; exact List.mem_cons_self, by decide, rfl, ?_⟩
    intro e' he' _ _
    rw [hevents] at he'
    rw [List.mem_singleton.1 he']
  cases h 0 _ _ _ _ _ hreturned sampleSnapshot hkept

def sampleOther : KindredEntry JsString := { sampleFriend with pubkey := Hex.repeated 64 4 }

theorem companions_finn :
    Ends (unanswered.foldl RailWorld.next sampleRail) ∧
      hashSnapshot sampleGrant.scope (snapshotViews sampleGrant.scope [sampleFriend, sampleOther]) =
        hashSnapshot sampleGrant.scope (snapshotViews sampleGrant.scope [sampleOther, sampleFriend]) := by
  obtain ⟨hruns, hperm, -⟩ := companions sampleViews_documented
  refine ⟨hruns _ _ sampleRail_begins unanswered_reaches, hperm _ _ _ (List.Perm.swap _ _ _) ?_⟩
  have hadmitted : [sampleFriend, sampleOther].filterMap (admitEntry sampleGrant.scope) =
      [sampleFriend, sampleOther] := by rfl
  rw [hadmitted]
  intro a ha b hb heq
  simp only [List.mem_cons, List.not_mem_nil, or_false] at ha hb
  rcases ha with rfl | rfl <;> rcases hb with rfl | rfl <;> first | rfl | exact absurd heq (by decide)

end

end SignetApp.Companion
