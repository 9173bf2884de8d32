import SignetApp.ChildLink.DeviceLink
import SignetApp.Concurrency.Reach

/-!
# What the link keeps

The rules in memory are the newest of those offered, an unpaired phone has none, it is unpaired for a reason,
and a deferred persona is left alone.
-/

namespace SignetApp.ChildLink

open SignetApp.Js
open SignetApp.Contacts (Hex64)
open SignetApp.Pairing (NostrEvent Signatures)

/-! ## Rules -/

/-- Of the rules that were offered, one of the newest is held. -/
def NewestOf (offered : List ChildRulesPayload) : Option ChildRulesPayload → Prop
  | none => offered = []
  | some r => r ∈ offered ∧ ∀ p ∈ offered, p.updatedAt ≤ r.updatedAt

theorem NewestOf.concat {offered : List ChildRulesPayload} {current : Option ChildRulesPayload}
    (h : NewestOf offered current) (p : ChildRulesPayload) :
    NewestOf (offered ++ [p]) (some (newerRulesPayload current p)) := by
  cases current with
  | none =>
    rw [show offered = [] from h]
    exact ⟨List.mem_cons_self, fun q hq => by rw [List.mem_singleton.1 hq]; exact le_rfl⟩
  | some r =>
    obtain ⟨hmem, hle⟩ := h
    unfold newerRulesPayload
    dsimp only
    split
    · rename_i hlt
      refine ⟨List.mem_append_right _ List.mem_cons_self, fun q hq => ?_⟩
      rcases List.mem_append.1 hq with hq | hq
      · exact (hle q hq).trans hlt.le
      · rw [List.mem_singleton.1 hq]
    · rename_i hge
      refine ⟨List.mem_append_left _ hmem, fun q hq => ?_⟩
      rcases List.mem_append.1 hq with hq | hq
      · exact hle q hq
      · rw [List.mem_singleton.1 hq]
        exact Int.not_lt.1 hge

def RulesState.Newest (s : RulesState) : Prop := NewestOf s.offered s.rules

theorem RulesState.Newest.apply {s : RulesState} (h : s.Newest) (gen : ℕ) (p : ChildRulesPayload) :
    (s.apply gen p).Newest := by
  unfold RulesState.apply
  split
  · exact NewestOf.concat h p
  · exact h

theorem RulesState.newest_clear (s : RulesState) : s.clear.Newest := rfl

theorem RulesState.newest_restart (s : RulesState) (o : Options) : (s.restart o).Newest := rfl

/-! ## The watch -/

/-- The refusals since the device last answered. -/
def streakOf (n : ℕ) : Heard → ℕ
  | .refused => n + 1
  | .answered => 0
  | _ => n

def streak (heard : List Heard) : ℕ := heard.foldl streakOf 0

theorem streak_concat (heard : List Heard) (h : Heard) : streak (heard ++ [h]) = streakOf (streak heard) h := by
  simp [streak]

/-- The device refused three times without an answer in between. -/
def Struck (heard : List Heard) : Prop := ∃ l₁ l₂, heard = l₁ ++ l₂ ∧ unpairedStrikes ≤ streak l₁

theorem Struck.append {heard : List Heard} (h : Struck heard) (more : List Heard) : Struck (heard ++ more) := by
  obtain ⟨l₁, l₂, rfl, hle⟩ := h
  exact ⟨l₁, l₂ ++ more, by rw [List.append_assoc], hle⟩

section

variable [Numerals] [Signatures]

/-- **Why a phone is unpaired**: a valid notice, or three refusals and then that of its key. -/
def Why (heard : List Heard) : Prop :=
  (∃ ev railPub clientPub, .notice ev railPub clientPub ∈ heard ∧
    isUnpairedNotice ev railPub clientPub = true) ∨
  ∃ l₁ l₂, heard = l₁ ++ .keyRefused :: l₂ ∧ Struck l₁

theorem Why.append {heard : List Heard} (h : Why heard) (more : List Heard) : Why (heard ++ more) := by
  rcases h with ⟨ev, railPub, clientPub, hmem, hvalid⟩ | ⟨l₁, l₂, rfl, hstruck⟩
  · exact .inl ⟨ev, railPub, clientPub, List.mem_append_left _ hmem, hvalid⟩
  · exact .inr ⟨l₁, l₂ ++ more, by rw [List.append_assoc]; rfl, hstruck⟩

/-- What the watch keeps, with the confirmations under way. -/
structure WatchState.Sound (s : WatchState) (tasks : List LinkTask) : Prop where
  strikes : s.strikes ≤ streak s.heard
  begun : ∀ watch, .confirming watch ∈ tasks → watch ≤ s.watch
  struck : .confirming s.watch ∈ tasks → Struck s.heard
  why : s.unpaired = true → Why s.heard

variable {tasks : List LinkTask}

theorem WatchState.Sound.subset {s : WatchState} {tasks' : List LinkTask} (h : s.Sound tasks)
    (hsub : ∀ watch, .confirming watch ∈ tasks' → .confirming watch ∈ tasks) : s.Sound tasks' :=
  ⟨h.strikes, fun watch hw => h.begun watch (hsub watch hw), fun hw => h.struck (hsub _ hw), h.why⟩

theorem WatchState.Sound.restart {s : WatchState} (h : s.Sound tasks) (o : Options) :
    (s.restart o).Sound tasks := by
  refine ⟨Nat.zero_le _, fun watch hw => Nat.le_succ_of_le (h.begun watch hw), fun hw => ?_, fun hu => by cases hu⟩
  exact absurd (h.begun _ hw) (Nat.not_succ_le_self _)

theorem WatchState.Sound.hears {s : WatchState} (h : s.Sound tasks) (e : Heard)
    {strikes : ℕ} {confirming : Bool} (hstrikes : strikes ≤ streak (s.heard ++ [e])) :
    ({ s with strikes := strikes, confirming := confirming }.hears e).Sound tasks :=
  ⟨hstrikes, h.begun, fun hw => (h.struck hw).append _, fun hu => (h.why hu).append _⟩

theorem WatchState.Sound.forgets {s : WatchState} (h : s.Sound tasks)
    (confirming : Bool) : { s with strikes := 0, confirming := confirming }.Sound tasks :=
  ⟨Nat.zero_le _, h.begun, h.struck, h.why⟩

end

section

variable [Numerals] [Signatures]

theorem WatchState.Sound.strike {s : WatchState} {tasks : List LinkTask} (h : s.Sound tasks)
    (routerCurrent : Bool) :
    (s.strike routerCurrent).1.Sound tasks ∧
      ((s.strike routerCurrent).2 = true → Struck (s.strike routerCurrent).1.heard) := by
  have hstreak : s.strikes + 1 ≤ streak (s.heard ++ [.refused]) := by
    rw [streak_concat]
    exact Nat.succ_le_succ h.strikes
  have hstruck : ¬ (s.strikes + 1 < unpairedStrikes) → Struck (s.heard ++ [.refused]) :=
    fun hle => ⟨s.heard ++ [.refused], [], by simp, (Nat.le_of_not_lt hle).trans hstreak⟩
  have hheard : ∀ {strikes : ℕ} {confirming : Bool}, strikes ≤ streak (s.heard ++ [.refused]) →
      ({ s with strikes := strikes, confirming := confirming }.hears .refused).Sound tasks :=
    fun hle => h.hears .refused hle
  unfold WatchState.strike
  dsimp only
  split
  · exact ⟨hheard hstreak, fun hc => (by cases hc)⟩
  · rename_i hthree
    split
    · exact ⟨hheard hstreak, fun _ => hstruck fun hlt => hthree (.inl hlt)⟩
    · exact ⟨hheard (Nat.zero_le _), fun hc => (by cases hc)⟩

end

theorem WatchState.strike_same (s : WatchState) (routerCurrent : Bool) :
    (s.strike routerCurrent).1.watch = s.watch ∧ (s.strike routerCurrent).1.unpaired = s.unpaired := by
  unfold WatchState.strike
  dsimp only
  split
  · exact ⟨rfl, rfl⟩
  · split <;> exact ⟨rfl, rfl⟩

/-! ## Approvals -/

/-- What is known of a turn. -/
def TurnKeeps (probes : List Probe) (k : ℕ) (t : Turn) : Prop :=
  t.force = true → match t.phase with
    | .queued => True
    | .probing => ∃ pr ∈ probes, pr.turn = k ∧ pr.persona = t.persona
    | .ended how => how = .unavailable ∨
      ∃ ok, how = .probed ok ∧ ∃ pr ∈ probes, pr.turn = k ∧ pr.persona = t.persona

structure ApprovalState.Sound (s : ApprovalState) : Prop where
  probes : ∀ pr ∈ s.probes, pr.deferred = true → pr.force = true
  turns : ∀ k t, s.turns[k]? = some t → TurnKeeps s.probes k t

namespace ApprovalState

variable {s : ApprovalState}

theorem Sound.congr {s' : ApprovalState} (h : s.Sound) (hturns : s'.turns = s.turns)
    (hprobes : s'.probes = s.probes) : s'.Sound := by
  constructor
  · rw [hprobes]
    exact h.probes
  · rw [hturns, hprobes]
    exact h.turns

theorem Sound.approve (h : s.Sound) (persona : JsString) (force : Bool) : (s.approve persona force).Sound := by
  refine ⟨h.probes, fun k t ht => ?_⟩
  have hget : (s.turns ++ [⟨persona, force, .queued⟩])[k]? = some t := ht
  rcases List.mem_append.1 (List.mem_of_getElem? hget) with hmem | hmem
  · rw [List.getElem?_append] at hget
    split at hget
    · exact h.turns k t hget
    · rw [List.mem_singleton.1 (List.mem_of_getElem? hget)]
      exact fun _ => trivial
  · rw [List.mem_singleton.1 hmem]
    exact fun _ => trivial

theorem Sound.attempt (h : s.Sound) (persona : JsString) : (s.attempt persona).Sound := h.congr rfl rfl

variable {k : ℕ}

theorem Sound.setPhase (h : s.Sound) {phase : TurnPhase}
    (hphase : ∀ t, s.turns[k]? = some t → TurnKeeps s.probes k { t with phase }) : (s.setPhase k phase).Sound := by
  refine ⟨h.probes, fun j t ht => ?_⟩
  have hget : (s.turns.modify k fun t => { t with phase })[j]? = some t := ht
  rw [List.getElem?_modify] at hget
  cases hj : s.turns[j]? with
  | none =>
    rw [hj] at hget
    cases hget
  | some t' =>
    rw [hj] at hget
    by_cases hkj : k = j
    · subst hkj
      have heq : { t' with phase } = t := by simpa using hget
      rw [← heq]
      exact hphase t' hj
    · have heq : t' = t := by simpa [hkj] using hget
      rw [← heq]
      exact h.turns j t' hj

variable {persona : JsString}

theorem Sound.endTurn (h : s.Sound) {how : TurnEnd}
    (hhow : ∀ t, s.turns[k]? = some t → TurnKeeps s.probes k { t with phase := .ended how }) :
    (s.endTurn k persona how).Sound := by
  have hphase := h.setPhase hhow
  unfold ApprovalState.endTurn
  dsimp only
  split
  · exact hphase.congr rfl rfl
  · exact hphase

theorem Sound.probe (h : s.Sound) {force : Bool}
    (hforce : s.approvals persona = some .deferred → force = true) : (s.probe k persona force).Sound := by
  constructor
  · intro pr hpr hdeferred
    rcases List.mem_append.1 hpr with hpr | hpr
    · exact h.probes pr hpr hdeferred
    · rw [List.mem_singleton.1 hpr] at hdeferred ⊢
      exact hforce (of_decide_eq_true hdeferred)
  · intro j t ht hforced
    have hkeeps := h.turns j t ht hforced
    split
    · trivial
    · rename_i hp
      rw [hp] at hkeeps
      obtain ⟨pr, hpr, hrest⟩ := hkeeps
      exact ⟨pr, List.mem_append_left _ hpr, hrest⟩
    · rename_i how hp
      rw [hp] at hkeeps
      rcases hkeeps with hkeeps | ⟨ok, hok, pr, hpr, hrest⟩
      · exact .inl hkeeps
      · exact .inr ⟨ok, hok, pr, List.mem_append_left _ hpr, hrest⟩

theorem Sound.beginTurn (h : s.Sound) (o : Options) (k : ℕ) : (beginTurn o s k).Sound := by
  unfold ApprovalState.beginTurn
  split
  · rename_i persona force hturn
    split
    · split
      · rename_i hput
        -- a forced turn is never put off
        have hforce : force = false := by
          simp only [Bool.and_eq_true, Bool.not_eq_true'] at hput
          exact hput.1
        refine h.endTurn fun t ht => ?_
        rw [hturn] at ht
        cases ht
        rw [hforce]
        exact fun hf => by cases hf
      · rename_i hput
        split
        · have hprobe : (s.probe k persona force).Sound := by
            refine h.probe fun hdeferred => ?_
            cases hf : force with
            | true => rfl
            | false => exact absurd (by simp [hf, hdeferred]) hput
          have hset : ((s.probe k persona force).setApproval persona .waiting).Sound := hprobe.congr rfl rfl
          refine hset.setPhase fun t ht _ => ?_
          have ht' : s.turns[k]? = some t := ht
          rw [hturn] at ht'
          cases ht'
          exact ⟨_, List.mem_append_right _ List.mem_cons_self, rfl, rfl⟩
        · have hset : (s.setApproval persona .failed).Sound := h.congr rfl rfl
          exact hset.endTurn fun t _ _ => .inl rfl
    · exact h
  · exact h

theorem Sound.finishTurn (h : s.Sound) (k : ℕ) (ok : Bool) : (s.finishTurn k ok).Sound := by
  unfold ApprovalState.finishTurn
  split
  · rename_i persona force hturn
    have hended : ∀ ok, ∀ t, s.turns[k]? = some t →
        TurnKeeps s.probes k { t with phase := .ended (.probed ok) } := by
      intro ok t ht hforced
      rw [hturn] at ht
      cases ht
      exact .inr ⟨ok, rfl, h.turns k _ hturn hforced⟩
    have hset : ∀ state, (s.setApproval persona state).Sound := fun state => h.congr rfl rfl
    split
    · exact (hset _).endTurn (hended true)
    · split
      · exact h.endTurn (hended false)
      · exact (hset _).endTurn (hended false)
  · exact h

theorem Sound.invite (h : s.Sound) (bound p : JsString) : (invite bound s p).Sound := by
  have happrove : ((s.attempt p).approve p false).Sound := (h.attempt p).approve p false
  unfold ApprovalState.invite
  split
  · exact h
  · split <;> first | exact h | exact happrove

theorem Sound.ceremony (h : s.Sound) (bound : JsString) (candidates : List JsString) :
    (candidates.foldl (ApprovalState.invite bound) s).Sound := by
  induction candidates generalizing s with
  | nil => exact h
  | cons p candidates ih => exact ih (h.invite bound p)

end ApprovalState

/-! ## The link -/

namespace DeviceLink

variable {w : DeviceLink}

theorem sound_approvalStep (h : w.ceremony.Sound) (e : LinkHappening) : (w.approvalStep e).Sound := by
  cases e with
  | begin k => exact h.beginTurn _ k
  | finish k ok => exact h.finishTurn k ok
  | retryApproval persona =>
    unfold approvalStep
    dsimp only
    split
    · exact (h.attempt persona).approve persona true
    · exact h
  | deferApproval persona =>
    unfold approvalStep
    dsimp only
    split
    · exact h.congr rfl rfl
    · exact h
  | ensureApproved persona =>
    unfold approvalStep
    dsimp only
    split
    · exact h
    · exact (h.attempt _).approve _ true
  | _ => exact h

variable [Numerals] [Signatures]

structure Inv (w : DeviceLink) : Prop where
  newest : w.rules.Newest
  silent : w.pairing.unpaired = true → w.rules.rules = none
  watch : w.pairing.Sound w.tasks
  approvals : w.ceremony.Sound

theorem Inv.markUnpaired (h : Inv w) (hwhy : Why w.pairing.heard) : Inv w.markUnpaired := by
  have hpairing : { w.pairing with unpaired := true }.Sound w.tasks :=
    ⟨h.watch.strikes, h.watch.begun, h.watch.struck, fun _ => hwhy⟩
  unfold DeviceLink.markUnpaired
  split
  · exact h
  · dsimp only
    split
    · refine ⟨w.rules.newest_clear, fun _ => rfl, hpairing.subset fun watch hw => ?_, h.approvals⟩
      rcases List.mem_append.1 hw with hw | hw
      · exact hw
      · cases List.mem_singleton.1 hw
    · exact ⟨w.rules.newest_clear, fun _ => rfl, hpairing, h.approvals⟩

theorem Inv.watchEffect (h : Inv w) : Inv w.watchEffect := by
  unfold DeviceLink.watchEffect
  split
  · exact ⟨h.newest, fun hu => (by cases hu), h.watch.restart _, h.approvals⟩
  · exact h

theorem Inv.rulesEffect (h : Inv w) : Inv w.rulesEffect := by
  unfold DeviceLink.rulesEffect
  split
  · dsimp only
    split
    · refine ⟨w.rules.newest_restart _, fun _ => rfl, h.watch.subset fun watch hw => ?_, h.approvals⟩
      rcases List.mem_append.1 hw with hw | hw
      · exact hw
      · cases List.mem_singleton.1 hw
    · exact ⟨w.rules.newest_restart _, fun _ => rfl, h.watch, h.approvals⟩
  · exact h

theorem Inv.approvalEffects (h : Inv w) : Inv w.approvalEffects := by
  have hrestart : (if w.changed recordKey then w.ceremony.restart w.options else w.ceremony).Sound := by
    split
    · exact h.approvals.congr rfl rfl
    · exact h.approvals
  unfold DeviceLink.approvalEffects
  dsimp only
  split
  · exact ⟨h.newest, h.silent, h.watch, hrestart.ceremony _ _⟩
  · exact ⟨h.newest, h.silent, h.watch, hrestart⟩

theorem Inv.commit (h : Inv w) : Inv w.commit := by
  have heffects := h.watchEffect.rulesEffect.approvalEffects
  exact ⟨heffects.newest, heffects.silent, heffects.watch, heffects.approvals⟩

theorem Inv.observe (h : Inv w) (persona : JsString) (result : CallResult) : Inv (w.observe persona result) := by
  unfold DeviceLink.observe
  split
  · exact h
  · rename_i watched hwatched
    split
    · exact h
    · cases result with
      | ok => exact ⟨h.newest, h.silent, h.watch.hears .answered (Nat.zero_le _), h.approvals⟩
      | failed => exact h
      | unauthorised =>
        dsimp only
        obtain ⟨hsound, hstruck⟩ := h.watch.strike
          (w.options.router.any fun (rt : BunkerBackendRouter) =>
            decide (rt.primaryClientPubkeyHex = watched.clientPub))
        obtain ⟨hwatch, hunpaired⟩ := w.pairing.strike_same
          (w.options.router.any fun (rt : BunkerBackendRouter) =>
            decide (rt.primaryClientPubkeyHex = watched.clientPub))
        have hsilent : ∀ {b : Bool}, b = w.pairing.unpaired → b = true → w.rules.rules = none :=
          fun hb ht => h.silent (hb ▸ ht)
        split
        · rename_i hconfirm
          refine ⟨h.newest, hsilent hunpaired, ⟨hsound.strikes, fun watch hw => ?_, fun _ => hstruck hconfirm,
            hsound.why⟩, h.approvals⟩
          rcases List.mem_append.1 hw with hw | hw
          · exact hsound.begun watch hw
          · cases List.mem_singleton.1 hw
            exact le_rfl
        · exact ⟨h.newest, hsilent hunpaired, hsound, h.approvals⟩

theorem Inv.settle (h : Inv w) (k : ℕ) (result : CallResult) : Inv (w.settle k result) := by
  have hsub : ∀ watch, .confirming watch ∈ w.tasks.eraseIdx k → .confirming watch ∈ w.tasks :=
    fun watch hw => (List.eraseIdx_sublist _ _).subset hw
  have hbase : Inv { w with tasks := w.tasks.eraseIdx k } :=
    ⟨h.newest, h.silent, h.watch.subset hsub, h.approvals⟩
  have hmore : ∀ t : LinkTask, (∀ watch, t ≠ .confirming watch) →
      w.pairing.Sound (w.tasks.eraseIdx k ++ [t]) := by
    intro t ht
    refine h.watch.subset fun watch hw => ?_
    rcases List.mem_append.1 hw with hw | hw
    · exact hsub watch hw
    · exact absurd (List.mem_singleton.1 hw).symm (ht watch)
  unfold DeviceLink.settle
  dsimp only
  split
  · exact h
  · exact ⟨h.newest, h.silent, hmore _ (by simp), h.approvals⟩
  · rename_i gen dep payload htask
    have hrules : ∀ rules : RulesState, rules.Newest → (w.pairing.unpaired = true → rules.rules = none) →
        ∀ b : Bool, Inv { w with
          tasks := w.tasks.eraseIdx k
          rules := if b then { rules with cacheRead := true } else rules } := by
      intro rules hnewest hsilent b
      cases b with
      | true => exact ⟨hnewest, hsilent, h.watch.subset hsub, h.approvals⟩
      | false => exact ⟨hnewest, hsilent, h.watch.subset hsub, h.approvals⟩
    have hread := hrules
      (if w.pairing.unpaired then w.rules else payload.elim w.rules (w.rules.apply gen)) ?_ ?_ (decide (gen = w.rules.gen))
    · simpa only [decide_eq_true_eq] using hread
    · split
      · exact h.newest
      · cases payload with
        | none => exact h.newest
        | some p => exact h.newest.apply gen p
    · intro hunpaired
      rw [if_pos hunpaired]
      exact h.silent hunpaired
  · rename_i gen payload htask
    split
    · split
      · exact hbase
      · rename_i p linked hlinked hopen
        have hpaired : ∀ {r : Option ChildRulesPayload}, w.pairing.unpaired = true → r = none :=
          fun hu => absurd (.inl hu) hopen
        split
        · exact ⟨h.newest.apply gen p, hpaired, hmore _ (by simp), h.approvals⟩
        · exact ⟨h.newest.apply gen p, hpaired, h.watch.subset hsub, h.approvals⟩
    · exact hbase
  · split
    · exact ⟨h.newest, h.silent, h.watch.subset hsub, h.approvals⟩
    · exact hbase
  · split
    · exact ⟨h.newest, h.silent, h.watch.subset hsub, h.approvals⟩
    · exact hbase
  · rename_i watch htask
    split
    · exact hbase
    · rename_i hcurrent
      have hmem : .confirming w.pairing.watch ∈ w.tasks := by
        rw [← not_not.1 hcurrent]
        exact List.mem_of_getElem? htask
      split
      · have hheard : ({ w.pairing with confirming := false }.hears .keyRefused).Sound (w.tasks.eraseIdx k) :=
          (h.watch.subset hsub).hears .keyRefused
            (h.watch.strikes.trans_eq (streak_concat w.pairing.heard .keyRefused).symm)
        have hwhy : Why (w.pairing.heard ++ [.keyRefused]) :=
          .inr ⟨w.pairing.heard, [], rfl, h.watch.struck hmem⟩
        exact Inv.markUnpaired ⟨h.newest, h.silent, hheard, h.approvals⟩ hwhy
      · exact ⟨h.newest, h.silent, (h.watch.subset hsub).forgets false, h.approvals⟩

theorem Inv.onEvent (h : Inv w) (ev : NostrEvent) (opened : Option ChildRulesPayload) :
    Inv (w.onEvent ev opened) := by
  unfold DeviceLink.onEvent
  split
  · exact h
  · rename_i linked hlinked
    split
    · split
      · rename_i hvalid
        have hheard : (w.pairing.hears (.notice ev linked.railPub linked.clientPub)).Sound w.tasks :=
          h.watch.hears _ (h.watch.strikes.trans_eq
            (streak_concat w.pairing.heard (.notice ev linked.railPub linked.clientPub)).symm)
        refine Inv.markUnpaired ⟨h.newest, h.silent, hheard, h.approvals⟩ ?_
        exact .inl ⟨ev, linked.railPub, linked.clientPub, List.mem_append_right _ List.mem_cons_self, hvalid⟩
      · exact h
    · refine ⟨h.newest, h.silent, h.watch.subset fun watch hw => ?_, h.approvals⟩
      rcases List.mem_append.1 hw with hw | hw
      · exact hw
      · cases List.mem_singleton.1 hw

theorem Inv.next (h : Inv w) (e : LinkHappening) : Inv (w.next e) := by
  cases e with
  | render options => exact ⟨h.newest, h.silent, h.watch, h.approvals⟩
  | commit => exact h.commit
  | event ev opened => exact h.onEvent ev opened
  | stamped persona result => exact h.observe persona result
  | settle k result => exact h.settle k result
  | begin k => exact ⟨h.newest, h.silent, h.watch, sound_approvalStep h.approvals (.begin k)⟩
  | finish k ok => exact ⟨h.newest, h.silent, h.watch, sound_approvalStep h.approvals (.finish k ok)⟩
  | retryApproval persona =>
    exact ⟨h.newest, h.silent, h.watch, sound_approvalStep h.approvals (.retryApproval persona)⟩
  | deferApproval persona =>
    exact ⟨h.newest, h.silent, h.watch, sound_approvalStep h.approvals (.deferApproval persona)⟩
  | ensureApproved persona =>
    exact ⟨h.newest, h.silent, h.watch, sound_approvalStep h.approvals (.ensureApproved persona)⟩

end DeviceLink

end SignetApp.ChildLink
