import SignetApp.Child.GateSigns

/-!
# Requests in a minute

`useChildGate.ts`: the gate has one counter for all apps of the phone, and moves it on with every
request it takes up. Its windows are fixed, so a minute may reach into two of them, but not further.
-/

namespace SignetApp.Child

open SignetApp.Js SignetApp.Grants

/-! ## The counter -/

/-- How many more requests the counter lets through in the minute from `t` on. -/
def RateLimitState.room (state : RateLimitState) (t : ℤ) : ℕ :=
  if t + rateLimitWindowMs ≤ state.windowStart then 0
  else if t ≤ state.windowStart then defaultRateLimit - state.count
  else if t < state.windowStart + rateLimitWindowMs then 2 * defaultRateLimit - state.count
  else 2 * defaultRateLimit

theorem room_le (state : RateLimitState) (t : ℤ) : state.room t ≤ 2 * defaultRateLimit := by
  unfold RateLimitState.room defaultRateLimit
  split_ifs <;> omega

/-- One request uses up its place. -/
theorem room_checkRateLimit {state state' : RateLimitState} {now t : ℤ} {allowed : Bool}
    (h : checkRateLimit (some state) now = (allowed, state')) (hcount : state.count ≤ defaultRateLimit)
    (hnow : state.windowStart ≤ now) :
    state'.count ≤ defaultRateLimit ∧ state'.windowStart ≤ now ∧
      state'.room t + (if allowed ∧ t ≤ now ∧ now < t + rateLimitWindowMs then 1 else 0) ≤
        state.room t := by
  have hwindow : rateLimitWindowMs = 60000 := rfl
  have hlimit : defaultRateLimit = 10 := rfl
  by_cases hnew : rateLimitWindowMs ≤ now - state.windowStart
  · -- a new window
    obtain ⟨rfl, rfl⟩ := Prod.mk.inj ((if_pos hnew).symm.trans h)
    refine ⟨Nat.le_of_ble_eq_true rfl, le_rfl, ?_⟩
    unfold RateLimitState.room
    dsimp only
    split_ifs <;> omega
  · have hold := (if_neg hnew).symm.trans h
    by_cases hfull : defaultRateLimit < state.count + 1
    · obtain ⟨rfl, rfl⟩ := Prod.mk.inj ((if_pos hfull).symm.trans hold)
      exact ⟨hcount, hnow, by simp⟩
    · obtain ⟨rfl, rfl⟩ := Prod.mk.inj ((if_neg hfull).symm.trans hold)
      refine ⟨Nat.le_of_not_lt hfull, hnow, ?_⟩
      unfold RateLimitState.room
      dsimp only
      split_ifs <;> omega

section

variable [Intl]

def ChildGateVerdict.isRefusal : ChildGateVerdict → Bool
  | .deny _ _ => true
  | _ => false

theorem preflight_cases (rules : Option ChildRulesPayload) (persona appId : JsString) (nowMs : ℤ)
    (rateState : RateLimitState) :
    (∃ early, preflight rules persona appId nowMs rateState = some early ∧ early.isRefusal = true) ∨
      (checkRateLimit (some rateState) nowMs).1 = true := by
  unfold preflight
  dsimp only
  split
  · exact .inl ⟨_, rfl, rfl⟩
  · split
    · exact .inl ⟨_, rfl, rfl⟩
    · split
      · exact .inl ⟨_, rfl, rfl⟩
      · next hrate => exact .inr (by simpa using hrate)

/-! ## Calls of the gate -/

variable [Web] [Curve]

/-- A request the gate takes up: an event, a message for a peer, or what the guardian has passed. -/
inductive GateCall where
  | request (input : ChildGateInput)
  | crypto (rules : Option ChildRulesPayload) (persona appId peer : JsString) (nowMs : ℤ)
  | passed (rules : Option ChildRulesPayload) (persona appId : JsString) (nowMs : ℤ)

def GateCall.nowMs : GateCall → ℤ
  | .request input => input.nowMs
  | .crypto _ _ _ _ nowMs | .passed _ _ _ nowMs => nowMs

/-- Is the request signed for, put to the guardian or put off, and not refused? -/
def GateCall.goesOn (rateState : RateLimitState) : GateCall → Bool
  | .request input => !(decideChildRequest { input with rateState }).isRefusal
  | .crypto rules persona appId peer nowMs =>
    !(decideChildCrypto rules persona appId peer nowMs rateState).isRefusal
  | .passed rules persona appId nowMs => (preflight rules persona appId nowMs rateState).isNone

/-- `authorise` and `forwardPassed`, call after call: the calls that go on. -/
def authoriseAll : RateLimitState → List GateCall → List GateCall
  | _, [] => []
  | rateState, call :: rest =>
    let later := authoriseAll (checkRateLimit (some rateState) call.nowMs).2 rest
    if call.goesOn rateState then call :: later else later

/-- What goes on has been counted. -/
theorem GateCall.rate_of_goesOn {rateState : RateLimitState} {call : GateCall}
    (h : call.goesOn rateState = true) : (checkRateLimit (some rateState) call.nowMs).1 = true := by
  cases call with
  | request input =>
    rcases preflight_cases input.rules input.persona input.appId input.nowMs rateState with
      ⟨early, hearly, hrefusal⟩ | hrate
    · simp [goesOn, decideChildRequest, hearly, hrefusal] at h
    · exact hrate
  | crypto rules persona appId peer nowMs =>
    rcases preflight_cases rules persona appId nowMs rateState with ⟨early, hearly, hrefusal⟩ | hrate
    · simp [goesOn, decideChildCrypto, hearly, hrefusal] at h
    · exact hrate
  | passed rules persona appId nowMs =>
    rcases preflight_cases rules persona appId nowMs rateState with ⟨early, hearly, -⟩ | hrate
    · simp [goesOn, hearly] at h
    · exact hrate

def GateCall.within (t : ℤ) (call : GateCall) : Bool :=
  decide (t ≤ call.nowMs ∧ call.nowMs < t + rateLimitWindowMs)

theorem countP_authoriseAll {state : RateLimitState} {calls : List GateCall} (t : ℤ)
    (hcount : state.count ≤ defaultRateLimit) (hstart : ∀ call ∈ calls, state.windowStart ≤ call.nowMs)
    (hclock : calls.Pairwise fun a b => a.nowMs ≤ b.nowMs) :
    (authoriseAll state calls).countP (GateCall.within t) ≤ state.room t := by
  induction calls generalizing state with
  | nil => exact Nat.zero_le _
  | cons call calls ih =>
    obtain ⟨hfirst, hclock⟩ := List.pairwise_cons.1 hclock
    rcases hcheck : checkRateLimit (some state) call.nowMs with ⟨allowed, state'⟩
    obtain ⟨hcount', hstart', hroom⟩ :=
      room_checkRateLimit (t := t) hcheck hcount (hstart call List.mem_cons_self)
    have hrest := ih hcount' (fun later hl => hstart'.trans (hfirst later hl)) hclock
    unfold authoriseAll
    rw [hcheck]
    dsimp only
    split
    · next hgoes =>
      have hallowed : allowed = true := by
        have hrate := GateCall.rate_of_goesOn hgoes
        rwa [hcheck] at hrate
      rw [List.countP_cons]
      simp only [hallowed, true_and] at hroom
      simp only [GateCall.within, decide_eq_true_eq] at hrest ⊢
      omega
    · exact hrest.trans (Nat.le_of_add_right_le hroom)

/-- **However apps flood the gate, no more than twenty of their requests go on in any minute**, as
long as the clock of the phone does not run backwards. -/
theorem at_most_twenty_a_minute {calls : List GateCall} (t : ℤ) (hnow : ∀ call ∈ calls, 0 ≤ call.nowMs)
    (hclock : calls.Pairwise fun a b => a.nowMs ≤ b.nowMs) :
    (authoriseAll ⟨0, 0⟩ calls).countP (GateCall.within t) ≤ 2 * defaultRateLimit :=
  (countP_authoriseAll t (Nat.zero_le _) hnow hclock).trans (room_le _ t)

end

/-- Around the end of a window, nineteen go on within one second. -/
theorem at_most_twenty_a_minute_flood :
    letI := tuesdayMorning
    letI := twangWeb
    letI := baseCurve
    let calls := GateCall.passed none [] [] 60000 :: List.replicate 12 (GateCall.passed none [] [] 119999)
      ++ List.replicate 12 (GateCall.passed none [] [] 120000)
    (authoriseAll ⟨0, 0⟩ calls).countP (GateCall.within 119000) = 19 ∧
      (authoriseAll ⟨0, 0⟩ calls).countP (GateCall.within 119000) ≤ 2 * defaultRateLimit :=
  letI := tuesdayMorning
  letI := twangWeb
  letI := baseCurve
  ⟨by decide, at_most_twenty_a_minute 119000 (by decide) (by decide)⟩

end SignetApp.Child
