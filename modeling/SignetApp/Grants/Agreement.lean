import Mathlib.Data.Prod.Lex
import SignetApp.Grants.Remembered

/-!
# Do two devices end with the same grants?

Two devices merge each other's grants, one after the other or at once. A grant's decision and its
schedule are merged apart: on a tie the decision stays local, and the schedule is taken from the
other side. `agree_iff` says which ties the devices survive.
-/

namespace SignetApp.Grants

open SignetApp.Js

/-! ## Keys -/

theorem append_cons_inj {α : Type} {xs ys xs' ys' : List α} {a : α} (hxs : a ∉ xs) (hys : a ∉ ys)
    (h : xs ++ a :: xs' = ys ++ a :: ys') : xs = ys ∧ xs' = ys' := by
  induction xs generalizing ys with
  | nil =>
    cases ys with
    | nil => exact ⟨rfl, (List.cons.inj h).2⟩
    | cons y ys => exact absurd ((List.cons.inj h).1 ▸ List.mem_cons_self) hys
  | cons x xs ih =>
    cases ys with
    | nil => exact absurd ((List.cons.inj h).1 ▸ List.mem_cons_self) hxs
    | cons y ys =>
      obtain ⟨rfl, htail⟩ := List.cons.inj h
      obtain ⟨rfl, hrest⟩ := ih (fun hm => hxs (List.mem_cons_of_mem _ hm))
        (fun hm => hys (List.mem_cons_of_mem _ hm)) htail
      exact ⟨rfl, hrest⟩

/-- The dependant, the scope and the origin. -/
def grantId (g : RememberedGrant) : Hex 64 × ScopeName × JsString :=
  (g.dependantId, g.scope, g.origin)

theorem bar_not_mem_hex {n : ℕ} (h : Hex n) : unit '|' ∉ h.val := by
  intro hmem
  have hall := h.property
  rw [isHexOf, Bool.and_eq_true, List.all_eq_true] at hall
  exact absurd (hall.2 _ hmem) (by decide)

variable {g h : RememberedGrant}

theorem grantKey_eq_iff : grantKey g = grantKey h ↔ grantId g = grantId h := by
  constructor
  · intro heq
    obtain ⟨hdep, hrest⟩ := append_cons_inj (bar_not_mem_hex _) (bar_not_mem_hex _) heq
    obtain ⟨hscope, horigin⟩ := append_cons_inj g.scope.property h.scope.property hrest
    exact Prod.ext (Subtype.ext hdep) (Prod.ext (Subtype.ext hscope) horigin)
  · intro heq
    obtain ⟨hdep, hrest⟩ := Prod.mk.inj heq
    obtain ⟨hscope, horigin⟩ := Prod.mk.inj hrest
    rw [grantKey, grantKey, hdep, hscope, horigin]

theorem oneEach_grantKey {grants : List RememberedGrant} (h : OneEach grantId grants) :
    OneEach grantKey grants := by
  have hpair : grants.Pairwise fun g h => grantId g ≠ grantId h := List.pairwise_map.mp h
  exact List.pairwise_map.mpr (hpair.imp fun hne heq => hne (grantKey_eq_iff.mp heq))

/-! ## Two versions of one grant -/

/-- What decides between two versions: the time, then the revocation. -/
def rank (g : RememberedGrant) : ℚ ×ₗ Bool := toLex (effectiveTime g, g.tombstonedAt.isSome)

theorem grantWins_iff {l r : RememberedGrant} : grantWins l r = true ↔ rank l < rank r := by
  rw [rank, rank, Prod.Lex.toLex_lt_toLex, grantWins]
  simp only [Bool.or_eq_true, Bool.and_eq_true, decide_eq_true_eq, Bool.not_eq_true', gt_iff_lt]
  rw [eq_comm (a := effectiveTime r)]
  cases l.tombstonedAt.isSome <;> cases r.tombstonedAt.isSome <;> simp

theorem rank_eq_iff {l r : RememberedGrant} :
    rank l = rank r ↔
      effectiveTime l = effectiveTime r ∧ l.tombstonedAt.isSome = r.tombstonedAt.isSome := by
  simp [rank]

/-- Two versions of one grant merged. -/
def mergeVersions (l r : RememberedGrant) : RememberedGrant :=
  { (if grantWins l r then r else l) with schedule := pickNewerSchedule l.schedule r.schedule }

theorem pickNewerSchedule_eq {l r : Option GrantSchedule} :
    pickNewerSchedule l r = if takesRemote l r then r else l := by
  cases l <;> cases r <;> simp [pickNewerSchedule, takesRemote]

theorem grantKey_schedule (g : RememberedGrant) (schedule : Option GrantSchedule) :
    grantKey { g with schedule := schedule } = grantKey g := rfl

theorem grantKey_mergeVersions {l r : RememberedGrant} (h : grantKey l = grantKey r) :
    grantKey (mergeVersions l r) = grantKey r := by
  rw [mergeVersions, grantKey_schedule]
  split
  · rfl
  · exact h

/-- A pass of the loop merges one grant. -/
theorem merges_mergeStep : Merges grantKey Prod.fst mergeVersions mergeStep := by
  rintro ⟨byKey, toSave⟩ r hkeyed
  cases hl : byKey.get (grantKey r) with
  | none =>
    have hstep : (mergeStep (byKey, toSave) r).1 = byKey.set (grantKey r) r := by
      rw [mergeStep]
      simp only [hl]
    rw [hstep]
    refine ⟨hkeyed.set rfl, fun k => ?_⟩
    rw [OrderedMap.get_set]
    split
    · next hk => rw [hk, hl, Option.merge_none_left]
    · rfl
  | some l =>
    have hkey := hkeyed.of_get hl
    by_cases hsame : ¬ grantWins l r = true ∧ ¬ takesRemote l.schedule r.schedule = true
    · -- The local version stays as it is.
      have hstep : (mergeStep (byKey, toSave) r).1 = byKey := by
        rw [mergeStep]
        simp only [hl, if_neg hsame.1, if_neg hsame.2]
      have hmerged : mergeVersions l r = l := by
        rw [mergeVersions, if_neg hsame.1, pickNewerSchedule_eq, if_neg hsame.2]
      rw [hstep]
      refine ⟨hkeyed, fun k => ?_⟩
      split
      · next hk => rw [hk, hl, Option.merge_some_some, hmerged]
      · rfl
    · have hstep : (mergeStep (byKey, toSave) r).1 = byKey.set (grantKey r) (mergeVersions l r) := by
        rw [mergeStep]
        simp only [hl]
        by_cases hwins : grantWins l r = true
        · rw [if_pos hwins, mergeVersions, if_pos hwins]
        · have htakes : takesRemote l.schedule r.schedule = true := by
            by_contra htakes
            exact hsame ⟨hwins, htakes⟩
          rw [if_neg hwins, if_pos htakes, mergeVersions, if_neg hwins]
      rw [hstep]
      refine ⟨hkeyed.set (grantKey_mergeVersions hkey), fun k => ?_⟩
      rw [OrderedMap.get_set]
      split
      · next hk => rw [hk, hl, Option.merge_some_some]
      · rfl

abbrev grantFor (grants : List RememberedGrant) (key : JsString) : Option RememberedGrant :=
  valueFor grantKey grants key

theorem mergeGrantLists_spec {l r : List RememberedGrant} (hl : OneEach grantKey l)
    (hr : OneEach grantKey r) : OneEach grantKey (mergeGrantLists l r).1 ∧
    ∀ key, grantFor (mergeGrantLists l r).1 key
      = (grantFor l key).merge mergeVersions (grantFor r key) := by
  obtain ⟨hkeyed, hget⟩ :=
    foldl_merge (s := (byKey grantKey l, [])) merges_mergeStep hr (keyed_byKey hl)
  refine ⟨oneEach_values hkeyed, fun key => ?_⟩
  rw [show grantFor l key = (byKey grantKey l).get key from (get_byKey hl key).symm]
  exact (valueFor_values hkeyed key).trans (hget key)

/-! ## One grant on two devices -/

/-- How two devices merge: one after the other, or each what the other had before. -/
inductive Round where
  | aFirst | bFirst | crossed
  deriving DecidableEq

/-- The two versions after a round. -/
def Round.versions (round : Round) (l r : RememberedGrant) : RememberedGrant × RememberedGrant :=
  match round with
  | .aFirst => (mergeVersions l r, mergeVersions r (mergeVersions l r))
  | .bFirst => (mergeVersions l (mergeVersions r l), mergeVersions r l)
  | .crossed => (mergeVersions l r, mergeVersions r l)

def versionsAfter (rounds : List Round) (l r : RememberedGrant) : RememberedGrant × RememberedGrant :=
  rounds.foldl (fun (l, r) round => round.versions l r) (l, r)

/-- A grant without its schedule. -/
def RememberedGrant.body (g : RememberedGrant) : RememberedGrant := { g with schedule := none }

theorem rank_eq_of_body (heq : g.body = h.body) : rank g = rank h := by
  show rank g.body = rank h.body
  rw [heq]

theorem body_mergeVersions (l r : RememberedGrant) :
    (mergeVersions l r).body = if rank l < rank r then r.body else l.body := by
  rw [mergeVersions]
  simp only [grantWins_iff]
  split <;> rfl

theorem body_mergeVersions_congr {l l' r r' : RememberedGrant} (hl : l'.body = l.body)
    (hr : r'.body = r.body) : (mergeVersions l' r').body = (mergeVersions l r).body := by
  rw [body_mergeVersions, body_mergeVersions, rank_eq_of_body hl, rank_eq_of_body hr, hl, hr]

theorem body_mergeVersions_self (g : RememberedGrant) : (mergeVersions g g).body = g.body := by
  rw [body_mergeVersions, if_neg (lt_irrefl _)]

theorem body_mergeVersions_merged (l r : RememberedGrant) :
    (mergeVersions l (mergeVersions r l)).body = (mergeVersions l r).body := by
  by_cases hlt : rank r < rank l
  · have hmerged : (mergeVersions r l).body = l.body := by rw [body_mergeVersions, if_pos hlt]
    rw [body_mergeVersions_congr rfl hmerged, body_mergeVersions_self, body_mergeVersions,
      if_neg hlt.not_gt]
  · apply body_mergeVersions_congr rfl
    rw [body_mergeVersions, if_neg hlt]

/-- The bodies two devices settle on. -/
def Settled (l r : RememberedGrant) (after : RememberedGrant × RememberedGrant) : Prop :=
  after.1.body = (mergeVersions l r).body ∧ after.2.body = (mergeVersions r l).body

theorem settled_round (round : Round) (l r : RememberedGrant) : Settled l r (round.versions l r) := by
  cases round with
  | aFirst => exact ⟨rfl, body_mergeVersions_merged r l⟩
  | bFirst => exact ⟨body_mergeVersions_merged l r, rfl⟩
  | crossed => exact ⟨rfl, rfl⟩

theorem body_mergeVersions_settled (l r : RememberedGrant) :
    (mergeVersions (mergeVersions l r) (mergeVersions r l)).body = (mergeVersions l r).body := by
  rcases lt_trichotomy (rank l) (rank r) with hlt | heq | hgt
  · have hleft : (mergeVersions l r).body = r.body := by rw [body_mergeVersions, if_pos hlt]
    have hright : (mergeVersions r l).body = r.body := by
      rw [body_mergeVersions, if_neg hlt.not_gt]
    rw [body_mergeVersions_congr hleft hright, body_mergeVersions_self, hleft]
  · apply body_mergeVersions_congr
    · rw [body_mergeVersions, if_neg heq.not_lt]
    · rw [body_mergeVersions, if_neg heq.not_gt]
  · have hleft : (mergeVersions l r).body = l.body := by rw [body_mergeVersions, if_neg hgt.not_gt]
    have hright : (mergeVersions r l).body = l.body := by rw [body_mergeVersions, if_pos hgt]
    rw [body_mergeVersions_congr hleft hright, body_mergeVersions_self, hleft]

theorem Settled.round {l r : RememberedGrant} {after : RememberedGrant × RememberedGrant}
    (h : Settled l r after) (round : Round) : Settled l r (round.versions after.1 after.2) := by
  obtain ⟨hleft, hright⟩ := settled_round round after.1 after.2
  constructor
  · rw [hleft, body_mergeVersions_congr h.1 h.2, body_mergeVersions_settled]
  · rw [hright, body_mergeVersions_congr h.2 h.1, body_mergeVersions_settled]

theorem versionsAfter_cons (round : Round) (rounds : List Round) (l r : RememberedGrant) :
    versionsAfter (round :: rounds) l r
      = versionsAfter rounds (round.versions l r).1 (round.versions l r).2 := rfl

theorem Settled.rounds {l r x y : RememberedGrant} (h : Settled l r (x, y)) (rounds : List Round) :
    Settled l r (versionsAfter rounds x y) := by
  induction rounds generalizing x y with
  | nil => exact h
  | cons round rounds ih =>
    rw [versionsAfter_cons]
    exact ih (h.round round)

variable {rounds : List Round}

theorem settled_versionsAfter (hne : rounds ≠ []) (l r : RememberedGrant) :
    Settled l r (versionsAfter rounds l r) := by
  obtain ⟨round, rounds, rfl⟩ := List.exists_cons_of_ne_nil hne
  rw [versionsAfter_cons]
  exact (settled_round round l r).rounds rounds

/-! ## Schedules -/

/-- Two schedules of one time that differ. -/
def Clash (s t : Option GrantSchedule) : Prop :=
  ∃ x ∈ s, ∃ y ∈ t, x.issuedAt = y.issuedAt ∧ x ≠ y

variable {s t : Option GrantSchedule}

theorem Clash.symm (h : Clash s t) : Clash t s := by
  obtain ⟨x, hx, y, hy, htime, hne⟩ := h
  exact ⟨y, hy, x, hx, htime.symm, hne.symm⟩

theorem Clash.ne (h : Clash s t) : s ≠ t := by
  rintro rfl
  obtain ⟨x, hx, y, hy, -, hne⟩ := h
  exact hne (Option.some.inj (hx.symm.trans hy))

theorem Clash.pickNewerSchedule_eq (h : Clash s t) : pickNewerSchedule s t = t := by
  obtain ⟨x, rfl, y, rfl, htime, -⟩ := h
  exact if_pos htime.le

theorem pickNewerSchedule_self (s : Option GrantSchedule) : pickNewerSchedule s s = s := by
  cases s with
  | none => rfl
  | some x => exact if_pos le_rfl

theorem pickNewerSchedule_comm (h : ¬ Clash s t) :
    pickNewerSchedule s t = pickNewerSchedule t s := by
  cases s with
  | none => cases t <;> rfl
  | some x =>
    cases t with
    | none => rfl
    | some y =>
      show (if y.issuedAt ≥ x.issuedAt then some y else some x)
        = (if x.issuedAt ≥ y.issuedAt then some x else some y)
      rcases lt_trichotomy x.issuedAt y.issuedAt with hlt | heq | hgt
      · rw [if_pos hlt.le, if_neg (not_le.mpr hlt)]
      · have hsame : x = y := by
          by_contra hne
          exact h ⟨x, rfl, y, rfl, heq, hne⟩
        rw [hsame]
      · rw [if_neg (not_le.mpr hgt), if_pos hgt.le]

theorem pickNewerSchedule_merged (s t : Option GrantSchedule) :
    pickNewerSchedule s (pickNewerSchedule t s) = pickNewerSchedule t s := by
  by_cases h : Clash t s
  · rw [h.pickNewerSchedule_eq, pickNewerSchedule_self]
  · have hcases : pickNewerSchedule t s = s ∨ pickNewerSchedule t s = t := by
      rw [pickNewerSchedule_eq]
      split
      · exact .inl rfl
      · exact .inr rfl
    rcases hcases with heq | heq
    · rw [heq, pickNewerSchedule_self]
    · rw [heq, ← pickNewerSchedule_comm h, heq]

theorem schedule_sequential {round : Round} (h : round ≠ .crossed) (l r : RememberedGrant) :
    (round.versions l r).1.schedule = (round.versions l r).2.schedule := by
  cases round with
  | aFirst => exact (pickNewerSchedule_merged r.schedule l.schedule).symm
  | bFirst => exact pickNewerSchedule_merged l.schedule r.schedule
  | crossed => exact absurd rfl h

theorem schedule_of_same {l r : RememberedGrant} (h : l.schedule = r.schedule) (rounds : List Round) :
    (versionsAfter rounds l r).1.schedule = (versionsAfter rounds l r).2.schedule := by
  induction rounds generalizing l r with
  | nil => exact h
  | cons round rounds ih =>
    rw [versionsAfter_cons]
    apply ih
    by_cases hround : round = .crossed
    · rw [hround]
      show pickNewerSchedule l.schedule r.schedule = pickNewerSchedule r.schedule l.schedule
      rw [h]
    · exact schedule_sequential hround l r

theorem clash_crossed (hcrossed : ∀ round ∈ rounds, round = .crossed)
    {l r : RememberedGrant} (h : Clash l.schedule r.schedule) :
    Clash (versionsAfter rounds l r).1.schedule (versionsAfter rounds l r).2.schedule := by
  induction rounds generalizing l r with
  | nil => exact h
  | cons round rounds ih =>
    rw [versionsAfter_cons, hcrossed round List.mem_cons_self]
    apply ih fun later hlater => hcrossed later (List.mem_cons_of_mem _ hlater)
    show Clash (pickNewerSchedule l.schedule r.schedule) (pickNewerSchedule r.schedule l.schedule)
    rw [h.pickNewerSchedule_eq, h.symm.pickNewerSchedule_eq]
    exact h.symm

/-- **When the schedules end the same**: not all rounds were crossed, or there was no clash. -/
theorem schedule_versionsAfter_iff (hne : rounds ≠ []) (l r : RememberedGrant) :
    (versionsAfter rounds l r).1.schedule = (versionsAfter rounds l r).2.schedule ↔
      ((∀ round ∈ rounds, round = .crossed) → ¬ Clash l.schedule r.schedule) := by
  constructor
  · exact fun hsame hcrossed hclash => (clash_crossed hcrossed hclash).ne hsame
  · intro h
    obtain ⟨round, rounds, rfl⟩ := List.exists_cons_of_ne_nil hne
    induction rounds generalizing round l r with
    | nil =>
      by_cases hround : round = .crossed
      · have hno := h fun other hother => (List.mem_singleton.mp hother).trans hround
        rw [versionsAfter_cons, hround]
        exact pickNewerSchedule_comm hno
      · exact schedule_sequential hround l r
    | cons next rounds ih =>
      rw [versionsAfter_cons]
      by_cases hround : round = .crossed
      · by_cases hclash : Clash l.schedule r.schedule
        · -- The schedules are swapped, and clash as before.
          apply ih _ _ _ (List.cons_ne_nil _ _)
          intro hcrossed _
          refine h (fun other hother => ?_) hclash
          rcases List.mem_cons.mp hother with rfl | hother
          · exact hround
          · exact hcrossed other hother
        · apply schedule_of_same
          rw [hround]
          exact pickNewerSchedule_comm hclash
      · exact schedule_of_same (schedule_sequential hround l r) _

/-! ## Decisions -/

/-- What two devices are to agree on. -/
def shown (g : RememberedGrant) : Decision × Bool × Option GrantSchedule :=
  (g.decision, g.tombstonedAt.isSome, g.schedule)

theorem decision_body (heq : g.body = h.body) :
    g.decision = h.decision ∧ g.tombstonedAt.isSome = h.tombstonedAt.isSome := by
  have hdecision : g.body.decision = h.body.decision := congrArg _ heq
  have htomb : g.body.tombstonedAt = h.body.tombstonedAt := congrArg _ heq
  exact ⟨hdecision, congrArg Option.isSome htomb⟩

variable {after : RememberedGrant × RememberedGrant}

theorem decision_settled_iff {l r : RememberedGrant} (h : Settled l r after) :
    (after.1.decision = after.2.decision ∧
      after.1.tombstonedAt.isSome = after.2.tombstonedAt.isSome) ↔
    (rank l = rank r → l.decision = r.decision) := by
  obtain ⟨hleft, hright⟩ := h
  rcases lt_trichotomy (rank l) (rank r) with hlt | heq | hgt
  · have hsame : after.1.body = after.2.body := by
      rw [hleft, hright, body_mergeVersions, body_mergeVersions, if_pos hlt, if_neg hlt.not_gt]
    exact iff_of_true (decision_body hsame) fun heq => absurd heq hlt.ne
  · rw [body_mergeVersions, if_neg heq.not_lt] at hleft
    rw [body_mergeVersions, if_neg heq.not_gt] at hright
    rw [(decision_body hleft).1, (decision_body hleft).2, (decision_body hright).1,
      (decision_body hright).2]
    exact ⟨fun hsame _ => hsame.1, fun hsame => ⟨hsame heq, (rank_eq_iff.mp heq).2⟩⟩
  · have hsame : after.1.body = after.2.body := by
      rw [hleft, hright, body_mergeVersions, body_mergeVersions, if_neg hgt.not_gt, if_pos hgt]
    exact iff_of_true (decision_body hsame) fun heq => absurd heq hgt.ne'

theorem revoked_settled {l r : RememberedGrant}
    (h : Settled l r after) (hrevoked : l.tombstonedAt.isSome = true)
    (hlater : effectiveTime r ≤ effectiveTime l) :
    after.1.tombstonedAt.isSome = true ∧ after.2.tombstonedAt.isSome = true := by
  obtain ⟨hleft, hright⟩ := h
  have hle : rank r ≤ rank l := by
    rw [rank, rank, Prod.Lex.toLex_le_toLex, hrevoked]
    rcases hlater.lt_or_eq with hlt | heq
    · exact .inl hlt
    · exact .inr ⟨heq, Bool.le_true _⟩
  rw [body_mergeVersions, if_neg hle.not_gt] at hleft
  rw [body_mergeVersions] at hright
  refine ⟨(decision_body hleft).2.trans hrevoked, ?_⟩
  split at hright
  · exact (decision_body hright).2.trans hrevoked
  · next hnot =>
    have heq := rank_eq_iff.mp (hle.antisymm (not_lt.mp hnot))
    exact (decision_body hright).2.trans (heq.2.trans hrevoked)

/-! ## Two lists -/

/-- The two lists after a round. -/
def Round.lists (round : Round) (a b : List RememberedGrant) :
    List RememberedGrant × List RememberedGrant :=
  match round with
  | .aFirst =>
    let a := (mergeGrantLists a b).1
    (a, (mergeGrantLists b a).1)
  | .bFirst =>
    let b := (mergeGrantLists b a).1
    ((mergeGrantLists a b).1, b)
  | .crossed => ((mergeGrantLists a b).1, (mergeGrantLists b a).1)

/-- The two lists after some rounds. -/
def exchange (rounds : List Round) (a b : List RememberedGrant) :
    List RememberedGrant × List RememberedGrant :=
  rounds.foldl (fun (a, b) round => round.lists a b) (a, b)

theorem exchange_cons (round : Round) (rounds : List Round) (a b : List RememberedGrant) :
    exchange (round :: rounds) a b = exchange rounds (round.lists a b).1 (round.lists a b).2 := rfl

theorem oneEach_lists {a b : List RememberedGrant} (ha : OneEach grantKey a)
    (hb : OneEach grantKey b) (round : Round) :
    OneEach grantKey (round.lists a b).1 ∧ OneEach grantKey (round.lists a b).2 := by
  cases round with
  | aFirst =>
    have hmerged := (mergeGrantLists_spec ha hb).1
    exact ⟨hmerged, (mergeGrantLists_spec hb hmerged).1⟩
  | bFirst =>
    have hmerged := (mergeGrantLists_spec hb ha).1
    exact ⟨(mergeGrantLists_spec ha hmerged).1, hmerged⟩
  | crossed => exact ⟨(mergeGrantLists_spec ha hb).1, (mergeGrantLists_spec hb ha).1⟩

/-- A round, key by key, on what the two devices have for the key. -/
def Round.onKey (round : Round) (x y : Option RememberedGrant) :
    Option RememberedGrant × Option RememberedGrant :=
  match round with
  | .aFirst => (x.merge mergeVersions y, y.merge mergeVersions (x.merge mergeVersions y))
  | .bFirst => (x.merge mergeVersions (y.merge mergeVersions x), y.merge mergeVersions x)
  | .crossed => (x.merge mergeVersions y, y.merge mergeVersions x)

theorem grantFor_lists {a b : List RememberedGrant} (ha : OneEach grantKey a)
    (hb : OneEach grantKey b) (round : Round) (key : JsString) :
    (grantFor (round.lists a b).1 key, grantFor (round.lists a b).2 key)
      = round.onKey (grantFor a key) (grantFor b key) := by
  cases round with
  | aFirst =>
    obtain ⟨hmerged, hget⟩ := mergeGrantLists_spec ha hb
    rw [Round.lists, Round.onKey, hget, (mergeGrantLists_spec hb hmerged).2, hget]
  | bFirst =>
    obtain ⟨hmerged, hget⟩ := mergeGrantLists_spec hb ha
    rw [Round.lists, Round.onKey, hget, (mergeGrantLists_spec ha hmerged).2, hget]
  | crossed =>
    rw [Round.lists, Round.onKey, (mergeGrantLists_spec ha hb).2,
      (mergeGrantLists_spec hb ha).2]

theorem mergeVersions_self (g : RememberedGrant) : mergeVersions g g = g := by
  rw [mergeVersions, pickNewerSchedule_self]
  split <;> rfl

theorem onKey_of_alike {x y : Option RememberedGrant} (h : x = none ∨ y = none ∨ x = y)
    (round : Round) : round.onKey x y = (x.or y, x.or y) := by
  have hself : ∀ g, (some g).merge mergeVersions (some g) = some g := fun g =>
    congrArg some (mergeVersions_self g)
  rcases h with rfl | rfl | rfl
  · cases y <;> cases round <;> simp [Round.onKey, mergeVersions_self]
  · cases x <;> cases round <;> simp [Round.onKey, mergeVersions_self]
  · cases x <;> cases round <;> simp [Round.onKey, mergeVersions_self]

section
variable {a b : List RememberedGrant} {key : JsString}

variable {l r : RememberedGrant}

theorem grantFor_exchange_both (ha : OneEach grantKey a) (hb : OneEach grantKey b) (hl : grantFor a key = some l) (hr : grantFor b key = some r)
    (rounds : List Round) :
    grantFor (exchange rounds a b).1 key = some (versionsAfter rounds l r).1 ∧
    grantFor (exchange rounds a b).2 key = some (versionsAfter rounds l r).2 := by
  induction rounds generalizing a b l r with
  | nil => exact ⟨hl, hr⟩
  | cons round rounds ih =>
    have hget := grantFor_lists ha hb round key
    have hversions : round.onKey (some l) (some r)
        = (some (round.versions l r).1, some (round.versions l r).2) := by cases round <;> rfl
    rw [hl, hr, hversions] at hget
    obtain ⟨hleft, hright⟩ := Prod.mk.inj hget
    rw [exchange_cons, versionsAfter_cons]
    obtain ⟨ha', hb'⟩ := oneEach_lists ha hb round
    exact ih ha' hb' hleft hright

theorem grantFor_exchange_same (ha : OneEach grantKey a) (hb : OneEach grantKey b)
    (h : grantFor a key = grantFor b key) (rounds : List Round) :
    grantFor (exchange rounds a b).1 key = grantFor a key ∧
    grantFor (exchange rounds a b).2 key = grantFor a key := by
  induction rounds generalizing a b with
  | nil => exact ⟨rfl, h.symm⟩
  | cons round rounds ih =>
    have hget := grantFor_lists ha hb round key
    rw [onKey_of_alike (.inr (.inr h)), ← h, Option.or_self] at hget
    obtain ⟨hleft, hright⟩ := Prod.mk.inj hget
    obtain ⟨ha', hb'⟩ := oneEach_lists ha hb round
    rw [exchange_cons, ← hleft]
    exact ih ha' hb' (hleft.trans hright.symm)

theorem grantFor_exchange_one (ha : OneEach grantKey a) (hb : OneEach grantKey b)
    (h : grantFor a key = none ∨ grantFor b key = none) {rounds : List Round} (hne : rounds ≠ []) :
    grantFor (exchange rounds a b).1 key = (grantFor a key).or (grantFor b key) ∧
    grantFor (exchange rounds a b).2 key = (grantFor a key).or (grantFor b key) := by
  obtain ⟨round, rounds, rfl⟩ := List.exists_cons_of_ne_nil hne
  have hget := grantFor_lists ha hb round key
  rw [onKey_of_alike (h.imp_right .inl)] at hget
  obtain ⟨hleft, hright⟩ := Prod.mk.inj hget
  obtain ⟨ha', hb'⟩ := oneEach_lists ha hb round
  rw [exchange_cons, ← hleft]
  exact grantFor_exchange_same ha' hb' (hleft.trans hright.symm) rounds

/-- Both hold the same decision, revocation and schedule for every key. -/
def Agree (a b : List RememberedGrant) : Prop :=
  ∀ key, (grantFor a key).map shown = (grantFor b key).map shown

/-- A revocation that no version of the grant is later than stands on both devices. -/
def RevocationsStand (a b : List RememberedGrant)
    (after : List RememberedGrant × List RememberedGrant) : Prop :=
  ∀ g ∈ a ++ b, g.tombstonedAt.isSome = true →
    (∀ h ∈ a ++ b, grantKey h = grantKey g → effectiveTime h ≤ effectiveTime g) →
    (∃ h, grantFor after.1 (grantKey g) = some h ∧ h.tombstonedAt.isSome = true) ∧
    (∃ h, grantFor after.2 (grantKey g) = some h ∧ h.tombstonedAt.isSome = true)

theorem Settled.symm {after : RememberedGrant × RememberedGrant}
    (h : Settled l r after) : Settled r l (after.2, after.1) := ⟨h.2, h.1⟩

theorem revocationsStand (ha : OneEach grantKey a) (hb : OneEach grantKey b) {rounds : List Round}
    (hne : rounds ≠ []) : RevocationsStand a b (exchange rounds a b) := by
  intro g hg hrevoked hlast
  have hkeep : ∀ v, grantFor a (grantKey g) = some v → v ∈ a ++ b ∧ grantKey v = grantKey g := by
    intro v hv
    obtain ⟨hmem, hkey⟩ := (valueFor_eq_some_iff ha).mp hv
    exact ⟨List.mem_append_left _ hmem, hkey⟩
  have hkeep' : ∀ v, grantFor b (grantKey g) = some v → v ∈ a ++ b ∧ grantKey v = grantKey g := by
    intro v hv
    obtain ⟨hmem, hkey⟩ := (valueFor_eq_some_iff hb).mp hv
    exact ⟨List.mem_append_right _ hmem, hkey⟩
  cases hl : grantFor a (grantKey g) with
  | none =>
    have hgb : grantFor b (grantKey g) = some g := by
      rcases List.mem_append.mp hg with hmem | hmem
      · have hself := valueFor_self ha hmem
        rw [show valueFor grantKey a (grantKey g) = none from hl] at hself
        cases hself
      · exact valueFor_self hb hmem
    obtain ⟨h1, h2⟩ := grantFor_exchange_one ha hb (.inl hl) hne
    rw [hl, hgb, Option.none_or] at h1 h2
    exact ⟨⟨g, h1, hrevoked⟩, ⟨g, h2, hrevoked⟩⟩
  | some l =>
    cases hr : grantFor b (grantKey g) with
    | none =>
      have hga : l = g := by
        rcases List.mem_append.mp hg with hmem | hmem
        · exact Option.some.inj (hl.symm.trans (valueFor_self ha hmem))
        · have hself := valueFor_self hb hmem
          rw [show valueFor grantKey b (grantKey g) = none from hr] at hself
          cases hself
      obtain ⟨h1, h2⟩ := grantFor_exchange_one ha hb (.inr hr) hne
      rw [hl, hga, Option.some_or] at h1 h2
      exact ⟨⟨g, h1, hrevoked⟩, ⟨g, h2, hrevoked⟩⟩
    | some r =>
      obtain ⟨h1, h2⟩ := grantFor_exchange_both ha hb hl hr rounds
      have hsettled := settled_versionsAfter hne l r
      have hboth : (versionsAfter rounds l r).1.tombstonedAt.isSome = true ∧
          (versionsAfter rounds l r).2.tombstonedAt.isSome = true := by
        rcases List.mem_append.mp hg with hmem | hmem
        · have hga : l = g := Option.some.inj (hl.symm.trans (valueFor_self ha hmem))
          obtain ⟨hrmem, hrkey⟩ := hkeep' r hr
          exact revoked_settled hsettled (hga ▸ hrevoked) (hga ▸ hlast r hrmem hrkey)
        · have hgb : r = g := Option.some.inj (hr.symm.trans (valueFor_self hb hmem))
          obtain ⟨hlmem, hlkey⟩ := hkeep l hl
          exact (revoked_settled hsettled.symm (hgb ▸ hrevoked) (hgb ▸ hlast l hlmem hlkey)).symm
      exact ⟨⟨_, h1, hboth.1⟩, ⟨_, h2, hboth.2⟩⟩

/-- **When two devices end with the same grants.** -/
theorem agree_iff (ha : OneEach grantId a) (hb : OneEach grantId b) {rounds : List Round}
    (hne : rounds ≠ []) :
    (Agree (exchange rounds a b).1 (exchange rounds a b).2 ∧
      RevocationsStand a b (exchange rounds a b)) ↔
    ∀ l ∈ a, ∀ r ∈ b, grantId l = grantId r →
      (effectiveTime l = effectiveTime r → l.tombstonedAt.isSome = r.tombstonedAt.isSome →
        l.decision = r.decision) ∧
      ((∀ round ∈ rounds, round = .crossed) → ∀ s ∈ l.schedule, ∀ t ∈ r.schedule,
        s.issuedAt = t.issuedAt → s = t) := by
  replace ha := oneEach_grantKey ha
  replace hb := oneEach_grantKey hb
  have hpair : ∀ l r : RememberedGrant,
      shown (versionsAfter rounds l r).1 = shown (versionsAfter rounds l r).2 ↔
        (effectiveTime l = effectiveTime r → l.tombstonedAt.isSome = r.tombstonedAt.isSome →
          l.decision = r.decision) ∧
        ((∀ round ∈ rounds, round = .crossed) → ∀ s ∈ l.schedule, ∀ t ∈ r.schedule,
          s.issuedAt = t.issuedAt → s = t) := by
    intro l r
    have hdecision := decision_settled_iff (settled_versionsAfter hne l r)
    have hschedule := schedule_versionsAfter_iff hne l r
    have hclash : ¬ Clash l.schedule r.schedule ↔ ∀ s ∈ l.schedule, ∀ t ∈ r.schedule,
        s.issuedAt = t.issuedAt → s = t := by
      simp [Clash, not_exists, not_and, not_not]
    rw [rank_eq_iff, and_imp] at hdecision
    rw [hclash] at hschedule
    rw [← hdecision, ← hschedule]
    simp only [shown, Prod.mk.injEq]
    tauto
  refine (and_iff_left (revocationsStand ha hb hne)).trans
    ⟨fun hagree l hl r hr hid => ?_, fun h key => ?_⟩
  · have hr' : grantFor b (grantKey l) = some r := by
      rw [grantKey_eq_iff.mpr hid]
      exact valueFor_self hb hr
    obtain ⟨h1, h2⟩ := grantFor_exchange_both ha hb (valueFor_self ha hl) hr' rounds
    have hsame := hagree (grantKey l)
    rw [h1, h2] at hsame
    exact (hpair l r).mp (Option.some.inj hsame)
  · by_cases hmissing : grantFor a key = none ∨ grantFor b key = none
    · obtain ⟨h1, h2⟩ := grantFor_exchange_one ha hb hmissing hne
      rw [h1, h2]
    · obtain ⟨hna, hnb⟩ := not_or.mp hmissing
      obtain ⟨l, hl⟩ := Option.ne_none_iff_exists'.mp hna
      obtain ⟨r, hr⟩ := Option.ne_none_iff_exists'.mp hnb
      obtain ⟨h1, h2⟩ := grantFor_exchange_both ha hb hl hr rounds
      obtain ⟨hlmem, hlkey⟩ := (valueFor_eq_some_iff ha).mp hl
      obtain ⟨hrmem, hrkey⟩ := (valueFor_eq_some_iff hb).mp hr
      have hid := grantKey_eq_iff.mp (hlkey.trans hrkey.symm)
      rw [h1, h2]
      exact congrArg some ((hpair l r).mpr (h l hlmem r hrmem hid))

end

/-! ## Two decisions of one second -/

/-- A decision about a sign-in, made at a time. -/
def signIn (decision : Decision) (decidedAt : Seconds) : RememberedGrant where
  dependantId := .repeated 64 10
  scope := ⟨lit "sign-in", by decide⟩
  origin := lit "https://a.example"
  decision := decision
  decidedAt := decidedAt

/-- Two devices decide differently in one second, and each keeps its own. -/
theorem same_second_disagree :
    let a := [signIn .allow ⟨100, by norm_num⟩]
    let b := [signIn .deny ⟨100, by norm_num⟩]
    OneEach grantId a ∧ OneEach grantId b ∧
    ∀ round, ¬ Agree (exchange [round] a b).1 (exchange [round] a b).2 := by
  refine ⟨List.nodup_singleton _, List.nodup_singleton _, fun round hagree => ?_⟩
  have hdecision := congrArg (Option.map Prod.fst)
    (hagree (grantKey (signIn .allow ⟨100, by norm_num⟩)))
  cases round with
  | aFirst => exact absurd hdecision (by decide +kernel)
  | bFirst => exact absurd hdecision (by decide +kernel)
  | crossed => exact absurd hdecision (by decide +kernel)

theorem agree_iff_later_second :
    let a := [signIn .allow ⟨100, by norm_num⟩]
    let b := [signIn .deny ⟨101, by norm_num⟩]
    Agree (exchange [.crossed] a b).1 (exchange [.crossed] a b).2 ∧
      RevocationsStand a b (exchange [.crossed] a b) := by
  have hone : ∀ g : RememberedGrant, OneEach grantId [g] := fun _ => List.nodup_singleton _
  refine (agree_iff (hone _) (hone _) (by decide)).mpr ?_
  intro l hl r hr _
  rw [List.mem_singleton.mp hl, List.mem_singleton.mp hr]
  refine ⟨fun htime => ?_, fun _ s hs => nomatch hs⟩
  exact absurd htime (by decide +kernel)

end SignetApp.Grants
