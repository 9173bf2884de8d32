import SignetApp.Concurrency.Reach
import SignetApp.Concurrency.Serial
import SignetApp.Family.DependantRecord

/-!
# Edits of a dependant, side by side

`useDependants.ts` as it runs: an operation works from the dependants its closure captured, or reads
the storage again, and saves the whole record some time later. A closure may have captured the record
as it was at any earlier time.
-/

namespace SignetApp.Family.Edits

open SignetApp.Js

inductive Stage where
  /-- Waiting for the record, and for its turn in `personaMutations`. -/
  | reading
  /-- `saveDependant` is under way with a record made from `base`. -/
  | saving (base updated : DependantIdentity)
  /-- Saved; `loadDependants` is under way. -/
  | saved
  | returned
  | threw
  deriving DecidableEq

structure Edit where
  op : Operation
  /-- How many effects there were when it was called. -/
  began : ℕ
  /-- How many there were when it returned. -/
  ended : Option ℕ
  stage : Stage
  deriving DecidableEq

/-- What an edit did to the record: at its save, or at its return without one. -/
structure Effect where
  edit : ℕ
  op : Operation
  deriving DecidableEq

structure World where
  stored : DependantIdentity
  /-- The record as it was stored at first and after each effect. -/
  history : List DependantIdentity
  edits : List Edit
  effects : List Effect

def World.start (dep : DependantIdentity) : World where
  stored := dep
  history := [dep]
  edits := []
  effects := []

section

variable (derive : JsString → JsString × JsString)

def World.move (w : World) (i : ℕ) (e : Edit) : World := { w with edits := w.edits.set i e }

/-- The effect of edit `i`, after which `stored` is in storage. -/
def World.takes (w : World) (i : ℕ) (e : Edit) (stored : DependantIdentity) : World :=
  { w.move i e with
    stored, history := w.history ++ [stored], effects := w.effects ++ [⟨i, e.op⟩] }

/-- Edit `i` has its record. -/
def World.compute (w : World) (i : ℕ) (e : Edit) (base : DependantIdentity) : World :=
  match e.op.run derive base with
  | .saves updated => w.move i { e with stage := .saving base updated }
  | .returns =>
    w.takes i { e with stage := .returned, ended := some (w.effects.length + 1) } w.stored
  | .throws => w.move i { e with stage := .threw }

def World.push (w : World) (op : Operation) : World :=
  { w with edits := w.edits ++ [{ op, began := w.effects.length, ended := none, stage := .reading }] }

/-- The call of an operation whose closure captured the record as it was after `n` effects. -/
def World.begin (w : World) (op : Operation) (n : ℕ) : World :=
  if op.readsFresh then w.push op
  else match w.history[n]? with
    | some base =>
      (w.push op).compute derive w.edits.length
        { op, began := w.effects.length, ended := none, stage := .reading } base
    | none => w

/-- The persona mutations called before edit `i` have settled. -/
def World.hasTurn (w : World) (i : ℕ) : Bool :=
  (w.edits.take i).all fun e =>
    !e.op.isPersonaMutation || e.stage = .returned || e.stage = .threw

inductive Happening where
  | begins (op : Operation) (n : ℕ)
  | reads (i : ℕ)
  | saves (i : ℕ)
  /-- A save, or the reload after it, throws. -/
  | fails (i : ℕ)
  | returns (i : ℕ)
  deriving DecidableEq

/-- Edit `i`, when there is one. -/
def World.atEdit (w : World) (i : ℕ) (f : Edit → World) : World :=
  match w.edits[i]? with
  | some e => f e
  | none => w

def World.next (w : World) : Happening → World
  | .begins op n => w.begin derive op n
  | .reads i =>
    w.atEdit i fun e =>
      if e.stage = .reading ∧ (e.op.isPersonaMutation = true → w.hasTurn i = true) then
        w.compute derive i e w.stored
      else w
  | .saves i =>
    w.atEdit i fun e => match e.stage with
      | .saving _ updated => w.takes i { e with stage := .saved } updated
      | _ => w
  | .fails i =>
    w.atEdit i fun e => match e.stage with
      | .saving _ _ | .saved => w.move i { e with stage := .threw }
      | _ => w
  | .returns i =>
    w.atEdit i fun e =>
      if e.stage = .saved then w.move i { e with stage := .returned, ended := some w.effects.length }
      else w

/-! ## No edit is lost -/

/-- The operations in the order of their effects. -/
def World.ops (w : World) : List Operation := w.effects.map (·.op)

structure NothingLost (dep : DependantIdentity) (w : World) : Prop where
  /-- The stored record has every effect, one after the other. -/
  serial : w.stored = w.ops.foldl (Operation.effect derive) dep
  /-- Every edit that returned is among them, once. -/
  complete : ∀ (i : ℕ) (e : Edit), w.edits[i]? = some e → e.stage = .returned →
    ⟨i, e.op⟩ ∈ w.effects
  once : (w.effects.map (·.edit)).Nodup
  /-- An edit that returned before another was called comes before it. -/
  consistent : ∀ (m n : ℕ) (x y : Effect) (e e' : Edit), w.effects[m]? = some x →
    w.effects[n]? = some y → w.edits[x.edit]? = some e → w.edits[y.edit]? = some e' →
    ∀ t, e.ended = some t → t ≤ e'.began → m < n
  /-- An endpoint that was cleared, or its client, is stored again by a new pairing only. -/
  cleared : ∀ (n m : ℕ) (r r' : DependantIdentity) (endpoint endpoint' : DependantBunkerEndpoint),
    w.ops[n]? = some .clearDependantBunkerEndpoint → w.history[n]? = some r →
    r.bunkerEndpoint = some endpoint → n < m → w.history[m]? = some r' →
    r'.bunkerEndpoint = some endpoint' →
    (endpoint'.publicKey = endpoint.publicKey → ∃ j privateKey createdAt, n < j ∧ j < m ∧
      w.ops[j]? = some (.ensureDependantBunkerEndpoint endpoint.publicKey privateKey createdAt)) ∧
    ∀ c, endpoint'.pairing.authorizedClientPubkey = some c → ∃ j client, n < j ∧ j < m ∧
      w.ops[j]? = some (.bindDependantBunkerClient client) ∧ toLowerCase client = c
  /-- A secret that a bind consumed is stored again only by being minted again. -/
  consumed : ∀ (n m : ℕ) (r r' : DependantIdentity) (secret client : JsString),
    w.ops[n]? = some (.bindDependantBunkerClient client) → w.history[n + 1]? = some r →
    r.pairingSecret ≠ some secret → n < m → w.history[m]? = some r' →
    r'.pairingSecret = some secret →
    ∃ j, n < j ∧ j < m ∧ w.ops[j]? = some (.saveDependantPairingSecret secret)
  /-- A removed persona stays away. -/
  removed : ∀ (n m : ℕ) (r r' : DependantIdentity) (personaPubkey : JsString)
    (now : BoundedNat maxSafeInteger) (p : ExtraPersona),
    w.ops[n]? = some (.removeDependantExtraPersona personaPubkey now) → w.history[n]? = some r →
    (r.extraPersonas.find? fun p => p.slot.publicKey = personaPubkey) = some p → n < m →
    w.history[m]? = some r' → ¬ r'.hasPersona personaPubkey p.derivationName

/-! ## Care -/

def Stage.base : Stage → Option DependantIdentity
  | .saving base _ => some base
  | _ => none

/-- What is saved was made from the record in storage, and an operation that returns without saving
found nothing to do in the record in storage. -/
def Careful (w : World) : Happening → Prop
  | .begins op n => op.readsFresh = false → ∀ base ∈ w.history[n]?, op.run derive base = .returns →
      base = w.stored
  | .saves i => ∀ e ∈ w.edits[i]?, ∀ base ∈ e.stage.base, base = w.stored
  | _ => True

instance (w : World) (a : Happening) : Decidable (Careful derive w a) :=
  match a with
  | .begins op n =>
    inferInstanceAs (Decidable (op.readsFresh = false → ∀ base ∈ w.history[n]?,
      op.run derive base = .returns → base = w.stored))
  | .saves i => inferInstanceAs (Decidable (∀ e ∈ w.edits[i]?, ∀ base ∈ e.stage.base, base = w.stored))
  | .reads _ | .fails _ | .returns _ => isTrue trivial

end

/-!
## The order of the edits

Where every save is made from the record it replaces, the stored record has gone through the edits
one after the other.
-/

/-! ## The invariant -/

section

variable (derive : JsString → JsString × JsString)

/-- Its effect is still to come, if it has one. -/
def Stage.pending : Stage → Bool
  | .reading | .saving _ _ => true
  | _ => false

def Stage.effective : Stage → Bool
  | .saved | .returned => true
  | _ => false

/-- The record after the first `n` effects. -/
def World.recordAfter (dep : DependantIdentity) (w : World) (n : ℕ) : DependantIdentity :=
  afterFirst (Operation.effect derive) dep w.ops n

structure Sound (dep : DependantIdentity) (w : World) : Prop where
  history : ∀ n r, w.history[n]? = some r → n ≤ w.effects.length ∧ r = w.recordAfter derive dep n
  length : w.history.length = w.effects.length + 1
  stored : w.stored = w.recordAfter derive dep w.effects.length
  computed : ∀ e ∈ w.edits, ∀ base updated, e.stage = .saving base updated →
    e.op.run derive base = .saves updated
  running : ∀ e ∈ w.edits, e.stage.pending = true → e.ended = none
  known : ∀ x ∈ w.effects, ∃ e, w.edits[x.edit]? = some e ∧ e.stage.pending = false ∧ e.op = x.op
  complete : ∀ (i : ℕ) (e : Edit), w.edits[i]? = some e → e.stage.effective = true →
    ⟨i, e.op⟩ ∈ w.effects
  once : (w.effects.map (·.edit)).Nodup
  began : ∀ e ∈ w.edits, e.began ≤ w.effects.length
  beganBefore : ∀ (n : ℕ) (x : Effect) (e : Edit), w.effects[n]? = some x →
    w.edits[x.edit]? = some e → e.began ≤ n
  endedAfter : ∀ (n : ℕ) (x : Effect) (e : Edit) (t : ℕ), w.effects[n]? = some x →
    w.edits[x.edit]? = some e → e.ended = some t → n < t

variable {derive} {dep : DependantIdentity} {w : World} {i : ℕ} {e e' : Edit}

theorem sound_start (dep : DependantIdentity) : Sound derive dep (.start dep) where
  history := by
    intro n r hr
    cases n with
    | zero => exact ⟨Nat.le_refl 0, (Option.some.inj hr).symm⟩
    | succ n => cases hr
  length := rfl
  stored := rfl
  computed := List.forall_mem_nil _
  running := List.forall_mem_nil _
  known := List.forall_mem_nil _
  complete := fun i e he => by cases he
  once := List.nodup_nil
  began := List.forall_mem_nil _
  beganBefore := fun n x e hx => by cases hx
  endedAfter := fun n x e t hx => by cases hx

/-! ## An edit that moves on -/

theorem getElem?_move {j : ℕ} {d : Edit} (hi : w.edits[i]? = some e)
    (hj : (w.move i e').edits[j]? = some d) : j = i ∧ d = e' ∨ j ≠ i ∧ w.edits[j]? = some d := by
  obtain ⟨hlt, -⟩ := List.getElem?_eq_some_iff.1 hi
  by_cases hji : j = i
  · subst hji
    have hset : (w.edits.set j e')[j]? = some d := hj
    rw [List.getElem?_set_self hlt] at hset
    exact .inl ⟨rfl, (Option.some.inj hset).symm⟩
  · have hset : (w.edits.set i e')[j]? = some d := hj
    rw [List.getElem?_set_ne (Ne.symm hji)] at hset
    exact .inr ⟨hji, hset⟩

theorem mem_move {d : Edit} (hd : d ∈ (w.move i e').edits) : d ∈ w.edits ∨ d = e' :=
  List.mem_or_eq_of_mem_set hd

theorem getElem?_move_self (hi : w.edits[i]? = some e) : (w.move i e').edits[i]? = some e' :=
  List.getElem?_set_self (List.getElem?_eq_some_iff.1 hi).1

theorem getElem?_move_ne {j : ℕ} (hji : j ≠ i) : (w.move i e').edits[j]? = w.edits[j]? :=
  List.getElem?_set_ne (Ne.symm hji)

theorem Sound.move (h : Sound derive dep w) (hi : w.edits[i]? = some e) (hop : e'.op = e.op)
    (hbegan : e'.began = e.began) (hpending : e.stage.pending = false → e'.stage.pending = false)
    (hcomputed : ∀ base updated, e'.stage = .saving base updated →
      e.op.run derive base = .saves updated) (hrunning : e'.stage.pending = true → e'.ended = none)
    (heffective : e'.stage.effective = true → e.stage.effective = true)
    (hended : ∀ t, e'.ended = some t → e.ended = some t ∨ w.effects.length ≤ t) :
    Sound derive dep (w.move i e') := by
  have hmem : e ∈ w.edits := List.mem_of_getElem? hi
  refine { history := h.history, length := h.length, stored := h.stored, computed := ?_,
           running := ?_, known := ?_, complete := ?_, once := h.once, began := ?_, beganBefore := ?_,
           endedAfter := ?_ }
  · intro d hd base updated hs
    obtain hd | rfl := mem_move hd
    · exact h.computed d hd base updated hs
    · rw [hop]
      exact hcomputed base updated hs
  · intro d hd hp
    obtain hd | rfl := mem_move hd
    · exact h.running d hd hp
    · exact hrunning hp
  · intro x hx
    obtain ⟨d, hd, hp, ho⟩ := h.known x hx
    by_cases hxi : x.edit = i
    · rw [hxi] at hd
      obtain rfl := Option.some.inj (hi.symm.trans hd)
      exact ⟨e', by rw [hxi]; exact getElem?_move_self hi, hpending hp, hop.trans ho⟩
    · exact ⟨d, (getElem?_move_ne hxi).trans hd, hp, ho⟩
  · intro j d hd hs
    obtain ⟨rfl, rfl⟩ | ⟨-, hd⟩ := getElem?_move hi hd
    · rw [hop]
      exact h.complete j e hi (heffective hs)
    · exact h.complete j d hd hs
  · intro d hd
    obtain hd | rfl := mem_move hd
    · exact h.began d hd
    · rw [hbegan]
      exact h.began e hmem
  · intro n x d hx hd
    obtain ⟨hxi, rfl⟩ | ⟨-, hd⟩ := getElem?_move hi hd
    · rw [hbegan]
      exact h.beganBefore n x e hx (by rw [hxi]; exact hi)
    · exact h.beganBefore n x d hx hd
  · intro n x d t hx hd ht
    obtain ⟨hxi, rfl⟩ | ⟨-, hd⟩ := getElem?_move hi hd
    · obtain ht | hle := hended t ht
      · exact h.endedAfter n x e t hx (by rw [hxi]; exact hi) ht
      · exact Nat.lt_of_lt_of_le (List.getElem?_eq_some_iff.1 hx).1 hle
    · exact h.endedAfter n x d t hx hd ht

/-- The effect of a pending edit, on the record in storage. -/
theorem Sound.takes (h : Sound derive dep w) (hi : w.edits[i]? = some e)
    (hpending : e.stage.pending = true) (hop : e'.op = e.op) (hbegan : e'.began = e.began)
    (hdone : e'.stage.pending = false) {stored : DependantIdentity}
    (hstored : stored = Operation.effect derive w.stored e.op)
    (hended : ∀ t, e'.ended = some t → w.effects.length < t) :
    Sound derive dep (w.takes i e' stored) := by
  have hmem : e ∈ w.edits := List.mem_of_getElem? hi
  have hops : (w.takes i e' stored).ops = w.ops ++ [e.op] := by
    unfold World.ops World.takes
    rw [List.map_append, hop]
    rfl
  have hlength : w.ops.length = w.effects.length := List.length_map ..
  have hlast : (w.takes i e' stored).recordAfter derive dep (w.effects.length + 1) = stored := by
    have hget : (w.ops ++ [e.op])[w.effects.length]? = some e.op := by
      rw [← hlength]
      exact List.getElem?_concat_length
    unfold World.recordAfter
    rw [hops, afterFirst.succ hget, afterFirst.append e.op (Nat.le_of_eq hlength.symm), hstored, h.stored]
    rfl
  have hearlier : ∀ n ≤ w.effects.length,
      (w.takes i e' stored).recordAfter derive dep n = w.recordAfter derive dep n := by
    intro n hn
    unfold World.recordAfter
    rw [hops, afterFirst.append e.op (hlength.symm ▸ hn)]
  have heffects : (w.takes i e' stored).effects = w.effects ++ [⟨i, e.op⟩] := by
    unfold World.takes
    rw [hop]
  have hnew : ∀ (n : ℕ) (x : Effect), (w.takes i e' stored).effects[n]? = some x →
      w.effects[n]? = some x ∨ n = w.effects.length ∧ x = ⟨i, e.op⟩ := by
    intro n x hx
    rw [heffects] at hx
    by_cases hn : n < w.effects.length
    · rw [List.getElem?_append_left hn] at hx
      exact .inl hx
    · rw [List.getElem?_append_right (Nat.le_of_not_lt hn)] at hx
      have hlt := (List.getElem?_eq_some_iff.1 hx).1
      have hn' : n = w.effects.length := by
        simp only [List.length_singleton] at hlt
        omega
      subst hn'
      rw [Nat.sub_self] at hx
      exact .inr ⟨rfl, (Option.some.inj hx).symm⟩
  have hnotmem : i ∉ w.effects.map (·.edit) := by
    intro hm
    obtain ⟨x, hx, hxi⟩ := List.mem_map.1 hm
    obtain ⟨d, hd, hp, -⟩ := h.known x hx
    rw [hxi] at hd
    obtain rfl := Option.some.inj (hi.symm.trans hd)
    rw [hpending] at hp
    cases hp
  refine { history := ?_, length := ?_, stored := ?_, computed := ?_, running := ?_,
           known := ?_, complete := ?_, once := ?_, began := ?_, beganBefore := ?_, endedAfter := ?_ }
  · intro n r hr
    have hr' : (w.history ++ [stored])[n]? = some r := hr
    by_cases hn : n < w.history.length
    · rw [List.getElem?_append_left hn] at hr'
      obtain ⟨hle, hrec⟩ := h.history n r hr'
      rw [hearlier n hle, heffects]
      refine ⟨?_, hrec⟩
      rw [List.length_append]
      omega
    · rw [List.getElem?_append_right (Nat.le_of_not_lt hn)] at hr'
      have hlt := (List.getElem?_eq_some_iff.1 hr').1
      have hn' : n = w.history.length := by
        simp only [List.length_singleton] at hlt
        omega
      rw [hn', Nat.sub_self] at hr'
      obtain rfl := Option.some.inj hr'
      rw [hn', h.length, hlast, heffects, List.length_append]
      exact ⟨Nat.le_refl _, rfl⟩
  · show (w.history ++ [stored]).length = (w.takes i e' stored).effects.length + 1
    rw [heffects, List.length_append, List.length_append, h.length]
    rfl
  · show stored = _
    rw [heffects, List.length_append]
    exact hlast.symm
  · intro d hd base updated hs
    obtain hd | rfl := mem_move hd
    · exact h.computed d hd base updated hs
    · rw [hs] at hdone
      cases hdone
  · intro d hd hp
    obtain hd | rfl := mem_move hd
    · exact h.running d hd hp
    · rw [hdone] at hp
      cases hp
  · intro x hx
    rw [heffects] at hx
    obtain hx | hx := List.mem_append.1 hx
    · obtain ⟨d, hd, hp, ho⟩ := h.known x hx
      have hxi : x.edit ≠ i := by
        intro hxi
        exact hnotmem (hxi ▸ List.mem_map_of_mem hx)
      exact ⟨d, (getElem?_move_ne hxi).trans hd, hp, ho⟩
    · obtain rfl := List.mem_singleton.1 hx
      exact ⟨e', getElem?_move_self hi, hdone, hop⟩
  · intro j d hd hs
    rw [heffects]
    obtain ⟨rfl, rfl⟩ | ⟨-, hd⟩ := getElem?_move hi hd
    · rw [hop]
      exact List.mem_append_right _ (List.mem_singleton_self _)
    · exact List.mem_append_left _ (h.complete j d hd hs)
  · rw [heffects, List.map_append]
    refine List.nodup_append.2 ⟨h.once, List.pairwise_singleton _ _, ?_⟩
    intro a ha b hb hab
    rw [List.map_singleton, List.mem_singleton] at hb
    have hai : a = i := hab.trans hb
    exact hnotmem (hai ▸ ha)
  · intro d hd
    rw [heffects, List.length_append]
    obtain hd | rfl := mem_move hd
    · exact Nat.le_add_right_of_le (h.began d hd)
    · rw [hbegan]
      exact Nat.le_add_right_of_le (h.began e hmem)
  · intro n x d hx hd
    obtain hx' | ⟨rfl, rfl⟩ := hnew n x hx
    · obtain ⟨hxi, rfl⟩ | ⟨-, hd⟩ := getElem?_move hi hd
      · exact absurd (hxi ▸ List.mem_map_of_mem (List.mem_of_getElem? hx')) hnotmem
      · exact h.beganBefore n x d hx' hd
    · obtain rfl := Option.some.inj ((getElem?_move_self hi).symm.trans hd)
      rw [hbegan]
      exact h.began e hmem
  · intro n x d t hx hd ht
    obtain hx' | ⟨rfl, rfl⟩ := hnew n x hx
    · obtain ⟨hxi, rfl⟩ | ⟨-, hd⟩ := getElem?_move hi hd
      · exact absurd (hxi ▸ List.mem_map_of_mem (List.mem_of_getElem? hx')) hnotmem
      · exact h.endedAfter n x d t hx' hd ht
    · obtain rfl := Option.some.inj ((getElem?_move_self hi).symm.trans hd)
      exact hended t ht

/-! ## Every step -/

theorem Sound.push (h : Sound derive dep w) (op : Operation) : Sound derive dep (w.push op) := by
  have hget : ∀ {j : ℕ} {d : Edit}, (w.push op).edits[j]? = some d →
      w.edits[j]? = some d ∨ j = w.edits.length ∧
        d = { op, began := w.effects.length, ended := none, stage := .reading } := by
    intro j d hd
    have hd' : (w.edits ++ [{ op, began := w.effects.length, ended := none, stage := Stage.reading }])[j]?
        = some d := hd
    rw [List.getElem?_append] at hd'
    split at hd'
    · exact .inl hd'
    · next hj =>
      have hlt := (List.getElem?_eq_some_iff.1 hd').1
      have hj' : j = w.edits.length := by
        simp only [List.length_singleton] at hlt
        omega
      subst hj'
      rw [Nat.sub_self] at hd'
      exact .inr ⟨rfl, (Option.some.inj hd').symm⟩
  have hold : ∀ {x : Effect}, x ∈ w.effects → ∀ {d : Edit},
      (w.push op).edits[x.edit]? = some d → w.edits[x.edit]? = some d := by
    intro x hx d hd
    obtain hd | ⟨hj, -⟩ := hget hd
    · exact hd
    · obtain ⟨e, he, -⟩ := h.known x hx
      exact absurd (List.getElem?_eq_some_iff.1 he).1 (by omega)
  refine { history := h.history, length := h.length, stored := h.stored, computed := ?_,
           running := ?_, known := ?_, complete := ?_, once := h.once, began := ?_, beganBefore := ?_,
           endedAfter := ?_ }
  · intro d hd base updated hs
    obtain hd | hd := List.mem_append.1 hd
    · exact h.computed d hd base updated hs
    · obtain rfl := List.mem_singleton.1 hd
      cases hs
  · intro d hd hp
    obtain hd | hd := List.mem_append.1 hd
    · exact h.running d hd hp
    · obtain rfl := List.mem_singleton.1 hd
      rfl
  · intro x hx
    obtain ⟨d, hd, hpd⟩ := h.known x hx
    have hlt := (List.getElem?_eq_some_iff.1 hd).1
    exact ⟨d, (List.getElem?_append_left hlt).trans hd, hpd⟩
  · intro j d hd hs
    obtain hd | ⟨-, rfl⟩ := hget hd
    · exact h.complete j d hd hs
    · cases hs
  · intro d hd
    obtain hd | hd := List.mem_append.1 hd
    · exact h.began d hd
    · obtain rfl := List.mem_singleton.1 hd
      exact Nat.le_refl _
  · intro n x d hx hd
    exact h.beganBefore n x d hx (hold (List.mem_of_getElem? hx) hd)
  · intro n x d t hx hd ht
    exact h.endedAfter n x d t hx (hold (List.mem_of_getElem? hx) hd) ht

/-- An edit that has its record; one that returns has looked at the record in storage. -/
theorem Sound.compute (h : Sound derive dep w) (hi : w.edits[i]? = some e)
    (hreading : e.stage = .reading) {base : DependantIdentity}
    (hbase : e.op.run derive base = .returns → base = w.stored) :
    Sound derive dep (w.compute derive i e base) := by
  have hpending : e.stage.pending = true := by
    rw [hreading]
    rfl
  have hnot : ¬ e.stage.pending = false := by
    rw [hpending]
    exact Bool.true_eq_false_eq_False
  unfold World.compute
  split
  · next updated hrun =>
    apply h.move hi
    · rfl
    · rfl
    · exact fun hp => absurd hp hnot
    · intro b u hs
      obtain ⟨rfl, rfl⟩ := Stage.saving.inj hs
      exact hrun
    · exact fun _ => h.running e (List.mem_of_getElem? hi) hpending
    · intro hs
      cases hs
    · intro t ht
      exact .inl ht
  · next hrun =>
    apply h.takes hi hpending
    · rfl
    · rfl
    · rfl
    · unfold Operation.effect
      rw [← hbase hrun, hrun]
    · intro t ht
      obtain rfl := Option.some.inj ht
      exact Nat.lt_succ_self _
  · apply h.move hi
    · rfl
    · rfl
    · exact fun hp => absurd hp hnot
    · intro b u hs
      cases hs
    · intro hp
      cases hp
    · intro hs
      cases hs
    · intro t ht
      exact .inl ht

theorem Sound.atEdit (h : Sound derive dep w) {f : Edit → World}
    (hf : ∀ e, w.edits[i]? = some e → Sound derive dep (f e)) : Sound derive dep (w.atEdit i f) := by
  unfold World.atEdit
  split
  · next e he => exact hf e he
  · exact h

theorem Sound.begin (h : Sound derive dep w) {op : Operation} {n : ℕ}
    (ha : Careful derive w (.begins op n)) : Sound derive dep (w.begin derive op n) := by
  have hpush := h.push op
  unfold World.begin
  split
  · exact hpush
  · next hfresh =>
    split
    · next base hbase =>
      apply hpush.compute
      · exact List.getElem?_concat_length
      · rfl
      · intro hrun
        exact ha (Bool.not_eq_true _ ▸ hfresh) base hbase hrun
    · exact h

theorem Sound.saves (h : Sound derive dep w) (ha : Careful derive w (.saves i)) :
    Sound derive dep (w.next derive (.saves i)) := by
  apply h.atEdit
  intro e he
  split
  · next base updated hs =>
    have hpending : e.stage.pending = true := by
      rw [hs]
      rfl
    apply h.takes he hpending
    · rfl
    · rfl
    · rfl
    · have hrun := h.computed e (List.mem_of_getElem? he) base updated hs
      have hbase : base = w.stored := by
        apply ha e he
        rw [hs]
        rfl
      unfold Operation.effect
      rw [← hbase, hrun]
    · intro t ht
      rw [h.running e (List.mem_of_getElem? he) hpending] at ht
      cases ht
  · exact h

theorem Sound.next (h : Sound derive dep w) (a : Happening) (ha : Careful derive w a) :
    Sound derive dep (w.next derive a) := by
  cases a with
  | begins op n => exact h.begin ha
  | reads i =>
    apply h.atEdit
    intro e he
    split
    · next hcond => exact h.compute he hcond.1 fun _ => rfl
    · exact h
  | saves i => exact h.saves ha
  | fails i =>
    apply h.atEdit
    intro e he
    have hthrew : Sound derive dep (w.move i { e with stage := .threw }) := by
      apply h.move he
      · rfl
      · rfl
      · exact fun _ => rfl
      · intro b u hs
        cases hs
      · intro hp
        cases hp
      · intro hs
        cases hs
      · intro t ht
        exact .inl ht
    split
    · exact hthrew
    · exact hthrew
    · exact h
  | returns i =>
    apply h.atEdit
    intro e he
    split
    · next hsaved =>
      apply h.move he
      · rfl
      · rfl
      · exact fun _ => rfl
      · intro b u hs
        cases hs
      · intro hp
        cases hp
      · intro _
        rw [hsaved]
        rfl
      · intro t ht
        obtain rfl := Option.some.inj ht
        exact .inr (Nat.le_refl _)
    · exact h

end

end SignetApp.Family.Edits
