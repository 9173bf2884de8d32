import SignetApp.ChildLink.LinkInvariants

/-!
# What is cached once all is written

The writes of the cache, and its deletion, are begun and not waited for. Where they land in the order in which
they were begun, and the cached rules are read before any others are taken, the cache comes to hold the newest
rules that were accepted, and those in memory.
-/

namespace SignetApp.ChildLink

open SignetApp.Js
open SignetApp.Contacts (Hex64)
open SignetApp.Pairing (NostrEvent Signatures)

/-! ## Writes under way -/

/-- What the cached rules of a dependant become. -/
def LinkTask.writes (dep : Hex64) : LinkTask → Option (Option ChildRulesPayload)
  | .saving d payload => if d = dep then some (some payload) else none
  | .clearing d => if d = dep then some none else none
  | _ => none

def LinkTask.reads (gen : ℕ) : LinkTask → Bool
  | .loading g _ => decide (g = gen)
  | .loaded g _ _ => decide (g = gen)
  | _ => false

def writes (tasks : List LinkTask) (dep : Hex64) : List (Option ChildRulesPayload) :=
  tasks.filterMap (LinkTask.writes dep)

theorem writes_append (l₁ l₂ : List LinkTask) (dep : Hex64) :
    writes (l₁ ++ l₂) dep = writes l₁ dep ++ writes l₂ dep := List.filterMap_append

theorem split_at {tasks : List LinkTask} {k : ℕ} {t : LinkTask} (ht : tasks[k]? = some t) :
    tasks = tasks.take k ++ t :: tasks.drop (k + 1) := by
  obtain ⟨hk, rfl⟩ := List.getElem?_eq_some_iff.1 ht
  rw [List.getElem_cons_drop, List.take_append_drop]

theorem writes_eraseIdx {tasks : List LinkTask} {k : ℕ} {t : LinkTask} {dep : Hex64} (ht : tasks[k]? = some t)
    (hnone : t.writes dep = none) : writes (tasks.eraseIdx k) dep = writes tasks dep := by
  conv_rhs => rw [split_at ht]
  rw [List.eraseIdx_eq_take_drop_succ, writes_append, writes_append]
  simp [writes, hnone]

namespace DeviceLink

variable (w : DeviceLink)

/-- What is cached once all that was begun is written. -/
def settled (dep : Hex64) : Option ChildRulesPayload := ((writes w.tasks dep).getLast?).getD (w.cache dep)

/-- Are the cached rules still to be read? -/
def reading : Bool := w.tasks.any (LinkTask.reads w.rules.gen)

/-- Whom the effects have run for. -/
def committedDep : Option Hex64 := w.committed.bind fun o => o.record.map PairedChildRecord.dependantPubkey

def renderedDep : Option Hex64 := w.options.record.map PairedChildRecord.dependantPubkey

/-- Writes succeed, in the order in which they were begun; the cached rules are read when none is under way,
and before others are taken. -/
def SettlesInOrder (k : ℕ) (result : CallResult) : Prop :=
  match w.tasks[k]? with
  | some (.loading _ dep) => result = .ok ∧ writes w.tasks dep = []
  | some (.opening _ _) => w.reading = false
  | some (.saving dep _) => result = .ok ∧ writes (w.tasks.take k) dep = []
  | some (.clearing dep) => result = .ok ∧ writes (w.tasks.take k) dep = []
  | _ => True

/-- The device is found to be gone when the cached rules are read, and not between a rendering for another
dependant and its effects. -/
def FoundInOrder (w' : DeviceLink) : Prop :=
  w.pairing.unpaired = false → w'.pairing.unpaired = true → w.reading = false ∧ w.renderedDep = w.committedDep

instance (k : ℕ) (result : CallResult) : Decidable (w.SettlesInOrder k result) := by
  unfold SettlesInOrder
  split <;> infer_instance

instance (w' : DeviceLink) : Decidable (w.FoundInOrder w') := by
  unfold FoundInOrder
  infer_instance

/-- What the cache, the memory and what is under way agree on. -/
structure Ordered : Prop where
  settled : ∀ dep, NewestOf (w.accepted dep) (w.settled dep)
  linked : ∀ l, w.rules.linked = some l → w.committedDep = some l.dep
  gens : ∀ t ∈ w.tasks, ∀ gen, t.reads gen = true → gen ≤ w.rules.gen
  loading : ∀ dep, .loading w.rules.gen dep ∈ w.tasks → w.rules.linked.map Linked.dep = some dep
  loaded : ∀ dep payload, .loaded w.rules.gen dep payload ∈ w.tasks →
    w.rules.linked.map Linked.dep = some dep ∧ payload = w.settled dep
  memory : ∀ l, w.rules.linked = some l → w.rules.rules = none ∨ w.rules.rules = w.settled l.dep
  read : ∀ l, w.rules.linked = some l → (∀ t ∈ w.tasks, t.reads w.rules.gen = false) →
    w.rules.rules = w.settled l.dep
  gone : w.pairing.unpaired = true → ∀ dep, w.committedDep = some dep → w.settled dep = none

theorem reading_eq_false : w.reading = false ↔ ∀ t ∈ w.tasks, t.reads w.rules.gen = false := by
  simp [reading]

/-! ## What each step keeps -/

variable {w} {w' : DeviceLink}

/-- The rest of the state does not matter. -/
theorem Ordered.frame (h : Ordered w) (hsettled : ∀ dep, w'.settled dep = w.settled dep)
    (hreads : ∀ t gen, t.reads gen = true → (t ∈ w'.tasks ↔ t ∈ w.tasks)) (haccepted : w'.accepted = w.accepted)
    (hrules : w'.rules = w.rules) (hcommitted : w'.committed = w.committed)
    (hgone : w'.pairing.unpaired = true → w.pairing.unpaired = true) : Ordered w' := by
  have hdep : w'.committedDep = w.committedDep := by rw [committedDep, committedDep, hcommitted]
  constructor
  · intro dep
    rw [hsettled, haccepted]
    exact h.settled dep
  · rw [hdep, hrules]
    exact h.linked
  · intro t ht gen hgen
    rw [hrules]
    exact h.gens t ((hreads t gen hgen).1 ht) gen hgen
  · rw [hrules]
    intro dep hmem
    exact h.loading dep ((hreads _ w.rules.gen (by simp [LinkTask.reads])).1 hmem)
  · rw [hrules]
    intro dep payload hmem
    rw [hsettled]
    exact h.loaded dep payload ((hreads _ w.rules.gen (by simp [LinkTask.reads])).1 hmem)
  · rw [hrules]
    intro l hl
    rw [hsettled]
    exact h.memory l hl
  · rw [hrules]
    intro l hl hread
    rw [hsettled]
    refine h.read l hl fun t ht => ?_
    cases hr : t.reads w.rules.gen with
    | false => rfl
    | true =>
      rw [← hr]
      exact hread t ((hreads t _ hr).2 ht)
  · intro hu dep hcommit
    rw [hsettled]
    rw [hdep] at hcommit
    exact h.gone (hgone hu) dep hcommit

variable {dep : Hex64}

theorem settled_congr (hcache : w'.cache = w.cache)
    (hwrites : writes w'.tasks dep = writes w.tasks dep) :
    w'.settled dep = w.settled dep := by
  unfold settled
  rw [hcache, hwrites]

variable {gen k : ℕ} {t : LinkTask}

theorem mem_eraseIdx_of_reads {tasks : List LinkTask} {u : LinkTask} (ht : tasks[k]? = some t) (hnot : t.reads gen = false) (hu : u.reads gen = true) : u ∈ tasks.eraseIdx k ↔ u ∈ tasks := by
  have hne : u ≠ t := fun he => by
    rw [he, hnot] at hu
    cases hu
  conv_rhs => rw [split_at ht]
  rw [List.eraseIdx_eq_take_drop_succ]
  simp [hne]

theorem Ordered.drop (h : Ordered w) (ht : w.tasks[k]? = some t)
    (hreads : ∀ gen, t.reads gen = false) (hwrites : ∀ dep, t.writes dep = none) :
    Ordered { w with tasks := w.tasks.eraseIdx k } :=
  h.frame (fun dep => settled_congr (by rfl) (writes_eraseIdx ht (hwrites dep)))
    (fun _ gen hu => mem_eraseIdx_of_reads ht (hreads gen) hu) rfl rfl rfl id

theorem Ordered.begins (h : Ordered w) (hreads : ∀ gen, t.reads gen = false)
    (hwrites : ∀ dep, t.writes dep = none) : Ordered (w.begins t) := by
  refine h.frame (fun dep => settled_congr (by rfl) ?_) (fun u gen hu => ?_) rfl rfl rfl id
  · show writes (w.tasks ++ [t]) dep = _
    rw [writes_append]
    simp [writes, hwrites dep]
  · show u ∈ w.tasks ++ [t] ↔ u ∈ w.tasks
    have hne : u ≠ t := fun he => by
      rw [he, hreads gen] at hu
      cases hu
    simp [hne]

variable {value : Option ChildRulesPayload}

theorem settled_write
    (ht : w.tasks[k]? = some t) (hwrite : ∀ d, t.writes d = if dep = d then some value else none)
    (hfirst : writes (w.tasks.take k) dep = []) (d : Hex64) :
    settled { w with tasks := w.tasks.eraseIdx k, cache := Function.update w.cache dep value } d = w.settled d := by
  by_cases hd : dep = d
  · subst hd
    have hwas : writes w.tasks dep =
        value :: writes (w.tasks.drop (k + 1)) dep := by
      conv_lhs => rw [split_at ht]
      rw [writes_append, hfirst]
      simp [writes, hwrite]
    have hnow : writes (w.tasks.eraseIdx k) dep =
        writes (w.tasks.drop (k + 1)) dep := by
      rw [List.eraseIdx_eq_take_drop_succ, writes_append, hfirst]
      rfl
    unfold settled
    dsimp only
    rw [hwas, hnow, Function.update_self, List.getLast?_cons]
    rfl
  · have hnone : t.writes d = none := by rw [hwrite, if_neg hd]
    unfold settled
    dsimp only
    rw [writes_eraseIdx ht hnone, Function.update_of_ne (Ne.symm hd)]

theorem Ordered.write (h : Ordered w)
    (ht : w.tasks[k]? = some t) (hwrite : ∀ d, t.writes d = if dep = d then some value else none)
    (hreads : ∀ gen, t.reads gen = false) (hfirst : writes (w.tasks.take k) dep = []) :
    Ordered { w with tasks := w.tasks.eraseIdx k, cache := Function.update w.cache dep value } :=
  h.frame (settled_write ht hwrite hfirst) (fun _ gen hu => mem_eraseIdx_of_reads ht (hreads gen) hu) rfl rfl rfl id

theorem settled_begins
    (hwrite : ∀ d, t.writes d = if dep = d then some value else none) (d : Hex64) :
    (w.begins t).settled d = if dep = d then value else w.settled d := by
  unfold settled begins
  dsimp only
  rw [writes_append]
  by_cases hd : dep = d
  · simp [writes, hwrite, hd]
  · simp [writes, hwrite, hd]

/-! ## Unpairing -/

theorem unpaired_markUnpaired (w : DeviceLink) : w.markUnpaired.pairing.unpaired = true := by
  unfold markUnpaired
  split
  · assumption
  · dsimp only
    split <;> rfl

/-- The device is found to be gone in order. -/
theorem Ordered.markUnpaired (h : Ordered w) (hfound : w.FoundInOrder w.markUnpaired) :
    Ordered w.markUnpaired := by
  have hgone := unpaired_markUnpaired w
  revert hfound hgone
  unfold DeviceLink.markUnpaired
  split
  · exact fun _ _ => h
  · rename_i hpaired
    intro hfound hgone
    obtain ⟨hreading, hrendered⟩ := hfound (Bool.eq_false_iff.2 hpaired) hgone
    rw [reading_eq_false] at hreading
    -- nothing is being read
    have hnone : ∀ {t : LinkTask}, t.reads w.rules.gen = true → t ∉ w.tasks := fun ht hmem => by
      rw [hreading _ hmem] at ht
      cases ht
    dsimp only
    split
    · rename_i record hrecord
      have hdep : w.committedDep = some record.dependantPubkey := by
        rw [← hrendered, renderedDep, hrecord]
        rfl
      have hsettled : ∀ d, DeviceLink.settled
          (({ w with
              pairing := { w.pairing with unpaired := true }
              rules := w.rules.clear
              accepted := Function.update w.accepted record.dependantPubkey [] } : DeviceLink).begins
            (.clearing record.dependantPubkey)) d =
          if record.dependantPubkey = d then none else w.settled d :=
        settled_begins (t := .clearing record.dependantPubkey) fun d => rfl
      have hmem : ∀ {t : LinkTask}, t.reads w.rules.gen = true →
          t ∉ w.tasks ++ [.clearing record.dependantPubkey] := by
        intro t ht hmem
        rcases List.mem_append.1 hmem with hmem | hmem
        · exact hnone ht hmem
        · rw [List.mem_singleton.1 hmem] at ht
          cases ht
      constructor
      · intro d
        rw [hsettled]
        show NewestOf (Function.update w.accepted record.dependantPubkey [] d) _
        by_cases hd : record.dependantPubkey = d
        · rw [if_pos hd, ← hd, Function.update_self]
          rfl
        · rw [if_neg hd, Function.update_of_ne (Ne.symm hd)]
          exact h.settled d
      · exact h.linked
      · intro t ht gen hgen
        rcases List.mem_append.1 ht with ht | ht
        · exact h.gens t ht gen hgen
        · rw [List.mem_singleton.1 ht] at hgen
          cases hgen
      · exact fun dep hload => absurd hload (hmem (decide_eq_true rfl))
      · exact fun dep payload hload => absurd hload (hmem (decide_eq_true rfl))
      · exact fun l _ => .inl rfl
      · intro l hl _
        have hl' := h.linked l hl
        rw [hdep] at hl'
        rw [hsettled, if_pos (Option.some.inj hl')]
        rfl
      · intro _ dep hcommit
        have hcommit' : w.committedDep = some dep := hcommit
        rw [hdep] at hcommit'
        rw [hsettled, if_pos (Option.some.inj hcommit')]
    · rename_i hrecord
      have hdep : w.committedDep = none := by
        rw [← hrendered, renderedDep, hrecord]
        rfl
      have hlinked : w.rules.linked = none := by
        cases hl : w.rules.linked with
        | none => rfl
        | some l =>
          have hl' := h.linked l hl
          rw [hdep] at hl'
          cases hl'
      refine ⟨h.settled, h.linked, h.gens, h.loading, h.loaded, fun l _ => .inl rfl, fun l hl _ => ?_,
        fun _ dep hcommit => ?_⟩
      · have hl' : w.rules.linked = some l := hl
        rw [hlinked] at hl'
        cases hl'
      · have hcommit' : w.committedDep = some dep := hcommit
        rw [hdep] at hcommit'
        cases hcommit'

/-! ## Effects -/

theorem same_of_not_changed {κ : Type} [DecidableEq κ] {key : Options → κ} (h : ¬ w.changed key = true) :
    ∃ o, w.committed = some o ∧ key o = key w.options := by
  have hsame : w.committed.map key = some (key w.options) := by simpa [changed] using h
  exact Option.map_eq_some_iff.1 hsame

theorem rendered_eq_committed {o : Options} (ho : w.committed = some o)
    (hdep : o.record.map PairedChildRecord.dependantPubkey = w.renderedDep) : w.renderedDep = w.committedDep := by
  rw [committedDep, ho, ← hdep]
  rfl

theorem watchEffect_eq (w : DeviceLink) : ∃ p, w.watchEffect = { w with pairing := p } ∧
    (p.unpaired = true → w.pairing.unpaired = true ∧ w.renderedDep = w.committedDep) := by
  unfold watchEffect
  split
  · exact ⟨_, rfl, fun hu => (by cases hu)⟩
  · rename_i hsame
    obtain ⟨o, ho, hkey⟩ := same_of_not_changed hsame
    refine ⟨_, rfl, fun hu => ⟨hu, rendered_eq_committed ho ?_⟩⟩
    have hdep := congrArg (Option.map Prod.fst) hkey
    rwa [watchKey, watchKey, Option.map_map, Option.map_map] at hdep

theorem approvalEffects_eq (w : DeviceLink) : ∃ c, w.approvalEffects = { w with ceremony := c } := by
  unfold approvalEffects
  dsimp only
  split <;> exact ⟨_, rfl⟩

variable {l : Linked} {s : RulesState}

theorem restart_linked {o : Options} (h : (s.restart o).linked = some l) :
    o.record.map PairedChildRecord.dependantPubkey = some l.dep := by
  obtain ⟨r, hr, hl⟩ := Option.bind_eq_some_iff.1 h
  split at hl
  · cases hl
    rw [hr]
    rfl
  · cases hl

theorem Ordered.commit (h : Ordered w) : Ordered w.commit := by
  obtain ⟨p, hwatch, hunpaired⟩ := watchEffect_eq w
  obtain ⟨c, hceremony⟩ := approvalEffects_eq { w with pairing := p }.rulesEffect
  unfold DeviceLink.commit
  rw [hwatch, hceremony]
  -- what is cached of the dependant that was found to be gone
  have hgone : p.unpaired = true → ∀ dep, w.renderedDep = some dep → w.settled dep = none := by
    intro hu dep hdep
    obtain ⟨hwas, hsame⟩ := hunpaired hu
    exact h.gone hwas dep (hsame ▸ hdep)
  -- of the effect that begins nothing is under way
  have hfresh : ∀ t ∈ w.tasks, t.reads (w.rules.gen + 1) = false := by
    intro t ht
    cases hr : t.reads (w.rules.gen + 1) with
    | false => rfl
    | true => exact absurd (h.gens t ht _ hr) (Nat.not_succ_le_self _)
  have hnone : ∀ {t : LinkTask}, t.reads (w.rules.gen + 1) = true → t ∉ w.tasks := fun ht hmem => by
    rw [hfresh _ hmem] at ht
    cases ht
  unfold rulesEffect
  split
  · dsimp only
    split
    · rename_i linked hlinked
      have hrendered : w.renderedDep = some linked.dep := restart_linked hlinked
      have hsettled : ∀ dep, DeviceLink.settled
          ({ w with rules := w.rules.restart w.options, tasks := w.tasks ++
              [.loading (w.rules.restart w.options).gen linked.dep] } : DeviceLink) dep = w.settled dep :=
        fun dep => settled_congr (by rfl) (by
          show writes (w.tasks ++ [.loading _ linked.dep]) dep = writes w.tasks dep
          rw [writes_append]
          simp [writes, LinkTask.writes])
      constructor
      · intro dep
        exact (hsettled dep).symm ▸ h.settled dep
      · intro l hl
        cases hlinked.symm.trans hl
        exact hrendered
      · intro t ht gen hgen
        rcases List.mem_append.1 ht with ht | ht
        · exact Nat.le_succ_of_le (h.gens t ht gen hgen)
        · rw [List.mem_singleton.1 ht] at hgen
          exact (of_decide_eq_true hgen).ge
      · intro dep hmem
        rcases List.mem_append.1 hmem with hmem | hmem
        · exact absurd hmem (hnone (decide_eq_true rfl))
        · cases List.mem_singleton.1 hmem
          exact congrArg (Option.map Linked.dep) hlinked
      · intro dep payload hmem
        rcases List.mem_append.1 hmem with hmem | hmem
        · exact absurd hmem (hnone (decide_eq_true rfl))
        · cases List.mem_singleton.1 hmem
      · exact fun l _ => .inl rfl
      · intro l _ hread
        have hload := hread (.loading _ linked.dep) (List.mem_append_right _ List.mem_cons_self)
        cases (decide_eq_true (show (w.rules.restart w.options).gen = _ from rfl)).symm.trans hload
      · intro hu dep hdep
        exact (hsettled dep).trans (hgone hu dep hdep)
    · rename_i hlinked
      have hno : ∀ {l : Linked}, (w.rules.restart w.options).linked = some l → False := fun hl => by
        rw [show (w.rules.restart w.options).linked = none from hlinked] at hl
        cases hl
      refine ⟨h.settled, fun l hl => (hno hl).elim, fun t ht gen hgen => ?_, fun dep hmem => ?_,
        fun dep payload hmem => ?_, fun l hl => (hno hl).elim, fun l hl => (hno hl).elim, hgone⟩
      · exact Nat.le_succ_of_le (h.gens t ht gen hgen)
      · exact absurd hmem (hnone (decide_eq_true rfl))
      · exact absurd hmem (hnone (decide_eq_true rfl))
  · rename_i hsame
    obtain ⟨o, ho, hkey⟩ := same_of_not_changed hsame
    have hdep : w.renderedDep = w.committedDep := by
      refine rendered_eq_committed ho ?_
      have hdep := congrArg (fun k => k.1.map Prod.fst) hkey
      rwa [rulesKey, rulesKey, Option.map_map, Option.map_map] at hdep
    exact ⟨h.settled, fun l hl => hdep.trans (h.linked l hl), h.gens, h.loading, h.loaded, h.memory, h.read, hgone⟩

/-! ## What was begun -/

/-- The cached rules are loaded. -/
theorem Ordered.load (h : Ordered w) (ht : w.tasks[k]? = some (.loading gen dep))
    (hwrites : writes w.tasks dep = []) :
    Ordered ({ w with tasks := w.tasks.eraseIdx k }.begins (.loaded gen dep (w.cache dep))) := by
  have hcached : w.cache dep = w.settled dep := by
    unfold DeviceLink.settled
    rw [hwrites]
    rfl
  have hsettled : ∀ d, ({ w with tasks := w.tasks.eraseIdx k }.begins
      (.loaded gen dep (w.cache dep))).settled d = w.settled d := fun d => settled_congr (by rfl) (by
    show writes (w.tasks.eraseIdx k ++ [.loaded gen dep (w.cache dep)]) d = writes w.tasks d
    rw [writes_append, writes_eraseIdx ht rfl]
    simp [writes, LinkTask.writes])
  have hmem : ∀ {t}, t ∈ w.tasks.eraseIdx k ++ [.loaded gen dep (w.cache dep)] →
      t ∈ w.tasks ∨ t = .loaded gen dep (w.cache dep) := fun hmem =>
    (List.mem_append.1 hmem).imp (fun hm => (List.eraseIdx_sublist _ _).subset hm) List.mem_singleton.1
  have hloading : .loading gen dep ∈ w.tasks := List.mem_of_getElem? ht
  constructor
  · exact fun d => (hsettled d).symm ▸ h.settled d
  · exact h.linked
  · intro t htm g hg
    rcases hmem htm with htm | rfl
    · exact h.gens t htm g hg
    · exact h.gens _ hloading g hg
  · intro d hd
    rcases hmem hd with hd | hd
    · exact h.loading d hd
    · cases hd
  · intro d payload hd
    rw [hsettled]
    rcases hmem hd with hd | hd
    · exact h.loaded d payload hd
    · injection hd with hgen hdep hpayload
      have hgen' : w.rules.gen = gen := hgen
      subst hdep hpayload
      exact ⟨h.loading _ (hgen' ▸ hloading), hcached⟩
  · intro l hl
    rw [hsettled]
    exact h.memory l hl
  · intro l hl hread
    rw [hsettled]
    refine h.read l hl fun t htm => ?_
    by_cases he : t = .loading gen dep
    · rw [he]
      exact hread (.loaded gen dep (w.cache dep)) (List.mem_append_right _ List.mem_cons_self)
    · have hkeep : t ∈ w.tasks.eraseIdx k := by
        rw [split_at ht] at htm
        rw [List.eraseIdx_eq_take_drop_succ]
        simpa [he] using htm
      exact hread t (List.mem_append_left _ hkeep)
  · intro hu d hd
    rw [hsettled]
    exact h.gone hu d hd

theorem apply_of_ne (hne : gen ≠ s.gen) (p : ChildRulesPayload) :
    s.apply gen p = s := if_neg fun hc => hne hc.1

/-- The rules that were loaded are those that are cached in the end. -/
theorem Ordered.apply_loaded (h : Ordered w) {payload : Option ChildRulesPayload}
    (hmem : .loaded w.rules.gen dep payload ∈ w.tasks) (hl : w.rules.linked = some l) :
    (if w.pairing.unpaired then w.rules else payload.elim w.rules (w.rules.apply w.rules.gen)).rules =
      w.settled l.dep := by
  obtain ⟨hdep, hpayload⟩ := h.loaded dep payload hmem
  rw [hl] at hdep
  cases hdep
  split
  · rename_i hu
    have hnone := h.gone hu l.dep (h.linked l hl)
    rcases h.memory l hl with hm | hm
    · rw [hm, hnone]
    · exact hm
  · cases payload with
    | none =>
      rcases h.memory l hl with hm | hm
      · exact hm.trans hpayload
      · exact hm
    | some p =>
      show (w.rules.apply w.rules.gen p).rules = _
      have happly : w.rules.apply w.rules.gen p =
          { w.rules with rules := some (newerRulesPayload w.rules.rules p), offered := w.rules.offered ++ [p] } :=
        if_pos ⟨rfl, by rw [hl]; rfl⟩
      rw [happly, ← hpayload]
      rcases h.memory l hl with hm | hm
      · rw [hm]
        rfl
      · rw [hm, ← hpayload]
        simp [newerRulesPayload]

/-- A task that writes nothing goes, and the rules in memory are those that are cached in the end. -/
theorem Ordered.landed (h : Ordered w) (ht : w.tasks[k]? = some t)
    (hwrites : ∀ d, t.writes d = none) {rules : RulesState} (hgen : rules.gen = w.rules.gen)
    (hlinked : rules.linked = w.rules.linked)
    (hrules : ∀ l, w.rules.linked = some l → rules.rules = w.settled l.dep ∨
      rules.rules = w.rules.rules ∧ t.reads w.rules.gen = false) :
    Ordered { w with tasks := w.tasks.eraseIdx k, rules } := by
  have hsettled : ∀ d, DeviceLink.settled { w with tasks := w.tasks.eraseIdx k, rules } d = w.settled d :=
    fun d => settled_congr (by rfl) (writes_eraseIdx ht (hwrites d))
  have hsub : ∀ {u}, u ∈ w.tasks.eraseIdx k → u ∈ w.tasks := fun hu => (List.eraseIdx_sublist _ _).subset hu
  constructor
  · exact fun d => (hsettled d).symm ▸ h.settled d
  · exact fun l hl => h.linked l (hlinked ▸ hl)
  · exact fun u hu g hg => (h.gens u (hsub hu) g hg).trans_eq hgen.symm
  · intro d hd
    dsimp only at hd ⊢
    rw [hgen] at hd
    rw [hlinked]
    exact h.loading d (hsub hd)
  · intro d payload hd
    rw [hsettled]
    dsimp only at hd ⊢
    rw [hgen] at hd
    rw [hlinked]
    exact h.loaded d payload (hsub hd)
  · intro l hl
    rw [hsettled]
    have hl' : w.rules.linked = some l := hlinked ▸ hl
    rcases hrules l hl' with hr | ⟨hr, -⟩
    · exact .inr hr
    · exact (h.memory l hl').imp hr.trans hr.trans
  · intro l hl hread
    rw [hsettled]
    have hl' : w.rules.linked = some l := hlinked ▸ hl
    rcases hrules l hl' with hr | ⟨hr, hnot⟩
    · exact hr
    · refine hr.trans (h.read l hl' fun u hu => ?_)
      by_cases he : u = t
      · rw [he, hnot]
      · have hkeep : u ∈ w.tasks.eraseIdx k := by
          rw [split_at ht] at hu
          rw [List.eraseIdx_eq_take_drop_succ]
          simpa [he] using hu
        rw [← hgen]
        exact hread u hkeep
  · intro hu d hd
    rw [hsettled]
    exact h.gone hu d hd

theorem newer_of_takes {p : ChildRulesPayload} (h : s.takes gen p = true) :
    newerRulesPayload s.rules p = p := by
  have hne : some (newerRulesPayload s.rules p) ≠ s.rules := by
    simp only [RulesState.takes, Bool.and_eq_true, decide_eq_true_eq] at h
    exact h.2
  revert hne
  cases s.rules with
  | none => exact fun _ => rfl
  | some r =>
    unfold newerRulesPayload
    dsimp only
    split
    · exact fun _ => rfl
    · exact fun hne => absurd rfl hne

/-- Rules are accepted while none is being read. -/
theorem Ordered.accept (h : Ordered w) (hl : w.rules.linked = some l)
    (hpaired : ¬ w.pairing.unpaired = true) (hread : ∀ t ∈ w.tasks, t.reads w.rules.gen = false)
    (p : ChildRulesPayload) {w₁ : DeviceLink} (hw₁ : w₁ = { w with
      rules := w.rules.apply w.rules.gen p
      accepted := Function.update w.accepted l.dep (w.accepted l.dep ++ [p]) }) :
    Ordered (if w.rules.takes w.rules.gen p then w₁.begins (.saving l.dep p) else w₁) := by
  have hmemory := h.read l hl hread
  have happly : w.rules.apply w.rules.gen p =
      { w.rules with rules := some (newerRulesPayload w.rules.rules p), offered := w.rules.offered ++ [p] } :=
    if_pos ⟨rfl, by rw [hl]; rfl⟩
  rw [happly] at hw₁
  have hnewest : NewestOf (w.accepted l.dep ++ [p]) (some (newerRulesPayload w.rules.rules p)) := by
    rw [hmemory]
    exact (h.settled l.dep).concat p
  have hother : ∀ l', w.rules.linked = some l' → l' = l := fun l' hl' => Option.some.inj (hl'.symm.trans hl)
  have hnone : ∀ {t : LinkTask}, t.reads w.rules.gen = true → t ∉ w.tasks := fun ht hmem => by
    rw [hread _ hmem] at ht
    cases ht
  -- what is cached in the end is now what is in memory
  have hkeeps : ∀ tasks : List LinkTask, (∀ t gen, t.reads gen = true → t ∈ tasks → t ∈ w.tasks) →
      (∀ d, DeviceLink.settled { w₁ with tasks } d =
        if l.dep = d then some (newerRulesPayload w.rules.rules p) else w.settled d) →
      Ordered { w₁ with tasks } := by
    intro tasks htasks hsettled
    subst hw₁
    constructor
    · intro d
      rw [hsettled]
      show NewestOf (Function.update w.accepted l.dep (w.accepted l.dep ++ [p]) d) _
      by_cases hd : l.dep = d
      · rw [if_pos hd, ← hd, Function.update_self]
        exact hnewest
      · rw [if_neg hd, Function.update_of_ne (Ne.symm hd)]
        exact h.settled d
    · exact h.linked
    · exact fun t ht gen hgen => h.gens t (htasks t gen hgen ht) gen hgen
    · intro d hd
      have hcurrent : (LinkTask.loading w.rules.gen d).reads w.rules.gen = true := decide_eq_true rfl
      exact absurd (htasks _ _ hcurrent hd) (hnone hcurrent)
    · intro d payload hd
      have hcurrent : (LinkTask.loaded w.rules.gen d payload).reads w.rules.gen = true := decide_eq_true rfl
      exact absurd (htasks _ _ hcurrent hd) (hnone hcurrent)
    · intro l' hl'
      rw [hsettled, hother l' hl', if_pos rfl]
      exact .inr rfl
    · intro l' hl' _
      rw [hsettled, hother l' hl', if_pos rfl]
    · exact fun hu => absurd hu hpaired
  split
  · rename_i htakes
    have hsettled : ∀ d, (w₁.begins (.saving l.dep p)).settled d = if l.dep = d then some p else w₁.settled d :=
      settled_begins fun d => rfl
    refine hkeeps (w₁.tasks ++ [.saving l.dep p]) (fun t gen hgen ht => ?_) fun d => ?_
    · rcases List.mem_append.1 ht with ht | ht
      · subst hw₁
        exact ht
      · rw [List.mem_singleton.1 ht] at hgen
        cases hgen
    · refine (hsettled d).trans ?_
      rw [newer_of_takes htakes]
      subst hw₁
      rfl
  · rename_i htakes
    have hsame : some (newerRulesPayload w.rules.rules p) = w.rules.rules := by
      by_contra hne
      exact htakes (by simp [RulesState.takes, hl, hne])
    have hset : ∀ d, DeviceLink.settled { w₁ with tasks := w₁.tasks } d =
        if l.dep = d then some (newerRulesPayload w.rules.rules p) else w.settled d := by
      intro d
      subst hw₁
      show w.settled d = _
      by_cases hd : l.dep = d
      · rw [if_pos hd, hsame, hmemory, hd]
      · rw [if_neg hd]
    exact hkeeps w₁.tasks (fun t _ _ ht => by subst hw₁; exact ht) hset

theorem Ordered.settle (h : Ordered w) {result : CallResult} (horder : w.SettlesInOrder k result)
    (hfound : w.FoundInOrder (w.settle k result)) : Ordered (w.settle k result) := by
  revert hfound
  unfold SettlesInOrder at horder
  unfold DeviceLink.settle
  dsimp only
  cases ht : w.tasks[k]? with
  | none => exact fun _ => h
  | some t =>
    rw [ht] at horder
    intro hfound
    cases t with
    | loading gen dep =>
      obtain ⟨hok, hwrites⟩ := horder
      dsimp only
      rw [if_pos hok]
      exact h.load ht hwrites
    | loaded gen dep payload =>
      have happly : ∀ p, (w.rules.apply gen p).gen = w.rules.gen ∧ (w.rules.apply gen p).linked = w.rules.linked := by
        intro p
        unfold RulesState.apply
        split <;> exact ⟨rfl, rfl⟩
      have hsame : (if w.pairing.unpaired then w.rules else payload.elim w.rules (w.rules.apply gen)).gen = w.rules.gen ∧
          (if w.pairing.unpaired then w.rules else payload.elim w.rules (w.rules.apply gen)).linked =
            w.rules.linked := by
        split
        · exact ⟨rfl, rfl⟩
        · cases payload with
          | none => exact ⟨rfl, rfl⟩
          | some p => exact happly p
      dsimp only
      by_cases hgen : gen = w.rules.gen
      · rw [if_pos hgen]
        refine h.landed ht (fun _ => rfl) hsame.1 hsame.2 fun l hl => .inl ?_
        subst hgen
        exact h.apply_loaded (List.mem_of_getElem? ht) hl
      · rw [if_neg hgen]
        refine h.landed ht (fun _ => rfl) hsame.1 hsame.2 fun l hl => .inr ⟨?_, decide_eq_false hgen⟩
        split
        · rfl
        · cases payload with
          | none => rfl
          | some p => exact congrArg RulesState.rules (apply_of_ne hgen p)
    | opening gen payload =>
      have hdrop := h.drop ht (fun _ => rfl) fun _ => rfl
      cases payload with
      | none => exact hdrop
      | some p =>
        dsimp only
        split
        · rename_i p' l hp hl
          cases hp
          split
          · exact hdrop
          · rename_i hopen
            rw [not_or, not_not] at hopen
            obtain ⟨hpaired, rfl⟩ := hopen
            refine hdrop.accept hl hpaired (fun t htm => ?_) p rfl
            exact (w.reading_eq_false.1 horder) t ((List.eraseIdx_sublist _ _).subset htm)
        · exact hdrop
    | saving dep payload =>
      obtain ⟨hok, hfirst⟩ := horder
      dsimp only
      rw [if_pos hok]
      exact h.write ht (fun _ => rfl) (fun _ => rfl) hfirst
    | clearing dep =>
      obtain ⟨hok, hfirst⟩ := horder
      dsimp only
      rw [if_pos hok]
      exact h.write ht (fun _ => rfl) (fun _ => rfl) hfirst
    | confirming watch =>
      have hdrop := h.drop ht (fun _ => rfl) fun _ => rfl
      dsimp only at hfound ⊢
      split
      · exact hdrop
      · rename_i hcurrent
        rw [if_neg hcurrent] at hfound
        split
        · rename_i hno
          rw [if_pos hno] at hfound
          have hheard : Ordered { w with
              tasks := w.tasks.eraseIdx k
              pairing := { w.pairing with confirming := false }.hears .keyRefused } :=
            hdrop.frame (fun _ => rfl) (fun _ _ _ => Iff.rfl) rfl rfl rfl id
          refine hheard.markUnpaired fun hpaired hnow => ?_
          obtain ⟨hreading, hsame⟩ := hfound hpaired hnow
          refine ⟨(DeviceLink.reading_eq_false _).2 fun t htm => ?_, hsame⟩
          exact (w.reading_eq_false.1 hreading) t ((List.eraseIdx_sublist _ _).subset htm)
        · exact hdrop.frame (fun _ => rfl) (fun _ _ _ => Iff.rfl) rfl rfl rfl id

theorem Ordered.observe (h : Ordered w) (persona : JsString) (result : CallResult) :
    Ordered (w.observe persona result) := by
  unfold DeviceLink.observe
  split
  · exact h
  · rename_i watched hwatched
    split
    · exact h
    · cases result with
      | ok => exact h.frame (fun _ => rfl) (fun _ _ _ => Iff.rfl) rfl rfl rfl id
      | failed => exact h
      | unauthorised =>
        dsimp only
        have hstruck : Ordered { w with
            pairing := (w.pairing.strike (w.options.router.any fun (rt : BunkerBackendRouter) =>
              decide (rt.primaryClientPubkeyHex = watched.clientPub))).1 } :=
          h.frame (fun _ => rfl) (fun _ _ _ => Iff.rfl) rfl rfl rfl fun hu =>
            (w.pairing.strike_same _).2 ▸ hu
        split
        · exact hstruck.begins (fun _ => rfl) fun _ => rfl
        · exact hstruck

section

variable [Numerals] [Signatures]

theorem Ordered.onEvent (h : Ordered w) (ev : NostrEvent) (opened : Option ChildRulesPayload)
    (hfound : w.FoundInOrder (w.onEvent ev opened)) : Ordered (w.onEvent ev opened) := by
  revert hfound
  unfold DeviceLink.onEvent
  split
  · exact fun _ => h
  · rename_i linked hlinked
    split
    · split
      · intro hfound
        have hheard : Ordered { w with
            pairing := w.pairing.hears (.notice ev linked.railPub linked.clientPub) } :=
          h.frame (fun _ => rfl) (fun _ _ _ => Iff.rfl) rfl rfl rfl id
        exact hheard.markUnpaired hfound
      · exact fun _ => h
    · exact fun _ => h.begins (fun _ => rfl) fun _ => rfl

/-- A step in order. -/
def Orderly (w : DeviceLink) (e : LinkHappening) : Prop :=
  (match e with
    | .settle k result => w.SettlesInOrder k result
    | _ => True) ∧ w.FoundInOrder (w.next e)

theorem Ordered.next (h : Ordered w) {e : LinkHappening} (he : Orderly w e) : Ordered (w.next e) := by
  obtain ⟨horder, hfound⟩ := he
  cases e with
  | render options => exact h.frame (fun _ => rfl) (fun _ _ _ => Iff.rfl) rfl rfl rfl id
  | commit => exact h.commit
  | event ev opened => exact h.onEvent ev opened hfound
  | stamped persona result => exact h.observe persona result
  | settle k result => exact h.settle horder hfound
  | begin k => exact h.frame (fun _ => rfl) (fun _ _ _ => Iff.rfl) rfl rfl rfl id
  | finish k ok => exact h.frame (fun _ => rfl) (fun _ _ _ => Iff.rfl) rfl rfl rfl id
  | retryApproval persona => exact h.frame (fun _ => rfl) (fun _ _ _ => Iff.rfl) rfl rfl rfl id
  | deferApproval persona => exact h.frame (fun _ => rfl) (fun _ _ _ => Iff.rfl) rfl rfl rfl id
  | ensureApproved persona => exact h.frame (fun _ => rfl) (fun _ _ _ => Iff.rfl) rfl rfl rfl id

end

end DeviceLink

end SignetApp.ChildLink
