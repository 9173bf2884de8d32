import SignetApp.Concurrency.Reach
import SignetApp.Family.PolicyPush

/-!
# Entries approved once, under concurrent pushes

`pushChildCeilingLocked` adds its entries, pushes the ceiling under the operator lock, and takes the
same entries away where the push failed. Calls run side by side: between two of a call's steps any
other call may take its own. What the fresh reads say and what happens around the device is up to
the run.
-/

namespace SignetApp.Family

open SignetApp.Js

deriving instance DecidableEq for OnceEntry

/-! ## The map -/

abbrev OnceMap := OrderedMap JsString (List OnceEntry)

def protoName : JsString := lit "__proto__"

/-- `next[k] = v`. Under this one name an object has a setter, and the map gets no entry. -/
def assign (next : OnceMap) (k : JsString) (v : List OnceEntry) : OnceMap :=
  if k = protoName then next else next.set k v

/-- One entry or several, or none. -/
inductive ExtraOnce
  | none
  | one (e : OnceEntry)
  | several (es : List OnceEntry)

def onceEntries : ExtraOnce → List OnceEntry
  | .none => []
  | .one e => [e]
  | .several es => es

/-- One key of the map while an entry is added: the dependant's lists are gathered. -/
def gather (id : JsString) (acc : OnceMap × List OnceEntry) (kv : JsString × List OnceEntry) :
    OnceMap × List OnceEntry :=
  if toLowerCase kv.1 = id then (acc.1, acc.2 ++ kv.2) else (assign acc.1 kv.1 kv.2, acc.2)

def addOnceEntry (map : OnceMap) (depId : JsString) (e : OnceEntry) : OnceMap :=
  let id := toLowerCase depId
  let gathered := map.entries.foldl (gather id) (.empty, [])
  assign gathered.1 id (gathered.2 ++ [e])

/-- One key of the map while an entry is removed: the first equal entry goes, once. -/
def dropOnce (id : JsString) (e : OnceEntry) (acc : OnceMap × Bool)
    (kv : JsString × List OnceEntry) : OnceMap × Bool :=
  if toLowerCase kv.1 ≠ id || acc.2 then (assign acc.1 kv.1 kv.2, acc.2)
  else if e ∈ kv.2 then
    let rest := kv.2.erase e
    (if rest = [] then acc.1 else assign acc.1 kv.1 rest, true)
  else (assign acc.1 kv.1 kv.2, acc.2)

def removeOnceEntry (map : OnceMap) (depId : JsString) (e : OnceEntry) : OnceMap :=
  (map.entries.foldl (dropOnce (toLowerCase depId) e) (.empty, false)).1

/-! ## What a dependant's entries are -/

/-- The entries under any spelling of an id, however often each stands there. -/
def bag (id : JsString) (entries : List (JsString × List OnceEntry)) : Multiset OnceEntry :=
  ((entries.filter fun kv => toLowerCase kv.1 = id).flatMap Prod.snd : List OnceEntry)

/-- A dependant's entries. -/
def entriesFor (map : OnceMap) (depId : JsString) : Multiset OnceEntry :=
  bag (toLowerCase depId) map.entries

variable (id depId : JsString)

@[simp] theorem bag_nil : bag id [] = 0 := rfl

theorem bag_append (as bs : List (JsString × List OnceEntry)) :
    bag id (as ++ bs) = bag id as + bag id bs := by
  simp [bag]

theorem bag_singleton (k : JsString) (v : List OnceEntry) :
    bag id [(k, v)] = if toLowerCase k = id then (v : Multiset OnceEntry) else 0 := by
  unfold bag
  split <;> simp_all

theorem bag_cons (kv : JsString × List OnceEntry)
    (es : List (JsString × List OnceEntry)) : bag id (kv :: es)
      = (if toLowerCase kv.1 = id then (kv.2 : Multiset OnceEntry) else 0) + bag id es := by
  rw [← List.singleton_append, bag_append, bag_singleton]

theorem bag_filter_other (own : JsString) (es : List (JsString × List OnceEntry)) :
    bag id (es.filter fun kv => !(toLowerCase kv.1 = own))
      = if own = id then 0 else bag id es := by
  induction es with
  | nil => simp
  | cons kv es ih =>
    rw [List.filter_cons, bag_cons]
    by_cases hown : own = id
    · rw [if_pos hown] at ih ⊢
      subst hown
      by_cases hkv : toLowerCase kv.1 = own
      · simpa [hkv] using ih
      · simp [hkv, bag_cons, ih]
    · rw [if_neg hown] at ih ⊢
      by_cases hkv : toLowerCase kv.1 = own
      · simp [hkv, hown, ih]
      · simp [hkv, bag_cons, ih]

theorem entries_assign {m : OnceMap} {k : JsString} (v : List OnceEntry) (hk : k ∉ m.keys)
    (hproto : k ≠ protoName) : (assign m k v).entries = m.entries ++ [(k, v)] := by
  rw [assign, if_neg hproto]
  exact OrderedMap.setEntries_of_not_mem v hk

theorem not_mem_keys_assign {m : OnceMap} (k : JsString) (v : List OnceEntry)
    (h : protoName ∉ m.keys) : protoName ∉ (assign m k v).keys := by
  unfold assign
  split
  · exact h
  · next hk =>
    rw [OrderedMap.keys_set]
    split
    · exact h
    · rw [List.mem_append, List.mem_singleton, not_or]
      exact ⟨h, fun heq => hk heq.symm⟩

/-! ## Adding -/

/-- Gathering keeps the other keys in place and collects the dependant's lists. -/
theorem foldl_gather : ∀ (es : List (JsString × List OnceEntry))
    (acc : OnceMap × List OnceEntry), (acc.1.keys ++ es.map Prod.fst).Nodup →
      protoName ∉ es.map Prod.fst →
      (es.foldl (gather id) acc).1.entries
          = acc.1.entries ++ es.filter (fun kv => !(toLowerCase kv.1 = id)) ∧
        (es.foldl (gather id) acc).2
          = acc.2 ++ (es.filter fun kv => toLowerCase kv.1 = id).flatMap Prod.snd := by
  intro es
  induction es with
  | nil => intro acc _ _; simp
  | cons kv es ih =>
    intro acc hnodup hproto
    rw [List.map_cons, List.mem_cons, not_or] at hproto
    rw [List.foldl_cons]
    by_cases hid : toLowerCase kv.1 = id
    · have hstep : gather id acc kv = (acc.1, acc.2 ++ kv.2) := if_pos hid
      rw [hstep]
      obtain ⟨hmap, hmine⟩ := ih (acc.1, acc.2 ++ kv.2)
        (hnodup.sublist (by simp)) hproto.2
      refine ⟨?_, ?_⟩
      · rw [hmap]
        simp [hid]
      · rw [hmine]
        simp [hid]
    · have hstep : gather id acc kv = (assign acc.1 kv.1 kv.2, acc.2) := if_neg hid
      have hnew : kv.1 ∉ acc.1.keys := fun h =>
        (List.nodup_append.1 hnodup).2.2 _ h _ List.mem_cons_self rfl
      have hentries : (assign acc.1 kv.1 kv.2).entries = acc.1.entries ++ [(kv.1, kv.2)] :=
        entries_assign kv.2 hnew (Ne.symm hproto.1)
      have hkeys : (assign acc.1 kv.1 kv.2).keys = acc.1.keys ++ [kv.1] := by
        rw [OrderedMap.keys, hentries, List.map_append]
        rfl
      rw [hstep]
      obtain ⟨hmap, hmine⟩ := ih (assign acc.1 kv.1 kv.2, acc.2)
        (by rw [hkeys, List.append_assoc]; exact hnodup) hproto.2
      refine ⟨?_, ?_⟩
      · rw [hmap, hentries]
        simp [hid]
      · rw [hmine]
        simp [hid]

/-- Adding an entry adds it to its dependant's entries and to nobody else's. -/
theorem bag_addOnceEntry {map : OnceMap} {depId : JsString} (e : OnceEntry) (id : JsString)
    (hmap : protoName ∉ map.keys) (hid : toLowerCase depId ≠ protoName) :
    bag id (addOnceEntry map depId e).entries
        = bag id map.entries + (if toLowerCase depId = id then {e} else 0) ∧
      protoName ∉ (addOnceEntry map depId e).keys := by
  obtain ⟨hothers, hmine⟩ := foldl_gather (toLowerCase depId) map.entries (.empty, [])
    (by simpa using map.nodup) hmap
  have hnew : toLowerCase depId
      ∉ (map.entries.foldl (gather (toLowerCase depId)) (.empty, [])).1.keys := by
    rw [OrderedMap.keys, hothers]
    intro h
    obtain ⟨kv, hkv, hk⟩ := List.mem_map.1 h
    have hne := (List.mem_filter.1 hkv).2
    rw [hk, toLowerCase_toLowerCase] at hne
    simp at hne
  have hentries := entries_assign
    ((map.entries.foldl (gather (toLowerCase depId)) (.empty, [])).2 ++ [e]) hnew hid
  constructor
  · show bag id (assign _ _ _).entries = _
    rw [hentries, bag_append, bag_singleton, toLowerCase_toLowerCase, hothers, hmine]
    show bag id (map.entries.filter fun kv => !(toLowerCase kv.1 = toLowerCase depId)) + _ = _
    rw [bag_filter_other]
    by_cases heq : toLowerCase depId = id
    · subst heq
      rw [if_pos rfl, if_pos rfl, if_pos rfl, zero_add]
      rfl
    · simp [heq]
  · apply not_mem_keys_assign
    rw [OrderedMap.keys, hothers]
    intro h
    obtain ⟨kv, hkv, hk⟩ := List.mem_map.1 h
    exact hmap (List.mem_map.2 ⟨kv, List.mem_of_mem_filter hkv, hk⟩)

/-! ## Removing -/

/-- The walk keeps what it has passed, and takes one equal entry out of the rest unless it has
taken one already. -/
theorem foldl_dropOnce {own : JsString} {e : OnceEntry} (id : JsString) :
    ∀ (es : List (JsString × List OnceEntry)) (acc : OnceMap × Bool),
      (acc.1.keys ++ es.map Prod.fst).Nodup → protoName ∉ es.map Prod.fst →
      protoName ∉ acc.1.keys →
      bag id (es.foldl (dropOnce own e) acc).1.entries = bag id acc.1.entries +
          (if own = id ∧ acc.2 = false then (bag id es).erase e else bag id es) ∧
        protoName ∉ (es.foldl (dropOnce own e) acc).1.keys := by
  intro es
  induction es with
  | nil => intro acc _ _ hacc; simpa using hacc
  | cons kv es ih =>
    intro acc hnodup hproto hacc
    rw [List.map_cons, List.mem_cons, not_or] at hproto
    rw [List.foldl_cons]
    have hnew : kv.1 ∉ acc.1.keys := fun h =>
      (List.nodup_append.1 hnodup).2.2 _ h _ List.mem_cons_self rfl
    -- A step that keeps the key with the list `v`.
    have hkeep : ∀ (v : List OnceEntry) (b : Bool),
        bag id (es.foldl (dropOnce own e) (assign acc.1 kv.1 v, b)).1.entries
          = bag id acc.1.entries + ((if toLowerCase kv.1 = id then (v : Multiset OnceEntry) else 0)
            + (if own = id ∧ b = false then (bag id es).erase e else bag id es)) ∧
        protoName ∉ (es.foldl (dropOnce own e) (assign acc.1 kv.1 v, b)).1.keys := by
      intro v b
      have hentries := entries_assign v hnew (Ne.symm hproto.1)
      have hkeys : (assign acc.1 kv.1 v).keys = acc.1.keys ++ [kv.1] := by
        rw [OrderedMap.keys, hentries, List.map_append]
        rfl
      obtain ⟨hbag, hnone⟩ := ih (assign acc.1 kv.1 v, b)
        (by rw [hkeys, List.append_assoc]; exact hnodup) hproto.2
        (not_mem_keys_assign kv.1 v hacc)
      refine ⟨?_, hnone⟩
      rw [hbag, hentries, bag_append, bag_singleton, add_assoc]
    rw [bag_cons]
    by_cases hskip : (toLowerCase kv.1 ≠ own || acc.2) = true
    · have hstep : dropOnce own e acc kv = (assign acc.1 kv.1 kv.2, acc.2) := if_pos hskip
      rw [hstep]
      obtain ⟨hbag, hnone⟩ := hkeep kv.2 acc.2
      refine ⟨?_, hnone⟩
      rw [hbag]
      congr 1
      by_cases h : own = id ∧ acc.2 = false
      · -- The walk has taken nothing, so this key is another dependant's.
        have hother : toLowerCase kv.1 ≠ id := by
          rw [h.2, Bool.or_false, decide_eq_true_eq, h.1] at hskip
          exact hskip
        rw [if_pos h, if_pos h, if_neg hother, zero_add, zero_add]
      · rw [if_neg h, if_neg h]
    · have hown : toLowerCase kv.1 = own ∧ acc.2 = false := by
        simpa using hskip
      by_cases hmem : e ∈ kv.2
      · have hstep : dropOnce own e acc kv
            = (if kv.2.erase e = [] then acc.1 else assign acc.1 kv.1 (kv.2.erase e), true) := by
          rw [dropOnce, if_neg hskip, if_pos hmem]
        have herase : own = id → ((kv.2 : Multiset OnceEntry) + bag id es).erase e
            = (kv.2.erase e : Multiset OnceEntry) + bag id es := by
          intro _
          rw [Multiset.erase_add_left_pos _ (by simpa using hmem), Multiset.coe_erase]
        have htaken : ¬ (own = id ∧ true = false) := fun h => Bool.noConfusion h.2
        rw [hstep]
        by_cases hempty : kv.2.erase e = []
        · rw [if_pos hempty]
          obtain ⟨hbag, hnone⟩ := ih (acc.1, true)
            (hnodup.sublist (by simp)) hproto.2 hacc
          refine ⟨?_, hnone⟩
          rw [hbag, hown.1, hown.2]
          congr 1
          by_cases hid : own = id
          · have hfirst : own = id ∧ false = false := ⟨hid, rfl⟩
            rw [if_neg htaken, if_pos hfirst, if_pos hid, herase hid, hempty]
            exact (zero_add _).symm
          · simp [hid]
        · rw [if_neg hempty]
          obtain ⟨hbag, hnone⟩ := hkeep (kv.2.erase e) true
          refine ⟨?_, hnone⟩
          rw [hbag, hown.1, hown.2]
          congr 1
          by_cases hid : own = id
          · have hfirst : own = id ∧ false = false := ⟨hid, rfl⟩
            rw [if_neg htaken, if_pos hfirst, if_pos hid, if_pos hid, herase hid]
          · simp [hid]
      · have hstep : dropOnce own e acc kv = (assign acc.1 kv.1 kv.2, acc.2) := by
          rw [dropOnce, if_neg hskip, if_neg hmem]
        rw [hstep]
        obtain ⟨hbag, hnone⟩ := hkeep kv.2 acc.2
        refine ⟨?_, hnone⟩
        rw [hbag, hown.1, hown.2]
        congr 1
        by_cases hid : own = id
        · have hfirst : own = id ∧ false = false := ⟨hid, rfl⟩
          rw [if_pos hfirst, if_pos hid, if_pos hfirst,
            Multiset.erase_add_right_neg _ (by simpa using hmem)]
        · simp [hid]

theorem bag_removeOnceEntry {map : OnceMap} (e : OnceEntry) (id : JsString)
    (hmap : protoName ∉ map.keys) :
    bag id (removeOnceEntry map depId e).entries
        = bag id map.entries - (if toLowerCase depId = id then {e} else 0) ∧
      protoName ∉ (removeOnceEntry map depId e).keys := by
  obtain ⟨hbag, hnone⟩ := @foldl_dropOnce (toLowerCase depId) e id map.entries (.empty, false)
    (by simpa using map.nodup) hmap (by simp)
  refine ⟨hbag.trans ?_, hnone⟩
  by_cases heq : toLowerCase depId = id
  · rw [if_pos ⟨heq, rfl⟩, if_pos heq, Multiset.sub_singleton]
    exact zero_add _
  · simp [heq, OrderedMap.empty]

theorem bag_foldl_add (id : JsString) (hid : toLowerCase depId ≠ protoName) :
    ∀ (es : List OnceEntry) (map : OnceMap), protoName ∉ map.keys →
      bag id (es.foldl (fun m e => addOnceEntry m depId e) map).entries = bag id map.entries
          + (if toLowerCase depId = id then (es : Multiset OnceEntry) else 0) ∧
        protoName ∉ (es.foldl (fun m e => addOnceEntry m depId e) map).keys := by
  intro es
  induction es with
  | nil => intro map hmap; simpa using hmap
  | cons e es ih =>
    intro map hmap
    obtain ⟨hbag, hnone⟩ := bag_addOnceEntry e id hmap hid
    rw [List.foldl_cons]
    obtain ⟨hrest, hnone'⟩ := ih (addOnceEntry map depId e) hnone
    refine ⟨?_, hnone'⟩
    rw [hrest, hbag, add_assoc]
    congr 1
    split
    · rw [Multiset.singleton_add, Multiset.cons_coe]
    · rfl

theorem bag_foldl_remove (id : JsString) : ∀ (es : List OnceEntry) (map : OnceMap),
    protoName ∉ map.keys →
      bag id (es.foldl (fun m e => removeOnceEntry m depId e) map).entries = bag id map.entries
          - (if toLowerCase depId = id then (es : Multiset OnceEntry) else 0) ∧
        protoName ∉ (es.foldl (fun m e => removeOnceEntry m depId e) map).keys := by
  intro es
  induction es with
  | nil => intro map hmap; simpa using hmap
  | cons e es ih =>
    intro map hmap
    obtain ⟨hbag, hnone⟩ := bag_removeOnceEntry depId e id hmap
    rw [List.foldl_cons]
    obtain ⟨hrest, hnone'⟩ := ih (removeOnceEntry map depId e) hnone
    refine ⟨?_, hnone'⟩
    rw [hrest, hbag, tsub_tsub]
    congr 1
    split
    · rw [Multiset.singleton_add, Multiset.cons_coe]
    · rfl

/-! ## Calls side by side -/

/-- Fresh reads for a push, each dependant with the slot of the child's own phone, if any. -/
structure FreshPushReads where
  dependants : List (DependantIdentity × Option CeilingTarget)
  grants : List GrantRecord
  guardianClientPubkey : Option JsString
  childRules : List ChildRuleRecord
  nowSeconds : ℚ

/-- What a call waits for, or how it ended. -/
inductive Stage
  /-- The first `store.set`. -/
  | adding
  /-- The operator lock and the fresh reads. -/
  | locked
  /-- The device, with what was read. -/
  | pushing (family : FamilyState) (target : CeilingTarget)
  /-- The second `store.set`. -/
  | removing
  | returned (result : CeilingResult)
  | threw

structure Widening where
  id : JsString
  extra : List OnceEntry
  stage : Stage

structure Guardian where
  /-- What `store.get` returns; nothing while the row is loading. -/
  store : Option OnceMap
  device : World
  calls : List Widening

inductive Happening
  | call (depId : JsString) (extraOnce : ExtraOnce)
  /-- The first `store.set` of a call settles. -/
  | added (i : ℕ) (saved : Bool)
  /-- The lock is held and the fresh reads are there, or have failed. -/
  | read (i : ℕ) (reads : Option FreshPushReads)
  | pushed (i : ℕ) (s : Surroundings)
  /-- The second `store.set` of a call settles, either way. -/
  | removed (i : ℕ)

/-- A call up to its first wait. -/
def begin (w : Guardian) (depId : JsString) (extraOnce : ExtraOnce) : Guardian :=
  let id := toLowerCase depId
  let extra := onceEntries extraOnce
  if extra = [] then { w with calls := w.calls ++ [⟨id, extra, .locked⟩] }
  else
    match w.store with
    | none => { w with calls := w.calls ++ [⟨id, extra, .returned .failed⟩] }
    | some cur =>
      { w with
        store := some (extra.foldl (fun m e => addOnceEntry m id e) cur)
        calls := w.calls ++ [⟨id, extra, .adding⟩] }

/-- A call from the outcome of its push to its next wait, or to its end. -/
def conclude (w : Guardian) (i : ℕ) (c : Widening) (result : CeilingResult) : Guardian :=
  if result ≠ .ok && c.extra ≠ [] then
    match w.store with
    | none => { w with calls := w.calls.set i { c with stage := .returned result } }
    | some cur =>
      { w with
        store := some (c.extra.foldl (fun m e => removeOnceEntry m c.id e) cur)
        calls := w.calls.set i { c with stage := .removing } }
  else { w with calls := w.calls.set i { c with stage := .returned result } }

/-- What the lock's holder reads, and what it pushes. -/
def readFresh (w : Guardian) (i : ℕ) (c : Widening) (r : FreshPushReads) : Guardian :=
  match r.dependants.find? fun d => toLowerCase d.1.id = c.id with
  | some (dep, some target) =>
    match w.store with
    | none => conclude w i c .failed
    | some once =>
      let family : FamilyState :=
        { dependants := [dep], grants := r.grants
          guardianClientPubkey := r.guardianClientPubkey, nowSeconds := r.nowSeconds
          childRules := r.childRules, approvedOnceKinds := once }
      { w with calls := w.calls.set i { c with stage := .pushing family target } }
  | _ => conclude w i c .failed

def onAdded (w : Guardian) (i : ℕ) (saved : Bool) (c : Widening) : Guardian :=
  match c.stage with
  | .adding =>
    { w with calls := w.calls.set i { c with stage := if saved then .locked else .threw } }
  | _ => w

def onRead (w : Guardian) (i : ℕ) (reads : Option FreshPushReads) (c : Widening) : Guardian :=
  match c.stage with
  | .locked =>
    match reads with
    | some r => readFresh w i c r
    | none => conclude w i c .failed
  | _ => w

def onPushed (w : Guardian) (i : ℕ) (s : Surroundings) (c : Widening) : Guardian :=
  match c.stage with
  | .pushing family target =>
    let pushed := pushChildDirectCeiling family s target w.device
    conclude { w with device := pushed.2 } i c pushed.1
  | _ => w

def onRemoved (w : Guardian) (i : ℕ) (c : Widening) : Guardian :=
  match c.stage with
  | .removing => { w with calls := w.calls.set i { c with stage := .returned .failed } }
  | _ => w

/-- A step of the call with this number. -/
def onCall (w : Guardian) (i : ℕ) (step : Widening → Guardian) : Guardian :=
  match w.calls[i]? with
  | some c => step c
  | none => w

def next (w : Guardian) : Happening → Guardian
  | .call depId extraOnce => begin w depId extraOnce
  | .added i saved => onCall w i (onAdded w i saved)
  | .read i reads => onCall w i (onRead w i reads)
  | .pushed i s => onCall w i (onPushed w i s)
  | .removed i => onCall w i (onRemoved w i)

/-! ## What stands in the map -/

/-- Are the entries of a call in the map? -/
def Stage.standing : Stage → Bool
  | .adding | .locked | .pushing _ _ | .returned .ok | .threw => true
  | .removing | .returned .failed => false

/-- What a call has put under an id. -/
def share (id : JsString) (c : Widening) : Multiset OnceEntry :=
  if c.stage.standing ∧ c.id = id then (c.extra : Multiset OnceEntry) else 0

theorem sum_map_set {α β : Type} [AddCommMonoid β] (g : α → β) {a : α} (b : α) :
    ∀ {l : List α} {i : ℕ}, l[i]? = some a →
      ((l.set i b).map g).sum + g a = (l.map g).sum + g b := by
  intro l
  induction l with
  | nil => intro i h; cases h
  | cons c l ih =>
    intro i h
    cases i with
    | zero =>
      have hc : c = a := by simpa using h
      subst hc
      rw [List.set_cons_zero, List.map_cons, List.map_cons, List.sum_cons, List.sum_cons,
        add_right_comm, add_comm (g b)]
      exact add_right_comm _ _ _
    | succ i =>
      have hrest := @ih i (by simpa using h)
      rw [List.set_cons_succ, List.map_cons, List.map_cons, List.sum_cons, List.sum_cons,
        add_assoc, hrest, add_assoc]

/-- The map holds the initial entries and what the calls have put there. -/
structure Holds (initial : OnceMap) (w : Guardian) : Prop where
  map : ∃ m, w.store = some m ∧ protoName ∉ m.keys ∧
    ∀ id, bag id m.entries = bag id initial.entries + (w.calls.map (share id)).sum
  lower : ∀ c ∈ w.calls, toLowerCase c.id = c.id
  fine : ∀ c ∈ w.calls, c.stage ≠ .threw

theorem Holds.move {initial : OnceMap} {w : Guardian} (h : Holds initial w) {i : ℕ} {c : Widening}
    (hc : w.calls[i]? = some c) {stage : Stage}
    (hstands : c.extra = [] ∨ stage.standing = c.stage.standing) (hfine : stage ≠ .threw)
    (device : World) : Holds initial ⟨w.store, device, w.calls.set i { c with stage := stage }⟩ := by
  obtain ⟨⟨m, hm, hproto, hbag⟩, hlower, hthrew⟩ := h
  refine ⟨⟨m, hm, hproto, ?_⟩, ?_, ?_⟩
  · intro id
    have hsum := sum_map_set (share id) { c with stage := stage } hc
    have hshare : share id { c with stage := stage } = share id c := by
      unfold share
      rcases hstands with hnone | hstands
      · simp [hnone]
      · rw [hstands]
    rw [hshare] at hsum
    rw [hbag id]
    congr 1
    exact (add_right_cancel hsum).symm
  · intro d hd
    rcases List.mem_or_eq_of_mem_set hd with hd | rfl
    · exact hlower d hd
    · exact hlower c (List.mem_of_getElem? hc)
  · intro d hd
    rcases List.mem_or_eq_of_mem_set hd with hd | rfl
    · exact hthrew d hd
    · exact hfine

/-- A call that ends its push: where it failed, its own entries are taken out of the map as it now
is, one for one. -/
theorem Holds.conclude {initial : OnceMap} {w : Guardian} (h : Holds initial w) {i : ℕ}
    {c : Widening} (hc : w.calls[i]? = some c) (hstands : c.stage.standing = true)
    (result : CeilingResult) (device : World) :
    Holds initial (conclude { w with device := device } i c result) := by
  unfold Family.conclude
  by_cases hremove : (result ≠ .ok && c.extra ≠ []) = true
  · rw [if_pos hremove]
    obtain ⟨⟨m, hm, hproto, hbag⟩, hlower, hthrew⟩ := h
    have hmem : c ∈ w.calls := List.mem_of_getElem? hc
    simp only [hm]
    refine ⟨⟨_, rfl, (bag_foldl_remove c.id c.id c.extra m hproto).2, ?_⟩, ?_, ?_⟩
    · intro id
      have hsum := sum_map_set (share id) { c with stage := .removing } hc
      have hgone : share id { c with stage := .removing } = 0 := if_neg (by simp [Stage.standing])
      have hput : share id c = if toLowerCase c.id = id then (c.extra : Multiset OnceEntry) else 0 := by
        unfold share
        rw [hstands, hlower c hmem]
        simp
      rw [hgone, add_zero, hput] at hsum
      rw [(bag_foldl_remove c.id id c.extra m hproto).1, hbag id, ← hsum, ← add_assoc,
        add_tsub_cancel_right]
    · intro d hd
      rcases List.mem_or_eq_of_mem_set hd with hd | rfl
      · exact hlower d hd
      · exact hlower c hmem
    · intro d hd
      rcases List.mem_or_eq_of_mem_set hd with hd | rfl
      · exact hthrew d hd
      · exact fun hthrow => by cases hthrow
  · rw [if_neg hremove]
    apply h.move hc
    · by_cases hnone : c.extra = []
      · exact .inl hnone
      · right
        have hok : result = .ok := by
          cases result with
          | ok => rfl
          | failed => simp [hnone] at hremove
        rw [hok, hstands]
        rfl
    · exact fun hthrow => by cases hthrow

theorem Holds.readFresh {initial : OnceMap} {w : Guardian} (h : Holds initial w) {i : ℕ}
    {c : Widening} (hc : w.calls[i]? = some c) (hstands : c.stage.standing = true)
    (r : FreshPushReads) : Holds initial (readFresh w i c r) := by
  unfold Family.readFresh
  split
  · obtain ⟨m, hm, _⟩ := h.map
    simp only [hm]
    rw [← hm]
    refine h.move hc (.inr ?_) ?_ w.device
    · rw [hstands]
      rfl
    · exact fun hthrow => by cases hthrow
  · exact h.conclude hc hstands .failed w.device

/-- A first save that fails ends the call; and one name is no key of an object. -/
def Allowed (_ : Guardian) : Happening → Prop
  | .call depId extraOnce => onceEntries extraOnce ≠ [] → toLowerCase depId ≠ protoName
  | .added _ saved => saved = true
  | _ => True

theorem Holds.begin {initial : OnceMap} {w : Guardian} (h : Holds initial w) {depId : JsString}
    {extraOnce : ExtraOnce} (hid : onceEntries extraOnce ≠ [] → toLowerCase depId ≠ protoName) :
    Holds initial (begin w depId extraOnce) := by
  obtain ⟨⟨m, hm, hproto, hbag⟩, hlower, hthrew⟩ := h
  have hcalls : ∀ (P : Widening → Prop) (c : Widening), (∀ d ∈ w.calls, P d) → P c →
      ∀ d ∈ w.calls ++ [c], P d := by
    intro P c hold hnew d hd
    rcases List.mem_append.1 hd with hd | hd
    · exact hold d hd
    · exact List.mem_singleton.1 hd ▸ hnew
  unfold Family.begin
  dsimp only
  by_cases hnone : onceEntries extraOnce = []
  · rw [if_pos hnone]
    refine ⟨⟨m, hm, hproto, ?_⟩, hcalls _ _ hlower (toLowerCase_toLowerCase depId),
      hcalls _ _ hthrew fun hthrow => by cases hthrow⟩
    intro id
    rw [hbag id, List.map_append, List.sum_append]
    simp [share, hnone]
  · rw [if_neg hnone]
    simp only [hm]
    refine ⟨⟨_, rfl, (bag_foldl_add (toLowerCase depId) depId ?_ _ m hproto).2, ?_⟩,
      hcalls _ _ hlower (toLowerCase_toLowerCase depId),
      hcalls _ _ hthrew fun hthrow => by cases hthrow⟩
    · rw [toLowerCase_toLowerCase]
      exact hid hnone
    · intro id
      rw [(bag_foldl_add (toLowerCase depId) id (by
        rw [toLowerCase_toLowerCase]; exact hid hnone) _ m hproto).1, hbag id, List.map_append,
        List.sum_append, toLowerCase_toLowerCase, add_assoc]
      simp [share, Stage.standing]

theorem Holds.onCall {initial : OnceMap} {w : Guardian} (h : Holds initial w) {i : ℕ}
    {step : Widening → Guardian} (hstep : ∀ c, w.calls[i]? = some c → Holds initial (step c)) :
    Holds initial (onCall w i step) := by
  unfold Family.onCall
  cases hc : w.calls[i]? with
  | none => exact h
  | some c => exact hstep c hc

/-- Every step keeps the entries accounted for. -/
theorem Holds.next {initial : OnceMap} {w : Guardian} {a : Happening} (h : Holds initial w)
    (ha : Allowed w a) : Holds initial (next w a) := by
  cases a with
  | call depId extraOnce => exact h.begin ha
  | added i saved =>
    apply h.onCall
    intro c hc
    unfold onAdded
    split
    · next hstage =>
      have hsaved : saved = true := ha
      refine h.move hc (.inr ?_) ?_ w.device
      · rw [hsaved, hstage]
        rfl
      · rw [hsaved]
        exact fun hthrow => by cases hthrow
    · exact h
  | read i reads =>
    apply h.onCall
    intro c hc
    unfold onRead
    split
    · next hstage =>
      have hstands : c.stage.standing = true := by rw [hstage]; rfl
      cases reads with
      | some r => exact h.readFresh hc hstands r
      | none => exact h.conclude hc hstands .failed w.device
    · exact h
  | pushed i s =>
    apply h.onCall
    intro c hc
    unfold onPushed
    split
    · next family target hstage =>
      have hstands : c.stage.standing = true := by rw [hstage]; rfl
      exact h.conclude hc hstands _ _
    · exact h
  | removed i =>
    apply h.onCall
    intro c hc
    unfold onRemoved
    split
    · next hstage =>
      refine h.move hc (.inr ?_) ?_ w.device
      · rw [hstage]
        rfl
      · exact fun hthrow => by cases hthrow
    · exact h

/-! ## What is left when all calls have ended -/

/-- Has the call ended? -/
def Stage.settled : Stage → Bool
  | .returned _ | .threw => true
  | _ => false

/-- Did the call return `'ok'`? -/
def Stage.wentWell : Stage → Bool
  | .returned .ok => true
  | _ => false

/-- The entries that calls which returned `'ok'` brought for a dependant. -/
def confirmedFor (calls : List Widening) (depId : JsString) : Multiset OnceEntry :=
  ((calls.filter fun c => c.stage.wentWell && c.id = toLowerCase depId).map
    fun c => (c.extra : Multiset OnceEntry)).sum

theorem sum_share_eq {calls : List Widening}
    (hsettled : ∀ c ∈ calls, c.stage.settled = true) (hfine : ∀ c ∈ calls, c.stage ≠ .threw) :
    (calls.map (share (toLowerCase depId))).sum = confirmedFor calls depId := by
  unfold confirmedFor
  induction calls with
  | nil => rfl
  | cons c calls ih =>
    have hrest := ih (fun d hd => hsettled d (List.mem_cons_of_mem c hd))
      fun d hd => hfine d (List.mem_cons_of_mem c hd)
    have hstands : c.stage.standing = c.stage.wentWell := by
      have hc := hsettled c List.mem_cons_self
      have hc' := hfine c List.mem_cons_self
      cases hstage : c.stage with
      | returned result => cases result <;> rfl
      | threw => exact absurd hstage hc'
      | adding => rw [hstage] at hc; cases hc
      | locked => rw [hstage] at hc; cases hc
      | pushing family target => rw [hstage] at hc; cases hc
      | removing => rw [hstage] at hc; cases hc
    rw [List.map_cons, List.sum_cons, hrest, List.filter_cons]
    by_cases hmine : c.stage.wentWell = true ∧ c.id = toLowerCase depId
    · simp [share, hstands, hmine]
    · rw [share, hstands, if_neg hmine, if_neg (by simpa using hmine), zero_add]

/-- The guardian with this map, before any call. -/
def Guardian.initial (map : OnceMap) (device : World) : Guardian := ⟨some map, device, []⟩

/-- Once all calls have ended, the map holds the initial entries and those of the calls that
returned `'ok'`, and no call has thrown: where no first save fails and no id is the one name that
is no key. -/
theorem approvedOnce_exact {initial : OnceMap} {device : World} {w : Guardian}
    (hinitial : protoName ∉ initial.keys)
    (hrun : Reaches next Allowed (Guardian.initial initial device) w)
    (hsettled : ∀ c ∈ w.calls, c.stage.settled = true) :
    (∃ m, w.store = some m ∧ ∀ depId,
      entriesFor m depId = entriesFor initial depId + confirmedFor w.calls depId) ∧
    ∀ c ∈ w.calls, c.stage ≠ .threw := by
  have hstart : Holds initial (Guardian.initial initial device) :=
    ⟨⟨initial, rfl, hinitial, fun _ => (add_zero _).symm⟩, fun _ hc => (by cases hc),
      fun _ hc => (by cases hc)⟩
  obtain ⟨⟨m, hm, _, hbag⟩, _, hfine⟩ :=
    hrun.invariant hstart fun t a ht ha => ht.next ha
  refine ⟨⟨m, hm, fun depId => ?_⟩, hfine⟩
  rw [← sum_share_eq depId hsettled hfine]
  exact hbag (toLowerCase depId)

/-- An entry approved for ten minutes. -/
def sampleEntry : OnceEntry := ⟨30311, 1800000600⟩

/-- A Heartwood with no slots. -/
def bareDevice : World := { device := ⟨[], List.nodup_nil⟩ }

/-- Two calls bring an equal entry under two spellings, and the fresh reads of both fail. -/
def refusedTwice : Guardian :=
  [.call (lit "Kid") (.one sampleEntry), .call (lit "kid") (.one sampleEntry), .added 1 true,
    .added 0 true, .read 0 none, .read 1 none, .removed 0, .removed 1].foldl next
    (Guardian.initial .empty bareDevice)

theorem approvedOnce_exact_refusedTwice :
    (∃ m, refusedTwice.store = some m ∧ ∀ depId,
      entriesFor m depId = entriesFor .empty depId + confirmedFor refusedTwice.calls depId) ∧
    ∀ c ∈ refusedTwice.calls, c.stage ≠ .threw := by
  refine approvedOnce_exact (by decide) (Reaches.run fun n a ha => ?_) (by decide +kernel)
  rcases n with _ | _ | _ | _ | _ | _ | _ | _ | n <;> cases ha
  · exact fun _ => (by decide +kernel)
  · exact fun _ => (by decide +kernel)
  · rfl
  · rfl
  all_goals exact trivial

/-- A call whose first save fails, after the map in memory was updated. -/
def unsaved : Guardian :=
  [.call (lit "kid") (.one sampleEntry), .added 0 false].foldl next
    (Guardian.initial .empty bareDevice)

/-- The call throws and its entry stays, though no call returned `'ok'`. -/
theorem unsaved_entry_stays :
    Reaches next (fun _ _ => True) (Guardian.initial .empty bareDevice) unsaved ∧
      (∀ c ∈ unsaved.calls, c.stage.settled = true) ∧
      unsaved.store.map (fun m => entriesFor m (lit "kid")) = some {sampleEntry} ∧
      entriesFor .empty (lit "kid") + confirmedFor unsaved.calls (lit "kid") = 0 := by
  refine ⟨Reaches.run fun _ _ _ => trivial, by decide +kernel, by decide +kernel, by decide +kernel⟩

end SignetApp.Family
