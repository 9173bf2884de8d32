import SignetApp.Collections.OrderedMap
import SignetApp.Js.Value

/-!
# Lamport clock and log union

`contacts-v2-clock.ts`. Rows are objects whose `operationId` and `logicalClock` may be anything:
a log is merged before its operations are validated.
-/

namespace SignetApp.Contacts

open SignetApp.Js

/-- A row of an unvalidated log. -/
abbrev RawOperation := JsObject

def RawOperation.operationId (op : RawOperation) : JsValue := (JsValue.obj op).get "operationId"

/-- What this device has seen: the highest clock and every operation id it holds. -/
structure OpFrontier where
  maxClock : ℕ
  opIds : List JsValue

/-- `safeClock(value)`: a positive finite number rounded down, otherwise zero. -/
def safeClock : JsValue → ℕ
  | .num (.finite q) => if q ≤ 0 then 0 else ⌊q⌋.toNat
  | _ => 0

/-- The clock to stamp on the next locally authored operation. -/
def nextClock (own observedMax : JsValue) : ℕ := max (safeClock own) (safeClock observedMax) + 1

def frontierOf (ops : List RawOperation) : OpFrontier :=
  ops.foldl (fun frontier (op : RawOperation) =>
    { maxClock := max frontier.maxClock (safeClock ((JsValue.obj op).get "logicalClock"))
      opIds := insertNew frontier.opIds op.operationId }) ⟨0, []⟩

/-- Set every row under its operation id. -/
def putAll (byId : OrderedMap JsValue RawOperation) (ops : List RawOperation) :
    OrderedMap JsValue RawOperation :=
  ops.foldl (fun byId op => byId.set op.operationId op) byId

/-- `mergeOps(own, remote).ops`: the union by operation id. The local copy wins a duplicate. -/
def mergedRows (own remote : List RawOperation) : List RawOperation :=
  (putAll (putAll .empty remote) own).entries.map Prod.snd

def mergeOps (own remote : List RawOperation) : List RawOperation × OpFrontier :=
  (mergedRows own remote, frontierOf (mergedRows own remote))

/-! ## The union -/

/-- Two rows with one operation id are one row. -/
def IdsAgree (rows : List RawOperation) : Prop :=
  ∀ a ∈ rows, ∀ b ∈ rows, a.operationId = b.operationId → a = b

theorem IdsAgree.mono {rows rows' : List RawOperation} (h : IdsAgree rows) (hsub : rows' ⊆ rows) :
    IdsAgree rows' :=
  fun a ha b hb => h a (hsub ha) b (hsub hb)

/-- Every row stands under its own id. -/
def Filed (byId : OrderedMap JsValue RawOperation) : Prop :=
  ∀ id op, byId.get id = some op → op.operationId = id

theorem filed_putAll {byId : OrderedMap JsValue RawOperation} (h : Filed byId)
    (ops : List RawOperation) : Filed (putAll byId ops) := by
  induction ops generalizing byId with
  | nil => exact h
  | cons op ops ih =>
    refine ih fun id row hrow => ?_
    rw [OrderedMap.get_set] at hrow
    split at hrow
    · next hid => cases hrow; exact hid.symm
    · exact h id row hrow

/-- A row is in the map after `putAll` when it was filed last under its id. -/
theorem get_putAll {rows : List RawOperation} (hrows : IdsAgree rows)
    {byId : OrderedMap JsValue RawOperation} (hfiled : Filed byId)
    (hsub : ∀ id op, byId.get id = some op → op ∈ rows) {ops : List RawOperation}
    (hops : ops ⊆ rows) (op : RawOperation) :
    (putAll byId ops).get op.operationId = some op
      ↔ byId.get op.operationId = some op ∨ op ∈ ops := by
  induction ops generalizing byId with
  | nil => simp [putAll]
  | cons head ops ih =>
    have hhead : head ∈ rows := hops List.mem_cons_self
    have hfiled' : Filed (byId.set head.operationId head) := filed_putAll hfiled [head]
    have hsub' : ∀ id op, (byId.set head.operationId head).get id = some op → op ∈ rows := by
      intro id row hrow
      rw [OrderedMap.get_set] at hrow
      split at hrow
      · cases hrow; exact hhead
      · exact hsub id row hrow
    have hops' : ops ⊆ rows := fun _ h => hops (List.mem_cons_of_mem _ h)
    change (putAll (byId.set head.operationId head) ops).get op.operationId = some op ↔ _
    rw [ih hfiled' hsub' hops', OrderedMap.get_set, List.mem_cons]
    by_cases hid : op.operationId = head.operationId
    · rw [if_pos hid, Option.some.injEq]
      constructor
      · rintro (rfl | h)
        · exact .inr (.inl rfl)
        · exact .inr (.inr h)
      · rintro (h | h | h)
        · exact .inl (hrows head hhead op (hsub _ _ h) hid.symm)
        · exact .inl h.symm
        · exact .inr h
    · have hne : op ≠ head := fun h => hid (h ▸ rfl)
      rw [if_neg hid]
      simp [hne]

theorem filed_empty : Filed (.empty : OrderedMap JsValue RawOperation) := by
  intro id op h
  cases h

theorem mem_mergedRows_iff {own remote : List RawOperation} (h : IdsAgree (own ++ remote))
    {op : RawOperation} : op ∈ mergedRows own remote ↔ op ∈ own ∨ op ∈ remote := by
  have hremote : ∀ row : RawOperation, (putAll .empty remote).get row.operationId = some row
      ↔ row ∈ remote := by
    intro row
    rw [get_putAll h filed_empty (fun _ _ h => by cases h) (fun _ h => List.mem_append_right _ h)]
    simp
  have hfiled : Filed (putAll .empty remote) := filed_putAll filed_empty remote
  have hsub : ∀ id row, (putAll .empty remote).get id = some row → row ∈ own ++ remote := by
    intro id row hrow
    have hid := hfiled id row hrow
    rw [← hid] at hrow
    exact List.mem_append_right _ ((hremote row).mp hrow)
  have hown : own ⊆ own ++ remote := fun _ h => List.mem_append_left _ h
  have hall := get_putAll h hfiled hsub hown op
  rw [hremote] at hall
  rw [mergedRows, List.mem_map, or_comm, ← hall]
  constructor
  · rintro ⟨⟨id, row⟩, hmem, rfl⟩
    rw [OrderedMap.mem_entries_iff] at hmem
    have hid := filed_putAll hfiled own id row hmem
    rw [← hid] at hmem
    exact hmem
  · exact fun hget => ⟨(op.operationId, op), OrderedMap.mem_entries_iff.mpr hget, rfl⟩

theorem nodup_operationId_mergedRows (own remote : List RawOperation) :
    ((mergedRows own remote).map RawOperation.operationId).Nodup := by
  have hfiled := filed_putAll (filed_putAll filed_empty remote) own
  have hkeys : (mergedRows own remote).map RawOperation.operationId
      = (putAll (putAll .empty remote) own).keys := by
    rw [mergedRows, OrderedMap.keys, List.map_map]
    refine List.map_congr_left fun e he => ?_
    exact hfiled e.1 e.2 (OrderedMap.mem_entries_iff.mp he)
  rw [hkeys]
  exact OrderedMap.nodup_keys _

theorem nodup_mergedRows (own remote : List RawOperation) : (mergedRows own remote).Nodup :=
  List.Nodup.of_map _ (nodup_operationId_mergedRows own remote)

end SignetApp.Contacts
