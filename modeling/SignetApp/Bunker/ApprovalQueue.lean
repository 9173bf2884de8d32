import SignetApp.Concurrency.Reach
import Mathlib.Data.List.Nodup

/-!
# The approval queue

`useBunkerServer.ts`: the limit on waiting requests, the prompt path, `resolveApproval`, the
generation of `publishResponse` and the tear-down of a serving session. What a request asks for is up
to the run; what counts is when its handler looks at the queue, at the counter and at the generation.
React holds an update of the queue until it renders, and runs the updater then.
-/

namespace SignetApp.Bunker.ApprovalQueue

def pendingApprovalsCap : ℕ := 20

/-- An entry of `activeRequestRef` or of `pendingApprovals`: `received` is the serving session its
request came in. -/
structure Entry where
  handle : ℕ
  received : ℕ
  deriving DecidableEq

/-- A call of `setPendingApprovals`. -/
inductive Update where
  | append (entry : Entry)
  /-- The updater of `resolveApproval`, which also sets the counter. -/
  | remove (handle : ℕ)
  | clear
  deriving DecidableEq

/-- Where a handler, or the resolution of an approval, waits. -/
inductive Stage where
  /-- Before the limit is looked at. -/
  | arriving
  | checked
  /-- The signer is at work without a prompt. -/
  | signing
  /-- The counter is raised; the client's row is being read. -/
  | raised (handle : ℕ)
  /-- A denial is being remembered. -/
  | denying (generation : ℕ)
  /-- An approval reads the client's row. -/
  | reading (generation : ℕ)
  /-- The signer is at work on an approved request. -/
  | approved (generation : ℕ)
  /-- `publishResponse` builds the response. -/
  | building (generation : ℕ)
  | ended
  deriving DecidableEq

structure Task where
  received : ℕ
  stage : Stage
  deriving DecidableEq

inductive Kind where
  | shown
  | signed
  | answered
  /-- "serving stopped", on the socket that is being closed. -/
  | stopped
  deriving DecidableEq

/-- What was done with a request received in one session, and in which session. -/
structure Effect where
  kind : Kind
  received : ℕ
  session : ℕ
  deriving DecidableEq

structure World where
  /-- `responseGenerationRef`: the serving session. -/
  generation : ℕ
  queueSize : ℕ
  handleCounter : ℕ
  /-- `activeRequestRef`. -/
  active : List Entry
  /-- `pendingApprovals`, as React has it. -/
  pending : List Entry
  /-- The updates React holds, oldest first. -/
  updates : List Update
  tasks : List Task
  log : List Effect
  /-- The handles resolved so far. -/
  resolved : List ℕ
  deriving DecidableEq

def World.start : World where
  generation := 0
  queueSize := 0
  handleCounter := 0
  active := []
  pending := []
  updates := []
  tasks := []
  log := []
  resolved := []

/-! ## Handlers -/

def World.move (w : World) (i : ℕ) (t : Task) (stage : Stage) : World :=
  { w with tasks := w.tasks.set i { t with stage } }

def World.record (w : World) (kind : Kind) (t : Task) : World :=
  { w with log := w.log ++ [⟨kind, t.received, w.generation⟩] }

/-- `publishResponse` is called: it takes the generation of that moment. -/
def World.publish (w : World) (i : ℕ) (t : Task) : World := w.move i t (.building w.generation)

/-- The same, for a caller that looks first whether its session still runs. -/
def World.publishIf (w : World) (i : ℕ) (t : Task) (generation : ℕ) : World :=
  if generation = w.generation then w.publish i t else w.move i t .ended

/-- The queue cap. -/
def World.check (w : World) (i : ℕ) (t : Task) : World :=
  if pendingApprovalsCap ≤ w.queueSize then w.publish i t else w.move i t .checked

/-- The prompt path, up to the read of the client's row. -/
def World.raise (w : World) (i : ℕ) (t : Task) : World :=
  let handle := w.handleCounter + 1
  { w.move i t (.raised handle) with
    queueSize := w.queueSize + 1
    handleCounter := handle
    active := w.active ++ [⟨handle, t.received⟩] }

/-- `setPendingApprovals`, and `onApprovalPending`. -/
def World.insert (w : World) (i : ℕ) (t : Task) (handle : ℕ) : World :=
  { (w.move i t .ended).record .shown t with
    updates := w.updates ++ [.append ⟨handle, t.received⟩] }

/-- An answer without a signature: a refusal, a result, or an error. -/
def World.answer (w : World) (i : ℕ) (t : Task) : World :=
  match t.stage with
  | .arriving | .checked | .signing | .reading _ => w.publish i t
  | .denying generation | .approved generation => w.publishIf i t generation
  | _ => w

def World.sign (w : World) (i : ℕ) (t : Task) : World :=
  match t.stage with
  | .checked => w.move i t .signing
  | .reading generation => w.move i t (.approved generation)
  | _ => w

/-- The signer is back. -/
def World.signed (w : World) (i : ℕ) (t : Task) : World :=
  match t.stage with
  | .signing => (w.publish i t).record .signed t
  | .approved generation => (w.publishIf i t generation).record .signed t
  | _ => w

/-- The response is built. -/
def World.built (w : World) (i : ℕ) (t : Task) (generation : ℕ) : World :=
  if generation = w.generation then (w.move i t .ended).record .answered t else w.move i t .ended

/-- `resolveApproval`, up to its first wait. -/
def World.resolve (w : World) (handle : ℕ) (approve : Bool) : World :=
  match w.active.find? fun e => e.handle = handle with
  | none => w
  | some e =>
    { w with
      active := w.active.filter fun e => e.handle ≠ handle
      resolved := w.resolved ++ [handle]
      updates := w.updates ++ [.remove handle]
      tasks := w.tasks ++
        [⟨e.received, if approve then .reading w.generation else .denying w.generation⟩] }

/-- React runs the oldest update it holds. -/
def World.react (w : World) : World :=
  match w.updates with
  | [] => w
  | .append e :: updates => { w with updates, pending := w.pending ++ [e] }
  | .remove handle :: updates =>
    let next := w.pending.filter fun e => e.handle ≠ handle
    { w with updates, pending := next, queueSize := next.length }
  | .clear :: updates => { w with updates, pending := [] }

/-- The tear-down of the subscription, with the notice to whom still waited. -/
def World.tearDown (w : World) (reconnectOnly socketOpen : Bool) : World :=
  if reconnectOnly then w
  else
    { w with
      generation := w.generation + 1
      active := []
      queueSize := 0
      updates := w.updates ++ [.clear]
      log := if socketOpen then
          w.log ++ w.active.map fun e => ⟨.stopped, e.received, w.generation⟩
        else w.log }

/-! ## Steps -/

inductive Happening where
  | arrives
  | checks (i : ℕ)
  | raises (i : ℕ)
  | inserts (i : ℕ)
  | answers (i : ℕ)
  | signs (i : ℕ)
  | signed (i : ℕ)
  | built (i : ℕ)
  /-- A handler returns or throws. -/
  | ends (i : ℕ)
  | resolves (handle : ℕ) (approve : Bool)
  | reacts
  | tearDown (reconnectOnly socketOpen : Bool)
  deriving DecidableEq

/-- Task `i`, when there is one. -/
def World.atTask (w : World) (i : ℕ) (f : Task → World) : World :=
  match w.tasks[i]? with
  | some t => f t
  | none => w

def World.next (w : World) : Happening → World
  | .arrives => { w with tasks := w.tasks ++ [⟨w.generation, .arriving⟩] }
  | .checks i => w.atTask i fun t => if t.stage = .arriving then w.check i t else w
  | .raises i => w.atTask i fun t => if t.stage = .checked then w.raise i t else w
  | .inserts i =>
    w.atTask i fun t => match t.stage with
      | .raised handle => w.insert i t handle
      | _ => w
  | .answers i => w.atTask i (w.answer i)
  | .signs i => w.atTask i (w.sign i)
  | .signed i => w.atTask i (w.signed i)
  | .built i =>
    w.atTask i fun t => match t.stage with
      | .building generation => w.built i t generation
      | _ => w
  | .ends i => w.atTask i fun t => w.move i t .ended
  | .resolves handle approve => w.resolve handle approve
  | .reacts => w.react
  | .tearDown reconnectOnly socketOpen => w.tearDown reconnectOnly socketOpen

/-! ## An orderly queue -/

/-- Between its look at the limit and its insertion. -/
def Stage.entering : Stage → Bool
  | .checked | .raised _ => true
  | _ => false

structure Orderly (w : World) : Prop where
  bounded : w.pending.length ≤ pendingApprovalsCap
  /-- The size used for the limit is that of the queue, once React has caught up. -/
  counted : (∀ t ∈ w.tasks, t.stage.entering = false) → w.updates = [] →
    w.queueSize = w.pending.length
  /-- A request is shown, signed for and answered in the session it came in. -/
  current : ∀ e ∈ w.log, e.received = e.session
  waiting : w.updates = [] → ∀ e ∈ w.pending, e.received = w.generation
  once : w.resolved.Nodup

/-! ## Care -/

def Stage.isRaised : Stage → Bool
  | .raised _ => true
  | _ => false

def Update.isRemove : Update → Bool
  | .remove _ => true
  | _ => false

/-- Ended, or building a response. -/
def Stage.leaves : Stage → Bool
  | .building _ | .ended => true
  | _ => false

/-- The limit still holds when the counter is raised; the updater of an approval finds no insertion
outstanding; the read before an insertion succeeds; and nothing but the building of responses is
under way at a tear-down. -/
def Careful (w : World) : Happening → Prop
  | .raises i => ∀ t ∈ w.tasks[i]?, t.stage = .checked → w.queueSize < pendingApprovalsCap
  | .ends i => ∀ t ∈ w.tasks[i]?, t.stage.isRaised = false
  | .reacts => ∀ u ∈ w.updates.head?, u.isRemove = true →
      (∀ t ∈ w.tasks, t.stage.isRaised = false) ∧ ∀ u' ∈ w.updates, u'.isRemove = true
  | .tearDown reconnectOnly _ => reconnectOnly = false → ∀ t ∈ w.tasks, t.stage.leaves = true
  | _ => True

instance (w : World) (a : Happening) : Decidable (Careful w a) :=
  match a with
  | .raises i =>
    inferInstanceAs (Decidable (∀ t ∈ w.tasks[i]?, t.stage = .checked →
      w.queueSize < pendingApprovalsCap))
  | .ends i => inferInstanceAs (Decidable (∀ t ∈ w.tasks[i]?, t.stage.isRaised = false))
  | .reacts =>
    inferInstanceAs (Decidable (∀ u ∈ w.updates.head?, u.isRemove = true →
      (∀ t ∈ w.tasks, t.stage.isRaised = false) ∧ ∀ u' ∈ w.updates, u'.isRemove = true))
  | .tearDown reconnectOnly _ =>
    inferInstanceAs (Decidable (reconnectOnly = false → ∀ t ∈ w.tasks, t.stage.leaves = true))
  | .arrives | .checks _ | .inserts _ | .answers _ | .signs _ | .signed _ | .built _
  | .resolves _ _ => isTrue trivial

end SignetApp.Bunker.ApprovalQueue
