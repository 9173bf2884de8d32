import Mathlib.Algebra.BigOperators.Group.List.Basic
import Mathlib.Logic.Relation

/-!
# Interleaved asynchronous tasks

An asynchronous function is a tree of atomic actions on a shared state. Between two of its actions
any other task may act, and at any of them the task may be dropped for good, as by a crash or a
closed tab. What the surroundings decide (an answer from outside, an interruption) is a choice the
action is given.

`Discipline` is a rely-guarantee argument over such tasks: an invariant of the shared state, in
which tasks may own shares; an order in which states evolve; and what every action guarantees about
the states before and after it. `Meets` is its rule for one task, and `sound_of_run` the theorem for
a run of any number of them.
-/

namespace SignetApp

/-- An asynchronous function: atomic, labelled actions, an answer or an exception at the end. -/
inductive Async (ε ℓ σ α : Type) : Type 1 where
  | done (a : α)
  | fail (e : ε)
  | act {γ β : Type} (label : ℓ) (run : γ → σ → β × σ) (next : β → Async ε ℓ σ α)

namespace Async

variable {ε ℓ σ α β γ : Type}

def bind : Async ε ℓ σ α → (α → Async ε ℓ σ β) → Async ε ℓ σ β
  | done a, f => f a
  | fail e, _ => fail e
  | act label run next, f => act label run fun b => (next b).bind f

/-- `catch`. -/
def tryCatch : Async ε ℓ σ α → (ε → Async ε ℓ σ α) → Async ε ℓ σ α
  | done a, _ => done a
  | fail e, handle => handle e
  | act label run next, handle => act label run fun b => (next b).tryCatch handle

instance : Monad (Async ε ℓ σ) where
  pure := done
  bind := bind

instance : MonadExcept ε (Async ε ℓ σ) where
  throw := fail
  tryCatch := tryCatch

theorem bind_assoc {δ : Type} (t : Async ε ℓ σ α) (f : α → Async ε ℓ σ β) (g : β → Async ε ℓ σ δ) :
    (t >>= f) >>= g = t >>= fun a => f a >>= g := by
  induction t with
  | done a => rfl
  | fail e => rfl
  | act label run next ih => exact congrArg (act label run) (funext ih)

/-- A value or an exception already at hand. -/
def ofExcept : Except ε α → Async ε ℓ σ α
  | .ok a => done a
  | .error e => fail e

/-- One action, and its answer. -/
def once (label : ℓ) (run : γ → σ → Except ε β × σ) : Async ε ℓ σ β :=
  act label run ofExcept

/-! ## A task on its own -/

/-- A task run alone, from a state to its outcome and the state it leaves. -/
inductive Alone {α : Type} : Async ε ℓ σ α → σ → Except ε α → σ → Prop where
  | done (a : α) (s : σ) : Alone (done a) s (.ok a) s
  | fail (e : ε) (s : σ) : Alone (fail e) s (.error e) s
  | act {γ β : Type} {label : ℓ} {run : γ → σ → β × σ} {next : β → Async ε ℓ σ α} (c : γ) {s s' : σ}
      {o : Except ε α} (h : Alone (next (run c s).1) (run c s).2 o s') :
      Alone (act label run next) s o s'

variable {o : Except ε β} {a : α} {s'' : σ} {f : α → Async ε ℓ σ β}

theorem Alone.bind {t : Async ε ℓ σ α} {s s' : σ} (h : Alone t s (.ok a) s') (hf : Alone (f a) s' o s'') :
    Alone (t >>= f) s o s'' := by
  generalize ho : (Except.ok a : Except ε α) = r at h
  induction h with
  | done b s =>
    cases ho
    exact hf
  | fail e s => cases ho
  | act c h ih => exact .act c (ih hf ho)

theorem Alone.once {label : ℓ} {run : γ → σ → Except ε β × σ} (c : γ) {s : σ} {b : β}
    (h : (run c s).1 = .ok b) : Alone (once label run) s (.ok b) (run c s).2 := by
  refine .act c ?_
  rw [h]
  exact .done b _

theorem Alone.tryCatch {t : Async ε ℓ σ α} {handle : ε → Async ε ℓ σ α} {s s' : σ}
    (h : Alone t s (.ok a) s') : Alone (t.tryCatch handle) s (.ok a) s' := by
  generalize ho : (Except.ok a : Except ε α) = o at h
  induction h with
  | done b s =>
    cases ho
    exact .done a s
  | fail e s => cases ho
  | act c _ ih => exact .act c (ih ho)

theorem Alone.of_bind {t : Async ε ℓ σ α} {s : σ} (h : Alone (t >>= f) s o s'') :
    (∃ e, Alone t s (.error e) s'' ∧ o = .error e) ∨
      ∃ a s', Alone t s (.ok a) s' ∧ Alone (f a) s' o s'' := by
  induction t generalizing s with
  | done a => exact .inr ⟨a, s, .done a s, h⟩
  | fail e =>
    cases h with
    | fail => exact .inl ⟨e, .fail e _, rfl⟩
  | act label run next ih =>
    cases h with
    | act c h =>
      obtain ⟨e, h, ho⟩ | ⟨a, s', h, hf⟩ := ih _ h
      · exact .inl ⟨e, .act c h, ho⟩
      · exact .inr ⟨a, s', .act c h, hf⟩

/-! ## Many tasks -/

/-- What an action did: its label, and the states before and after it. -/
structure Did (ℓ σ : Type) where
  before : σ
  label : ℓ
  after : σ

/-- A run of tasks that may be started at any time, with what was done, the state it reaches and
the tasks under way there. -/
inductive Run (starts : Async ε ℓ σ Unit → Prop) (s₀ : σ) :
    List (Did ℓ σ) → σ → List (Async ε ℓ σ Unit) → Prop where
  | init : Run starts s₀ [] s₀ []
  | start {log s ts t} (h : Run starts s₀ log s ts) (ht : starts t) :
      Run starts s₀ log s (t :: ts)
  | act {log s ts us} {γ β : Type} {label : ℓ} {run : γ → σ → β × σ} {next : β → Async ε ℓ σ Unit}
      (c : γ) (h : Run starts s₀ log s (ts ++ act label run next :: us)) :
      Run starts s₀ (log ++ [⟨s, label, (run c s).2⟩]) (run c s).2
        (ts ++ next (run c s).1 :: us)
  | drop {log s ts t us} (h : Run starts s₀ log s (ts ++ t :: us)) : Run starts s₀ log s (ts ++ us)

section Runs

variable {starts : Async ε ℓ σ Unit → Prop} {s₀ : σ}

/-- A task whose answer nobody waits for. -/
def forget (t : Async ε ℓ σ α) : Async ε ℓ σ Unit := t >>= fun _ => pure ()

theorem Run.head_bind {t : Async ε ℓ σ α} {f : α → Async ε ℓ σ Unit} {s s' : σ} {a : α}
    (ht : Alone t s (.ok a) s') {log ts} (h : Run starts s₀ log s ((t >>= f) :: ts)) :
    ∃ log', Run starts s₀ (log ++ log') s' (f a :: ts) := by
  generalize ho : (Except.ok a : Except ε α) = o at ht
  induction ht generalizing log with
  | done b s =>
    cases ho
    exact ⟨[], by rwa [List.append_nil]⟩
  | fail e s => cases ho
  | act c _ ih =>
    have hact := Run.act c (show Run starts s₀ log _ ([] ++ _ :: ts) from h)
    obtain ⟨log', h'⟩ := ih hact ho
    exact ⟨_, by rwa [← List.append_assoc]⟩

theorem Run.alone_of_head {t : Async ε ℓ σ Unit} {s s' : σ} {o : Except ε Unit} (ht : Alone t s o s')
    {log ts} (h : Run starts s₀ log s (t :: ts)) :
    ∃ log', Run starts s₀ (log ++ log') s' ts := by
  induction ht generalizing log with
  | done a s =>
    have hdrop := Run.drop (show Run starts s₀ log _ ([] ++ _ :: ts) from h)
    exact ⟨[], by rwa [List.append_nil]⟩
  | fail e s =>
    have hdrop := Run.drop (show Run starts s₀ log _ ([] ++ _ :: ts) from h)
    exact ⟨[], by rwa [List.append_nil]⟩
  | act c _ ih =>
    have hact := Run.act c (show Run starts s₀ log _ ([] ++ _ :: ts) from h)
    obtain ⟨log', h'⟩ := ih hact
    exact ⟨_, by rwa [← List.append_assoc]⟩

variable {o : Except ε α}

theorem alone_forget {t : Async ε ℓ σ α} {s s' : σ} (h : Alone t s o s') :
    ∃ o', Alone (forget t) s o' s' := by
  induction h with
  | done a s => exact ⟨_, .done () s⟩
  | fail e s => exact ⟨_, .fail e s⟩
  | act c _ ih =>
    obtain ⟨o', h⟩ := ih
    exact ⟨o', .act c h⟩

theorem Run.alone {t : Async ε ℓ σ α} {s s' : σ} (ht : Alone t s o s')
    (hstart : starts (forget t)) {log ts} (h : Run starts s₀ log s ts) :
    ∃ log', Run starts s₀ (log ++ log') s' ts := by
  obtain ⟨o', ht'⟩ := alone_forget ht
  exact (h.start hstart).alone_of_head ht'

end Runs

end Async

/-! ## Rely and guarantee -/

/-- A rely-guarantee argument. A share `g` is what a task owns of the invariant, as a permission
earned by one action and used by a later one; it may be lost with the task. -/
structure Discipline (ℓ σ G : Type) [AddCommMonoid G] where
  Inv : σ → G → Prop
  Evolves : σ → σ → Prop
  Guarantee : σ → ℓ → σ → Prop
  refl : ∀ s, Evolves s s
  trans : ∀ {s t u}, Evolves s t → Evolves t u → Evolves s u
  drop : ∀ {s g h}, Inv s (g + h) → Inv s h

namespace Discipline

open Async

variable {ε ℓ σ α β γ G : Type} [AddCommMonoid G] (D : Discipline ℓ σ G)

/-- From the state `s` on, owning `g`, the task keeps the discipline and ends in `post`. -/
def Meets (post : Except ε α → σ → G → Prop) : Async ε ℓ σ α → σ → G → Prop
  | .done a, s, g => ∀ s', D.Evolves s s' → post (.ok a) s' g
  | .fail e, s, g => ∀ s', D.Evolves s s' → post (.error e) s' g
  | .act label run next, s, g => ∀ s' h, D.Evolves s s' → D.Inv s' (g + h) →
      ∀ c, D.Guarantee s' label (run c s').2 ∧ D.Evolves s' (run c s').2 ∧
        ∃ g', D.Inv (run c s').2 (g' + h) ∧ Meets post (next (run c s').1) (run c s').2 g'

variable {D} {post : Except ε α → σ → G → Prop} {t : Async ε ℓ σ α} {s s' : σ} {g : G}

theorem Meets.evolve (h : D.Meets post t s g) (hs : D.Evolves s s') : D.Meets post t s' g := by
  cases t with
  | done a => exact fun s'' hs'' => h s'' (D.trans hs hs'')
  | fail e => exact fun s'' hs'' => h s'' (D.trans hs hs'')
  | act label run next => exact fun s'' r hs'' => h s'' r (D.trans hs hs'')

theorem Meets.mono {post' : Except ε α → σ → G → Prop} (h : D.Meets post t s g)
    (hpost : ∀ o s' g', D.Evolves s s' → post o s' g' → post' o s' g') : D.Meets post' t s g := by
  induction t generalizing s g with
  | done a => exact fun s' hs => hpost _ _ _ hs (h s' hs)
  | fail e => exact fun s' hs => hpost _ _ _ hs (h s' hs)
  | act label run next ih =>
    intro s' r hs hinv c
    obtain ⟨hg, hev, g', hinv', hnext⟩ := h s' r hs hinv c
    refine ⟨hg, hev, g', hinv', ih _ hnext fun o s'' g'' hs'' => ?_⟩
    exact hpost o s'' g'' (D.trans hs (D.trans hev hs''))

theorem Meets.bind {f : α → Async ε ℓ σ β} {post' : Except ε β → σ → G → Prop}
    (h : D.Meets post t s g) (hok : ∀ a s' g', post (.ok a) s' g' → D.Meets post' (f a) s' g')
    (herror : ∀ e s' g', post (.error e) s' g' → post' (.error e) s' g') :
    D.Meets post' (t >>= f) s g := by
  induction t generalizing s g with
  | done a => exact hok a s g (h s (D.refl s))
  | fail e => exact fun s' hs => herror e s' g (h s' hs)
  | act label run next ih =>
    intro s' r hs hinv c
    obtain ⟨hg, hev, g', hinv', hnext⟩ := h s' r hs hinv c
    exact ⟨hg, hev, g', hinv', ih _ hnext⟩

theorem Meets.tryCatch {handle : ε → Async ε ℓ σ α} {post' : Except ε α → σ → G → Prop}
    (h : D.Meets post t s g) (hok : ∀ a s' g', post (.ok a) s' g' → post' (.ok a) s' g')
    (herror : ∀ e s' g', post (.error e) s' g' → D.Meets post' (handle e) s' g') :
    D.Meets post' (t.tryCatch handle) s g := by
  induction t generalizing s g with
  | done a => exact fun s' hs => hok a s' g (h s' hs)
  | fail e => exact herror e s g (h s (D.refl s))
  | act label run next ih =>
    intro s' r hs hinv c
    obtain ⟨hg, hev, g', hinv', hnext⟩ := h s' r hs hinv c
    exact ⟨hg, hev, g', hinv', ih _ hnext⟩

theorem meets_done {a : α} (h : ∀ s', D.Evolves s s' → post (.ok a) s' g) :
    D.Meets post (Async.done a) s g := h

theorem meets_fail {e : ε} (h : ∀ s', D.Evolves s s' → post (.error e) s' g) :
    D.Meets post (Async.fail e) s g := h

theorem meets_once {label : ℓ} {run : γ → σ → Except ε α × σ}
    (h : ∀ s' r, D.Evolves s s' → D.Inv s' (g + r) → ∀ c,
      D.Guarantee s' label (run c s').2 ∧ D.Evolves s' (run c s').2 ∧
        ∃ g', D.Inv (run c s').2 (g' + r) ∧
          ∀ s'', D.Evolves (run c s').2 s'' → post (run c s').1 s'' g') :
    D.Meets post (Async.once label run) s g := by
  intro s' r hs hinv c
  obtain ⟨hg, hev, g', hinv', hpost⟩ := h s' r hs hinv c
  refine ⟨hg, hev, g', hinv', ?_⟩
  cases ho : (run c s').1 with
  | ok a =>
    rw [ho] at hpost
    exact hpost
  | error e =>
    rw [ho] at hpost
    exact hpost

/-! ## Answers -/

/-- From the state `s` on, owning `g`, the task keeps the discipline, and answers `Q` if it answers. -/
def Yields (D : Discipline ℓ σ G) (t : Async ε ℓ σ α) (s : σ) (g : G) (Q : α → σ → G → Prop) : Prop :=
  D.Meets (fun o s' g' => ∀ a, o = .ok a → Q a s' g') t s g

section Yields

variable {Q : α → σ → G → Prop} {Q' : β → σ → G → Prop}

theorem yields_pure {a : α} (h : ∀ s', D.Evolves s s' → Q a s' g) :
    D.Yields (pure a : Async ε ℓ σ α) s g Q := by
  apply meets_done
  intro s' hs b hb
  cases hb
  exact h s' hs

theorem yields_throw {e : ε} : D.Yields (throw e : Async ε ℓ σ α) s g Q := by
  apply meets_fail
  intro s' _ a ha
  cases ha

theorem yields_bind {f : α → Async ε ℓ σ β} (h : D.Yields t s g Q)
    (hf : ∀ a s' g', D.Evolves s s' → Q a s' g' → D.Yields (f a) s' g' Q') :
    D.Yields (t >>= f) s g Q' := by
  have h' : D.Meets (fun o s' g' => D.Evolves s s' ∧ ∀ a, o = .ok a → Q a s' g') t s g :=
    Meets.mono h fun _ _ _ hs hq => ⟨hs, hq⟩
  apply Meets.bind h'
  · intro a s' g' ha
    exact hf a s' g' ha.1 (ha.2 a rfl)
  · intro e s' g' _ b hb
    cases hb

variable {run : γ → σ → Except ε α × σ} {label : ℓ}

theorem yields_once (h : ∀ s' r, D.Evolves s s' → D.Inv s' (g + r) → ∀ c,
      D.Guarantee s' label (run c s').2 ∧ D.Evolves s' (run c s').2 ∧ ∃ g', D.Inv (run c s').2 (g' + r) ∧
        ∀ a, (run c s').1 = .ok a → ∀ s'', D.Evolves (run c s').2 s'' → Q a s'' g') :
    D.Yields (Async.once label run) s g Q := by
  apply meets_once
  intro s' r hs hinv c
  obtain ⟨hguarantee, hev, g', hinv', hQ⟩ := h s' r hs hinv c
  exact ⟨hguarantee, hev, g', hinv', fun s'' hs'' a ha => hQ a ha s'' hs''⟩

theorem yields_quiet (hquiet : ∀ c s', (run c s').2 = s') (hlabel : ∀ s', D.Guarantee s' label s')
    (h : ∀ s' c a, D.Evolves s s' → (run c s').1 = .ok a → ∀ s'', D.Evolves s' s'' → Q a s'' g) :
    D.Yields (Async.once label run) s g Q := by
  apply yields_once
  intro s' r hs hinv c
  rw [hquiet]
  exact ⟨hlabel s', D.refl s', g, hinv, fun a ha s'' hs'' => h s' c a hs ha s'' hs''⟩

theorem Yields.tryCatch {t : Async ε ℓ σ Unit} {Q Q' : Unit → σ → G → Prop} (h : D.Yields t s g Q)
    (hQ : ∀ s' g', Q' () s' g') : D.Yields (t.tryCatch fun _ => pure ()) s g Q' := by
  apply Meets.tryCatch h
  · intro _ s' g' _ a _
    exact hQ s' g'
  · intro _ s' g' _
    exact yields_pure fun s'' _ => hQ s'' g'

end Yields

/-- A task that keeps the discipline, whatever it ends in. -/
def Keeps (D : Discipline ℓ σ G) (t : Async ε ℓ σ α) : Prop :=
  ∀ s, D.Meets (fun _ _ _ => True) t s 0

theorem keeps_of_yields {t : Async ε ℓ σ α} {Q : α → σ → G → Prop} (h : ∀ s, D.Yields t s 0 Q) :
    D.Keeps t :=
  fun s => Meets.mono (h s) fun _ _ _ _ _ => trivial

/-! ## Runs -/

/-- What holds between two actions of a run: the shares the tasks own make up the invariant, and
every task keeps the discipline with its own. -/
def Sound (D : Discipline ℓ σ G) (s : σ) (ts : List (Async ε ℓ σ Unit)) : Prop :=
  ∃ owned : List (Async ε ℓ σ Unit × G), owned.map Prod.fst = ts ∧
    D.Inv s (owned.map Prod.snd).sum ∧
    ∀ p ∈ owned, D.Meets (fun _ _ _ => True) p.1 s p.2

private theorem sum_split (xs ys : List G) (g : G) : (xs ++ g :: ys).sum = g + (xs ++ ys).sum := by
  rw [List.sum_append, List.sum_cons, List.sum_append, add_left_comm]

theorem Sound.start {ts : List (Async ε ℓ σ Unit)} {t : Async ε ℓ σ Unit} (h : D.Sound s ts)
    (ht : D.Keeps t) : D.Sound s (t :: ts) := by
  obtain ⟨owned, rfl, hinv, hall⟩ := h
  refine ⟨(t, 0) :: owned, rfl, by simpa using hinv, fun p hp => ?_⟩
  rcases List.mem_cons.mp hp with rfl | hp
  · exact ht s
  · exact hall p hp

variable {ts : List (Async ε ℓ σ Unit)}

theorem Sound.drop {us : List (Async ε ℓ σ Unit)} {t : Async ε ℓ σ Unit}
    (h : D.Sound s (ts ++ t :: us)) : D.Sound s (ts ++ us) := by
  obtain ⟨owned, hts, hinv, hall⟩ := h
  obtain ⟨xs, rest, rfl, rfl, hrest⟩ := List.map_eq_append_iff.mp hts
  obtain ⟨p, ys, rfl, rfl, rfl⟩ := List.map_eq_cons_iff.mp hrest
  refine ⟨xs ++ ys, by simp, ?_, fun q hq => hall q ?_⟩
  · rw [List.map_append, List.map_cons, sum_split, ← List.map_append] at hinv
    exact D.drop hinv
  · rcases List.mem_append.mp hq with hq | hq
    · exact List.mem_append_left _ hq
    · exact List.mem_append_right _ (List.mem_cons_of_mem _ hq)

theorem Sound.act {ts us : List (Async ε ℓ σ Unit)} {δ : Type} {label : ℓ}
    {run : γ → σ → δ × σ} {next : δ → Async ε ℓ σ Unit}
    (h : D.Sound s (ts ++ Async.act label run next :: us)) (c : γ) :
    D.Guarantee s label (run c s).2 ∧ D.Evolves s (run c s).2 ∧
      D.Sound (run c s).2 (ts ++ next (run c s).1 :: us) := by
  obtain ⟨owned, hts, hinv, hall⟩ := h
  obtain ⟨xs, rest, rfl, rfl, hrest⟩ := List.map_eq_append_iff.mp hts
  obtain ⟨p, ys, rfl, hp, rfl⟩ := List.map_eq_cons_iff.mp hrest
  have hmeets := hall p (by simp)
  rw [hp] at hmeets
  rw [List.map_append, List.map_cons, sum_split, ← List.map_append] at hinv
  obtain ⟨hg, hev, g', hinv', hnext⟩ := hmeets s _ (D.refl s) hinv c
  refine ⟨hg, hev, xs ++ (next (run c s).1, g') :: ys, by simp, ?_, fun q hq => ?_⟩
  · rw [List.map_append, List.map_cons, sum_split, ← List.map_append]
    exact hinv'
  · rcases List.mem_append.mp hq with hq | hq
    · exact (hall q (List.mem_append_left _ hq)).evolve hev
    rcases List.mem_cons.mp hq with rfl | hq
    · exact hnext
    · exact (hall q (List.mem_append_right _ (List.mem_cons_of_mem _ hq))).evolve hev

variable {starts : Async ε ℓ σ Unit → Prop} {s₀ : σ}

/-- **The run theorem.** Tasks that keep a discipline one by one keep it together: at every point
of a run the invariant holds, and every action of the run met its guarantee. -/
theorem sound_of_run (h₀ : D.Inv s₀ 0) (hstarts : ∀ t, starts t → D.Keeps t) {log ts}
    (h : Run starts s₀ log s ts) :
    D.Sound s ts ∧ ∀ did ∈ log, D.Guarantee did.before did.label did.after ∧
      D.Evolves did.before did.after := by
  induction h with
  | init =>
    refine ⟨⟨[], rfl, by simpa using h₀, fun p hp => ?_⟩, fun did hdid => ?_⟩
    · cases hp
    · cases hdid
  | start _ ht ih => exact ⟨ih.1.start (hstarts _ ht), ih.2⟩
  | drop _ ih => exact ⟨ih.1.drop, ih.2⟩
  | act c _ ih =>
    obtain ⟨hg, hev, hsound⟩ := ih.1.act c
    refine ⟨hsound, fun did hdid => ?_⟩
    rcases List.mem_append.mp hdid with hdid | hdid
    · exact ih.2 did hdid
    · rw [List.mem_singleton.mp hdid]
      exact ⟨hg, hev⟩

theorem evolves_of_run (h₀ : D.Inv s₀ 0) (hstarts : ∀ t, starts t → D.Keeps t) {log ts}
    (h : Run starts s₀ log s ts) : ∀ did ∈ log, D.Evolves did.before s ∧ D.Evolves did.after s := by
  induction h with
  | init =>
    intro did hdid
    cases hdid
  | start _ _ ih => exact ih
  | drop _ ih => exact ih
  | act c hrun ih =>
    obtain ⟨-, hev, -⟩ := (sound_of_run h₀ hstarts hrun).1.act c
    intro did hdid
    rcases List.mem_append.mp hdid with hdid | hdid
    · obtain ⟨hbefore, hafter⟩ := ih did hdid
      exact ⟨D.trans hbefore hev, D.trans hafter hev⟩
    · rw [List.mem_singleton.mp hdid]
      exact ⟨hev, D.refl _⟩

theorem Sound.inv (h : D.Sound s ts) : ∃ g, D.Inv s g :=
  let ⟨_, _, hinv, _⟩ := h
  ⟨_, hinv⟩

end Discipline

end SignetApp
