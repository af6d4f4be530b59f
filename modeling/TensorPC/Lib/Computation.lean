import Mathlib.Tactic.Common

namespace TensorPC.Computation

/-!
# Stateful computations that may raise

`EStateM` keeps the state when a computation raises.  `Moves relation` says
that every outcome, a result or an error, ends in a state the start state is
related to; for a preorder it is closed under sequencing.
-/

variable {ε σ α β γ : Type}

/-- The state in which a computation ends, with a result or with an error. -/
def stateAfter
    (computation : EStateM ε σ α)
    (start : σ) : σ :=
  match computation start with
  | .ok _ state => state
  | .error _ state => state

/-- Every outcome of the computation is in a state related to its start. -/
def Moves
    (relation : σ → σ → Prop)
    (computation : EStateM ε σ α) : Prop :=
  ∀ start, relation start (stateAfter computation start)

section StateAfter

variable (start state : σ)

@[simp] theorem stateAfter_pure (value : α) :
    stateAfter (pure value : EStateM ε σ α) start = start :=
  rfl

@[simp] theorem stateAfter_throw (raised : ε) :
    stateAfter (throw raised : EStateM ε σ α) start = start :=
  rfl

@[simp] theorem stateAfter_set :
    stateAfter (set state : EStateM ε σ PUnit) start = state :=
  rfl

@[simp] theorem stateAfter_modify (change : σ → σ) :
    stateAfter (modify change : EStateM ε σ PUnit) start = change start :=
  rfl

@[simp] theorem stateAfter_get_bind (next : σ → EStateM ε σ β) :
    stateAfter (get >>= next) start = stateAfter (next start) start :=
  rfl

@[simp] theorem stateAfter_set_bind (next : PUnit → EStateM ε σ β) :
    stateAfter (set state >>= next) start = stateAfter (next ⟨⟩) state :=
  rfl

@[simp] theorem stateAfter_modify_bind
    (change : σ → σ)
    (next : PUnit → EStateM ε σ β) :
    stateAfter (modify change >>= next) start = stateAfter (next ⟨⟩) (change start) :=
  rfl

theorem stateAfter_bind
    (first : EStateM ε σ α)
    (next : α → EStateM ε σ β) :
    stateAfter (first >>= next) start =
      match first start with
      | .ok value middle => stateAfter (next value) middle
      | .error _ middle => middle := by
  simp only [stateAfter, bind, EStateM.bind]
  cases first start <;> rfl

end StateAfter

/-- Outcomes can be compared. -/
instance decidableEqResult [DecidableEq ε] [DecidableEq σ] [DecidableEq α] :
    DecidableEq (EStateM.Result ε σ α)
  | .ok first start, .ok second final =>
      decidable_of_iff (first = second ∧ start = final) (by simp)
  | .error first start, .error second final =>
      decidable_of_iff (first = second ∧ start = final) (by simp)
  | .ok _ _, .error _ _ => isFalse (by simp)
  | .error _ _, .ok _ _ => isFalse (by simp)

theorem bind_eq_ok
    {first : EStateM ε σ α}
    {next : α → EStateM ε σ β}
    {start final : σ}
    {result : β} :
    (first >>= next) start = .ok result final ↔
      ∃ value middle,
        first start = .ok value middle ∧ next value middle = .ok result final := by
  simp only [bind, EStateM.bind]
  cases first start with
  | ok value middle =>
      simp
  | error raised middle =>
      simp

theorem bind_of_ok
    {first : EStateM ε σ α}
    {next : α → EStateM ε σ β}
    {start middle : σ}
    {value : α}
    (computed : first start = .ok value middle) :
    (first >>= next) start = next value middle := by
  simp [bind, EStateM.bind, computed]

theorem bind_of_error
    {first : EStateM ε σ α}
    {next : α → EStateM ε σ β}
    {start middle : σ}
    {raised : ε}
    (computed : first start = .error raised middle) :
    (first >>= next) start = .error raised middle := by
  simp [bind, EStateM.bind, computed]

theorem map_of_ok
    {computation : EStateM ε σ α}
    {f : α → β}
    {start after : σ}
    {value : α}
    (computed : computation start = .ok value after) :
    (f <$> computation) start = .ok (f value) after := by
  simp [Functor.map, EStateM.map, computed]

theorem map_of_error
    {computation : EStateM ε σ α}
    {f : α → β}
    {start after : σ}
    {raised : ε}
    (computed : computation start = .error raised after) :
    (f <$> computation) start = .error raised after := by
  simp [Functor.map, EStateM.map, computed]

@[simp] theorem pure_eq_ok
    {value result : α}
    {start final : σ} :
    (pure value : EStateM ε σ α) start = .ok result final ↔
      value = result ∧ start = final := by
  simp [pure, EStateM.pure]

theorem throw_apply
    (raised : ε)
    (start : σ) :
    (throw raised : EStateM ε σ α) start = .error raised start :=
  rfl

theorem get_apply (start : σ) : (get : EStateM ε σ σ) start = .ok start start :=
  rfl

theorem set_apply
    (state start : σ) :
    (set state : EStateM ε σ PUnit) start = .ok ⟨⟩ state :=
  rfl

theorem modify_apply
    (change : σ → σ)
    (start : σ) :
    (modify change : EStateM ε σ PUnit) start = .ok ⟨⟩ (change start) :=
  rfl

@[simp] theorem throw_ne_ok
    {raised : ε}
    {result : α}
    {start final : σ} :
    (throw raised : EStateM ε σ α) start ≠ .ok result final := by
  simp [throw_apply]

@[simp] theorem get_eq_ok
    {start result final : σ} :
    (get : EStateM ε σ σ) start = .ok result final ↔
      start = result ∧ start = final := by
  simp [get_apply]

@[simp] theorem modify_eq_ok
    {change : σ → σ}
    {start final : σ}
    {result : PUnit} :
    (modify change : EStateM ε σ PUnit) start = .ok result final ↔
      change start = final := by
  simp [modify_apply]

namespace Moves

variable {relation : σ → σ → Prop}

section Preorder

variable [IsPreorder σ relation]

theorem pure (value : α) :
    Moves relation (Pure.pure value : EStateM ε σ α) :=
  fun start => refl_of relation start

theorem throw (raised : ε) :
    Moves relation (MonadExcept.throw raised : EStateM ε σ α) :=
  fun start => refl_of relation start

theorem get :
    Moves relation (MonadState.get : EStateM ε σ σ) :=
  fun start => refl_of relation start

theorem bind
    {first : EStateM ε σ α}
    {next : α → EStateM ε σ β}
    (firstMoves : Moves relation first)
    (nextMoves : ∀ value, Moves relation (next value)) :
    Moves relation (first >>= next) := by
  intro start
  have moved := firstMoves start
  simp only [stateAfter, Bind.bind, EStateM.bind] at moved ⊢
  cases computed : first start with
  | error raised middle =>
      simpa [computed] using moved
  | ok value middle =>
      simp only [computed] at moved ⊢
      exact trans_of relation moved (nextMoves value middle)

theorem mapM
    {f : α → EStateM ε σ β}
    (moves : ∀ item, Moves relation (f item))
    (items : List α) :
    Moves relation (items.mapM f) := by
  induction items with
  | nil =>
      exact pure []
  | cons item rest inductionHypothesis =>
      rw [List.mapM_cons]
      exact bind (moves item) (fun _ => bind inductionHypothesis (fun _ => pure _))

theorem foldlM
    {f : β → α → EStateM ε σ β}
    (moves : ∀ carried item, Moves relation (f carried item))
    (items : List α)
    (start : β) :
    Moves relation (items.foldlM f start) := by
  induction items generalizing start with
  | nil =>
      exact pure start
  | cons item rest inductionHypothesis =>
      rw [List.foldlM_cons]
      exact bind (moves start item) (fun carried => inductionHypothesis carried)

theorem forM
    {f : α → EStateM ε σ PUnit}
    (moves : ∀ item, Moves relation (f item))
    (items : List α) :
    Moves relation (items.forM f) := by
  induction items with
  | nil =>
      exact pure PUnit.unit
  | cons item rest inductionHypothesis =>
      exact bind (moves item) (fun _ => inductionHypothesis)

end Preorder

theorem modify
    {change : σ → σ}
    (respects : ∀ state, relation state (change state)) :
    Moves relation (modify change : EStateM ε σ PUnit) :=
  fun start => respects start

end Moves

/-! ## Total correctness -/

/-- The computation returns, with a result and a state that meet the postcondition. -/
def Returns
    (computation : EStateM ε σ α)
    (post : α → σ → Prop)
    (start : σ) : Prop :=
  match computation start with
  | .ok result final => post result final
  | .error _ _ => False

section Returns

variable {post : α → σ → Prop} {start : σ}

theorem returns_iff
    {computation : EStateM ε σ α} :
    Returns computation post start ↔
      ∃ result final, computation start = .ok result final ∧ post result final := by
  simp only [Returns]
  cases computation start <;> simp

@[simp] theorem returns_pure (value : α) :
    Returns (pure value : EStateM ε σ α) post start ↔ post value start :=
  Iff.rfl

@[simp] theorem returns_get {post : σ → σ → Prop} :
    Returns (get : EStateM ε σ σ) post start ↔ post start start :=
  Iff.rfl

@[simp] theorem returns_set
    (state : σ)
    {post : PUnit → σ → Prop} :
    Returns (set state : EStateM ε σ PUnit) post start ↔ post ⟨⟩ state :=
  Iff.rfl

@[simp] theorem returns_modify
    (change : σ → σ)
    {post : PUnit → σ → Prop} :
    Returns (modify change : EStateM ε σ PUnit) post start ↔ post ⟨⟩ (change start) :=
  Iff.rfl

/-- A sequence returns when its first part ends where the second one returns. -/
@[simp] theorem returns_bind
    {first : EStateM ε σ β}
    {next : β → EStateM ε σ α} :
    Returns (first >>= next) post start ↔
      Returns first (fun value => Returns (next value) post) start := by
  simp only [Returns, bind, EStateM.bind]
  cases first start <;> rfl

@[simp] theorem returns_ite
    {condition : Prop}
    [Decidable condition]
    {first second : EStateM ε σ α} :
    Returns (if condition then first else second) post start ↔
      if condition then Returns first post start else Returns second post start := by
  split <;> rfl

theorem Returns.mono
    {computation : EStateM ε σ α}
    {weaker : α → σ → Prop}
    (returns : Returns computation post start)
    (implies : ∀ result final, post result final → weaker result final) :
    Returns computation weaker start := by
  obtain ⟨result, final, computed, holds⟩ := returns_iff.mp returns
  exact returns_iff.mpr ⟨result, final, computed, implies result final holds⟩

theorem Returns.stateAfter
    {computation : EStateM ε σ α}
    {holds : σ → Prop}
    (returns : Returns computation (fun _ => holds) start) :
    holds (stateAfter computation start) := by
  obtain ⟨result, final, computed, ended⟩ := returns_iff.mp returns
  simpa only [Computation.stateAfter, computed] using ended

end Returns

end TensorPC.Computation
