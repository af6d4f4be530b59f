import Mathlib.Data.List.Forall2

namespace TensorPC

/-!
# Python exceptions

Fallible source functions return `Except PyError`.  The constructors are the
exception classes the modelled code can raise, with the message text where the
interpreter or the source fixes one.
-/

/-- The exception classes raised by the modelled functions. -/
inductive PyError where
  | assertionError (message : String)
  | valueError (message : String)
  | typeError (message : String)
  | keyError (key : String)
  | indexError
  | nameError (name : String)
  | attributeError (name : String)
  | zeroDivisionError
  | overflowError
  | notImplementedError
  | runtimeError (message : String)
  | osError (name : String)
  | nonTermination
  deriving Repr, DecidableEq

/-- The outcome of a Python computation: a value or a raised exception. -/
abbrev PyResult (α : Type*) := Except PyError α

/-- Python's `assert condition, message`. -/
def pyAssert
    (condition : Bool)
    (message : String) :
    PyResult Unit :=
  if condition then
    .ok ()
  else
    .error (.assertionError message)

/-- A successful `assert` had a true condition. -/
@[simp] theorem pyAssert_eq_ok
    {condition : Bool}
    {message : String}
    {result : Unit} :
    pyAssert condition message = .ok result ↔ condition = true := by
  unfold pyAssert
  cases condition <;> simp

theorem PyResult.bind_eq_ok
    {first : PyResult α}
    {next : α → PyResult β}
    {result : β} :
    (first >>= next) = .ok result ↔
      ∃ value, first = .ok value ∧ next value = .ok result := by
  cases first with
  | error raised =>
      simp [bind, Except.bind]
  | ok value =>
      simp [bind, Except.bind]

theorem PyResult.map_eq_ok
    {f : α → β}
    {outcome : PyResult α}
    {result : β}
    (mapped : outcome.map f = .ok result) :
    ∃ value, outcome = .ok value ∧ f value = result := by
  cases outcome with
  | error raised =>
      cases mapped
  | ok value =>
      exact ⟨value, rfl, Except.ok.inj mapped⟩

/-- A successful loop computed every element of its result. -/
theorem PyResult.mapM_eq_ok
    {f : α → PyResult β}
    {items : List α}
    {results : List β} :
    items.mapM f = .ok results ↔
      List.Forall₂ (fun item result => f item = .ok result) items results := by
  induction items generalizing results with
  | nil =>
      rw [List.forall₂_nil_left_iff]
      simp [pure, Except.pure, eq_comm]
  | cons item rest inductionHypothesis =>
      rw [List.mapM_cons, PyResult.bind_eq_ok]
      constructor
      · rintro ⟨result, computed, remaining⟩
        obtain ⟨others, rest, built⟩ := PyResult.bind_eq_ok.mp remaining
        cases built
        exact .cons computed (inductionHypothesis.mp rest)
      · intro computed
        cases computed with
        | cons first others =>
            exact ⟨_, first, PyResult.bind_eq_ok.mpr
              ⟨_, inductionHypothesis.mpr others, rfl⟩⟩

theorem PyResult.exists_mapM_eq_ok
    {f : α → PyResult β}
    {items : List α}
    (succeeds : ∀ item ∈ items, ∃ result, f item = .ok result) :
    ∃ results, items.mapM f = .ok results := by
  induction items with
  | nil =>
      exact ⟨[], rfl⟩
  | cons item rest inductionHypothesis =>
      obtain ⟨result, computed⟩ := succeeds item List.mem_cons_self
      obtain ⟨others, computedRest⟩ :=
        inductionHypothesis fun other member =>
          succeeds other (List.mem_cons_of_mem _ member)
      refine ⟨result :: others, ?_⟩
      rw [List.mapM_cons, computed, computedRest]
      rfl

theorem PyResult.mapM_of_forall
    {f : α → PyResult β}
    {g : α → β}
    {items : List α}
    (computed : ∀ item ∈ items, f item = .ok (g item)) :
    items.mapM f = .ok (items.map g) := by
  induction items with
  | nil =>
      rfl
  | cons item rest inductionHypothesis =>
      obtain ⟨first, others⟩ := List.forall_mem_cons.mp computed
      rw [List.mapM_cons, first, inductionHypothesis others]
      rfl

theorem PyResult.forM_of_forall
    {check : α → PyResult Unit}
    {items : List α}
    (passes : ∀ item ∈ items, check item = .ok ()) :
    items.forM check = .ok () := by
  induction items with
  | nil =>
      rfl
  | cons item rest inductionHypothesis =>
      have others := inductionHypothesis fun other member =>
        passes other (List.mem_cons_of_mem _ member)
      have first := passes item List.mem_cons_self
      change (check item >>= fun _ => rest.forM check) = .ok ()
      rw [first, others]
      rfl

theorem exists_mem_of_forall₂
    {relation : α → β → Prop}
    {items : List α}
    {results : List β}
    (related : List.Forall₂ relation items results)
    {result : β}
    (member : result ∈ results) :
    ∃ item ∈ items, relation item result := by
  induction related with
  | nil =>
      cases member
  | @cons item first items results head _ inductionHypothesis =>
      rcases List.mem_cons.mp member with isFirst | inRest
      · subst isFirst
        exact ⟨item, List.mem_cons_self, head⟩
      · obtain ⟨other, inItems, holds⟩ := inductionHypothesis inRest
        exact ⟨other, List.mem_cons_of_mem _ inItems, holds⟩

theorem PyResult.exists_of_mapM_eq_ok
    {f : α → PyResult β}
    {items : List α}
    {results : List β}
    (computed : items.mapM f = .ok results) :
    ∀ item ∈ items, ∃ result, f item = .ok result := by
  have related := PyResult.mapM_eq_ok.mp computed
  clear computed
  induction related with
  | nil =>
      simp
  | cons head tail inductionHypothesis =>
      exact List.forall_mem_cons.mpr ⟨⟨_, head⟩, inductionHypothesis⟩

/-- The error that stops a loop is one of an element. -/
theorem PyResult.exists_of_mapM_eq_error
    {f : α → PyResult β}
    {items : List α}
    {raised : PyError}
    (failed : items.mapM f = .error raised) :
    ∃ item ∈ items, f item = .error raised := by
  induction items with
  | nil =>
      cases failed
  | cons item rest inductionHypothesis =>
      rw [List.mapM_cons] at failed
      cases computed : f item with
      | error cause =>
          rw [computed] at failed
          cases failed
          exact ⟨item, List.mem_cons_self, computed⟩
      | ok value =>
          cases others : rest.mapM f with
          | error cause =>
              rw [computed, others] at failed
              cases failed
              obtain ⟨other, member, raises⟩ := inductionHypothesis others
              exact ⟨other, List.mem_cons_of_mem _ member, raises⟩
          | ok values =>
              rw [computed, others] at failed
              cases failed

end TensorPC
