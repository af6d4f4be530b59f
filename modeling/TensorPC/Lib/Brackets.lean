import Mathlib.Tactic.Common

namespace TensorPC

/-!
# Labelled brackets

A sequence of opening and closing brackets is read with a stack of the labels
that are open.  A bracket may only be opened inside the innermost open one if
their labels are related, and only the innermost one can be closed.
-/

/-- An opening or a closing bracket with a label. -/
inductive Bracket (α : Type*)
  | opening (label : α)
  | closing (label : α)
  deriving DecidableEq

namespace Bracket

variable {α : Type*} [DecidableEq α] (inside : α → α → Prop)
variable [∀ inner outer, Decidable (inside inner outer)]

/-- Read one bracket; the labels that are open are given innermost first. -/
def readOne (labels : List α) : Bracket α → Option (List α)
  | .opening label =>
      if ∀ outer ∈ labels.head?, inside label outer then some (label :: labels) else none
  | .closing label =>
      match labels with
      | [] => none
      | innermost :: rest => if innermost = label then some rest else none

/-- The labels that are open behind a sequence of brackets, if it is well nested. -/
def stillOpen (brackets : List (Bracket α)) : Option (List α) :=
  brackets.foldlM (readOne inside) []

theorem stillOpen_concat
    (brackets : List (Bracket α))
    (bracket : Bracket α) :
    stillOpen inside (brackets ++ [bracket]) =
      (stillOpen inside brackets).bind (readOne inside · bracket) := by
  simp [stillOpen, List.foldlM_append]

theorem stillOpen_opening
    {brackets : List (Bracket α)}
    {labels : List α}
    {label : α}
    (read : stillOpen inside brackets = some labels)
    (fits : ∀ outer ∈ labels, inside label outer) :
    stillOpen inside (brackets ++ [.opening label]) = some (label :: labels) := by
  rw [stillOpen_concat, read, Option.bind_some, readOne, if_pos]
  intro outer innermost
  exact fits outer (List.mem_of_mem_head? innermost)

theorem stillOpen_closing
    {brackets : List (Bracket α)}
    {labels : List α}
    {label : α}
    (read : stillOpen inside brackets = some (label :: labels)) :
    stillOpen inside (brackets ++ [.closing label]) = some labels := by
  rw [stillOpen_concat, read, Option.bind_some, readOne, if_pos rfl]

end Bracket

end TensorPC
