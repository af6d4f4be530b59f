import Mathlib.Tactic.Common

namespace TensorPC.Search

/-!
# Leftmost occurrences in a list

A recogniser accepts some lists at their head.  The leftmost occurrence in a text is
the first position from which the recogniser accepts.  Two facts let a text be searched
piece by piece: a piece in which nothing starts can be put aside, and an answer that
is already settled stays the same when more text arrives.
-/

variable {α β : Type*}

/-- The part before the first accepted position, and what is accepted there. -/
def leftmost
    (recognise : List α → Option β) :
    List α → Option (List α × β)
  | [] =>
      (recognise []).map fun found => ([], found)
  | head :: tail =>
      match recognise (head :: tail) with
      | some found => some ([], found)
      | none =>
          (leftmost recognise tail).map fun occurrence =>
            (head :: occurrence.1, occurrence.2)

/-- Nothing is accepted at the first `count` positions. -/
def FreeBefore
    (recognise : List α → Option β)
    (count : Nat)
    (text : List α) : Prop :=
  ∀ position < count, recognise (text.drop position) = none

section Leftmost

variable {recognise : List α → Option β} {text before : List α} {found : β}

attribute [local simp] leftmost

/-- The leftmost occurrence is accepted after a part in which nothing is. -/
theorem leftmost_spec
    (occurs : leftmost recognise text = some (before, found)) :
    ∃ rest,
      text = before ++ rest ∧
        recognise rest = some found ∧
        FreeBefore recognise before.length text := by
  induction text generalizing before with
  | nil =>
      simp only [leftmost, Option.map_eq_some_iff, Prod.mk.injEq] at occurs
      obtain ⟨accepted, recognised, rfl, rfl⟩ := occurs
      exact ⟨[], rfl, recognised, by simp [FreeBefore]⟩
  | cons head tail inductionHypothesis =>
      rw [leftmost] at occurs
      cases recognised : recognise (head :: tail) with
      | some accepted =>
          simp only [recognised, Option.some.injEq, Prod.mk.injEq] at occurs
          obtain ⟨rfl, rfl⟩ := occurs
          exact ⟨head :: tail, rfl, recognised, by simp [FreeBefore]⟩
      | none =>
          simp only [recognised, Option.map_eq_some_iff] at occurs
          obtain ⟨⟨inner, accepted⟩, innerOccurs, equal⟩ := occurs
          simp only [Prod.mk.injEq] at equal
          obtain ⟨rfl, rfl⟩ := equal
          obtain ⟨rest, rfl, restRecognised, free⟩ :=
            inductionHypothesis innerOccurs
          refine ⟨rest, rfl, restRecognised, ?_⟩
          intro position inside
          cases position with
          | zero =>
              exact recognised
          | succ earlier =>
              exact free earlier (by simpa using inside)

/-- A text without an occurrence is accepted at no position. -/
theorem leftmost_eq_none_iff :
    leftmost recognise text = none ↔
      ∀ position ≤ text.length, recognise (text.drop position) = none := by
  induction text with
  | nil =>
      simp
  | cons head tail inductionHypothesis =>
      rw [leftmost]
      cases recognised : recognise (head :: tail) with
      | some accepted =>
          simp only [reduceCtorEq, false_iff, not_forall]
          exact ⟨0, by simp, by simp [recognised]⟩
      | none =>
          simp only [Option.map_eq_none_iff, inductionHypothesis]
          constructor
          · intro nowhere position inside
            cases position with
            | zero =>
                exact recognised
            | succ earlier =>
                exact nowhere earlier (by simpa using inside)
          · intro nowhere position inside
            exact nowhere (position + 1) (by simpa using inside)

theorem leftmost_of_recognised
    (recognised : recognise text = some found) :
    leftmost recognise text = some ([], found) := by
  cases text with
  | nil =>
      simp [recognised]
  | cons head tail =>
      simp [recognised]

theorem leftmost_append
    {piece rest : List α}
    (free : FreeBefore recognise piece.length (piece ++ rest)) :
    leftmost recognise (piece ++ rest) =
      (leftmost recognise rest).map fun occurrence =>
        (piece ++ occurrence.1, occurrence.2) := by
  induction piece with
  | nil =>
      simp
  | cons head tail inductionHypothesis =>
      have headFree : recognise (head :: (tail ++ rest)) = none :=
        free 0 (by simp)
      have tailFree : FreeBefore recognise tail.length (tail ++ rest) := by
        intro position inside
        exact free (position + 1) (by simpa using inside)
      simp only [List.cons_append, leftmost, headFree,
        inductionHypothesis tailFree, Option.map_map]
      rfl

end Leftmost

section Find

variable [DecidableEq α]

/-- Accept a text that begins with a pattern. -/
def startsWith
    (pattern text : List α) : Option Unit :=
  if pattern <+: text then some () else none

@[simp]
theorem startsWith_eq_none_iff
    {pattern text : List α} :
    startsWith pattern text = none ↔ ¬ pattern <+: text := by
  simp [startsWith]

/-- The first position of a pattern in a text, as `text.find(pattern)`. -/
def find
    (pattern text : List α) : Option Nat :=
  (leftmost (startsWith pattern) text).map fun occurrence => occurrence.1.length

variable {pattern text : List α} {position : Nat}

theorem find_spec
    (finds : find pattern text = some position) :
    position ≤ text.length ∧
      pattern <+: text.drop position ∧
      FreeBefore (startsWith pattern) position text := by
  simp only [find, Option.map_eq_some_iff] at finds
  obtain ⟨⟨before, found⟩, occurs, rfl⟩ := finds
  obtain ⟨rest, rfl, recognised, free⟩ := leftmost_spec occurs
  refine ⟨by simp, ?_, free⟩
  rw [List.drop_left]
  by_contra absent
  simp [startsWith, absent] at recognised

theorem find_eq_some
    (starts : pattern <+: text.drop position)
    (inside : position ≤ text.length)
    (free : FreeBefore (startsWith pattern) position text) :
    find pattern text = some position := by
  have split : text.take position ++ text.drop position = text :=
    List.take_append_drop position text
  have width : (text.take position).length = position := by
    rw [List.length_take]
    omega
  have here : startsWith pattern (text.drop position) = some () := by
    simp [startsWith, starts]
  rw [← split, find, leftmost_append (by rwa [width, split]),
    leftmost_of_recognised here]
  simp [width]

theorem find_append
    (finds : find pattern text = some position)
    (later : List α) :
    find pattern (text ++ later) = some position := by
  obtain ⟨inside, starts, free⟩ := find_spec finds
  have width := starts.length_le
  rw [List.length_drop] at width
  refine find_eq_some ?_ (by simp; omega) ?_
  · rw [List.drop_append_of_le_length inside]
    exact starts.trans (List.prefix_append _ _)
  · intro earlier before
    have absent := free earlier before
    rw [startsWith_eq_none_iff] at absent ⊢
    rw [List.drop_append_of_le_length (by omega)]
    intro startsEarlier
    refine absent (List.prefix_of_prefix_length_le startsEarlier
      (List.prefix_append _ _) ?_)
    rw [List.length_drop]
    omega

theorem find_append_left
    {piece rest : List α}
    (free : FreeBefore (startsWith pattern) piece.length (piece ++ rest)) :
    find pattern (piece ++ rest) =
      (find pattern rest).map fun index => piece.length + index := by
  simp only [find, leftmost_append free, Option.map_map]
  congr 1
  funext occurrence
  simp

theorem not_prefix_of_find_eq_none
    (nonempty : pattern ≠ [])
    (finds : find pattern text = none)
    (position : Nat) :
    ¬ pattern <+: text.drop position := by
  simp only [find, Option.map_eq_none_iff, leftmost_eq_none_iff,
    startsWith_eq_none_iff] at finds
  by_cases inside : position ≤ text.length
  · exact finds position inside
  · rw [List.drop_eq_nil_of_le (by omega), List.prefix_nil]
    exact nonempty

end Find

end TensorPC.Search
