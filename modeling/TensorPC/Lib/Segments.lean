import Mathlib.Algebra.GroupWithZero.Nat
import Mathlib.Tactic.Common

namespace TensorPC.Segments

/-!
# Segments of a memory

Pieces of data are laid one after the other into a memory.  Before each piece the
position may move on, for example to the next multiple of an alignment.  Positions
never move back, so that the segments are disjoint and a piece that was written is not
overwritten by the pieces after it.
-/

/-- Where the piece after a position begins. -/
structure Placement where
  place : Nat → Nat
  le_place : ∀ offset, offset ≤ place offset

namespace Placement

/-- Each piece begins where the piece before it ends. -/
def packed : Placement where
  place offset := offset
  le_place _ := Nat.le_refl _

variable (placement : Placement)

/-- First position and end of the segments of pieces with the given lengths. -/
def spans : Nat → List Nat → List (Nat × Nat)
  | _, [] => []
  | offset, length :: rest =>
      (placement.place offset, placement.place offset + length) ::
        spans (placement.place offset + length) rest

/-- The position behind the last segment. -/
def endOf : Nat → List Nat → Nat
  | offset, [] => offset
  | offset, length :: rest => endOf (placement.place offset + length) rest

/-- The segments of a memory hold the pieces. -/
def Holds
    {α : Type}
    (memory : List α) :
    Nat → List (List α) → Prop
  | _, [] => True
  | offset, piece :: rest =>
      (memory.take (placement.place offset + piece.length)).drop (placement.place offset) =
          piece ∧
        Holds memory (placement.place offset + piece.length) rest

section Layout

variable {placement}

theorem le_endOf
    (offset : Nat)
    (lengths : List Nat) :
    offset ≤ placement.endOf offset lengths := by
  induction lengths generalizing offset with
  | nil =>
      exact Nat.le_refl _
  | cons length rest inductionHypothesis =>
      calc
        offset ≤ placement.place offset := placement.le_place offset
        _ ≤ placement.place offset + length := Nat.le_add_right _ _
        _ ≤ placement.endOf (placement.place offset + length) rest := inductionHypothesis _

theorem place_add_le_endOf
    (offset length : Nat)
    (rest : List Nat) :
    placement.place offset + length ≤ placement.endOf offset (length :: rest) :=
  le_endOf _ rest

theorem mem_spans
    {offset : Nat}
    {lengths : List Nat}
    {span : Nat × Nat}
    (member : span ∈ placement.spans offset lengths) :
    offset ≤ span.1 ∧ span.1 ≤ span.2 ∧ span.2 ≤ placement.endOf offset lengths := by
  induction lengths generalizing offset with
  | nil =>
      cases member
  | cons length rest inductionHypothesis =>
      have moved := placement.le_place offset
      rcases List.mem_cons.mp member with rfl | later
      · exact ⟨moved, Nat.le_add_right _ _, place_add_le_endOf offset length rest⟩
      · obtain ⟨after, ordered, inside⟩ := inductionHypothesis later
        exact ⟨by omega, ordered, inside⟩

theorem pairwise_spans
    (offset : Nat)
    (lengths : List Nat) :
    (placement.spans offset lengths).Pairwise fun first second => first.2 ≤ second.1 := by
  induction lengths generalizing offset with
  | nil =>
      exact List.Pairwise.nil
  | cons length rest inductionHypothesis =>
      refine List.Pairwise.cons ?_ (inductionHypothesis _)
      intro span member
      exact (mem_spans member).1

theorem Holds.congr
    {α : Type}
    {memory other : List α}
    {offset : Nat}
    {pieces : List (List α)}
    (same :
      ∀ first last,
        last ≤ placement.endOf offset (pieces.map List.length) →
        (other.take last).drop first = (memory.take last).drop first)
    (holds : placement.Holds memory offset pieces) :
    placement.Holds other offset pieces := by
  induction pieces generalizing offset with
  | nil =>
      trivial
  | cons piece rest inductionHypothesis =>
      obtain ⟨stored, others⟩ := holds
      refine ⟨?_, inductionHypothesis same others⟩
      rw [same _ _ (place_add_le_endOf _ _ _)]
      exact stored

theorem packed_endOf
    (offset : Nat)
    (lengths : List Nat) :
    packed.endOf offset lengths = offset + lengths.sum := by
  induction lengths generalizing offset with
  | nil =>
      rfl
  | cons length rest inductionHypothesis =>
      rw [endOf, inductionHypothesis, List.sum_cons]
      exact Nat.add_assoc _ _ _

end Layout

end Placement

end TensorPC.Segments
