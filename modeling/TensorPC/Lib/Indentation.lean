import Mathlib.Data.List.TakeWhile

namespace TensorPC.Indentation

/-!
# Indented text

The lines indented more than a line and following it are its block.  Writing
blocks with a fixed step and reading them back by their indentation gives the
blocks again.
-/

/-- A line with the blocks indented below it. -/
inductive Block (α : Type) where
  | line (head : α) (inner : List (Block α))

/-- The lines of blocks, four blanks deeper for each level. -/
def flatten :
    Nat → List (Block α) → List (Nat × α)
  | _, [] => []
  | depth, .line head inner :: rest =>
      (depth, head) :: (flatten (depth + 4) inner ++ flatten depth rest)

/-- The blocks that lines indented at least to `depth` form. -/
def readBlocks
    (depth : Nat) :
    List (Nat × α) → Option (List (Block α))
  | [] => some []
  | (indent, head) :: rest =>
      if indent = depth then do
        let inner ← readBlocks ((rest.head?.map Prod.fst).getD 0)
          (rest.takeWhile fun line => depth < line.1)
        let outer ← readBlocks depth (rest.dropWhile fun line => depth < line.1)
        return .line head inner :: outer
      else
        none
  termination_by lines => lines.length
  decreasing_by
    · exact Nat.lt_succ_of_le (List.takeWhile_sublist _).length_le
    · exact Nat.lt_succ_of_le (List.dropWhile_sublist _).length_le

theorem le_of_mem_flatten
    {depth : Nat}
    {blocks : List (Block α)}
    {line : Nat × α}
    (listed : line ∈ flatten depth blocks) :
    depth ≤ line.1 := by
  fun_induction flatten depth blocks with
  | case1 => cases listed
  | case2 depth head inner rest innerHypothesis restHypothesis =>
      simp only [List.mem_cons, List.mem_append] at listed
      rcases listed with rfl | inside | after
      · exact Nat.le_refl _
      · have := innerHypothesis inside
        omega
      · exact restHypothesis after

/-- The block of a line ends where the next line is not indented more. -/
theorem span_flatten
    (depth : Nat)
    (inner rest : List (Block α)) :
    (flatten (depth + 4) inner ++ flatten depth rest).takeWhile
        (fun line => depth < line.1) = flatten (depth + 4) inner ∧
      (flatten (depth + 4) inner ++ flatten depth rest).dropWhile
        (fun line => depth < line.1) = flatten depth rest := by
  have deeper :
      ∀ line ∈ flatten (depth + 4) inner, decide (depth < line.1) = true := by
    intro line listed
    have := le_of_mem_flatten listed
    simp only [decide_eq_true_eq]
    omega
  rw [List.takeWhile_append_of_pos deeper, List.dropWhile_append_of_pos deeper]
  rcases rest with _ | ⟨⟨head, inner⟩, rest⟩ <;> simp [flatten]

theorem readBlocks_flatten
    (depth : Nat)
    (blocks : List (Block α)) :
    readBlocks depth (flatten depth blocks) = some blocks := by
  fun_induction flatten depth blocks with
  | case1 => simp [readBlocks]
  | case2 depth head inner rest innerHypothesis restHypothesis =>
      rw [readBlocks, if_pos rfl]
      obtain ⟨inside, after⟩ := span_flatten depth inner rest
      rw [inside, after, restHypothesis]
      rcases inner with _ | ⟨first, others⟩
      · simp [flatten, readBlocks]
      · rcases first with ⟨firstHead, firstInner⟩
        have starts :
            ((flatten (depth + 4) (.line firstHead firstInner :: others) ++
              flatten depth rest).head?.map Prod.fst).getD 0 = depth + 4 := by
          simp [flatten]
        rw [starts, innerHypothesis]
        rfl

end TensorPC.Indentation
