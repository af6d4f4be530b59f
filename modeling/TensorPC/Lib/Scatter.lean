import Mathlib.Tactic.Common

namespace TensorPC.Scatter

/-!
# Scattering lanes into cells

A lane carries a value to a cell.  Lanes may carry to the same cell.  Applied
one after another, every lane has its effect; a vectorised update reads all
cells first and then writes, so that of several lanes to a cell the last wins.
-/

variable {α β : Type}

/-- The values that lanes carry to a cell, in order. -/
def lanesAt (index : Nat) (lanes : List (Nat × β)) : List β :=
  (lanes.filter fun lane => decide (lane.1 = index)).map Prod.snd

@[simp] theorem lanesAt_nil (index : Nat) :
    lanesAt index ([] : List (Nat × β)) = [] :=
  rfl

theorem lanesAt_cons
    (index : Nat)
    (lane : Nat × β)
    (lanes : List (Nat × β)) :
    lanesAt index (lane :: lanes) =
      if lane.1 = index then lane.2 :: lanesAt index lanes else lanesAt index lanes := by
  unfold lanesAt
  rw [List.filter_cons]
  by_cases here : lane.1 = index
  · simp [here]
  · simp [here]

theorem lanesAt_map
    (f : β → α)
    (index : Nat)
    (lanes : List (Nat × β)) :
    lanesAt index (lanes.map fun lane => (lane.1, f lane.2)) = (lanesAt index lanes).map f := by
  induction lanes with
  | nil =>
      rfl
  | cons lane lanes inductionHypothesis =>
      rw [List.map_cons, lanesAt_cons, lanesAt_cons, inductionHypothesis]
      split <;> rfl

/-- Writing the lanes one after another. -/
def writeLanes (cells : List α) (lanes : List (Nat × α)) : List α :=
  lanes.foldl (fun cells lane => cells.set lane.1 lane.2) cells

@[simp] theorem length_writeLanes
    (cells : List α)
    (lanes : List (Nat × α)) :
    (writeLanes cells lanes).length = cells.length := by
  induction lanes generalizing cells with
  | nil =>
      rfl
  | cons lane lanes inductionHypothesis =>
      exact (inductionHypothesis (cells.set lane.1 lane.2)).trans List.length_set

/-- A cell holds what the last lane to it wrote. -/
theorem getElem?_writeLanes
    (cells : List α)
    (lanes : List (Nat × α))
    (index : Nat) :
    (writeLanes cells lanes)[index]? =
      cells[index]?.map fun old => (lanesAt index lanes).getLast?.getD old := by
  induction lanes generalizing cells with
  | nil =>
      simp [writeLanes]
  | cons lane lanes inductionHypothesis =>
      have further := inductionHypothesis (cells.set lane.1 lane.2)
      refine further.trans ?_
      rw [lanesAt_cons, List.getElem?_set]
      by_cases here : lane.1 = index
      · subst here
        cases inRange : cells[lane.1]? with
        | none =>
            simp [List.getElem?_eq_none_iff.mp inRange]
        | some old =>
            obtain ⟨bound, _⟩ := List.getElem?_eq_some_iff.mp inRange
            rw [if_pos rfl, if_pos bound, if_pos rfl]
            simp [List.getLast?_cons]
      · rw [if_neg here, if_neg here]

/-- Updating with all lanes at once: the cells are read before any is written. -/
def updateAtOnce (update : α → β → α) (cells : List α) (lanes : List (Nat × β)) : List α :=
  writeLanes cells (lanes.filterMap fun lane =>
    cells[lane.1]?.map fun old => (lane.1, update old lane.2))

@[simp] theorem length_updateAtOnce
    (update : α → β → α)
    (cells : List α)
    (lanes : List (Nat × β)) :
    (updateAtOnce update cells lanes).length = cells.length :=
  length_writeLanes _ _

/-- What the lanes of an update write to a cell. -/
theorem lanesAt_filterMap
    (update : α → β → α)
    (cells : List α)
    (lanes : List (Nat × β))
    {index : Nat}
    {old : α}
    (holds : cells[index]? = some old) :
    lanesAt index (lanes.filterMap fun lane =>
        cells[lane.1]?.map fun old => (lane.1, update old lane.2)) =
      (lanesAt index lanes).map (update old) := by
  induction lanes with
  | nil =>
      rfl
  | cons lane lanes inductionHypothesis =>
      rw [List.filterMap_cons, lanesAt_cons]
      by_cases here : lane.1 = index
      · rw [here, holds, if_pos rfl, List.map_cons, ← inductionHypothesis]
        exact (lanesAt_cons _ _ _).trans (if_pos rfl)
      · rw [if_neg here, ← inductionHypothesis]
        cases cells[lane.1]? with
        | none =>
            rfl
        | some other =>
            exact (lanesAt_cons _ _ _).trans (if_neg here)

theorem getElem?_updateAtOnce
    (update : α → β → α)
    (cells : List α)
    (lanes : List (Nat × β))
    (index : Nat) :
    (updateAtOnce update cells lanes)[index]? =
      cells[index]?.map fun old =>
        ((lanesAt index lanes).getLast?.map (update old)).getD old := by
  rw [updateAtOnce, getElem?_writeLanes]
  cases holds : cells[index]? with
  | none =>
      rfl
  | some old =>
      rw [lanesAt_filterMap update cells lanes holds, List.getLast?_map]
      rfl

end TensorPC.Scatter
