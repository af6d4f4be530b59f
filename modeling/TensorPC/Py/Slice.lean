import TensorPC.Py.Error
import Mathlib.Data.List.Pairwise

namespace TensorPC

/-!
# Slices of sequences

Reading and assigning `items[start:stop]` for bounds that are not negative, and
reading it for any bounds.
Assignment follows numpy and torch: the values must have the length of the
slice, or be a single value that is repeated.
-/

variable {α : Type*}

/-- `items[start:stop]`. -/
def slice (items : List α) (start stop : Nat) : List α :=
  (items.take stop).drop start

/-- `items[start:stop] = values` on an array. -/
def assignSlice
    (items : List α)
    (start stop : Nat)
    (values : List α) :
    PyResult (List α) :=
  let width := (slice items start stop).length
  let assigned (written : List α) :=
    items.take start ++ written ++ items.drop (start + width)
  if values.length = width then
    .ok (assigned values)
  else
    match values with
    | [value] => .ok (assigned (List.replicate width value))
    | _ => .error (.valueError "could not broadcast input array")

/-- The position a slice bound stands for: a negative one counts from the end. -/
def sliceBound (length : Nat) (bound : Int) : Nat :=
  (if bound < 0 then bound + length else bound).toNat

/-- `items[start:stop]` for bounds of either sign. -/
def sliceInt (items : List α) (start stop : Int) : List α :=
  slice items (sliceBound items.length start) (sliceBound items.length stop)

@[simp] theorem sliceInt_natCast
    (items : List α)
    (start stop : Nat) :
    sliceInt items start stop = slice items start stop := by
  simp [sliceInt, sliceBound, Int.not_lt.mpr (Int.natCast_nonneg _)]

theorem slice_between (before middle after : List α) :
    slice (before ++ (middle ++ after)) before.length (before.length + middle.length) =
      middle := by
  unfold slice
  rw [← List.append_assoc, ← List.length_append, List.take_left, List.drop_left]

theorem length_slice
    (items : List α)
    (start stop : Nat) :
    (slice items start stop).length = min stop items.length - start := by
  simp [slice]

theorem slice_append_left
    {items rest : List α}
    {start stop : Nat}
    (inside : stop ≤ items.length) :
    slice (items ++ rest) start stop = slice items start stop := by
  simp [slice, List.take_append_of_le_length inside]

theorem slice_slice
    {items : List α}
    {outerStart outerStop start stop : Nat}
    (inside : outerStart + stop ≤ outerStop) :
    slice (slice items outerStart outerStop) start stop =
      slice items (outerStart + start) (outerStart + stop) := by
  simp only [slice, List.take_drop, List.drop_drop, List.take_take]
  rw [Nat.min_eq_left inside]

theorem slice_append_slice
    (items : List α)
    {start middle stop : Nat}
    (ordered : start ≤ middle)
    (below : middle ≤ stop) :
    slice items start middle ++ slice items middle stop =
      slice items start stop := by
  have split : slice items start stop =
      (slice items start stop).take (middle - start) ++
        (slice items start stop).drop (middle - start) :=
    (List.take_append_drop _ _).symm
  rw [split]
  simp only [slice, List.take_drop, List.drop_drop, List.take_take]
  rw [Nat.add_sub_cancel' ordered, Nat.min_eq_left below]

theorem assignSlice_after
    {written pending values : List α}
    (fits : values.length ≤ pending.length) :
    assignSlice (written ++ pending) written.length
        (written.length + values.length) values =
      .ok (written ++ values ++ pending.drop values.length) := by
  have width :
      (slice (written ++ pending) written.length
        (written.length + values.length)).length = values.length := by
    rw [length_slice, List.length_append]
    omega
  simp [assignSlice, width]

theorem assignSlice_zero
    {items values : List α}
    (fits : values.length ≤ items.length) :
    assignSlice items 0 values.length values =
      .ok (values ++ items.drop values.length) := by
  simpa using @assignSlice_after _ [] items values fits

theorem length_assignSlice
    {items values result : List α}
    {start stop : Nat}
    (assigned : assignSlice items start stop values = .ok result) :
    result.length = items.length := by
  have within := length_slice items start stop
  simp only [assignSlice] at assigned
  split at assigned
  · cases assigned
    simp only [List.length_append, List.length_take, List.length_drop]
    omega
  · split at assigned
    · cases assigned
      simp only [List.length_append, List.length_take, List.length_drop,
        List.length_replicate]
      omega
    · cases assigned

/-- The slice that was assigned holds the values. -/
theorem slice_assignSlice_same
    {items values result : List α}
    {start stop : Nat}
    (inside : stop ≤ items.length)
    (width : values.length = stop - start)
    (ordered : start ≤ stop)
    (assigned : assignSlice items start stop values = .ok result) :
    slice result start stop = values := by
  have whole : (slice items start stop).length = stop - start := by
    rw [length_slice]
    omega
  simp only [assignSlice, whole, width, ↓reduceIte, Except.ok.injEq] at assigned
  subst assigned
  have before : (items.take start).length = start := by
    rw [List.length_take]
    omega
  have middle : stop - start = values.length := by
    omega
  simp only [slice, List.append_assoc]
  rw [List.drop_take, List.drop_append_of_le_length (by omega)]
  simp [middle]

/-- An assignment leaves what lies before its slice. -/
theorem slice_assignSlice_before
    {items values result : List α}
    {start stop first last : Nat}
    (inside : start ≤ items.length)
    (before : last ≤ start)
    (assigned : assignSlice items start stop values = .ok result) :
    slice result first last = slice items first last := by
  have kept : ∀ written : List α,
      slice (items.take start ++ written) first last =
        slice items first last := by
    intro written
    have width : last ≤ (items.take start).length := by
      rw [List.length_take]
      omega
    rw [slice_append_left width]
    simp only [slice, List.take_take]
    rw [Nat.min_eq_left before]
  simp only [assignSlice, List.append_assoc] at assigned
  split at assigned
  · cases assigned
    exact kept _
  · split at assigned
    · cases assigned
      exact kept _
    · cases assigned

/-!
# Range objects

`range(start, stop, step)` with a non-zero step: the values it yields, in order.
-/

/-- A Python `range` object; the step is never zero. -/
structure PyRange where
  start : Int
  stop : Int
  step : Int
  step_ne_zero : step ≠ 0
  deriving DecidableEq

namespace PyRange

/-- `len(range)`. -/
def length (range : PyRange) : Nat :=
  if 0 < range.step then
    ((range.stop - range.start + range.step - 1) / range.step).toNat
  else
    ((range.start - range.stop - range.step - 1) / (-range.step)).toNat

/-- The values a `for` loop over the range yields. -/
def values (range : PyRange) : List Int :=
  (List.range range.length).map (fun index : Nat => range.start + index * range.step)

theorem ascending
    {range : PyRange}
    (positive : 0 < range.step) :
    range.values.Pairwise (· ≤ ·) ∧ ∀ value ∈ range.values, range.start ≤ value := by
  constructor
  · refine List.pairwise_map.mpr (List.pairwise_lt_range.imp ?_)
    intro first second before
    have ordered : (first : Int) * range.step ≤ second * range.step :=
      Int.mul_le_mul_of_nonneg_right (by omega) (by omega)
    omega
  · intro value member
    obtain ⟨index, _, rfl⟩ := List.mem_map.mp member
    have nonnegative : 0 ≤ (index : Int) * range.step :=
      Int.mul_nonneg (by omega) (by omega)
    omega

theorem le_start
    {range : PyRange}
    (notPositive : ¬ 0 < range.step)
    {value : Int}
    (member : value ∈ range.values) :
    value ≤ range.start := by
  obtain ⟨index, _, rfl⟩ := List.mem_map.mp member
  have nonpositive : (index : Int) * range.step ≤ 0 :=
    Int.mul_nonpos_of_nonneg_of_nonpos (by omega) (by omega)
  omega

end PyRange

end TensorPC
