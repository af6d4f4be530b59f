import Mathlib.Data.List.Nodup

namespace TensorPC

/-!
# Python sets

A Python `set` is a list of its elements without repetition.  The order of the
list stands for the unspecified order in which Python iterates over the set.
-/

/-- A Python set. -/
structure PySet (α : Type*) where
  toList : List α
  nodup : toList.Nodup

namespace PySet

variable {α : Type*}

instance [DecidableEq α] : DecidableEq (PySet α) :=
  fun first second =>
    decidable_of_iff (first.toList = second.toList) (by
      cases first
      cases second
      simp)

instance : Membership α (PySet α) where
  mem set element := element ∈ set.toList

/-- `set()`. -/
def empty : PySet α where
  toList := []
  nodup := List.nodup_nil

theorem mem_toList
    {set : PySet α}
    {element : α} :
    element ∈ set.toList ↔ element ∈ set :=
  Iff.rfl

@[simp] theorem not_mem_empty (element : α) :
    element ∉ (empty : PySet α) :=
  List.not_mem_nil

theorem toList_eq_nil_iff {set : PySet α} :
    set.toList = [] ↔ ∀ element, element ∉ set :=
  List.eq_nil_iff_forall_not_mem

variable [DecidableEq α]

instance (set : PySet α) (element : α) : Decidable (element ∈ set) :=
  inferInstanceAs (Decidable (element ∈ set.toList))

/-- `set.add(element)`. -/
def add (set : PySet α) (element : α) : PySet α where
  toList :=
    if element ∈ set.toList then
      set.toList
    else
      set.toList ++ [element]
  nodup := by
    split
    · exact set.nodup
    · rename_i absent
      rw [List.nodup_append]
      refine ⟨set.nodup, List.nodup_singleton element, ?_⟩
      intro first firstMember second secondMember same
      rw [List.mem_singleton.mp secondMember] at same
      exact absent (same ▸ firstMember)

/-- `set.discard(element)`, or `set.remove(element)` for a present element. -/
def discard (set : PySet α) (element : α) : PySet α where
  toList := set.toList.erase element
  nodup := set.nodup.erase element

@[simp] theorem mem_add
    {set : PySet α}
    {element query : α} :
    query ∈ set.add element ↔ query = element ∨ query ∈ set := by
  change query ∈ (set.add element).toList ↔ query = element ∨ query ∈ set.toList
  simp only [add]
  split
  · rename_i present
    constructor
    · exact .inr
    · rintro (rfl | member)
      · exact present
      · exact member
  · simp [or_comm]

@[simp] theorem mem_discard
    {set : PySet α}
    {element query : α} :
    query ∈ set.discard element ↔ query ≠ element ∧ query ∈ set :=
  set.nodup.mem_erase_iff

end PySet

end TensorPC
