import Mathlib.Algebra.BigOperators.Group.List.Basic
import Mathlib.Tactic.Ring

namespace TensorPC

/-!
# Sums of products by position

The sum of products of two lists, taken position by position and cut off at the
shorter one.  Two lists of coefficients give the same sums with all lists of
factors only if they agree, with zeros for the missing coefficients.
-/

variable {R : Type*} [CommRing R]

/-- The sum of the products at the same positions. -/
def dot (coefficients factors : List R) : R :=
  (List.zipWith (· * ·) coefficients factors).sum

@[simp]
theorem dot_nil (factors : List R) : dot [] factors = 0 := by
  simp [dot]

theorem dot_cons
    (coefficients : List R)
    (factor : R)
    (factors : List R) :
    dot coefficients (factor :: factors) =
      coefficients.headD 0 * factor + dot coefficients.tail factors := by
  cases coefficients with
  | nil => simp
  | cons first rest => simp [dot]

theorem dot_replicate_zero (coefficients : List R) (count : Nat) :
    dot coefficients (List.replicate count 0) = 0 := by
  induction count generalizing coefficients with
  | zero =>
      simp [dot]
  | succ count inductionHypothesis =>
      rw [List.replicate_succ, dot_cons, inductionHypothesis]
      simp

theorem dot_append
    {first second : List R}
    {firstFactors : List R}
    (sameLength : firstFactors.length = first.length)
    (secondFactors : List R) :
    dot (first ++ second) (firstFactors ++ secondFactors) =
      dot first firstFactors + dot second secondFactors := by
  unfold dot
  rw [List.zipWith_append sameLength.symm, List.sum_append]

theorem headD_eq_getD (coefficients : List R) :
    coefficients.headD 0 = coefficients.getD 0 0 := by
  cases coefficients <;> rfl

theorem getD_tail (coefficients : List R) (position : Nat) :
    coefficients.tail.getD position 0 = coefficients.getD (position + 1) 0 := by
  cases coefficients <;> rfl

/-- Coefficients that agree give the same sums. -/
theorem dot_congr
    {first second : List R}
    (agree : ∀ position, first.getD position 0 = second.getD position 0)
    (factors : List R) :
    dot first factors = dot second factors := by
  induction factors generalizing first second with
  | nil =>
      simp [dot]
  | cons factor rest inductionHypothesis =>
      rw [dot_cons, dot_cons, headD_eq_getD, headD_eq_getD, agree 0]
      congr 1
      apply inductionHypothesis
      intro position
      rw [getD_tail, getD_tail]
      exact agree (position + 1)

/-- The sums with the unit factors give the coefficients back. -/
theorem dot_eq_iff
    {first second : List R}
    {count : Nat}
    (firstFits : first.length ≤ count)
    (secondFits : second.length ≤ count) :
    (∀ factors, factors.length = count → dot first factors = dot second factors) ↔
      ∀ position, first.getD position 0 = second.getD position 0 := by
  constructor
  · intro same
    induction count generalizing first second with
    | zero =>
        rw [List.length_eq_zero_iff.mp (Nat.le_zero.mp firstFits),
          List.length_eq_zero_iff.mp (Nat.le_zero.mp secondFits)]
        exact fun _ => rfl
    | succ count inductionHypothesis =>
        have tails :
            ∀ position, first.tail.getD position 0 = second.tail.getD position 0 := by
          apply inductionHypothesis
          · rw [List.length_tail]
            omega
          · rw [List.length_tail]
            omega
          · intro factors sameLength
            have padded := same (0 :: factors) (by simp [sameLength])
            simpa [dot_cons] using padded
        have heads := same (1 :: List.replicate count 0) (by simp)
        rw [dot_cons, dot_cons, dot_replicate_zero, dot_replicate_zero, headD_eq_getD,
          headD_eq_getD] at heads
        intro position
        cases position with
        | zero =>
            simpa using heads
        | succ position =>
            rw [← getD_tail, ← getD_tail]
            exact tails position
  · exact fun agree factors _ => dot_congr agree factors

/-! ## Sums over a box -/

/-- Moving all coefficients by others. -/
theorem dot_add
    {moved base : List R}
    (sameLength : moved.length = base.length)
    (factors : List R) :
    dot (List.zipWith (· + ·) moved base) factors = dot moved factors + dot base factors := by
  induction factors generalizing moved base with
  | nil =>
      simp [dot]
  | cons factor rest inductionHypothesis =>
      cases moved with
      | nil =>
          rw [List.length_nil, eq_comm, List.length_eq_zero_iff] at sameLength
          simp [sameLength]
      | cons first moved =>
          cases base with
          | nil => cases sameLength
          | cons second base =>
              have tails := inductionHypothesis (Nat.succ.inj sameLength)
              simp only [List.zipWith_cons_cons, dot_cons, List.headD_cons, List.tail_cons, tails]
              ring

/-- Factors matter only where the coefficient is not zero. -/
theorem dot_congr_factors
    {coefficients first second : List R}
    (sameLength : first.length = second.length)
    (agree :
      ∀ position, coefficients.getD position 0 = 0 ∨
        first.getD position 0 = second.getD position 0) :
    dot coefficients first = dot coefficients second := by
  induction first generalizing coefficients second with
  | nil =>
      rw [List.length_nil, eq_comm, List.length_eq_zero_iff] at sameLength
      rw [sameLength]
  | cons factor first inductionHypothesis =>
      cases second with
      | nil => cases sameLength
      | cons other second =>
          have tails : dot coefficients.tail first = dot coefficients.tail second := by
            apply inductionHypothesis (Nat.succ.inj sameLength)
            intro position
            rw [getD_tail]
            exact agree (position + 1)
          have heads := agree 0
          rw [← headD_eq_getD] at heads
          rw [dot_cons, dot_cons, tails]
          rcases heads with isZero | same
          · rw [isZero, zero_mul, zero_mul]
          · rw [show factor = other from same]

/-- One coefficient with a value, the others zero. -/
def singleCoefficient (value : R) (count position : Nat) : List R :=
  (List.range count).map fun other => if other = position then value else 0

theorem getD_singleCoefficient
    (value : R)
    (count position other : Nat) :
    (singleCoefficient value count position).getD other 0 =
      if other < count ∧ other = position then value else 0 := by
  rw [singleCoefficient, List.getD_eq_getElem?_getD, List.getElem?_map]
  by_cases inside : other < count
  · rw [List.getElem?_range inside]
    simp [inside]
  · rw [List.getElem?_eq_none (by simpa using inside)]
    simp [inside]

theorem dot_singleCoefficient
    (value : R)
    (factors : List R)
    (position : Nat) :
    dot (singleCoefficient value factors.length position) factors =
      value * factors.getD position 0 := by
  induction factors generalizing position with
  | nil =>
      simp [singleCoefficient]
  | cons factor rest inductionHypothesis =>
      rw [List.length_cons, singleCoefficient, List.range_succ_eq_map, List.map_cons,
        List.map_map, dot_cons, List.headD_cons, List.tail_cons]
      cases position with
      | zero =>
          have none :
              (List.range rest.length).map
                  ((fun other => if other = 0 then value else 0) ∘ Nat.succ) =
                List.replicate rest.length 0 := by
            simp [Function.comp_def]
          have zeros : dot (List.replicate rest.length (0 : R)) rest = 0 := by
            rw [dot_congr ?_ rest, dot_nil]
            intro position
            rw [List.getD_eq_getElem?_getD, List.getElem?_replicate]
            split <;> rfl
          rw [none, zeros]
          simp
      | succ position =>
          have tails := inductionHypothesis position
          simp only [singleCoefficient] at tails
          simpa [Function.comp_def] using tails

end TensorPC
