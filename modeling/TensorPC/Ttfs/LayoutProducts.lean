import TensorPC.Ttfs.BlockLayout
import Mathlib.Data.List.Nodup

namespace TensorPC.Ttfs

/-!
# Default block layouts are complete

All quantities of the loop are powers of two, so every division is exact: what
the axes so far have got, times what remains, is the whole number of lanes and of
warps.  The last axis gets what remains.
-/

open Number

/-- A power of two. -/
def pow (exponent : Nat) : Number :=
  .int (2 ^ exponent)

/-! ## Arithmetic of powers of two -/

@[simp]
theorem value_pow (exponent : Nat) : (pow exponent).value = 2 ^ exponent := by
  simp [pow, value]

theorem floorDiv_pow
    {a b : Nat}
    (smaller : b ≤ a) :
    floorDiv (pow a) (pow b) = .ok (pow (a - b)) := by
  have positive : (2 : Int) ^ b ≠ 0 := pow_ne_zero b two_ne_zero
  have split : (2 : Int) ^ a = 2 ^ (a - b) * 2 ^ b := by
    rw [← pow_add, Nat.sub_add_cancel smaller]
  unfold pow
  rw [floorDiv, if_neg positive, split, Int.mul_fdiv_cancel _ positive]

theorem max_floorDiv_pow (a b : Nat) :
    ∃ quotient, floorDiv (pow a) (pow b) = .ok quotient ∧
      pyMax (.int 1) quotient = pow (a - b) := by
  rcases Nat.le_total b a with smaller | larger
  · refine ⟨_, floorDiv_pow smaller, ?_⟩
    unfold pyMax
    by_cases one : a - b = 0
    · rw [one]
      simp [pow, value]
    · rw [if_pos]
      rw [value_pow]
      have bigger : (1 : ℚ) < 2 ^ (a - b) := one_lt_pow₀ (by norm_num) one
      simpa [value] using bigger
  · rcases Nat.eq_or_lt_of_le larger with rfl | less
    · refine ⟨_, floorDiv_pow (Nat.le_refl _), ?_⟩
      simp [pyMax, pow, value]
    · refine ⟨.int 0, ?_, ?_⟩
      · have positive : (2 : Int) ^ b ≠ 0 := pow_ne_zero b two_ne_zero
        have below : (2 : Int) ^ a < 2 ^ b := pow_lt_pow_right₀ (by norm_num) less
        unfold pow
        rw [floorDiv, if_neg positive, Int.fdiv_eq_ediv_of_nonneg _ (by positivity),
          Int.ediv_eq_zero_of_lt (by positivity) below]
      · rw [Nat.sub_eq_zero_of_le larger]
        simp [pyMax, pow, value]

theorem pyMin_pow (a b : Nat) : pyMin (pow a) (pow b) = pow (min a b) := by
  unfold pyMin
  rw [value_pow, value_pow]
  by_cases less : b < a
  · have below : (2 : ℚ) ^ b < 2 ^ a := pow_lt_pow_right₀ (by norm_num) less
    rw [if_pos below, Nat.min_eq_right (Nat.le_of_lt less)]
  · have above : ¬ (2 : ℚ) ^ b < 2 ^ a :=
      not_lt.mpr (pow_le_pow_right₀ (by norm_num) (Nat.le_of_not_lt less))
    rw [if_neg above, Nat.min_eq_left (Nat.le_of_not_lt less)]

theorem mul_pow_pow (a b : Nat) : mul (pow a) (pow b) = pow (a + b) := by
  simp [mul, pow, pow_add]

theorem prod_pow (exponents : List Nat) :
    (exponents.map fun exponent => (2 : Int) ^ exponent).prod = 2 ^ exponents.sum := by
  induction exponents with
  | nil =>
      rfl
  | cons first rest inductionHypothesis =>
      rw [List.map_cons, List.prod_cons, inductionHypothesis, List.sum_cons, pow_add]

/-- Setting an entry that was zero adds to the sum. -/
theorem sum_set_of_zero
    {entries : List Nat}
    {index : Nat}
    (unset : entries[index]? = some 0)
    (entry : Nat) :
    (entries.set index entry).sum = entries.sum + entry := by
  induction entries generalizing index with
  | nil =>
      simp at unset
  | cons first rest inductionHypothesis =>
      cases index with
      | zero =>
          obtain rfl : first = 0 := by simpa using unset
          simp [Nat.add_comm]
      | succ index =>
          rw [List.set_cons_succ, List.sum_cons, List.sum_cons,
            inductionHypothesis (by simpa using unset)]
          omega

/-! ## The loop -/

/-- The entries set so far are powers of two with these exponents, and together with
what remains they are all the lanes and all the warps. -/
structure SpreadExact
    (rank lanes warps : Nat)
    (spread : Spread)
    (laneOf warpOf : List Nat)
    (threads : Nat) :
    Prop where
  laneEntries : spread.threadsPerWarp = laneOf.map pow
  warpEntries : spread.warpsPerCta = warpOf.map pow
  laneLength : laneOf.length = rank
  warpLength : warpOf.length = rank
  lanesFit : laneOf.sum ≤ lanes
  warpsFit : warpOf.sum ≤ warps
  prevLanes : spread.prevLanes = pow laneOf.sum
  prevWarps : spread.prevWarps = pow warpOf.sum
  remainingLanes : spread.remainingLanes = pow (lanes - laneOf.sum)
  remainingWarps : spread.remainingWarps = pow (warps - warpOf.sum)
  remainingThreads : spread.remainingThreads = pow threads

variable {rank lanes warps : Nat} {shape sizePerThread : List Number}

/-- One axis takes an exact share of what remains. -/
theorem SpreadExact.axis
    {spread : Spread}
    {laneOf warpOf : List Nat}
    {threads i size perThread : Nat}
    (shares : SpreadExact rank lanes warps spread laneOf warpOf threads)
    (isSize : shape[i]? = some (pow size))
    (isPerThread : sizePerThread[i]? = some (pow perThread))
    (noLane : laneOf[i]? = some 0)
    (noWarp : warpOf[i]? = some 0) :
    ∃ after lane warp threads',
      Spread.axis shape sizePerThread spread i = .ok after ∧
        SpreadExact rank lanes warps after (laneOf.set i lane) (warpOf.set i warp)
          threads' := by
  obtain ⟨quotient, divided, least⟩ := max_floorDiv_pow size perThread
  let perCta := min (size - perThread) threads
  let lane := min perCta (lanes - laneOf.sum)
  obtain ⟨share, shared, leastShare⟩ := max_floorDiv_pow perCta lane
  let warp := min (perCta - lane) (warps - warpOf.sum)
  have laneSum := sum_set_of_zero noLane lane
  have warpSum := sum_set_of_zero noWarp warp
  have laneLe : lane ≤ lanes - laneOf.sum := Nat.min_le_right _ _
  have warpLe : warp ≤ warps - warpOf.sum := Nat.min_le_right _ _
  refine ⟨{
    threadsPerWarp := spread.threadsPerWarp.set i (pow lane)
    warpsPerCta := spread.warpsPerCta.set i (pow warp)
    remainingLanes := pow (lanes - laneOf.sum - lane)
    remainingThreads := pow (threads - perCta)
    remainingWarps := pow (warps - warpOf.sum - warp)
    prevLanes := mul spread.prevLanes (pow lane)
    prevWarps := mul spread.prevWarps (pow warp) },
    lane, warp, threads - perCta, ?_, ?_⟩
  · simp only [Spread.axis, item, isSize, isPerThread, bind, Except.bind, divided, least,
      shares.remainingThreads, shares.remainingLanes, shares.remainingWarps, pyMin_pow]
    rw [show floorDiv (pow (min (size - perThread) threads))
        (pow (min (min (size - perThread) threads) (lanes - laneOf.sum))) = .ok share
      from shared]
    simp only [leastShare, pyMin_pow]
    rw [floorDiv_pow warpLe]
    dsimp only
    rw [floorDiv_pow laneLe]
    dsimp only
    rw [floorDiv_pow (Nat.min_le_right _ _)]
    rfl
  · constructor
    · rw [shares.laneEntries, List.map_set]
    · rw [shares.warpEntries, List.map_set]
    · rw [List.length_set]
      exact shares.laneLength
    · rw [List.length_set]
      exact shares.warpLength
    · have := shares.lanesFit
      omega
    · have := shares.warpsFit
      omega
    · rw [shares.prevLanes, laneSum]
      exact mul_pow_pow _ _
    · rw [shares.prevWarps, warpSum]
      exact mul_pow_pow _ _
    · rw [laneSum, ← Nat.sub_sub]
    · rw [warpSum, ← Nat.sub_sub]
    · rfl

/-- The loop leaves the other axes alone. -/
theorem SpreadExact.run
    {spread : Spread}
    {laneOf warpOf axes : List Nat}
    {threads : Nat}
    (shares : SpreadExact rank lanes warps spread laneOf warpOf threads)
    (distinct : axes.Nodup)
    (sizes : ∀ i ∈ axes, ∃ size, shape[i]? = some (pow size))
    (perThreads : ∀ i ∈ axes, ∃ perThread, sizePerThread[i]? = some (pow perThread))
    (noLanes : ∀ i ∈ axes, laneOf[i]? = some 0)
    (noWarps : ∀ i ∈ axes, warpOf[i]? = some 0) :
    ∃ after laneOf' warpOf' threads',
      axes.foldlM (Spread.axis shape sizePerThread) spread = .ok after ∧
        SpreadExact rank lanes warps after laneOf' warpOf' threads' ∧
        ∀ i, i ∉ axes → laneOf'[i]? = laneOf[i]? ∧ warpOf'[i]? = warpOf[i]? := by
  induction axes generalizing spread laneOf warpOf threads with
  | nil =>
      exact ⟨spread, laneOf, warpOf, threads, rfl, shares, fun _ _ => ⟨rfl, rfl⟩⟩
  | cons axis rest inductionHypothesis =>
      obtain ⟨notLater, distinctRest⟩ := List.nodup_cons.mp distinct
      obtain ⟨⟨size, isSize⟩, otherSizes⟩ := List.forall_mem_cons.mp sizes
      obtain ⟨⟨perThread, isPerThread⟩, otherPerThreads⟩ :=
        List.forall_mem_cons.mp perThreads
      obtain ⟨noLane, otherLanes⟩ := List.forall_mem_cons.mp noLanes
      obtain ⟨noWarp, otherWarps⟩ := List.forall_mem_cons.mp noWarps
      obtain ⟨next, lane, warp, left, stepped, sharesNext⟩ :=
        shares.axis isSize isPerThread noLane noWarp
      have unchanged (entries : List Nat) (entry : Nat) {i : Nat} (other : i ≠ axis) :
          (entries.set axis entry)[i]? = entries[i]? :=
        List.getElem?_set_ne other.symm
      have apart {i : Nat} (isRest : i ∈ rest) : i ≠ axis :=
        fun same => notLater (same ▸ isRest)
      obtain ⟨after, laneOf', warpOf', threads', ran, sharesAfter, kept⟩ :=
        inductionHypothesis sharesNext distinctRest otherSizes otherPerThreads
          (fun i isRest => (unchanged _ _ (apart isRest)).trans (otherLanes i isRest))
          (fun i isRest => (unchanged _ _ (apart isRest)).trans (otherWarps i isRest))
      refine ⟨after, laneOf', warpOf', threads', ?_, sharesAfter, ?_⟩
      · rw [List.foldlM_cons, stepped]
        exact ran
      · intro i outside
        have notAxis : i ≠ axis := fun same => outside (same ▸ List.mem_cons_self)
        have notRest : i ∉ rest := fun isRest => outside (List.mem_cons_of_mem _ isRest)
        obtain ⟨lanesKept, warpsKept⟩ := kept i notRest
        exact ⟨lanesKept.trans (unchanged _ _ notAxis),
          warpsKept.trans (unchanged _ _ notAxis)⟩

/-! ## Complete layouts -/

/-- Integer entries, one for every axis, with this product. -/
def MultiplyTo (rank : Nat) (entries : List Number) (total : Int) : Prop :=
  ∃ values : List Int,
    values.length = rank ∧ entries = values.map .int ∧ values.prod = total

theorem multiplyTo_pow
    {exponents : List Nat}
    (isRank : exponents.length = rank) :
    MultiplyTo rank (exponents.map pow) (2 ^ exponents.sum) :=
  ⟨exponents.map (2 ^ ·), by simpa using isRank, by simp [pow], prod_pow exponents⟩

/-- Without a split the loop uses up all lanes and warps. -/
theorem getDefaultBlockLayout_complete
    {sizes order : List Nat}
    (isOrder : order.Perm (List.range sizes.length))
    (ranked : sizes ≠ [])
    (perThreads :
      ∀ i ∈ order.dropLast, ∃ perThread, sizePerThread[i]? = some (pow perThread)) :
    ∃ layout,
      getDefaultBlockLayout (sizes.map pow) sizePerThread order (pow warps) (pow lanes)
          none =
        .ok (layout, sizes.map pow) ∧
      layout.sizePerThread = sizePerThread ∧
      MultiplyTo sizes.length layout.threadsPerWarp (2 ^ lanes) ∧
      MultiplyTo sizes.length layout.warpsPerCta (2 ^ warps) := by
  have orderLength : order.length = sizes.length := by
    simpa using isOrder.length_eq
  have positive : 0 < sizes.length := List.length_pos_iff.mpr ranked
  have inside {i : Nat} (isAxis : i ∈ order) : i < sizes.length := by
    simpa using isOrder.mem_iff.mp isAxis
  have distinct : order.Nodup := isOrder.nodup_iff.mpr List.nodup_range
  obtain ⟨front, last, rfl⟩ : ∃ front last, order = front ++ [last] := by
    refine ⟨order.dropLast, order.getLast ?_, (List.dropLast_append_getLast _).symm⟩
    intro empty
    rw [empty] at orderLength
    exact absurd orderLength.symm (Nat.ne_of_gt positive)
  have frontLength : sizes.length - 1 = front.length := by
    simp at orderLength
    omega
  rw [List.dropLast_concat] at perThreads
  obtain ⟨distinctFront, -, apart⟩ := List.nodup_append.mp distinct
  have zeros {i : Nat} (isAxis : i ∈ front ++ [last]) :
      (List.replicate sizes.length 0)[i]? = some 0 := by
    rw [List.getElem?_replicate, if_pos (inside isAxis)]
  have start : SpreadExact sizes.length lanes warps
      { threadsPerWarp := List.replicate sizes.length (.int 1)
        warpsPerCta := List.replicate sizes.length (.int 1)
        remainingLanes := pow lanes
        remainingThreads := mul (pow warps) (pow lanes)
        remainingWarps := pow warps
        prevLanes := .int 1
        prevWarps := .int 1 }
      (List.replicate sizes.length 0) (List.replicate sizes.length 0) (warps + lanes) := by
    constructor
    case remainingThreads => exact mul_pow_pow warps lanes
    all_goals simp [pow]
  obtain ⟨after, laneOf, warpOf, threads, ran, shares, kept⟩ :=
    @SpreadExact.run _ _ _ (sizes.map pow) _ _ _ _ _ _ start distinctFront
      (fun i isAxis => ⟨_, by
        rw [List.getElem?_map, List.getElem?_eq_getElem
          (inside (List.mem_append_left _ isAxis))]
        rfl⟩)
      perThreads
      (fun i isAxis => zeros (List.mem_append_left _ isAxis))
      (fun i isAxis => zeros (List.mem_append_left _ isAxis))
  have notFront : last ∉ front :=
    fun isFront => apart last isFront last List.mem_cons_self rfl
  have isLast : last ∈ front ++ [last] := List.mem_append_right _ List.mem_cons_self
  obtain ⟨laneKept, warpKept⟩ := kept last notFront
  have laneSum := sum_set_of_zero (laneKept.trans (zeros isLast)) (lanes - laneOf.sum)
  have warpSum := sum_set_of_zero (warpKept.trans (zeros isLast)) (warps - warpOf.sum)
  rw [Nat.add_sub_cancel' shares.lanesFit] at laneSum
  rw [Nat.add_sub_cancel' shares.warpsFit] at warpSum
  refine ⟨{
    sizePerThread := sizePerThread
    threadsPerWarp := after.threadsPerWarp.set last (pow (lanes - laneOf.sum))
    warpsPerCta := after.warpsPerCta.set last (pow (warps - warpOf.sum))
    order := front ++ [last]
    ctaSplitNum := none }, ?_, rfl, ?_, ?_⟩
  · unfold getDefaultBlockLayout
    simp only [List.length_map, getShapePerCta, frontLength, List.take_left,
      List.getElem?_concat_length]
    change (front.foldlM (Spread.axis (sizes.map pow) sizePerThread) _ >>= _) = _
    rw [ran]
    change (floorDiv (pow lanes) after.prevLanes >>= fun lanes => _) = _
    rw [shares.prevLanes, floorDiv_pow shares.lanesFit]
    change (floorDiv (pow warps) after.prevWarps >>= fun warps => _) = _
    rw [shares.prevWarps, floorDiv_pow shares.warpsFit]
    rfl
  · have product : MultiplyTo sizes.length
        ((laneOf.set last (lanes - laneOf.sum)).map pow) _ :=
      multiplyTo_pow (by simpa using shares.laneLength)
    dsimp only
    rwa [laneSum, List.map_set, ← shares.laneEntries] at product
  · have product : MultiplyTo sizes.length
        ((warpOf.set last (warps - warpOf.sum)).map pow) _ :=
      multiplyTo_pow (by simpa using shares.warpLength)
    dsimp only
    rwa [warpSum, List.map_set, ← shares.warpEntries] at product

/-! ## When the layouts are right -/

/-- The caller's shape is as before, and the entries multiply to lanes and warps. -/
def BlockLayoutRight
    (shape sizePerThread : List Number)
    (order : List Nat)
    (warps lanes : Nat)
    (ctaSplitNum : Option (List Number)) :
    Prop :=
  ∃ layout,
    getDefaultBlockLayout shape sizePerThread order (pow warps) (pow lanes) ctaSplitNum =
      .ok (layout, shape) ∧
    MultiplyTo shape.length layout.threadsPerWarp (2 ^ lanes) ∧
    MultiplyTo shape.length layout.warpsPerCta (2 ^ warps)

/-- In addition, the vector width is on the axis `order[0]`. -/
def BlockIoLayoutRight
    (shape : List Number)
    (bits : Nat)
    (order : List Nat)
    (warps lanes : Nat)
    (ctaSplitNum : Option (List Number)) :
    Prop :=
  ∃ layout,
    getDefaultBlockIoLayout shape (pow bits) order (pow warps) (pow lanes) ctaSplitNum =
      .ok (layout, shape) ∧
    MultiplyTo shape.length layout.threadsPerWarp (2 ^ lanes) ∧
    MultiplyTo shape.length layout.warpsPerCta (2 ^ warps) ∧
    ∀ axis < shape.length,
      layout.sizePerThread[axis]? =
        some (.int (if order[0]? = some axis then 128 / 2 ^ bits else 1))

/-- What a layout that was returned says about the steps before it. -/
theorem getDefaultBlockLayout_eq_ok
    {order : List Nat}
    {numWarps numThreadsPerWarp : Number}
    {ctaSplitNum : Option (List Number)}
    {layout : BlockedLayout}
    {shapeAfter : List Number}
    (returned :
      getDefaultBlockLayout shape sizePerThread order numWarps numThreadsPerWarp ctaSplitNum =
        .ok (layout, shapeAfter)) :
    getShapePerCta shape ctaSplitNum = .ok shapeAfter ∧
      layout.sizePerThread = sizePerThread ∧
      (∃ start spread,
        (order.take (shape.length - 1)).foldlM (Spread.axis shapeAfter sizePerThread) start =
          .ok spread) ∧
      shape.length - 1 < order.length := by
  obtain ⟨shapePerCta, divided, spreads⟩ := PyResult.bind_eq_ok.mp returned
  obtain ⟨spread, ran, finished⟩ := PyResult.bind_eq_ok.mp spreads
  split at finished
  · cases finished
  · rename_i last isLast
    obtain ⟨lanes, _, finished⟩ := PyResult.bind_eq_ok.mp finished
    obtain ⟨warps, _, finished⟩ := PyResult.bind_eq_ok.mp finished
    cases finished
    exact ⟨divided, rfl, ⟨_, _, ran⟩, (List.getElem?_eq_some_iff.mp isLast).1⟩

/-- A split turns every entry of the shape into a float. -/
theorem unsplit_of_unchanged
    {sizes : List Nat}
    {ctaSplitNum : Option (List Number)}
    (ranked : sizes ≠ [])
    (unchanged : getShapePerCta (sizes.map pow) ctaSplitNum = .ok (sizes.map pow)) :
    ctaSplitNum = none := by
  cases ctaSplitNum with
  | none => rfl
  | some split =>
      obtain ⟨_, same, divided⟩ := PyResult.bind_eq_ok.mp unchanged
      cases sizes with
      | nil => exact absurd rfl ranked
      | cons size rest =>
          cases split with
          | nil => simp at same
          | cons part others =>
              have entries := PyResult.mapM_eq_ok.mp divided
              cases entries with
              | cons first _ =>
                  unfold trueDiv at first
                  split at first <;> simp [pow] at first

/-- Python does not index an empty list, so there is no layout without axes. -/
theorem ranked_of_returned
    {sizes order : List Nat}
    (isOrder : order.Perm (List.range sizes.length))
    (indexed : (sizes.map pow).length - 1 < order.length) :
    sizes ≠ [] := by
  rintro rfl
  have orderLength := isOrder.length_eq
  simp only [List.length_nil, List.length_range] at orderLength
  rw [orderLength] at indexed
  exact absurd indexed (Nat.not_lt_zero _)

theorem blockLayoutRight_iff
    {sizes perThreads order : List Nat}
    (sameRank : perThreads.length = sizes.length)
    (isOrder : order.Perm (List.range sizes.length))
    (ctaSplitNum : Option (List Number)) :
    BlockLayoutRight (sizes.map pow) (perThreads.map pow) order warps lanes ctaSplitNum ↔
      sizes ≠ [] ∧ ctaSplitNum = none := by
  constructor
  · rintro ⟨layout, returned, -, -⟩
    obtain ⟨unchanged, -, -, indexed⟩ := getDefaultBlockLayout_eq_ok returned
    have ranked := ranked_of_returned isOrder indexed
    exact ⟨ranked, unsplit_of_unchanged ranked unchanged⟩
  · rintro ⟨ranked, rfl⟩
    have perThread : ∀ i ∈ order.dropLast,
        ∃ perThread, (perThreads.map pow)[i]? = some (pow perThread) := by
      intro i isAxis
      have inside : i < perThreads.length := by
        rw [sameRank]
        simpa using isOrder.mem_iff.mp (List.dropLast_subset order isAxis)
      exact ⟨perThreads.get ⟨i, inside⟩, by simp [List.getElem?_eq_getElem inside]⟩
    obtain ⟨layout, returned, -, threads, warpsProduct⟩ :=
      @getDefaultBlockLayout_complete lanes warps _ _ _ isOrder ranked perThread
    exact ⟨layout, returned, by simpa using threads, by simpa using warpsProduct⟩

end TensorPC.Ttfs
