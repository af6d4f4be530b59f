import TensorPC.Ttfs.LayoutProducts

namespace TensorPC.Ttfs

/-!
# The vector axis and the warps of a matrix product

`size_per_thread[i]` is taken from position `order[i]`, so the vector width lands
on the axis whose place in the order is zero, counted the wrong way round: it is
on `order[0]` only if the order leads from there back to axis zero.
-/

open Number

variable {lanes warps : Nat}

/-! ## The vector width -/

/-- An axis of a permutation is found once. -/
theorem exists_axis
    {order : List Nat}
    {rank position : Nat}
    (isOrder : order.Perm (List.range rank))
    (inside : position < rank) :
    ∃ axis, order[position]? = some axis ∧ axis < rank := by
  have orderLength : order.length = rank := by
    simpa using isOrder.length_eq
  have indexed : position < order.length := by
    rwa [orderLength]
  refine ⟨order.get ⟨position, indexed⟩, by simp [List.getElem?_eq_getElem indexed], ?_⟩
  simpa using isOrder.mem_iff.mp (List.get_mem order ⟨position, indexed⟩)

/-- The sizes per thread of an io layout. -/
def ioSizes (rank bits : Nat) (order : List Nat) : List Number :=
  (List.range rank).map fun axis =>
    if order[axis]? = some 0 then .int (128 / 2 ^ bits) else .int 1

/-- Entry `axis` is the width where the order has position zero. -/
theorem vectorSizes_eq
    {order : List Nat}
    {rank : Nat}
    (isOrder : order.Perm (List.range rank))
    (width : Number) :
    vectorSizes rank width order =
      .ok ((List.range rank).map fun axis =>
        if order[axis]? = some 0 then width else .int 1) := by
  apply PyResult.mapM_of_forall
  intro axis isAxis
  obtain ⟨position, found, inside⟩ := exists_axis isOrder (List.mem_range.mp isAxis)
  rw [found]
  cases position with
  | zero => rfl
  | succ before =>
      have fits : before < rank - 1 := by omega
      simp [item, fits]

theorem floorDiv_bits (bits : Nat) :
    floorDiv (.int 128) (pow bits) = .ok (.int (128 / 2 ^ bits)) := by
  have positive : (2 : Int) ^ bits ≠ 0 := pow_ne_zero bits two_ne_zero
  unfold pow
  rw [floorDiv, if_neg positive, Int.fdiv_eq_ediv_of_nonneg _ (by positivity)]

theorem width_eq_pow {bits : Nat} (fits : bits ≤ 7) :
    (.int (128 / 2 ^ bits) : Number) = pow (7 - bits) := by
  have divided := floorDiv_pow fits
  have same := floorDiv_bits bits
  change floorDiv (.int 128) (pow bits) = _ at divided
  rw [same] at divided
  exact Except.ok.inj divided

theorem width_eq_zero {bits : Nat} (wide : 7 < bits) : (128 : Int) / 2 ^ bits = 0 := by
  have bigger : (2 : Int) ^ 7 < 2 ^ bits := pow_lt_pow_right₀ (by norm_num) wide
  exact Int.ediv_eq_zero_of_lt (by norm_num) (by simpa using bigger)

/-- The width is one, or the order leads from `order[0]` to zero; and a width of zero
is never divided by. -/
def VectorFits (bits : Nat) (order : List Nat) : Prop :=
  bits = 7 ∨ (order[order.headD 0]? = some 0 ∧ (bits < 7 ∨ order.length = 1))

/-- Where the sizes per thread agree with the claim about them. -/
theorem vectorPlaced_iff
    {order : List Nat}
    {rank bits : Nat}
    (isOrder : order.Perm (List.range rank))
    (ranked : rank ≠ 0) :
    (∀ axis < rank,
        (ioSizes rank bits order)[axis]? =
          some (.int (if order[0]? = some axis then 128 / 2 ^ bits else 1))) ↔
      bits = 7 ∨ order[order.headD 0]? = some 0 := by
  have distinct : order.Nodup := isOrder.nodup_iff.mpr List.nodup_range
  obtain ⟨front, isFront, inside⟩ := exists_axis isOrder (Nat.pos_of_ne_zero ranked)
  have head : order.headD 0 = front := by
    cases order with
    | nil => simp at isFront
    | cons first rest => simpa using isFront
  rw [head]
  constructor
  · intro placed
    by_cases one : bits = 7
    · exact .inl one
    · right
      have here := placed front inside
      rw [if_pos isFront, ioSizes, List.getElem?_map, List.getElem?_range inside] at here
      by_contra elsewhere
      simp only [Option.map_some, Option.some.injEq] at here
      rw [if_neg elsewhere] at here
      have isOne : (1 : Int) = 128 / 2 ^ bits := Number.int.inj here
      rcases Nat.lt_or_ge 7 bits with wide | narrow
      · rw [width_eq_zero wide] at isOne
        exact absurd isOne one_ne_zero
      · have power := width_eq_pow narrow
        rw [← isOne] at power
        have more : (1 : Int) < 2 ^ (7 - bits) := one_lt_pow₀ (by norm_num) (by omega)
        exact absurd (Number.int.inj power) (ne_of_lt more)
  · intro fits axis isAxis
    rw [ioSizes, List.getElem?_map, List.getElem?_range isAxis, Option.map_some, isFront]
    rcases fits with rfl | leads
    · norm_num
    · have unique : order[axis]? = some 0 ↔ front = axis := by
        constructor
        · intro isZero
          have indexed := (List.getElem?_eq_some_iff.mp leads).1
          exact (List.getElem?_inj indexed distinct).mp (leads.trans isZero.symm)
        · rintro rfl
          exact leads
      by_cases here : front = axis
      · rw [if_pos (unique.mpr here), if_pos (by rw [here])]
      · rw [if_neg (fun isZero => here (unique.mp isZero)),
          if_neg (fun same => here (Option.some.inj same))]

/-- A size per thread of zero on the first axis of the loop is divided by. -/
theorem not_returned_of_zero
    {shape sizePerThread : List Number}
    {start spread : Spread}
    {front : Nat}
    {rest : List Nat}
    (zero : sizePerThread[front]? = some (.int 0)) :
    (front :: rest).foldlM (Spread.axis shape sizePerThread) start ≠ .ok spread := by
  intro ran
  rw [List.foldlM_cons] at ran
  obtain ⟨_, stepped, -⟩ := PyResult.bind_eq_ok.mp ran
  obtain ⟨size, _, stepped⟩ := PyResult.bind_eq_ok.mp stepped
  obtain ⟨perThread, isPerThread, stepped⟩ := PyResult.bind_eq_ok.mp stepped
  unfold item at isPerThread
  rw [zero] at isPerThread
  cases isPerThread
  obtain ⟨_, divided, -⟩ := PyResult.bind_eq_ok.mp stepped
  unfold floorDiv at divided
  split at divided <;> simp_all [value]

theorem getDefaultBlockIoLayout_eq
    {sizes order : List Nat}
    (isOrder : order.Perm (List.range sizes.length))
    (bits : Nat)
    (numWarps numThreadsPerWarp : Number)
    (ctaSplitNum : Option (List Number)) :
    getDefaultBlockIoLayout (sizes.map pow) (pow bits) order numWarps numThreadsPerWarp
        ctaSplitNum =
      getDefaultBlockLayout (sizes.map pow) (ioSizes sizes.length bits order) order numWarps
        numThreadsPerWarp ctaSplitNum := by
  unfold getDefaultBlockIoLayout
  rw [floorDiv_bits]
  change (vectorSizes (sizes.map pow).length _ order >>= _) = _
  rw [List.length_map, vectorSizes_eq isOrder]
  rfl

/-- The sizes that the loop divides by are powers of two. -/
theorem ioSizes_pow
    {order : List Nat}
    {rank bits : Nat}
    (isOrder : order.Perm (List.range rank))
    (fits : bits ≤ 7 ∨ rank = 1) :
    ∀ i ∈ order.dropLast,
      ∃ perThread, (ioSizes rank bits order)[i]? = some (pow perThread) := by
  intro i isAxis
  have inside : i < rank := by
    simpa using isOrder.mem_iff.mp (List.dropLast_subset order isAxis)
  rcases fits with narrow | single
  · unfold ioSizes
    rw [List.getElem?_map, List.getElem?_range inside, Option.map_some, width_eq_pow narrow]
    split
    · exact ⟨_, rfl⟩
    · exact ⟨0, rfl⟩
  · have orderLength := isOrder.length_eq
    rw [List.length_range, single] at orderLength
    obtain ⟨only, rfl⟩ := List.length_eq_one_iff.mp orderLength
    simp at isAxis

theorem blockIoLayoutRight_iff
    {sizes order : List Nat}
    {bits : Nat}
    (isOrder : order.Perm (List.range sizes.length))
    (ctaSplitNum : Option (List Number)) :
    BlockIoLayoutRight (sizes.map pow) bits order warps lanes ctaSplitNum ↔
      sizes ≠ [] ∧ ctaSplitNum = none ∧ VectorFits bits order := by
  have orderLength : order.length = sizes.length := by
    simpa using isOrder.length_eq
  unfold BlockIoLayoutRight
  rw [getDefaultBlockIoLayout_eq isOrder]
  simp only [List.length_map]
  constructor
  · rintro ⟨layout, returned, -, -, placed⟩
    obtain ⟨unchanged, sizesKept, ⟨start, spread, ran⟩, indexed⟩ :=
      getDefaultBlockLayout_eq_ok returned
    have ranked := ranked_of_returned isOrder indexed
    refine ⟨ranked, unsplit_of_unchanged ranked unchanged, ?_⟩
    rw [sizesKept, vectorPlaced_iff isOrder (by simpa using ranked)] at placed
    rcases placed with one | leads
    · exact .inl one
    · rcases Nat.lt_trichotomy bits 7 with narrow | one | wide
      · exact .inr ⟨leads, .inl narrow⟩
      · exact .inl one
      · refine .inr ⟨leads, .inr ?_⟩
        by_contra several
        cases order with
        | nil => simp at leads
        | cons front rest =>
            have more : rest ≠ [] := by
              rintro rfl
              exact several rfl
            have taken : (front :: rest).take ((sizes.map pow).length - 1) =
                front :: rest.take (rest.length - 1) := by
              have positive := List.length_pos_iff.mpr more
              rw [List.length_map, ← orderLength, List.length_cons]
              have split : rest.length + 1 - 1 = (rest.length - 1) + 1 := by omega
              rw [split, List.take_succ_cons]
            rw [taken] at ran
            refine not_returned_of_zero ?_ ran
            have inside : front < sizes.length := by
              simpa using isOrder.mem_iff.mp List.mem_cons_self
            have leadsFront : (front :: rest)[front]? = some 0 := leads
            rw [ioSizes, List.getElem?_map, List.getElem?_range inside, Option.map_some,
              if_pos leadsFront, width_eq_zero wide]
  · rintro ⟨ranked, rfl, fits⟩
    have narrow : bits ≤ 7 ∨ sizes.length = 1 := by
      rcases fits with rfl | ⟨-, narrow | single⟩
      · exact .inl (Nat.le_refl _)
      · exact .inl (Nat.le_of_lt narrow)
      · exact .inr (orderLength.symm.trans single)
    obtain ⟨layout, returned, sizesKept, threads, warpsProduct⟩ :=
      @getDefaultBlockLayout_complete lanes warps _ _ _ isOrder ranked
        (ioSizes_pow isOrder narrow)
    refine ⟨layout, returned, threads, warpsProduct, ?_⟩
    rw [sizesKept, vectorPlaced_iff isOrder (by simpa using ranked)]
    exact fits.imp_right And.left

/-! ## Warps of a matrix product -/

/-- The loop doubles one of the two numbers until their product is the warp count. -/
theorem doubleWarps_product
    {exponent fuel first second : Nat}
    {choose : σ → Nat → Bool × σ}
    {state : σ}
    (power : first * second = 2 ^ exponent)
    (fits : exponent ≤ warps)
    (enough : warps < exponent + fuel) :
    ∃ a b,
      doubleWarps (2 ^ warps) choose fuel state first second = .ok [a, b] ∧
        a * b = 2 ^ warps := by
  induction fuel generalizing exponent first second state with
  | zero =>
      omega
  | succ fuel inductionHypothesis =>
      unfold doubleWarps
      rw [power]
      by_cases less : 2 ^ exponent < 2 ^ warps
      · have smaller := (Nat.pow_lt_pow_iff_right Nat.one_lt_two).mp less
        rw [if_pos less]
        split
        · exact inductionHypothesis
            (by rw [Nat.mul_right_comm, power, Nat.pow_succ]) smaller (by omega)
        · exact inductionHypothesis
            (by rw [← Nat.mul_assoc, power, Nat.pow_succ]) smaller (by omega)
      · rw [if_neg less]
        have same : exponent = warps := by
          apply Nat.le_antisymm fits
          by_contra smaller
          exact less (Nat.pow_lt_pow_right Nat.one_lt_two (Nat.lt_of_not_le smaller))
        exact ⟨first, second, rfl, by rw [power, same]⟩

/-- The warps of a matrix product multiply to the warp count. -/
def WarpsRight (version rows columns : Int) (warps : Nat) (isChained : Bool) : Prop :=
  ∃ perCta,
    getWarpsPerCta version rows columns (2 ^ warps) isChained = .ok perCta ∧
      perCta.prod = 2 ^ warps

theorem warpsRight_iff
    (version rows columns : Int)
    (isChained : Bool)
    (defined : version = 2 ∨ version = 3) :
    WarpsRight version rows columns warps isChained ↔
      version = 2 ∨ isChained = true ∨ 2 ≤ warps := by
  have enough : warps < 2 ^ warps := Nat.lt_two_pow_self
  rcases defined with rfl | rfl
  · simp only [true_or, iff_true]
    obtain ⟨a, b, ran, product⟩ :=
      @doubleWarps_product warps _ 0 (2 ^ warps + 1) 1 1 chooseByReps
        (cdiv rows 16, cdiv columns 8) rfl (Nat.zero_le _) (by omega)
    unfold WarpsRight getWarpsPerCta
    rw [if_pos rfl, ran]
    refine ⟨_, rfl, ?_⟩
    split
    · split <;> simp
    · simpa using product
  · simp only [WarpsRight, getWarpsPerCta, Int.reduceEq, if_false, if_true, false_or]
    cases isChained with
    | true => simp
    | false =>
        simp only [Bool.false_eq_true, if_false, false_or]
        constructor
        · rintro ⟨perCta, ran, product⟩
          by_contra few
          have small : 2 ^ warps < 4 :=
            Nat.pow_lt_pow_right Nat.one_lt_two (Nat.lt_of_not_le few)
          unfold doubleWarps at ran
          rw [if_neg (by omega)] at ran
          cases ran
          simp at product
          omega
        · intro several
          obtain ⟨a, b, ran, product⟩ :=
            @doubleWarps_product warps _ 2 (2 ^ warps + 1) 4 1 (chooseByRows rows) ()
              rfl several (by omega)
          exact ⟨[a, b], ran, by simpa using product⟩

/-! ## All three functions -/

/-- What the three functions are to return. -/
def LayoutsRight
    (sizes perThreads order : List Nat)
    (bits warps lanes : Nat)
    (ctaSplitNum : Option (List Number))
    (version rows columns : Int)
    (isChained : Bool) :
    Prop :=
  BlockLayoutRight (sizes.map pow) (perThreads.map pow) order warps lanes ctaSplitNum ∧
    BlockIoLayoutRight (sizes.map pow) bits order warps lanes ctaSplitNum ∧
    WarpsRight version rows columns warps isChained

end TensorPC.Ttfs
