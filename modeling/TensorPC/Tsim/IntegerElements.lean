import TensorPC.Tsim.MemoryAccess

namespace TensorPC.Tsim

/-!
# Elements of integer arrays

Numpy computes an operator on two integer dtypes in the dtype that both promote
to, and writes the result back in the dtype of the memory.  Only the extremum of
a signed and an unsigned integer of 64 bits is computed in doubles; that, and
everything about other dtypes, stays a parameter.
-/

open Wire (NpDtype)

/-- The width of an integer dtype. -/
def bitsOf (dtype : NpDtype) : Nat :=
  signedBits dtype + unsignedBits dtype

/-- Integer dtypes. -/
def isInteger (dtype : NpDtype) : Bool :=
  decide (bitsOf dtype ≠ 0)

/-- The integer with the given bits. -/
def ofBits (dtype : NpDtype) (bits : BitVec (bitsOf dtype)) : Int :=
  if signedBits dtype ≠ 0 then bits.toInt else bits.toNat

/-- The bits that a dtype keeps of an integer. -/
def toBits (dtype : NpDtype) (value : Int) : BitVec (bitsOf dtype) :=
  BitVec.ofInt (bitsOf dtype) value

/-- An integer converted to a dtype. -/
def wrapTo (dtype : NpDtype) (value : Int) : Int :=
  ofBits dtype (toBits dtype value)

/-- An integer that a dtype holds. -/
def Holds (dtype : NpDtype) (value : Int) : Prop :=
  wrapTo dtype value = value

instance (dtype : NpDtype) (value : Int) : Decidable (Holds dtype value) :=
  inferInstanceAs (Decidable (_ = _))

/-- Bits are kept. -/
@[simp] theorem toBits_ofBits
    (dtype : NpDtype)
    (bits : BitVec (bitsOf dtype)) :
    toBits dtype (ofBits dtype bits) = bits := by
  unfold toBits ofBits
  split
  · exact BitVec.ofInt_toInt
  · rw [BitVec.ofInt_natCast, BitVec.ofNat_toNat, BitVec.setWidth_eq]

theorem ofBits_inj
    {dtype : NpDtype}
    {first second : BitVec (bitsOf dtype)} :
    ofBits dtype first = ofBits dtype second ↔ first = second := by
  constructor
  · intro same
    rw [← toBits_ofBits dtype first, same, toBits_ofBits]
  · exact congrArg (ofBits dtype)

/-- A cell and a value combined, in the dtype of the memory. -/
def combine (op : UpdateOp) (memory : NpDtype) (old value : Int) : Int :=
  match op with
  | .add => ofBits memory (toBits memory old + toBits memory value)
  | .and => ofBits memory (toBits memory old &&& toBits memory value)
  | .or => ofBits memory (toBits memory old ||| toBits memory value)
  | .xor => ofBits memory (toBits memory old ^^^ toBits memory value)
  | .max => wrapTo memory (max old value)
  | .min => wrapTo memory (min old value)

/-- Extrema are assigned, and assignments convert between all integer dtypes. -/
def UpdateOp.isExtremum : UpdateOp → Bool
  | .max | .min => true
  | .add | .and | .or | .xor => false

/-- Integer dtypes that numpy promotes to a float. -/
def inDoubles (memory value : NpDtype) : Bool :=
  resultType memory value = .float64

/-- Whether an operator works in place: the promoted dtype must be cast back to the dtype of the
memory, which numpy refuses for floats, and for signed integers to unsigned ones. -/
def castsBack (memory value : NpDtype) : Bool :=
  !inDoubles memory value &&
    (signedBits memory ≠ 0 || signedBits (resultType memory value) = 0)

/-- Numpy with its rules for integers. -/
def withIntegers (numpy : ElementOps Int) : ElementOps Int :=
  { numpy with
    assign := fun memory value item =>
      if isInteger memory && isInteger value then wrapTo memory item
      else numpy.assign memory value item
    update := fun op memory value =>
      if !(isInteger memory && isInteger value) then
        numpy.update op memory value
      else if op.isExtremum then
        if inDoubles memory value then numpy.update op memory value
        else .ok (combine op memory)
      else if castsBack memory value then
        .ok (combine op memory)
      else
        .error (.typeError "Cannot cast ufunc output to the dtype of the memory") }

/-! ## Absorbed updates -/

/-- That the values before the last one make no difference to what an update leaves: they add up
to nothing, are contained in the bits of the result, or do not go beyond it. -/
def Absorbed
    (op : UpdateOp)
    (memory value : NpDtype)
    (update : Int → Int → Int)
    (old : Int)
    (earlier : List Int)
    (last : Int) :
    Prop :=
  match op with
  | .add => (earlier.map (toBits memory)).foldl (· + ·) 0#(bitsOf memory) = 0#(bitsOf memory)
  | .xor => (earlier.map (toBits memory)).foldl (· ^^^ ·) 0#(bitsOf memory) = 0#(bitsOf memory)
  | .and =>
      ∀ item ∈ earlier,
        toBits memory old &&& toBits memory last &&& toBits memory item =
          toBits memory old &&& toBits memory last
  | .or =>
      ∀ item ∈ earlier,
        toBits memory old ||| toBits memory last ||| toBits memory item =
          toBits memory old ||| toBits memory last
  | .max =>
      if inDoubles memory value = false ∧ ∀ item ∈ last :: earlier, Holds memory item then
        ∀ item ∈ earlier, item ≤ max old last
      else
        update (earlier.foldl update old) last = update old last
  | .min =>
      if inDoubles memory value = false ∧ ∀ item ∈ last :: earlier, Holds memory item then
        ∀ item ∈ earlier, min old last ≤ item
      else
        update (earlier.foldl update old) last = update old last

section Fold

variable {width : Nat} (f : BitVec width → BitVec width → BitVec width)

theorem toBits_foldl
    {memory : NpDtype}
    (f : BitVec (bitsOf memory) → BitVec (bitsOf memory) → BitVec (bitsOf memory))
    (old : Int)
    (items : List Int) :
    toBits memory
        (items.foldl (fun old item => ofBits memory (f (toBits memory old) (toBits memory item)))
          old) =
      (items.map (toBits memory)).foldl f (toBits memory old) := by
  induction items generalizing old with
  | nil =>
      rfl
  | cons item items inductionHypothesis =>
      rw [List.foldl_cons, inductionHypothesis, toBits_ofBits, List.map_cons, List.foldl_cons]

theorem foldl_eq_op
    [Std.Associative f]
    {unit : BitVec width}
    (right : ∀ bits, f bits unit = bits)
    (left : ∀ bits, f unit bits = bits)
    (start : BitVec width)
    (items : List (BitVec width)) :
    items.foldl f start = f start (items.foldl f unit) := by
  induction items generalizing start with
  | nil =>
      exact (right start).symm
  | cons item items inductionHypothesis =>
      rw [List.foldl_cons, List.foldl_cons, inductionHypothesis (f start item), left,
        inductionHypothesis item]
      exact Std.Associative.assoc start item _

/-- With an idempotent operator the fold is absorbed exactly when each value is. -/
theorem foldl_absorbed_iff
    [Std.Associative f]
    [Std.Commutative f]
    [Std.IdempotentOp f]
    (start : BitVec width)
    (items : List (BitVec width)) :
    items.foldl f start = start ↔ ∀ item ∈ items, f start item = start := by
  have absorbs :
      ∀ (items : List (BitVec width)) (start : BitVec width),
        f (items.foldl f start) start = items.foldl f start ∧
          ∀ item ∈ items, f (items.foldl f start) item = items.foldl f start := by
    intro items
    induction items with
    | nil =>
        intro start
        exact ⟨Std.IdempotentOp.idempotent start, nofun⟩
    | cons item items inductionHypothesis =>
        intro start
        obtain ⟨ofStart, ofItems⟩ := inductionHypothesis (f start item)
        rw [List.foldl_cons]
        refine ⟨?_, List.forall_mem_cons.mpr ⟨?_, ofItems⟩⟩
        · calc
            f (items.foldl f (f start item)) start =
                f (f (items.foldl f (f start item)) (f start item)) start := by rw [ofStart]
            _ = f (items.foldl f (f start item)) (f (f start item) start) :=
                Std.Associative.assoc _ _ _
            _ = f (items.foldl f (f start item)) (f start item) := by
                rw [@Std.Commutative.comm _ f _ (f start item) start,
                  ← @Std.Associative.assoc _ f _ start start item,
                  @Std.IdempotentOp.idempotent _ f _ start]
            _ = items.foldl f (f start item) := ofStart
        · calc
            f (items.foldl f (f start item)) item =
                f (f (items.foldl f (f start item)) (f start item)) item := by rw [ofStart]
            _ = f (items.foldl f (f start item)) (f (f start item) item) :=
                Std.Associative.assoc _ _ _
            _ = f (items.foldl f (f start item)) (f start item) := by
                rw [@Std.Associative.assoc _ f _ start item item,
                  @Std.IdempotentOp.idempotent _ f _ item]
            _ = items.foldl f (f start item) := ofStart
  constructor
  · intro same item member
    have ofItem := (absorbs items start).2 item member
    rw [same] at ofItem
    exact ofItem
  · intro each
    induction items with
    | nil =>
        rfl
    | cons item items inductionHypothesis =>
        obtain ⟨first, rest⟩ := List.forall_mem_cons.mp each
        rw [List.foldl_cons, first]
        exact inductionHypothesis rest

theorem foldl_last
    [Std.Associative f]
    [Std.Commutative f]
    (start last : BitVec width)
    (items : List (BitVec width)) :
    f (items.foldl f start) last = items.foldl f (f start last) := by
  induction items generalizing start with
  | nil =>
      rfl
  | cons item items inductionHypothesis =>
      rw [List.foldl_cons, List.foldl_cons, inductionHypothesis (f start item)]
      refine congrArg (List.foldl f · items) ?_
      calc
        f (f start item) last = f start (f item last) := Std.Associative.assoc start item last
        _ = f start (f last item) := by rw [@Std.Commutative.comm _ f _ item last]
        _ = f (f start last) item := (Std.Associative.assoc start last item).symm

end Fold

section Combine

variable {memory value : NpDtype}

theorem absorbed_bits
    (f : BitVec (bitsOf memory) → BitVec (bitsOf memory) → BitVec (bitsOf memory))
    (old last : Int)
    (earlier : List Int) :
    ofBits memory (f (toBits memory
          (earlier.foldl
            (fun old item => ofBits memory (f (toBits memory old) (toBits memory item))) old))
          (toBits memory last)) =
        ofBits memory (f (toBits memory old) (toBits memory last)) ↔
      f ((earlier.map (toBits memory)).foldl f (toBits memory old)) (toBits memory last) =
        f (toBits memory old) (toBits memory last) := by
  rw [ofBits_inj, toBits_foldl]

theorem foldl_combine_max
    {old : Int}
    {items : List Int}
    (holdsOld : Holds memory old)
    (holds : ∀ item ∈ items, Holds memory item) :
    items.foldl (combine .max memory) old = items.foldl max old ∧
      Holds memory (items.foldl max old) := by
  induction items generalizing old with
  | nil =>
      exact ⟨rfl, holdsOld⟩
  | cons item items inductionHypothesis =>
      obtain ⟨first, rest⟩ := List.forall_mem_cons.mp holds
      have kept : Holds memory (max old item) := by
        rcases Int.le_total old item with le | le
        · rwa [Int.max_eq_right le]
        · rwa [Int.max_eq_left le]
      have step : combine .max memory old item = max old item := kept
      rw [List.foldl_cons, List.foldl_cons, step]
      exact inductionHypothesis kept rest

theorem foldl_combine_min
    {old : Int}
    {items : List Int}
    (holdsOld : Holds memory old)
    (holds : ∀ item ∈ items, Holds memory item) :
    items.foldl (combine .min memory) old = items.foldl min old ∧
      Holds memory (items.foldl min old) := by
  induction items generalizing old with
  | nil =>
      exact ⟨rfl, holdsOld⟩
  | cons item items inductionHypothesis =>
      obtain ⟨first, rest⟩ := List.forall_mem_cons.mp holds
      have kept : Holds memory (min old item) := by
        rcases Int.le_total old item with le | le
        · rwa [Int.min_eq_left le]
        · rwa [Int.min_eq_right le]
      have step : combine .min memory old item = min old item := kept
      rw [List.foldl_cons, List.foldl_cons, step]
      exact inductionHypothesis kept rest

theorem max_foldl_eq_iff
    (old last : Int)
    (items : List Int) :
    max (items.foldl max old) last = max old last ↔ ∀ item ∈ items, item ≤ max old last := by
  have largest : ∀ (items : List Int) (start bound : Int),
      items.foldl max start ≤ bound ↔ start ≤ bound ∧ ∀ item ∈ items, item ≤ bound := by
    intro items
    induction items with
    | nil =>
        simp
    | cons item items inductionHypothesis =>
        intro start bound
        rw [List.foldl_cons, inductionHypothesis, Int.max_le, List.forall_mem_cons, and_assoc]
  have above : old ≤ items.foldl max old := ((largest items old _).mp (Int.le_refl _)).1
  constructor
  · intro same
    have bounded : items.foldl max old ≤ max old last := by
      rw [← same]
      exact Int.le_max_left _ _
    exact ((largest items old _).mp bounded).2
  · intro bounded
    have bounded := (largest items old _).mpr ⟨Int.le_max_left old last, bounded⟩
    omega

theorem min_foldl_eq_iff
    (old last : Int)
    (items : List Int) :
    min (items.foldl min old) last = min old last ↔ ∀ item ∈ items, min old last ≤ item := by
  have smallest : ∀ (items : List Int) (start bound : Int),
      bound ≤ items.foldl min start ↔ bound ≤ start ∧ ∀ item ∈ items, bound ≤ item := by
    intro items
    induction items with
    | nil =>
        simp
    | cons item items inductionHypothesis =>
        intro start bound
        rw [List.foldl_cons, inductionHypothesis, Int.le_min, List.forall_mem_cons, and_assoc]
  have below : items.foldl min old ≤ old := ((smallest items old _).mp (Int.le_refl _)).1
  constructor
  · intro same
    have bounded : min old last ≤ items.foldl min old := by
      rw [← same]
      exact Int.min_le_left _ _
    exact ((smallest items old _).mp bounded).2
  · intro bounded
    have bounded := (smallest items old _).mpr ⟨Int.min_le_left old last, bounded⟩
    omega

/-- The earlier values make no difference exactly when they are absorbed. -/
theorem absorbed_iff
    {numpy : ElementOps Int}
    {op : UpdateOp}
    {update : Int → Int → Int}
    {old last : Int}
    {earlier : List Int}
    (memoryIsInteger : isInteger memory = true)
    (valueIsInteger : isInteger value = true)
    (updates : (withIntegers numpy).update op memory value = .ok update)
    (holdsOld : Holds memory old) :
    update (earlier.foldl update old) last = update old last ↔
      Absorbed op memory value update old earlier last := by
  simp only [withIntegers, memoryIsInteger, valueIsInteger, Bool.and_self, Bool.not_true,
    Bool.false_eq_true, if_false] at updates
  cases op with
  | add =>
      simp only [UpdateOp.isExtremum, Bool.false_eq_true, if_false] at updates
      split at updates
      · obtain rfl := Except.ok.inj updates
        refine (absorbed_bits (· + ·) old last earlier).trans ?_
        rw [foldl_eq_op (· + ·) BitVec.add_zero BitVec.zero_add, BitVec.add_left_inj]
        refine Iff.trans ?_ (BitVec.add_right_inj (toBits memory old))
        rw [BitVec.add_zero]
      · cases updates
  | and =>
      simp only [UpdateOp.isExtremum, Bool.false_eq_true, if_false] at updates
      split at updates
      · obtain rfl := Except.ok.inj updates
        refine (absorbed_bits (· &&& ·) old last earlier).trans ?_
        rw [foldl_last (· &&& ·), foldl_absorbed_iff (· &&& ·), List.forall_mem_map]
        rfl
      · cases updates
  | or =>
      simp only [UpdateOp.isExtremum, Bool.false_eq_true, if_false] at updates
      split at updates
      · obtain rfl := Except.ok.inj updates
        refine (absorbed_bits (· ||| ·) old last earlier).trans ?_
        rw [foldl_last (· ||| ·), foldl_absorbed_iff (· ||| ·), List.forall_mem_map]
        rfl
      · cases updates
  | xor =>
      simp only [UpdateOp.isExtremum, Bool.false_eq_true, if_false] at updates
      split at updates
      · obtain rfl := Except.ok.inj updates
        refine (absorbed_bits (· ^^^ ·) old last earlier).trans ?_
        rw [foldl_eq_op (· ^^^ ·) (fun _ => BitVec.xor_zero) (fun _ => BitVec.zero_xor),
          BitVec.xor_left_inj]
        refine Iff.trans ?_ (BitVec.xor_right_inj (toBits memory old))
        rw [BitVec.xor_zero]
      · cases updates
  | max =>
      simp only [UpdateOp.isExtremum, if_true] at updates
      change _ ↔ if _ then _ else _
      split
      · next fits =>
          obtain ⟨inIntegers, holds⟩ := fits
          rw [inIntegers] at updates
          obtain rfl := Except.ok.inj updates
          obtain ⟨holdsLast, holdsEarlier⟩ := List.forall_mem_cons.mp holds
          obtain ⟨folded, holdsFolded⟩ := foldl_combine_max holdsOld holdsEarlier
          have whole := (foldl_combine_max holdsFolded (List.forall_mem_singleton.mpr holdsLast)).1
          have alone := (foldl_combine_max holdsOld (List.forall_mem_singleton.mpr holdsLast)).1
          simp only [List.foldl_cons, List.foldl_nil] at whole alone
          rw [folded, whole, alone]
          exact max_foldl_eq_iff old last earlier
      · rfl
  | min =>
      simp only [UpdateOp.isExtremum, if_true] at updates
      change _ ↔ if _ then _ else _
      split
      · next fits =>
          obtain ⟨inIntegers, holds⟩ := fits
          rw [inIntegers] at updates
          obtain rfl := Except.ok.inj updates
          obtain ⟨holdsLast, holdsEarlier⟩ := List.forall_mem_cons.mp holds
          obtain ⟨folded, holdsFolded⟩ := foldl_combine_min holdsOld holdsEarlier
          have whole := (foldl_combine_min holdsFolded (List.forall_mem_singleton.mpr holdsLast)).1
          have alone := (foldl_combine_min holdsOld (List.forall_mem_singleton.mpr holdsLast)).1
          simp only [List.foldl_cons, List.foldl_nil] at whole alone
          rw [folded, whole, alone]
          exact min_foldl_eq_iff old last earlier
      · rfl

end Combine

end TensorPC.Tsim
