import TensorPC.Py.Error
import Mathlib.Data.Rat.Floor

namespace TensorPC.Ttfs

/-!
# Block layouts

How the threads of a warp and the warps of a CTA are spread over the axes of a
tile.  Python's integers and floats are kept apart, since the division of a tile
among CTAs makes floats; a float is modelled by its exact value.
-/

inductive Number
  | int (value : Int)
  | float (value : ℚ)
  deriving DecidableEq

namespace Number

def value : Number → ℚ
  | .int value => value
  | .float value => value

/-- `a // b`. -/
def floorDiv : Number → Number → PyResult Number
  | .int a, .int b => if b = 0 then .error .zeroDivisionError else .ok (.int (a.fdiv b))
  | a, b =>
      if b.value = 0 then
        .error .zeroDivisionError
      else
        .ok (.float ⌊a.value / b.value⌋)

/-- `a / b`. -/
def trueDiv (a b : Number) : PyResult Number :=
  if b.value = 0 then .error .zeroDivisionError else .ok (.float (a.value / b.value))

def mul : Number → Number → Number
  | .int a, .int b => .int (a * b)
  | a, b => .float (a.value * b.value)

/-- `max(a, b)`. -/
def pyMax (a b : Number) : Number :=
  if a.value < b.value then b else a

/-- `min(a, b)`. -/
def pyMin (a b : Number) : Number :=
  if b.value < a.value then b else a

end Number

open Number

/-- `values[index]`. -/
def item (values : List Number) (index : Nat) : PyResult Number :=
  match values[index]? with
  | some value => .ok value
  | none => .error .indexError

/-- `_get_shape_per_cta`.  The loop divides the entries of `shape` itself, so the
result is also what the caller's list holds afterwards. -/
def getShapePerCta
    (shape : List Number)
    (ctaSplitNum : Option (List Number)) :
    PyResult (List Number) :=
  match ctaSplitNum with
  | none => .ok shape
  | some split => do
      pyAssert (split.length == shape.length) ""
      (shape.zip split).mapM fun sizes => trueDiv sizes.1 sizes.2

/-- `gl.BlockedLayout`. -/
structure BlockedLayout where
  sizePerThread : List Number
  threadsPerWarp : List Number
  warpsPerCta : List Number
  order : List Nat
  ctaSplitNum : Option (List Number)

/-- The variables of the loop over the axes. -/
structure Spread where
  threadsPerWarp : List Number
  warpsPerCta : List Number
  remainingLanes : Number
  remainingThreads : Number
  remainingWarps : Number
  prevLanes : Number
  prevWarps : Number

/-- One round of the loop, for the axis `i`. -/
def Spread.axis
    (shapePerCta sizePerThread : List Number)
    (spread : Spread)
    (i : Nat) :
    PyResult Spread := do
  let size ← item shapePerCta i
  let perThread ← item sizePerThread i
  let threads ← floorDiv size perThread
  let threadsPerCta := pyMin (pyMax (.int 1) threads) spread.remainingThreads
  let lanes := pyMin threadsPerCta spread.remainingLanes
  let quotient ← floorDiv threadsPerCta lanes
  let warps := pyMin (pyMax (.int 1) quotient) spread.remainingWarps
  let remainingWarps ← floorDiv spread.remainingWarps warps
  let remainingLanes ← floorDiv spread.remainingLanes lanes
  let remainingThreads ← floorDiv spread.remainingThreads threadsPerCta
  return {
    threadsPerWarp := spread.threadsPerWarp.set i lanes
    warpsPerCta := spread.warpsPerCta.set i warps
    remainingLanes := remainingLanes
    remainingThreads := remainingThreads
    remainingWarps := remainingWarps
    prevLanes := mul spread.prevLanes lanes
    prevWarps := mul spread.prevWarps warps }

/-- `get_default_block_layout`, with the caller's `shape` afterwards. -/
def getDefaultBlockLayout
    (shape sizePerThread : List Number)
    (order : List Nat)
    (numWarps numThreadsPerWarp : Number)
    (ctaSplitNum : Option (List Number)) :
    PyResult (BlockedLayout × List Number) := do
  let rank := shape.length
  let ones := List.replicate rank (.int 1)
  let shapePerCta ← getShapePerCta shape ctaSplitNum
  let spread ← (order.take (rank - 1)).foldlM (Spread.axis shapePerCta sizePerThread)
    { threadsPerWarp := ones
      warpsPerCta := ones
      remainingLanes := numThreadsPerWarp
      remainingThreads := mul numWarps numThreadsPerWarp
      remainingWarps := numWarps
      prevLanes := .int 1
      prevWarps := .int 1 }
  match order[rank - 1]? with
  | none => .error .indexError
  | some last => do
      let lanes ← floorDiv numThreadsPerWarp spread.prevLanes
      let warps ← floorDiv numWarps spread.prevWarps
      return ({
        sizePerThread := sizePerThread
        threadsPerWarp := spread.threadsPerWarp.set last lanes
        warpsPerCta := spread.warpsPerCta.set last warps
        order := order
        ctaSplitNum := ctaSplitNum }, shapePerCta)

/-- The size per thread of an io layout: the vector width comes first, and entry `i`
is taken from the position `order[i]`. -/
def vectorSizes (rank : Nat) (width : Number) (order : List Nat) : PyResult (List Number) :=
  (List.range rank).mapM fun i =>
    match order[i]? with
    | none => .error .indexError
    | some position => item (width :: List.replicate (rank - 1) (.int 1)) position

/-- `get_default_block_io_layout`, which goes on as `get_default_block_layout` does. -/
def getDefaultBlockIoLayout
    (shape : List Number)
    (bitwidth : Number)
    (order : List Nat)
    (numWarps numThreadsPerWarp : Number)
    (ctaSplitNum : Option (List Number)) :
    PyResult (BlockedLayout × List Number) := do
  let width ← floorDiv (.int 128) bitwidth
  let sizePerThread ← vectorSizes shape.length width order
  getDefaultBlockLayout shape sizePerThread order numWarps numThreadsPerWarp ctaSplitNum

/-! ## Warps of a matrix product -/

/-- `triton.cdiv`. -/
def cdiv (x y : Int) : Int :=
  (x + y - 1).fdiv y

/-- The loops of `_get_warps_per_cta`: while the product is below `numWarps`, one of
the two numbers is doubled.  `choose` tells whether it is the first one, and what
becomes of the other variables; `fuel` bounds the rounds. -/
def doubleWarps
    (numWarps : Nat)
    (choose : σ → Nat → Bool × σ) :
    Nat → σ → Nat → Nat → PyResult (List Nat)
  | 0, _, _, _ => .error .nonTermination
  | fuel + 1, state, first, second =>
      if first * second < numWarps then
        if (choose state first).1 then
          doubleWarps numWarps choose fuel (choose state first).2 (first * 2) second
        else
          doubleWarps numWarps choose fuel (choose state first).2 first (second * 2)
      else
        .ok [first, second]

/-- One round of version 2, with `reps` as the other variables. -/
def chooseByReps (reps : Int × Int) (_ : Nat) : Bool × Int × Int :=
  if reps.1 ≥ reps.2 then
    (true, if reps.1 ≠ 1 then reps.1.fdiv 2 else reps.1, reps.2)
  else
    (false, reps.1, reps.2.fdiv 2)

/-- One round of version 3. -/
def chooseByRows (rows : Int) (_ : Unit) (first : Nat) : Bool × Unit :=
  (rows > 16 * first, ())

/-- `_get_warps_per_cta` for a tile of `rows` and `columns`; `shapePerWarp[1]` is
never read in version 3. -/
def getWarpsPerCta
    (version : Int)
    (rows columns : Int)
    (numWarps : Nat)
    (isChained : Bool) :
    PyResult (List Nat) :=
  if version = 2 then do
    let warps ← doubleWarps numWarps chooseByReps (numWarps + 1)
      (cdiv rows 16, cdiv columns 8) 1 1
    return if isChained then
      if rows ≥ columns then [numWarps, 1] else [1, numWarps]
    else
      warps
  else if version = 3 then
    if isChained then
      .ok [numWarps, 1]
    else
      doubleWarps numWarps (chooseByRows rows) (numWarps + 1) () 4 1
  else
    .error .notImplementedError

end TensorPC.Ttfs
