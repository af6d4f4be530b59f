import TensorPC.Lib.JsonText
import TensorPC.Py.IntText
import Mathlib.Data.Nat.Log

namespace TensorPC.Tracers.MergedTraces

/-!
# Saved traces of several ranks

A rank exports its PyTorch trace as a text and edits the text before it is merged
with the traces of the other ranks.  A text is the list of its bytes, written as
characters.  Its flow events are the ones in the form that the edits look for.
-/

open TextReplacement

/-- The phases of flow events. -/
inductive FlowKind
  | start
  | finish
  deriving DecidableEq

def FlowKind.phase : FlowKind → Char
  | .start => 's'
  | .finish => 'f'

/-- What stands before the id of a flow event. -/
def flowKey (kind : FlowKind) : Text :=
  ['"', 'p', 'h', '"', ':', ' ', '"', kind.phase, '"', ',', ' ', '"', 'i', 'd', '"', ':', ' ']

def pidKey : Text :=
  ['"', 'p', 'i', 'd', '"', ':', ' ']

/-- A user annotation of a phase, up to its last quotation mark. -/
def userAnnotationName (phase : Char) : Text :=
  ['"', 'p', 'h', '"', ':', ' ', '"', phase, '"', ',', ' ', '"', 'c', 'a', 't', '"', ':', ' ',
   '"', 'u', 's', 'e', 'r', '_', 'a', 'n', 'n', 'o', 't', 'a', 't', 'i', 'o', 'n']

/-- The name of a process name event, up to its last quotation mark. -/
def processName : Text :=
  ['"', 'p', 'r', 'o', 'c', 'e', 's', 's', '_', 'n', 'a', 'm', 'e']

def invalidProcessName : Text :=
  processName ++
    ['_', 'c', 'h', 'a', 'n', 'g', 'e', '_', 'n', 'a', 'm', 'e', '_', 't', 'o', '_', 'b', 'e',
     '_', 'i', 'n', 'v', 'a', 'l', 'i', 'd']

/-- The ids of flow events of a kind, in the order of the text. -/
def flowIds
    (kind : FlowKind)
    (text : Text) :
    List Nat :=
  (runsAfter Char.isDigit (flowKey kind) text).map fun digits => Nat.ofDigitChars 10 digits 0

def allFlowIds (text : Text) : List Nat :=
  flowIds .start text ++ flowIds .finish text

/-! ## The base time -/

/-- The bytes that may follow the first byte of an encoded letter. -/
def continuations (byte : Nat) : Option (List (Nat × Nat)) :=
  if byte < 128 then some []
  else if 194 ≤ byte ∧ byte ≤ 223 then some [(128, 191)]
  else if byte = 224 then some [(160, 191), (128, 191)]
  else if byte = 237 then some [(128, 159), (128, 191)]
  else if 225 ≤ byte ∧ byte ≤ 239 then some [(128, 191), (128, 191)]
  else if byte = 240 then some [(144, 191), (128, 191), (128, 191)]
  else if 241 ≤ byte ∧ byte ≤ 243 then some [(128, 191), (128, 191), (128, 191)]
  else if byte = 244 then some [(128, 143), (128, 191), (128, 191)]
  else none

/-- Whether `decode` accepts the bytes when others are still to come. -/
def decodes :
    List (Nat × Nat) → Text → Bool
  | pending, [] => pending.isEmpty
  | (low, high) :: pending, byte :: rest =>
      decide (low ≤ byte.toNat ∧ byte.toNat ≤ high) && decodes pending rest
  | [], byte :: rest =>
      match continuations byte.toNat with
      | some pending => decodes pending rest
      | none => false

def baseTimeKey : Text :=
  ['"', 'b', 'a', 's', 'e', 'T', 'i', 'm', 'e', 'N', 'a', 'n', 'o', 's', 'e', 'c', 'o', 'n', 'd',
   's', '"', ':']

/-- The search in one segment. -/
def findInSegment (segment : Text) : PyResult (Option Nat) :=
  match segment.tails.find? fun tail => baseTimeKey.isPrefixOf tail with
  | none => .ok none
  | some tail =>
      let rest := tail.drop baseTimeKey.length
      if decodes [] rest then
        match (rest.dropWhile fun letter => !letter.isDigit).takeWhile Char.isDigit with
        | [] => .ok none
        | digits => .ok (some (Nat.ofDigitChars 10 digits 0))
      else
        .error (.valueError "'utf-8' codec can't decode byte: unexpected end of data")

/-- `fast_find_segments`. -/
def findBaseTs (data : Text) : PyResult (Option Nat) := do
  match ← findInSegment (data.drop (data.length - 20000)) with
  | some baseTs => return some baseTs
  | none => findInSegment (data.take 20000)

/-! ## Saving -/

inductive Backend
  | pytorch
  | openmpi
  deriving DecidableEq

structure DebugDistributedInfo where
  rank : Nat
  worldSize : Nat
  backend : Option Backend

def Backend.name : Backend → Text
  | .pytorch => ['p', 'y', 't', 'o', 'r', 'c', 'h']
  | .openmpi => ['o', 'p', 'e', 'n', 'm', 'p', 'i']

/-- `get_backend_short`. -/
def Backend.short : Backend → Text
  | .pytorch => ['p', 't', 'h']
  | .openmpi => ['m', 'p', 'i']

/-- The process name of `offline_debug_tracer`. -/
def offlineProcName
    (backend : Backend)
    (rank : Nat) :
    Text :=
  backend.short ++ '-' :: Nat.toDigits 10 rank

/-- The name of its tracer. -/
def offlineTracerName
    (backend : Backend)
    (rank worldSize : Nat) :
    Text :=
  backend.name ++ '|' :: Nat.toDigits 10 rank ++ '/' :: Nat.toDigits 10 worldSize

/-- What a wrapper and its caller pass to `_save_pth`. -/
structure Settings where
  procNameForPth : Option Text
  tracerProcName : Option Text
  profileMemory : Bool
  extractBaseTs : Bool
  suppressUserAnno : Bool

def zfill
    (text : Text)
    (width : Nat) :
    Text :=
  List.replicate (width - text.length) '0' ++ text

/-- `rank_padded_str`; `int(math.log10(world_size))` is the logarithm rounded down. -/
def rankPadded (info : DebugDistributedInfo) : Text :=
  let digits := if info.worldSize > 0 then Nat.log 10 info.worldSize + 1 else 1
  zfill (Nat.toDigits 10 (info.rank + 1)) digits ++ List.replicate 6 '0'

def prefixFlowIds
    (info : DebugDistributedInfo)
    (data : Text) :
    Text :=
  replace (flowKey .start) (flowKey .start ++ rankPadded info)
    (replace (flowKey .finish) (flowKey .finish ++ rankPadded info) data)

/-- The replacements in the exported text. -/
def editData
    (settings : Settings)
    (info : DebugDistributedInfo)
    (needToReadJson : Bool)
    (data : Text) :
    Text :=
  match settings.procNameForPth, settings.tracerProcName with
  | some pthName, some procName =>
      let renamed := replace pthName procName data
      match info.backend with
      | none => renamed
      | some _ =>
          let suppressed :=
            if settings.suppressUserAnno then
              replace (userAnnotationName 'X' ++ ['"']) (userAnnotationName 'M' ++ ['"']) renamed
            else
              renamed
          if info.worldSize > 1 then
            let placed :=
              replace (pidKey ++ ['-', '1']) (pidKey ++ Nat.toDigits 10 info.rank) suppressed
            let prefixed := if needToReadJson then placed else prefixFlowIds info placed
            replace (processName ++ ['"']) (invalidProcessName ++ ['"']) prefixed
          else
            suppressed
  | _, _ => data

/-- An event of the parsed trace, with the id if it finishes a flow. -/
inductive TraceEvent
  | finish (id : Int)
  | other

/-- The loop over the parsed events. -/
def correctFlowIds
    (settings : Settings)
    (info : DebugDistributedInfo)
    (events : List TraceEvent) :
    List TraceEvent :=
  if settings.procNameForPth.isSome && settings.tracerProcName.isSome &&
      info.backend.isSome && info.worldSize > 1 then
    events.map fun event =>
      match event with
      | .finish id => .finish (id * info.worldSize + info.rank)
      | .other => .other
  else
    events

def extractBaseTs
    (settings : Settings)
    (exported : Text) :
    PyResult (Option Nat) :=
  if settings.extractBaseTs then findBaseTs exported else .ok none

/-- The data that `_save_pth` returns.  The parsed events are corrected in memory;
`loads` reads the events of a JSON text. -/
def savePth
    (loads : Text → PyResult (List TraceEvent))
    (settings : Settings)
    (info : DebugDistributedInfo)
    (exported : Text) :
    PyResult Text := do
  let baseTs ← extractBaseTs settings exported
  let needToReadJson := settings.profileMemory || baseTs.isNone
  let data := editData settings info needToReadJson exported
  if needToReadJson then
    let events ← loads data
    let _corrected := correctFlowIds settings info events
    return data
  else
    return data

end TensorPC.Tracers.MergedTraces
