import TensorPC.Tracers.MergedTraces
import Mathlib.Tactic.Linarith

namespace TensorPC.Tracers.MergedTraces

/-!
# Flows of different ranks

The edits of a text leave it a JSON text with the same flows, and the ids they write
are those of no other rank, if every rank takes the textual path and the rank has as
many digits as the number of ranks.
-/

open TextReplacement JsonText

/-- A trace as PyTorch exports it: a JSON text with decimal flow ids whose only
negative process id is minus one. -/
structure PytorchTrace where
  text : Text
  isJson : accepts text = true
  decimal :
    ∀ kind, ∀ digits ∈ runsAfter Char.isDigit (flowKey kind) text,
      ∃ number, digits = Nat.toDigits 10 number
  minusOne : ∀ digits ∈ runsAfter Char.isDigit (pidKey ++ ['-', '1']) text, digits = []

/-- Process names that are read alike everywhere and cannot meet the keys of an event. -/
structure Exchangeable
    (pthName procName : Text) :
    Prop where
  nonempty : pthName ≠ []
  alike : ∀ config, run pthName config = run procName config
  apart :
    ∀ key ∈ [flowKey .start, flowKey .finish, pidKey ++ ['-', '1']],
      Apart key pthName [] ∧ Apart key procName []
  stops : Stops Char.isDigit pthName
  stopsNew : Stops Char.isDigit procName

/-! ## The names of processes -/

/-- A letter that may stand in a string but nowhere else. -/
theorem step_letter
    {letter : Char}
    (listed : letter ∈ ['m', 'o', 'p'])
    (config : Config) :
    step config letter =
      match config.mode with
      | .string _ => some config
      | _ => none := by
  obtain ⟨mode, stack⟩ := config
  have isAlpha : letter.isAlpha = true :=
    List.all_eq_true.mp (by decide) letter listed
  have notIn : ∀ word : Literal, letter ∉ word.letters := by
    intro word
    simp only [List.mem_cons, List.not_mem_nil, or_false] at listed
    rcases listed with rfl | rfl | rfl <;> cases word <;> decide
  cases mode with
  | done => exact afterValue_of_isAlpha isAlpha stack
  | literal word read =>
      exact if_neg fun found => notIn word (List.mem_of_getElem? found)
  | _ =>
      simp only [List.mem_cons, List.not_mem_nil, or_false] at listed
      rcases listed with rfl | rfl | rfl <;> rfl

def IsPlain (letter : Char) : Bool :=
  letter ≠ '"' && letter ≠ '\\' && 32 ≤ letter.toNat

theorem run_plain
    {word : Text}
    (plain : ∀ letter ∈ word, IsPlain letter = true)
    (isKey : Bool)
    (stack : List Frame) :
    run word ⟨.string isKey, stack⟩ = some ⟨.string isKey, stack⟩ := by
  induction word with
  | nil =>
      rfl
  | cons letter word inductionHypothesis =>
      rw [List.forall_mem_cons] at plain
      obtain ⟨here, rest⟩ := plain
      simp only [IsPlain, Bool.and_eq_true, decide_eq_true_eq, ne_eq] at here
      have read : step ⟨.string isKey, stack⟩ letter = some ⟨.string isKey, stack⟩ := by
        simp only [step, here.1.1, here.1.2, if_false, not_lt.mpr here.2]
      rw [run, read]
      exact inductionHypothesis rest

theorem run_name
    {first : Char}
    {word : Text}
    (listed : first ∈ ['m', 'o', 'p'])
    (plain : ∀ letter ∈ word, IsPlain letter = true)
    (config : Config) :
    run (first :: word) config =
      match config.mode with
      | .string _ => some config
      | _ => none := by
  obtain ⟨mode, stack⟩ := config
  rw [run, step_letter listed]
  cases mode with
  | string isKey => exact run_plain plain isKey stack
  | _ => rfl

theorem isPlain_of_isDigit
    {letter : Char}
    (digit : letter.isDigit = true) :
    IsPlain letter = true := by
  have low : 48 ≤ letter.toNat := by
    simp only [Char.isDigit, Bool.and_eq_true, decide_eq_true_eq] at digit
    exact UInt32.le_iff_toNat_le.mp digit.1
  simp only [IsPlain, Bool.and_eq_true, decide_eq_true_eq, ne_eq]
  refine ⟨⟨?_, ?_⟩, by omega⟩ <;> rintro rfl <;> revert digit <;> decide

/-- The names that the offline tracer passes. -/
theorem exchangeable_offline
    (backend : Backend)
    (rank worldSize : Nat) :
    Exchangeable (offlineProcName backend rank) (offlineTracerName backend rank worldSize) := by
  have plain :
      (∀ letter ∈ offlineProcName backend rank, IsPlain letter = true) ∧
        ∀ letter ∈ offlineTracerName backend rank worldSize, IsPlain letter = true := by
    have digits : ∀ number, ∀ letter ∈ Nat.toDigits 10 number, IsPlain letter = true :=
      fun number letter listed => isPlain_of_isDigit (isDigit_of_mem_toDigits listed)
    have names :
        (∀ letter ∈ backend.short, IsPlain letter = true) ∧
          ∀ letter ∈ backend.name, IsPlain letter = true := by
      cases backend <;>
        exact ⟨List.all_eq_true.mp (by decide), List.all_eq_true.mp (by decide)⟩
    have marks : IsPlain '-' = true ∧ IsPlain '|' = true ∧ IsPlain '/' = true := by
      decide
    simp only [offlineProcName, offlineTracerName, List.append_assoc, List.cons_append,
      List.forall_mem_append, List.forall_mem_cons]
    exact ⟨⟨names.1, marks.1, digits rank⟩,
      ⟨names.2, marks.2.1, digits rank, marks.2.2, digits worldSize⟩⟩
  have heads :
      (∃ first ∈ ['m', 'o', 'p'], ∃ word, offlineProcName backend rank = first :: word) ∧
        ∃ first ∈ ['m', 'o', 'p'],
          ∃ word, offlineTracerName backend rank worldSize = first :: word := by
    cases backend with
    | pytorch => exact ⟨⟨'p', by simp, _, rfl⟩, ⟨'p', by simp, _, rfl⟩⟩
    | openmpi => exact ⟨⟨'m', by simp, _, rfl⟩, ⟨'o', by simp, _, rfl⟩⟩
  obtain ⟨⟨first, listed, word, isProc⟩, first', listed', word', isTracer⟩ := heads
  have notDigit : ∀ letter ∈ ['m', 'o', 'p'], letter.isDigit = false := by
    intro letter isListed
    simp only [List.mem_cons, List.not_mem_nil, or_false] at isListed
    rcases isListed with rfl | rfl | rfl <;> rfl
  refine ⟨?_, ?_, ?_, ?_, ?_⟩
  · rw [isProc]
    simp
  · intro config
    rw [isProc, isTracer] at plain
    rw [isProc, isTracer, run_name listed fun letter inside => plain.1 letter (by simp [inside]),
      run_name listed' fun letter inside => plain.2 letter (by simp [inside])]
  · intro key inKeys
    have ends : EndsApart key backend.short ∧ EndsApart key backend.name := by
      have clashes :
          ∀ key ∈ [flowKey .start, flowKey .finish, pidKey ++ ['-', '1']],
            (∀ part ∈ key.tails, part ≠ [] → Clash part backend.short) ∧
              ∀ part ∈ key.tails, part ≠ [] → Clash part backend.name := by
        cases backend <;> decide
      exact clashes key inKeys
    have stops : Stops IsPlain key := by
      have all : ∀ key ∈ [flowKey .start, flowKey .finish, pidKey ++ ['-', '1']],
          Stops IsPlain key := by
        decide
      exact all key inKeys
    refine ⟨⟨?_, beginsOutside_of_stops stops plain.1⟩, ?_, beginsOutside_of_stops stops plain.2⟩
    · rw [List.append_nil]
      exact ends.1.append _
    · rw [List.append_nil, offlineTracerName, List.append_assoc]
      exact ends.2.append _
  · rw [isProc]
    exact ⟨first, rfl, notDigit first listed⟩
  · rw [isTracer]
    exact ⟨first', rfl, notDigit first' listed'⟩

/-! ## Jobs -/

/-- The ranks of a job with their traces, and the reader of JSON texts. -/
structure Job where
  worldSize : Nat
  several : 1 < worldSize
  settings : Nat → Settings
  backend : Nat → Option Backend
  trace : Nat → PytorchTrace
  loads : Text → PyResult (List TraceEvent)
  names :
    ∀ rank < worldSize,
      ∀ pthName ∈ (settings rank).procNameForPth, ∀ procName ∈ (settings rank).tracerProcName,
        Exchangeable pthName procName
  readable :
    ∀ rank < worldSize, ∀ data,
      data = editData (settings rank) ⟨rank, worldSize, backend rank⟩ true (trace rank).text →
      accepts data = true → ∃ events, loads data = .ok events

namespace Job

def info
    (job : Job)
    (rank : Nat) :
    DebugDistributedInfo :=
  ⟨rank, job.worldSize, job.backend rank⟩

def saved
    (job : Job)
    (rank : Nat) :
    PyResult Text :=
  savePth job.loads (job.settings rank) (job.info rank) (job.trace rank).text

end Job

/-! ## What is claimed and when it holds -/

/-- The saved text is a JSON text, and its flows connect the same events. -/
structure TraceRight
    (before after : Text) :
    Prop where
  isJson : accepts after = true
  events : ∀ kind, (flowIds kind after).length = (flowIds kind before).length
  connected :
    ∀ finish < (flowIds .finish before).length, ∀ start < (flowIds .start before).length,
      (flowIds .finish after)[finish]? = (flowIds .start after)[start]? ↔
        (flowIds .finish before)[finish]? = (flowIds .start before)[start]?

def FlowsApart (job : Job) : Prop :=
  ∃ data : Nat → Text,
    (∀ rank < job.worldSize,
      job.saved rank = .ok (data rank) ∧ TraceRight (job.trace rank).text (data rank)) ∧
    ∀ rank < job.worldSize, ∀ other < job.worldSize, rank ≠ other →
      ∀ id ∈ allFlowIds (data rank), id ∉ allFlowIds (data other)

namespace Job

def baseTs
    (job : Job)
    (rank : Nat) :
    PyResult (Option Nat) :=
  extractBaseTs (job.settings rank) (job.trace rank).text

/-- Memory is profiled, or the base time is not found. -/
def needToReadJson
    (job : Job)
    (rank : Nat) :
    Bool :=
  (job.settings rank).profileMemory ||
    match job.baseTs rank with
    | .ok (some _) => false
    | _ => true

/-- The rank has both process names and a backend, and its text is not parsed. -/
def prefixes
    (job : Job)
    (rank : Nat) :
    Bool :=
  (job.settings rank).procNameForPth.isSome && (job.settings rank).tracerProcName.isSome &&
    (job.backend rank).isSome && !job.needToReadJson rank

/-- The number that is written as the rank after this one, six zeros and the old id. -/
def prefixedId
    (rank : Nat)
    (digits : Text) :
    Nat :=
  10 ^ digits.length * ((rank + 1) * 10 ^ 6) + Nat.ofDigitChars 10 digits 0

/-- The ids in the saved trace of the rank. -/
def writtenIds
    (job : Job)
    (rank : Nat) :
    List Nat :=
  let digits := runsAfter Char.isDigit (flowKey .start) (job.trace rank).text ++
    runsAfter Char.isDigit (flowKey .finish) (job.trace rank).text
  if job.prefixes rank then
    digits.map (prefixedId rank)
  else
    digits.map fun digits => Nat.ofDigitChars 10 digits 0

end Job

/-- The search for the base time succeeds; a rank with flows whose ids get a prefix has
as many digits as the number of ranks; and ids of two ranks do not meet if those of one
get no prefix. -/
structure IdsFit (job : Job) : Prop where
  searched : ∀ rank < job.worldSize, ∃ found, job.baseTs rank = .ok found
  padded :
    ∀ rank < job.worldSize, job.prefixes rank = true →
      allFlowIds (job.trace rank).text ≠ [] →
      10 ^ Nat.log 10 job.worldSize ≤ rank + 1
  apart :
    ∀ rank < job.worldSize, ∀ other < job.worldSize, rank ≠ other →
      (job.prefixes rank && job.prefixes other) = false →
      ∀ id ∈ job.writtenIds rank, id ∉ job.writtenIds other

/-! ## Replacements that keep the flows -/

/-- The text is as valid as before and its flow ids are written in the same way. -/
structure Keeps
    (before after : Text) :
    Prop where
  isJson : accepts after = accepts before
  runs :
    ∀ kind, runsAfter Char.isDigit (flowKey kind) after =
      runsAfter Char.isDigit (flowKey kind) before

theorem Keeps.trans
    {before between after : Text}
    (first : Keeps before between)
    (second : Keeps between after) :
    Keeps before after :=
  ⟨second.isJson.trans first.isJson, fun kind => (second.runs kind).trans (first.runs kind)⟩

theorem flowKey_ne_nil
    (kind : FlowKind) :
    flowKey kind ≠ [] := by
  cases kind <;> decide

theorem stops_flowKey
    (kind : FlowKind) :
    Stops Char.isDigit (flowKey kind) := by
  cases kind <;> decide

theorem borderless_flowKey
    (kind : FlowKind) :
    Borderless (flowKey kind) := by
  cases kind <;> decide

theorem leadsToValue_flowKey
    (kind : FlowKind) :
    LeadsToValue (flowKey kind) := by
  intro config
  rcases run_quote config with ⟨isKey, stack, inside⟩ | refused
  · rw [flowKey, inside]
    cases isKey with
    | false => cases kind <;> exact .inl rfl
    | true =>
        rcases stack with _ | ⟨frame, stack⟩
        · cases kind <;> exact .inl rfl
        · cases frame with
          | array => cases kind <;> exact .inl rfl
          | object => cases kind <;> exact .inr ⟨_, rfl⟩
  · exact .inl (refused 'p' _ (by decide))

theorem leadsToValue_pidKey :
    LeadsToValue pidKey := by
  intro config
  rcases run_quote config with ⟨isKey, stack, inside⟩ | refused
  · rw [pidKey, inside]
    cases isKey with
    | false => exact .inl rfl
    | true => exact .inr ⟨_, rfl⟩
  · exact .inl (refused 'p' _ (by decide))

section Steps

variable {text : Text}

theorem keeps_names
    {pthName procName : Text}
    (names : Exchangeable pthName procName) :
    Keeps text (replace pthName procName text) ∧
      runsAfter Char.isDigit (pidKey ++ ['-', '1']) (replace pthName procName text) =
        runsAfter Char.isDigit (pidKey ++ ['-', '1']) text := by
  have replaced := @replaced_replace _ _ pthName procName names.nonempty text
  rw [← List.append_nil pthName, ← List.append_nil procName] at replaced
  have read :
      ∀ key ∈ [flowKey .start, flowKey .finish, pidKey ++ ['-', '1']],
        runsAfter Char.isDigit key (replace pthName procName text) =
          runsAfter Char.isDigit key text := by
    intro key listed
    obtain ⟨apartOld, apartNew⟩ := names.apart key listed
    simpa using runsAfter_of_replaced apartOld apartNew (by simpa using names.stops)
      (by simpa using names.stopsNew) replaced
  refine ⟨⟨?_, ?_⟩, read _ (by simp)⟩
  · rw [List.append_nil, List.append_nil] at replaced
    exact acceptsFrom_of_replaced names.alike replaced start
  · intro kind
    cases kind with
    | start => exact read _ (by simp)
    | finish => exact read _ (by simp)

theorem keeps_userAnnotationName :
    Keeps text
        (replace (userAnnotationName 'X' ++ ['"']) (userAnnotationName 'M' ++ ['"']) text) ∧
      runsAfter Char.isDigit (pidKey ++ ['-', '1'])
          (replace (userAnnotationName 'X' ++ ['"']) (userAnnotationName 'M' ++ ['"']) text) =
        runsAfter Char.isDigit (pidKey ++ ['-', '1']) text := by
  have replaced :=
    @replaced_replace _ _ (userAnnotationName 'X' ++ ['"']) (userAnnotationName 'M' ++ ['"'])
      (by decide) text
  have read :
      ∀ key, Apart key (userAnnotationName 'X') ['"'] → Apart key (userAnnotationName 'M') ['"'] →
        runsAfter Char.isDigit key
            (replace (userAnnotationName 'X' ++ ['"']) (userAnnotationName 'M' ++ ['"']) text) =
          runsAfter Char.isDigit key text :=
    fun key apartOld apartNew => runsAfter_of_replaced apartOld apartNew
      (by decide) (by decide) replaced
  refine ⟨⟨?_, ?_⟩, read _ (by decide) (by decide)⟩
  · refine acceptsFrom_of_replaced ?_ replaced start
    intro config
    rcases run_quote config with ⟨isKey, stack, inside⟩ | refused
    · refine (inside _).trans (Eq.trans ?_ (inside _).symm)
      cases isKey with
      | false => rfl
      | true =>
          rcases stack with _ | ⟨frame, stack⟩
          · rfl
          · cases frame <;> rfl
    · exact (refused 'p' _ (by decide)).trans (refused 'p' _ (by decide)).symm
  · intro kind
    cases kind with
    | start => exact read _ (by decide) (by decide)
    | finish => exact read _ (by decide) (by decide)

theorem keeps_processName :
    Keeps text (replace (processName ++ ['"']) (invalidProcessName ++ ['"']) text) := by
  have replaced :=
    @replaced_replace _ _ (processName ++ ['"']) (invalidProcessName ++ ['"'])
      (by decide) text
  refine ⟨acceptsFrom_of_replaced ?_ replaced start, ?_⟩
  · intro config
    rcases run_quote config with ⟨isKey, stack, inside⟩ | refused
    · have read :
          ∀ word : Text, (∀ letter ∈ word, IsPlain letter = true) →
            run (word ++ ['"']) ⟨.string isKey, stack⟩ =
              some ⟨if isKey then .colon else .done, stack⟩ := by
        intro word plain
        rw [run_append, run_plain plain]
        rfl
      refine (inside _).trans (Eq.trans ?_ (inside _).symm)
      exact (read processName.tail (List.all_eq_true.mp (by decide))).trans
        (read invalidProcessName.tail (List.all_eq_true.mp (by decide))).symm
    · exact (refused 'p' _ (by decide)).trans (refused 'p' _ (by decide)).symm
  · intro kind
    have apartOld : Apart (flowKey kind) processName ['"'] := by
      cases kind <;> decide
    have apartNew : Apart (flowKey kind) invalidProcessName ['"'] := by
      cases kind <;> decide
    exact runsAfter_of_replaced apartOld apartNew (by decide) (by decide) replaced

theorem keeps_pid
    (minusOne : ∀ digits ∈ runsAfter Char.isDigit (pidKey ++ ['-', '1']) text, digits = [])
    (rank : Nat) :
    Keeps text (replace (pidKey ++ ['-', '1']) (pidKey ++ Nat.toDigits 10 rank) text) := by
  have replaced :=
    @replaced_replace _ _ (pidKey ++ ['-', '1']) (pidKey ++ Nat.toDigits 10 rank)
      (by decide) text
  refine ⟨?_, ?_⟩
  · exact acceptsFrom_of_integer (by decide) leadsToValue_pidKey (fun _ => rfl) minusOne
      replaced start
  · intro kind
    have apartOld : Apart (flowKey kind) (pidKey ++ ['-', '1']) [] := by
      cases kind <;> decide
    have apartKey : Apart (flowKey kind) pidKey [] := by
      cases kind <;> decide
    have apartNew : Apart (flowKey kind) (pidKey ++ Nat.toDigits 10 rank) [] :=
      apartKey.append (stops_flowKey kind) fun letter listed => isDigit_of_mem_toDigits listed
    have stopsNew : Stops Char.isDigit (pidKey ++ Nat.toDigits 10 rank) :=
      ⟨'"', rfl, by decide⟩
    rw [← List.append_nil (pidKey ++ ['-', '1']),
      ← List.append_nil (pidKey ++ Nat.toDigits 10 rank)] at replaced
    simpa using runsAfter_of_replaced apartOld apartNew (by decide)
      (by simpa using stopsNew) replaced

end Steps

/-! ## The prefixes -/

section Prefixes

variable {info : DebugDistributedInfo} {text : Text}

theorem rankPadded_eq
    (several : 0 < info.worldSize) :
    rankPadded info =
      List.replicate (Nat.log 10 info.worldSize + 1 - (Nat.toDigits 10 (info.rank + 1)).length)
        '0' ++ (Nat.toDigits 10 (info.rank + 1) ++ List.replicate 6 '0') := by
  rw [rankPadded, if_pos several, zfill, List.append_assoc]

theorem isDigit_of_mem_rankPadded
    (several : 0 < info.worldSize) :
    ∀ letter ∈ rankPadded info, letter.isDigit = true := by
  intro letter listed
  rw [rankPadded_eq several, List.mem_append, List.mem_append] at listed
  rcases listed with zero | digit | zero
  · rw [(List.mem_replicate.mp zero).2]
    decide
  · exact isDigit_of_mem_toDigits digit
  · rw [(List.mem_replicate.mp zero).2]
    decide

/-- The rank is filled up with zeros exactly if it has fewer digits than the number of
ranks. -/
theorem length_toDigits_le_log_iff
    (rank worldSize : Nat) :
    (Nat.toDigits 10 (rank + 1)).length ≤ Nat.log 10 worldSize ↔
      rank + 1 < 10 ^ Nat.log 10 worldSize := by
  cases Nat.eq_zero_or_pos (Nat.log 10 worldSize) with
  | inl zero =>
      have positive := @Nat.length_toDigits_pos 10 (rank + 1)
      rw [zero, Nat.pow_zero]
      omega
  | inr positive =>
      exact Nat.length_toDigits_le_iff (by decide) positive

theorem run_rankPadded
    (several : 0 < info.worldSize)
    (padded : 10 ^ Nat.log 10 info.worldSize ≤ info.rank + 1)
    (stack : List Frame) :
    run (rankPadded info) ⟨.value, stack⟩ = some ⟨.integer, stack⟩ := by
  have long := mt (length_toDigits_le_log_iff info.rank info.worldSize).mp (not_lt.mpr padded)
  have ofDigits := isDigit_of_mem_rankPadded several
  rw [rankPadded_eq several, Nat.sub_eq_zero_of_le (by omega)] at ofDigits ⊢
  obtain ⟨digit, digits, shape, notZero⟩ := toDigits_of_pos (Nat.succ_pos info.rank)
  rw [shape] at ofDigits ⊢
  exact run_value_of_ne_zero ofDigits notZero

theorem run_rankPadded_of_lt
    (several : 0 < info.worldSize)
    (short : info.rank + 1 < 10 ^ Nat.log 10 info.worldSize)
    (stack : List Frame) :
    run (rankPadded info) ⟨.value, stack⟩ = none := by
  have length := (length_toDigits_le_log_iff info.rank info.worldSize).mpr short
  have ofDigits := isDigit_of_mem_rankPadded several
  obtain ⟨zeros, count⟩ := Nat.exists_eq_add_of_le' length
  have fill :
      Nat.log 10 info.worldSize + 1 - (Nat.toDigits 10 (info.rank + 1)).length = zeros + 1 := by
    omega
  rw [rankPadded_eq several, fill, List.replicate_succ, List.cons_append] at ofDigits ⊢
  have rest :
      List.replicate zeros '0' ++ (Nat.toDigits 10 (info.rank + 1) ++ List.replicate 6 '0') ≠
        [] := by
    simp
  obtain ⟨digit, digits, shape⟩ := List.exists_cons_of_ne_nil rest
  rw [shape] at ofDigits ⊢
  exact run_value_of_zero (ofDigits digit (by simp))

theorem ofDigitChars_rankPadded
    (several : 0 < info.worldSize)
    (digits : Text) :
    Nat.ofDigitChars 10 (rankPadded info ++ digits) 0 = Job.prefixedId info.rank digits := by
  rw [rankPadded_eq several, Nat.ofDigitChars_append, Nat.ofDigitChars_append,
    Nat.ofDigitChars_append, Nat.ofDigitChars_replicate_zero, Nat.ofDigitChars_replicate_zero,
    Nat.mul_zero, Nat.ofDigitChars_ten_toDigits, Nat.ofDigitChars_eq_ofDigitChars_zero,
    Job.prefixedId, Nat.mul_comm (10 ^ 6)]

/-- A prefix before the ids of one kind leaves the ids of the other kind. -/
theorem runsAfter_prefixOf
    (several : 0 < info.worldSize)
    (kind other : FlowKind) :
    runsAfter Char.isDigit (flowKey other)
        (replace (flowKey kind) (flowKey kind ++ rankPadded info) text) =
      if other = kind then
        (runsAfter Char.isDigit (flowKey other) text).map (rankPadded info ++ ·)
      else
        runsAfter Char.isDigit (flowKey other) text := by
  have ofDigits := isDigit_of_mem_rankPadded several
  have replaced :=
    @replaced_replace _ _ (flowKey kind) (flowKey kind ++ rankPadded info)
      (flowKey_ne_nil kind) text
  by_cases same : other = kind
  · subst same
    rw [if_pos rfl]
    exact runsAfter_insert (stops_flowKey other) (borderless_flowKey other) ofDigits replaced
  · have apart : Apart (flowKey other) (flowKey kind) [] := by
      revert same
      cases kind <;> cases other <;> decide
    have stops : Stops Char.isDigit (flowKey kind ++ rankPadded info) := by
      cases kind <;> exact ⟨'"', rfl, by decide⟩
    rw [if_neg same]
    have apartNew := apart.append (stops_flowKey other) ofDigits
    rw [← List.append_nil (flowKey kind ++ rankPadded info)] at replaced
    nth_rewrite 1 [← List.append_nil (flowKey kind)] at replaced
    simpa using runsAfter_of_replaced apart apartNew (by simpa using stops_flowKey kind)
      (by simpa using stops) replaced

theorem runsAfter_prefixFlowIds
    (several : 0 < info.worldSize)
    (kind : FlowKind) :
    runsAfter Char.isDigit (flowKey kind) (prefixFlowIds info text) =
      (runsAfter Char.isDigit (flowKey kind) text).map (rankPadded info ++ ·) := by
  rw [prefixFlowIds, runsAfter_prefixOf several, runsAfter_prefixOf several]
  cases kind <;> rfl

theorem accepts_prefixFlowIds
    (several : 0 < info.worldSize)
    (decimal :
      ∀ kind, ∀ digits ∈ runsAfter Char.isDigit (flowKey kind) text,
        ∃ number, digits = Nat.toDigits 10 number)
    (padded : 10 ^ Nat.log 10 info.worldSize ≤ info.rank + 1) :
    accepts (prefixFlowIds info text) = accepts text := by
  have integer := run_rankPadded several padded
  have finished :=
    acceptsFrom_of_insert (flowKey_ne_nil .finish) (leadsToValue_flowKey .finish) integer
      (decimal .finish) (replaced_replace (flowKey_ne_nil .finish) text) start
  rw [prefixFlowIds, accepts, accepts, ← finished]
  refine acceptsFrom_of_insert (flowKey_ne_nil .start) (leadsToValue_flowKey .start) integer ?_
    (replaced_replace (flowKey_ne_nil .start) _) start
  rw [runsAfter_prefixOf several]
  exact decimal .start

theorem accepts_prefixFlowIds_of_lt
    (several : 0 < info.worldSize)
    (short : info.rank + 1 < 10 ^ Nat.log 10 info.worldSize) :
    accepts (prefixFlowIds info text) = true ↔
      allFlowIds text = [] ∧ accepts text = true := by
  have refused := run_rankPadded_of_lt several short
  have finished :=
    acceptsFrom_of_insert_refused (flowKey_ne_nil .finish) (leadsToValue_flowKey .finish) refused
      (replaced_replace (flowKey_ne_nil .finish) text) start
  have started :=
    acceptsFrom_of_insert_refused (flowKey_ne_nil .start) (leadsToValue_flowKey .start) refused
      (replaced_replace (flowKey_ne_nil .start)
        (replace (flowKey .finish) (flowKey .finish ++ rankPadded info) text)) start
  rw [finished, runsAfter_prefixOf several, if_neg (by simp)] at started
  rw [prefixFlowIds, accepts, started, Bool.and_eq_true, Bool.and_eq_true, decide_eq_true_eq,
    decide_eq_true_eq, allFlowIds, flowIds, flowIds, List.append_eq_nil_iff, List.map_eq_nil_iff,
    List.map_eq_nil_iff, and_assoc]
  rfl

end Prefixes

/-! ## Numbers with prefixes -/

theorem lt_pow_length
    (number : Nat) :
    number < 10 ^ (Nat.toDigits 10 number).length :=
  (Nat.length_toDigits_le_iff (by decide) Nat.length_toDigits_pos).mp (Nat.le_refl _)

/-- A longer id makes the larger number, unless its prefix is much smaller. -/
theorem prefixedId_lt
    {rank other number : Nat}
    {digits : Text}
    (shorter : (Nat.toDigits 10 number).length < digits.length)
    (close : (rank + 1) * 10 ^ 6 + 1 ≤ 10 * ((other + 1) * 10 ^ 6)) :
    Job.prefixedId rank (Nat.toDigits 10 number) < Job.prefixedId other digits := by
  rw [Job.prefixedId, Job.prefixedId, Nat.ofDigitChars_ten_toDigits]
  have small := lt_pow_length number
  generalize (Nat.toDigits 10 number).length = length at *
  calc
    10 ^ length * ((rank + 1) * 10 ^ 6) + number <
        10 ^ length * ((rank + 1) * 10 ^ 6) + 10 ^ length := Nat.add_lt_add_left small _
    _ = 10 ^ length * ((rank + 1) * 10 ^ 6 + 1) := by rw [Nat.mul_add, Nat.mul_one]
    _ ≤ 10 ^ length * (10 * ((other + 1) * 10 ^ 6)) := Nat.mul_le_mul_left _ close
    _ = 10 ^ (length + 1) * ((other + 1) * 10 ^ 6) := by rw [← Nat.mul_assoc, ← Nat.pow_succ]
    _ ≤ 10 ^ digits.length * ((other + 1) * 10 ^ 6) :=
        Nat.mul_le_mul_right _ (Nat.pow_le_pow_right (by decide) shorter)
    _ ≤ _ := Nat.le_add_right _ _

theorem prefixedId_inj
    {rank number number' : Nat}
    (same :
      Job.prefixedId rank (Nat.toDigits 10 number) =
        Job.prefixedId rank (Nat.toDigits 10 number')) :
    number = number' := by
  have close : (rank + 1) * 10 ^ 6 + 1 ≤ 10 * ((rank + 1) * 10 ^ 6) := by
    omega
  rcases Nat.lt_trichotomy (Nat.toDigits 10 number).length (Nat.toDigits 10 number').length with
    shorter | equal | longer
  · exact absurd same (prefixedId_lt shorter close).ne
  · rw [Job.prefixedId, Job.prefixedId, equal, Nat.ofDigitChars_ten_toDigits,
      Nat.ofDigitChars_ten_toDigits] at same
    exact Nat.add_left_cancel same
  · exact absurd same (prefixedId_lt longer close).ne'

/-- Prefixes with the same number of digits make different numbers. -/
theorem prefixedId_ne
    {rank other width number number' : Nat}
    (padded : 10 ^ width ≤ rank + 1)
    (paddedOther : 10 ^ width ≤ other + 1)
    (fits : rank + 1 < 10 ^ (width + 1))
    (fitsOther : other + 1 < 10 ^ (width + 1))
    (differ : rank ≠ other) :
    Job.prefixedId rank (Nat.toDigits 10 number) ≠
      Job.prefixedId other (Nat.toDigits 10 number') := by
  rw [Nat.pow_succ] at fits fitsOther
  rcases Nat.lt_trichotomy (Nat.toDigits 10 number).length (Nat.toDigits 10 number').length with
    shorter | equal | longer
  · exact (prefixedId_lt shorter (by omega)).ne
  · intro same
    apply differ
    have small := lt_pow_length number
    have small' := lt_pow_length number'
    rw [Job.prefixedId, Job.prefixedId, Nat.ofDigitChars_ten_toDigits,
      Nat.ofDigitChars_ten_toDigits, equal] at same
    rw [equal] at small
    have quotients := congrArg (· / 10 ^ (Nat.toDigits 10 number').length) same
    have positive : 0 < 10 ^ (Nat.toDigits 10 number').length := Nat.pow_pos (by decide)
    simp only [Nat.mul_add_div positive, Nat.div_eq_of_lt small, Nat.div_eq_of_lt small'] at quotients
    omega
  · exact (prefixedId_lt longer (by omega)).ne'

/-! ## The saved traces -/

namespace Job

variable {job : Job} {rank : Nat}

def edited
    (job : Job)
    (rank : Nat) :
    Text :=
  editData (job.settings rank) (job.info rank) (job.needToReadJson rank) (job.trace rank).text

/-- Before the prefixes the replacements keep the flows. -/
theorem exists_placed
    (inRange : rank < job.worldSize)
    (named :
      ((job.settings rank).procNameForPth.isSome && (job.settings rank).tracerProcName.isSome &&
        (job.backend rank).isSome) = true) :
    ∃ placed, Keeps (job.trace rank).text placed ∧
      ∀ readJson,
        editData (job.settings rank) (job.info rank) readJson (job.trace rank).text =
          replace (processName ++ ['"']) (invalidProcessName ++ ['"'])
            (if readJson then placed else prefixFlowIds (job.info rank) placed) := by
  rw [Bool.and_eq_true, Bool.and_eq_true, Option.isSome_iff_exists, Option.isSome_iff_exists,
    Option.isSome_iff_exists] at named
  obtain ⟨⟨⟨pthName, isPth⟩, procName, isProc⟩, backend, isBackend⟩ := named
  obtain ⟨renamed, minusOne⟩ :=
    @keeps_names (job.trace rank).text _ _ (job.names rank inRange pthName isPth procName isProc)
  have suppressed :
      ∃ text, Keeps (job.trace rank).text text ∧
        (∀ digits ∈ runsAfter Char.isDigit (pidKey ++ ['-', '1']) text, digits = []) ∧
        text =
          if (job.settings rank).suppressUserAnno then
            replace (userAnnotationName 'X' ++ ['"']) (userAnnotationName 'M' ++ ['"'])
              (replace pthName procName (job.trace rank).text)
          else
            replace pthName procName (job.trace rank).text := by
    by_cases suppress : (job.settings rank).suppressUserAnno = true
    · obtain ⟨annotated, kept⟩ :=
        @keeps_userAnnotationName (replace pthName procName (job.trace rank).text)
      refine ⟨_, renamed.trans annotated, ?_, (if_pos suppress).symm⟩
      rw [kept, minusOne]
      exact (job.trace rank).minusOne
    · refine ⟨_, renamed, ?_, (if_neg suppress).symm⟩
      rw [minusOne]
      exact (job.trace rank).minusOne
  obtain ⟨text, kept, minusOne, same⟩ := suppressed
  refine ⟨_, kept.trans (keeps_pid minusOne rank), ?_⟩
  intro readJson
  have several : (job.info rank).worldSize > 1 := job.several
  have isBackend : (job.info rank).backend = some backend := isBackend
  unfold editData
  rw [isPth, isProc, isBackend, same]
  dsimp only
  rw [if_pos several]
  rfl

theorem keeps_edited
    (inRange : rank < job.worldSize)
    (plain : job.prefixes rank = false) :
    Keeps (job.trace rank).text (job.edited rank) := by
  by_cases named :
      ((job.settings rank).procNameForPth.isSome && (job.settings rank).tracerProcName.isSome &&
        (job.backend rank).isSome) = true
  · obtain ⟨placed, kept, edit⟩ := exists_placed inRange named
    have readJson : job.needToReadJson rank = true := by
      rw [prefixes, named] at plain
      simpa using plain
    rw [edited, edit, if_pos readJson]
    exact kept.trans keeps_processName
  · rw [edited, editData]
    split
    next pthName procName isPth isProc =>
      have noBackend : (job.info rank).backend = none := by
        rw [isPth, isProc] at named
        simpa [info] using named
      rw [noBackend]
      exact (keeps_names (job.names rank inRange pthName isPth procName isProc)).1
    next => exact ⟨rfl, fun _ => rfl⟩

theorem edited_of_prefixes
    (inRange : rank < job.worldSize)
    (prefixed : job.prefixes rank = true) :
    ∃ placed, Keeps (job.trace rank).text placed ∧
      Keeps (prefixFlowIds (job.info rank) placed) (job.edited rank) := by
  rw [prefixes, Bool.and_eq_true, Bool.not_eq_true'] at prefixed
  obtain ⟨named, notRead⟩ := prefixed
  obtain ⟨placed, kept, edit⟩ := exists_placed inRange named
  refine ⟨placed, kept, ?_⟩
  rw [edited, edit, notRead]
  exact keeps_processName

/-- How the ids are written. -/
def rewriteDigits
    (job : Job)
    (rank : Nat)
    (digits : Text) :
    Text :=
  if job.prefixes rank then rankPadded (job.info rank) ++ digits else digits

theorem runsAfter_edited
    (inRange : rank < job.worldSize)
    (kind : FlowKind) :
    runsAfter Char.isDigit (flowKey kind) (job.edited rank) =
      (runsAfter Char.isDigit (flowKey kind) (job.trace rank).text).map
        (job.rewriteDigits rank) := by
  have several : 0 < (job.info rank).worldSize := Nat.zero_lt_of_lt job.several
  cases prefixed : job.prefixes rank with
  | false =>
      have plain : job.rewriteDigits rank = fun digits => digits := by
        funext digits
        rw [rewriteDigits, prefixed]
        rfl
      rw [(keeps_edited inRange prefixed).runs kind, plain, List.map_id']
  | true =>
      have written : job.rewriteDigits rank = (rankPadded (job.info rank) ++ ·) := by
        funext digits
        rw [rewriteDigits, prefixed]
        rfl
      obtain ⟨placed, kept, final⟩ := edited_of_prefixes inRange prefixed
      rw [final.runs kind, runsAfter_prefixFlowIds several, kept.runs kind, written]

/-- The number of a written id. -/
def newId
    (job : Job)
    (rank number : Nat) :
    Nat :=
  if job.prefixes rank then prefixedId rank (Nat.toDigits 10 number) else number

theorem newId_inj
    {number number' : Nat}
    (same : job.newId rank number = job.newId rank number') :
    number = number' := by
  unfold newId at same
  split at same
  · exact prefixedId_inj same
  · exact same

theorem flowIds_edited
    (inRange : rank < job.worldSize)
    (kind : FlowKind) :
    flowIds kind (job.edited rank) =
      (flowIds kind (job.trace rank).text).map (job.newId rank) := by
  have several : 0 < (job.info rank).worldSize := Nat.zero_lt_of_lt job.several
  rw [flowIds, flowIds, runsAfter_edited inRange, List.map_map, List.map_map]
  apply List.map_congr_left
  intro digits listed
  obtain ⟨number, rfl⟩ := (job.trace rank).decimal kind digits listed
  simp only [Function.comp, rewriteDigits, newId, Nat.ofDigitChars_ten_toDigits]
  split
  · exact ofDigitChars_rankPadded several _
  · exact Nat.ofDigitChars_ten_toDigits

theorem allFlowIds_edited
    (inRange : rank < job.worldSize) :
    allFlowIds (job.edited rank) = job.writtenIds rank := by
  rw [allFlowIds, flowIds_edited inRange, flowIds_edited inRange, ← List.map_append]
  rw [flowIds, flowIds, ← List.map_append, List.map_map, writtenIds]
  have decimal :
      ∀ digits ∈ runsAfter Char.isDigit (flowKey .start) (job.trace rank).text ++
          runsAfter Char.isDigit (flowKey .finish) (job.trace rank).text,
        ∃ number, digits = Nat.toDigits 10 number := by
    intro digits listed
    rcases List.mem_append.mp listed with starts | finishes
    · exact (job.trace rank).decimal .start digits starts
    · exact (job.trace rank).decimal .finish digits finishes
  split
  next prefixed =>
    apply List.map_congr_left
    intro digits listed
    obtain ⟨number, rfl⟩ := decimal digits listed
    simp [Function.comp, newId, prefixed]
  next plain =>
    apply List.map_congr_left
    intro digits listed
    simp [Function.comp, newId, plain]

theorem accepts_edited_iff
    (inRange : rank < job.worldSize) :
    accepts (job.edited rank) = true ↔
      (job.prefixes rank = true → allFlowIds (job.trace rank).text ≠ [] →
        10 ^ Nat.log 10 job.worldSize ≤ rank + 1) := by
  have several : 0 < (job.info rank).worldSize := Nat.zero_lt_of_lt job.several
  cases prefixed : job.prefixes rank with
  | false =>
      rw [(keeps_edited inRange prefixed).isJson, (job.trace rank).isJson]
      simp
  | true =>
      obtain ⟨placed, kept, final⟩ := edited_of_prefixes inRange prefixed
      have flows : allFlowIds placed = allFlowIds (job.trace rank).text := by
        rw [allFlowIds, allFlowIds, flowIds, flowIds, flowIds, flowIds, kept.runs, kept.runs]
      have decimal :
          ∀ kind, ∀ digits ∈ runsAfter Char.isDigit (flowKey kind) placed,
            ∃ number, digits = Nat.toDigits 10 number := by
        intro kind
        rw [kept.runs kind]
        exact (job.trace rank).decimal kind
      rw [final.isJson, ← flows]
      by_cases padded : 10 ^ Nat.log 10 job.worldSize ≤ rank + 1
      · rw [accepts_prefixFlowIds several decimal padded, kept.isJson, (job.trace rank).isJson]
        exact iff_of_true rfl fun _ _ => padded
      · rw [accepts_prefixFlowIds_of_lt several (not_le.mp padded), kept.isJson,
          (job.trace rank).isJson, and_iff_left rfl]
        constructor
        · intro empty _ flows
          exact absurd empty flows
        · intro all
          by_contra flows
          exact padded (all rfl flows)

/-- The rank's text is saved if the search for the base time succeeds. -/
theorem saved_eq_ok_iff
    (inRange : rank < job.worldSize)
    (data : Text) :
    job.saved rank = .ok data ↔
      (∃ found, job.baseTs rank = .ok found) ∧ data = job.edited rank := by
  have read :
      job.needToReadJson rank = true →
        ∃ events, job.loads (job.edited rank) = .ok events := by
    intro needed
    have plain : job.prefixes rank = false := by
      rw [prefixes, needed]
      simp
    have edit :
        job.edited rank =
          editData (job.settings rank) (job.info rank) true (job.trace rank).text := by
      rw [edited, needed]
    have isJson : accepts (job.edited rank) = true :=
      (keeps_edited inRange plain).isJson.trans (job.trace rank).isJson
    exact job.readable rank inRange _ edit isJson
  unfold saved savePth
  change ((job.baseTs rank >>= _) = _) ↔ _
  cases search : job.baseTs rank with
  | error raised =>
      constructor
      · intro impossible
        cases impossible
      · rintro ⟨⟨_, impossible⟩, _⟩
        cases impossible
  | ok found =>
      have needed :
          ((job.settings rank).profileMemory || found.isNone) = job.needToReadJson rank := by
        rw [needToReadJson, search]
        cases found <;> rfl
      dsimp only [bind, Except.bind]
      rw [needed]
      change ((if job.needToReadJson rank = true then
        (job.loads (job.edited rank)).bind fun _ => .ok (job.edited rank)
        else .ok (job.edited rank)) = _) ↔ _
      have saved :
          (if job.needToReadJson rank = true then
            (job.loads (job.edited rank)).bind fun _ => .ok (job.edited rank)
            else .ok (job.edited rank)) = Except.ok (job.edited rank) := by
        split
        next needed =>
          obtain ⟨events, loaded⟩ := read needed
          rw [loaded]
          rfl
        next => rfl
      rw [saved, Except.ok.injEq]
      constructor
      · rintro rfl
        exact ⟨⟨found, rfl⟩, rfl⟩
      · rintro ⟨_, rfl⟩
        rfl

theorem traceRight_edited_iff
    (inRange : rank < job.worldSize) :
    TraceRight (job.trace rank).text (job.edited rank) ↔
      (job.prefixes rank = true → allFlowIds (job.trace rank).text ≠ [] →
        10 ^ Nat.log 10 job.worldSize ≤ rank + 1) := by
  rw [← accepts_edited_iff inRange]
  constructor
  · intro right
    exact right.isJson
  · intro isJson
    refine ⟨isJson, ?_, ?_⟩
    · intro kind
      rw [flowIds_edited inRange, List.length_map]
    · intro finish finishBound start startBound
      rw [flowIds_edited inRange, flowIds_edited inRange, List.getElem?_map, List.getElem?_map,
        List.getElem?_eq_getElem finishBound, List.getElem?_eq_getElem startBound]
      rw [Option.map_some, Option.map_some, Option.some_inj, Option.some_inj]
      exact ⟨newId_inj, congrArg _⟩

/-- Ranks that both prefix their ids have no id in common. -/
theorem writtenIds_apart
    (fits : IdsFit job)
    {other : Nat}
    (inRange : rank < job.worldSize)
    (inRange' : other < job.worldSize)
    (differ : rank ≠ other)
    (both : (job.prefixes rank && job.prefixes other) = true) :
    ∀ id ∈ job.writtenIds rank, id ∉ job.writtenIds other := by
  rw [Bool.and_eq_true] at both
  have written :
      ∀ rank < job.worldSize, job.prefixes rank = true → ∀ id ∈ job.writtenIds rank,
        10 ^ Nat.log 10 job.worldSize ≤ rank + 1 ∧
          ∃ number, id = prefixedId rank (Nat.toDigits 10 number) := by
    intro rank inRange prefixed id listed
    rw [← allFlowIds_edited inRange] at listed
    have flows : allFlowIds (job.trace rank).text ≠ [] := by
      intro empty
      rw [allFlowIds, List.append_eq_nil_iff] at empty
      rw [allFlowIds, flowIds_edited inRange, flowIds_edited inRange, empty.1, empty.2] at listed
      cases listed
    refine ⟨fits.padded rank inRange prefixed flows, ?_⟩
    rw [allFlowIds, flowIds_edited inRange, flowIds_edited inRange, ← List.map_append] at listed
    obtain ⟨number, -, rfl⟩ := List.mem_map.mp listed
    exact ⟨number, if_pos prefixed⟩
  have bound : job.worldSize < 10 ^ (Nat.log 10 job.worldSize + 1) :=
    Nat.lt_pow_succ_log_self (by decide) _
  intro id listed listed'
  obtain ⟨padded, number, rfl⟩ := written rank inRange both.1 id listed
  obtain ⟨padded', number', same⟩ := written other inRange' both.2 _ listed'
  exact prefixedId_ne padded padded' (by omega) (by omega) differ same

end Job

/-- The saved traces keep their flows apart exactly if the ids fit. -/
theorem flowsApart_iff_idsFit
    (job : Job) :
    FlowsApart job ↔ IdsFit job := by
  constructor
  · rintro ⟨data, saved, apart⟩
    have same : ∀ rank < job.worldSize, data rank = job.edited rank := fun rank inRange =>
      ((Job.saved_eq_ok_iff inRange _).mp (saved rank inRange).1).2
    refine ⟨?_, ?_, ?_⟩
    · intro rank inRange
      exact ((Job.saved_eq_ok_iff inRange _).mp (saved rank inRange).1).1
    · intro rank inRange
      have right := (saved rank inRange).2
      rw [same rank inRange] at right
      exact (Job.traceRight_edited_iff inRange).mp right
    · intro rank inRange other inRange' differ _
      have here := apart rank inRange other inRange' differ
      rwa [same rank inRange, same other inRange', Job.allFlowIds_edited inRange,
        Job.allFlowIds_edited inRange'] at here
  · intro fits
    refine ⟨job.edited, ?_, ?_⟩
    · intro rank inRange
      exact ⟨(Job.saved_eq_ok_iff inRange _).mpr ⟨fits.searched rank inRange, rfl⟩,
        (Job.traceRight_edited_iff inRange).mpr (fits.padded rank inRange)⟩
    · intro rank inRange other inRange' differ
      rw [Job.allFlowIds_edited inRange, Job.allFlowIds_edited inRange']
      cases both : job.prefixes rank && job.prefixes other with
      | false => exact fits.apart rank inRange other inRange' differ both
      | true => exact Job.writtenIds_apart fits inRange inRange' differ both

/-! ## Two ranks without events of their own -/

/-- A flow from one event to another. -/
def flowTrace : PytorchTrace where
  text :=
    ['{', '"', 't', 'r', 'a', 'c', 'e', 'E', 'v', 'e', 'n', 't', 's', '"', ':', ' ', '[', '{'] ++
      flowKey .start ++ ['5', '}', ',', ' ', '{'] ++ flowKey .finish ++ ['5', '}', ']', '}']
  isJson := by decide +kernel
  decimal := by
    intro kind digits listed
    refine ⟨5, ?_⟩
    revert digits
    cases kind <;> decide +kernel
  minusOne := by decide +kernel

/-- Without own events the base time is not searched. -/
def plainJob : Job where
  worldSize := 2
  several := by decide
  settings rank := ⟨offlineProcName .pytorch rank, offlineTracerName .pytorch rank 2, false, false, false⟩
  backend _ := some .pytorch
  trace _ := flowTrace
  loads _ := .ok [.other, .finish 5]
  names := by
    rintro rank _ _ ⟨⟩ _ ⟨⟩
    exact exchangeable_offline .pytorch rank 2
  readable _ _ _ _ _ := ⟨_, rfl⟩

/-- Both ranks keep the id. -/
theorem not_flowsApart_plainJob :
    ¬FlowsApart plainJob := by
  rintro ⟨data, saved, apart⟩
  have ids : ∀ rank < 2, 5 ∈ allFlowIds (data rank) := by
    intro rank inRange
    have same := ((@Job.saved_eq_ok_iff plainJob rank inRange _).mp (saved rank inRange).1).2
    have plain : plainJob.prefixes rank = false := rfl
    rw [same, @Job.allFlowIds_edited plainJob rank inRange, Job.writtenIds, plain]
    change 5 ∈ (runsAfter Char.isDigit (flowKey .start) flowTrace.text ++
      runsAfter Char.isDigit (flowKey .finish) flowTrace.text).map fun digits =>
        Nat.ofDigitChars 10 digits 0
    decide +kernel
  exact apart 0 (by decide) 1 (by decide) (by decide) 5 (ids 0 (by decide)) (ids 1 (by decide))

end TensorPC.Tracers.MergedTraces
