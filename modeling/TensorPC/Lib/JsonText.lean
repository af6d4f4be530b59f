import TensorPC.Lib.TextReplacement

namespace TensorPC.JsonText

/-!
# The grammar of JSON texts

A JSON text is read letter by letter with a stack of the arrays and objects that are
open.  A reader that is given another piece of text in place of a piece that leads to
the same configuration does not see the difference.
-/

inductive Frame
  | array
  | object
  deriving DecidableEq

inductive Literal
  | isTrue
  | isFalse
  | null
  deriving DecidableEq

def Literal.letters : Literal → List Char
  | .isTrue => ['t', 'r', 'u', 'e']
  | .isFalse => ['f', 'a', 'l', 's', 'e']
  | .null => ['n', 'u', 'l', 'l']

/-- What the reader is in the middle of or what has to come next. -/
inductive Mode
  | value
  | firstElement
  | firstKey
  | key
  | colon
  | done
  | string (isKey : Bool)
  | escape (isKey : Bool)
  | unicode (isKey : Bool) (left : Nat)
  | literal (word : Literal) (read : Nat)
  | minus
  | zero
  | integer
  | point
  | fraction
  | exponent
  | exponentSign
  | exponentDigits
  deriving DecidableEq

structure Config where
  mode : Mode
  stack : List Frame
  deriving DecidableEq

def isSpace (letter : Char) : Bool :=
  letter = ' ' || letter = '\n' || letter = '\r' || letter = '\t'

def isHexDigit (letter : Char) : Bool :=
  letter.isDigit || ('a' ≤ letter && letter ≤ 'f') || ('A' ≤ letter && letter ≤ 'F')

/-- The first letter of a value. -/
def beginValue
    (mode : Mode)
    (stack : List Frame)
    (letter : Char) :
    Option Config :=
  if isSpace letter then
    some ⟨mode, stack⟩
  else if letter = '0' then
    some ⟨.zero, stack⟩
  else if letter.isDigit then
    some ⟨.integer, stack⟩
  else
    match letter with
    | '"' => some ⟨.string false, stack⟩
    | '[' => some ⟨.firstElement, .array :: stack⟩
    | '{' => some ⟨.firstKey, .object :: stack⟩
    | '-' => some ⟨.minus, stack⟩
    | 't' => some ⟨.literal .isTrue 1, stack⟩
    | 'f' => some ⟨.literal .isFalse 1, stack⟩
    | 'n' => some ⟨.literal .null 1, stack⟩
    | _ => none

/-- A letter behind a value. -/
def afterValue
    (stack : List Frame)
    (letter : Char) :
    Option Config :=
  if isSpace letter then
    some ⟨.done, stack⟩
  else
    match letter, stack with
    | ',', .array :: _ => some ⟨.value, stack⟩
    | ',', .object :: _ => some ⟨.key, stack⟩
    | ']', .array :: rest => some ⟨.done, rest⟩
    | '}', .object :: rest => some ⟨.done, rest⟩
    | _, _ => none

/-- A letter behind the digits of an integer. -/
def afterInteger
    (stack : List Frame)
    (letter : Char) :
    Option Config :=
  match letter with
  | '.' => some ⟨.point, stack⟩
  | 'e' => some ⟨.exponent, stack⟩
  | 'E' => some ⟨.exponent, stack⟩
  | _ => afterValue stack letter

def step
    (config : Config)
    (letter : Char) :
    Option Config :=
  match config with
  | ⟨.value, stack⟩ => beginValue .value stack letter
  | ⟨.firstElement, stack⟩ =>
      if letter = ']' then afterValue stack letter else beginValue .firstElement stack letter
  | ⟨.firstKey, stack⟩ =>
      if isSpace letter then
        some ⟨.firstKey, stack⟩
      else
        match letter with
        | '"' => some ⟨.string true, stack⟩
        | '}' => afterValue stack letter
        | _ => none
  | ⟨.key, stack⟩ =>
      if isSpace letter then
        some ⟨.key, stack⟩
      else if letter = '"' then
        some ⟨.string true, stack⟩
      else
        none
  | ⟨.colon, stack⟩ =>
      if isSpace letter then
        some ⟨.colon, stack⟩
      else if letter = ':' then
        some ⟨.value, stack⟩
      else
        none
  | ⟨.done, stack⟩ => afterValue stack letter
  | ⟨.string isKey, stack⟩ =>
      if letter = '"' then
        some ⟨if isKey then .colon else .done, stack⟩
      else if letter = '\\' then
        some ⟨.escape isKey, stack⟩
      else if letter.toNat < 32 then
        none
      else
        some ⟨.string isKey, stack⟩
  | ⟨.escape isKey, stack⟩ =>
      if letter = 'u' then
        some ⟨.unicode isKey 3, stack⟩
      else if letter ∈ ['"', '\\', '/', 'b', 'f', 'n', 'r', 't'] then
        some ⟨.string isKey, stack⟩
      else
        none
  | ⟨.unicode isKey left, stack⟩ =>
      if isHexDigit letter then
        match left with
        | 0 => some ⟨.string isKey, stack⟩
        | left + 1 => some ⟨.unicode isKey left, stack⟩
      else
        none
  | ⟨.literal word read, stack⟩ =>
      if word.letters[read]? = some letter then
        some ⟨if read + 1 = word.letters.length then .done else .literal word (read + 1), stack⟩
      else
        none
  | ⟨.minus, stack⟩ =>
      if letter = '0' then
        some ⟨.zero, stack⟩
      else if letter.isDigit then
        some ⟨.integer, stack⟩
      else
        none
  | ⟨.zero, stack⟩ => if letter.isDigit then none else afterInteger stack letter
  | ⟨.integer, stack⟩ =>
      if letter.isDigit then some ⟨.integer, stack⟩ else afterInteger stack letter
  | ⟨.point, stack⟩ => if letter.isDigit then some ⟨.fraction, stack⟩ else none
  | ⟨.fraction, stack⟩ =>
      if letter.isDigit then
        some ⟨.fraction, stack⟩
      else if letter = 'e' ∨ letter = 'E' then
        some ⟨.exponent, stack⟩
      else
        afterValue stack letter
  | ⟨.exponent, stack⟩ =>
      if letter = '+' ∨ letter = '-' then
        some ⟨.exponentSign, stack⟩
      else if letter.isDigit then
        some ⟨.exponentDigits, stack⟩
      else
        none
  | ⟨.exponentSign, stack⟩ => if letter.isDigit then some ⟨.exponentDigits, stack⟩ else none
  | ⟨.exponentDigits, stack⟩ =>
      if letter.isDigit then some ⟨.exponentDigits, stack⟩ else afterValue stack letter

def run :
    List Char → Config → Option Config
  | [], config => some config
  | letter :: rest, config => (step config letter).bind (run rest)

def start : Config :=
  ⟨.value, []⟩

/-- A text may end behind a value that is in no array and no object. -/
def Config.complete (config : Config) : Bool :=
  config.stack.isEmpty &&
    match config.mode with
    | .done | .zero | .integer | .fraction | .exponentDigits => true
    | _ => false

def acceptsFrom
    (text : List Char)
    (config : Config) :
    Bool :=
  (run text config).any Config.complete

/-- The text is a JSON text. -/
def accepts (text : List Char) : Bool :=
  acceptsFrom text start

attribute [local simp] step

theorem run_append
    (front rest : List Char)
    (config : Config) :
    run (front ++ rest) config = (run front config).bind (run rest) := by
  induction front generalizing config with
  | nil =>
      rfl
  | cons letter front inductionHypothesis =>
      rw [List.cons_append, run, run]
      cases step config letter with
      | none => rfl
      | some next => exact inductionHypothesis next

theorem acceptsFrom_append
    (front rest : List Char)
    (config : Config) :
    acceptsFrom (front ++ rest) config = (run front config).any (acceptsFrom rest) := by
  rw [acceptsFrom, run_append]
  cases run front config <;> rfl

theorem acceptsFrom_cons
    (letter : Char)
    (rest : List Char)
    (config : Config) :
    acceptsFrom (letter :: rest) config = (step config letter).any (acceptsFrom rest) := by
  rw [acceptsFrom, run]
  cases step config letter <;> rfl

/-! ## Numbers -/

section Numbers

variable {digits rest : List Char} {stack : List Frame}

theorem run_integer
    (ofDigits : ∀ letter ∈ digits, letter.isDigit = true) :
    run digits ⟨.integer, stack⟩ = some ⟨.integer, stack⟩ := by
  induction digits with
  | nil =>
      rfl
  | cons digit digits inductionHypothesis =>
      rw [List.forall_mem_cons] at ofDigits
      have read : step ⟨.integer, stack⟩ digit = some ⟨.integer, stack⟩ := if_pos ofDigits.1
      rw [run, read]
      exact inductionHypothesis ofDigits.2

/-- A positive number is written without a leading zero. -/
theorem toDigits_of_pos
    {number : Nat}
    (positive : 0 < number) :
    ∃ digit digits, Nat.toDigits 10 number = digit :: digits ∧ digit ≠ '0' := by
  induction number using Nat.strong_induction_on with
  | h number inductionHypothesis =>
      by_cases single : number < 10
      · refine ⟨number.digitChar, [], Nat.toDigits_of_lt_base single, ?_⟩
        rw [ne_eq, Nat.digitChar_eq_zero]
        exact positive.ne'
      · obtain ⟨digit, digits, shape, notZero⟩ :=
          inductionHypothesis (number / 10) (by omega) (by omega)
        refine ⟨digit, digits ++ [(number % 10).digitChar], ?_, notZero⟩
        rw [Nat.toDigits_of_base_le (by decide) (not_lt.mp single), shape, List.cons_append]

theorem not_isSpace_of_isDigit
    {letter : Char}
    (isDigit : letter.isDigit = true) :
    isSpace letter = false := by
  by_contra space
  simp only [isSpace, Bool.not_eq_false, Bool.or_eq_true, decide_eq_true_eq] at space
  rcases space with ((rfl | rfl) | rfl) | rfl <;> revert isDigit <;> decide

/-- Digits without a leading zero are read as an integer. -/
theorem run_value_of_ne_zero
    {digit : Char}
    (ofDigits : ∀ letter ∈ digit :: digits, letter.isDigit = true)
    (notZero : digit ≠ '0') :
    run (digit :: digits) ⟨.value, stack⟩ = some ⟨.integer, stack⟩ := by
  rw [List.forall_mem_cons] at ofDigits
  have read : step ⟨.value, stack⟩ digit = some ⟨.integer, stack⟩ := by
    simp only [step, beginValue, not_isSpace_of_isDigit ofDigits.1, notZero, ofDigits.1,
      if_true, if_false, Bool.false_eq_true]
  rw [run, read]
  exact run_integer ofDigits.2

/-- After a leading zero there is no other digit. -/
theorem run_value_of_zero
    {digit : Char}
    (isDigit : digit.isDigit = true) :
    run ('0' :: digit :: rest) ⟨.value, stack⟩ = none := by
  have read : step ⟨.zero, stack⟩ digit = none := if_pos isDigit
  change (step ⟨.zero, stack⟩ digit).bind (run rest) = none
  rw [read]
  rfl

/-- Behind its digits, zero is read as every other integer. -/
theorem acceptsFrom_zero
    (ended : rest.takeWhile Char.isDigit = []) :
    acceptsFrom rest ⟨.zero, stack⟩ = acceptsFrom rest ⟨.integer, stack⟩ := by
  cases rest with
  | nil =>
      rfl
  | cons letter rest =>
      have other : letter.isDigit = false := by
        by_contra isDigit
        rw [Bool.not_eq_false] at isDigit
        rw [List.takeWhile_cons, isDigit] at ended
        cases ended
      have read : step ⟨.zero, stack⟩ letter = step ⟨.integer, stack⟩ letter := by
        simp [other]
      rw [acceptsFrom_cons, acceptsFrom_cons, read]

end Numbers

/-! ## Pieces that begin with a quotation mark -/

theorem not_isSpace_of_isAlpha
    {letter : Char}
    (isAlpha : letter.isAlpha = true) :
    isSpace letter = false := by
  by_contra space
  simp only [isSpace, Bool.not_eq_false, Bool.or_eq_true, decide_eq_true_eq] at space
  rcases space with ((rfl | rfl) | rfl) | rfl <;> revert isAlpha <;> decide

theorem afterValue_of_isAlpha
    {letter : Char}
    (isAlpha : letter.isAlpha = true)
    (stack : List Frame) :
    afterValue stack letter = none := by
  unfold afterValue
  rw [not_isSpace_of_isAlpha isAlpha, if_neg (by simp)]
  split <;> first | rfl | exact absurd isAlpha (by decide)

theorem afterValue_quote
    (stack : List Frame) :
    afterValue stack '"' = none := by
  unfold afterValue
  rw [if_neg (by decide)]
  split <;> simp_all

theorem letters_ne_quote
    (word : Literal)
    (read : Nat) :
    word.letters[read]? ≠ some '"' := by
  intro found
  have listed := List.mem_of_getElem? found
  revert listed
  cases word <;> decide

/-- A letter behind a string that was closed is refused. -/
theorem step_closed_of_isAlpha
    {letter : Char}
    (isAlpha : letter.isAlpha = true)
    (isKey : Bool)
    (stack : List Frame) :
    step ⟨if isKey then .colon else .done, stack⟩ letter = none := by
  cases isKey with
  | false =>
      exact afterValue_of_isAlpha isAlpha stack
  | true =>
      have notColon : letter ≠ ':' := by
        rintro rfl
        revert isAlpha
        decide
      simp only [if_true, step, not_isSpace_of_isAlpha isAlpha, Bool.false_eq_true, if_false,
        notColon]

/-- Behind a quotation mark the reader is in a string, or the mark or the letter after
it is refused. -/
theorem run_quote
    (config : Config) :
    (∃ isKey stack, ∀ rest, run ('"' :: rest) config = run rest ⟨.string isKey, stack⟩) ∨
      ∀ letter rest, letter.isAlpha = true → run ('"' :: letter :: rest) config = none := by
  obtain ⟨mode, stack⟩ := config
  have refused :
      step ⟨mode, stack⟩ '"' = none →
        ∀ letter rest, letter.isAlpha = true →
          run ('"' :: letter :: rest) ⟨mode, stack⟩ = none := by
    intro read letter rest _
    rw [run, read]
    rfl
  cases mode with
  | value => exact .inl ⟨false, stack, fun _ => rfl⟩
  | firstElement => exact .inl ⟨false, stack, fun _ => rfl⟩
  | firstKey => exact .inl ⟨true, stack, fun _ => rfl⟩
  | key => exact .inl ⟨true, stack, fun _ => rfl⟩
  | escape isKey => exact .inl ⟨isKey, stack, fun _ => rfl⟩
  | string isKey =>
      right
      intro letter rest isAlpha
      have closed := step_closed_of_isAlpha isAlpha isKey stack
      change (step ⟨if isKey then .colon else .done, stack⟩ letter).bind (run rest) = none
      rw [closed]
      rfl
  | unicode isKey left => exact .inr (refused (by cases left <;> rfl))
  | literal word read => exact .inr (refused (if_neg (letters_ne_quote word read)))
  | done => exact .inr (refused (afterValue_quote stack))
  | zero => exact .inr (refused (afterValue_quote stack))
  | integer => exact .inr (refused (afterValue_quote stack))
  | fraction => exact .inr (refused (afterValue_quote stack))
  | exponentDigits => exact .inr (refused (afterValue_quote stack))
  | colon | minus | point | exponent | exponentSign => exact .inr (refused rfl)

/-! ## Replacements -/

section Replacements

open TextReplacement

variable {old new text text' : List Char}

/-- A piece may be replaced by one that is read alike. -/
theorem acceptsFrom_of_replaced
    (alike : ∀ config, run old config = run new config)
    (replaced : Replaced old new text text')
    (config : Config) :
    acceptsFrom text' config = acceptsFrom text config := by
  induction replaced generalizing config with
  | done =>
      rfl
  | found replaced inductionHypothesis =>
      have same := funext inductionHypothesis
      rw [acceptsFrom_append, acceptsFrom_append, alike, same]
  | letter absent replaced inductionHypothesis =>
      have same := funext inductionHypothesis
      rw [acceptsFrom_cons, acceptsFrom_cons, same]

/-! ### Numbers behind a pattern -/

/-- Behind the pattern a value begins, if the pattern can be read. -/
def LeadsToValue (pattern : List Char) : Prop :=
  ∀ config, run pattern config = none ∨ ∃ stack, run pattern config = some ⟨.value, stack⟩

section Integers

variable {pattern extra : List Char}

/-- Digits without a leading zero may be put before a decimal number. -/
theorem acceptsFrom_integer
    {number : Nat}
    {rest : List Char}
    (decimal : rest.takeWhile Char.isDigit = Nat.toDigits 10 number)
    (stack : List Frame) :
    acceptsFrom rest ⟨.integer, stack⟩ = acceptsFrom rest ⟨.value, stack⟩ := by
  have split : Nat.toDigits 10 number ++ rest.dropWhile Char.isDigit = rest := by
    rw [← decimal, List.takeWhile_append_dropWhile]
  have ended : (rest.dropWhile Char.isDigit).takeWhile Char.isDigit = [] := by
    cases shape : rest.dropWhile Char.isDigit with
    | nil =>
        rfl
    | cons letter after =>
        have other := @List.head_dropWhile_not _ Char.isDigit rest (by simp [shape])
        simp only [shape, List.head_cons] at other
        rw [List.takeWhile_cons, other]
        rfl
  have ofDigits : ∀ letter ∈ Nat.toDigits 10 number, letter.isDigit = true :=
    fun letter listed => Nat.isDigit_of_mem_toDigits (by decide) (by decide) listed
  rw [← split, acceptsFrom_append, acceptsFrom_append, run_integer ofDigits]
  cases Nat.eq_zero_or_pos number with
  | inl zero =>
      subst zero
      exact (acceptsFrom_zero ended).symm
  | inr positive =>
      obtain ⟨digit, digits, shape, notZero⟩ := toDigits_of_pos positive
      rw [shape, run_value_of_ne_zero (shape ▸ ofDigits) notZero]

theorem acceptsFrom_of_insert
    (nonempty : pattern ≠ [])
    (leads : LeadsToValue pattern)
    (integer : ∀ stack, run extra ⟨.value, stack⟩ = some ⟨.integer, stack⟩)
    (decimal :
      ∀ digits ∈ runsAfter Char.isDigit pattern text, ∃ number, digits = Nat.toDigits 10 number)
    (replaced : Replaced pattern (pattern ++ extra) text text')
    (config : Config) :
    acceptsFrom text' config = acceptsFrom text config := by
  induction replaced generalizing config with
  | done =>
      rfl
  | @found rest rest' replaced inductionHypothesis =>
      obtain ⟨number, here⟩ := decimal _ (takeWhile_mem_runsAfter nonempty rest)
      have later := fun digits listed =>
        decimal digits (mem_runsAfter_append listed pattern)
      rw [List.append_assoc, acceptsFrom_append, acceptsFrom_append]
      rcases leads config with refused | ⟨stack, read⟩
      · rw [refused]
        rfl
      · rw [read]
        change acceptsFrom (extra ++ rest') _ = acceptsFrom rest _
        rw [acceptsFrom_append, integer]
        change acceptsFrom rest' _ = _
        rw [inductionHypothesis later, acceptsFrom_integer here]
  | letter absent replaced inductionHypothesis =>
      rw [runsAfter_cons_of_not_prefixOf absent] at decimal
      have same := funext (inductionHypothesis decimal)
      rw [acceptsFrom_cons, acceptsFrom_cons, same]

/-- A piece that cannot begin a value spoils every text with the pattern. -/
theorem acceptsFrom_of_insert_refused
    (nonempty : pattern ≠ [])
    (leads : LeadsToValue pattern)
    (refused : ∀ stack, run extra ⟨.value, stack⟩ = none)
    (replaced : Replaced pattern (pattern ++ extra) text text')
    (config : Config) :
    acceptsFrom text' config =
      (decide (runsAfter Char.isDigit pattern text = []) && acceptsFrom text config) := by
  induction replaced generalizing config with
  | done =>
      rw [runsAfter_nil nonempty]
      rfl
  | @found rest rest' replaced inductionHypothesis =>
      have present : runsAfter Char.isDigit pattern (pattern ++ rest) ≠ [] :=
        List.ne_nil_of_mem (takeWhile_mem_runsAfter nonempty rest)
      rw [decide_eq_false present, Bool.false_and, List.append_assoc, acceptsFrom_append]
      rcases leads config with unread | ⟨stack, read⟩
      · rw [unread]
        rfl
      · rw [read]
        change acceptsFrom (extra ++ rest') _ = _
        rw [acceptsFrom_append, refused]
        rfl
  | @letter first rest rest' absent replaced inductionHypothesis =>
      rw [runsAfter_cons_of_not_prefixOf absent, acceptsFrom_cons, acceptsFrom_cons]
      cases step config first with
      | none => simp
      | some next => exact inductionHypothesis next

/-- An integer behind the pattern may be replaced by a decimal number. -/
theorem acceptsFrom_of_integer
    {number : Nat}
    (nonempty : pattern ++ extra ≠ [])
    (leads : LeadsToValue pattern)
    (integer : ∀ stack, run extra ⟨.value, stack⟩ = some ⟨.integer, stack⟩)
    (ended : ∀ digits ∈ runsAfter Char.isDigit (pattern ++ extra) text, digits = [])
    (replaced :
      Replaced (pattern ++ extra) (pattern ++ Nat.toDigits 10 number) text text')
    (config : Config) :
    acceptsFrom text' config = acceptsFrom text config := by
  induction replaced generalizing config with
  | done =>
      rfl
  | @found rest rest' replaced inductionHypothesis =>
      have here := ended _ (takeWhile_mem_runsAfter nonempty rest)
      have later := inductionHypothesis fun digits listed =>
        ended digits (mem_runsAfter_append listed _)
      have ofDigits : ∀ letter ∈ Nat.toDigits 10 number, letter.isDigit = true :=
        fun letter listed => Nat.isDigit_of_mem_toDigits (by decide) (by decide) listed
      rw [List.append_assoc, List.append_assoc, acceptsFrom_append, acceptsFrom_append]
      rcases leads config with refused | ⟨stack, read⟩
      · rw [refused]
        rfl
      · rw [read]
        change acceptsFrom (_ ++ rest') _ = acceptsFrom (extra ++ rest) _
        rw [acceptsFrom_append, acceptsFrom_append, integer]
        change _ = acceptsFrom rest _
        rw [← later]
        cases Nat.eq_zero_or_pos number with
        | inl zero =>
            subst zero
            change acceptsFrom rest' ⟨.zero, stack⟩ = _
            rw [later, later, acceptsFrom_zero here]
        | inr positive =>
            obtain ⟨digit, digits, shape, notZero⟩ := toDigits_of_pos positive
            rw [shape, run_value_of_ne_zero (shape ▸ ofDigits) notZero]
            rfl
  | letter absent replaced inductionHypothesis =>
      rw [runsAfter_cons_of_not_prefixOf absent] at ended
      have same := funext (inductionHypothesis ended)
      rw [acceptsFrom_cons, acceptsFrom_cons, same]

end Integers

end Replacements

end TensorPC.JsonText
