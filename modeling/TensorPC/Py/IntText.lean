import TensorPC.Py.Error

namespace TensorPC

/-!
# Integers as texts

`str` of a length and `int` of a text.  A text is the list of its characters.
`int` accepts blanks around the number, a sign, and single underscores between
digits.
-/

/-- A Python text as its characters. -/
abbrev Text := List Char

/-- The blanks that `int` skips at both ends of a text. -/
def isBlank (letter : Char) : Bool :=
  (9 ≤ letter.toNat && letter.toNat ≤ 13) || (28 ≤ letter.toNat && letter.toNat ≤ 32)

/-- `text.strip()`. -/
def strip (text : Text) : Text :=
  ((text.dropWhile isBlank).reverse.dropWhile isBlank).reverse

/-- `letter.isspace()`. -/
def isSpace (letter : Char) : Bool :=
  isBlank letter ||
    [0x85, 0xa0, 0x1680, 0x2028, 0x2029, 0x202f, 0x205f, 0x3000].contains letter.toNat ||
    (0x2000 ≤ letter.toNat && letter.toNat ≤ 0x200a)

/-- The number that digits write, with underscores between groups of them. -/
def natOfText (text : Text) : PyResult Nat :=
  if (text.splitOn '_').all fun group => !group.isEmpty && group.all Char.isDigit then
    .ok (Nat.ofDigitChars 10 (text.filter (· != '_')) 0)
  else
    .error (.valueError "invalid literal for int() with base 10")

/-- `int(text)`. -/
def intOfText (text : Text) : PyResult Int :=
  match strip text with
  | '-' :: digits => (natOfText digits).map fun value => -(value : Int)
  | '+' :: digits => (natOfText digits).map fun value => (value : Int)
  | digits => (natOfText digits).map fun value => (value : Int)

theorem isBlank_of_isDigit
    {letter : Char}
    (digit : letter.isDigit = true) :
    isBlank letter = false := by
  simp only [Char.isDigit, Bool.and_eq_true, decide_eq_true_eq] at digit
  have low : 48 ≤ letter.toNat := UInt32.le_iff_toNat_le.mp digit.1
  simp only [isBlank, Bool.or_eq_false_iff, Bool.and_eq_false_iff, decide_eq_false_iff_not]
  omega

theorem strip_of_isDigit
    {text : Text}
    (digits : ∀ letter ∈ text, letter.isDigit = true) :
    strip text = text := by
  have keeps :
      ∀ letters : Text, (∀ letter ∈ letters, letter.isDigit = true) →
        letters.dropWhile isBlank = letters := by
    intro letters allDigits
    cases letters with
    | nil =>
        rfl
    | cons first rest =>
        have first := isBlank_of_isDigit (allDigits first List.mem_cons_self)
        simp [List.dropWhile_cons, first]
  unfold strip
  rw [keeps text digits,
    keeps text.reverse fun letter member => digits letter (List.mem_reverse.mp member),
    List.reverse_reverse]

theorem isDigit_of_mem_toDigits
    {number : Nat}
    {letter : Char}
    (member : letter ∈ Nat.toDigits 10 number) :
    letter.isDigit = true :=
  Nat.isDigit_of_mem_toDigits (by decide) (by decide) member

theorem notMem_toDigits
    {letter : Char}
    (other : letter.isDigit = false)
    (number : Nat) :
    letter ∉ Nat.toDigits 10 number := by
  intro member
  rw [isDigit_of_mem_toDigits member] at other
  cases other

theorem natOfText_toDigits (number : Nat) :
    natOfText (Nat.toDigits 10 number) = .ok number := by
  have underscore : '_' ∉ Nat.toDigits 10 number :=
    notMem_toDigits (by decide) number
  have oneGroup : (Nat.toDigits 10 number).splitOn '_' = [Nat.toDigits 10 number] := by
    have joined :
        (['_'].intercalate [Nat.toDigits 10 number]).splitOn '_' = [Nat.toDigits 10 number] :=
      List.splitOn_intercalate '_' (by simpa using underscore) (by simp)
    simpa using joined
  have kept : (Nat.toDigits 10 number).filter (· != '_') = Nat.toDigits 10 number := by
    apply List.filter_eq_self.mpr
    intro letter member
    simp only [bne_iff_ne]
    rintro rfl
    exact underscore member
  unfold natOfText
  rw [oneGroup, kept, Nat.ofDigitChars_toDigits (by decide) (by decide)]
  apply if_pos
  simp only [List.all_cons, List.all_nil, Bool.and_true, Bool.and_eq_true, Bool.not_eq_true',
    List.isEmpty_eq_false_iff, List.all_eq_true]
  exact ⟨Nat.toDigits_ne_nil, fun letter member => isDigit_of_mem_toDigits member⟩

theorem intOfText_toDigits (number : Nat) :
    intOfText (Nat.toDigits 10 number) = .ok (number : Int) := by
  have stripped : strip (Nat.toDigits 10 number) = Nat.toDigits 10 number :=
    strip_of_isDigit fun letter member => isDigit_of_mem_toDigits member
  have noSign :
      ∀ sign : Char, sign.isDigit = false →
        ∀ rest : Text, Nat.toDigits 10 number ≠ sign :: rest := by
    intro sign notDigit rest same
    exact notMem_toDigits notDigit number (same ▸ List.mem_cons_self)
  unfold intOfText
  rw [stripped]
  split
  · rename_i digits same
    exact absurd same (noSign '-' (by decide) digits)
  · rename_i digits same
    exact absurd same (noSign '+' (by decide) digits)
  · rw [natOfText_toDigits]
    rfl

theorem toDigits_injective
    {number other : Nat}
    (same : Nat.toDigits 10 number = Nat.toDigits 10 other) :
    number = other := by
  have read := congrArg (fun digits => Nat.ofDigitChars 10 digits 0) same
  simpa only [Nat.ofDigitChars_ten_toDigits] using read

end TensorPC
