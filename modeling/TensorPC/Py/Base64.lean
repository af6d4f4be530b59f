import TensorPC.Py.Error
import Mathlib.Data.List.Count

namespace TensorPC.Base64

/-!
# Base64

`base64.b64encode` and `base64.b64decode`.  The decoder skips characters outside
of the alphabet, and stops at a padding that ends a group of four characters.
-/

/-! ## The alphabet -/

/-- The character of six bits. -/
def digit (value : Nat) : Char :=
  if value < 26 then
    Char.ofNat ('A'.toNat + value)
  else if value < 52 then
    Char.ofNat ('a'.toNat + (value - 26))
  else if value < 62 then
    Char.ofNat ('0'.toNat + (value - 52))
  else if value = 62 then
    '+'
  else
    '/'

/-- The six bits of a character, if it is in the alphabet. -/
def digitValue? (char : Char) : Option Nat :=
  if 'A' ≤ char ∧ char ≤ 'Z' then
    some (char.toNat - 'A'.toNat)
  else if 'a' ≤ char ∧ char ≤ 'z' then
    some (char.toNat - 'a'.toNat + 26)
  else if '0' ≤ char ∧ char ≤ '9' then
    some (char.toNat - '0'.toNat + 52)
  else if char = '+' then
    some 62
  else if char = '/' then
    some 63
  else
    none

/-- A character of the alphabet. -/
def isDigit (char : Char) : Bool :=
  (digitValue? char).isSome

theorem digitValue?_digit
    {value : Nat}
    (small : value < 64) :
    digitValue? (digit value) = some value := by
  have all : ∀ value : Fin 64, digitValue? (digit value) = some value.val := by
    decide
  exact all ⟨value, small⟩

theorem isDigit_digit
    {value : Nat}
    (small : value < 64) :
    isDigit (digit value) = true := by
  simp only [isDigit, digitValue?_digit small, Option.isSome_some]

theorem digit_ne_pad
    {value : Nat}
    (small : value < 64) :
    digit value ≠ '=' := by
  intro isPad
  have found := digitValue?_digit small
  rw [isPad] at found
  cases found

/-! ## Encoding and decoding -/

/-- `base64.b64encode`, as text. -/
def encode : List UInt8 → List Char
  | [] => []
  | [a] => [digit (a.toNat / 4), digit (a.toNat % 4 * 16), '=', '=']
  | [a, b] =>
      [digit (a.toNat / 4), digit (a.toNat % 4 * 16 + b.toNat / 16),
        digit (b.toNat % 16 * 4), '=']
  | a :: b :: c :: rest =>
      digit (a.toNat / 4) :: digit (a.toNat % 4 * 16 + b.toNat / 16) ::
        digit (b.toNat % 16 * 4 + c.toNat / 64) :: digit (c.toNat % 64) ::
          encode rest

/-- The byte of two parts of bits. -/
def byteOf (value : Nat) : UInt8 :=
  UInt8.ofNat value

/--
The decoder at a character: its place in a group of four, the bits that are left
from the character before, and the padding characters since then.
-/
def decodeFrom :
    (quadPos left pads : Nat) → List Char → PyResult (List UInt8)
  | 0, _, _, [] => .ok []
  | 1, _, _, [] => .error (.valueError "Invalid base64-encoded string")
  | _ + 2, _, _, [] => .error (.valueError "Incorrect padding")
  | quadPos, left, pads, char :: rest =>
      if char = '=' then
        if 2 ≤ quadPos then
          if 4 ≤ quadPos + (pads + 1) then
            .ok []
          else
            decodeFrom quadPos left (pads + 1) rest
        else
          decodeFrom quadPos left pads rest
      else
        match digitValue? char with
        | none => decodeFrom quadPos left pads rest
        | some value =>
            match quadPos with
            | 0 => decodeFrom 1 value 0 rest
            | 1 =>
                (decodeFrom 2 (value % 16) 0 rest).map
                  (byteOf (left * 4 + value / 16) :: ·)
            | 2 =>
                (decodeFrom 3 (value % 4) 0 rest).map
                  (byteOf (left * 16 + value / 4) :: ·)
            | _ =>
                (decodeFrom 0 0 0 rest).map (byteOf (left * 64 + value) :: ·)

/-- `base64.b64decode`. -/
def decode (text : List Char) : PyResult (List UInt8) :=
  decodeFrom 0 0 0 text

/-! ## Decoding what was encoded -/

attribute [local simp] encode decodeFrom

section Digit

variable {value left pads : Nat} (small : value < 64) (rest : List Char)

include small

theorem decodeFrom_zero_digit :
    decodeFrom 0 left pads (digit value :: rest) = decodeFrom 1 value 0 rest := by
  simp [digit_ne_pad small, digitValue?_digit small]

theorem decodeFrom_one_digit :
    decodeFrom 1 left pads (digit value :: rest) =
      (decodeFrom 2 (value % 16) 0 rest).map
        (byteOf (left * 4 + value / 16) :: ·) := by
  simp [digit_ne_pad small, digitValue?_digit small]

theorem decodeFrom_two_digit :
    decodeFrom 2 left pads (digit value :: rest) =
      (decodeFrom 3 (value % 4) 0 rest).map
        (byteOf (left * 16 + value / 4) :: ·) := by
  simp [digit_ne_pad small, digitValue?_digit small]

theorem decodeFrom_three_digit :
    decodeFrom 3 left pads (digit value :: rest) =
      (decodeFrom 0 0 0 rest).map (byteOf (left * 64 + value) :: ·) := by
  simp [digit_ne_pad small, digitValue?_digit small]

end Digit

theorem byteOf_toNat
    {byte : UInt8}
    {value : Nat}
    (same : value = byte.toNat) :
    byteOf value = byte := by
  rw [same]
  exact UInt8.ofNat_toNat

section Bytes

variable (a b c : UInt8)

theorem byteOf_first
    {low : Nat}
    (small : low < 16) :
    byteOf (a.toNat / 4 * 4 + (a.toNat % 4 * 16 + low) / 16) = a :=
  byteOf_toNat (by omega)

theorem byteOf_second
    {low : Nat}
    (small : low < 4) :
    byteOf ((a.toNat % 4 * 16 + b.toNat / 16) % 16 * 16 +
        (b.toNat % 16 * 4 + low) / 4) = b := by
  have bound := b.toNat_lt
  exact byteOf_toNat (by omega)

theorem byteOf_third :
    byteOf ((b.toNat % 16 * 4 + c.toNat / 64) % 4 * 64 + c.toNat % 64) = c := by
  have bound := c.toNat_lt
  exact byteOf_toNat (by omega)

end Bytes

/-- Bytes are decoded from what they were encoded to. -/
theorem decode_encode (bytes : List UInt8) :
    decode (encode bytes) = .ok bytes := by
  unfold decode
  induction bytes using encode.induct with
  | case1 =>
      rfl
  | case2 a =>
      have bound := a.toNat_lt
      have first := @byteOf_first a 0 (by omega)
      rw [Nat.add_zero] at first
      rw [encode, decodeFrom_zero_digit (by omega),
        decodeFrom_one_digit (by omega), first]
      simp [Except.map]
  | case3 a b =>
      have boundA := a.toNat_lt
      have boundB := b.toNat_lt
      have second := @byteOf_second a b 0 (by omega)
      rw [Nat.add_zero] at second
      rw [encode, decodeFrom_zero_digit (by omega),
        decodeFrom_one_digit (by omega), decodeFrom_two_digit (by omega),
        byteOf_first a (by omega), second]
      simp [Except.map]
  | case4 a b c rest inductionHypothesis =>
      have boundA := a.toNat_lt
      have boundB := b.toNat_lt
      have boundC := c.toNat_lt
      rw [encode, decodeFrom_zero_digit (by omega),
        decodeFrom_one_digit (by omega), decodeFrom_two_digit (by omega),
        decodeFrom_three_digit (by omega), byteOf_first a (by omega),
        byteOf_second a b (by omega), byteOf_third b c, inductionHypothesis]
      rfl

/-- An encoded text has characters of the alphabet and padding. -/
theorem isDigit_of_mem_encode
    {bytes : List UInt8}
    {char : Char}
    (member : char ∈ encode bytes)
    (notPad : char ≠ '=') :
    isDigit char = true := by
  induction bytes using encode.induct with
  | case1 =>
      cases member
  | case2 a =>
      have bound := a.toNat_lt
      simp only [encode, List.mem_cons, List.not_mem_nil, or_false, notPad] at member
      rcases member with rfl | rfl
      all_goals exact isDigit_digit (by omega)
  | case3 a b =>
      have boundA := a.toNat_lt
      have boundB := b.toNat_lt
      simp only [encode, List.mem_cons, List.not_mem_nil, or_false, notPad] at member
      rcases member with rfl | rfl | rfl
      all_goals exact isDigit_digit (by omega)
  | case4 a b c rest inductionHypothesis =>
      have boundA := a.toNat_lt
      have boundB := b.toNat_lt
      have boundC := c.toNat_lt
      simp only [encode, List.mem_cons] at member
      rcases member with rfl | rfl | rfl | rfl | inRest
      · exact isDigit_digit (by omega)
      · exact isDigit_digit (by omega)
      · exact isDigit_digit (by omega)
      · exact isDigit_digit (by omega)
      · exact inductionHypothesis inRest

/-! ## How much is decoded -/

/-- Three bytes are decoded from four characters at most. -/
theorem length_decodeFrom_le
    {quadPos left pads : Nat}
    {text : List Char}
    {bytes : List UInt8}
    (inGroup : quadPos ≤ 3)
    (decoded : decodeFrom quadPos left pads text = .ok bytes) :
    4 * (bytes.length + (quadPos - 1)) ≤ 3 * (quadPos + text.countP isDigit) := by
  induction text generalizing quadPos left pads bytes with
  | nil =>
      match quadPos with
      | 0 =>
          cases decoded
          simp
      | 1 =>
          cases decoded
      | _ + 2 =>
          cases decoded
  | cons char rest inductionHypothesis =>
      rw [decodeFrom] at decoded
      split at decoded
      · rename_i isPad
        have padCount : (char :: rest).countP isDigit = rest.countP isDigit := by
          rw [isPad]
          rfl
        rw [padCount]
        split at decoded
        · split at decoded
          · cases decoded
            simp only [List.length_nil]
            omega
          · exact inductionHypothesis inGroup decoded
        · exact inductionHypothesis inGroup decoded
      · split at decoded
        · rename_i skipped
          have skipCount : (char :: rest).countP isDigit = rest.countP isDigit := by
            simp [isDigit, skipped]
          rw [skipCount]
          exact inductionHypothesis inGroup decoded
        · rename_i value found
          have digitCount :
              (char :: rest).countP isDigit = rest.countP isDigit + 1 := by
            simp [isDigit, found]
          rw [digitCount]
          split at decoded
          · have later := inductionHypothesis (by omega) decoded
            omega
          · obtain ⟨others, decodedRest, built⟩ := PyResult.map_eq_ok decoded
            have later := inductionHypothesis (by omega) decodedRest
            subst built
            simp only [List.length_cons]
            omega
          · obtain ⟨others, decodedRest, built⟩ := PyResult.map_eq_ok decoded
            have later := inductionHypothesis (by omega) decodedRest
            subst built
            simp only [List.length_cons]
            omega
          · rename_i notZero notOne notTwo
            have last : quadPos = 3 := by
              have nonzero : quadPos ≠ 0 := notZero
              have notFirst : quadPos ≠ 1 := notOne
              have notSecond : quadPos ≠ 2 := notTwo
              omega
            obtain ⟨others, decodedRest, built⟩ := PyResult.map_eq_ok decoded
            have later := inductionHypothesis (by omega) decodedRest
            subst built last
            simp only [List.length_cons]
            omega

/-- An encoded text has no characters to spare. -/
theorem countP_encode_lt (bytes : List UInt8) :
    3 * (encode bytes).countP isDigit < 4 * bytes.length + 3 := by
  induction bytes using encode.induct with
  | case1 =>
      simp
  | case2 a =>
      have bound := a.toNat_lt
      have first := @isDigit_digit (a.toNat / 4) (by omega)
      have second := @isDigit_digit (a.toNat % 4 * 16) (by omega)
      have pad : isDigit '=' = false := rfl
      simp [first, second, pad]
  | case3 a b =>
      have boundA := a.toNat_lt
      have boundB := b.toNat_lt
      have first := @isDigit_digit (a.toNat / 4) (by omega)
      have second :=
        @isDigit_digit (a.toNat % 4 * 16 + b.toNat / 16) (by omega)
      have third := @isDigit_digit (b.toNat % 16 * 4) (by omega)
      have pad : isDigit '=' = false := rfl
      simp [first, second, third, pad]
  | case4 a b c rest inductionHypothesis =>
      have boundA := a.toNat_lt
      have boundB := b.toNat_lt
      have boundC := c.toNat_lt
      have first := @isDigit_digit (a.toNat / 4) (by omega)
      have second :=
        @isDigit_digit (a.toNat % 4 * 16 + b.toNat / 16) (by omega)
      have third :=
        @isDigit_digit (b.toNat % 16 * 4 + c.toNat / 64) (by omega)
      have fourth := @isDigit_digit (c.toNat % 64) (by omega)
      simp only [encode, List.countP_cons, first, second, third, fourth,
        List.length_cons, if_true]
      omega

theorem length_lt_of_decode
    {bytes decoded : List UInt8}
    {text : List Char}
    (fewer : text.countP isDigit < (encode bytes).countP isDigit)
    (computed : decode text = .ok decoded) :
    decoded.length < bytes.length := by
  have bound := countP_encode_lt bytes
  have short := length_decodeFrom_le (Nat.zero_le 3) computed
  omega

end TensorPC.Base64
