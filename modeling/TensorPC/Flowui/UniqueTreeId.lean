import TensorPC.Py.IntText
import TensorPC.Py.Slice
import TensorPC.Lib.Transition
import Mathlib.Algebra.BigOperators.Group.List.Basic
import Mathlib.Data.List.Infix
import Mathlib.Tactic.Ring

namespace TensorPC.Flowui

/-!
# Unique tree ids

A tree id is a list of parts written as one text: the lengths of the parts,
joined by dots, a bar, and the parts themselves, joined by a splitter that only
helps a reader.  The constructor reads the text back by the lengths, and the
other methods build their texts from the parts.
-/

/-- `_LENGTH_SPLIT`. -/
def lengthSplit : Char := '.'

/-- `UniqueTreeId`. -/
structure UniqueTreeId where
  uidEncoded : Text
  parts : List Text
  splitterLength : Nat
  deriving DecidableEq, Repr

namespace UniqueTreeId

/-- The default splitter. -/
def defaultSplitter : Text := ['.']

/-- The lengths of the parts, joined. -/
def lengthPart (parts : List Text) : Text :=
  [lengthSplit].intercalate (parts.map fun part => Nat.toDigits 10 part.length)

/-- The text written for parts. -/
def encode (parts : List Text) (splitter : Text) : Text :=
  lengthPart parts ++ '|' :: splitter.intercalate parts

/-- The loop of the constructor: cut one part for each length. -/
def cutParts
    (uidPart : Text)
    (splitterLength : Nat) :
    List Int → Int → List Text
  | [], _ => []
  | length :: lengths, start =>
      sliceInt uidPart start (start + length) ::
        cutParts uidPart splitterLength lengths (start + length + splitterLength)

/-- `__init__`. -/
def ofUid (uid : Text) (splitterLength : Nat) : PyResult UniqueTreeId :=
  match uid.findIdx? (· = '|') with
  | none => do
      pyAssert (uid.length = 0)
        ("uid should be empty if no splitter exists, but got " ++ String.ofList uid)
      return ⟨uid, [], splitterLength⟩
  | some splitterFirstIndex => do
      let uidPart := uid.drop (splitterFirstIndex + 1)
      let lengths ←
        ((uid.take splitterFirstIndex).splitOn lengthSplit).mapM intOfText
      pyAssert
        (lengths.sum =
          (uidPart.length : Int) - splitterLength * ((lengths.length : Int) - 1))
        (String.ofList uid ++ " not valid")
      return ⟨uid, cutParts uidPart splitterLength lengths 0, splitterLength⟩

/-- `set_parts_inplace`. -/
def setPartsInplace
    (id : UniqueTreeId)
    (parts : List Text)
    (splitter : Text) :
    UniqueTreeId :=
  { id with parts := parts, uidEncoded := encode parts splitter }

/-- `from_parts`. -/
def fromParts (parts : List Text) (splitter : Text) : PyResult UniqueTreeId :=
  if parts.length = 0 then
    ofUid [] splitter.length
  else
    ofUid (encode parts splitter) splitter.length

/-- `append_part`. -/
def appendPart
    (id : UniqueTreeId)
    (part splitter : Text) :
    PyResult UniqueTreeId :=
  fromParts (id.parts ++ [part]) splitter

/-- `extend_parts`. -/
def extendParts
    (id : UniqueTreeId)
    (parts : List Text)
    (splitter : Text) :
    PyResult UniqueTreeId :=
  fromParts (id.parts ++ parts) splitter

/-- `pop`. -/
def pop (id : UniqueTreeId) : PyResult UniqueTreeId :=
  fromParts id.parts.dropLast defaultSplitter

/-- `__add__` with a text. -/
def addText (id : UniqueTreeId) (other : Text) : PyResult UniqueTreeId :=
  fromParts (id.parts ++ [other]) defaultSplitter

/-- `__add__` with another id. -/
def add (id other : UniqueTreeId) : PyResult UniqueTreeId :=
  fromParts (id.parts ++ other.parts) defaultSplitter

/-- `common_prefix_index`, on the parts of the two ids. -/
def commonPrefixIndex : List Text → List Text → Nat
  | part :: rest, otherPart :: otherRest =>
      if part = otherPart then
        commonPrefixIndex rest otherRest + 1
      else
        0
  | _, _ => 0

/-- `common_prefix`. -/
def commonPrefix (id other : UniqueTreeId) : PyResult UniqueTreeId :=
  fromParts (id.parts.take (commonPrefixIndex id.parts other.parts)) defaultSplitter

/-- `copy`. -/
def copy (id : UniqueTreeId) : PyResult UniqueTreeId :=
  ofUid id.uidEncoded id.splitterLength

/-! ## Reading what was written -/

theorem notMem_lengthPart
    {letter : Char}
    (other : letter.isDigit = false)
    (noSplit : letter ≠ lengthSplit)
    (parts : List Text) :
    letter ∉ lengthPart parts := by
  unfold lengthPart
  induction parts with
  | nil =>
      simp [List.intercalate]
  | cons part rest inductionHypothesis =>
      have notDigit : letter ∉ Nat.toDigits 10 part.length :=
        notMem_toDigits other _
      cases rest with
      | nil =>
          simpa [List.intercalate] using notDigit
      | cons next others =>
          simp only [List.map_cons] at inductionHypothesis ⊢
          rw [List.intercalate_cons_cons]
          simp only [List.mem_append, not_or, List.mem_singleton]
          exact ⟨⟨notDigit, noSplit⟩, inductionHypothesis⟩

theorem findIdx?_encode (parts : List Text) (splitter : Text) :
    (encode parts splitter).findIdx? (· = '|') = some (lengthPart parts).length := by
  unfold encode
  rw [List.findIdx?_append]
  have none : (lengthPart parts).findIdx? (· = '|') = none := by
    rw [List.findIdx?_eq_none_iff]
    intro letter member
    simp only [decide_eq_false_iff_not]
    rintro rfl
    exact notMem_lengthPart (by decide) (by decide) parts member
  rw [none]
  simp [List.findIdx?_cons]

theorem mapM_lengthPart
    {parts : List Text}
    (nonempty : parts ≠ []) :
    ((lengthPart parts).splitOn lengthSplit).mapM intOfText =
      .ok (parts.map fun part => (part.length : Int)) := by
  unfold lengthPart
  rw [List.splitOn_intercalate]
  · clear nonempty
    induction parts with
    | nil =>
        rfl
    | cons part rest inductionHypothesis =>
        simp only [List.map_cons, List.mapM_cons, intOfText_toDigits, inductionHypothesis]
        rfl
  · intro written member
    obtain ⟨part, _, rfl⟩ := List.mem_map.mp member
    exact notMem_toDigits (by decide) _
  · simpa using nonempty

/-- The length of joined parts. -/
theorem length_intercalate
    (splitter : Text)
    {parts : List Text}
    (nonempty : parts ≠ []) :
    ((splitter.intercalate parts).length : Int) =
      (parts.map fun part => (part.length : Int)).sum +
        splitter.length * ((parts.length : Int) - 1) := by
  induction parts with
  | nil =>
      exact absurd rfl nonempty
  | cons part rest inductionHypothesis =>
      cases rest with
      | nil =>
          simp [List.intercalate]
      | cons next others =>
          rw [List.intercalate_cons_cons]
          have rest := inductionHypothesis (by simp)
          simp only [List.length_append, Nat.cast_add, List.map_cons, List.sum_cons,
            List.length_cons, Nat.cast_one] at rest ⊢
          rw [rest]
          ring

/-- Cutting joined parts by their lengths gives the parts. -/
theorem cutParts_intercalate
    (splitter : Text)
    (before : Text)
    (parts : List Text) :
    cutParts (before ++ splitter.intercalate parts) splitter.length
        (parts.map fun part => (part.length : Int)) before.length =
      parts := by
  induction parts generalizing before with
  | nil =>
      rfl
  | cons part rest inductionHypothesis =>
      cases rest with
      | nil =>
          simp only [List.map_cons, List.map_nil, cutParts, List.intercalate_singleton]
          rw [← Nat.cast_add, sliceInt_natCast]
          have cut := slice_between before part []
          rw [List.append_nil] at cut
          rw [cut]
      | cons next others =>
          have rest := inductionHypothesis (before ++ part ++ splitter)
          rw [List.intercalate_cons_cons]
          simp only [List.map_cons, List.length_append, Nat.cast_add, List.append_assoc]
            at rest ⊢
          rw [cutParts, ← Nat.cast_add, sliceInt_natCast, slice_between, Nat.cast_add,
            add_assoc, rest]

theorem ofUid_encode
    {parts : List Text}
    (nonempty : parts ≠ [])
    (splitter : Text) :
    ofUid (encode parts splitter) splitter.length =
      .ok ⟨encode parts splitter, parts, splitter.length⟩ := by
  have lengths : (encode parts splitter).take (lengthPart parts).length = lengthPart parts :=
    List.take_left
  have joined :
      (encode parts splitter).drop ((lengthPart parts).length + 1) =
        splitter.intercalate parts := by
    simp [encode, ← List.drop_drop]
  have cut := cutParts_intercalate splitter [] parts
  simp only [List.nil_append, List.length_nil, Nat.cast_zero] at cut
  unfold ofUid
  rw [findIdx?_encode]
  simp only [lengths, joined, mapM_lengthPart nonempty]
  have sums := length_intercalate splitter nonempty
  simpa [bind, Except.bind, pure, Except.pure, pyAssert, sums] using cut

theorem fromParts_ok (parts : List Text) (splitter : Text) :
    ∃ uid, fromParts parts splitter = .ok ⟨uid, parts, splitter.length⟩ ∧
      ofUid uid splitter.length = .ok ⟨uid, parts, splitter.length⟩ := by
  cases parts with
  | nil =>
      exact ⟨[], rfl, rfl⟩
  | cons part rest =>
      have read := ofUid_encode (List.cons_ne_nil part rest) splitter
      exact ⟨_, read, read⟩

theorem ofUid_encode_nil (splitter : Text) (splitterLength : Nat) :
    ofUid (encode [] splitter) splitterLength =
      .error (.valueError "invalid literal for int() with base 10") := by
  rfl

theorem uidEncoded_of_ofUid
    {uid : Text}
    {splitterLength : Nat}
    {id : UniqueTreeId}
    (read : ofUid uid splitterLength = .ok id) :
    id.uidEncoded = uid ∧ id.splitterLength = splitterLength := by
  unfold ofUid at read
  split at read
  · obtain ⟨_, _, made⟩ := PyResult.bind_eq_ok.mp read
    obtain rfl := Except.ok.inj made
    exact ⟨rfl, rfl⟩
  · obtain ⟨_, _, rest⟩ := PyResult.bind_eq_ok.mp read
    obtain ⟨_, _, made⟩ := PyResult.bind_eq_ok.mp rest
    obtain rfl := Except.ok.inj made
    exact ⟨rfl, rfl⟩

/-! ## Sequences of calls -/

/-- A call of the constructor or of a method on ids made earlier, by their numbers. -/
inductive IdCall
  | ofUid (uid : Text)
  | fromParts (parts : List Text)
  | appendPart (id : Nat) (part : Text)
  | extendParts (id : Nat) (parts : List Text)
  | pop (id : Nat)
  | addText (id : Nat) (other : Text)
  | add (id other : Nat)
  | commonPrefix (id other : Nat)
  | copy (id : Nat)
  | setPartsInplace (id : Nat) (parts : List Text)
  deriving DecidableEq, Repr

/-- The new id a call returns, when it is not the call that changes an id. -/
def returned (ids : List UniqueTreeId) : IdCall → Option (PyResult UniqueTreeId)
  | .ofUid uid => some (UniqueTreeId.ofUid uid defaultSplitter.length)
  | .fromParts parts => some (UniqueTreeId.fromParts parts defaultSplitter)
  | .appendPart id part => (ids[id]?).map (·.appendPart part defaultSplitter)
  | .extendParts id parts => (ids[id]?).map (·.extendParts parts defaultSplitter)
  | .pop id => (ids[id]?).map UniqueTreeId.pop
  | .addText id other => (ids[id]?).map (·.addText other)
  | .add id other => (ids[id]?).bind fun first => (ids[other]?).map first.add
  | .commonPrefix id other =>
      (ids[id]?).bind fun first => (ids[other]?).map first.commonPrefix
  | .copy id => (ids[id]?).map UniqueTreeId.copy
  | .setPartsInplace _ _ => none

/-- The ids after a call with the default splitter that does not raise. -/
def step (ids : List UniqueTreeId) (call : IdCall) : Option (List UniqueTreeId) :=
  match call with
  | .setPartsInplace id parts =>
      (ids[id]?).map fun found =>
        ids.set id (found.setPartsInplace parts defaultSplitter)
  | _ =>
      (returned ids call).bind fun outcome =>
        outcome.toOption.map fun made => ids ++ [made]

/-- Parsing the text of an id gives its parts. -/
def ParsesToParts (id : UniqueTreeId) : Prop :=
  ∃ parsed, ofUid id.uidEncoded defaultSplitter.length = .ok parsed ∧
    parsed.parts = id.parts

/-- A call that does not empty an id in place. -/
def KeepsParts : IdCall → Prop
  | .setPartsInplace _ parts => parts ≠ []
  | _ => True

instance (call : IdCall) : Decidable (KeepsParts call) :=
  match call with
  | .setPartsInplace _ parts => inferInstanceAs (Decidable (parts ≠ []))
  | .ofUid _ | .fromParts _ | .appendPart _ _ | .extendParts _ _ | .pop _ | .addText _ _
  | .add _ _ | .commonPrefix _ _ | .copy _ => .isTrue trivial

/-- The text of an id is what the constructor would read it from. -/
def WellEncoded (id : UniqueTreeId) : Prop :=
  ofUid id.uidEncoded defaultSplitter.length = .ok id

theorem WellEncoded.parsesToParts
    {id : UniqueTreeId}
    (encoded : id.WellEncoded) :
    id.ParsesToParts :=
  ⟨id, encoded, rfl⟩

theorem wellEncoded_of_ofUid
    {uid : Text}
    {id : UniqueTreeId}
    (read : ofUid uid defaultSplitter.length = .ok id) :
    id.WellEncoded := by
  unfold WellEncoded
  rw [(uidEncoded_of_ofUid read).1]
  exact read

theorem wellEncoded_of_fromParts
    {parts : List Text}
    {id : UniqueTreeId}
    (made : fromParts parts defaultSplitter = .ok id) :
    id.WellEncoded := by
  obtain ⟨uid, ok, read⟩ := fromParts_ok parts defaultSplitter
  obtain rfl := Except.ok.inj (ok.symm.trans made)
  exact read

theorem wellEncoded_of_copy
    {id made : UniqueTreeId}
    (encoded : id.WellEncoded)
    (copied : id.copy = .ok made) :
    made.WellEncoded := by
  unfold copy at copied
  rw [(uidEncoded_of_ofUid encoded).2] at copied
  exact wellEncoded_of_ofUid copied

theorem wellEncoded_setPartsInplace
    {id : UniqueTreeId}
    {parts : List Text}
    (encoded : id.WellEncoded)
    (nonempty : parts ≠ []) :
    (id.setPartsInplace parts defaultSplitter).WellEncoded := by
  have read := ofUid_encode nonempty defaultSplitter
  have length := (uidEncoded_of_ofUid encoded).2
  unfold WellEncoded setPartsInplace
  rw [length]
  exact read

/-- Each call returns an id that can be read back. -/
theorem wellEncoded_of_returned
    {ids : List UniqueTreeId}
    {call : IdCall}
    {made : UniqueTreeId}
    (encoded : ∀ id ∈ ids, id.WellEncoded)
    (outcome : returned ids call = some (.ok made)) :
    made.WellEncoded := by
  cases call with
  | ofUid uid =>
      exact wellEncoded_of_ofUid (Option.some.inj outcome)
  | fromParts parts =>
      exact wellEncoded_of_fromParts (Option.some.inj outcome)
  | appendPart id part =>
      obtain ⟨found, _, made⟩ := Option.map_eq_some_iff.mp outcome
      exact wellEncoded_of_fromParts made
  | extendParts id parts =>
      obtain ⟨found, _, made⟩ := Option.map_eq_some_iff.mp outcome
      exact wellEncoded_of_fromParts made
  | pop id =>
      obtain ⟨found, _, made⟩ := Option.map_eq_some_iff.mp outcome
      exact wellEncoded_of_fromParts made
  | addText id other =>
      obtain ⟨found, _, made⟩ := Option.map_eq_some_iff.mp outcome
      exact wellEncoded_of_fromParts made
  | add id other =>
      obtain ⟨first, _, rest⟩ := Option.bind_eq_some_iff.mp outcome
      obtain ⟨second, _, made⟩ := Option.map_eq_some_iff.mp rest
      exact wellEncoded_of_fromParts made
  | commonPrefix id other =>
      obtain ⟨first, _, rest⟩ := Option.bind_eq_some_iff.mp outcome
      obtain ⟨second, _, made⟩ := Option.map_eq_some_iff.mp rest
      exact wellEncoded_of_fromParts made
  | copy id =>
      obtain ⟨found, known, made⟩ := Option.map_eq_some_iff.mp outcome
      exact wellEncoded_of_copy (encoded found (List.mem_of_getElem? known)) made
  | setPartsInplace id parts =>
      cases outcome

/-- A call that empties no id in place keeps every id readable. -/
theorem wellEncoded_step
    {ids after : List UniqueTreeId}
    {call : IdCall}
    (encoded : ∀ id ∈ ids, id.WellEncoded)
    (keeps : KeepsParts call)
    (stepped : step ids call = some after) :
    ∀ id ∈ after, id.WellEncoded := by
  unfold step at stepped
  split at stepped
  · rename_i id parts
    obtain ⟨found, known, rfl⟩ := Option.map_eq_some_iff.mp stepped
    intro other member
    rcases List.mem_or_eq_of_mem_set member with earlier | changed
    · exact encoded other earlier
    · subst changed
      exact wellEncoded_setPartsInplace (encoded found (List.mem_of_getElem? known)) keeps
  · obtain ⟨outcome, called, kept⟩ := Option.bind_eq_some_iff.mp stepped
    obtain ⟨made, succeeded, rfl⟩ := Option.map_eq_some_iff.mp kept
    intro other member
    rcases List.mem_append.mp member with earlier | added
    · exact encoded other earlier
    · obtain rfl := List.mem_singleton.mp added
      cases outcome with
      | error raised =>
          cases succeeded
      | ok value =>
          obtain rfl := Option.some.inj succeeded
          exact wellEncoded_of_returned encoded called

theorem not_parsesToParts_of_emptied
    {ids after : List UniqueTreeId}
    {call : IdCall}
    (stepped : step ids call = some after)
    (empties : ¬KeepsParts call) :
    ∃ id ∈ after, ¬id.ParsesToParts := by
  cases call with
  | setPartsInplace id parts =>
      obtain rfl : parts = [] := not_not.mp empties
      obtain ⟨found, known, rfl⟩ := Option.map_eq_some_iff.mp stepped
      have within : id < ids.length := (List.getElem?_eq_some_iff.mp known).1
      refine ⟨_, List.mem_of_getElem? (List.getElem?_set_self within), ?_⟩
      rintro ⟨parsed, read, _⟩
      unfold setPartsInplace at read
      rw [ofUid_encode_nil] at read
      cases read
  | _ =>
      exact absurd trivial empties

/-- Part lists are read back from their texts, different lists have different
texts, and every id that calls give can be read back, unless one of the calls
empties an id in place: then that id's text is no longer a tree id. -/
theorem codec
    (parts : List Text)
    (calls : List IdCall)
    (ids : List UniqueTreeId) :
    (∃ made parsed,
      fromParts parts defaultSplitter = .ok made ∧
        ofUid made.uidEncoded defaultSplitter.length = .ok parsed ∧
        parsed.parts = parts) ∧
      (∀ others : List Text, ∀ made other,
        fromParts parts defaultSplitter = .ok made →
        fromParts others defaultSplitter = .ok other →
        made.uidEncoded = other.uidEncoded →
        parts = others) ∧
      (Transition.Run step (fun _ call => KeepsParts call) [] calls ids →
        ∀ id ∈ ids, id.ParsesToParts) ∧
      (∀ call after,
        step ids call = some after → ¬KeepsParts call →
        ∃ id ∈ after, ¬id.ParsesToParts) := by
  refine ⟨?_, ?_, ?_, ?_⟩
  · obtain ⟨uid, made, read⟩ := fromParts_ok parts defaultSplitter
    exact ⟨_, _, made, read, rfl⟩
  · intro others made other madeParts madeOthers same
    obtain ⟨uid, ok, read⟩ := fromParts_ok parts defaultSplitter
    obtain ⟨uid', ok', read'⟩ := fromParts_ok others defaultSplitter
    obtain rfl := Except.ok.inj (ok.symm.trans madeParts)
    obtain rfl := Except.ok.inj (ok'.symm.trans madeOthers)
    obtain rfl : uid = uid' := same
    have both := Except.ok.inj (read.symm.trans read')
    exact congrArg UniqueTreeId.parts both
  · intro run id member
    have encoded : ∀ id ∈ ids, id.WellEncoded :=
      run.invariant (by simp) fun _ _ _ before keeps stepped =>
        wellEncoded_step before keeps stepped
    exact (encoded id member).parsesToParts
  · intro call after stepped empties
    exact not_parsesToParts_of_emptied stepped empties

/-- An id that was emptied in place has the text of no id. -/
theorem not_codec :
    ¬∀ calls ids,
      Transition.Run step (fun _ _ => True) [] calls ids →
      ∀ id ∈ ids, id.ParsesToParts := by
  intro parses
  have run :
      Transition.Run step (fun _ _ => True) []
        [.fromParts [['a']], .setPartsInplace 0 []]
        [⟨['|'], [], 1⟩] :=
    .of_execute (by decide)
  obtain ⟨parsed, read, _⟩ := parses _ _ run _ List.mem_cons_self
  cases read

end UniqueTreeId

end TensorPC.Flowui
