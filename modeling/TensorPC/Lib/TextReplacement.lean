import Mathlib.Data.List.Infix

namespace TensorPC.TextReplacement

/-!
# Replacing a pattern in a text

All occurrences of a pattern are replaced from the left.  A reader of a text looks
for another pattern and takes the letters of a kind that follow each occurrence.
It reads the same letters in the new text if the pattern it looks for cannot meet
the old or the new piece.  If letters of the kind are inserted after each occurrence
of its own pattern, it reads them in front of the old ones.
-/

variable {χ : Type} [DecidableEq χ]

/-- The letters of an occurrence that are still to be skipped are counted. -/
def scan
    (old new : List χ) :
    Nat → List χ → List χ
  | _, [] => []
  | skipped + 1, _ :: rest => scan old new skipped rest
  | 0, letter :: rest =>
      if old <+: letter :: rest then
        new ++ scan old new (old.length - 1) rest
      else
        letter :: scan old new 0 rest

/-- `text.replace(old, new)` for a nonempty pattern. -/
def replace
    (old new text : List χ) :
    List χ :=
  scan old new 0 text

/-- How a text is split by the occurrences of the pattern. -/
inductive Replaced
    (old new : List χ) :
    List χ → List χ → Prop
  | done : Replaced old new [] []
  | found :
      Replaced old new rest rest' →
      Replaced old new (old ++ rest) (new ++ rest')
  | letter :
      ¬old <+: first :: rest →
      Replaced old new rest rest' →
      Replaced old new (first :: rest) (first :: rest')

section Replacement

variable {old new : List χ} {text text' : List χ}

theorem scan_append
    (front rest : List χ) :
    scan old new front.length (front ++ rest) = scan old new 0 rest := by
  induction front with
  | nil =>
      rfl
  | cons first front inductionHypothesis =>
      rw [List.length_cons, List.cons_append, scan, inductionHypothesis]

theorem replace_append
    (nonempty : old ≠ [])
    (rest : List χ) :
    replace old new (old ++ rest) = new ++ replace old new rest := by
  obtain ⟨first, front, rfl⟩ := List.exists_cons_of_ne_nil nonempty
  have occurs : first :: front <+: first :: (front ++ rest) :=
    List.prefix_append (first :: front) rest
  rw [replace, List.cons_append, scan, if_pos occurs]
  rw [List.length_cons, Nat.add_sub_cancel, scan_append]
  rfl

theorem replaced_replace
    (nonempty : old ≠ [])
    (text : List χ) :
    Replaced old new text (replace old new text) := by
  induction shape : text.length using Nat.strong_induction_on generalizing text with
  | h size inductionHypothesis =>
      cases text with
      | nil =>
          exact .done
      | cons first rest =>
          by_cases occurs : old <+: first :: rest
          · obtain ⟨after, split⟩ := occurs
            rw [← split, replace_append nonempty]
            apply Replaced.found
            apply inductionHypothesis after.length _ after rfl
            have positive := List.length_pos_iff.mpr nonempty
            rw [← shape, ← split, List.length_append]
            omega
          · have step :
                replace old new (first :: rest) = first :: replace old new rest := by
              rw [replace, scan, if_neg occurs, replace]
            rw [step]
            apply Replaced.letter occurs
            exact inductionHypothesis rest.length (by simp [← shape]) rest rfl

end Replacement

/-! ## Patterns that do not meet -/

/-- Neither text can begin where the other one begins. -/
def Clash
    (first second : List χ) :
    Prop :=
  ¬first <+: second ∧ ¬second <+: first

instance
    (first second : List χ) :
    Decidable (Clash first second) :=
  inferInstanceAs (Decidable (_ ∧ _))

omit [DecidableEq χ] in
theorem Clash.not_prefixOf
    {first second : List χ}
    (clash : Clash first second)
    (rest : List χ) :
    ¬first <+: second ++ rest := by
  intro occurs
  rcases List.prefix_or_prefix_of_prefix occurs (List.prefix_append second rest) with
    inside | around
  · exact clash.1 inside
  · exact clash.2 around

omit [DecidableEq χ] in
theorem Clash.append
    {first second : List χ}
    (clash : Clash first second)
    (rest : List χ) :
    Clash first (second ++ rest) :=
  ⟨clash.not_prefixOf rest, fun around => clash.2 ((List.prefix_append _ _).trans around)⟩

omit [DecidableEq χ] in
theorem clash_of_ne
    {first second : χ}
    (differ : first ≠ second)
    (rest rest' : List χ) :
    Clash (first :: rest) (second :: rest') := by
  constructor
  · intro occurs
    exact differ (List.cons_prefix_cons.mp occurs).1
  · intro occurs
    exact differ (List.cons_prefix_cons.mp occurs).1.symm

/-- No end of the pattern meets the piece. -/
def EndsApart
    (pattern piece : List χ) :
    Prop :=
  ∀ part ∈ pattern.tails, part ≠ [] → Clash part piece

/-- The pattern begins nowhere in a piece that stands before the tail. -/
def BeginsOutside
    (pattern piece tail : List χ) :
    Prop :=
  ∀ part ∈ piece.tails, part ≠ [] → Clash pattern (part ++ tail)

/-- No occurrence of the pattern overlaps the piece, but it may begin in the tail. -/
def Apart
    (pattern piece tail : List χ) :
    Prop :=
  EndsApart pattern (piece ++ tail) ∧ BeginsOutside pattern piece tail

instance
    (pattern piece tail : List χ) :
    Decidable (Apart pattern piece tail) :=
  inferInstanceAs (Decidable ((∀ part ∈ pattern.tails, part ≠ [] → Clash part (piece ++ tail)) ∧
    ∀ part ∈ piece.tails, part ≠ [] → Clash pattern (part ++ tail)))

omit [DecidableEq χ] in
theorem EndsApart.tail
    {first : χ}
    {pattern piece : List χ}
    (apart : EndsApart (first :: pattern) piece) :
    EndsApart pattern piece := by
  intro part listed
  exact apart part (List.tails_cons .. ▸ List.mem_cons_of_mem _ listed)

omit [DecidableEq χ] in
theorem EndsApart.append
    {pattern piece : List χ}
    (apart : EndsApart pattern piece)
    (extra : List χ) :
    EndsApart pattern (piece ++ extra) :=
  fun part listed nonempty => (apart part listed nonempty).append extra

omit [DecidableEq χ] in
/-- An occurrence that reaches a replaced piece needs an end that meets it. -/
theorem prefix_iff_of_replaced
    {old new pattern text text' : List χ}
    (apartOld : EndsApart pattern old)
    (apartNew : EndsApart pattern new)
    (replaced : Replaced old new text text') :
    pattern <+: text ↔ pattern <+: text' := by
  induction replaced generalizing pattern with
  | done =>
      rfl
  | @found rest rest' replaced inductionHypothesis =>
      cases pattern with
      | nil =>
          simp
      | cons first pattern =>
          have whole : first :: pattern ∈ (first :: pattern).tails := by simp
          exact iff_of_false ((apartOld _ whole (by simp)).not_prefixOf rest)
            ((apartNew _ whole (by simp)).not_prefixOf rest')
  | @letter first rest rest' absent replaced inductionHypothesis =>
      cases pattern with
      | nil =>
          simp
      | cons head pattern =>
          rw [List.cons_prefix_cons, List.cons_prefix_cons,
            inductionHypothesis apartOld.tail apartNew.tail]

/-! ## Reading what follows a pattern -/

section Reading

variable (kind : χ → Bool)

/-- The letters of the kind after an occurrence at the beginning of the text. -/
def runAt
    (pattern text : List χ) :
    Option (List χ) :=
  if pattern <+: text then
    some ((text.drop pattern.length).takeWhile kind)
  else
    none

/-- The letters of the kind after each occurrence of the pattern. -/
def runsAfter
    (pattern text : List χ) :
    List (List χ) :=
  text.tails.filterMap (runAt kind pattern)

/-- The piece begins with a letter of another kind. -/
def Stops
    (piece : List χ) :
    Prop :=
  ∃ letter ∈ piece.head?, kind letter = false

instance
    (piece : List χ) :
    Decidable (Stops kind piece) :=
  inferInstanceAs (Decidable (∃ letter ∈ piece.head?, kind letter = false))

variable {kind} {pattern piece old new text text' : List χ}

omit [DecidableEq χ] in
theorem Stops.takeWhile
    (stops : Stops kind piece)
    (rest : List χ) :
    (piece ++ rest).takeWhile kind = [] := by
  obtain ⟨letter, isHead, other⟩ := stops
  cases piece with
  | nil =>
      cases isHead
  | cons first piece =>
      obtain rfl := Option.some.inj isHead
      rw [List.cons_append, List.takeWhile_cons, other]
      rfl

theorem runsAfter_nil
    (nonempty : pattern ≠ []) :
    runsAfter kind pattern [] = [] := by
  have absent : runAt kind pattern [] = none := by
    rw [runAt, if_neg (by simpa using nonempty)]
  simp [runsAfter, absent]

theorem runsAfter_cons
    (first : χ)
    (rest : List χ) :
    runsAfter kind pattern (first :: rest) =
      (runAt kind pattern (first :: rest)).toList ++ runsAfter kind pattern rest := by
  rw [runsAfter, List.tails_cons, List.filterMap_cons]
  cases runAt kind pattern (first :: rest) with
  | none => rfl
  | some run => rfl

theorem mem_runsAfter_append
    {run : List χ}
    (listed : run ∈ runsAfter kind pattern text)
    (front : List χ) :
    run ∈ runsAfter kind pattern (front ++ text) := by
  induction front with
  | nil =>
      exact listed
  | cons first front inductionHypothesis =>
      rw [List.cons_append, runsAfter_cons]
      exact List.mem_append_right _ inductionHypothesis

theorem takeWhile_mem_runsAfter
    (nonempty : pattern ≠ [])
    (rest : List χ) :
    rest.takeWhile kind ∈ runsAfter kind pattern (pattern ++ rest) := by
  have here :
      runAt kind pattern (pattern ++ rest) = some (rest.takeWhile kind) := by
    rw [runAt, if_pos (List.prefix_append _ _), List.drop_left]
  obtain ⟨first, front, rfl⟩ := List.exists_cons_of_ne_nil nonempty
  rw [List.cons_append, runsAfter_cons, ← List.cons_append, here]
  exact List.mem_append_left _ List.mem_cons_self

theorem runsAfter_cons_of_not_prefixOf
    {first : χ}
    {rest : List χ}
    (absent : ¬pattern <+: first :: rest) :
    runsAfter kind pattern (first :: rest) = runsAfter kind pattern rest := by
  rw [runsAfter_cons, runAt, if_neg absent]
  rfl

omit [DecidableEq χ] in
theorem BeginsOutside.tail
    {first : χ}
    {piece tail : List χ}
    (outside : BeginsOutside pattern (first :: piece) tail) :
    BeginsOutside pattern piece tail := by
  intro part listed
  exact outside part (List.tails_cons .. ▸ List.mem_cons_of_mem _ listed)

theorem runsAfter_append
    {tail : List χ}
    (outside : BeginsOutside pattern piece tail)
    (rest : List χ) :
    runsAfter kind pattern (piece ++ tail ++ rest) = runsAfter kind pattern (tail ++ rest) := by
  induction piece with
  | nil =>
      rfl
  | cons first piece inductionHypothesis =>
      have here : runAt kind pattern (first :: (piece ++ tail ++ rest)) = none := by
        rw [runAt, if_neg]
        exact (outside (first :: piece) (by simp) (by simp)).not_prefixOf rest
      rw [List.cons_append, List.cons_append, runsAfter_cons, here]
      exact inductionHypothesis outside.tail

theorem runsAfter_append_of_empty
    (outside : BeginsOutside pattern piece [])
    (rest : List χ) :
    runsAfter kind pattern (piece ++ rest) = runsAfter kind pattern rest := by
  simpa using runsAfter_append outside rest

omit [DecidableEq χ] in
theorem takeWhile_of_replaced
    (stopsOld : Stops kind old)
    (stopsNew : Stops kind new)
    (replaced : Replaced old new text text') :
    text.takeWhile kind = text'.takeWhile kind := by
  induction replaced with
  | done =>
      rfl
  | found replaced inductionHypothesis =>
      rw [stopsOld.takeWhile, stopsNew.takeWhile]
  | letter absent replaced inductionHypothesis =>
      rw [List.takeWhile_cons, List.takeWhile_cons, inductionHypothesis]

theorem runAt_of_replaced
    (apartOld : EndsApart pattern old)
    (apartNew : EndsApart pattern new)
    (stopsOld : Stops kind old)
    (stopsNew : Stops kind new)
    (replaced : Replaced old new text text') :
    runAt kind pattern text = runAt kind pattern text' := by
  have occurs := prefix_iff_of_replaced apartOld apartNew replaced
  suffices read :
      pattern <+: text →
        (text.drop pattern.length).takeWhile kind =
          (text'.drop pattern.length).takeWhile kind by
    unfold runAt
    by_cases present : pattern <+: text
    · rw [if_pos present, if_pos (occurs.mp present), read present]
    · rw [if_neg present, if_neg fun present' => present (occurs.mpr present')]
  clear occurs
  induction pattern generalizing text text' with
  | nil =>
      intro _
      exact takeWhile_of_replaced stopsOld stopsNew replaced
  | cons head pattern inductionHypothesis =>
      intro present
      cases replaced with
      | done =>
          rfl
      | found replaced =>
          exact absurd present ((apartOld _ (by simp) (by simp)).not_prefixOf _)
      | letter absent replaced =>
          exact inductionHypothesis apartOld.tail apartNew.tail replaced
            (List.cons_prefix_cons.mp present).2

/-- Texts that are read alike from any end of the pattern on are so behind a tail. -/
theorem runAt_append
    (read : ∀ part ∈ pattern.tails, runAt kind part text = runAt kind part text')
    (tail : List χ) :
    runAt kind pattern (tail ++ text) = runAt kind pattern (tail ++ text') := by
  induction tail generalizing pattern with
  | nil =>
      exact read pattern (by simp)
  | cons first tail inductionHypothesis =>
      cases pattern with
      | nil =>
          have here := inductionHypothesis read
          simp only [runAt, List.nil_prefix, if_true, List.length_nil, List.drop_zero,
            Option.some.injEq] at here
          simp only [runAt, List.nil_prefix, if_true, List.length_nil, List.drop_zero,
            List.cons_append, List.takeWhile_cons, here]
      | cons head pattern =>
          have later := @inductionHypothesis pattern fun part listed =>
            read part (List.tails_cons .. ▸ List.mem_cons_of_mem _ listed)
          unfold runAt at later ⊢
          simp only [List.cons_append, List.cons_prefix_cons, List.length_cons,
            List.drop_succ_cons]
          by_cases same : head = first
          · simpa only [same, true_and] using later
          · simp only [same, false_and, if_false]

theorem runsAfter_tail
    (read : ∀ part ∈ pattern.tails, runAt kind part text = runAt kind part text')
    (same : runsAfter kind pattern text = runsAfter kind pattern text')
    (tail : List χ) :
    runsAfter kind pattern (tail ++ text) = runsAfter kind pattern (tail ++ text') := by
  induction tail with
  | nil =>
      exact same
  | cons first tail inductionHypothesis =>
      rw [List.cons_append, List.cons_append, runsAfter_cons, runsAfter_cons,
        inductionHypothesis]
      exact congrArg (·.toList ++ _) (runAt_append read (first :: tail))

/-- A replacement of other pieces leaves what is read. -/
theorem runsAfter_of_replaced
    {tail : List χ}
    (apartOld : Apart pattern old tail)
    (apartNew : Apart pattern new tail)
    (stopsOld : Stops kind (old ++ tail))
    (stopsNew : Stops kind (new ++ tail))
    (replaced : Replaced (old ++ tail) (new ++ tail) text text') :
    runsAfter kind pattern text' = runsAfter kind pattern text := by
  induction replaced with
  | done =>
      rfl
  | found replaced inductionHypothesis =>
      rw [runsAfter_append apartOld.2, runsAfter_append apartNew.2]
      refine (runsAfter_tail ?_ inductionHypothesis.symm tail).symm
      intro part listed
      have ends := (List.mem_tails _ _).mp listed
      apply runAt_of_replaced _ _ stopsOld stopsNew replaced
      · exact fun later inside => apartOld.1 later
          ((List.mem_tails _ _).mpr (((List.mem_tails _ _).mp inside).trans ends))
      · exact fun later inside => apartNew.1 later
          ((List.mem_tails _ _).mpr (((List.mem_tails _ _).mp inside).trans ends))
  | letter absent replaced inductionHypothesis =>
      have whole := Replaced.letter absent replaced
      rw [runsAfter_cons, runsAfter_cons, inductionHypothesis,
        runAt_of_replaced apartOld.1 apartNew.1 stopsOld stopsNew whole]

/-! ## Letters inserted after the pattern -/

/-- Two occurrences of the pattern do not overlap. -/
def Borderless
    (pattern : List χ) :
    Prop :=
  EndsApart pattern.tail pattern ∧ BeginsOutside pattern pattern.tail []

instance
    (pattern : List χ) :
    Decidable (Borderless pattern) :=
  inferInstanceAs (Decidable ((∀ part ∈ pattern.tail.tails, part ≠ [] → Clash part pattern) ∧
    ∀ part ∈ pattern.tail.tails, part ≠ [] → Clash pattern (part ++ [])))

omit [DecidableEq χ] in
theorem beginsOutside_of_stops
    (stops : Stops kind pattern)
    {extra : List χ}
    (ofKind : ∀ letter ∈ extra, kind letter = true) :
    BeginsOutside pattern extra [] := by
  intro part listed nonempty
  rw [List.append_nil]
  obtain ⟨letter, isHead, other⟩ := stops
  cases pattern with
  | nil =>
      cases isHead
  | cons first pattern =>
      obtain rfl := Option.some.inj isHead
      obtain ⟨head, part, rfl⟩ := List.exists_cons_of_ne_nil nonempty
      apply clash_of_ne
      rintro rfl
      have inside := ((List.mem_tails _ _).mp listed).subset List.mem_cons_self
      rw [ofKind first inside] at other
      cases other

omit [DecidableEq χ] in
theorem BeginsOutside.append
    {extra : List χ}
    (outside : BeginsOutside pattern piece [])
    (outsideExtra : BeginsOutside pattern extra []) :
    BeginsOutside pattern (piece ++ extra) [] := by
  induction piece with
  | nil =>
      exact outsideExtra
  | cons first piece inductionHypothesis =>
      intro part listed nonempty
      rw [List.cons_append, List.tails_cons, List.mem_cons] at listed
      rcases listed with rfl | later
      · have whole := (outside (first :: piece) (by simp) (by simp)).append extra
        simpa using whole
      · exact inductionHypothesis outside.tail part later nonempty

omit [DecidableEq χ] in
/-- A piece with letters of the kind behind it is as far apart as the piece. -/
theorem Apart.append
    {extra : List χ}
    (apart : Apart pattern piece [])
    (stops : Stops kind pattern)
    (ofKind : ∀ letter ∈ extra, kind letter = true) :
    Apart pattern (piece ++ extra) [] := by
  refine ⟨?_, apart.2.append (beginsOutside_of_stops stops ofKind)⟩
  simpa using apart.1.append extra

/-- The inserted letters are read in front of the ones that were there. -/
theorem runsAfter_insert
    {extra : List χ}
    (stops : Stops kind pattern)
    (borderless : Borderless pattern)
    (ofKind : ∀ letter ∈ extra, kind letter = true)
    (replaced : Replaced pattern (pattern ++ extra) text text') :
    runsAfter kind pattern text' = (runsAfter kind pattern text).map (extra ++ ·) := by
  obtain ⟨letter, isHead, other⟩ := stops
  cases pattern with
  | nil =>
      cases isHead
  | cons first pattern =>
      have stops : Stops kind (first :: pattern) := ⟨letter, isHead, other⟩
      have stopsNew : Stops kind (first :: pattern ++ extra) := ⟨letter, isHead, other⟩
      have outside : BeginsOutside (first :: pattern) pattern [] := borderless.2
      induction replaced with
      | done =>
          rw [runsAfter_nil (by simp)]
          rfl
      | @found rest rest' replaced inductionHypothesis =>
          have old :
              runAt kind (first :: pattern) (first :: (pattern ++ rest)) =
                some (rest.takeWhile kind) := by
            rw [← List.cons_append, runAt, if_pos (List.prefix_append _ _), List.drop_left]
          have new :
              runAt kind (first :: pattern) (first :: (pattern ++ (extra ++ rest'))) =
                some (extra ++ rest'.takeWhile kind) := by
            rw [← List.cons_append, runAt, if_pos (List.prefix_append _ _), List.drop_left,
              List.takeWhile_append_of_pos ofKind]
          have read := takeWhile_of_replaced stops stopsNew replaced
          rw [List.append_assoc, List.cons_append, List.cons_append, runsAfter_cons,
            runsAfter_cons, old, new, runsAfter_append_of_empty outside,
            runsAfter_append_of_empty outside,
            runsAfter_append_of_empty (beginsOutside_of_stops stops ofKind),
            inductionHypothesis, ← read]
          rfl
      | @letter head rest rest' absent replaced inductionHypothesis =>
          have absent' : ¬first :: pattern <+: head :: rest' := by
            intro occurs
            apply absent
            rw [List.cons_prefix_cons] at occurs ⊢
            refine ⟨occurs.1, ?_⟩
            exact (prefix_iff_of_replaced borderless.1 (borderless.1.append extra)
              replaced).mpr occurs.2
          rw [runsAfter_cons, runsAfter_cons, runAt, runAt, if_neg absent, if_neg absent',
            inductionHypothesis]
          rfl

end Reading

end TensorPC.TextReplacement
