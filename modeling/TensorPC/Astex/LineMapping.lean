import TensorPC.Py.Slice
import TensorPC.Py.IntText

namespace TensorPC.Astex

/-!
# Mapping lines to a changed source

The equal blocks between two versions of a source, as the sequence matcher of the
standard library finds them, and the binary search that maps a line number of the
old version to the line of the new version with the same text.
-/

/-- The tags of `SequenceMatcher.get_opcodes`. -/
inductive OpcodeTag where
  | replace
  | delete
  | insert
  | equal
  deriving Repr, DecidableEq

/-- One entry of `SequenceMatcher.get_opcodes`: `a[i1:i2]` stands for `b[j1:j2]`. -/
structure Opcode where
  tag : OpcodeTag
  i1 : Nat
  i2 : Nat
  j1 : Nat
  j2 : Nat
  deriving Repr, DecidableEq

/-- Opcodes that go through both sequences in order, from two positions to their ends. -/
def Partitions
    {α : Type}
    (a b : List α) :
    Nat → Nat → List Opcode → Prop
  | i, j, [] => i = a.length ∧ j = b.length
  | i, j, opcode :: rest =>
      (opcode.i1 = i ∧ opcode.j1 = j) ∧
      (opcode.i1 ≤ opcode.i2 ∧ opcode.j1 ≤ opcode.j2) ∧
      (opcode.i1 < opcode.i2 ∨ opcode.j1 < opcode.j2) ∧
      (opcode.tag = .equal →
        slice a opcode.i1 opcode.i2 = slice b opcode.j1 opcode.j2) ∧
      Partitions a b opcode.i2 opcode.j2 rest

/-- `difflib.SequenceMatcher`: its opcodes are an ordered partition with equal blocks. -/
structure SequenceMatcher where
  getOpcodes : (isJunk : Text → Bool) → (a b : List Text) → List Opcode
  partitions :
    ∀ (isJunk : Text → Bool) (a b : List Text),
      Partitions a b 0 0 (getOpcodes isJunk a b)

/-- The tuple `(i1, i2, j1, j2)` of an equal block. -/
structure EqualBlock where
  i1 : Nat
  i2 : Nat
  j1 : Nat
  j2 : Nat
  deriving Repr, DecidableEq

/-- `SourceChangeDiffCache._is_junk`. -/
def isJunk (line : Text) : Bool :=
  let stripped := ((line.dropWhile isSpace).reverse.dropWhile isSpace).reverse
  stripped.length == 0 || ['#'].isPrefixOf stripped

/-- The blocks of the opcodes with the tag `equal`. -/
def equalBlocksOf (opcodes : List Opcode) : List EqualBlock :=
  opcodes.filterMap fun opcode =>
    if opcode.tag = .equal then
      some ⟨opcode.i1, opcode.i2, opcode.j1, opcode.j2⟩
    else
      none

/-- `eq_opcodes` of two versions. -/
def SequenceMatcher.equalBlocks
    (matcher : SequenceMatcher)
    (oldLines newLines : List Text) :
    List EqualBlock :=
  equalBlocksOf (matcher.getOpcodes isJunk oldLines newLines)

/-- `SCDItem`; `Time` is the type of the modification times. -/
structure SCDItem (Time : Type) where
  size : Nat
  mtime : Option Time
  lines : List Text
  diffOpcodesEqual : Option (List EqualBlock)
  fullname : String
  deriving Repr, DecidableEq

/-- The block covers a line, which is counted from zero. -/
def EqualBlock.Covers
    (block : EqualBlock)
    (lineIdx : Int) :
    Prop :=
  block.i1 ≤ lineIdx ∧ lineIdx < block.i2

instance (block : EqualBlock) (lineIdx : Int) : Decidable (block.Covers lineIdx) :=
  inferInstanceAs (Decidable (_ ∧ _))

/-- The number of the new line for a covered old line. -/
def EqualBlock.mapped
    (block : EqualBlock)
    (lineIdx : Int) :
    Int :=
  block.j1 + lineIdx - block.i1 + 1

/-- The loop of `bisect_mapped_lineno`; `stop` is its variable `hi` plus one. -/
def bisectLoop
    (opcodes : List EqualBlock)
    (lineIdx : Int) :
    Nat → (lo stop : Nat) → PyResult Int
  | 0, _, _ => .error .nonTermination
  | fuel + 1, lo, stop =>
      if lo < stop then
        let mid := lo + (stop - 1 - lo) / 2
        match opcodes[mid]? with
        | none => .error .indexError
        | some opcode =>
            if opcode.Covers lineIdx then
              .ok (opcode.mapped lineIdx)
            else if opcode.i1 < lineIdx then
              bisectLoop opcodes lineIdx fuel (mid + 1) stop
            else
              bisectLoop opcodes lineIdx fuel lo mid
      else
        .ok (-1)

/-- `SCDItem.bisect_mapped_lineno`. -/
def SCDItem.bisectMappedLineno
    {Time : Type}
    (item : SCDItem Time)
    (lineno : Int) :
    PyResult Int :=
  match item.diffOpcodesEqual with
  | none => .ok (-1)
  | some [] => .ok (-1)
  | some opcodes =>
      bisectLoop opcodes (lineno - 1) (opcodes.length + 1) 0 opcodes.length

/-- `SourceChangeDiffCache.get_raw_item_for_mapping`. -/
def getRawItemForMapping
    (Time : Type)
    (matcher : SequenceMatcher)
    (oldLines newLines : List Text) :
    SCDItem Time where
  size := newLines.length
  mtime := none
  lines := newLines
  diffOpcodesEqual := some (matcher.equalBlocks oldLines newLines)
  fullname := ""

/-! ## The equal blocks of a partition -/

/-- Nonempty blocks inside two versions, each with the same text on both sides. -/
structure EqualBlock.Matches
    (block : EqualBlock)
    (oldLines newLines : List Text) : Prop where
  nonempty : block.i1 < block.i2
  sameLength : block.i2 - block.i1 = block.j2 - block.j1
  insideOld : block.i2 ≤ oldLines.length
  insideNew : block.j2 ≤ newLines.length
  ordered : block.j1 ≤ block.j2
  sameText :
    slice oldLines block.i1 block.i2 = slice newLines block.j1 block.j2

/-- The first block ends before the second one starts, in both versions. -/
def EqualBlock.Before (first second : EqualBlock) : Prop :=
  first.i2 ≤ second.i1 ∧ first.j2 ≤ second.j1

section Blocks

variable {oldLines newLines : List Text}

theorem Partitions.inside
    {i j : Nat}
    {opcodes : List Opcode}
    (partitions : Partitions oldLines newLines i j opcodes) :
    i ≤ oldLines.length ∧ j ≤ newLines.length := by
  induction opcodes generalizing i j with
  | nil =>
      exact ⟨Nat.le_of_eq partitions.1, Nat.le_of_eq partitions.2⟩
  | cons opcode rest inductionHypothesis =>
      obtain ⟨⟨rfl, rfl⟩, ordered, _, _, others⟩ := partitions
      obtain ⟨insideOld, insideNew⟩ := inductionHypothesis others
      exact ⟨Nat.le_trans ordered.1 insideOld, Nat.le_trans ordered.2 insideNew⟩

/-- The equal blocks lie after the start of the partition. -/
theorem Partitions.start_le
    {i j : Nat}
    {opcodes : List Opcode}
    {block : EqualBlock}
    (partitions : Partitions oldLines newLines i j opcodes)
    (member : block ∈ equalBlocksOf opcodes) :
    i ≤ block.i1 ∧ j ≤ block.j1 := by
  induction opcodes generalizing i j with
  | nil =>
      cases member
  | cons opcode rest inductionHypothesis =>
      obtain ⟨⟨rfl, rfl⟩, ordered, _, _, others⟩ := partitions
      obtain ⟨source, inOpcodes, isBlock⟩ := List.mem_filterMap.mp member
      rcases List.mem_cons.mp inOpcodes with rfl | inRest
      · split at isBlock
        · cases isBlock
          exact ⟨Nat.le_refl _, Nat.le_refl _⟩
        · cases isBlock
      · obtain ⟨afterOld, afterNew⟩ :=
          inductionHypothesis others (List.mem_filterMap.mpr ⟨source, inRest, isBlock⟩)
        exact ⟨Nat.le_trans ordered.1 afterOld, Nat.le_trans ordered.2 afterNew⟩

theorem Partitions.matches
    {i j : Nat}
    {opcodes : List Opcode}
    {block : EqualBlock}
    (partitions : Partitions oldLines newLines i j opcodes)
    (member : block ∈ equalBlocksOf opcodes) :
    block.Matches oldLines newLines := by
  induction opcodes generalizing i j with
  | nil =>
      cases member
  | cons opcode rest inductionHypothesis =>
      obtain ⟨_, ordered, nonempty, sameText, others⟩ := partitions
      obtain ⟨source, inOpcodes, isBlock⟩ := List.mem_filterMap.mp member
      rcases List.mem_cons.mp inOpcodes with rfl | inRest
      · split at isBlock
        · rename_i isEqual
          cases isBlock
          obtain ⟨insideOld, insideNew⟩ := others.inside
          have same := sameText isEqual
          have widths := congrArg List.length same
          rw [length_slice, length_slice, Nat.min_eq_left insideOld,
            Nat.min_eq_left insideNew] at widths
          have filled : source.i1 < source.i2 := by
            omega
          exact ⟨filled, widths, insideOld, insideNew, ordered.2, same⟩
        · cases isBlock
      · exact inductionHypothesis others
          (List.mem_filterMap.mpr ⟨source, inRest, isBlock⟩)

theorem Partitions.pairwise_before
    {i j : Nat}
    {opcodes : List Opcode}
    (partitions : Partitions oldLines newLines i j opcodes) :
    (equalBlocksOf opcodes).Pairwise EqualBlock.Before := by
  induction opcodes generalizing i j with
  | nil =>
      exact .nil
  | cons opcode rest inductionHypothesis =>
      obtain ⟨_, _, _, _, others⟩ := partitions
      have sorted := inductionHypothesis others
      by_cases isEqual : opcode.tag = .equal
      · have split :
            equalBlocksOf (opcode :: rest) =
              ⟨opcode.i1, opcode.i2, opcode.j1, opcode.j2⟩ :: equalBlocksOf rest := by
          simp [equalBlocksOf, isEqual]
        rw [split]
        exact .cons (fun block member => others.start_le member) sorted
      · have skipped : equalBlocksOf (opcode :: rest) = equalBlocksOf rest := by
          simp [equalBlocksOf, isEqual]
        rw [skipped]
        exact sorted

end Blocks

/-! ## The binary search -/

/-- What the search returns for a line: its place in the covering block, or `-1`. -/
def Finds
    (opcodes : List EqualBlock)
    (lineIdx result : Int) : Prop :=
  (∃ block ∈ opcodes, block.Covers lineIdx ∧ result = block.mapped lineIdx) ∨
    (∀ block ∈ opcodes, ¬ block.Covers lineIdx) ∧ result = -1

section Search

variable {opcodes : List EqualBlock} (sorted : opcodes.Pairwise EqualBlock.Before)
variable (nonempty : ∀ block ∈ opcodes, block.i1 < block.i2)

include sorted in
theorem before_of_lt
    {first second : Nat}
    {earlier later : EqualBlock}
    (isEarlier : opcodes[first]? = some earlier)
    (isLater : opcodes[second]? = some later)
    (less : first < second) :
    earlier.Before later := by
  obtain ⟨insideFirst, rfl⟩ := List.getElem?_eq_some_iff.mp isEarlier
  obtain ⟨insideSecond, rfl⟩ := List.getElem?_eq_some_iff.mp isLater
  exact List.pairwise_iff_getElem.mp sorted first second insideFirst insideSecond less

include sorted nonempty

/-- The loop ends with the line's block when no covering block lies outside its window. -/
theorem bisectLoop_finds
    {lineIdx : Int}
    {fuel lo stop : Nat}
    (inside : stop ≤ opcodes.length)
    (enough : stop - lo < fuel)
    (window :
      ∀ index block,
        opcodes[index]? = some block → block.Covers lineIdx →
          lo ≤ index ∧ index < stop) :
    ∃ result,
      bisectLoop opcodes lineIdx fuel lo stop = .ok result ∧
        Finds opcodes lineIdx result := by
  induction fuel generalizing lo stop with
  | zero =>
      omega
  | succ fuel inductionHypothesis =>
      by_cases remaining : lo < stop
      · generalize midEq : lo + (stop - 1 - lo) / 2 = mid
        have above : lo ≤ mid := by
          omega
        have below : mid < stop := by
          omega
        have inList : mid < opcodes.length := by
          omega
        have found : opcodes[mid]? = some opcodes[mid] :=
          List.getElem?_eq_getElem inList
        have member : opcodes[mid] ∈ opcodes := List.getElem_mem inList
        have filled := nonempty _ member
        generalize opcodes[mid] = opcode at found member filled
        simp only [bisectLoop, remaining, if_true, midEq, found]
        by_cases covers : opcode.Covers lineIdx
        · rw [if_pos covers]
          exact ⟨_, rfl, .inl ⟨opcode, member, covers, rfl⟩⟩
        · rw [if_neg covers]
          by_cases starts : (opcode.i1 : Int) < lineIdx
          · -- the block ends before the line, and so do the earlier ones
            rw [if_pos starts]
            have ended : (opcode.i2 : Int) ≤ lineIdx := by
              unfold EqualBlock.Covers at covers
              omega
            apply inductionHypothesis inside (by omega)
            intro index block isBlock coversLine
            refine ⟨?_, (window index block isBlock coversLine).2⟩
            by_contra notAfter
            rcases Nat.lt_or_eq_of_le (Nat.le_of_not_lt notAfter) with less | same
            · have ordered := before_of_lt sorted isBlock found less
              obtain ⟨_, inBlock⟩ := coversLine
              have := ordered.1
              omega
            · rw [same, found] at isBlock
              cases isBlock
              exact covers coversLine
          · -- the line lies before the block, and before the later ones
            rw [if_neg starts]
            have early : lineIdx < opcode.i1 := by
              unfold EqualBlock.Covers at covers
              omega
            apply inductionHypothesis (by omega) (by omega)
            intro index block isBlock coversLine
            refine ⟨(window index block isBlock coversLine).1, ?_⟩
            by_contra notBefore
            obtain ⟨fromStart, _⟩ := coversLine
            rcases Nat.lt_or_eq_of_le (Nat.le_of_not_lt notBefore) with less | same
            · have ordered := before_of_lt sorted found isBlock less
              have := ordered.1
              omega
            · rw [← same, found] at isBlock
              cases isBlock
              omega
      · simp only [bisectLoop, remaining, if_false]
        refine ⟨-1, rfl, .inr ⟨?_, rfl⟩⟩
        intro block member covers
        obtain ⟨index, inList, rfl⟩ := List.mem_iff_getElem.mp member
        have := window index _ (List.getElem?_eq_getElem inList) covers
        omega

end Search

/-! ## The line map between two versions -/

/-- The text of a line, which is counted from one. -/
def lineAt (lines : List Text) (lineno : Int) : Option Text :=
  if 1 ≤ lineno then
    lines[(lineno - 1).toNat]?
  else
    none

/-- An old line inside an equal block. -/
def InEqualBlock
    (opcodes : List Opcode)
    (lineno : Int) : Prop :=
  ∃ opcode ∈ opcodes,
    opcode.tag = .equal ∧ opcode.i1 ≤ lineno - 1 ∧ lineno - 1 < opcode.i2

/-- A map of line numbers that follows the equal blocks of two versions. -/
structure IsLineMap
    (opcodes : List Opcode)
    (oldLines newLines : List Text)
    (lineMap : Int → PyResult Int) : Prop where
  inside :
    ∀ lineno, InEqualBlock opcodes lineno →
      ∃ mapped text,
        lineMap lineno = .ok mapped ∧ 1 ≤ mapped ∧
        lineAt oldLines lineno = some text ∧ lineAt newLines mapped = some text
  outside :
    ∀ lineno, ¬ InEqualBlock opcodes lineno → lineMap lineno = .ok (-1)
  increasing :
    ∀ first second firstMapped secondMapped,
      first < second →
      lineMap first = .ok firstMapped → firstMapped ≠ -1 →
      lineMap second = .ok secondMapped → secondMapped ≠ -1 →
      firstMapped < secondMapped

theorem inEqualBlock_iff
    (opcodes : List Opcode)
    (lineno : Int) :
    InEqualBlock opcodes lineno ↔
      ∃ block ∈ equalBlocksOf opcodes, block.Covers (lineno - 1) := by
  constructor
  · rintro ⟨opcode, member, isEqual, covers⟩
    refine ⟨⟨opcode.i1, opcode.i2, opcode.j1, opcode.j2⟩, ?_, covers⟩
    exact List.mem_filterMap.mpr ⟨opcode, member, if_pos isEqual⟩
  · rintro ⟨block, member, covers⟩
    obtain ⟨opcode, inOpcodes, isBlock⟩ := List.mem_filterMap.mp member
    split at isBlock
    · rename_i isEqual
      cases isBlock
      exact ⟨opcode, inOpcodes, isEqual, covers⟩
    · cases isBlock

/-- A covered line has the text of the line it is mapped to. -/
theorem EqualBlock.Matches.sameLine
    {block : EqualBlock}
    {oldLines newLines : List Text}
    {lineno : Int}
    (blockMatches : block.Matches oldLines newLines)
    (covers : block.Covers (lineno - 1)) :
    ∃ text,
      1 ≤ block.mapped (lineno - 1) ∧
      lineAt oldLines lineno = some text ∧
      lineAt newLines (block.mapped (lineno - 1)) = some text := by
  obtain ⟨nonempty, sameLength, insideOld, insideNew, ordered, sameText⟩ := blockMatches
  obtain ⟨above, below⟩ := covers
  generalize placeEq : (lineno - 1 - block.i1).toNat = place
  have placeLess : place < block.i2 - block.i1 := by
    omega
  have oldPlace : (lineno - 1).toNat = block.i1 + place := by
    omega
  have newPlace : (block.mapped (lineno - 1) - 1).toNat = block.j1 + place := by
    unfold EqualBlock.mapped
    omega
  have positive : 1 ≤ block.mapped (lineno - 1) := by
    unfold EqualBlock.mapped
    omega
  have oldText : lineAt oldLines lineno = (slice oldLines block.i1 block.i2)[place]? := by
    unfold lineAt slice
    rw [if_pos (by omega), oldPlace, List.getElem?_drop, List.getElem?_take_of_lt (by omega)]
  have newText :
      lineAt newLines (block.mapped (lineno - 1)) =
        (slice newLines block.j1 block.j2)[place]? := by
    unfold lineAt slice
    rw [if_pos positive, newPlace, List.getElem?_drop, List.getElem?_take_of_lt (by omega)]
  have width : place < (slice oldLines block.i1 block.i2).length := by
    rw [length_slice]
    omega
  refine ⟨_, positive, oldText.trans (List.getElem?_eq_getElem width), ?_⟩
  rw [newText, ← sameText]
  exact List.getElem?_eq_getElem width

section LineMap

variable (matcher : SequenceMatcher) (oldLines newLines : List Text)

theorem SequenceMatcher.equalBlocks_matches
    {block : EqualBlock}
    (member : block ∈ matcher.equalBlocks oldLines newLines) :
    block.Matches oldLines newLines :=
  (matcher.partitions isJunk oldLines newLines).matches member

theorem SequenceMatcher.equalBlocks_pairwise :
    (matcher.equalBlocks oldLines newLines).Pairwise EqualBlock.Before :=
  (matcher.partitions isJunk oldLines newLines).pairwise_before

/-- The search of the raw item finds the block of each line. -/
theorem bisectMappedLineno_finds
    (Time : Type)
    (lineno : Int) :
    ∃ result,
      (getRawItemForMapping Time matcher oldLines newLines).bisectMappedLineno lineno =
        .ok result ∧
      Finds (matcher.equalBlocks oldLines newLines) (lineno - 1) result := by
  have sorted := matcher.equalBlocks_pairwise oldLines newLines
  have nonempty :
      ∀ block ∈ matcher.equalBlocks oldLines newLines, block.i1 < block.i2 :=
    fun block member => (matcher.equalBlocks_matches oldLines newLines member).nonempty
  unfold SCDItem.bisectMappedLineno getRawItemForMapping
  cases blocksEq : matcher.equalBlocks oldLines newLines with
  | nil =>
      exact ⟨-1, rfl, .inr ⟨nofun, rfl⟩⟩
  | cons block rest =>
      rw [blocksEq] at sorted nonempty
      apply bisectLoop_finds sorted nonempty (Nat.le_refl _) (by omega)
      intro index found isBlock _
      obtain ⟨inList, _⟩ := List.getElem?_eq_some_iff.mp isBlock
      exact ⟨Nat.zero_le _, inList⟩

/-- Larger covered lines are mapped to larger lines. -/
theorem mapped_lt
    {first second : EqualBlock}
    {firstIdx secondIdx : Int}
    (isFirst : first ∈ matcher.equalBlocks oldLines newLines)
    (isSecond : second ∈ matcher.equalBlocks oldLines newLines)
    (coversFirst : first.Covers firstIdx)
    (coversSecond : second.Covers secondIdx)
    (less : firstIdx < secondIdx) :
    first.mapped firstIdx < second.mapped secondIdx := by
  have firstMatches := matcher.equalBlocks_matches oldLines newLines isFirst
  have secondMatches := matcher.equalBlocks_matches oldLines newLines isSecond
  have sorted := matcher.equalBlocks_pairwise oldLines newLines
  obtain ⟨firstPlace, firstInside, rfl⟩ := List.mem_iff_getElem.mp isFirst
  obtain ⟨secondPlace, secondInside, rfl⟩ := List.mem_iff_getElem.mp isSecond
  have foundFirst := List.getElem?_eq_getElem firstInside
  have foundSecond := List.getElem?_eq_getElem secondInside
  have firstWidth := firstMatches.sameLength
  have firstOrdered := firstMatches.ordered
  obtain ⟨firstAbove, firstBelow⟩ := coversFirst
  obtain ⟨secondAbove, secondBelow⟩ := coversSecond
  unfold EqualBlock.mapped
  rcases Nat.lt_trichotomy firstPlace secondPlace with before | same | after
  · have ordered := before_of_lt sorted foundFirst foundSecond before
    have := ordered.2
    omega
  · subst same
    omega
  · have ordered := before_of_lt sorted foundSecond foundFirst after
    have := ordered.1
    omega

/-- The search on a raw item is the line map of its equal blocks. -/
theorem bisectMappedLineno_isLineMap (Time : Type) :
    IsLineMap (matcher.getOpcodes isJunk oldLines newLines) oldLines newLines
      (getRawItemForMapping Time matcher oldLines newLines).bisectMappedLineno where
  inside := by
    intro lineno inBlock
    obtain ⟨result, computed, found | ⟨nowhere, _⟩⟩ :=
      bisectMappedLineno_finds matcher oldLines newLines Time lineno
    · obtain ⟨block, member, covers, rfl⟩ := found
      obtain ⟨text, positive, oldText, newText⟩ :=
        (matcher.equalBlocks_matches oldLines newLines member).sameLine covers
      exact ⟨_, text, computed, positive, oldText, newText⟩
    · obtain ⟨block, member, covers⟩ := (inEqualBlock_iff _ _).mp inBlock
      exact absurd covers (nowhere block member)
  outside := by
    intro lineno notInBlock
    obtain ⟨result, computed, found | ⟨_, rfl⟩⟩ :=
      bisectMappedLineno_finds matcher oldLines newLines Time lineno
    · obtain ⟨block, member, covers, _⟩ := found
      exact absurd ((inEqualBlock_iff _ _).mpr ⟨block, member, covers⟩) notInBlock
    · exact computed
  increasing := by
    intro first second firstMapped secondMapped less isFirst firstFound isSecond secondFound
    obtain ⟨_, computedFirst, foundFirst | ⟨_, rfl⟩⟩ :=
      bisectMappedLineno_finds matcher oldLines newLines Time first
    · obtain ⟨_, computedSecond, foundSecond | ⟨_, rfl⟩⟩ :=
        bisectMappedLineno_finds matcher oldLines newLines Time second
      · obtain ⟨firstBlock, firstMember, firstCovers, rfl⟩ := foundFirst
        obtain ⟨secondBlock, secondMember, secondCovers, rfl⟩ := foundSecond
        rw [computedFirst] at isFirst
        rw [computedSecond] at isSecond
        cases isFirst
        cases isSecond
        exact mapped_lt matcher oldLines newLines firstMember secondMember firstCovers
          secondCovers (by omega)
      · rw [computedSecond] at isSecond
        cases isSecond
        exact absurd rfl secondFound
    · rw [computedFirst] at isFirst
      cases isFirst
      exact absurd rfl firstFound

end LineMap

end TensorPC.Astex
