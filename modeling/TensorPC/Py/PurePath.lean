import Mathlib.Data.List.Infix
import Mathlib.Data.List.TakeWhile

namespace TensorPC

/-!
# Paths and file name patterns

`PurePosixPath` and the patterns of `Path.glob`.  A path is the list of its parts;
a part is the list of its characters.
-/

/-- A name between slashes. -/
abbrev PathPart := List Char

/-- `PurePosixPath`. -/
structure PurePath where
  isAbsolute : Bool
  parts : List PathPart
  deriving DecidableEq, Repr

namespace PurePath

/-- `Path(text)`: empty parts and `.` are dropped. -/
def ofString (text : String) : PurePath where
  isAbsolute := text.toList.head? == some '/'
  parts :=
    (text.toList.splitOn '/').filter fun part => part != [] && part != ['.']

/-- `str(path)`. -/
def toText (path : PurePath) : String :=
  match path.isAbsolute, path.parts with
  | false, [] => "."
  | false, parts => String.ofList (['/'].intercalate parts)
  | true, parts => String.ofList ('/' :: ['/'].intercalate parts)

/-- `path.parent`. -/
def parent (path : PurePath) : PurePath :=
  { path with parts := path.parts.dropLast }

/-- `first / second`. -/
def join (first second : PurePath) : PurePath :=
  if second.isAbsolute then
    second
  else
    { first with parts := first.parts ++ second.parts }

/-- Whether `path.relative_to(base)` raises no `ValueError`. -/
def isRelativeTo (path base : PurePath) : Bool :=
  path.isAbsolute == base.isAbsolute && base.parts.isPrefixOf path.parts

/-- `path.relative_to(base)`. -/
def relativeTo (path base : PurePath) : PurePath where
  isAbsolute := false
  parts := path.parts.drop base.parts.length

/-- Whether a path lies in a folder. -/
def isBelow (path folder : PurePath) : Bool :=
  path.isRelativeTo folder && decide (path ≠ folder)

end PurePath

/-- A name without what follows its last dot, if a text precedes and follows it. -/
def withoutSuffix (name : PathPart) : PathPart :=
  let extension := name.reverse.takeWhile (· != '.')
  match extension, name.reverse.drop extension.length with
  | [], _ => name
  | _, [] => name
  | _, [_] => name
  | _, _ :: stem => stem.reverse

/-- `path.stem`. -/
def PurePath.stem (path : PurePath) : PathPart :=
  match path.parts.getLast? with
  | none => []
  | some name => TensorPC.withoutSuffix name

/-- `path.with_suffix("")`. -/
def PurePath.withoutSuffix (path : PurePath) : PurePath :=
  match path.parts.getLast? with
  | none => path
  | some name =>
      { path with parts := path.parts.dropLast ++ [TensorPC.withoutSuffix name] }

/-! ## Patterns -/

/-- The parts of a file name pattern. -/
inductive GlobToken where
  | anyText
  | anyChar
  | charSet (negated : Bool) (ranges : List (Char × Char))
  | char (value : Char)

/-- The ranges of characters between brackets. -/
def charRanges : List Char → List (Char × Char)
  | first :: '-' :: last :: rest => (first, last) :: charRanges rest
  | first :: rest => (first, first) :: charRanges rest
  | [] => []

/-- What follows an opening bracket, up to the closing one. -/
def charSetOf
    (pattern : List Char) :
    Option (Bool × List (Char × Char) × List Char) :=
  let (negated, body) :=
    match pattern with
    | '!' :: rest => (true, rest)
    | rest => (false, rest)
  let (leading, tail) :=
    match body with
    | ']' :: rest => ([']'], rest)
    | rest => ([], rest)
  match tail.dropWhile (· != ']') with
  | [] => none
  | _ :: rest =>
      some (negated, charRanges (leading ++ tail.takeWhile (· != ']')), rest)

/-- A pattern of at most some length in tokens. -/
def globTokens : Nat → List Char → List GlobToken
  | 0, _ => []
  | _, [] => []
  | fuel + 1, char :: rest =>
      match char with
      | '*' => .anyText :: globTokens fuel rest
      | '?' => .anyChar :: globTokens fuel rest
      | '[' =>
          match charSetOf rest with
          | some (negated, ranges, rest) =>
              .charSet negated ranges :: globTokens fuel rest
          | none => .char '[' :: globTokens fuel rest
      | char => .char char :: globTokens fuel rest

/-- Whether a token matches one character. -/
def GlobToken.matchesChar (char : Char) : GlobToken → Bool
  | anyText => false
  | anyChar => true
  | charSet negated ranges =>
      ranges.any (fun range => range.1 ≤ char && char ≤ range.2) != negated
  | .char value => value == char

/-- Whether tokens match a text. -/
def matchTokens : List GlobToken → List Char → Bool
  | [], text => text.isEmpty
  | .anyText :: rest, text => text.tails.any (matchTokens rest)
  | token :: rest, text =>
      match text with
      | [] => false
      | char :: text => token.matchesChar char && matchTokens rest text

/-- `fnmatch.fnmatchcase(name, pattern)`. -/
def fnmatch (pattern name : List Char) : Bool :=
  matchTokens (globTokens pattern.length pattern) name

/-- Whether `Path.glob` with a relative pattern yields a relative path. -/
def globMatches : List PathPart → List PathPart → Bool
  | [], parts => parts.isEmpty
  | pattern :: patterns, parts =>
      if pattern = ['*', '*'] then
        parts.tails.any (globMatches patterns)
      else
        match parts with
        | [] => false
        | name :: rest => fnmatch pattern name && globMatches patterns rest

/-! ## Canonical texts -/

/-- A text that spells a relative path to a file, without `..`, as `str` does. -/
def isCanonicalPath (text : String) : Bool :=
  (text.toList.splitOn '/').all fun part =>
    part != [] && part != ['.'] && part != ['.', '.']

/-- The parts of such a text are the texts between its slashes. -/
theorem ofString_of_isCanonicalPath
    {text : String}
    (canonical : isCanonicalPath text = true) :
    PurePath.ofString text = ⟨false, text.toList.splitOn '/'⟩ := by
  have each := List.all_eq_true.mp canonical
  have parts :
      ((text.toList.splitOn '/').filter
        fun part => part != [] && part != ['.']) =
        text.toList.splitOn '/' := by
    refine List.filter_eq_self.mpr fun part member => ?_
    have proper := each part member
    simp only [Bool.and_eq_true] at proper ⊢
    exact proper.1
  have relative : (text.toList.head? == some '/') = false := by
    cases chars : text.toList with
    | nil =>
        rfl
    | cons char rest =>
        by_cases slash : char = '/'
        · have proper := each [] (by
            simp [chars, List.splitOn_cons_eq_if_modifyHead, slash])
          simp at proper
        · simp [slash]
  simp only [PurePath.ofString, parts, relative]

theorem toText_of_isCanonicalPath
    {text : String}
    (canonical : isCanonicalPath text = true) :
    (PurePath.ofString text).toText = text := by
  rw [ofString_of_isCanonicalPath canonical]
  cases parts : text.toList.splitOn '/' with
  | nil =>
      exact absurd parts (List.splitOn_ne_nil _ _)
  | cons first rest =>
      simp only [PurePath.toText, ← parts, List.intercalate_splitOn,
        String.ofList_toList]

/-! ## Paths of names -/

/-- A part that a path keeps. -/
def isNamePart (part : PathPart) : Bool :=
  part != [] && part != ['.'] && !part.contains '/'

/-- A path without parts that a text drops. -/
def PurePath.IsNormal (path : PurePath) : Prop :=
  ∀ part ∈ path.parts, isNamePart part = true

/-- What lies between slashes has no slash. -/
theorem sublist_of_mem_splitOn
    {text part : List Char}
    (member : part ∈ text.splitOn '/') :
    part.Sublist (text.filter (· != '/')) := by
  induction text generalizing part with
  | nil =>
      rw [List.splitOn_nil, List.mem_singleton] at member
      rw [member]
      exact List.nil_sublist _
  | cons char rest inductionHypothesis =>
      rw [List.splitOn_cons_eq_if_modifyHead] at member
      by_cases slash : (char == '/') = true
      · rw [if_pos slash, List.mem_cons] at member
        have dropped : (char != '/') = false := by
          simp [bne, slash]
        rw [List.filter_cons, dropped]
        rcases member with isEmpty | inRest
        · rw [isEmpty]
          exact List.nil_sublist _
        · exact inductionHypothesis inRest
      · rw [if_neg slash] at member
        have kept : (char != '/') = true := by
          simp [bne, slash]
        rw [List.filter_cons, if_pos kept]
        cases split : rest.splitOn '/' with
        | nil =>
            exact absurd split (List.splitOn_ne_nil _ _)
        | cons first others =>
            rw [split, List.modifyHead_cons, List.mem_cons] at member
            rcases member with isFirst | inOthers
            · rw [isFirst]
              exact (inductionHypothesis (split ▸ List.mem_cons_self)).cons_cons _
            · exact (inductionHypothesis
                (split ▸ List.mem_cons_of_mem _ inOthers)).cons _

theorem isNormal_ofString (text : String) :
    (PurePath.ofString text).IsNormal := by
  intro part member
  obtain ⟨inSplit, kept⟩ := List.mem_filter.mp member
  have noSlash : part.contains '/' = false := by
    cases slash : part.contains '/' with
    | false =>
        rfl
    | true =>
        have inText :=
          (sublist_of_mem_splitOn inSplit).subset (List.contains_iff_mem.mp slash)
        exact absurd (List.mem_filter.mp inText).2 (by decide)
  simp only [isNamePart, noSlash, Bool.not_false, Bool.and_true]
  exact kept

theorem PurePath.IsNormal.join
    {first second : PurePath}
    (normalFirst : first.IsNormal)
    (normalSecond : second.IsNormal) :
    (first.join second).IsNormal := by
  unfold PurePath.join
  split
  · exact normalSecond
  · intro part member
    rcases List.mem_append.mp member with inFirst | inSecond
    · exact normalFirst part inFirst
    · exact normalSecond part inSecond

theorem splitOn_intercalate_of_isNormal
    {parts : List PathPart}
    (normal : ∀ part ∈ parts, isNamePart part = true)
    (nonempty : parts ≠ []) :
    (['/'].intercalate parts).splitOn '/' = parts := by
  apply List.splitOn_intercalate
  · intro part member
    have proper := normal part member
    simp only [isNamePart, Bool.and_eq_true, Bool.not_eq_true'] at proper
    intro slash
    rw [List.contains_iff_mem.mpr slash] at proper
    cases proper.2
  · exact nonempty

/-- A normal path is the path of its text. -/
theorem ofString_toText
    {path : PurePath}
    (normal : path.IsNormal) :
    PurePath.ofString path.toText = path := by
  rcases path with ⟨absolute, parts⟩
  have kept : parts.filter (fun part => part != [] && part != ['.']) = parts := by
    refine List.filter_eq_self.mpr fun part member => ?_
    have proper := normal part member
    simp only [isNamePart, Bool.and_eq_true] at proper ⊢
    exact proper.1
  cases parts with
  | nil =>
      cases absolute with
      | false =>
          decide +kernel
      | true =>
          decide +kernel
  | cons first rest =>
      have split := splitOn_intercalate_of_isNormal normal (List.cons_ne_nil _ _)
      cases absolute with
      | false =>
          have relative :
              ((['/'].intercalate (first :: rest)).head? == some '/') = false := by
            have proper := normal first List.mem_cons_self
            cases first with
            | nil =>
                cases proper
            | cons char chars =>
                simp only [isNamePart, Bool.and_eq_true, Bool.not_eq_true',
                  List.contains_cons, Bool.or_eq_false_iff] at proper
                have head :
                    (['/'].intercalate ((char :: chars) :: rest)).head? =
                      some char := by
                  cases rest with
                  | nil =>
                      simp
                  | cons second others =>
                      simp [List.intercalate, List.intersperse]
                rw [head, Option.some_beq_some, Bool.beq_comm]
                exact proper.2.1
          simp only [PurePath.toText, PurePath.ofString, String.toList_ofList,
            split, kept, relative]
      | true =>
          have slashFirst :
              ('/' :: ['/'].intercalate (first :: rest)).splitOn '/' =
                [] :: first :: rest := by
            rw [List.splitOn_cons_eq_if_modifyHead, if_pos (by rfl), split]
          simp only [PurePath.toText, PurePath.ofString, String.toList_ofList,
            slashFirst, List.filter_cons, kept]
          rfl

/-- An ending without a slash goes to the last part. -/
theorem splitOn_append
    {ending : List Char}
    (noSlash : '/' ∉ ending)
    (chars : List Char) :
    ∃ front last,
      chars.splitOn '/' = front ++ [last] ∧
        (chars ++ ending).splitOn '/' = front ++ [last ++ ending] := by
  induction chars with
  | nil =>
      exact ⟨[], [], by simp [List.splitOn_eq_singleton noSlash]⟩
  | cons char rest inductionHypothesis =>
      obtain ⟨front, last, split, splitEnding⟩ := inductionHypothesis
      simp only [List.cons_append, List.splitOn_cons_eq_if_modifyHead, split,
        splitEnding]
      by_cases slash : (char == '/') = true
      · exact ⟨[] :: front, last, by simp [slash]⟩
      · cases front with
        | nil =>
            exact ⟨[], char :: last, by simp [slash]⟩
        | cons first front =>
            exact ⟨(char :: first) :: front, last, by simp [slash]⟩

/-! ## What patterns match -/

/-- Whether a part of a pattern matches only itself. -/
def isLiteralPart (part : PathPart) : Bool :=
  part.all fun char => char != '*' && char != '?' && char != '['

theorem globTokens_of_literal
    {pattern : List Char}
    {fuel : Nat}
    (literal : isLiteralPart pattern = true)
    (enough : pattern.length ≤ fuel) :
    globTokens fuel pattern = pattern.map .char := by
  induction pattern generalizing fuel with
  | nil =>
      cases fuel <;> rfl
  | cons char rest inductionHypothesis =>
      cases fuel with
      | zero =>
          simp at enough
      | succ fuel =>
          simp only [isLiteralPart, List.all_cons, Bool.and_eq_true,
            bne_iff_ne, ne_eq] at literal
          obtain ⟨⟨⟨notStar, notMark⟩, notBracket⟩, literalRest⟩ := literal
          have tokens :=
            inductionHypothesis literalRest (Nat.le_of_succ_le_succ enough)
          simp only [globTokens, List.map_cons, tokens]

theorem matchTokens_map_char (pattern text : List Char) :
    matchTokens (pattern.map .char) text = true ↔ text = pattern := by
  induction pattern generalizing text with
  | nil =>
      simp [matchTokens]
  | cons char rest inductionHypothesis =>
      cases text with
      | nil =>
          simp [matchTokens]
      | cons first others =>
          simp only [List.map_cons, matchTokens, GlobToken.matchesChar,
            Bool.and_eq_true, beq_iff_eq, inductionHypothesis, List.cons.injEq]
          rw [@eq_comm _ char first]

theorem fnmatch_literal
    {pattern name : List Char}
    (literal : isLiteralPart pattern = true) :
    fnmatch pattern name = true ↔ name = pattern := by
  rw [fnmatch, globTokens_of_literal literal le_rfl, matchTokens_map_char]

theorem fnmatch_star
    {ending name : List Char}
    (literal : isLiteralPart ending = true) :
    fnmatch ('*' :: ending) name = true ↔ ending <:+ name := by
  have tokens : globTokens ending.length ending = ending.map .char :=
    globTokens_of_literal literal le_rfl
  simp only [fnmatch, List.length_cons, globTokens, tokens, matchTokens,
    List.any_eq_true, matchTokens_map_char]
  constructor
  · rintro ⟨tail, member, rfl⟩
    exact (List.mem_tails _ _).mp member
  · intro suffix
    exact ⟨ending, (List.mem_tails _ _).mpr suffix, rfl⟩

/-- A literal folder and a pattern for the name in it. -/
theorem globMatches_literal
    {folder : List PathPart}
    {pattern : PathPart}
    (literal : ∀ part ∈ folder, isLiteralPart part = true)
    (single : pattern ≠ ['*', '*'])
    (parts : List PathPart) :
    globMatches (folder ++ [pattern]) parts = true ↔
      ∃ name, parts = folder ++ [name] ∧ fnmatch pattern name = true := by
  induction folder generalizing parts with
  | nil =>
      cases parts with
      | nil =>
          simp [globMatches, single]
      | cons name rest =>
          cases rest with
          | nil =>
              simp [globMatches, single]
          | cons second others =>
              simp [globMatches, single]
  | cons first folder inductionHypothesis =>
      simp only [List.forall_mem_cons] at literal
      have notStars : first ≠ ['*', '*'] := by
        rintro rfl
        exact absurd literal.1 (by decide)
      cases parts with
      | nil =>
          simp [globMatches, notStars]
      | cons name rest =>
          simp only [List.cons_append, globMatches, notStars, ↓reduceIte,
            Bool.and_eq_true, fnmatch_literal literal.1,
            inductionHypothesis literal.2, List.cons.injEq]
          constructor
          · rintro ⟨same, last, isRest, isMatch⟩
            exact ⟨last, ⟨same, isRest⟩, isMatch⟩
          · rintro ⟨last, ⟨same, isRest⟩, isMatch⟩
            exact ⟨same, last, isRest, isMatch⟩

theorem withoutSuffix_startsName (name : PathPart) :
    withoutSuffix name <+: name := by
  unfold withoutSuffix
  simp only
  split
  · exact List.prefix_rfl
  · exact List.prefix_rfl
  · exact List.prefix_rfl
  · rename_i dropped _
    have shape := List.drop_suffix
      (name.reverse.takeWhile (· != '.')).length name.reverse
    rw [dropped] at shape
    have front := List.reverse_prefix.mpr ((List.suffix_cons _ _).trans shape)
    rwa [List.reverse_reverse] at front

theorem withoutSuffix_of_notMem
    {name : PathPart}
    (noDot : '.' ∉ name) :
    withoutSuffix name = name := by
  have all : name.reverse.takeWhile (· != '.') = name.reverse := by
    refine List.takeWhile_eq_self_iff.mpr fun char member => ?_
    rw [bne_iff_ne]
    rintro rfl
    exact noDot (List.mem_reverse.mp member)
  unfold withoutSuffix
  simp only [all, List.drop_length]
  split
  · rfl
  · rfl
  · rename_i isDropped _
    cases isDropped
  · rename_i isDropped _
    cases isDropped

/-- Removing the suffix that was added to a name. -/
theorem withoutSuffix_append
    {stem extension : List Char}
    (named : stem ≠ [])
    (extended : extension ≠ [])
    (noDot : '.' ∉ extension) :
    withoutSuffix (stem ++ '.' :: extension) = stem := by
  have taken :
      (extension.reverse ++ '.' :: stem.reverse).takeWhile (· != '.') =
        extension.reverse := by
    rw [List.takeWhile_append_of_pos]
    · simp
    · intro char member
      simp only [bne_iff_ne, ne_eq]
      rintro rfl
      exact noDot (List.mem_reverse.mp member)
  have reversed :
      (stem ++ '.' :: extension).reverse =
        extension.reverse ++ '.' :: stem.reverse := by
    simp
  obtain ⟨firstExt, restExt, isExt⟩ :
      ∃ first rest, extension.reverse = first :: rest :=
    List.exists_cons_of_ne_nil (by simpa using extended)
  obtain ⟨firstStem, restStem, isStem⟩ :
      ∃ first rest, stem.reverse = first :: rest :=
    List.exists_cons_of_ne_nil (by simpa using named)
  have dropped :
      (extension.reverse ++ '.' :: stem.reverse).drop
          extension.reverse.length =
        '.' :: stem.reverse :=
    List.drop_left
  simp only [withoutSuffix, reversed, taken, dropped]
  simp only [isExt, isStem]
  rw [← isStem, List.reverse_reverse]

end TensorPC
