import Mathlib.Tactic.Common

namespace TensorPC.QuotedText

/-!
# Texts with unescaped quotes

A sequence of items is written as a text: plain items have texts without a quote, other
items are arbitrary contents between two quotes, which are not escaped.  A text with
one pair of quotes can still be read in one way, unless the content itself looks like
two quoted items; a text with more than one pair can always be read in another way.
-/

/-! ## Splitting at a mark -/

section Split

variable {χ : Type} {mark : χ}

/-- The first mark splits a text in one way. -/
theorem split_at_first
    {before before' after after' : List χ}
    (same : before ++ mark :: after = before' ++ mark :: after')
    (absent : mark ∉ before)
    (absent' : mark ∉ before') :
    before = before' ∧ after = after' := by
  induction before generalizing before' with
  | nil =>
      cases before' with
      | nil =>
          exact ⟨rfl, List.tail_eq_of_cons_eq same⟩
      | cons head rest =>
          obtain ⟨rfl, -⟩ := List.cons.inj same
          exact absurd List.mem_cons_self absent'
  | cons head rest inductionHypothesis =>
      cases before' with
      | nil =>
          obtain ⟨rfl, -⟩ := List.cons.inj same
          exact absurd List.mem_cons_self absent
      | cons head' rest' =>
          obtain ⟨rfl, remaining⟩ := List.cons.inj same
          obtain ⟨rfl, sameAfter⟩ :=
            inductionHypothesis remaining (fun member => absent (List.mem_cons_of_mem _ member))
              (fun member => absent' (List.mem_cons_of_mem _ member))
          exact ⟨rfl, sameAfter⟩

theorem split_at_last
    {before before' after after' : List χ}
    (same : before ++ mark :: after = before' ++ mark :: after')
    (absent : mark ∉ after)
    (absent' : mark ∉ after') :
    before = before' ∧ after = after' := by
  have reversed :
      after.reverse ++ mark :: before.reverse = after'.reverse ++ mark :: before'.reverse := by
    simpa using congrArg List.reverse same
  obtain ⟨sameAfter, sameBefore⟩ :=
    split_at_first reversed (by simpa using absent) (by simpa using absent')
  exact ⟨List.reverse_inj.mp sameBefore, List.reverse_inj.mp sameAfter⟩

theorem exists_last
    {text : List χ}
    (member : mark ∈ text) :
    ∃ before after, text = before ++ mark :: after ∧ mark ∉ after := by
  induction text with
  | nil =>
      cases member
  | cons head rest inductionHypothesis =>
      by_cases later : mark ∈ rest
      · obtain ⟨before, after, rfl, absent⟩ := inductionHypothesis later
        exact ⟨head :: before, after, rfl, absent⟩
      · obtain rfl := (List.mem_cons.mp member).resolve_right later
        exact ⟨[], rest, rfl, later⟩

/-- Two texts whose first parts have a property that their second parts do not start with. -/
theorem split_by_property
    {holds : χ → Prop}
    {first first' second second' : List χ}
    (same : first ++ second = first' ++ second')
    (all : ∀ letter ∈ first, holds letter)
    (all' : ∀ letter ∈ first', holds letter)
    (stops : ∀ letter ∈ second.head?, ¬ holds letter)
    (stops' : ∀ letter ∈ second'.head?, ¬ holds letter) :
    first = first' ∧ second = second' := by
  induction first generalizing first' with
  | nil =>
      cases first' with
      | nil =>
          exact ⟨rfl, same⟩
      | cons head rest =>
          rw [List.nil_append] at same
          subst same
          exact absurd (all' head List.mem_cons_self) (stops head rfl)
  | cons head rest inductionHypothesis =>
      cases first' with
      | nil =>
          rw [List.nil_append] at same
          subst same
          exact absurd (all head List.mem_cons_self) (stops' head rfl)
      | cons head' rest' =>
          obtain ⟨rfl, remaining⟩ := List.cons.inj same
          obtain ⟨rfl, sameSecond⟩ :=
            inductionHypothesis remaining
              (fun letter member => all letter (List.mem_cons_of_mem _ member))
              (fun letter member => all' letter (List.mem_cons_of_mem _ member))
          exact ⟨rfl, sameSecond⟩

end Split

/-! ## Items and their text -/

/-- A plain item, or any content between quotes. -/
inductive Item (π χ : Type) where
  | plain (value : π)
  | quoted (content : List χ)

/-- How items are written. -/
structure Style (π χ : Type) where
  plainText : π → List χ
  /-- What is written before the first and after the second quote. -/
  opening : List χ
  closing : List χ
  quote : χ
  plain_unquoted : ∀ value, quote ∉ plainText value
  opening_unquoted : quote ∉ opening
  closing_unquoted : quote ∉ closing
  plain_injective :
    ∀ values values' : List π,
      values.flatMap plainText = values'.flatMap plainText → values = values'

namespace Style

variable {π χ : Type} (style : Style π χ)

/-- The text of an item. -/
def itemText : Item π χ → List χ
  | .plain value => style.plainText value
  | .quoted content =>
      style.opening ++ style.quote :: (content ++ style.quote :: style.closing)

/-- The text of a sequence of items. -/
def text (items : List (Item π χ)) : List χ :=
  items.flatMap style.itemText

/-- Content that looks like two quoted items with plain items between them. -/
def LooksLikeTwo (content : List χ) : Prop :=
  ∃ (first : List χ) (between : List π) (second : List χ),
    content =
      first ++ style.quote ::
        (style.closing ++ between.flatMap style.plainText ++ style.opening ++
          style.quote :: second)

/-- The contents between quotes. -/
def contents : List (Item π χ) → List (List χ)
  | [] => []
  | .plain _ :: rest => contents rest
  | .quoted content :: rest => content :: contents rest

/-- At most one pair of quotes, whose content does not look like two quoted items. -/
structure ReadsOneWay (items : List (Item π χ)) : Prop where
  single : (contents items).length ≤ 1
  whole : ∀ content ∈ contents items, ¬ style.LooksLikeTwo content

section Text

variable {style}

theorem text_append (items others : List (Item π χ)) :
    style.text (items ++ others) = style.text items ++ style.text others :=
  List.flatMap_append

theorem text_map_plain (values : List π) :
    style.text (values.map Item.plain) = values.flatMap style.plainText :=
  List.flatMap_map _ _ _

theorem plain_or_quoted (items : List (Item π χ)) :
    (∃ values : List π, items = values.map Item.plain) ∨
      ∃ (values : List π) (content : List χ) (rest : List (Item π χ)),
        items = values.map Item.plain ++ .quoted content :: rest := by
  induction items with
  | nil =>
      exact .inl ⟨[], rfl⟩
  | cons item rest inductionHypothesis =>
      cases item with
      | quoted content =>
          exact .inr ⟨[], content, rest, rfl⟩
      | plain value =>
          rcases inductionHypothesis with ⟨values, rfl⟩ | ⟨values, content, others, rfl⟩
          · exact .inl ⟨value :: values, rfl⟩
          · exact .inr ⟨value :: values, content, others, rfl⟩

theorem quote_notMem_flatMap (values : List π) :
    style.quote ∉ values.flatMap style.plainText := by
  intro member
  obtain ⟨value, -, inside⟩ := List.mem_flatMap.mp member
  exact style.plain_unquoted value inside

theorem text_quoted
    (values : List π)
    (content : List χ)
    (rest : List (Item π χ)) :
    style.text (values.map Item.plain ++ .quoted content :: rest) =
      (values.flatMap style.plainText ++ style.opening) ++
        style.quote :: (content ++ style.quote :: (style.closing ++ style.text rest)) := by
  rw [text_append, text_map_plain]
  simp [text, itemText]

theorem quote_notMem_before (values : List π) :
    style.quote ∉ values.flatMap style.plainText ++ style.opening := by
  rw [List.mem_append, not_or]
  exact ⟨quote_notMem_flatMap values, style.opening_unquoted⟩

theorem quote_notMem_after (values : List π) :
    style.quote ∉ style.closing ++ values.flatMap style.plainText := by
  rw [List.mem_append, not_or]
  exact ⟨style.closing_unquoted, quote_notMem_flatMap values⟩

@[simp] theorem contents_map_plain (values : List π) :
    contents (values.map (Item.plain (χ := χ))) = [] := by
  induction values with
  | nil =>
      rfl
  | cons value rest inductionHypothesis =>
      exact inductionHypothesis

@[simp] theorem contents_append (items others : List (Item π χ)) :
    contents (items ++ others) = contents items ++ contents others := by
  induction items with
  | nil =>
      rfl
  | cons item rest inductionHypothesis =>
      cases item with
      | plain value =>
          exact inductionHypothesis
      | quoted content =>
          exact congrArg (content :: ·) inductionHypothesis

theorem eq_map_plain_of_contents
    {items : List (Item π χ)}
    (none : contents items = []) :
    ∃ values : List π, items = values.map Item.plain := by
  rcases plain_or_quoted items with plain | ⟨values, content, rest, rfl⟩
  · exact plain
  · rw [contents_append, contents_map_plain] at none
    cases none

/-- Two quoted items and one that has both as its content are written alike. -/
theorem text_merge
    (before : List (Item π χ))
    (first : List χ)
    (between : List π)
    (second : List χ)
    (after : List (Item π χ)) :
    style.text
        (before ++ .quoted first :: (between.map Item.plain ++ .quoted second :: after)) =
      style.text
        (before ++
          .quoted
            (first ++ style.quote ::
              (style.closing ++ between.flatMap style.plainText ++ style.opening ++
                style.quote :: second)) :: after) := by
  have pair := @text_quoted π χ style [] first (between.map Item.plain ++ .quoted second :: after)
  have merged :=
    @text_quoted π χ style []
      (first ++ style.quote ::
        (style.closing ++ between.flatMap style.plainText ++ style.opening ++
          style.quote :: second)) after
  simp only [List.map_nil, List.nil_append] at pair merged
  rw [text_append, text_append, pair, merged, text_quoted]
  simp

/-- Two quoted items of the first sequence are the content of one of the second. -/
def Merges (items others : List (Item π χ)) : Prop :=
  ∃ (before : List (Item π χ)) (first : List χ) (between : List π) (second : List χ)
      (after : List (Item π χ)),
    items = before ++ .quoted first :: (between.map Item.plain ++ .quoted second :: after) ∧
      others =
        before ++
          .quoted
            (first ++ style.quote ::
              (style.closing ++ between.flatMap style.plainText ++ style.opening ++
                style.quote :: second)) :: after

theorem Merges.text_eq
    {items others : List (Item π χ)}
    (merges : @Merges π χ style items others) :
    style.text items = style.text others := by
  obtain ⟨before, first, between, second, after, rfl, rfl⟩ := merges
  exact text_merge before first between second after

/-- A sequence that does not read one way has another one with its text. -/
theorem exists_merges_of_not_readsOneWay
    {items : List (Item π χ)}
    (ambiguous : ¬ style.ReadsOneWay items) :
    ∃ others, @Merges π χ style items others ∨ @Merges π χ style others items := by
  rcases plain_or_quoted items with ⟨values, rfl⟩ | ⟨values, first, rest, rfl⟩
  · refine absurd ⟨?_, ?_⟩ ambiguous
    · rw [contents_map_plain]
      exact Nat.zero_le 1
    · rw [contents_map_plain]
      exact fun content member => absurd member List.not_mem_nil
  · rcases plain_or_quoted rest with ⟨later, rfl⟩ | ⟨between, second, after, rfl⟩
    · have single : contents (values.map Item.plain ++ .quoted first :: later.map Item.plain) =
          [first] := by
        rw [contents_append, contents_map_plain, contents, contents_map_plain]
        rfl
      by_cases two : style.LooksLikeTwo first
      · obtain ⟨content, between, second, rfl⟩ := two
        exact ⟨_, .inr ⟨values.map Item.plain, content, between, second, _, rfl, rfl⟩⟩
      · refine absurd ⟨?_, ?_⟩ ambiguous
        · rw [single]
          exact Nat.le_refl 1
        · rw [single]
          intro content member
          rw [List.mem_singleton.mp member]
          exact two
    · exact ⟨_, .inl ⟨values.map Item.plain, first, between, second, after, rfl, rfl⟩⟩

/-- A quoted item after the first one makes the content look like two. -/
theorem looksLikeTwo_of_text_eq
    {content first : List χ}
    {values : List π}
    {rest : List (Item π χ)}
    (same :
      content ++ style.quote :: (style.closing ++ values.flatMap style.plainText) =
        first ++ style.quote :: (style.closing ++ style.text rest))
    (later : contents rest ≠ []) :
    style.LooksLikeTwo content := by
  rcases plain_or_quoted rest with ⟨others, rfl⟩ | ⟨between, second, others, rfl⟩
  · rw [contents_map_plain] at later
    exact absurd rfl later
  · rw [text_quoted] at same
    have quoted : style.quote ∈ second ++ style.quote :: (style.closing ++ style.text others) :=
      List.mem_append_right _ List.mem_cons_self
    obtain ⟨inner, outer, splits, absent⟩ := exists_last quoted
    rw [splits] at same
    have regrouped :
        content ++ style.quote :: (style.closing ++ values.flatMap style.plainText) =
          (first ++ style.quote ::
              (style.closing ++ between.flatMap style.plainText ++ style.opening ++
                style.quote :: inner)) ++
            style.quote :: outer := by
      rw [same]
      simp
    obtain ⟨whole, -⟩ := split_at_last regrouped (quote_notMem_after values) absent
    exact ⟨first, between, inner, whole⟩

/-- A sequence that reads one way is the only one with its text. -/
theorem eq_of_text_eq
    {items others : List (Item π χ)}
    (oneWay : style.ReadsOneWay items)
    (same : style.text items = style.text others) :
    items = others := by
  rcases plain_or_quoted items with ⟨values, rfl⟩ | ⟨values, content, rest, rfl⟩
  · rcases plain_or_quoted others with ⟨values', rfl⟩ | ⟨values', first, rest, rfl⟩
    · rw [text_map_plain, text_map_plain] at same
      rw [style.plain_injective _ _ same]
    · rw [text_map_plain, text_quoted] at same
      refine absurd ?_ (@quote_notMem_flatMap π χ style values)
      rw [same]
      exact List.mem_append_right _ List.mem_cons_self
  · have remaining : contents rest = [] := by
      have few := oneWay.single
      rw [contents_append, contents_map_plain, contents, List.nil_append, List.length_cons] at few
      exact List.length_eq_zero_iff.mp (by omega)
    obtain ⟨later, rfl⟩ := eq_map_plain_of_contents remaining
    have whole : ¬ style.LooksLikeTwo content := by
      refine oneWay.whole content ?_
      rw [contents_append]
      exact List.mem_append_right _ List.mem_cons_self
    rcases plain_or_quoted others with ⟨values', rfl⟩ | ⟨values', first, rest, rfl⟩
    · rw [text_map_plain, text_quoted] at same
      refine absurd ?_ (@quote_notMem_flatMap π χ style values')
      rw [← same]
      exact List.mem_append_right _ List.mem_cons_self
    · rw [text_quoted, text_quoted] at same
      obtain ⟨sameBefore, sameAfter⟩ :=
        split_at_first same (quote_notMem_before values) (quote_notMem_before values')
      have sameValues : values = values' :=
        style.plain_injective _ _ (List.append_cancel_right sameBefore)
      rw [text_map_plain] at sameAfter
      by_cases plainRest : contents rest = []
      · obtain ⟨later', rfl⟩ := eq_map_plain_of_contents plainRest
        rw [text_map_plain] at sameAfter
        obtain ⟨sameContent, sameLater⟩ :=
          split_at_last sameAfter (quote_notMem_after later) (quote_notMem_after later')
        have sameRest : later = later' :=
          style.plain_injective _ _ (List.append_cancel_left sameLater)
        rw [sameValues, sameContent, sameRest]
      · exact absurd (looksLikeTwo_of_text_eq sameAfter plainRest) whole

end Text

end Style

end TensorPC.QuotedText
