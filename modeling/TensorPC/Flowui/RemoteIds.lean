import TensorPC.Flowui.UniqueTreeId
import TensorPC.Lib.Search

namespace TensorPC.Flowui

/-!
# Ids of remote components

A mounted remote app's ids get the parts of the mounting component's id in front.
An event from the frontend loses them again, with a template suffix set aside.
-/

open UniqueTreeId

/-- `TENSORPC_FLOW_COMP_UID_TEMPLATE_SPLIT`. -/
def templateSplit : Text := ['$', '&', '&']

/-- The text of an id with some parts. -/
def uidText
    (parts : List Text) :
    Text :=
  if parts = [] then
    []
  else
    encode parts defaultSplitter

/-- The id with some parts, as `from_parts` makes it. -/
def idOfParts
    (parts : List Text) :
    UniqueTreeId where
  uidEncoded := uidText parts
  parts := parts
  splitterLength := defaultSplitter.length

theorem fromParts_eq
    (parts : List Text) :
    fromParts parts defaultSplitter = .ok (idOfParts parts) := by
  cases parts with
  | nil => rfl
  | cons part rest => exact ofUid_encode (List.cons_ne_nil part rest) defaultSplitter

theorem ofUid_uidText
    (parts : List Text) :
    ofUid (uidText parts) defaultSplitter.length = .ok (idOfParts parts) := by
  cases parts with
  | nil => rfl
  | cons part rest => exact ofUid_encode (List.cons_ne_nil part rest) defaultSplitter

theorem uidText_injective :
    Function.Injective uidText := by
  intro parts others same
  have read := ofUid_uidText parts
  rw [same, ofUid_uidText others] at read
  exact congrArg UniqueTreeId.parts (Except.ok.inj read).symm

/-- One key of `patch_uid_keys_with_prefix`, or one id of `patch_uid_list_with_prefix`. -/
def patchUid
    (prefixes : List Text)
    (uid : Text) :
    PyResult Text := do
  let kUid ← ofUid uid defaultSplitter.length
  let newUid ← fromParts (prefixes ++ kUid.parts) defaultSplitter
  return newUid.uidEncoded

/-- `unpatch_uid`. -/
def unpatchUid
    (prefixes : List Text)
    (uidEncoded : Text) :
    PyResult Text :=
  match Search.find templateSplit uidEncoded with
  | some tempIndex => do
      let kUid ← ofUid (uidEncoded.take tempIndex) defaultSplitter.length
      let newUid ← fromParts (kUid.parts.drop prefixes.length) defaultSplitter
      return newUid.uidEncoded ++ uidEncoded.drop tempIndex
  | none => do
      let kUid ← ofUid uidEncoded defaultSplitter.length
      let newUid ← fromParts (kUid.parts.drop prefixes.length) defaultSplitter
      return newUid.uidEncoded

theorem patchUid_uidText
    (prefixes parts : List Text) :
    patchUid prefixes (uidText parts) = .ok (uidText (prefixes ++ parts)) := by
  simp [patchUid, ofUid_uidText, fromParts_eq, idOfParts, bind, Except.bind, pure, Except.pure]

/-! ## The split marker in an id -/

/-- What does not hold a separator lies on one side of it. -/
theorem infix_append_cons_iff
    {α : Type}
    {pattern first second : List α}
    {separator : α}
    (absent : separator ∉ pattern) :
    pattern <:+: first ++ separator :: second ↔
      pattern <:+: first ∨ pattern <:+: second := by
  constructor
  · rintro ⟨before, after, placed⟩
    rw [List.append_assoc, List.append_eq_append_iff] at placed
    rcases placed with ⟨middle, rfl, placed⟩ | ⟨middle, rfl, placed⟩
    · rw [List.append_eq_append_iff] at placed
      rcases placed with ⟨tail, rfl, -⟩ | ⟨tail, rfl, placed⟩
      · exact Or.inl ⟨before, tail, by simp⟩
      · cases tail with
        | nil => exact Or.inl ⟨before, [], by simp⟩
        | cons head rest =>
            obtain ⟨rfl, -⟩ := List.cons.inj placed
            simp at absent
    · cases middle with
      | nil =>
          cases pattern with
          | nil => exact Or.inl (List.nil_infix)
          | cons head rest =>
              obtain ⟨rfl, -⟩ := List.cons.inj placed
              simp at absent
      | cons head rest =>
          obtain ⟨-, rfl⟩ := List.cons.inj placed
          exact Or.inr ⟨rest, after, by simp⟩
  · rintro (⟨before, after, rfl⟩ | ⟨before, after, rfl⟩)
    · exact ⟨before, after ++ separator :: second, by simp⟩
    · exact ⟨first ++ separator :: before, after, by simp⟩

/-- A part that holds the split marker. -/
def Marked
    (part : Text) :
    Prop :=
  templateSplit <:+: part

theorem marked_intercalate_iff
    {parts : List Text}
    (nonempty : parts ≠ []) :
    templateSplit <:+: defaultSplitter.intercalate parts ↔ ∃ part ∈ parts, Marked part := by
  induction parts with
  | nil => exact absurd rfl nonempty
  | cons part rest inductionHypothesis =>
      cases rest with
      | nil => simp [List.intercalate, Marked]
      | cons next others =>
          rw [List.intercalate_cons_cons, defaultSplitter, List.append_assoc,
            List.singleton_append, infix_append_cons_iff (by decide)]
          have tail := inductionHypothesis (by simp)
          rw [defaultSplitter] at tail
          rw [tail]
          simp [Marked]

theorem not_infix_lengthPart
    (parts : List Text) :
    ¬templateSplit <:+: lengthPart parts := by
  intro inside
  have listed : '$' ∈ lengthPart parts := inside.subset (by decide)
  exact notMem_lengthPart (by decide) (by decide) parts listed

/-- An id's text holds the marker exactly if one of its parts does. -/
theorem marked_uidText_iff
    (parts : List Text) :
    templateSplit <:+: uidText parts ↔ ∃ part ∈ parts, Marked part := by
  by_cases nonempty : parts = []
  · subst nonempty
    simp [uidText, templateSplit]
  · rw [uidText, if_neg nonempty, encode, infix_append_cons_iff (by decide),
      marked_intercalate_iff nonempty]
    simp [not_infix_lengthPart]

/-- What follows an id: nothing, or something that starts with the marker. -/
def IsSuffix
    (suffix : Text) :
    Prop :=
  suffix = [] ∨ templateSplit <+: suffix

/-- The marker does not start in a text without it, also with a suffix after it. -/
theorem freeBefore_suffix
    {text suffix : Text}
    (unmarked : ¬templateSplit <:+: text)
    (isSuffix : IsSuffix suffix) :
    Search.FreeBefore (Search.startsWith templateSplit) text.length (text ++ suffix) := by
  intro position inside
  rw [Search.startsWith_eq_none_iff, List.drop_append_of_le_length inside.le]
  intro starts
  have remaining : text.drop position ≠ [] := by simpa using inside
  have within : text.drop position <:+: text := (List.drop_suffix _ _).isInfix
  generalize text.drop position = rest at starts remaining within
  rcases isSuffix with rfl | ⟨after, rfl⟩
  · rw [List.append_nil] at starts
    exact unmarked (starts.isInfix.trans within)
  · rcases rest with _ | ⟨first, _ | ⟨second, _ | ⟨third, others⟩⟩⟩
    · exact remaining rfl
    · simp [templateSplit] at starts
    · simp [templateSplit] at starts
    · refine unmarked (List.IsInfix.trans ?_ within)
      simp only [templateSplit, List.cons_append, List.cons_prefix_cons] at starts
      obtain ⟨rfl, rfl, rfl, -⟩ := starts
      exact ⟨[], others, rfl⟩

theorem find_suffix
    {text suffix : Text}
    (unmarked : ¬templateSplit <:+: text)
    (isSuffix : IsSuffix suffix) :
    Search.find templateSplit (text ++ suffix) =
      if suffix = [] then none else some text.length := by
  rw [Search.find_append_left (freeBefore_suffix unmarked isSuffix)]
  rcases isSuffix with rfl | starts
  · rfl
  · have found : Search.find templateSplit suffix = some 0 :=
      Search.find_eq_some (by simpa using starts) (Nat.zero_le _) nofun
    have nonempty : suffix ≠ [] := by
      rintro rfl
      simp [templateSplit] at starts
    rw [found, if_neg nonempty]
    rfl

/-- A patched id without the marker loses its prefix and keeps its suffix. -/
theorem unpatchUid_uidText
    {prefixes parts : List Text}
    {suffix : Text}
    (unmarked : ¬∃ part ∈ prefixes ++ parts, Marked part)
    (isSuffix : IsSuffix suffix) :
    unpatchUid prefixes (uidText (prefixes ++ parts) ++ suffix) =
      .ok (uidText parts ++ suffix) := by
  rw [← marked_uidText_iff] at unmarked
  rw [unpatchUid, find_suffix unmarked isSuffix]
  by_cases empty : suffix = []
  · subst empty
    rw [if_pos rfl, List.append_nil, List.append_nil]
    simp [ofUid_uidText, fromParts_eq, idOfParts, bind, Except.bind, pure, Except.pure]
  · rw [if_neg empty]
    simp only [List.take_left, List.drop_left, ofUid_uidText]
    simp [fromParts_eq, idOfParts, bind, Except.bind, pure, Except.pure]

/-- A cut in the parts leaves no id. -/
theorem ofUid_truncated
    {parts : List Text}
    (nonempty : parts ≠ [])
    {kept : Nat}
    (short : kept < (defaultSplitter.intercalate parts).length)
    (id : UniqueTreeId) :
    ofUid (lengthPart parts ++ '|' :: (defaultSplitter.intercalate parts).take kept)
      defaultSplitter.length ≠ .ok id := by
  intro read
  have found :
      (lengthPart parts ++ '|' :: (defaultSplitter.intercalate parts).take kept).findIdx?
        (· = '|') = some (lengthPart parts).length := by
    rw [List.findIdx?_append, List.findIdx?_eq_none_iff.mpr]
    · simp [List.findIdx?_cons]
    · intro letter listed
      rw [decide_eq_false_iff_not]
      rintro rfl
      exact notMem_lengthPart (by decide) (by decide) parts listed
  have sums := length_intercalate defaultSplitter nonempty
  have joined :
      (lengthPart parts ++ '|' :: (defaultSplitter.intercalate parts).take kept).drop
        ((lengthPart parts).length + 1) = (defaultSplitter.intercalate parts).take kept := by
    simp [← List.drop_drop]
  unfold ofUid at read
  rw [found] at read
  simp only [List.take_left, joined, mapM_lengthPart nonempty] at read
  obtain ⟨lengths, given, read⟩ := PyResult.bind_eq_ok.mp read
  obtain rfl := Except.ok.inj given
  obtain ⟨_, asserted, -⟩ := PyResult.bind_eq_ok.mp read
  rw [pyAssert_eq_ok, decide_eq_true_eq, List.length_map, List.length_take] at asserted
  omega

/-- A marker in the id cuts it short, and the rest is no id. -/
theorem unpatchUid_marked
    {prefixes parts : List Text}
    (marked : ∃ part ∈ parts, Marked part)
    (suffix result : Text) :
    unpatchUid prefixes (uidText parts ++ suffix) ≠ .ok result := by
  intro unpatched
  have nonempty : parts ≠ [] := by
    rintro rfl
    obtain ⟨part, listed, -⟩ := marked
    cases listed
  obtain ⟨tempIndex, finds⟩ :
      ∃ tempIndex, Search.find templateSplit (uidText parts) = some tempIndex := by
    rw [← Option.isSome_iff_exists, Option.isSome_iff_ne_none]
    intro absent
    obtain ⟨before, after, placed⟩ := (marked_uidText_iff parts).mpr marked
    refine Search.not_prefix_of_find_eq_none (by decide) absent before.length ?_
    rw [← placed, List.append_assoc, List.drop_left]
    exact List.prefix_append _ _
  obtain ⟨inside, starts, -⟩ := Search.find_spec finds
  rw [unpatchUid, Search.find_append finds suffix] at unpatched
  obtain ⟨id, read, -⟩ := PyResult.bind_eq_ok.mp unpatched
  rw [List.take_append_of_le_length inside] at read
  rw [uidText, if_neg nonempty, encode] at starts read
  have after : (lengthPart parts).length < tempIndex := by
    by_contra early
    rw [List.drop_append_of_le_length (not_lt.mp early)] at starts
    cases rest : (lengthPart parts).drop tempIndex with
    | nil =>
        rw [rest] at starts
        simp [templateSplit] at starts
    | cons head others =>
        have listed : head ∈ lengthPart parts :=
          List.mem_of_mem_drop (rest ▸ List.mem_cons_self)
        rw [rest, templateSplit, List.cons_append, List.cons_prefix_cons] at starts
        exact notMem_lengthPart (by decide) (by decide) parts (starts.1 ▸ listed)
  obtain ⟨kept, rfl⟩ := Nat.exists_eq_add_of_lt after
  have width := starts.length_le
  rw [List.length_drop, List.length_append, List.length_cons] at width
  refine @ofUid_truncated parts nonempty kept ?_ id ?_
  · simp only [templateSplit, List.length_cons] at width
    omega
  · rw [List.take_append, Nat.add_assoc, List.take_of_length_le (Nat.le_add_right _ _),
      Nat.add_sub_cancel_left, List.take_succ_cons] at read
    exact read

/-! ## Remotes inside remotes -/

/-- What each level adds, the innermost first. -/
def patchLevels :
    List (List Text) → Text → PyResult Text
  | [], uid => .ok uid
  | prefixes :: outer, uid => do
      let patched ← patchUid prefixes uid
      patchLevels outer patched

/-- What each level removes, the outermost first. -/
def unpatchLevels :
    List (List Text) → Text → PyResult Text
  | [], uid => .ok uid
  | prefixes :: outer, uid => do
      let inner ← unpatchLevels outer uid
      unpatchUid prefixes inner

/-- The parts of an id under all its prefixes. -/
def underLevels :
    List (List Text) → List Text → List Text
  | [], parts => parts
  | prefixes :: outer, parts => underLevels outer (prefixes ++ parts)

/-- An id without the marker comes back through all levels, with its suffix. -/
def TranslatesBack
    (levels : List (List Text)) :
    Prop :=
  ∀ parts suffix,
    (¬∃ part ∈ parts, Marked part) →
    IsSuffix suffix →
    ∃ patched,
      patchLevels levels (uidText parts) = .ok patched ∧
        unpatchLevels levels (patched ++ suffix) = .ok (uidText parts ++ suffix)

theorem patchLevels_uidText
    (levels : List (List Text))
    (parts : List Text) :
    patchLevels levels (uidText parts) = .ok (uidText (underLevels levels parts)) := by
  induction levels generalizing parts with
  | nil => rfl
  | cons prefixes outer inductionHypothesis =>
      rw [patchLevels, patchUid_uidText]
      exact inductionHypothesis (prefixes ++ parts)

theorem marked_underLevels
    (levels : List (List Text))
    (parts : List Text) :
    (∃ part ∈ underLevels levels parts, Marked part) ↔
      (∃ prefixes ∈ levels, ∃ part ∈ prefixes, Marked part) ∨
        ∃ part ∈ parts, Marked part := by
  induction levels generalizing parts with
  | nil => simp [underLevels]
  | cons prefixes outer inductionHypothesis =>
      rw [underLevels, inductionHypothesis]
      simp only [List.mem_append, List.mem_cons]
      constructor
      · rintro (⟨level, listed, inside⟩ | ⟨part, inFirst | inParts, marked⟩)
        · exact Or.inl ⟨level, Or.inr listed, inside⟩
        · exact Or.inl ⟨prefixes, Or.inl rfl, part, inFirst, marked⟩
        · exact Or.inr ⟨part, inParts, marked⟩
      · rintro (⟨level, rfl | listed, part, inside, marked⟩ | ⟨part, inParts, marked⟩)
        · exact Or.inr ⟨part, Or.inl inside, marked⟩
        · exact Or.inl ⟨level, listed, part, inside, marked⟩
        · exact Or.inr ⟨part, Or.inr inParts, marked⟩

theorem unpatchLevels_uidText
    {levels : List (List Text)}
    {parts : List Text}
    {suffix : Text}
    (unmarked : ¬∃ part ∈ underLevels levels parts, Marked part)
    (isSuffix : IsSuffix suffix) :
    unpatchLevels levels (uidText (underLevels levels parts) ++ suffix) =
      .ok (uidText parts ++ suffix) := by
  induction levels generalizing parts with
  | nil => rfl
  | cons prefixes outer inductionHypothesis =>
      have inner : ¬∃ part ∈ prefixes ++ parts, Marked part := by
        intro marked
        exact unmarked ((marked_underLevels outer (prefixes ++ parts)).mpr (Or.inr marked))
      rw [underLevels, unpatchLevels, inductionHypothesis unmarked]
      exact unpatchUid_uidText inner isSuffix

theorem unpatchLevels_marked
    {levels : List (List Text)}
    {parts : List Text}
    (some : levels ≠ [])
    (marked : ∃ part ∈ parts, Marked part)
    (result : Text) :
    unpatchLevels levels (uidText parts) ≠ .ok result := by
  induction levels generalizing result with
  | nil => exact absurd rfl some
  | cons prefixes outer inductionHypothesis =>
      intro unpatched
      obtain ⟨inner, before, unpatched⟩ := PyResult.bind_eq_ok.mp unpatched
      cases outer with
      | nil =>
          obtain rfl := Except.ok.inj before
          refine @unpatchUid_marked prefixes parts marked [] result ?_
          rwa [List.append_nil]
      | cons next others => exact inductionHypothesis (by simp) inner before

/-- Ids come back exactly if no prefix holds the marker. -/
theorem translatesBack_iff
    (levels : List (List Text)) :
    TranslatesBack levels ↔ ¬∃ prefixes ∈ levels, ∃ part ∈ prefixes, Marked part := by
  constructor
  · intro back marked
    obtain ⟨patched, wrote, read⟩ := back [] [] (by simp) (Or.inl rfl)
    obtain rfl := Except.ok.inj ((patchLevels_uidText levels []).symm.trans wrote)
    obtain ⟨prefixes, listed, -⟩ := id marked
    have inId := (marked_underLevels levels []).mpr (Or.inl marked)
    rw [List.append_nil] at read
    exact unpatchLevels_marked (List.ne_nil_of_mem listed) inId _ read
  · intro unmarked parts suffix noPart isSuffix
    refine ⟨_, patchLevels_uidText levels parts, unpatchLevels_uidText ?_ isSuffix⟩
    rw [marked_underLevels]
    rintro (inLevel | inPart)
    · exact unmarked inLevel
    · exact noPart inPart

end TensorPC.Flowui
