import Mathlib.Data.List.Induction
import TensorPC.Draft.PathIdentity
import TensorPC.Py.Json

namespace TensorPC.Draft

/-!
# Texts and locations of paths

The drafts of a data model and its change handlers take two paths with one text for the
same path.  That is right when the text names one location of every JSON document.
-/

open QuotedText (Item Style)

variable {F : Type}

/-! ## What the printers write -/

section Printers

variable [LiteralTexts F]

omit [LiteralTexts F] in
theorem node_concat
    (path : AccessPath)
    (access : Access) :
    AccessPath.node (F := F) (path ++ [access]) = access.node path.node := by
  simp [AccessPath.node]

theorem ok_text_eq
    {text : String}
    {letters : List Char}
    (same : text.toList = letters) :
    (.ok text : PyResult String) = .ok (String.ofList letters) := by
  rw [← same, String.ofList_toList]

theorem rooted_iff
    {spelling : PathSpelling}
    {root : String}
    (rootText : root.toList = spelling.root)
    (path : AccessPath) :
    (String.ofList (spelling.pathText path) = "" ∨
      String.ofList (spelling.pathText path) = root) ↔ path = [] := by
  have nonempty : String.ofList (spelling.pathText path) ≠ "" := by
    intro empty
    refine @PathSpelling.pathText_ne_nil spelling path ?_
    simpa using congrArg String.toList empty
  have same : String.ofList (spelling.pathText path) = root ↔ path = [] := by
    rw [← @PathSpelling.pathText_eq_root_iff spelling path, ← String.toList_inj,
      String.toList_ofList, rootText]
  rw [same]
  exact or_iff_right nonempty

/-- What a printer writes for one more field. -/
theorem printed_field
    {spelling : PathSpelling}
    {root : String}
    (rootText : root.toList = spelling.root)
    (path : AccessPath)
    (name : FieldName) :
    (if
        String.ofList (spelling.pathText path) = "" ∨
          String.ofList (spelling.pathText path) = root then
      (.ok name.text : PyResult String)
    else
      .ok (String.ofList (spelling.pathText path) ++ "." ++ name.text)) =
      .ok (String.ofList (spelling.pathText (path ++ [.field name]))) := by
  rw [PathSpelling.pathText_concat]
  simp only [rooted_iff rootText]
  cases path with
  | nil =>
      simp
  | cons first rest =>
      simp only [reduceCtorEq, if_false, PathSpelling.itemText_field]
      exact ok_text_eq (by simp)

theorem printed_other
    {spelling : PathSpelling}
    {path : AccessPath}
    {access : Access}
    {text : String}
    (noField : ∀ name, access ≠ .field name)
    (separated :
      text.toList = spelling.pathText path ++ spelling.style.itemText access.toItem) :
    (.ok text : PyResult String) =
      .ok (String.ofList (spelling.pathText (path ++ [access]))) := by
  rw [PathSpelling.pathText_concat]
  cases access with
  | field name =>
      exact absurd rfl (noField name)
  | item _ | key _ =>
      cases path <;> exact ok_text_eq separated

/-- A path in JMESPath. -/
theorem draftAstToJmesPath_node
    (path : AccessPath) :
    draftAstToJmesPath (F := F) path.node =
      .ok (String.ofList (jmesSpelling.pathText path)) := by
  induction path using List.reverseRecOn with
  | nil =>
      rfl
  | append_singleton path access inductionHypothesis =>
      rw [node_concat]
      cases access with
      | field name =>
          simp only [Access.node, draftAstToJmesPath, inductionHypothesis, bind, Except.bind]
          exact printed_field rfl path name
      | item index =>
          simp only [Access.node, draftAstToJmesPath, inductionHypothesis, bind, Except.bind]
          refine printed_other nofun ?_
          rw [PathSpelling.itemText_item]
          simp [keyText]
      | key text =>
          simp only [Access.node, draftAstToJmesPath, inductionHypothesis, bind, Except.bind]
          refine printed_other nofun ?_
          simp [keyText, Access.toItem, Style.itemText, jmesSpelling]

/-- A path in the frontend language. -/
theorem draftAstToPflPath_node
    (path : AccessPath) :
    draftAstToPflPath (F := F) path.node =
      .ok (String.ofList (pflSpelling.pathText path)) := by
  induction path using List.reverseRecOn with
  | nil =>
      exact ok_text_eq (by decide)
  | append_singleton path access inductionHypothesis =>
      rw [node_concat]
      cases access with
      | field name =>
          simp only [Access.node, draftAstToPflPath, inductionHypothesis, bind, Except.bind]
          exact printed_field (by decide) path name
      | item index =>
          simp only [Access.node, draftAstToPflPath, inductionHypothesis, bind, Except.bind]
          refine printed_other nofun ?_
          rw [PathSpelling.itemText_item]
          simp [keyText]
      | key text =>
          simp only [Access.node, draftAstToPflPath, inductionHypothesis, bind, Except.bind]
          refine printed_other nofun ?_
          simp [Access.toItem, Style.itemText, pflSpelling]

theorem getJmesPath_node
    (path : AccessPath) :
    (path.node : DraftASTNode F).getJmesPath =
      .ok (String.ofList (jmesSpelling.pathText path)) := by
  rw [← @draftAstToJmesPath_node F _ path]
  cases path.node (F := F) with
  | name value =>
      simp [DraftASTNode.getJmesPath, draftAstToJmesPath]
  | _ =>
      rfl

theorem getPflPath_node
    (path : AccessPath) :
    (path.node : DraftASTNode F).getPflPath =
      .ok (String.ofList (pflSpelling.pathText path)) := by
  have nonempty : String.ofList (pflSpelling.pathText path) ≠ "" := by
    intro empty
    refine @PathSpelling.pathText_ne_nil pflSpelling path ?_
    simpa using congrArg String.toList empty
  simp only [DraftASTNode.getPflPath, draftAstToPflPath_node, bind, Except.bind, nonempty,
    if_false]

end Printers

/-! ## Locations -/

/-- JSON values: keys are strings, and there are no tuples or objects. -/
def isJsonDocument : Value F → Bool
  | .none | .bool _ | .int _ | .float _ | .str _ => true
  | .list items => isJsonDocumentList items
  | .dict entries => isJsonDocumentDict entries
  | .tuple _ | .obj _ _ _ => false
where
  /-- All items of a list are JSON values. -/
  isJsonDocumentList : List (Value F) → Bool
    | [] => true
    | item :: rest => isJsonDocument item && isJsonDocumentList rest
  /-- All keys of a dictionary are strings, and its values JSON values. -/
  isJsonDocumentDict : List (Key F × Value F) → Bool
    | [] => true
    | (.str _, value) :: rest => isJsonDocument value && isJsonDocumentDict rest
    | _ => false

/-- What subscripts a JSON value for an access: fields are stored under their names. -/
def Access.subscript : Access → Value F
  | .field name => .str name.text
  | .item index => .int index
  | .key text => .str text

section Locations

variable [PyBuiltins F]

theorem evaluateDraftAstJson_node
    (document : Value F)
    (path : AccessPath)
    (start : DraftASTNode F) :
    evaluateDraftAstJson document (path.foldl Access.node start) =
      (evaluateDraftAstJson document start >>= fun value =>
        path.foldlM (fun value access => value.getItem access.subscript) value) := by
  induction path generalizing start with
  | nil =>
      exact (bind_pure _).symm
  | cons access rest inductionHypothesis =>
      rw [List.foldl_cons, inductionHypothesis]
      have first :
          evaluateDraftAstJson document (access.node start) =
            (evaluateDraftAstJson document start >>= fun value =>
              value.getItem access.subscript) := by
        cases access <;> rfl
      rw [first, bind_assoc]
      rfl

/-- The value that a path selects in a document. -/
def AccessPath.select
    (path : AccessPath)
    (document : Value F) :
    PyResult (Value F) :=
  path.foldlM (fun value access => value.getItem access.subscript) document

theorem evaluateDraftAstJson_path
    (document : Value F)
    (path : AccessPath) :
    evaluateDraftAstJson document path.node = path.select document :=
  evaluateDraftAstJson_node document path (.name "")

/-- A document in which a path, and what follows it, leads to a text. -/
def documentOf : AccessPath → Value F
  | [] => .str "here"
  | .field name :: rest => .dict [(.str name.text, documentOf rest)]
  | .key text :: rest => .dict [(.str text, documentOf rest)]
  | .item (.ofNat number) :: rest =>
      .list (List.replicate number .none ++ [documentOf rest])
  | .item (.negSucc number) :: rest =>
      .list (documentOf rest :: List.replicate number .none)

omit [PyBuiltins F] in
theorem isJsonDocumentList_iff
    {items : List (Value F)} :
    isJsonDocument.isJsonDocumentList items = true ↔
      ∀ item ∈ items, isJsonDocument item = true := by
  induction items with
  | nil =>
      simp [isJsonDocument.isJsonDocumentList]
  | cons item rest inductionHypothesis =>
      simp [isJsonDocument.isJsonDocumentList, inductionHypothesis]

omit [PyBuiltins F] in
theorem isJsonDocument_documentOf (path : AccessPath) :
    isJsonDocument (documentOf path : Value F) = true := by
  induction path with
  | nil =>
      rfl
  | cons access rest inductionHypothesis =>
      cases access with
      | field _ | key _ =>
          simp [documentOf, isJsonDocument, isJsonDocument.isJsonDocumentDict,
            inductionHypothesis]
      | item index =>
          cases index with
          | ofNat number =>
              simp only [documentOf, isJsonDocument, isJsonDocumentList_iff, List.mem_append,
                List.mem_replicate, List.mem_singleton]
              rintro item (⟨-, rfl⟩ | rfl)
              · rfl
              · exact inductionHypothesis
          | negSucc number =>
              simp only [documentOf, isJsonDocument, isJsonDocumentList_iff, List.mem_cons,
                List.mem_replicate]
              rintro item (rfl | ⟨-, rfl⟩)
              · exact inductionHypothesis
              · rfl

theorem getItem_single
    (text other : String)
    (value : Value F) :
    (Value.dict [(.str text, value)]).getItem (.str other) =
      if text = other then .ok value else .error (.keyError "") := by
  by_cases same : text = other
  · simp [Value.getItem, Value.toKey, lookupKey, Key.pyEq, Key.asNumber, Key.toValue,
      Value.asNumber, same, bind, Except.bind]
  · simp [Value.getItem, Value.toKey, lookupKey, Key.pyEq, Key.asNumber, Key.toValue,
      Value.asNumber, same, bind, Except.bind]

theorem itemAt_last
    {α : Type}
    (items : List α)
    (item : α) :
    itemAt (items ++ [item]) (Int.ofNat items.length) = .ok item := by
  have place : position (items ++ [item]).length (Int.ofNat items.length) = .ok items.length := by
    have natural : ¬ Int.ofNat items.length < 0 := Int.not_lt.mpr (Int.natCast_nonneg _)
    simp only [position, natural, if_false]
    refine if_pos ⟨Int.not_lt.mp natural, ?_⟩
    rw [List.length_append]
    exact Int.ofNat_lt.mpr (Nat.lt_succ_self _)
  simp only [itemAt, place, bind, Except.bind]
  simp

theorem itemAt_first
    {α : Type}
    (item : α)
    (rest : List α) :
    itemAt (item :: rest) (Int.negSucc rest.length) = .ok item := by
  have place : position (item :: rest).length (Int.negSucc rest.length) = .ok 0 := by
    have shifted : Int.negSucc rest.length + ((rest.length + 1 : Nat) : Int) = 0 := by
      omega
    simp only [position, List.length_cons, Int.negSucc_lt_zero, if_true, shifted]
    rw [if_pos ⟨Int.le_refl 0, by omega⟩]
    rfl
  simp only [itemAt, place, bind, Except.bind]
  simp

theorem getItem_documentOf
    (access : Access)
    (rest : AccessPath) :
    (documentOf (access :: rest) : Value F).getItem access.subscript = .ok (documentOf rest) := by
  cases access with
  | field name =>
      simp [documentOf, Access.subscript, getItem_single]
  | key text =>
      simp [documentOf, Access.subscript, getItem_single]
  | item index =>
      cases index with
      | ofNat number =>
          have last := @itemAt_last (Value F) (List.replicate number .none) (documentOf rest)
          rw [List.length_replicate] at last
          exact last
      | negSucc number =>
          have first := @itemAt_first (Value F) (documentOf rest) (List.replicate number .none)
          rw [List.length_replicate] at first
          exact first

theorem select_append_documentOf
    (path rest other : AccessPath) :
    AccessPath.select (path ++ other) (documentOf (path ++ rest) : Value F) =
      AccessPath.select other (documentOf rest) := by
  induction path with
  | nil =>
      rfl
  | cons access others inductionHypothesis =>
      simp only [AccessPath.select, List.cons_append, List.foldlM_cons, getItem_documentOf, bind,
        Except.bind]
      exact inductionHypothesis

theorem select_documentOf (path : AccessPath) :
    path.select (documentOf path : Value F) = .ok (.str "here") := by
  have selected := @select_append_documentOf F _ path [] []
  rw [List.append_nil] at selected
  exact selected

theorem select_other_key
    {before after rest : AccessPath}
    {text other : String}
    (different : text ≠ other) :
    AccessPath.select (before ++ .key other :: after)
        (documentOf (before ++ .key text :: rest) : Value F) =
      .error (.keyError "") := by
  rw [select_append_documentOf]
  simp only [AccessPath.select, List.foldlM_cons, documentOf, Access.subscript, getItem_single,
    different, if_false, bind, Except.bind]

end Locations

/-! ## Texts that identify a location -/

section Identity

variable (F) [PyBuiltins F]

/-- Two paths select the same in every JSON document. -/
def SameLocation (path other : AccessPath) : Prop :=
  ∀ document : Value F,
    isJsonDocument document = true →
      evaluateDraftAstJson document path.node = evaluateDraftAstJson document other.node

variable [LiteralTexts F]

/-- Every path with one of the texts of a path selects the same location. -/
def IsIdentifiedByText (path : AccessPath) : Prop :=
  ∀ other : AccessPath,
    ((path.node : DraftASTNode F).getJmesPath = (other.node : DraftASTNode F).getJmesPath →
      SameLocation F path other) ∧
    ((path.node : DraftASTNode F).getPflPath = (other.node : DraftASTNode F).getPflPath →
      SameLocation F path other)

/-- At most one key, which looks like two keys in neither text. -/
def ReadsOneWay (path : AccessPath) : Prop :=
  jmesSpelling.style.ReadsOneWay path.items ∧ pflSpelling.style.ReadsOneWay path.items

variable {F}

theorem items_injective : Function.Injective AccessPath.items :=
  toItem_injective.list_map

theorem items_surjective : Function.Surjective AccessPath.items :=
  toItem_surjective.list_map

omit [LiteralTexts F] in
/-- Merged keys are at another location. -/
theorem not_sameLocation_of_merges
    {style : Style PlainAccess Char}
    {path other : AccessPath}
    (merges : @Style.Merges _ _ style path.items other.items) :
    ¬ SameLocation F path other ∧ ¬ SameLocation F other path := by
  obtain ⟨before, first, between, second, after, split, merged⟩ := merges
  obtain ⟨start, rfl⟩ := items_surjective before
  obtain ⟨rest, restItems⟩ :=
    items_surjective (between.map Item.plain ++ .quoted second :: after)
  obtain ⟨rest', rfl⟩ := items_surjective after
  have pathEq : path = start ++ .key (String.ofList first) :: rest := by
    apply items_injective
    rw [split, ← restItems]
    simp [AccessPath.items, Access.toItem]
  obtain ⟨content, contentEq⟩ :
      ∃ content, content =
        first ++ style.quote ::
          (style.closing ++ between.flatMap style.plainText ++ style.opening ++
            style.quote :: second) := ⟨_, rfl⟩
  have otherEq : other = start ++ .key (String.ofList content) :: rest' := by
    apply items_injective
    rw [merged, ← contentEq]
    simp [AccessPath.items, Access.toItem]
  have different : String.ofList first ≠ String.ofList content := by
    intro same
    have letters : first = content := by
      simpa using congrArg String.toList same
    have lengths := congrArg List.length (letters.trans contentEq)
    simp only [List.length_append, List.length_cons] at lengths
    omega
  subst pathEq otherEq
  constructor
  · intro same
    have equal := same (documentOf (start ++ .key (String.ofList first) :: rest))
      (isJsonDocument_documentOf _)
    rw [evaluateDraftAstJson_path, evaluateDraftAstJson_path, select_documentOf,
      select_other_key different] at equal
    cases equal
  · intro same
    have equal := same (documentOf (start ++ .key (String.ofList content) :: rest'))
      (isJsonDocument_documentOf _)
    rw [evaluateDraftAstJson_path, evaluateDraftAstJson_path, select_documentOf,
      select_other_key different.symm] at equal
    cases equal

omit [LiteralTexts F] in
theorem exists_collision
    {spelling : PathSpelling}
    {path : AccessPath}
    (ambiguous : ¬ spelling.style.ReadsOneWay path.items) :
    ∃ other, spelling.pathText path = spelling.pathText other ∧ ¬ SameLocation F path other := by
  obtain ⟨others, merges⟩ := Style.exists_merges_of_not_readsOneWay ambiguous
  obtain ⟨other, rfl⟩ := items_surjective others
  refine ⟨other, ?_, ?_⟩
  · rw [PathSpelling.pathText_eq_iff]
    rcases merges with merges | merges
    · exact merges.text_eq
    · exact merges.text_eq.symm
  · rcases merges with merges | merges
    · exact (not_sameLocation_of_merges merges).1
    · exact (not_sameLocation_of_merges merges).2

theorem text_eq_iff
    {letters others : List Char} :
    (.ok (String.ofList letters) : PyResult String) = .ok (String.ofList others) ↔
      letters = others := by
  rw [Except.ok.injEq, ← String.toList_inj, String.toList_ofList, String.toList_ofList]

/--
A path is identified by its texts exactly when it has at most one key and the key does
not look like two.
-/
theorem isIdentifiedByText_iff
    (F : Type)
    [PyBuiltins F]
    [LiteralTexts F]
    (path : AccessPath) :
    IsIdentifiedByText F path ↔ ReadsOneWay path := by
  constructor
  · intro identified
    constructor
    · by_contra ambiguous
      obtain ⟨other, sameText, different⟩ := @exists_collision F _ _ _ ambiguous
      refine different ((identified other).1 ?_)
      rw [getJmesPath_node, getJmesPath_node, sameText]
    · by_contra ambiguous
      obtain ⟨other, sameText, different⟩ := @exists_collision F _ _ _ ambiguous
      refine different ((identified other).2 ?_)
      rw [getPflPath_node, getPflPath_node, sameText]
  · intro oneWay other
    have sameOf : ∀ spelling : PathSpelling,
        spelling.style.ReadsOneWay path.items →
        spelling.pathText path = spelling.pathText other →
        SameLocation F path other := by
      intro spelling reads sameText
      have sameItems :=
        Style.eq_of_text_eq reads (PathSpelling.pathText_eq_iff.mp sameText)
      rw [items_injective sameItems]
      exact fun _ _ => rfl
    constructor
    · intro same
      rw [getJmesPath_node, getJmesPath_node] at same
      exact sameOf _ oneWay.1 (text_eq_iff.mp same)
    · intro same
      rw [getPflPath_node, getPflPath_node] at same
      exact sameOf _ oneWay.2 (text_eq_iff.mp same)

end Identity

/-! ## A key that looks like two -/

/-- Literals of which a test needs `None` and whole floats. -/
instance : LiteralTexts WholeFloat where
  floatText value := toString value.value ++ ".0"
  jsonDumps _ := "null"
  normalizedText _ := "None"

/-- `root["a"]["b"]`. -/
def twoKeys : AccessPath :=
  [.key "a", .key "b"]

/-- `root['a"."b']`. -/
def jmesMergedKey : AccessPath :=
  [.key "a\".\"b"]

/-- `root["a']['b"]`. -/
def pflMergedKey : AccessPath :=
  [.key "a']['b"]

theorem not_sameLocation_twoKeys
    {text : String}
    (different : "a" ≠ text) :
    ¬ SameLocation WholeFloat twoKeys [.key text] := by
  intro same
  have equal := same (documentOf twoKeys) (isJsonDocument_documentOf _)
  have other :
      AccessPath.select [.key text] (documentOf twoKeys : Value WholeFloat) =
        .error (.keyError "") :=
    @select_other_key WholeFloat _ [] [] [.key "b"] "a" text different
  rw [evaluateDraftAstJson_path, evaluateDraftAstJson_path, select_documentOf, other] at equal
  cases equal

/-- Both texts of a path with two keys are texts of paths with one key. -/
theorem not_isIdentifiedByText :
    ((twoKeys.node : DraftASTNode WholeFloat).getJmesPath =
        (jmesMergedKey.node : DraftASTNode WholeFloat).getJmesPath ∧
      ¬ SameLocation WholeFloat twoKeys jmesMergedKey) ∧
      ((twoKeys.node : DraftASTNode WholeFloat).getPflPath =
          (pflMergedKey.node : DraftASTNode WholeFloat).getPflPath ∧
        ¬ SameLocation WholeFloat twoKeys pflMergedKey) := by
  refine ⟨⟨?_, not_sameLocation_twoKeys (by decide)⟩,
    ⟨?_, not_sameLocation_twoKeys (by decide)⟩⟩
  · rw [getJmesPath_node, getJmesPath_node]
    exact text_eq_iff.mpr (by decide)
  · rw [getPflPath_node, getPflPath_node]
    exact text_eq_iff.mpr (by decide)

end TensorPC.Draft
