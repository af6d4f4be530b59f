import TensorPC.Draft.PathText
import TensorPC.Lib.QuotedText
import TensorPC.Py.IntText

namespace TensorPC.Draft

/-!
# Texts as the identity of paths

Two paths may have one text, since the quotes in keys are not escaped.  A path is the
only one with its text exactly when it has at most one key and the key does not look
like two keys with accesses between them.
-/

open QuotedText (Item Style split_by_property)

/-! ## Accesses as items of a text -/

/-- The accesses that are written without quotes. -/
inductive PlainAccess where
  | field (name : FieldName)
  | item (index : Int)

/-- The text of such an access behind another one. -/
def PlainAccess.text : PlainAccess → List Char
  | field name => '.' :: name.text.toList
  | item index => '[' :: ((toString index).toList ++ [']'])

/-- An access as an item: a key is written between quotes. -/
def Access.toItem : Access → Item PlainAccess Char
  | .field name => .plain (.field name)
  | .item index => .plain (.item index)
  | .key text => .quoted text.toList

/-- The items of a path. -/
def AccessPath.items (path : AccessPath) : List (Item PlainAccess Char) :=
  path.map Access.toItem

theorem FieldName.ext_text
    {name other : FieldName}
    (same : name.text = other.text) :
    name = other := by
  cases name
  cases other
  cases same
  rfl

theorem toItem_injective : Function.Injective Access.toItem := by
  intro access other same
  cases access with
  | field name =>
      cases other with
      | field name' =>
          cases same
          rfl
      | item _ | key _ =>
          cases same
  | item index =>
      cases other with
      | item index' =>
          cases same
          rfl
      | field _ | key _ =>
          cases same
  | key text =>
      cases other with
      | key text' =>
          rw [String.toList_injective (Item.quoted.inj same)]
      | field _ | item _ =>
          cases same

theorem toItem_surjective : Function.Surjective Access.toItem := by
  intro item
  cases item with
  | plain value =>
      cases value with
      | field name =>
          exact ⟨.field name, rfl⟩
      | item index =>
          exact ⟨.item index, rfl⟩
  | quoted content =>
      exact ⟨.key (String.ofList content), by simp [Access.toItem]⟩

/-! ## Texts of integers -/

theorem toList_toString_ofNat (number : Nat) :
    (toString (Int.ofNat number)).toList = Nat.toDigits 10 number := by
  change (Int.repr (Int.ofNat number)).toList = _
  simp [Int.repr]

theorem toList_toString_negSucc (number : Nat) :
    (toString (Int.negSucc number)).toList = '-' :: Nat.toDigits 10 (number + 1) := by
  change (Int.repr (Int.negSucc number)).toList = _
  simp [Int.repr]

theorem letters_of_int
    {index : Int}
    {letter : Char}
    (member : letter ∈ (toString index).toList) :
    letter.isDigit = true ∨ letter = '-' := by
  cases index with
  | ofNat number =>
      rw [toList_toString_ofNat] at member
      exact .inl (Nat.isDigit_of_mem_toDigits (by decide) (by decide) member)
  | negSucc number =>
      rw [toList_toString_negSucc] at member
      rcases List.mem_cons.mp member with minus | digit
      · exact .inr minus
      · exact .inl (Nat.isDigit_of_mem_toDigits (by decide) (by decide) digit)

/-- Integers with one text are the same. -/
theorem int_text_injective
    {index other : Int}
    (same : (toString index).toList = (toString other).toList) :
    index = other := by
  cases index with
  | ofNat number =>
      cases other with
      | ofNat number' =>
          rw [toList_toString_ofNat, toList_toString_ofNat] at same
          rw [toDigits_injective same]
      | negSucc number' =>
          rw [toList_toString_ofNat, toList_toString_negSucc] at same
          refine absurd ?_ (notMem_toDigits (by decide : '-'.isDigit = false) number)
          rw [same]
          exact List.mem_cons_self
  | negSucc number =>
      cases other with
      | ofNat number' =>
          rw [toList_toString_ofNat, toList_toString_negSucc] at same
          refine absurd ?_ (notMem_toDigits (by decide : '-'.isDigit = false) number')
          rw [← same]
          exact List.mem_cons_self
      | negSucc number' =>
          rw [toList_toString_negSucc, toList_toString_negSucc] at same
          have sameSucc := toDigits_injective (List.tail_eq_of_cons_eq same)
          rw [Nat.succ.inj sameSucc]

/-! ## Plain accesses read one way -/

theorem head_plainText
    {values : List PlainAccess}
    {letter : Char}
    (head : letter ∈ (values.flatMap PlainAccess.text).head?) :
    letter = '.' ∨ letter = '[' := by
  cases values with
  | nil =>
      cases head
  | cons value rest =>
      cases value with
      | field name =>
          cases head
          exact .inl rfl
      | item index =>
          cases head
          exact .inr rfl

theorem head_noLetter
    {values : List PlainAccess}
    {letter : Char}
    (head : letter ∈ (values.flatMap PlainAccess.text).head?) :
    ¬ isNameLetter letter = true := by
  rcases head_plainText head with rfl | rfl
  · decide
  · decide

theorem int_letter_ne_bracket
    {index : Int}
    {letter : Char}
    (member : letter ∈ (toString index).toList) :
    letter ≠ ']' := by
  rintro rfl
  rcases letters_of_int member with digit | minus
  · cases digit
  · cases minus

/-- Sequences of plain accesses with one text are the same. -/
theorem plainText_injective :
    ∀ values values' : List PlainAccess,
      values.flatMap PlainAccess.text = values'.flatMap PlainAccess.text →
      values = values' := by
  intro values
  induction values with
  | nil =>
      intro values' same
      cases values' with
      | nil =>
          rfl
      | cons value rest =>
          cases value <;> cases same
  | cons value rest inductionHypothesis =>
      intro values' same
      cases values' with
      | nil =>
          cases value <;> cases same
      | cons value' rest' =>
          cases value with
          | field name =>
              cases value' with
              | item index =>
                  cases (List.cons.inj same).1
              | field name' =>
                  obtain ⟨sameName, sameRest⟩ :=
                    split_by_property (List.tail_eq_of_cons_eq same) name.letters name'.letters
                      (fun letter head => head_noLetter head)
                      (fun letter head => head_noLetter head)
                  rw [FieldName.ext_text (String.toList_injective sameName),
                    inductionHypothesis rest' sameRest]
          | item index =>
              cases value' with
              | field name =>
                  cases (List.cons.inj same).1
              | item index' =>
                  have tails :
                      ((toString index).toList ++ [']']) ++ rest.flatMap PlainAccess.text =
                        ((toString index').toList ++ [']']) ++ rest'.flatMap PlainAccess.text :=
                    List.tail_eq_of_cons_eq same
                  rw [List.append_assoc, List.append_assoc] at tails
                  obtain ⟨sameIndex, sameRest⟩ :=
                    @split_by_property Char (· ≠ ']') _ _ _ _ tails
                      (fun letter => int_letter_ne_bracket) (fun letter => int_letter_ne_bracket)
                      (fun letter head => by cases head; simp)
                      (fun letter head => by cases head; simp)
                  rw [int_text_injective sameIndex,
                    inductionHypothesis rest' (List.tail_eq_of_cons_eq sameRest)]

/-- A letter that is none of names, integers and brackets is not in a plain access. -/
theorem notMem_plainText
    {mark : Char}
    (noLetter : isNameLetter mark = false)
    (noPunctuation : mark ∉ ['.', '[', ']', '-'])
    (value : PlainAccess) :
    mark ∉ value.text := by
  intro member
  cases value with
  | field name =>
      rcases List.mem_cons.mp member with rfl | inside
      · exact noPunctuation (by decide)
      · rw [name.letters mark inside] at noLetter
        cases noLetter
  | item index =>
      rcases List.mem_cons.mp member with rfl | inside
      · exact noPunctuation (by decide)
      · rcases List.mem_append.mp inside with digits | bracket
        · rcases letters_of_int digits with digit | rfl
          · simp [isNameLetter, Char.isAlphanum, digit] at noLetter
          · exact noPunctuation (by decide)
        · obtain rfl := List.mem_singleton.mp bracket
          exact noPunctuation (by decide)

/-! ## The two spellings -/

/-- How a printer writes keys, and the root where no field follows it. -/
structure PathSpelling where
  style : Style PlainAccess Char
  /-- The root is a word of letters, a mark that is no letter, and the rest. -/
  word : List Char
  mark : Char
  rest : List Char
  plain : style.plainText = PlainAccess.text
  word_letters : ∀ letter ∈ word, isNameLetter letter = true
  mark_noLetter : isNameLetter mark = false
  mark_noPunctuation : mark ≠ '.' ∧ mark ≠ '['
  opening_single : style.opening = ['.'] ∨ style.opening = ['[']
  quote_noLetter : isNameLetter style.quote = false

/-- Keys as `."key"`, and the root as `$`. -/
def jmesSpelling : PathSpelling where
  style := {
    plainText := PlainAccess.text
    opening := ['.']
    closing := []
    quote := '"'
    plain_unquoted := notMem_plainText (by decide) (by decide)
    opening_unquoted := by decide
    closing_unquoted := by decide
    plain_injective := plainText_injective }
  word := []
  mark := '$'
  rest := []
  plain := rfl
  word_letters := by simp
  mark_noLetter := by decide
  mark_noPunctuation := by decide
  opening_single := by decide
  quote_noLetter := by decide

/-- Keys as `['key']`, and the root as `getRoot()`. -/
def pflSpelling : PathSpelling where
  style := {
    plainText := PlainAccess.text
    opening := ['[']
    closing := [']']
    quote := '\''
    plain_unquoted := notMem_plainText (by decide) (by decide)
    opening_unquoted := by decide
    closing_unquoted := by decide
    plain_injective := plainText_injective }
  word := "getRoot".toList
  mark := '('
  rest := [')']
  plain := rfl
  word_letters := List.all_eq_true.mp (by decide)
  mark_noLetter := by decide
  mark_noPunctuation := by decide
  opening_single := by decide
  quote_noLetter := by decide

namespace PathSpelling

variable (spelling : PathSpelling)

/-- The text of the root. -/
def root : List Char :=
  spelling.word ++ spelling.mark :: spelling.rest

/-- The text of a path: a first field is written without the root. -/
def pathText : AccessPath → List Char
  | [] => spelling.root
  | .field name :: rest => name.text.toList ++ spelling.style.text (AccessPath.items rest)
  | access :: rest => spelling.root ++ spelling.style.text (AccessPath.items (access :: rest))

variable {spelling}

theorem text_cons
    (access : Access)
    (rest : AccessPath) :
    spelling.style.text (AccessPath.items (access :: rest)) =
      spelling.style.itemText access.toItem ++
        spelling.style.text (AccessPath.items rest) :=
  rfl

theorem itemText_field (name : FieldName) :
    spelling.style.itemText (Access.field name).toItem = '.' :: name.text.toList := by
  change spelling.style.plainText (.field name) = _
  rw [spelling.plain]
  rfl

theorem itemText_item (index : Int) :
    spelling.style.itemText (Access.item index).toItem =
      '[' :: ((toString index).toList ++ [']']) := by
  change spelling.style.plainText (.item index) = _
  rw [spelling.plain]
  rfl

/-- What follows an access begins with a dot or a bracket. -/
theorem head_text
    {path : AccessPath}
    {letter : Char}
    (head : letter ∈ (spelling.style.text path.items).head?) :
    letter = '.' ∨ letter = '[' := by
  cases path with
  | nil =>
      cases head
  | cons access rest =>
      rw [text_cons] at head
      cases access with
      | field name =>
          rw [itemText_field] at head
          cases head
          exact .inl rfl
      | item index =>
          rw [itemText_item] at head
          cases head
          exact .inr rfl
      | key text =>
          rcases spelling.opening_single with opens | opens
          · simp only [Access.toItem, Style.itemText, opens] at head
            cases head
            exact .inl rfl
          · simp only [Access.toItem, Style.itemText, opens] at head
            cases head
            exact .inr rfl

/-- A path that begins with a field is not written like one that begins with the root. -/
theorem field_ne_root
    {name : FieldName}
    {path : AccessPath}
    {after : List Char} :
    name.text.toList ++ spelling.style.text path.items ≠ spelling.root ++ after := by
  intro same
  rw [root, List.append_assoc] at same
  obtain ⟨-, sameRest⟩ :=
    split_by_property same name.letters spelling.word_letters
      (fun letter head => by
        rcases head_text head with rfl | rfl
        · decide
        · decide)
      (fun letter head => by
        cases head
        rw [spelling.mark_noLetter]
        exact Bool.false_ne_true)
  have head : spelling.mark ∈ (spelling.style.text path.items).head? := by
    rw [sameRest]
    rfl
  rcases head_text head with dot | bracket
  · exact spelling.mark_noPunctuation.1 dot
  · exact spelling.mark_noPunctuation.2 bracket

theorem itemText_ne_nil (access : Access) :
    spelling.style.itemText access.toItem ≠ [] := by
  cases access with
  | field name =>
      rw [itemText_field]
      exact List.cons_ne_nil _ _
  | item index =>
      rw [itemText_item]
      exact List.cons_ne_nil _ _
  | key text =>
      simp [Access.toItem, Style.itemText]

theorem pathText_cons_cases
    (access : Access)
    (rest : AccessPath) :
    (∃ name,
      access = .field name ∧
        spelling.pathText (access :: rest) =
          name.text.toList ++ spelling.style.text (AccessPath.items rest)) ∨
      (∀ name, access ≠ .field name) ∧
        spelling.pathText (access :: rest) =
          spelling.root ++ spelling.style.text (AccessPath.items (access :: rest)) := by
  cases access with
  | field name =>
      exact .inl ⟨name, rfl, rfl⟩
  | item index =>
      exact .inr ⟨nofun, rfl⟩
  | key text =>
      exact .inr ⟨nofun, rfl⟩

theorem pathText_eq_root_iff
    {path : AccessPath} :
    spelling.pathText path = spelling.root ↔ path = [] := by
  constructor
  · intro same
    cases path with
    | nil =>
        rfl
    | cons access rest =>
        rcases @pathText_cons_cases spelling access rest with ⟨name, -, text⟩ | ⟨-, text⟩
        · rw [text] at same
          exact absurd (same.trans (List.append_nil _).symm) field_ne_root
        · rw [text, text_cons] at same
          have empty :=
            List.append_eq_nil_iff.mp
              (List.append_cancel_left (same.trans (List.append_nil _).symm))
          exact absurd empty.1 (itemText_ne_nil access)
  · rintro rfl
    rfl

theorem pathText_ne_nil (path : AccessPath) :
    spelling.pathText path ≠ [] := by
  cases path with
  | nil =>
      simp [pathText, root]
  | cons access rest =>
      rcases @pathText_cons_cases spelling access rest with ⟨name, -, text⟩ | ⟨-, text⟩
      · rw [text]
        simp [name.nonempty]
      · rw [text]
        simp [root]

/-- One more access: a field of the root is written without the root. -/
theorem pathText_concat
    (path : AccessPath)
    (access : Access) :
    spelling.pathText (path ++ [access]) =
      match path, access with
      | [], .field name => name.text.toList
      | path, access => spelling.pathText path ++ spelling.style.itemText access.toItem := by
  cases path with
  | nil =>
      cases access with
      | field name =>
          simp [pathText, AccessPath.items, Style.text]
      | item index =>
          simp [pathText, AccessPath.items, Style.text]
      | key text =>
          simp [pathText, AccessPath.items, Style.text]
  | cons first rest =>
      have items :
          AccessPath.items (rest ++ [access]) = AccessPath.items rest ++ [access.toItem] := by
        simp [AccessPath.items]
      cases first with
      | field name =>
          simp [pathText, items, Style.text]
      | item index | key text =>
          simp [pathText, AccessPath.items, Style.text]

/-- A field is not written like another access. -/
theorem field_text_ne
    {name : FieldName}
    {access : Access}
    {rest rest' : AccessPath}
    (noField : ∀ other, access ≠ .field other) :
    spelling.style.text (AccessPath.items (.field name :: rest)) ≠
      spelling.style.text (AccessPath.items (access :: rest')) := by
  intro same
  rw [text_cons, text_cons, itemText_field] at same
  obtain ⟨first, others, letters⟩ := List.exists_cons_of_ne_nil name.nonempty
  have firstLetter := name.letters first (by rw [letters]; exact List.mem_cons_self)
  rw [letters] at same
  cases access with
  | field other =>
      exact noField other rfl
  | item index =>
      rw [itemText_item] at same
      cases (List.cons.inj same).1
  | key text =>
      rcases spelling.opening_single with opens | opens
      · simp only [Access.toItem, Style.itemText, opens] at same
        obtain ⟨quoted, -⟩ := List.cons.inj (List.tail_eq_of_cons_eq same)
        rw [quoted, spelling.quote_noLetter] at firstLetter
        cases firstLetter
      · simp only [Access.toItem, Style.itemText, opens] at same
        cases (List.cons.inj same).1

/-- Two paths have one text exactly when their accesses do. -/
theorem pathText_eq_iff
    {path other : AccessPath} :
    spelling.pathText path = spelling.pathText other ↔
      spelling.style.text path.items = spelling.style.text other.items := by
  cases path with
  | nil =>
      have rooted : spelling.pathText [] = spelling.root := rfl
      rw [rooted, eq_comm, pathText_eq_root_iff]
      cases other with
      | nil =>
          simp
      | cons access rest =>
          rw [text_cons]
          simp only [reduceCtorEq, false_iff]
          intro same
          exact itemText_ne_nil access (List.append_eq_nil_iff.mp same.symm).1
  | cons access rest =>
      cases other with
      | nil =>
          have rooted : spelling.pathText [] = spelling.root := rfl
          rw [rooted, pathText_eq_root_iff, text_cons]
          simp only [reduceCtorEq, false_iff]
          intro same
          exact itemText_ne_nil access (List.append_eq_nil_iff.mp same).1
      | cons access' rest' =>
          rcases @pathText_cons_cases spelling access rest with
            ⟨name, rfl, text⟩ | ⟨noField, text⟩
          · rcases @pathText_cons_cases spelling access' rest' with
              ⟨name', rfl, text'⟩ | ⟨noField', text'⟩
            · rw [text, text', text_cons, text_cons, itemText_field, itemText_field]
              simp
            · rw [text, text']
              exact iff_of_false field_ne_root (field_text_ne noField')
          · rcases @pathText_cons_cases spelling access' rest' with
              ⟨name', rfl, text'⟩ | ⟨noField', text'⟩
            · rw [text, text']
              exact iff_of_false (fun same => field_ne_root same.symm)
                (fun same => field_text_ne noField same.symm)
            · rw [text, text', List.append_right_inj]

end PathSpelling

end TensorPC.Draft
