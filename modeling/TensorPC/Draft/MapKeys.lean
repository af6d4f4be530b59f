import TensorPC.Draft.StoreBackends
import TensorPC.Py.Base64
import Mathlib.Algebra.Order.BigOperators.Group.Finset

namespace TensorPC.Draft

/-!
# Map fields that are stored in a folder

Every value of a `DraftStoreMapMeta` field is written under a path that its key is
encoded in, and the keys are decoded from the names in the folder.  The keys survive
exactly when each encoded key is a name that the path keeps.
-/

variable {F : Type}

/-! ## Encoding keys -/

/-- `DraftStoreMapMeta`. -/
structure DraftStoreMapMeta where
  base64Key : Bool

/-- `text.encode()`. -/
def utf8Bytes (text : String) : List UInt8 :=
  text.toUTF8.data.toList

/-- `bytes.decode()`. -/
def utf8Text (bytes : List UInt8) : PyResult String :=
  match String.fromUTF8? ⟨bytes.toArray⟩ with
  | some text => .ok text
  | none => .error (.valueError "'utf-8' codec can't decode bytes")

theorem utf8Text_utf8Bytes (text : String) :
    utf8Text (utf8Bytes text) = .ok text := by
  have found : String.fromUTF8? text.toUTF8 = some text :=
    dif_pos text.isValidUTF8
  unfold utf8Text utf8Bytes
  rw [Array.toArray_toList]
  change (match String.fromUTF8? text.toUTF8 with
    | some text => (.ok text : PyResult String)
    | none => .error (.valueError "'utf-8' codec can't decode bytes")) = _
  rw [found]

theorem utf8Bytes_of_utf8Text
    {bytes : List UInt8}
    {text : String}
    (decoded : utf8Text bytes = .ok text) :
    utf8Bytes text = bytes := by
  unfold utf8Text at decoded
  split at decoded
  · rename_i found
    cases decoded
    unfold String.fromUTF8? at found
    split at found
    · cases found
      rfl
    · cases found
  · cases decoded

namespace DraftStoreMapMeta

variable (storeMeta : DraftStoreMapMeta)

/-- `encode_key`. -/
def encodeKey (key : String) : String :=
  if storeMeta.base64Key then
    String.ofList (Base64.encode (utf8Bytes key))
  else
    key

/-- `decode_key`. -/
def decodeKey (key : String) : PyResult String :=
  if storeMeta.base64Key then do
    let bytes ← Base64.decode key.toList
    utf8Text bytes
  else
    .ok key

theorem decodeKey_encodeKey (key : String) :
    storeMeta.decodeKey (storeMeta.encodeKey key) = .ok key := by
  unfold decodeKey encodeKey
  split
  · rw [String.toList_ofList, Base64.decode_encode]
    exact utf8Text_utf8Bytes key
  · rfl

/-- The length of a key, in bytes where it is encoded by its bytes. -/
def weight (key : String) : Nat :=
  if storeMeta.base64Key then
    (utf8Bytes key).length
  else
    key.toList.length

end DraftStoreMapMeta

/-! ## Writing and listing a field -/

/-- The folder of a field, `Path(root, field)`. -/
def globPathAll (root field : String) : PurePath :=
  (PurePath.ofString root).join (PurePath.ofString field)

variable (storeMeta : DraftStoreMapMeta) (folder : PurePath)

/-- `Path(root, field, encode_key(key))`. -/
def childPath (key : String) : PurePath :=
  folder.join (PurePath.ofString (storeMeta.encodeKey key))

section Field

variable [PyJson F]

/-- Every value of a field is written under its key. -/
def writeMap :
    List (String × Value F) →
    EStateM PyError (Dict String (Value F)) Unit
  | [] => pure ()
  | (key, value) :: rest => do
      InMemory.write (childPath storeMeta folder key).toText value
      writeMap rest

/-- The key and the value of a listed path. -/
def fetchChild (child : String × Value F) : PyResult (String × Value F) := do
  let key ← storeMeta.decodeKey (String.ofList (PurePath.ofString child.1).stem)
  return (key, child.2)

/-- The map branch of `_fetch_model_recursive`. -/
def fetchMap (data : Dict String (Value F)) : PyResult (Dict String (Value F)) := do
  let realData ← InMemory.readAllChilds data folder.toText
  let entries ← realData.entries.mapM (fetchChild storeMeta)
  return Dict.ofList entries

/-- What is listed after writing a field is the field. -/
def KeysSurvive (entries data : Dict String (Value F)) : Prop :=
  ∃ stored listed,
    writeMap storeMeta folder entries.entries data = .ok () stored ∧
      fetchMap storeMeta folder stored = .ok listed ∧
      ∀ key, listed.get? key = entries.get? key

end Field

/-- No stored path lies in a folder. -/
def HasNoChildren (data : Dict String (Value F)) : Prop :=
  ∀ path ∈ data.keys, (PurePath.ofString path).parent ≠ folder

/--
A name that a path keeps as its last part, and whose last dot neither follows nor
precedes a text.  The empty name stands for the folder, which is its own parent when
it has no parts.
-/
def IsFileName (text : List Char) : Prop :=
  '/' ∉ text ∧
    if text = [] then
      folder.parts = []
    else
      text ≠ ['.'] ∧ withoutSuffix text = text

instance (text : List Char) : Decidable (IsFileName folder text) :=
  inferInstanceAs
    (Decidable
      ('/' ∉ text ∧
        if text = [] then
          folder.parts = []
        else
          text ≠ ['.'] ∧ withoutSuffix text = text))

/-! ## The names in a folder -/

section Names

variable {folder : PurePath} {text : String}

theorem parts_eq_nil_of_parent
    (ownParent : folder.parent = folder) :
    folder.parts = [] := by
  have same : folder.parts.dropLast = folder.parts :=
    congrArg PurePath.parts ownParent
  have length := congrArg List.length same
  rw [List.length_dropLast] at length
  exact List.eq_nil_of_length_eq_zero (by omega)

theorem ofString_of_notMem
    (noSlash : '/' ∉ text.toList) :
    PurePath.ofString text =
      ⟨false,
        [text.toList].filter fun part => part != [] && part != ['.']⟩ := by
  have relative : (text.toList.head? == some '/') = false := by
    cases chars : text.toList with
    | nil =>
        rfl
    | cons char rest =>
        rw [chars] at noSlash
        have different : char ≠ '/' := fun same =>
          noSlash (List.mem_cons.mpr (.inl same.symm))
        simp [different]
  simp only [PurePath.ofString, relative, List.splitOn_eq_singleton noSlash]

theorem join_of_dropped
    (dropped : text.toList = [] ∨ text.toList = ['.']) :
    folder.join (PurePath.ofString text) = folder := by
  have noParts : PurePath.ofString text = ⟨false, []⟩ := by
    rcases dropped with isEmpty | isDot
    · rw [ofString_of_notMem (isEmpty ▸ List.not_mem_nil), isEmpty]
      rfl
    · rw [ofString_of_notMem (by rw [isDot]; decide), isDot]
      rfl
  rw [noParts, PurePath.join, if_neg Bool.false_ne_true, List.append_nil]

theorem join_of_name
    (noSlash : '/' ∉ text.toList)
    (nonempty : text.toList ≠ [])
    (notDot : text.toList ≠ ['.']) :
    folder.join (PurePath.ofString text) =
      { folder with parts := folder.parts ++ [text.toList] } := by
  rw [ofString_of_notMem noSlash, PurePath.join, if_neg Bool.false_ne_true]
  simp [nonempty, notDot]

theorem stem_of_parts_eq_nil
    (noParts : folder.parts = []) :
    folder.stem = [] := by
  simp only [PurePath.stem, noParts, List.getLast?_nil]

theorem stem_append (name : PathPart) :
    PurePath.stem { folder with parts := folder.parts ++ [name] } =
      withoutSuffix name := by
  simp only [PurePath.stem, List.getLast?_append, List.getLast?_singleton,
    Option.some_or]

/-- The last part of a path in a folder comes from the text. -/
theorem mem_parts_of_getLast?
    (inFolder : (folder.join (PurePath.ofString text)).parent = folder)
    {name : PathPart}
    (last : (folder.join (PurePath.ofString text)).parts.getLast? = some name) :
    name ∈ (PurePath.ofString text).parts := by
  unfold PurePath.join at inFolder last
  split at last
  · exact List.mem_of_getLast? last
  · rename_i relative
    rw [if_neg relative] at inFolder
    cases parts : (PurePath.ofString text).parts with
    | nil =>
        rw [parts, List.append_nil] at inFolder last
        rw [parts_eq_nil_of_parent inFolder] at last
        cases last
    | cons first rest =>
        simp only [parts, List.getLast?_append, List.getLast?_cons,
          Option.some_or, Option.some.injEq] at last
        rw [← last]
        cases rest with
        | nil =>
            exact List.mem_cons_self
        | cons second others =>
            exact List.mem_cons_of_mem _ (List.mem_of_getLast? rfl)

theorem stem_sublist
    (inFolder : (folder.join (PurePath.ofString text)).parent = folder) :
    (folder.join (PurePath.ofString text)).stem.Sublist
      (text.toList.filter (· != '/')) := by
  unfold PurePath.stem
  split
  · exact List.nil_sublist _
  · rename_i name last
    have member := mem_parts_of_getLast? inFolder last
    exact (withoutSuffix_startsName name).sublist.trans
      (sublist_of_mem_splitOn (List.mem_filter.mp member).1)

theorem join_of_isFileName
    (isName : IsFileName folder text.toList) :
    (folder.join (PurePath.ofString text)).parent = folder ∧
      (folder.join (PurePath.ofString text)).stem = text.toList := by
  obtain ⟨noSlash, proper⟩ := isName
  split at proper
  · rename_i isEmpty
    rw [join_of_dropped (.inl isEmpty), stem_of_parts_eq_nil proper]
    refine ⟨?_, isEmpty.symm⟩
    rcases folder with ⟨absolute, parts⟩
    cases proper
    rfl
  · rename_i nonempty
    obtain ⟨notDot, kept⟩ := proper
    rw [join_of_name noSlash nonempty notDot, stem_append]
    refine ⟨?_, kept⟩
    simp only [PurePath.parent, List.dropLast_concat]

/-- A text that is the stem of its path is a file name. -/
theorem isFileName_of_stem_eq
    (inFolder : (folder.join (PurePath.ofString text)).parent = folder)
    (same : (folder.join (PurePath.ofString text)).stem = text.toList) :
    IsFileName folder text.toList := by
  have noSlash : '/' ∉ text.toList := by
    intro slash
    rw [← same] at slash
    have inRest := (stem_sublist inFolder).subset slash
    exact absurd (List.mem_filter.mp inRest).2 (by decide)
  refine ⟨noSlash, ?_⟩
  split
  · rename_i isEmpty
    rw [join_of_dropped (.inl isEmpty)] at inFolder
    exact parts_eq_nil_of_parent inFolder
  · rename_i nonempty
    have notDot : text.toList ≠ ['.'] := by
      intro isDot
      rw [join_of_dropped (.inr isDot)] at inFolder same
      rw [stem_of_parts_eq_nil (parts_eq_nil_of_parent inFolder), isDot] at same
      cases same
    rw [join_of_name noSlash nonempty notDot, stem_append] at same
    exact ⟨notDot, same⟩

end Names

/-! ## Where keys are listed -/

/-- A key is listed under the path of another one. -/
def Reaches (source key : String) : Prop :=
  (childPath storeMeta folder source).parent = folder ∧
    storeMeta.decodeKey
      (String.ofList (childPath storeMeta folder source).stem) = .ok key

section Reaches

variable {storeMeta : DraftStoreMapMeta} {folder : PurePath}

theorem Reaches.unique
    {source other first second : String}
    (samePath :
      childPath storeMeta folder source = childPath storeMeta folder other)
    (reachesFirst : Reaches storeMeta folder source first)
    (reachesSecond : Reaches storeMeta folder other second) :
    first = second := by
  have decoded := reachesSecond.2
  rw [← samePath, reachesFirst.2] at decoded
  exact Except.ok.inj decoded

theorem reaches_self
    {key : String}
    (isName : IsFileName folder (storeMeta.encodeKey key).toList) :
    Reaches storeMeta folder key key := by
  obtain ⟨inFolder, stem⟩ := join_of_isFileName isName
  refine ⟨inFolder, ?_⟩
  rw [childPath, stem, String.ofList_toList]
  exact storeMeta.decodeKey_encodeKey key

theorem countP_lt_of_slash
    {text name : List Char}
    (slash : '/' ∈ text)
    (kept : name.Sublist (text.filter (· != '/'))) :
    name.countP Base64.isDigit < text.countP Base64.isDigit := by
  have bound := List.Sublist.countP_le (p := Base64.isDigit) kept
  have split :=
    List.countP_eq_countP_filter_add text Base64.isDigit (· != '/')
  have dropped :
      0 < (text.filter fun char => !(char != '/')).countP Base64.isDigit := by
    refine List.countP_pos_iff.mpr ⟨'/', ?_, rfl⟩
    exact List.mem_filter.mpr ⟨slash, rfl⟩
  omega

theorem length_stem_lt
    {text : String}
    (inFolder : (folder.join (PurePath.ofString text)).parent = folder)
    (notName : ¬ IsFileName folder text.toList) :
    (folder.join (PurePath.ofString text)).stem.length < text.toList.length := by
  have kept := (stem_sublist inFolder).trans List.filter_sublist
  refine lt_of_le_of_ne kept.length_le fun sameLength => notName ?_
  exact isFileName_of_stem_eq inFolder (kept.eq_of_length sameLength)

theorem slash_mem_encode
    {bytes : List UInt8}
    (inFolder :
      (folder.join
        (PurePath.ofString (String.ofList (Base64.encode bytes)))).parent = folder)
    (notName : ¬ IsFileName folder (Base64.encode bytes)) :
    '/' ∈ Base64.encode bytes := by
  by_contra noSlash
  refine notName ⟨noSlash, ?_⟩
  have noDot : '.' ∉ Base64.encode bytes := by
    intro dot
    exact absurd (Base64.isDigit_of_mem_encode dot (by decide)) (by decide)
  split
  · rename_i isEmpty
    rw [join_of_dropped (.inl (by rw [String.toList_ofList, isEmpty]))] at inFolder
    exact parts_eq_nil_of_parent inFolder
  · refine ⟨?_, withoutSuffix_of_notMem noDot⟩
    intro isDot
    exact noDot (isDot ▸ List.mem_singleton.mpr rfl)

/-- A shorter key is listed where the encoding of a key is not a file name. -/
theorem weight_lt_of_not_isFileName
    {source key : String}
    (reaches : Reaches storeMeta folder source key)
    (notName : ¬ IsFileName folder (storeMeta.encodeKey source).toList) :
    storeMeta.weight key < storeMeta.weight source := by
  obtain ⟨inFolder, decoded⟩ := reaches
  have short := length_stem_lt inFolder notName
  have kept := stem_sublist inFolder
  unfold childPath at decoded inFolder
  unfold DraftStoreMapMeta.weight
  unfold DraftStoreMapMeta.encodeKey at notName short kept decoded inFolder
  unfold DraftStoreMapMeta.decodeKey at decoded
  split
  · rename_i isBase64
    rw [if_pos isBase64] at notName decoded inFolder kept
    rw [if_pos isBase64] at decoded
    rw [String.toList_ofList] at notName kept
    obtain ⟨bytes, decodedBytes, decodedText⟩ := PyResult.bind_eq_ok.mp decoded
    rw [String.toList_ofList] at decodedBytes
    rw [utf8Bytes_of_utf8Text decodedText]
    exact Base64.length_lt_of_decode
      (countP_lt_of_slash (slash_mem_encode inFolder notName) kept) decodedBytes
  · rename_i isRaw
    rw [if_neg isRaw] at short decoded
    rw [if_neg isRaw] at decoded
    cases decoded
    rw [String.toList_ofList]
    exact short

/-- Keys that are all listed have encodings that are file names. -/
theorem isFileName_of_all_listed
    {keys : Finset String}
    (allListed :
      ∀ key ∈ keys, ∃ source ∈ keys, Reaches storeMeta folder source key)
    {source : String}
    (member : source ∈ keys) :
    IsFileName folder (storeMeta.encodeKey source).toList := by
  choose! sourceOf isSource reaches using allListed
  have injective : Set.InjOn sourceOf keys := by
    intro first inKeys second inKeysToo same
    exact (reaches first inKeys).unique (congrArg (childPath storeMeta folder) same)
      (reaches second inKeysToo)
  have onto : keys.image sourceOf = keys :=
    Finset.eq_of_subset_of_card_le (Finset.image_subset_iff.mpr isSource)
      (Finset.card_image_of_injOn injective).ge
  -- No key is listed for a shorter one, or the keys could not all be listed.
  have descends : ∀ key ∈ keys,
      storeMeta.weight key ≤ storeMeta.weight (sourceOf key) := by
    intro key inKeys
    by_cases isName : IsFileName folder (storeMeta.encodeKey (sourceOf key)).toList
    · rw [(reaches_self isName).unique rfl (reaches key inKeys)]
    · exact (weight_lt_of_not_isFileName (reaches key inKeys) isName).le
  have total :
      (∑ key ∈ keys, storeMeta.weight key) =
        ∑ key ∈ keys, storeMeta.weight (sourceOf key) := by
    rw [← Finset.sum_image injective, onto]
  have same := (Finset.sum_eq_sum_iff_of_le descends).mp total
  rw [← onto] at member
  obtain ⟨key, inKeys, rfl⟩ := Finset.mem_image.mp member
  by_contra notName
  have shorter := weight_lt_of_not_isFileName (reaches key inKeys) notName
  rw [same key inKeys] at shorter
  exact lt_irrefl _ shorter

end Reaches

/-! ## What is written and what is listed -/

section Listing

variable [PyJson F] {storeMeta : DraftStoreMapMeta} {folder : PurePath}

/-- Writing a field assigns the path of every key. -/
theorem writeMap_eq_ok
    {entries : List (String × Value F)}
    {data stored : Dict String (Value F)} :
    writeMap storeMeta folder entries data = .ok () stored ↔
      ∃ written,
        List.Forall₂
            (fun entry pair =>
              pair.1 = (childPath storeMeta folder entry.1).toText ∧
                jsonRoundTrip entry.2 = .ok pair.2)
            entries written ∧
          stored = data.update written := by
  induction entries generalizing data with
  | nil =>
      constructor
      · intro nothing
        cases nothing
        exact ⟨[], .nil, rfl⟩
      · rintro ⟨written, none, rfl⟩
        cases none
        rfl
  | cons entry rest inductionHypothesis =>
      rcases entry with ⟨key, value⟩
      rw [writeMap]
      cases tripped : jsonRoundTrip value with
      | error raised =>
          have failed :
              InMemory.write (childPath storeMeta folder key).toText value data =
                .error raised data := by
            simp only [InMemory.write, tripped]
          constructor
          · intro computed
            rw [Computation.bind_of_error failed] at computed
            cases computed
          · rintro ⟨written, each, _⟩
            cases each with
            | cons first others =>
                rw [tripped] at first
                cases first.2
      | ok json =>
          have wrote :
              InMemory.write (childPath storeMeta folder key).toText value data =
                .ok () (data.set (childPath storeMeta folder key).toText json) := by
            simp only [InMemory.write, tripped]
          rw [Computation.bind_of_ok wrote, inductionHypothesis]
          constructor
          · rintro ⟨written, each, rfl⟩
            exact ⟨(_, json) :: written, .cons ⟨rfl, tripped⟩ each, rfl⟩
          · rintro ⟨written, each, rfl⟩
            cases each with
            | @cons _ pair _ others first rested =>
                rcases pair with ⟨path, held⟩
                obtain ⟨rfl, sameTrip⟩ := first
                rw [tripped] at sameTrip
                cases sameTrip
                exact ⟨others, rested, rfl⟩

/-- The children of a folder, as the values of their paths. -/
theorem get?_readAllChilds
    {data children : Dict String (Value F)}
    {path child : String}
    {value : Value F}
    (read : InMemory.readAllChilds data path = .ok children) :
    children.get? child = some value ↔
      ∃ raw,
        data.get? child = some raw ∧
          jsonRoundTrip raw = .ok value ∧
          (PurePath.ofString child).parent = PurePath.ofString path := by
  have nodup :
      ((data.entries.filter fun entry =>
        (PurePath.ofString entry.1).parent ==
          PurePath.ofString path).map Prod.fst).Nodup :=
    data.nodup.sublist (List.filter_sublist.map Prod.fst)
  obtain ⟨result, computed, looks⟩ :=
    Dict.fillFrom_eq_ok .empty nodup (Dict.exists_of_fillFrom_eq_ok read)
  cases read.symm.trans computed
  rw [looks child value]
  simp only [Dict.lookup_eq_some_iff nodup, List.mem_filter,
    Dict.mem_entries_iff, Dict.get?_empty, reduceCtorEq, and_false, or_false,
    beq_iff_eq]
  constructor
  · rintro ⟨raw, ⟨found, isChild⟩, tripped⟩
    exact ⟨raw, found, tripped, isChild⟩
  · rintro ⟨raw, found, tripped, isChild⟩
    exact ⟨raw, ⟨found, isChild⟩, tripped⟩

omit [PyJson F] in
theorem fetchChild_eq_ok
    {child pair : String × Value F} :
    fetchChild storeMeta child = .ok pair ↔
      storeMeta.decodeKey (String.ofList (PurePath.ofString child.1).stem) =
          .ok pair.1 ∧
        pair.2 = child.2 := by
  rw [fetchChild, PyResult.bind_eq_ok]
  constructor
  · rintro ⟨key, decoded, built⟩
    cases built
    exact ⟨decoded, rfl⟩
  · rintro ⟨decoded, same⟩
    exact ⟨pair.1, decoded, by rw [← same]; rfl⟩

theorem ofString_childPath
    (normal : folder.IsNormal)
    (key : String) :
    PurePath.ofString (childPath storeMeta folder key).toText =
      childPath storeMeta folder key :=
  ofString_toText (normal.join (isNormal_ofString _))

/-- A listed key comes from the path of a key that was written. -/
theorem reaches_of_listed
    {entries data stored listed : Dict String (Value F)}
    (normal : folder.IsNormal)
    (fresh : HasNoChildren folder data)
    (wrote : writeMap storeMeta folder entries.entries data = .ok () stored)
    (fetched : fetchMap storeMeta folder stored = .ok listed)
    {key : String}
    {value : Value F}
    (found : listed.get? key = some value) :
    isJson value = true ∧
      ∃ source ∈ entries.keys, Reaches storeMeta folder source key := by
  obtain ⟨written, each, rfl⟩ := writeMap_eq_ok.mp wrote
  obtain ⟨children, read, others⟩ := PyResult.bind_eq_ok.mp fetched
  obtain ⟨pairs, mapped, built⟩ := PyResult.bind_eq_ok.mp others
  cases built
  have member : (key, value) ∈ pairs := by
    rcases Dict.mem_of_get?_update found with inPairs | inEmpty
    · exact inPairs
    · cases inEmpty
  obtain ⟨⟨child, _⟩, inChildren, isListed⟩ :=
    exists_mem_of_forall₂ (PyResult.mapM_eq_ok.mp mapped) member
  obtain ⟨decoded, rfl⟩ := fetchChild_eq_ok.mp isListed
  obtain ⟨raw, inStored, tripped, isChild⟩ :=
    (get?_readAllChilds read).mp ((Dict.mem_entries_iff _).mp inChildren)
  rw [ofString_toText normal] at isChild
  refine ⟨isJson_of_jsonRoundTrip tripped, ?_⟩
  rcases Dict.mem_of_get?_update inStored with inWritten | inData
  · obtain ⟨⟨source, _⟩, isSource, isPath, _⟩ :=
      exists_mem_of_forall₂ each inWritten
    have isPath : child = (childPath storeMeta folder source).toText := isPath
    rw [isPath, ofString_childPath normal] at isChild decoded
    exact ⟨source, List.mem_map_of_mem isSource, isChild, decoded⟩
  · exact absurd isChild
      (fresh child (Dict.mem_keys_iff.mpr (by rw [inData]; rfl)))

/-- The pairs that writing a field assigns. -/
def writtenPairs
    (storeMeta : DraftStoreMapMeta)
    (folder : PurePath)
    (entries : Dict String (Value F)) :
    List (String × Value F) :=
  entries.entries.map fun entry =>
    ((childPath storeMeta folder entry.1).toText, entry.2)

omit [PyJson F] in
theorem mem_writtenPairs_iff
    {entries : Dict String (Value F)}
    {path : String}
    {value : Value F} :
    (path, value) ∈ writtenPairs storeMeta folder entries ↔
      ∃ key,
        entries.get? key = some value ∧
          path = (childPath storeMeta folder key).toText := by
  unfold writtenPairs
  rw [List.mem_map]
  constructor
  · rintro ⟨⟨key, held⟩, member, built⟩
    cases built
    exact ⟨key, (Dict.mem_entries_iff entries).mp member, rfl⟩
  · rintro ⟨key, found, rfl⟩
    exact ⟨(key, value), (Dict.mem_entries_iff entries).mpr found, rfl⟩

section Kept

variable {entries data : Dict String (Value F)} (normal : folder.IsNormal) (kept : ∀ key value,
  entries.get? key = some value →
  IsFileName folder (storeMeta.encodeKey key).toList ∧ isJson value = true)

include normal kept

theorem coherent_writtenPairs :
    ∀ path first second,
      (path, first) ∈ writtenPairs storeMeta folder entries →
      (path, second) ∈ writtenPairs storeMeta folder entries →
      first = second := by
  intro path first second inFirst inSecond
  obtain ⟨key, found, rfl⟩ := mem_writtenPairs_iff.mp inFirst
  obtain ⟨other, foundOther, sameText⟩ := mem_writtenPairs_iff.mp inSecond
  have samePath :
      childPath storeMeta folder key = childPath storeMeta folder other := by
    rw [← ofString_childPath normal key, sameText, ofString_childPath normal]
  have sameKey : key = other :=
    (reaches_self (kept key first found).1).unique samePath
      (reaches_self (kept other second foundOther).1)
  rw [← sameKey, found] at foundOther
  exact Option.some.inj foundOther

/-- The children of the folder are the pairs that were written. -/
theorem mem_children_iff
    {children : Dict String (Value F)}
    (fresh : HasNoChildren folder data)
    (read :
      InMemory.readAllChilds
        (data.update (writtenPairs storeMeta folder entries)) folder.toText =
          .ok children)
    {child : String}
    {value : Value F} :
    (child, value) ∈ children.entries ↔
      (child, value) ∈ writtenPairs storeMeta folder entries := by
  rw [Dict.mem_entries_iff, get?_readAllChilds read, ofString_toText normal]
  constructor
  · rintro ⟨raw, found, tripped, isChild⟩
    rcases Dict.mem_of_get?_update found with inWritten | inData
    · obtain ⟨key, isValue, _⟩ := mem_writtenPairs_iff.mp inWritten
      rw [jsonRoundTrip_of_isJson (kept key raw isValue).2] at tripped
      cases tripped
      exact inWritten
    · exact absurd isChild
        (fresh child (Dict.mem_keys_iff.mpr (by rw [inData]; rfl)))
  · intro inWritten
    obtain ⟨key, isValue, isPath⟩ := mem_writtenPairs_iff.mp inWritten
    obtain ⟨isName, json⟩ := kept key value isValue
    refine ⟨value, ?_, jsonRoundTrip_of_isJson json, ?_⟩
    · exact (Dict.get?_update_eq_some_iff (coherent_writtenPairs normal kept)).mpr
        (.inl inWritten)
    · rw [isPath, ofString_childPath normal]
      exact (reaches_self isName).1

/-- The children of the folder can be read. -/
theorem exists_readAllChilds
    (fresh : HasNoChildren folder data) :
    ∃ children,
      InMemory.readAllChilds
        (data.update (writtenPairs storeMeta folder entries)) folder.toText =
          .ok children := by
  obtain ⟨children, filled, _⟩ :=
    @Dict.fillFrom_eq_ok String (Value F) (Value F) _
      (fun _ value => jsonRoundTrip value) _ .empty
      ((data.update (writtenPairs storeMeta folder entries)).nodup.sublist
        ((List.filter_sublist
          (p := fun entry =>
            (PurePath.ofString entry.1).parent ==
              PurePath.ofString folder.toText)).map Prod.fst)) (by
        rintro ⟨child, raw⟩ member
        obtain ⟨inStored, isChild⟩ := List.mem_filter.mp member
        rw [ofString_toText normal, beq_iff_eq] at isChild
        rcases Dict.mem_of_get?_update ((Dict.mem_entries_iff _).mp inStored) with
          inWritten | inData
        · obtain ⟨key, isValue, _⟩ := mem_writtenPairs_iff.mp inWritten
          exact ⟨raw, jsonRoundTrip_of_isJson (kept key raw isValue).2⟩
        · exact absurd isChild
            (fresh child (Dict.mem_keys_iff.mpr (by rw [inData]; rfl))))
  exact ⟨children, filled⟩

omit normal in
theorem writeMap_of_kept :
    writeMap storeMeta folder entries.entries data =
      .ok () (data.update (writtenPairs storeMeta folder entries)) := by
  refine writeMap_eq_ok.mpr ⟨_, ?_, rfl⟩
  refine List.forall₂_map_right_iff.mpr (List.forall₂_same.mpr fun entry member => ?_)
  have json := (kept entry.1 entry.2 ((Dict.mem_entries_iff entries).mp member)).2
  exact ⟨rfl, jsonRoundTrip_of_isJson json⟩

theorem fetchChild_childPath
    {key : String}
    {value : Value F}
    (found : entries.get? key = some value) :
    fetchChild storeMeta ((childPath storeMeta folder key).toText, value) =
      .ok (key, value) := by
  refine fetchChild_eq_ok.mpr ⟨?_, rfl⟩
  rw [ofString_childPath normal]
  exact (reaches_self (kept key value found).1).2

/-- The pairs of a listing are the entries of the field. -/
theorem mem_listed_iff
    {children pairs : List (String × Value F)}
    (areWritten : ∀ child,
      child ∈ children ↔ child ∈ writtenPairs storeMeta folder entries)
    (mapped : children.mapM (fetchChild storeMeta) = .ok pairs)
    {key : String}
    {value : Value F} :
    (key, value) ∈ pairs ↔ entries.get? key = some value := by
  have each := PyResult.mapM_eq_ok.mp mapped
  constructor
  · intro member
    obtain ⟨⟨path, held⟩, inChildren, isListed⟩ := exists_mem_of_forall₂ each member
    obtain ⟨source, found, rfl⟩ :=
      mem_writtenPairs_iff.mp ((areWritten _).mp inChildren)
    rw [fetchChild_childPath normal kept found] at isListed
    cases isListed
    exact found
  · intro found
    have inChildren :
        ((childPath storeMeta folder key).toText, value) ∈ children :=
      (areWritten _).mpr (mem_writtenPairs_iff.mpr ⟨key, found, rfl⟩)
    obtain ⟨pair, inPairs, isListed⟩ :=
      @exists_mem_of_forall₂ _ _
        (fun pair child => fetchChild storeMeta child = .ok pair) _ _ each.flip _
        inChildren
    rw [fetchChild_childPath normal kept found] at isListed
    cases isListed
    exact inPairs

/-- Everything is written and listed when every encoded key is a file name. -/
theorem keysSurvive_of_isFileName
    (fresh : HasNoChildren folder data) :
    KeysSurvive storeMeta folder entries data := by
  obtain ⟨children, read⟩ := exists_readAllChilds normal kept fresh
  have areWritten : ∀ child,
      child ∈ children.entries ↔ child ∈ writtenPairs storeMeta folder entries :=
    fun child => mem_children_iff normal kept fresh read
  obtain ⟨pairs, mapped⟩ :
      ∃ pairs, children.entries.mapM (fetchChild storeMeta) = .ok pairs := by
    apply PyResult.exists_mapM_eq_ok
    rintro ⟨child, value⟩ member
    obtain ⟨key, found, rfl⟩ :=
      mem_writtenPairs_iff.mp ((areWritten _).mp member)
    exact ⟨_, fetchChild_childPath normal kept found⟩
  have mapping : ∀ key value,
      (key, value) ∈ pairs ↔ entries.get? key = some value :=
    fun key value => mem_listed_iff normal kept areWritten mapped
  refine ⟨_, Dict.ofList pairs, writeMap_of_kept kept, ?_, ?_⟩
  · exact PyResult.bind_eq_ok.mpr
      ⟨children, read, PyResult.bind_eq_ok.mpr ⟨pairs, mapped, rfl⟩⟩
  · intro key
    ext value
    rw [Dict.ofList, Dict.get?_update_eq_some_iff]
    · rw [mapping]
      simp
    · intro key first second inFirst inSecond
      have found := (mapping key first).mp inFirst
      rw [(mapping key second).mp inSecond] at found
      exact (Option.some.inj found).symm

end Kept

end Listing

/--
The keys survive exactly when every encoded key is a file name, and every value is
a JSON value.
-/
theorem keysSurvive_iff
    [PyJson F]
    (storeMeta : DraftStoreMapMeta)
    (root field : String)
    {data : Dict String (Value F)}
    (fresh : HasNoChildren (globPathAll root field) data)
    (entries : Dict String (Value F)) :
    KeysSurvive storeMeta (globPathAll root field) entries data ↔
      ∀ key value,
        entries.get? key = some value →
        IsFileName (globPathAll root field) (storeMeta.encodeKey key).toList ∧
          isJson value = true := by
  have normal : (globPathAll root field).IsNormal :=
    (isNormal_ofString root).join (isNormal_ofString field)
  constructor
  · rintro ⟨stored, listed, wrote, fetched, same⟩ key value found
    have allListed :
        ∀ key ∈ entries.keys.toFinset, ∃ source ∈ entries.keys.toFinset,
          Reaches storeMeta (globPathAll root field) source key := by
      intro key member
      obtain ⟨value, found⟩ :=
        Option.isSome_iff_exists.mp
          (Dict.mem_keys_iff.mp (List.mem_toFinset.mp member))
      obtain ⟨_, source, isSource, reaches⟩ :=
        reaches_of_listed normal fresh wrote fetched ((same key).trans found)
      exact ⟨source, List.mem_toFinset.mpr isSource, reaches⟩
    have json :=
      (reaches_of_listed normal fresh wrote fetched ((same key).trans found)).1
    have isKey : key ∈ entries.keys.toFinset :=
      List.mem_toFinset.mpr (Dict.mem_keys_iff.mpr (by rw [found]; rfl))
    exact ⟨isFileName_of_all_listed allListed isKey, json⟩
  · intro kept
    exact keysSurvive_of_isFileName normal kept fresh

/-- A field whose keys are no file names themselves. -/
def sampleEntries : Dict String (Value WholeFloat) :=
  .ofList [("a/b", .int 1), ("..", .int 2)]

/-- Its keys survive, since their base64 texts are file names. -/
theorem keysSurvive_sample :
    KeysSurvive ⟨true⟩ (globPathAll "root" "field") sampleEntries .empty := by
  refine (keysSurvive_iff ⟨true⟩ "root" "field" ?_ sampleEntries).mpr ?_
  · intro path member
    cases member
  · intro key value found
    have member := (Dict.mem_entries_iff sampleEntries).mpr found
    have entries :
        sampleEntries.entries = [("a/b", .int 1), ("..", .int 2)] := rfl
    rw [entries, List.mem_cons, List.mem_singleton] at member
    rcases member with isFirst | isSecond
    · cases isFirst
      exact ⟨by decide +kernel, rfl⟩
    · cases isSecond
      exact ⟨by decide +kernel, rfl⟩

/-- A key whose base64 text ends in a slash is not listed. -/
theorem not_keysSurvive :
    ¬ ∀ (storeMeta : DraftStoreMapMeta) (root field : String)
        (entries : Dict String (Value WholeFloat)),
        KeysSurvive storeMeta (globPathAll root field) entries .empty := by
  intro survive
  obtain ⟨stored, listed, wrote, fetched, _⟩ :=
    survive ⟨true⟩ "root" "field" (.ofList [("???", .int 1)])
  have run :
      writeMap ⟨true⟩ (globPathAll "root" "field")
          (Dict.ofList [("???", (.int 1 : Value WholeFloat))]).entries .empty =
        .ok () (.ofList [("root/field/Pz8", .int 1)]) := by
    rfl
  cases run.symm.trans wrote
  have raised :
      fetchMap ⟨true⟩ (globPathAll "root" "field")
          (.ofList [("root/field/Pz8", (.int 1 : Value WholeFloat))]) =
        .error (.valueError "Incorrect padding") := by
    rfl
  cases raised.symm.trans fetched

end TensorPC.Draft
