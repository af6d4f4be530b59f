import TensorPC.Draft.Ast

namespace TensorPC.Draft

/-!
# Dataclass objects as dictionaries

`as_dict_no_undefined` turns every dataclass object of a value into a dictionary
of its fields.  The operations that do not look at dataclass objects have the
same outcome before and after it.
-/

variable {F : Type}

mutual

/-- `as_dict_no_undefined`, for a value without `Undefined` fields. -/
def asDict : Value F → Value F
  | .none => .none
  | .bool value => .bool value
  | .int value => .int value
  | .float value => .float value
  | .str value => .str value
  | .list items => .list (asDictList items)
  | .tuple items => .tuple (asDictList items)
  | .dict entries => .dict (asDictEntries entries)
  | .obj _ fields _ => .dict (asDictFields fields)

/-- The items of a list or a tuple as dictionaries. -/
def asDictList : List (Value F) → List (Value F)
  | [] => []
  | item :: rest => asDict item :: asDictList rest

/-- The values of a dictionary as dictionaries. -/
def asDictEntries : List (Key F × Value F) → List (Key F × Value F)
  | [] => []
  | (key, value) :: rest => (key, asDict value) :: asDictEntries rest

/-- The fields of an object as the entries of a dictionary. -/
def asDictFields : List (String × Value F) → List (Key F × Value F)
  | [] => []
  | (name, value) :: rest => (.str name, asDict value) :: asDictFields rest

end

@[simp] theorem asDictList_eq_map (items : List (Value F)) :
    asDictList items = items.map asDict := by
  induction items with
  | nil =>
      rfl
  | cons item rest inductionHypothesis =>
      simp [asDictList, inductionHypothesis]

@[simp] theorem asDictEntries_eq_mapValues
    (entries : List (Key F × Value F)) :
    asDictEntries entries = mapValues asDict entries := by
  induction entries with
  | nil =>
      rfl
  | cons head rest inductionHypothesis =>
      rcases head with ⟨key, value⟩
      simp [asDictEntries, inductionHypothesis, mapValues]

mutual

theorem asDict_of_isPlain :
    ∀ value : Value F, isPlain value = true → asDict value = value
  | .none, _ => rfl
  | .bool _, _ => rfl
  | .int _, _ => rfl
  | .float _, _ => rfl
  | .str _, _ => rfl
  | .list items, plain => by
      rw [asDict, asDictList_of_isPlain items plain]
  | .tuple items, plain => by
      rw [asDict, asDictList_of_isPlain items plain]
  | .dict entries, plain => by
      rw [asDict, asDictEntries_of_isPlain entries plain]

theorem asDictList_of_isPlain :
    ∀ items : List (Value F),
      isPlain.isPlainList items = true → asDictList items = items
  | [], _ => rfl
  | item :: rest, plain => by
      simp only [isPlain.isPlainList, Bool.and_eq_true] at plain
      rw [asDictList, asDict_of_isPlain item plain.1,
        asDictList_of_isPlain rest plain.2]

theorem asDictEntries_of_isPlain :
    ∀ entries : List (Key F × Value F),
      isPlain.isPlainDict entries = true → asDictEntries entries = entries
  | [], _ => rfl
  | (key, value) :: rest, plain => by
      simp only [isPlain.isPlainDict, Bool.and_eq_true] at plain
      rw [asDictEntries, asDict_of_isPlain value plain.1,
        asDictEntries_of_isPlain rest plain.2]

end

@[simp] theorem asDict_toValue (key : Key F) :
    asDict key.toValue = key.toValue := by
  cases key <;> rfl

@[simp] theorem asNumber_asDict (value : Value F) :
    (asDict value).asNumber = value.asNumber := by
  cases value <;> rfl

@[simp] theorem asIndex_asDict (value : Value F) :
    (asDict value).asIndex = value.asIndex := by
  cases value <;> rfl

@[simp] theorem requireIndex_asDict (value : Value F) :
    (asDict value).requireIndex = value.requireIndex := by
  simp [Value.requireIndex]

@[simp] theorem toKey_asDict (value : Value F) :
    (asDict value).toKey = value.toKey := by
  cases value <;> rfl

variable [PyBuiltins F]

/-! ## Subscripts and attributes -/

theorem lookupKey_asDictFields
    (name : String)
    (fields : List (String × Value F)) :
    lookupKey (.str name) (asDictFields fields) =
      (lookupAttr name fields).map asDict := by
  induction fields with
  | nil =>
      rfl
  | cons head rest inductionHypothesis =>
      rcases head with ⟨first, value⟩
      simp only [asDictFields, lookupKey, lookupAttr]
      by_cases same : first = name
      · simp [Key.pyEq, Key.asNumber, Key.toValue, Value.asNumber, same]
      · simp [Key.pyEq, Key.asNumber, Key.toValue, Value.asNumber, same,
          inductionHypothesis]

/-- Whether an attribute of a value is one of its fields. -/
def hasField
    (value : Value F)
    (name : String) :
    Bool :=
  match value with
  | .obj _ fields _ => (lookupAttr name fields).isSome
  | _ => false

theorem getItem_asDict_of_getAttr
    {value result : Value F}
    {name : String}
    (read : value.getAttr name = .ok result)
    (field : hasField value name = true) :
    (asDict value).getItem (.str name) = .ok (asDict result) := by
  cases value with
  | obj cls fields extras =>
      obtain ⟨found, lookup⟩ := Option.isSome_iff_exists.mp field
      simp only [Value.getAttr, lookup, Except.ok.injEq] at read
      subst read
      simp [asDict, Value.getItem, Value.toKey, lookupKey_asDictFields, lookup,
        bind, Except.bind]
  | none | bool | int | float | str | list | tuple | dict =>
      cases read

/-- A subscript reads the dictionary of what it reads. -/
theorem getItem_asDict
    {value index result : Value F}
    (read : value.getItem index = .ok result) :
    (asDict value).getItem (asDict index) = .ok (asDict result) := by
  cases value with
  | list items =>
      simp only [Value.getItem] at read
      obtain ⟨place, indexed, read⟩ := PyResult.bind_eq_ok.mp read
      simp [asDict, Value.getItem, indexed, itemAt_map, read, bind,
        Except.bind, Except.map]
  | tuple items =>
      simp only [Value.getItem] at read
      obtain ⟨place, indexed, read⟩ := PyResult.bind_eq_ok.mp read
      simp [asDict, Value.getItem, indexed, itemAt_map, read, bind,
        Except.bind, Except.map]
  | str text =>
      simp only [Value.getItem] at read
      obtain ⟨place, indexed, read⟩ := PyResult.bind_eq_ok.mp read
      obtain ⟨char, found, read⟩ := PyResult.bind_eq_ok.mp read
      cases read
      simp [asDict, Value.getItem, indexed, found, bind, Except.bind]
  | dict entries =>
      simp only [Value.getItem] at read
      obtain ⟨key, hashed, read⟩ := PyResult.bind_eq_ok.mp read
      split at read
      · rename_i found lookup
        cases read
        simp [asDict, Value.getItem, hashed, lookup, bind, Except.bind]
      · cases read
  | none | bool | int | float | obj =>
      cases read

/-! ## Arithmetic -/

omit [PyBuiltins F] in
theorem repeatItems_asDict
    (items : List (Value F))
    (count : Int) :
    Value.repeatItems (items.map asDict) count =
      (Value.repeatItems items count).map asDict := by
  simp [Value.repeatItems, List.map_flatten, List.map_replicate]

omit [PyBuiltins F] in
theorem repeatSequence_asDict (value : Value F) :
    (asDict value).repeatSequence =
      value.repeatSequence.map (fun make count => asDict (make count)) := by
  cases value <;> simp [asDict, Value.repeatSequence, repeatItems_asDict]

omit [PyBuiltins F] in
theorem repeated_asDict
    {make : Int → Value F}
    {count result : Value F}
    (computed : Value.repeated make count = .ok result) :
    Value.repeated (fun n => asDict (make n)) (asDict count) =
      .ok (asDict result) := by
  unfold Value.repeated at *
  rw [asIndex_asDict]
  split at computed
  · cases computed
    rfl
  · cases computed

omit [PyBuiltins F] in
/-- The operators on sequences. -/
theorem arithSequence_asDict
    {op : ArithOp}
    {x y result : Value F}
    (computed : Value.arithSequence op x y = .ok result) :
    Value.arithSequence op (asDict x) (asDict y) = .ok (asDict result) := by
  unfold Value.arithSequence at computed
  split at computed
  · cases computed
    rfl
  · cases computed
    simp [asDict, Value.arithSequence]
  · cases computed
    simp [asDict, Value.arithSequence]
  · simp only [Value.arithSequence, repeatSequence_asDict]
    split at computed
    · rename_i make first
      simp [first, repeated_asDict computed]
    · rename_i make first second
      simp [first, second, repeated_asDict computed]
    · cases computed
  · cases computed

theorem arith_asDict
    {op : ArithOp}
    {x y result : Value F}
    (computed : x.arith op y = .ok result) :
    (asDict x).arith op (asDict y) = .ok (asDict result) := by
  unfold Value.arith at *
  simp only [asNumber_asDict]
  split at computed
  · rcases Number.arith_isNumber computed with ⟨number, rfl⟩ | ⟨number, rfl⟩
    · exact computed
    · exact computed
  · exact arithSequence_asDict computed

/-- `sum(values, [])` of dictionaries. -/
theorem sumLists_asDict
    {values : List (Value F)}
    {result : Value F}
    (computed : sumLists values = .ok result) :
    sumLists (values.map asDict) = .ok (asDict result) := by
  have general :
      ∀ start : Value F,
        values.foldlM (Value.arith .add) start = .ok result →
        (values.map asDict).foldlM (Value.arith .add) (asDict start) =
          .ok (asDict result) := by
    clear computed
    induction values with
    | nil =>
        intro start computed
        cases computed
        rfl
    | cons value rest inductionHypothesis =>
        intro start computed
        rw [List.foldlM_cons] at computed
        obtain ⟨middle, first, computed⟩ := PyResult.bind_eq_ok.mp computed
        rw [List.map_cons, List.foldlM_cons, arith_asDict first]
        exact inductionHypothesis middle computed
  exact general _ computed

/-! ## Truth and length -/

/-- A dataclass object without fields, whose dictionary is false. -/
def isEmptyObject : Value F → Bool
  | .obj _ fields _ => fields.isEmpty
  | _ => false

theorem truthy_asDict
    {value : Value F}
    (notEmpty : isEmptyObject value = false) :
    (asDict value).truthy = value.truthy := by
  cases value with
  | list items =>
      simp [asDict, Value.truthy]
  | tuple items =>
      simp [asDict, Value.truthy]
  | dict entries =>
      simp [asDict, Value.truthy, mapValues]
  | obj cls fields extras =>
      cases fields with
      | nil =>
          simp [isEmptyObject] at notEmpty
      | cons head rest =>
          rfl
  | none | bool | int | float | str =>
      rfl

omit [PyBuiltins F] in
theorem len_asDict
    {value result : Value F}
    (computed : value.len = .ok result) :
    (asDict value).len = .ok (asDict result) := by
  cases value with
  | str text =>
      cases computed
      rfl
  | list items =>
      cases computed
      simp [asDict, Value.len]
  | tuple items =>
      cases computed
      simp [asDict, Value.len]
  | dict entries =>
      cases computed
      simp [asDict, Value.len, mapValues]
  | none | bool | int | float | obj =>
      cases computed

/-! ## Paths -/

/-- The names of a path that are read from dataclass objects are fields. -/
def pathHasFields (curObj : Value F) : List (Value F) → Bool
  | [] => true
  | p :: rest =>
      if isSequenceOrMapping curObj then
        match curObj.getItem p with
        | .ok next => pathHasFields next rest
        | .error _ => true
      else
        match p with
        | .str name =>
            hasField curObj name &&
              match curObj.getAttr name with
              | .ok next => pathHasFields next rest
              | .error _ => true
        | _ => true

/-- Following a path through the dictionaries. -/
theorem followPath_asDict
    {curObj result : Value F}
    {path : List (Value F)}
    (fields : pathHasFields curObj path = true)
    (followed : followPath curObj path = .ok result) :
    followPath (asDict curObj) (path.map asDict) = .ok (asDict result) := by
  induction path generalizing curObj with
  | nil =>
      cases followed
      rfl
  | cons p rest inductionHypothesis =>
      simp only [followPath, pathHasFields] at followed fields
      by_cases sequence : isSequenceOrMapping curObj = true
      · simp only [sequence, ↓reduceIte] at followed fields
        obtain ⟨next, read, followed⟩ := PyResult.bind_eq_ok.mp followed
        simp only [read] at fields
        have sequenceDict : isSequenceOrMapping (asDict curObj) = true := by
          cases curObj <;> first
            | rfl
            | cases sequence
        simp only [List.map_cons, followPath, sequenceDict, ↓reduceIte,
          getItem_asDict read, bind, Except.bind]
        exact inductionHypothesis fields followed
      · simp only [sequence, Bool.false_eq_true, ↓reduceIte] at followed fields
        obtain ⟨_, isObject, reading⟩ := PyResult.bind_eq_ok.mp followed
        obtain ⟨next, read, continued⟩ := PyResult.bind_eq_ok.mp reading
        cases p with
        | str name =>
            simp only [Value.getAttrValue] at read
            simp only [read, Bool.and_eq_true] at fields
            have dictionary : isSequenceOrMapping (asDict curObj) = true := by
              cases curObj <;> first
                | rfl
                | simp [isDataclass] at isObject
            have found := getItem_asDict_of_getAttr read fields.1
            simp only [List.map_cons, followPath, dictionary, ↓reduceIte,
              asDict, found, bind, Except.bind]
            exact inductionHypothesis fields.2 continued
        | none | bool | int | float | list | tuple | dict | obj =>
            cases read

end TensorPC.Draft

namespace TensorPC.Draft

/-!
# Mutating methods on dictionaries of dataclass objects

A mutating method that succeeds on a list or a dictionary has the same effect on
its dictionaries, and assigning to a field of an object is assigning to an entry
of its dictionary.
-/

variable {F : Type} [PyBuiltins F]

theorem setKey_asDictFields
    {name : String}
    {fields : List (String × Value F)}
    (value : Value F)
    (field : (lookupAttr name fields).isSome = true) :
    setKey (.str name) (asDict value) (asDictFields fields) =
      asDictFields (assignAttr name value fields) := by
  induction fields with
  | nil =>
      cases field
  | cons head rest inductionHypothesis =>
      rcases head with ⟨first, old⟩
      simp only [lookupAttr] at field
      simp only [asDictFields, setKey, assignAttr]
      by_cases same : first = name
      · simp [Key.pyEq, Key.asNumber, Key.toValue, Value.asNumber, same,
          asDictFields]
      · simp only [same, ↓reduceIte] at field
        simp [Key.pyEq, Key.asNumber, Key.toValue, Value.asNumber, same,
          asDictFields, inductionHypothesis field]

theorem setItem_asDict_of_setAttr
    {value attr result : Value F}
    {name : String}
    (written : value.setAttr name attr = .ok result)
    (field : hasField value name = true) :
    (asDict value).setItem (.str name) (asDict attr) = .ok (asDict result) := by
  cases value with
  | obj cls fields extras =>
      simp only [hasField] at field
      obtain ⟨old, lookup⟩ := Option.isSome_iff_exists.mp field
      simp only [Value.setAttr, lookup, Except.ok.injEq] at written
      subst written
      simp [asDict, Value.setItem, Value.toKey, setKey_asDictFields attr field,
        bind, Except.bind]
  | none | bool | int | float | str | list | tuple | dict =>
      cases written

omit [PyBuiltins F] in
theorem isSome_lookupAttr_assignAttr
    (name other : String)
    (value : Value F)
    (fields : List (String × Value F))
    (field : (lookupAttr name fields).isSome = true) :
    (lookupAttr name (assignAttr other value fields)).isSome = true := by
  induction fields with
  | nil =>
      cases field
  | cons head rest inductionHypothesis =>
      rcases head with ⟨first, old⟩
      simp only [lookupAttr, assignAttr] at *
      by_cases same : first = name
      · split <;> simp [lookupAttr, same]
      · simp only [same, ↓reduceIte] at field
        split
        · simpa [lookupAttr, same] using field
        · simpa [lookupAttr, same] using inductionHypothesis field

omit [PyBuiltins F] in
theorem hasField_setAttr
    {value attr result : Value F}
    {name other : String}
    (written : value.setAttr other attr = .ok result)
    (field : hasField value name = true) :
    hasField result name = true := by
  cases value with
  | obj cls fields extras =>
      simp only [Value.setAttr] at written
      split at written
      · cases written
        exact isSome_lookupAttr_assignAttr name other attr fields field
      · cases written
        exact field
  | none | bool | int | float | str | list | tuple | dict =>
      cases field

theorem setItem_asDict
    {value index item result : Value F}
    (written : value.setItem index item = .ok result) :
    (asDict value).setItem (asDict index) (asDict item) =
      .ok (asDict result) := by
  cases value with
  | list items =>
      simp only [Value.setItem] at written
      obtain ⟨place, indexed, written⟩ := PyResult.bind_eq_ok.mp written
      obtain ⟨changed, set, written⟩ := PyResult.bind_eq_ok.mp written
      cases written
      simp [asDict, Value.setItem, indexed, setItemAt_map, set, bind,
        Except.bind, Except.map]
  | dict entries =>
      simp only [Value.setItem] at written
      obtain ⟨key, hashed, written⟩ := PyResult.bind_eq_ok.mp written
      cases written
      simp [asDict, Value.setItem, hashed, bind, Except.bind]
  | none | bool | int | float | str | tuple | obj =>
      cases written

/-- The replacement of an item that was read. -/
theorem replaceItem_asDict
    {value index old : Value F}
    (item : Value F)
    (read : value.getItem index = .ok old) :
    (asDict value).replaceItem (asDict index) (asDict item) =
      asDict (value.replaceItem index item) := by
  cases value with
  | list items =>
      simp only [Value.getItem] at read
      obtain ⟨place, indexed, read⟩ := PyResult.bind_eq_ok.mp read
      simp only [asDict, Value.replaceItem, Value.setItem, requireIndex_asDict,
        indexed, asDictList_eq_map, setItemAt_map, bind, Except.bind]
      cases setItemAt items place item with
      | error raised =>
          simp [Except.map, asDict]
      | ok changed =>
          simp [Except.map, asDict]
  | tuple items =>
      simp only [Value.getItem] at read
      obtain ⟨place, indexed, read⟩ := PyResult.bind_eq_ok.mp read
      simp only [asDict, Value.replaceItem, requireIndex_asDict,
        indexed, asDictList_eq_map, setItemAt_map, bind, Except.bind]
      cases setItemAt items place item with
      | error raised =>
          simp [Except.map, asDict]
      | ok changed =>
          simp [Except.map, asDict]
  | dict entries =>
      simp only [Value.getItem] at read
      obtain ⟨key, hashed, read⟩ := PyResult.bind_eq_ok.mp read
      simp [asDict, Value.replaceItem, Value.setItem, hashed, bind, Except.bind]
  | str text =>
      simp [asDict, Value.replaceItem, Value.setItem]
  | none | bool | int | float | obj =>
      cases read

omit [PyBuiltins F] in
/-- The optional index of `pop`. -/
theorem pop_asDict
    [PyFloat F]
    {value result : Value F}
    {index : Option (Value F)}
    (popped : value.pop index = .ok result) :
    (asDict value).pop (index.map asDict) = .ok (asDict result) := by
  cases value with
  | list items =>
      cases index with
      | none =>
          simp only [Value.pop] at popped
          obtain ⟨rest, removed, popped⟩ := PyResult.bind_eq_ok.mp popped
          cases popped
          simp [asDict, Value.pop, popItemAt_map, removed, bind, Except.bind,
            Except.map]
      | some index =>
          simp only [Value.pop] at popped
          obtain ⟨place, indexed, popped⟩ := PyResult.bind_eq_ok.mp popped
          obtain ⟨rest, removed, popped⟩ := PyResult.bind_eq_ok.mp popped
          cases popped
          simp [asDict, Value.pop, indexed, popItemAt_map, removed, bind,
            Except.bind, Except.map]
  | dict entries =>
      cases index with
      | none =>
          cases popped
      | some index =>
          simp only [Value.pop] at popped
          obtain ⟨key, hashed, popped⟩ := PyResult.bind_eq_ok.mp popped
          split at popped
          · rename_i found lookup
            cases popped
            simp [asDict, Value.pop, hashed, lookup, bind, Except.bind]
          · cases popped
  | none | bool | int | float | str | tuple | obj =>
      cases index <;> cases popped

omit [PyBuiltins F] in
theorem insert_asDict
    {value index item result : Value F}
    (inserted : value.insert index item = .ok result) :
    (asDict value).insert (asDict index) (asDict item) =
      .ok (asDict result) := by
  cases value with
  | list items =>
      simp only [Value.insert] at inserted
      obtain ⟨place, indexed, inserted⟩ := PyResult.bind_eq_ok.mp inserted
      cases inserted
      simp [asDict, Value.insert, indexed, insertItemAt_map, bind, Except.bind]
  | none | bool | int | float | str | tuple | dict | obj =>
      cases inserted

omit [PyBuiltins F] in
theorem clear_asDict
    {value result : Value F}
    (cleared : value.clear = .ok result) :
    (asDict value).clear = .ok (asDict result) := by
  cases value with
  | list items =>
      cases cleared
      rfl
  | dict entries =>
      cases cleared
      rfl
  | none | bool | int | float | str | tuple | obj =>
      cases cleared

omit [PyBuiltins F] in
theorem iterate_asDict
    {value : Value F}
    {items : List (Value F)}
    (iterated : value.iterate = .ok items) :
    (asDict value).iterate = .ok (items.map asDict) := by
  cases value with
  | list items =>
      cases iterated
      simp [asDict, Value.iterate]
  | tuple items =>
      cases iterated
      simp [asDict, Value.iterate]
  | str text =>
      cases iterated
      simp [asDict, Value.iterate]
  | dict entries =>
      cases iterated
      simp [asDict, Value.iterate, mapValues]
  | none | bool | int | float | obj =>
      cases iterated

omit [PyBuiltins F] in
theorem extend_asDict
    {value items result : Value F}
    (extended : value.extend items = .ok result) :
    (asDict value).extend (asDict items) = .ok (asDict result) := by
  cases value with
  | list old =>
      simp only [Value.extend] at extended
      obtain ⟨new, iterated, extended⟩ := PyResult.bind_eq_ok.mp extended
      cases extended
      simp [asDict, Value.extend, iterate_asDict iterated, bind, Except.bind]
  | none | bool | int | float | str | tuple | dict | obj =>
      cases extended

theorem inplaceArith_asDict
    {op : ArithOp}
    {value other result : Value F}
    (computed : value.inplaceArith op other = .ok result) :
    (asDict value).inplaceArith op (asDict other) = .ok (asDict result) := by
  unfold Value.inplaceArith at computed
  split at computed
  · exact extend_asDict computed
  · rename_i notListAdd
    have sum := arith_asDict computed
    cases value with
    | list items =>
        cases op with
        | add =>
            exact absurd rfl (notListAdd items rfl)
        | sub | mul | div | floorDiv =>
            exact sum
    | none | bool | int | float | str | tuple | dict | obj =>
        cases op <;> exact sum

theorem inplaceArith_of_arith
    {op : ArithOp}
    {value other result : Value F}
    (computed : value.arith op other = .ok result) :
    value.inplaceArith op other = .ok result := by
  cases value with
  | list items =>
      cases op with
      | add =>
          cases other with
          | list others =>
              cases computed
              rfl
          | none | bool | int | float | str | tuple | dict | obj =>
              cases computed
      | sub | mul | div | floorDiv =>
          exact computed
  | none | bool | int | float | str | tuple | dict | obj =>
      cases op <;> exact computed

/-! ## Removing an equal item -/

/-- The place of the first item that equals an item. -/
def firstEqual
    (item : Value F)
    (items : List (Value F)) :
    Nat :=
  items.findIdx fun other => other.pyEq item

/-- `remove` takes out the item at that place. -/
theorem removeFirst_eq_ok
    {item : Value F}
    {items result : List (Value F)} :
    Value.removeFirst item items = .ok result ↔
      firstEqual item items < items.length ∧
        result = items.eraseIdx (firstEqual item items) := by
  induction items generalizing result with
  | nil =>
      simp [Value.removeFirst, firstEqual]
  | cons first rest inductionHypothesis =>
      simp only [Value.removeFirst, firstEqual, List.findIdx_cons]
      cases equal : first.pyEq item with
      | true =>
          simp [eq_comm]
      | false =>
          simp only [Bool.false_eq_true, ↓reduceIte, cond_false,
            List.length_cons, Nat.add_lt_add_iff_right,
            List.eraseIdx_cons_succ]
          rw [PyResult.bind_eq_ok]
          constructor
          · rintro ⟨others, removed, built⟩
            cases built
            obtain ⟨found, erased⟩ := inductionHypothesis.mp removed
            subst erased
            exact ⟨found, rfl⟩
          · rintro ⟨found, erased⟩
            subst erased
            exact ⟨_, inductionHypothesis.mpr ⟨found, rfl⟩, rfl⟩

theorem remove_asDict
    {items : List (Value F)}
    {item result : Value F}
    (same :
      firstEqual (asDict item) (items.map asDict) = firstEqual item items)
    (removed : (Value.list items).remove item = .ok result) :
    (asDict (.list items)).remove (asDict item) = .ok (asDict result) := by
  simp only [Value.remove] at removed
  obtain ⟨rest, taken, removed⟩ := PyResult.bind_eq_ok.mp removed
  cases removed
  obtain ⟨found, erased⟩ := removeFirst_eq_ok.mp taken
  subst erased
  have takenDict :
      Value.removeFirst (asDict item) (items.map asDict) =
        .ok ((items.eraseIdx (firstEqual item items)).map asDict) := by
    refine removeFirst_eq_ok.mpr ⟨?_, ?_⟩
    · simpa [same] using found
    · simp [same, List.eraseIdx_map]
  simp [asDict, Value.remove, takenDict, bind, Except.bind]

end TensorPC.Draft
