import TensorPC.Py.Json

namespace TensorPC

/-!
# Changing JSON values

Reading from a JSON value and changing it yields JSON values, as long as no entry
of a dictionary gets a key that is not a string.
-/

variable {F : Type} [PyFloat F]

theorem isJson_list_iff {items : List (Value F)} :
    isJson (.list items) = true ↔ ∀ item ∈ items, isJson item = true := by
  rw [isJson, isJsonList_eq_all, List.all_eq_true]

/-! ## Reading -/

omit [PyFloat F] in
theorem mem_of_itemAt
    {α : Type}
    {items : List α}
    {index : Int}
    {item : α}
    (found : itemAt items index = .ok item) :
    item ∈ items := by
  obtain ⟨place, _, found⟩ := PyResult.bind_eq_ok.mp found
  split at found
  · rename_i there
    cases found
    exact List.mem_of_getElem? there
  · cases found

theorem isJson_getItem
    {value index result : Value F}
    (json : isJson value = true)
    (read : value.getItem index = .ok result) :
    isJson result = true := by
  cases value with
  | list items =>
      simp only [Value.getItem] at read
      obtain ⟨place, _, found⟩ := PyResult.bind_eq_ok.mp read
      exact isJson_list_iff.mp json result (mem_of_itemAt found)
  | dict entries =>
      simp only [Value.getItem] at read
      obtain ⟨key, _, found⟩ := PyResult.bind_eq_ok.mp read
      split at found
      · rename_i there
        cases found
        exact isJson_of_lookupKey json there
      · cases found
  | str text =>
      simp only [Value.getItem] at read
      obtain ⟨place, _, found⟩ := PyResult.bind_eq_ok.mp read
      obtain ⟨char, _, found⟩ := PyResult.bind_eq_ok.mp found
      cases found
      rfl
  | tuple items =>
      cases json
  | none | bool | int | float | obj =>
      cases read

theorem isJson_iterate
    {value : Value F}
    {items : List (Value F)}
    (json : isJson value = true)
    (iterated : value.iterate = .ok items) :
    ∀ item ∈ items, isJson item = true := by
  cases value with
  | list old =>
      cases iterated
      exact isJson_list_iff.mp json
  | str text =>
      cases iterated
      intro item member
      obtain ⟨char, _, rfl⟩ := List.mem_map.mp member
      rfl
  | dict entries =>
      cases iterated
      intro item member
      obtain ⟨entry, inEntries, rfl⟩ := List.mem_map.mp member
      obtain ⟨⟨name, isName⟩, _⟩ := (isJsonDict_iff.mp json).1 entry inEntries
      rw [isName]
      rfl
  | tuple items =>
      cases json
  | none | bool | int | float | obj =>
      cases iterated

/-! ## Lists and dictionaries -/

/-- The keys that a subscript assignment may use on a JSON value. -/
def isJsonKey (value index : Value F) : Bool :=
  match value, index with
  | .dict _, .str _ => true
  | .dict _, _ => false
  | _, _ => true

theorem isJson_setItem
    {value index item result : Value F}
    (json : isJson value = true)
    (jsonItem : isJson item = true)
    (key : isJsonKey value index = true)
    (written : value.setItem index item = .ok result) :
    isJson result = true := by
  cases value with
  | list items =>
      simp only [Value.setItem] at written
      obtain ⟨place, _, written⟩ := PyResult.bind_eq_ok.mp written
      obtain ⟨changed, set, written⟩ := PyResult.bind_eq_ok.mp written
      cases written
      obtain ⟨at_place, _, set⟩ := PyResult.bind_eq_ok.mp set
      cases set
      refine isJson_list_iff.mpr fun other member => ?_
      rcases List.mem_or_eq_of_mem_set member with old | new
      · exact isJson_list_iff.mp json other old
      · rw [new]
        exact jsonItem
  | dict entries =>
      cases index with
      | str name =>
          cases written
          exact isJsonDict_setKey json jsonItem
      | none | bool | int | float | list | tuple | dict | obj =>
          cases key
  | none | bool | int | float | str | tuple | obj =>
      cases written

/-- Replacing an item that was read adds no key. -/
theorem isJson_replaceItem
    {value index old item : Value F}
    (json : isJson value = true)
    (jsonItem : isJson item = true)
    (read : value.getItem index = .ok old) :
    isJson (value.replaceItem index item) = true := by
  cases value with
  | list items =>
      simp only [Value.replaceItem]
      cases written : (Value.list items).setItem index item with
      | error raised =>
          exact json
      | ok result =>
          exact isJson_setItem json jsonItem (by rfl) written
  | dict entries =>
      simp only [Value.getItem] at read
      obtain ⟨key, hashed, found⟩ := PyResult.bind_eq_ok.mp read
      split at found
      · rename_i value there
        simp only [Value.replaceItem, Value.setItem, hashed, bind, Except.bind]
        exact isJsonDict_setKey_of_isSome json jsonItem (by simp [there])
      · cases found
  | str text =>
      rfl
  | tuple items =>
      cases json
  | none | bool | int | float | obj =>
      cases read

theorem isJson_pop
    {value result : Value F}
    {index : Option (Value F)}
    (json : isJson value = true)
    (popped : value.pop index = .ok result) :
    isJson result = true := by
  have fewer :
      ∀ (items rest : List (Value F)) (place : Int),
        isJson (.list items) = true →
        popItemAt items place = .ok rest →
        isJson (.list rest) = true := by
    intro items rest place json removed
    obtain ⟨at_place, _, removed⟩ := PyResult.bind_eq_ok.mp removed
    cases removed
    exact isJson_list_iff.mpr fun item member =>
      isJson_list_iff.mp json item (List.mem_of_mem_eraseIdx member)
  cases value with
  | list items =>
      cases index with
      | none =>
          simp only [Value.pop] at popped
          obtain ⟨rest, removed, popped⟩ := PyResult.bind_eq_ok.mp popped
          cases popped
          exact fewer items rest _ json removed
      | some index =>
          simp only [Value.pop] at popped
          obtain ⟨place, _, popped⟩ := PyResult.bind_eq_ok.mp popped
          obtain ⟨rest, removed, popped⟩ := PyResult.bind_eq_ok.mp popped
          cases popped
          exact fewer items rest _ json removed
  | dict entries =>
      cases index with
      | none =>
          cases popped
      | some index =>
          simp only [Value.pop] at popped
          obtain ⟨key, _, popped⟩ := PyResult.bind_eq_ok.mp popped
          split at popped
          · cases popped
            exact isJsonDict_eraseKey json
          · cases popped
  | none | bool | int | float | str | tuple | obj =>
      cases index <;> cases popped

theorem isJson_insert
    {value index item result : Value F}
    (json : isJson value = true)
    (jsonItem : isJson item = true)
    (inserted : value.insert index item = .ok result) :
    isJson result = true := by
  cases value with
  | list items =>
      simp only [Value.insert] at inserted
      obtain ⟨place, _, inserted⟩ := PyResult.bind_eq_ok.mp inserted
      cases inserted
      refine isJson_list_iff.mpr fun other member => ?_
      rcases List.eq_or_mem_of_mem_insertIdx member with new | old
      · rw [new]
        exact jsonItem
      · exact isJson_list_iff.mp json other old
  | none | bool | int | float | str | tuple | dict | obj =>
      cases inserted

theorem sublist_of_removeFirst
    {item : Value F}
    {items rest : List (Value F)}
    (removed : Value.removeFirst item items = .ok rest) :
    rest.Sublist items := by
  induction items generalizing rest with
  | nil =>
      cases removed
  | cons first others inductionHypothesis =>
      simp only [Value.removeFirst] at removed
      split at removed
      · cases removed
        exact List.sublist_cons_self _ _
      · obtain ⟨after, removedRest, built⟩ := PyResult.bind_eq_ok.mp removed
        cases built
        exact (inductionHypothesis removedRest).cons_cons _

theorem isJson_remove
    {value item result : Value F}
    (json : isJson value = true)
    (removed : value.remove item = .ok result) :
    isJson result = true := by
  cases value with
  | list items =>
      simp only [Value.remove] at removed
      obtain ⟨rest, taken, removed⟩ := PyResult.bind_eq_ok.mp removed
      cases removed
      have fewer := sublist_of_removeFirst taken
      exact isJson_list_iff.mpr fun other member =>
        isJson_list_iff.mp json other (fewer.subset member)
  | none | bool | int | float | str | tuple | dict | obj =>
      cases removed

theorem isJson_clear
    {value result : Value F}
    (cleared : value.clear = .ok result) :
    isJson result = true := by
  cases value with
  | list items =>
      cases cleared
      rfl
  | dict entries =>
      cases cleared
      rfl
  | none | bool | int | float | str | tuple | obj =>
      cases cleared

theorem isJson_extend
    {value items result : Value F}
    (json : isJson value = true)
    (jsonItems : isJson items = true)
    (extended : value.extend items = .ok result) :
    isJson result = true := by
  cases value with
  | list old =>
      simp only [Value.extend] at extended
      obtain ⟨new, iterated, extended⟩ := PyResult.bind_eq_ok.mp extended
      cases extended
      refine isJson_list_iff.mpr fun item member => ?_
      rcases List.mem_append.mp member with isOld | isNew
      · exact isJson_list_iff.mp json item isOld
      · exact isJson_iterate jsonItems iterated item isNew
  | none | bool | int | float | str | tuple | dict | obj =>
      cases extended

/-! ## Arithmetic -/

/-- A repeated JSON sequence. -/
theorem isJson_repeatSequence
    {value : Value F}
    {make : Int → Value F}
    (json : isJson value = true)
    (sequence : value.repeatSequence = some make)
    (count : Int) :
    isJson (make count) = true := by
  cases value with
  | str text =>
      cases sequence
      rfl
  | list items =>
      cases sequence
      refine isJson_list_iff.mpr fun item member => ?_
      obtain ⟨copy, isCopy, inCopy⟩ := List.mem_flatten.mp member
      rw [List.eq_of_mem_replicate isCopy] at inCopy
      exact isJson_list_iff.mp json item inCopy
  | tuple items =>
      cases json
  | none | bool | int | float | dict | obj =>
      cases sequence

theorem isJson_arithSequence
    {op : ArithOp}
    {x y result : Value F}
    (jsonX : isJson x = true)
    (jsonY : isJson y = true)
    (computed : Value.arithSequence op x y = .ok result) :
    isJson result = true := by
  have repeats :
      ∀ {value count : Value F} {make : Int → Value F},
        isJson value = true →
        value.repeatSequence = some make →
        Value.repeated make count = .ok result →
        isJson result = true := by
    intro value count make json sequence computed
    unfold Value.repeated at computed
    split at computed
    · cases computed
      exact isJson_repeatSequence json sequence _
    · cases computed
  unfold Value.arithSequence at computed
  split at computed
  · cases computed
    rfl
  · cases computed
    refine isJson_list_iff.mpr fun item member => ?_
    rcases List.mem_append.mp member with inFirst | inSecond
    · exact isJson_list_iff.mp jsonX item inFirst
    · exact isJson_list_iff.mp jsonY item inSecond
  · cases jsonX
  · split at computed
    · rename_i first
      exact repeats jsonX first computed
    · rename_i second
      exact repeats jsonY second computed
    · cases computed
  · cases computed

theorem isJson_arith
    {op : ArithOp}
    {x y result : Value F}
    (jsonX : isJson x = true)
    (jsonY : isJson y = true)
    (computed : x.arith op y = .ok result) :
    isJson result = true := by
  unfold Value.arith at computed
  split at computed
  · rcases Number.arith_isNumber computed with ⟨number, rfl⟩ | ⟨number, rfl⟩
    · rfl
    · rfl
  · exact isJson_arithSequence jsonX jsonY computed

theorem isJson_inplaceArith
    {op : ArithOp}
    {value other result : Value F}
    (json : isJson value = true)
    (jsonOther : isJson other = true)
    (computed : value.inplaceArith op other = .ok result) :
    isJson result = true := by
  unfold Value.inplaceArith at computed
  split at computed
  · exact isJson_extend json jsonOther computed
  · exact isJson_arith json jsonOther computed

end TensorPC
