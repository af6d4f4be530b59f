import TensorPC.Draft.TraceRefinement
import TensorPC.Lib.Computation

namespace TensorPC.Draft

/-!
# What the recorded identities cover

An op changes one object, besides the objects that hold it.  Where the tracer records
every object on the way to it, each object of the model after the op is recorded, new,
or an object of the model before the op with all that it held.
-/

variable {F : Type}

open PyObject

/-! ## Changes of one object -/

/-- An object is held inside another one. -/
def HeldIn (part whole : PyObject F) : Prop :=
  ∃ child ∈ whole.children, Inside part child

theorem HeldIn.inside
    {part whole : PyObject F}
    (held : HeldIn part whole) :
    Inside part whole := by
  obtain ⟨child, holds, inside⟩ := held
  exact .held holds inside

/-- An object is new, or was held before a change. -/
def IsKnown (next : ObjId) (before part : PyObject F) : Prop :=
  ∀ id, part.id? = some id → next ≤ id ∨ HeldIn part before

/-- A change of an object that keeps its identity, and moves what it held. -/
structure Evolves (next : ObjId) (before after : PyObject F) : Prop where
  id? : after.id? = before.id?
  known : ∀ part, HeldIn part after → IsKnown next before part

namespace Evolves

variable {next later : ObjId} {before middle after : PyObject F}

theorem refl (object : PyObject F) : Evolves next object object where
  id? := rfl
  known _ held _ _ := .inr held

theorem trans
    (first : Evolves next before middle)
    (second : Evolves later middle after)
    (grows : next ≤ later) :
    Evolves next before after where
  id? := second.id?.trans first.id?
  known part held id identified := by
    rcases second.known part held id identified with isNew | wasHeld
    · exact .inl (Nat.le_trans grows isNew)
    · exact first.known part wasHeld id identified

end Evolves

theorem le_of_inside_isNew
    {next : ObjId}
    {part object : PyObject F}
    {id : ObjId}
    (isNew : IsNew next object)
    (inside : Inside part object)
    (identified : part.id? = some id) :
    next ≤ id :=
  isNew id (inside.ids_subset (mem_ids_of_id? identified))

theorem evolves_of_keeps
    {next : ObjId}
    {given : PyObject F → Prop}
    {before after : PyObject F}
    (keeps : Keeps given before after)
    (known : ∀ child, given child → ∀ part, Inside part child →
      IsKnown next before part) :
    Evolves next before after where
  id? := keeps.id?
  known part held := by
    obtain ⟨child, holds, inside⟩ := held
    rcases keeps.children child holds with wasHeld | isGiven
    · exact fun _ _ => .inr ⟨child, wasHeld, inside⟩
    · exact known child isGiven part inside

theorem evolves_of_keeps_new
    {next : ObjId}
    {item before after : PyObject F}
    (keeps : Keeps (· = item) before after)
    (isNew : IsNew next item) :
    Evolves next before after :=
  evolves_of_keeps keeps fun _ isItem _ inside _ identified =>
    .inl (le_of_inside_isNew isNew (isItem ▸ inside) identified)

/-- A mutation that moves what was held, when it succeeds. -/
def Moving (mutation : ObjectMutation F) : Prop :=
  ∀ held after,
    mutation held = .ok () after →
    Evolves held.next held.obj after.obj ∧ held.next ≤ after.next

namespace Moving

theorem ofResult
    {method : PyObject F → PyResult (PyObject F)}
    (keeps : ∀ object after, method object = .ok after →
      Keeps (fun _ => False) object after) :
    Moving (.ofResult method) := by
  intro held after changed
  unfold ObjectMutation.ofResult at changed
  split at changed
  · rename_i result computed
    cases changed
    exact ⟨evolves_of_keeps (keeps _ _ computed) nofun, Nat.le_refl _⟩
  · cases changed

theorem giving
    {value : Value F}
    {method : PyObject F → PyObject F → PyResult (PyObject F)}
    (evolves : ∀ next object given after,
      IsNew next given →
      method object given = .ok after →
      Evolves next object after) :
    Moving (.giving value method) := by
  intro held after changed
  obtain ⟨grows, isNew⟩ := isNew_ofValue held.next value
  simp only [ObjectMutation.giving] at changed
  split at changed
  · rename_i result computed
    cases changed
    exact ⟨evolves _ _ _ _ isNew computed, grows⟩
  · cases changed

theorem forEach
    {α : Type}
    {body : α → ObjectMutation F}
    (moving : ∀ item, Moving (body item))
    (items : List α) :
    Moving (ObjectMutation.forEach body items) := by
  induction items with
  | nil =>
      intro held after changed
      cases changed
      exact ⟨.refl _, Nat.le_refl _⟩
  | cons item rest inductionHypothesis =>
      intro held after changed
      obtain ⟨_, middle, first, others⟩ := Computation.bind_eq_ok.mp changed
      obtain ⟨evolves, grows⟩ := moving item held middle first
      obtain ⟨evolvesRest, growsRest⟩ := inductionHypothesis middle after others
      exact ⟨evolves.trans evolvesRest grows, Nat.le_trans grows growsRest⟩

end Moving

/-! ## Reading what an object holds -/

theorem mem_of_lookupKey
    [PyFloat F]
    {α : Type}
    {key : Key F}
    {entries : List (Key F × α)}
    {value : α}
    (found : lookupKey key entries = some value) :
    value ∈ entries.map Prod.snd := by
  induction entries with
  | nil =>
      cases found
  | cons head rest inductionHypothesis =>
      rcases head with ⟨first, held⟩
      simp only [lookupKey] at found
      split at found
      · cases found
        exact List.mem_cons_self
      · exact List.mem_cons_of_mem _ (inductionHypothesis found)

theorem mem_of_lookupAttr
    {α : Type}
    {name : String}
    {fields : List (String × α)}
    {value : α}
    (found : lookupAttr name fields = some value) :
    value ∈ fields.map Prod.snd := by
  induction fields with
  | nil =>
      cases found
  | cons head rest inductionHypothesis =>
      rcases head with ⟨first, held⟩
      simp only [lookupAttr] at found
      split at found
      · cases found
        exact List.mem_cons_self
      · exact List.mem_cons_of_mem _ (inductionHypothesis found)

section Ops

variable [PyBuiltins F]

omit [PyBuiltins F] in
/-- What a new object yields is new. -/
theorem isNew_of_iterate
    {next : ObjId}
    {object : PyObject F}
    {items : List (PyObject F)}
    (isNew : IsNew next object)
    (iterated : object.iterate = .ok items)
    {item : PyObject F}
    (member : item ∈ items) :
    IsNew next item := by
  have ofHeld : item ∈ object.children → IsNew next item := by
    intro holds id inItem
    exact isNew id ((Inside.held holds (.self item)).ids_subset inItem)
  cases object with
  | list id held =>
      cases iterated
      exact ofHeld member
  | tuple id held =>
      cases iterated
      exact ofHeld member
  | str text =>
      cases iterated
      obtain ⟨char, _, rfl⟩ := List.mem_map.mp member
      exact nofun
  | dict id entries =>
      cases iterated
      obtain ⟨⟨key, _⟩, _, rfl⟩ := List.mem_map.mp member
      cases key <;> exact nofun
  | none | bool | int | float | obj =>
      cases iterated

omit [PyBuiltins F] in
theorem evolves_extend
    {next : ObjId}
    {object given after : PyObject F}
    (isNew : IsNew next given)
    (changed : object.extend given = .ok after) :
    Evolves next object after := by
  cases object with
  | list id old =>
      obtain ⟨items, iterated, built⟩ := PyResult.bind_eq_ok.mp changed
      cases built
      refine ⟨rfl, ?_⟩
      rintro part ⟨child, holds, inside⟩ partId identified
      rcases List.mem_append.mp holds with wasHeld | isGiven
      · exact .inr ⟨child, wasHeld, inside⟩
      · exact .inl (le_of_inside_isNew
          (isNew_of_iterate isNew iterated isGiven) inside identified)
  | none | bool | int | float | str | tuple | dict | obj =>
      cases changed

/-! ## Operators -/

/-- What is read from an object is held by it, or holds nothing. -/
theorem mem_children_of_getItem
    {object child : PyObject F}
    {index : Value F}
    (read : object.getItem index = .ok child) :
    child ∈ object.children ∨ child.ids = [] := by
  have ofItemAt : ∀ items : List (PyObject F), ∀ place,
      itemAt items place = .ok child → child ∈ items := by
    intro items place found
    obtain ⟨position, _, reading⟩ := PyResult.bind_eq_ok.mp found
    split at reading
    · rename_i item isItem
      cases reading
      exact List.mem_of_getElem? isItem
    · cases reading
  cases object with
  | list id items =>
      obtain ⟨place, _, found⟩ := PyResult.bind_eq_ok.mp read
      exact .inl (ofItemAt items place found)
  | tuple id items =>
      obtain ⟨place, _, found⟩ := PyResult.bind_eq_ok.mp read
      exact .inl (ofItemAt items place found)
  | str text =>
      obtain ⟨place, _, reading⟩ := PyResult.bind_eq_ok.mp read
      obtain ⟨char, _, built⟩ := PyResult.bind_eq_ok.mp reading
      cases built
      exact .inr rfl
  | dict id entries =>
      obtain ⟨key, _, reading⟩ := PyResult.bind_eq_ok.mp read
      split at reading
      · rename_i found isFound
        cases reading
        exact .inl (mem_of_lookupKey isFound)
      · cases reading
  | none | bool | int | float | obj =>
      cases read

omit [PyBuiltins F] in
theorem mem_children_of_getAttr
    {object child : PyObject F}
    {name : String}
    (read : object.getAttr name = .ok child) :
    child ∈ object.children := by
  cases object with
  | obj id cls fields extras =>
      simp only [PyObject.getAttr] at read
      split at read
      · rename_i value isValue
        cases read
        exact List.mem_append_left _ (mem_of_lookupAttr isValue)
      · split at read
        · rename_i value isValue
          cases read
          exact List.mem_append_right _ (mem_of_lookupAttr isValue)
        · cases read
  | none | bool | int | float | str | list | tuple | dict =>
      cases read

omit [PyBuiltins F] in
theorem mem_of_repeatItems
    {α : Type}
    {items : List α}
    {count : Int}
    {item : α}
    (member : item ∈ Value.repeatItems items count) :
    item ∈ items := by
  obtain ⟨copy, isCopy, inCopy⟩ := List.mem_flatten.mp member
  rw [List.eq_of_mem_replicate isCopy] at inCopy
  exact inCopy

/-- What the result of an operator holds is new, or was held by the first operand. -/
theorem known_arith
    {op : ArithOp}
    {next fresh : ObjId}
    {old given new : PyObject F}
    (isNew : IsNew next given)
    (grows : next ≤ fresh)
    (computed : old.arith op given fresh = .ok new) :
    ∀ part, Inside part new → IsKnown next old part := by
  -- A container with a new identity holds items of the operands.
  have ofItems : ∀ container : PyObject F,
      container.id? = some fresh →
      (∀ child ∈ container.children,
        child ∈ old.children ∨ child ∈ given.children) →
      ∀ part, Inside part container → IsKnown next old part := by
    intro container isFresh fromOperands part inside id identified
    cases inside with
    | self =>
        rw [isFresh] at identified
        cases identified
        exact .inl grows
    | @held child _ holds inside =>
        rcases fromOperands child holds with inOld | inGiven
        · exact .inr ⟨child, inOld, inside⟩
        · exact .inl (le_of_inside_isNew isNew (.held inGiven inside) identified)
  have ofRepeated : ∀ (make : List (PyObject F) → PyObject F) items count,
      (∀ items, (make items).id? = some fresh ∧ (make items).children = items) →
      (∀ child ∈ items, child ∈ old.children ∨ child ∈ given.children) →
      repeatedItems make items count = .ok new →
      ∀ part, Inside part new → IsKnown next old part := by
    intro make items count isMade fromOperands repeated
    unfold repeatedItems at repeated
    split at repeated
    · cases repeated
      refine ofItems _ (isMade _).1 fun child holds => ?_
      rw [(isMade _).2] at holds
      exact fromOperands child (mem_of_repeatItems holds)
    · cases repeated
  unfold PyObject.arith at computed
  split at computed
  · cases computed
    exact ofItems _ rfl fun child holds => List.mem_append.mp holds
  · cases computed
    exact ofItems _ rfl fun child holds => List.mem_append.mp holds
  · exact ofRepeated _ _ _ (fun _ => ⟨rfl, rfl⟩) (fun _ => .inl) computed
  · exact ofRepeated _ _ _ (fun _ => ⟨rfl, rfl⟩) (fun _ => .inl) computed
  · exact ofRepeated _ _ _ (fun _ => ⟨rfl, rfl⟩) (fun _ => .inr) computed
  · exact ofRepeated _ _ _ (fun _ => ⟨rfl, rfl⟩) (fun _ => .inr) computed
  · obtain ⟨result, _, built⟩ := PyResult.map_eq_ok computed
    subst built
    intro part inside id identified
    have isFresh := (isNew_ofValue fresh result).2
    exact .inl (Nat.le_trans grows (le_of_inside_isNew isFresh inside identified))

/-- Whether an in-place operator changes a list instead of making another one. -/
def changesListInPlace (op : ScalarInplaceOpType) (old : PyObject F) : Bool :=
  match op, old with
  | .add, .list _ _ => true
  | .mul, .list _ _ => true
  | _, _ => false

theorem inplaceArith_eq_arith
    {op : ScalarInplaceOpType}
    {old : PyObject F}
    (notInPlace : changesListInPlace op old = false)
    (given : PyObject F)
    (fresh : ObjId) :
    old.inplaceArith op.arithOp given fresh = old.arith op.arithOp given fresh := by
  cases old with
  | list id items =>
      cases op with
      | add | mul =>
          cases notInPlace
      | sub | div =>
          rfl
  | none | bool | int | float | str | tuple | dict | obj =>
      cases op <;> rfl

omit [PyBuiltins F] in
theorem heldIn_of_read
    {object child part : PyObject F}
    {id : ObjId}
    (read : child ∈ object.children ∨ child.ids = [])
    (held : HeldIn part child)
    (identified : part.id? = some id) :
    HeldIn part object := by
  rcases read with holds | isEmpty
  · exact ⟨child, holds, held.inside⟩
  · have member := held.inside.ids_subset (mem_ids_of_id? identified)
    rw [isEmpty] at member
    cases member

/-- The changes that an in-place op makes where no list is changed in place. -/
theorem evolves_inplaceObject
    {op : ScalarInplaceOpType}
    {key value : Value F}
    {held after : Held F}
    (notInPlace :
      isMutableContainer held.obj.toValue = true →
      ∀ old, held.obj.getItem key = .ok old → changesListInPlace op old = false)
    (changed : inplaceObject op key value held = .ok () after) :
    Evolves held.next held.obj after.obj ∧ held.next ≤ after.next := by
  obtain ⟨grows, isNew⟩ := isNew_ofValue held.next value
  simp only [inplaceObject] at changed
  split at changed
  · rename_i result computed
    cases changed
    refine ⟨?_, Nat.le_succ_of_le grows⟩
    split at computed
    · rename_i isContainer
      obtain ⟨old, read, computing⟩ := PyResult.bind_eq_ok.mp computed
      obtain ⟨new, operated, set⟩ := PyResult.bind_eq_ok.mp computing
      rw [inplaceArith_eq_arith (notInPlace isContainer old read)] at operated
      refine evolves_of_keeps (keeps_setItem set) ?_
      rintro child rfl part inside id identified
      exact (known_arith isNew grows operated part inside id identified).imp_right
        fun held => heldIn_of_read (mem_children_of_getItem read) held identified
    · obtain ⟨old, read, computing⟩ := PyResult.bind_eq_ok.mp computed
      obtain ⟨new, operated, set⟩ := PyResult.bind_eq_ok.mp computing
      have isHeld : old ∈ held.obj.children := by
        cases key with
        | str name =>
            exact mem_children_of_getAttr read
        | none | bool | int | float | list | tuple | dict | obj =>
            cases read
      refine evolves_of_keeps (keeps_setAttrValue set) ?_
      rintro child rfl part inside id identified
      exact (known_arith isNew grows operated part inside id identified).imp_right
        fun held => heldIn_of_read (.inl isHeld) held identified
  · cases changed

/-- An op does not change a list in place that the object it changes holds. -/
def KeepsLists (data : OpData F) (curObj : PyObject F) : Prop :=
  ∀ op key value,
    data = .scalarInplaceOp op key value →
    isMutableContainer curObj.toValue = true →
    ∀ old, curObj.getItem key = .ok old → changesListInPlace op old = false

/-- An op moves what its object held. -/
theorem evolves_applyObjectOp
    {data : OpData F}
    {dynamicKey : Value F}
    {held after : Held F}
    (keepsLists : KeepsLists data held.obj)
    (changed : applyObjectOp data dynamicKey held = .ok () after) :
    Evolves held.next held.obj after.obj ∧ held.next ≤ after.next := by
  cases data with
  | setAttr items =>
      refine Moving.forEach (fun item => Moving.giving ?_) items held after changed
      exact fun _ _ _ _ isNew set => evolves_of_keeps_new (keeps_setAttr set) isNew
  | delete keys =>
      refine Moving.forEach (fun key => Moving.ofResult ?_) keys held after changed
      exact fun _ _ popped => keeps_pop popped
  | extend items =>
      refine Moving.giving ?_ held after changed
      exact fun _ _ _ _ isNew extended => evolves_extend isNew extended
  | arraySet items =>
      refine Moving.forEach (fun item => Moving.giving ?_) items held after changed
      exact fun _ _ _ _ isNew set => evolves_of_keeps_new (keeps_setItem set) isNew
  | arrayPop index =>
      refine Moving.ofResult ?_ held after changed
      intro object result popped
      unfold popObjectIndex at popped
      split at popped
      · exact keeps_pop popped
      · exact keeps_pop popped
  | arrayInsert index item =>
      have moving : Moving (.giving item fun curObj given =>
          curObj.insert index given) :=
        Moving.giving fun _ _ _ _ isNew inserted =>
          evolves_of_keeps_new (keeps_insert inserted) isNew
      exact moving held after changed
  | arrayRemove item =>
      have moving : Moving (.ofResult fun curObj => curObj.remove item) :=
        Moving.ofResult fun _ _ removed => keeps_remove removed
      exact moving held after changed
  | containerClear =>
      refine Moving.ofResult ?_ held after changed
      exact fun _ _ cleared => keeps_clear cleared
  | dictUpdate items =>
      refine Moving.forEach (fun item => Moving.giving ?_) items held after changed
      exact fun _ _ _ _ isNew set => evolves_of_keeps_new (keeps_setItem set) isNew
  | assign value keyNode =>
      unfold applyObjectOp at changed
      refine Moving.giving ?_ held after changed
      intro next object given result isNew assigned
      obtain ⟨_, _, set⟩ := PyResult.bind_eq_ok.mp assigned
      exact evolves_of_keeps_new (keeps_setItem set) isNew
  | scalarInplaceOp op key value =>
      exact evolves_inplaceObject (keepsLists op key value rfl) changed
  | rootAssign | rootInplaceOp | slice =>
      cases changed

/-! ## The objects on the way -/

/-- The identities of the objects at a place and on the way to it. -/
def idsOnTheWay : List (Step F) → PyObject F → List ObjId
  | [], object => object.id?.toList
  | step :: rest, object =>
      object.id?.toList ++
        match step.readObject object with
        | .ok child => idsOnTheWay rest child
        | .error _ => []

theorem idsOnTheWay_append
    {place : List (Step F)}
    {object last child : PyObject F}
    {step : Step F}
    (reads : readObjectAt place object = .ok last)
    (stepped : step.readObject last = .ok child) :
    idsOnTheWay (place ++ [step]) object =
      idsOnTheWay place object ++ child.id?.toList := by
  induction place generalizing object with
  | nil =>
      cases reads
      simp only [List.nil_append, idsOnTheWay, stepped]
  | cons first rest inductionHypothesis =>
      obtain ⟨next, read, readsRest⟩ := PyResult.bind_eq_ok.mp reads
      simp only [List.cons_append, idsOnTheWay, read,
        inductionHypothesis readsRest, List.append_assoc]

theorem readObjectAt_append
    {place : List (Step F)}
    {object last : PyObject F}
    (reads : readObjectAt place object = .ok last)
    (step : Step F) :
    readObjectAt (place ++ [step]) object = step.readObject last := by
  induction place generalizing object with
  | nil =>
      cases reads
      simp only [List.nil_append, readObjectAt]
      cases step.readObject last <;> rfl
  | cons first rest inductionHypothesis =>
      obtain ⟨next, read, readsRest⟩ := PyResult.bind_eq_ok.mp reads
      simp only [List.cons_append, readObjectAt, read]
      exact inductionHypothesis readsRest

/-- What was recorded are the objects on the way to an object. -/
def TracedObject.IsComplete (traced : TracedObject F) (model : PyObject F) : Prop :=
  readObjectAt traced.place model = .ok traced.obj ∧
    traced.objIdTrace = idsOnTheWay traced.place model

theorem TracedObject.IsComplete.step
    {traced next : TracedObject F}
    {model : PyObject F}
    {step : Step F}
    (complete : traced.IsComplete model)
    (stepped : traced.step step = .ok next) :
    next.IsComplete model := by
  obtain ⟨child, read, built⟩ := PyResult.bind_eq_ok.mp stepped
  cases built
  refine ⟨(readObjectAt_append complete.1 step).trans read, ?_⟩
  rw [idsOnTheWay_append complete.1 read, ← complete.2]

/-- A path whose objects are all recorded: a static one, or one with single keys. -/
def recordsWholePath : DraftPath F → Bool
  | .name value => isRootName value
  | .getAttr target _ => recordsWholePath target
  | .arrayGetItem target _ => recordsWholePath target
  | .dictGetItem target _ => recordsWholePath target
  | .getItem target _ => recordsWholePath target
  | .getattr target _ => recordsWholePath target
  | .getItemPath _ _ => false
  | .where _ _ _ => false

/-- Every object on the way of such a path is recorded. -/
theorem isComplete_of_resolveTraced
    {model : PyObject F}
    {path : DraftPath F}
    {found : TracedObject F}
    (records : recordsWholePath path = true)
    (resolved : resolveTraced model path = .ok found) :
    found.IsComplete model := by
  induction path generalizing found with
  | name value =>
      simp only [recordsWholePath] at records
      simp only [resolveTraced, records, ↓reduceIte] at resolved
      cases resolved
      exact ⟨rfl, rfl⟩
  | getAttr target value inductionHypothesis =>
      obtain ⟨first, resolvedTarget, stepped⟩ := PyResult.bind_eq_ok.mp resolved
      exact (inductionHypothesis records resolvedTarget).step stepped
  | arrayGetItem target value inductionHypothesis =>
      obtain ⟨first, resolvedTarget, stepped⟩ := PyResult.bind_eq_ok.mp resolved
      exact (inductionHypothesis records resolvedTarget).step stepped
  | dictGetItem target value inductionHypothesis =>
      obtain ⟨first, resolvedTarget, stepped⟩ := PyResult.bind_eq_ok.mp resolved
      exact (inductionHypothesis records resolvedTarget).step stepped
  | getItem target key inductionHypothesis =>
      obtain ⟨first, resolvedTarget, rest⟩ := PyResult.bind_eq_ok.mp resolved
      obtain ⟨k, _, stepped⟩ := PyResult.bind_eq_ok.mp rest
      exact (inductionHypothesis records resolvedTarget).step stepped
  | getattr target key inductionHypothesis =>
      obtain ⟨first, resolvedTarget, rest⟩ := PyResult.bind_eq_ok.mp resolved
      obtain ⟨k, _, stepping⟩ := PyResult.bind_eq_ok.mp rest
      obtain ⟨step, _, stepped⟩ := PyResult.bind_eq_ok.mp stepping
      exact (inductionHypothesis records resolvedTarget).step stepped
  | getItemPath target path =>
      cases records
  | «where» cond x y =>
      cases records

/-! ## Changes at a place -/

theorem keeps_writeObject
    (step : Step F)
    (object child : PyObject F) :
    Keeps (· = child) object (step.writeObject object child) := by
  cases step with
  | attr name =>
      simp only [Step.writeObject]
      split
      · rename_i set
        exact keeps_setAttr set
      · exact Keeps.refl _
  | item index =>
      exact keeps_replaceItem object index child

theorem mem_children_of_readObject
    {step : Step F}
    {object child : PyObject F}
    (read : step.readObject object = .ok child) :
    child ∈ object.children ∨ child.ids = [] := by
  cases step with
  | attr name =>
      exact .inl (mem_children_of_getAttr read)
  | item index =>
      exact mem_children_of_getItem read

/-- After a change at a place, objects are on the way, new, or as they were. -/
theorem inside_of_updateObjectAt
    {place : List (Step F)}
    {change : ObjectMutation F}
    {held after : Held F}
    (evolves : ∀ last result,
      readObjectAt place held.obj = .ok last →
      change ⟨last, held.next⟩ = .ok () result →
      Evolves held.next last result.obj ∧ held.next ≤ result.next)
    (changed : updateObjectAt place change held = .ok () after) :
    held.next ≤ after.next ∧
      ∀ part, Inside part after.obj → ∀ id, part.id? = some id →
        id ∈ idsOnTheWay place held.obj ∨ held.next ≤ id ∨
          Inside part held.obj := by
  induction place generalizing held after with
  | nil =>
      obtain ⟨moves, grows⟩ := evolves held.obj after rfl changed
      refine ⟨grows, ?_⟩
      intro part inside id identified
      cases inside with
      | self =>
          rw [moves.id?] at identified
          exact .inl (by rw [idsOnTheWay, identified]; exact List.mem_singleton.mpr rfl)
      | @held child _ holds inside =>
          have known := moves.known part ⟨child, holds, inside⟩ id identified
          exact .inr (known.imp_right HeldIn.inside)
  | cons step rest inductionHypothesis =>
      simp only [updateObjectAt] at changed
      split at changed
      · cases changed
      · rename_i child read
        split at changed
        · rename_i result updated
          cases changed
          have evolvesRest : ∀ last result,
              readObjectAt rest child = .ok last →
              change ⟨last, held.next⟩ = .ok () result →
              Evolves held.next last result.obj ∧ held.next ≤ result.next := by
            intro last result reads changedLast
            refine evolves last result ?_ changedLast
            simp only [readObjectAt, read]
            exact reads
          obtain ⟨grows, insideChild⟩ :=
            @inductionHypothesis ⟨child, held.next⟩ result evolvesRest updated
          refine ⟨grows, ?_⟩
          have keeps := keeps_writeObject step held.obj result.obj
          intro part inside id identified
          simp only [idsOnTheWay, read]
          cases inside with
          | self =>
              rw [keeps.id?] at identified
              exact .inl (List.mem_append_left _
                (by rw [identified]; exact List.mem_singleton.mpr rfl))
          | @held other _ holds inside =>
              rcases keeps.children other holds with wasHeld | isChanged
              · exact .inr (.inr (.held wasHeld inside))
              · subst isChanged
                rcases insideChild part inside id identified with
                  onTheWay | isNew | wasInside
                · exact .inl (List.mem_append_right _ onTheWay)
                · exact .inr (.inl isNew)
                · rcases mem_children_of_readObject read with isHeld | isEmpty
                  · exact .inr (.inr (.held isHeld wasInside))
                  · have member :=
                      wasInside.ids_subset (mem_ids_of_id? identified)
                    simp only [isEmpty] at member
                    cases member
        · cases changed

/-! ## Ops and lists of ops -/

/-- Every object that an op changes is recorded with the objects that hold it. -/
def RecordsChange (state : TraceState F) (op : DraftUpdateOp F) : Prop :=
  recordsWholePath op.node = true ∧
    ∀ found,
      resolveTraced state.model op.node = .ok found →
      KeepsLists op.data found.obj

/-- Each op of a list records its change, in the state that it is applied to. -/
def RecordsChanges
    (ignoreExc : Bool) :
    List (DraftUpdateOp F) → TraceState F → Prop
  | [], _ => True
  | op :: rest, state =>
      RecordsChange state op ∧
        ∀ after,
          applyOneTracedOp ignoreExc op state = .ok () after →
          RecordsChanges ignoreExc rest after

/-- The objects of a later model are recorded, new, or objects of an earlier one. -/
structure Covers (before after : TraceState F) : Prop where
  recorded : before.changedParentObjIds ⊆ after.changedParentObjIds
  grows : before.next ≤ after.next
  inside : ∀ part, Inside part after.model → ∀ id, part.id? = some id →
    id ∈ after.changedParentObjIds ∨ before.next ≤ id ∨ Inside part before.model

namespace Covers

omit [PyBuiltins F] in
theorem refl (state : TraceState F) : Covers state state where
  recorded := List.Subset.refl _
  grows := Nat.le_refl _
  inside _ inside _ _ := .inr (.inr inside)

omit [PyBuiltins F] in
theorem trans
    {before middle after : TraceState F}
    (first : Covers before middle)
    (second : Covers middle after) :
    Covers before after where
  recorded := List.Subset.trans first.recorded second.recorded
  grows := Nat.le_trans first.grows second.grows
  inside part inside id identified := by
    rcases second.inside part inside id identified with
      isRecorded | isNew | wasInside
    · exact .inl isRecorded
    · exact .inr (.inl (Nat.le_trans first.grows isNew))
    · rcases first.inside part wasInside id identified with isRecorded | older
      · exact .inl (second.recorded isRecorded)
      · exact .inr older

end Covers

/-- An op that records its change covers it. -/
theorem covers_applyOneTracedOp
    {ignoreExc : Bool}
    {op : DraftUpdateOp F}
    {state after : TraceState F}
    (records : RecordsChange state op)
    (applied : applyOneTracedOp ignoreExc op state = .ok () after) :
    Covers state after := by
  unfold applyOneTracedOp at applied
  split at applied
  · split at applied
    · cases applied
      exact .refl _
    · cases applied
  · rename_i found resolved
    obtain ⟨reads, complete⟩ := isComplete_of_resolveTraced records.1 resolved
    simp only at applied
    split at applied
    · cases applied
    · split at applied
      · rename_i held changed
        cases applied
        have changes := @inside_of_updateObjectAt _ _ _ _ _ _ (by
          intro last result readsLast changedLast
          cases reads.symm.trans readsLast
          exact evolves_applyObjectOp (records.2 found resolved) changedLast) changed
        refine ⟨List.subset_append_left _ _, changes.1, ?_⟩
        intro part inside id identified
        refine (changes.2 part inside id identified).imp_left fun onTheWay => ?_
        exact List.mem_append_right _ (complete ▸ onTheWay)
      · cases applied

theorem covers_applyTracedOps
    {ignoreExc : Bool}
    {ops : List (DraftUpdateOp F)}
    {state after : TraceState F}
    (records : RecordsChanges ignoreExc ops state)
    (applied : applyTracedOps ignoreExc ops state = .ok () after) :
    Covers state after := by
  induction ops generalizing state with
  | nil =>
      cases applied
      exact .refl _
  | cons op rest inductionHypothesis =>
      obtain ⟨_, middle, first, others⟩ := Computation.bind_eq_ok.mp applied
      exact (covers_applyOneTracedOp records.1 first).trans
        (inductionHypothesis (records.2 middle first) others)

end Ops

end TensorPC.Draft
