import TensorPC.Draft.StoreAgreement

namespace TensorPC.Draft

/-!
# Updates in memory, all or nothing

`DraftFileStoreBackendInMemory.update` hands the stored object itself to the
ops, and an op that raises leaves what was changed before.  The update is all or
nothing exactly when the first op that raises does so on an unchanged document.
-/

variable {F : Type} [PyJson F]

/-! ## Ops in order -/

/-- The document after one op. -/
def DraftUpdateOp.apply
    (op : DraftUpdateOp F)
    (doc : Value F) :
    PyResult (Value F) :=
  match op.data with
  | .rootAssign value => .ok value
  | .rootInplaceOp inplaceOp value => doc.inplaceArith inplaceOp.arithOp value
  | _ =>
      match applyOneOpToJson op doc with
      | .ok _ after => .ok after
      | .error raised _ => .error raised

/-- The document after all ops, one after the other. -/
def applyInOrder : List (DraftUpdateOp F) → Value F → PyResult (Value F)
  | [], doc => .ok doc
  | op :: rest, doc => do
      let after ← op.apply doc
      applyInOrder rest after

/-- The document that the ops of an update start from. -/
def storedAt
    (data : Dict String (Value F))
    (path : String) :
    Value F :=
  (data.get? path).getD .none

/-- An update applies every op, or raises and leaves the stored document. -/
def UpdatesAtomically
    (data : Dict String (Value F))
    (path : String)
    (ops : List (DraftUpdateOp F)) :
    Prop :=
  match InMemory.update path ops data with
  | .ok _ after =>
      ∃ jsonOps result,
        ops.mapM DraftUpdateOp.roundTrip = .ok jsonOps ∧
        applyInOrder jsonOps (storedAt data path) = .ok result ∧
        after = data.set path result
  | .error _ after => after.get? path = data.get? path

/-! ## The root that ops are applied to -/

namespace RootState

omit [PyJson F] in
@[simp] theorem obj_changeInPlace
    (state : RootState F)
    (obj : Value F) :
    (state.changeInPlace obj).obj = obj := by
  unfold changeInPlace
  cases state.replaced with
  | none =>
      simp [RootState.obj]
  | some old =>
      rfl

omit [PyJson F] in
theorem obj_of_notReplaced
    {state : RootState F}
    (notReplaced : state.replaced = none) :
    state.obj = state.stored := by
  simp [RootState.obj, notReplaced]

end RootState

/-- Any other op changes the document by the op on its JSON form. -/
theorem apply_of_regular
    {op : DraftUpdateOp F}
    {doc : Value F}
    (notAssign : ∀ value, op.data = .rootAssign value → False)
    (notInplace : ∀ inplaceOp value, op.data = .rootInplaceOp inplaceOp value → False) :
    op.apply doc =
      match applyOneOpToJson op doc with
      | .ok _ after => .ok after
      | .error raised _ => .error raised := by
  unfold DraftUpdateOp.apply
  split
  · rename_i value isRootAssign
    exact (notAssign value isRootAssign).elim
  · rename_i inplaceOp value isRootInplace
    exact (notInplace inplaceOp value isRootInplace).elim
  · rfl

/-- An op that succeeds takes the root to the document after it. -/
theorem apply_of_applyRootOp
    {op : DraftUpdateOp F}
    {state after : RootState F}
    (applied : applyRootOp op state = .ok () after) :
    op.apply state.obj = .ok after.obj := by
  unfold applyRootOp at applied
  split at applied
  · rename_i value isRootAssign
    cases applied
    unfold DraftUpdateOp.apply
    rw [isRootAssign]
    rfl
  · rename_i inplaceOp value isRootInplace
    simp only [applyRootInplaceOp] at applied
    split at applied
    · cases applied
    · rename_i computed
      unfold DraftUpdateOp.apply
      rw [isRootInplace]
      split at applied
      · cases applied
        rw [RootState.obj_changeInPlace]
        exact computed
      · cases applied
        exact computed
  · rename_i notAssign notInplace
    rw [apply_of_regular notAssign notInplace]
    unfold applyRegularOp at applied
    split at applied
    · rename_i obj computed
      cases applied
      simp only [computed, RootState.obj_changeInPlace]
    · cases applied

/-- An op that raises has no document after it. -/
theorem apply_of_applyRootOp_error
    {op : DraftUpdateOp F}
    {state after : RootState F}
    {raised : PyError}
    (failed : applyRootOp op state = .error raised after) :
    op.apply state.obj = .error raised := by
  unfold applyRootOp at failed
  split at failed
  · cases failed
  · rename_i inplaceOp value isRootInplace
    simp only [applyRootInplaceOp] at failed
    split at failed
    · rename_i computed
      cases failed
      unfold DraftUpdateOp.apply
      rw [isRootInplace]
      exact computed
    · split at failed <;> cases failed
  · rename_i notAssign notInplace
    rw [apply_of_regular notAssign notInplace]
    unfold applyRegularOp at failed
    split at failed
    · cases failed
    · rename_i computed
      cases failed
      simp only [computed]

theorem applyInOrder_of_forM
    {ops : List (DraftUpdateOp F)}
    {state after : RootState F}
    (applied : ops.forM applyRootOp state = .ok () after) :
    applyInOrder ops state.obj = .ok after.obj := by
  induction ops generalizing state with
  | nil =>
      cases applied
      rfl
  | cons op rest inductionHypothesis =>
      obtain ⟨_, middle, first, applied⟩ := Computation.bind_eq_ok.mp applied
      simp only [applyInOrder, apply_of_applyRootOp first]
      exact inductionHypothesis applied

/-- Ops of which one raises have no document after all of them. -/
theorem applyInOrder_of_forM_error
    {ops : List (DraftUpdateOp F)}
    {state after : RootState F}
    {raised : PyError}
    (failed : ops.forM applyRootOp state = .error raised after) :
    applyInOrder ops state.obj = .error raised := by
  induction ops generalizing state with
  | nil =>
      cases failed
  | cons op rest inductionHypothesis =>
      cases first : applyRootOp op state with
      | ok value middle =>
          have continued : rest.forM applyRootOp middle = .error raised after :=
            (Computation.bind_of_ok first).symm.trans failed
          simp only [applyInOrder, apply_of_applyRootOp first]
          exact inductionHypothesis continued
      | error other middle =>
          have stopped := (Computation.bind_of_error first).symm.trans failed
          cases stopped
          simp only [applyInOrder, apply_of_applyRootOp_error first]
          rfl

/-! ## The stored document -/

/-- All ops succeed, one after the other. -/
def Succeed
    (ops : List (DraftUpdateOp F))
    (doc : Value F) :
    Prop :=
  ∃ result, applyInOrder ops doc = .ok result

/--
The first op that raises does so when the stored object, which has become
`current`, is `doc` again.  Once the root has been replaced, ops do not change
the stored object.
-/
def RaisesUnchanged
    (doc : Value F) :
    Value F → List (DraftUpdateOp F) → Prop
  | _, [] => True
  | current, op :: rest =>
      match op.data with
      | .rootAssign value => current = doc ∨ Succeed rest value
      | .rootInplaceOp inplaceOp value =>
          match current.inplaceArith inplaceOp.arithOp value with
          | .error _ => current = doc
          | .ok next =>
              if isChangedInPlace inplaceOp current then
                RaisesUnchanged doc next rest
              else
                current = doc ∨ Succeed rest next
      | _ =>
          match applyOneOpToJson op current with
          | .ok _ next => RaisesUnchanged doc next rest
          | .error _ partly => partly = doc

/-- An outcome that is a success, or an error with an unchanged stored object. -/
def KeepsOnError
    (doc : Value F) :
    EStateM.Result PyError (RootState F) PUnit → Prop
  | .ok _ _ => True
  | .error _ after => after.stored = doc

/-- Ops on a replaced root keep the stored object, and replacing it is recorded. -/
structure RootMoves (before after : RootState F) : Prop where
  stored :
    before.replaced.isSome = true →
      after.replaced.isSome = true ∧ after.stored = before.stored
  recorded :
    after.isRootChanged = false →
      after.replaced.isSome = before.replaced.isSome ∧
        before.isRootChanged = false

omit [PyJson F] in
instance : IsPreorder (RootState F) RootMoves where
  refl _ := ⟨fun replaced => ⟨replaced, rfl⟩, fun unchanged => ⟨rfl, unchanged⟩⟩
  trans _ _ _ first second :=
    { stored := fun replaced =>
        ⟨(second.stored (first.stored replaced).1).1,
          (second.stored (first.stored replaced).1).2.trans
            (first.stored replaced).2⟩
      recorded := fun unchanged =>
        ⟨(second.recorded unchanged).1.trans
            (first.recorded (second.recorded unchanged).2).1,
          (first.recorded (second.recorded unchanged).2).2⟩ }

omit [PyJson F] in
theorem rootMoves_changeInPlace
    (state : RootState F)
    (obj : Value F) :
    RootMoves state (state.changeInPlace obj) := by
  unfold RootState.changeInPlace
  cases replaced : state.replaced with
  | none =>
      refine ⟨fun isReplaced => ?_, fun unchanged => ⟨?_, unchanged⟩⟩
      · rw [replaced] at isReplaced
        cases isReplaced
      · simp only [replaced]
  | some old =>
      refine ⟨fun _ => ⟨rfl, rfl⟩, fun unchanged => ⟨?_, unchanged⟩⟩
      simp only [replaced, Option.isSome_some]

omit [PyJson F] in
theorem rootMoves_of_changed
    {before after : RootState F}
    (stored :
      before.replaced.isSome = true →
        after.replaced.isSome = true ∧ after.stored = before.stored)
    (changed : after.isRootChanged = true) :
    RootMoves before after where
  stored := stored
  recorded unchanged := by
    rw [changed] at unchanged
    cases unchanged

theorem rootMoves_applyRootOp (op : DraftUpdateOp F) :
    Computation.Moves RootMoves (applyRootOp op) := by
  intro state
  unfold Computation.stateAfter applyRootOp
  cases op.data with
  | rootAssign value =>
      exact rootMoves_of_changed (fun _ => ⟨rfl, rfl⟩) rfl
  | rootInplaceOp inplaceOp value =>
      have marked : RootMoves state { state with isRootChanged := true } :=
        rootMoves_of_changed (fun isReplaced => ⟨isReplaced, rfl⟩) rfl
      simp only [applyRootInplaceOp]
      split
      · rename_i computed
        split at computed
        · cases computed
        · split at computed
          · cases computed
            exact trans_of RootMoves marked
              (rootMoves_changeInPlace { state with isRootChanged := true } _)
          · cases computed
            exact rootMoves_of_changed (fun _ => ⟨rfl, rfl⟩) rfl
      · rename_i computed
        split at computed
        · cases computed
          exact marked
        · split at computed <;> cases computed
  | setAttr | delete | extend | slice | arraySet | arrayPop | arrayInsert
  | arrayRemove | containerClear | dictUpdate | assign | scalarInplaceOp =>
      simp only [applyRegularOp]
      cases applyOneOpToJson op state.obj with
      | ok value after =>
          exact rootMoves_changeInPlace state after
      | error raised after =>
          exact rootMoves_changeInPlace state after

/-- On a replaced root the stored object is kept, however the ops end. -/
theorem keepsOnError_of_replaced
    {ops : List (DraftUpdateOp F)}
    {state : RootState F}
    (doc : Value F)
    (replaced : state.replaced.isSome = true) :
    KeepsOnError doc (ops.forM applyRootOp state) ↔
      state.stored = doc ∨ Succeed ops state.obj := by
  have kept :=
    (Computation.Moves.forM rootMoves_applyRootOp ops state).stored replaced
  unfold Computation.stateAfter at kept
  cases ran : ops.forM applyRootOp state with
  | ok value after =>
      have succeeds : Succeed ops state.obj := ⟨_, applyInOrder_of_forM ran⟩
      simp [KeepsOnError, succeeds]
  | error raised after =>
      simp only [ran] at kept
      have fails : ¬ Succeed ops state.obj := by
        rintro ⟨result, succeeded⟩
        rw [applyInOrder_of_forM_error ran] at succeeded
        cases succeeded
      simp only [KeepsOnError, kept.2, fails, or_false]

theorem keepsOnError_cons_of_ok
    {op : DraftUpdateOp F}
    {rest : List (DraftUpdateOp F)}
    {state middle : RootState F}
    (doc : Value F)
    (first : applyRootOp op state = .ok () middle) :
    KeepsOnError doc ((op :: rest).forM applyRootOp state) ↔
      KeepsOnError doc (rest.forM applyRootOp middle) := by
  have continued :
      (op :: rest).forM applyRootOp state = rest.forM applyRootOp middle :=
    Computation.bind_of_ok first
  rw [continued]

theorem keepsOnError_cons_of_error
    {op : DraftUpdateOp F}
    {rest : List (DraftUpdateOp F)}
    {state middle : RootState F}
    {raised : PyError}
    (doc : Value F)
    (first : applyRootOp op state = .error raised middle) :
    KeepsOnError doc ((op :: rest).forM applyRootOp state) ↔
      middle.stored = doc := by
  have stopped :
      (op :: rest).forM applyRootOp state = .error raised middle :=
    Computation.bind_of_error first
  rw [stopped]
  rfl

theorem applyRegularOp_of_notReplaced
    {op : DraftUpdateOp F}
    {state : RootState F}
    (notReplaced : state.replaced = none) :
    applyRegularOp op state =
      match applyOneOpToJson op state.stored with
      | .ok _ next => .ok () { state with stored := next }
      | .error raised partly => .error raised { state with stored := partly } := by
  unfold applyRegularOp
  rw [RootState.obj_of_notReplaced notReplaced]
  cases applyOneOpToJson op state.stored with
  | ok value next =>
      simp only [RootState.changeInPlace, notReplaced]
  | error raised partly =>
      simp only [RootState.changeInPlace, notReplaced]

/-- How the ops end, from the document and the ops alone. -/
theorem keepsOnError_iff
    {ops : List (DraftUpdateOp F)}
    {state : RootState F}
    (doc : Value F)
    (notReplaced : state.replaced = none) :
    KeepsOnError doc (ops.forM applyRootOp state) ↔
      RaisesUnchanged doc state.stored ops := by
  induction ops generalizing state with
  | nil =>
      exact iff_of_true trivial trivial
  | cons op rest inductionHypothesis =>
      have root := RootState.obj_of_notReplaced notReplaced
      unfold RaisesUnchanged
      cases kind : op.data with
      | rootAssign value =>
          have first :
              applyRootOp op state =
                .ok () { state.replace value with isRootChanged := true } := by
            simp only [applyRootOp, kind]
          exact (keepsOnError_cons_of_ok doc first).trans
            (keepsOnError_of_replaced doc rfl)
      | rootInplaceOp inplaceOp value =>
          cases computed :
              state.stored.inplaceArith inplaceOp.arithOp value with
          | error raised =>
              have first :
                  applyRootOp op state =
                    .error raised { state with isRootChanged := true } := by
                simp only [applyRootOp, kind, applyRootInplaceOp]
                simp only [RootState.obj, notReplaced, Option.getD_none, computed]
              simp only [computed]
              exact (keepsOnError_cons_of_error doc first).trans Iff.rfl
          | ok next =>
              cases inPlace : isChangedInPlace inplaceOp state.stored with
              | true =>
                  have first :
                      applyRootOp op state =
                        .ok () { state with
                          stored := next, isRootChanged := true } := by
                    simp only [applyRootOp, kind, applyRootInplaceOp]
                    simp only [RootState.obj, notReplaced, Option.getD_none,
                      computed, inPlace, ↓reduceIte, RootState.changeInPlace]
                  simp only [computed, inPlace, ↓reduceIte]
                  refine (keepsOnError_cons_of_ok doc first).trans ?_
                  exact @inductionHypothesis
                    { state with stored := next, isRootChanged := true }
                    notReplaced
              | false =>
                  have first :
                      applyRootOp op state =
                        .ok () { state with
                          replaced := some next, isRootChanged := true } := by
                    simp only [applyRootOp, kind, applyRootInplaceOp]
                    simp only [RootState.obj, notReplaced, Option.getD_none,
                      computed, inPlace, Bool.false_eq_true, ↓reduceIte,
                      RootState.replace]
                  simp only [computed, inPlace, Bool.false_eq_true, ↓reduceIte]
                  exact (keepsOnError_cons_of_ok doc first).trans
                    (keepsOnError_of_replaced doc rfl)
      | setAttr | delete | extend | slice | arraySet | arrayPop | arrayInsert
      | arrayRemove | containerClear | dictUpdate | assign
      | scalarInplaceOp =>
          have regular : applyRootOp op state = applyRegularOp op state := by
            simp only [applyRootOp, kind]
          rw [applyRegularOp_of_notReplaced notReplaced] at regular
          cases applied : applyOneOpToJson op state.stored with
          | ok value next =>
              rw [applied] at regular
              exact (keepsOnError_cons_of_ok doc regular).trans
                (inductionHypothesis notReplaced)
          | error raised partly =>
              rw [applied] at regular
              exact keepsOnError_cons_of_error doc regular

/-! ## The update of a store -/

omit [PyJson F] in
theorem get?_changeInPlace
    (data : Dict String (Value F))
    (path : String)
    (value : Value F) :
    (InMemory.changeInPlace data path value).get? path = data.get? path ↔
      (data.get? path).getD value = value := by
  unfold InMemory.changeInPlace
  cases found : data.get? path with
  | none =>
      simp [Dict.contains, found]
  | some old =>
      simp only [Dict.contains, found, Option.isSome_some, ↓reduceIte,
        Dict.get?_set_self, Option.some.injEq, Option.getD_some]
      exact eq_comm

omit [PyJson F] in
/-- Whether the first op must assign the root does not depend on the message. -/
theorem requireRootAssign_eq_ok
    {message other : String}
    {obj : Value F}
    {ops : List (DraftUpdateOp F)}
    (required : requireRootAssign message obj ops = .ok ()) :
    requireRootAssign other obj ops = .ok () := by
  cases obj with
  | none =>
      cases ops with
      | nil =>
          cases required
      | cons op rest =>
          simp only [requireRootAssign] at *
          cases kind : op.data with
          | rootAssign value =>
              rfl
          | _ =>
              rw [kind] at required
              cases required
  | bool | int | float | str | list | tuple | dict | obj =>
      rfl

theorem raisesUnchanged_of_none
    {message : String}
    {doc : Value F}
    {ops : List (DraftUpdateOp F)}
    (required : requireRootAssign message .none ops = .ok ()) :
    RaisesUnchanged doc doc ops := by
  cases ops with
  | nil =>
      trivial
  | cons op rest =>
      simp only [requireRootAssign] at required
      unfold RaisesUnchanged
      cases kind : op.data with
      | rootAssign value =>
          exact Or.inl rfl
      | _ =>
          rw [kind] at required
          cases required

section Update

variable {data : Dict String (Value F)} {path : String} {ops jsonOps : List (DraftUpdateOp F)}

theorem update_of_roundTrip_error
    {raised : PyError}
    (tripped : ops.mapM DraftUpdateOp.roundTrip = .error raised) :
    InMemory.update path ops data = .error raised data := by
  simp only [InMemory.update, tripped]

/-- The message of an update without a document. -/
def notExistMessage (path : String) : String :=
  "path " ++ path ++ " not exist"

theorem update_of_required_error
    {raised : PyError}
    (tripped : ops.mapM DraftUpdateOp.roundTrip = .ok jsonOps)
    (required :
      requireRootAssign (notExistMessage path) (storedAt data path) jsonOps =
        .error raised) :
    InMemory.update path ops data = .error raised data := by
  unfold notExistMessage storedAt at required
  simp only [InMemory.update, tripped, required]

theorem applyOps_of_required
    {message : String}
    {obj : Value F}
    (required : requireRootAssign message obj jsonOps = .ok ()) :
    applyDraftUpdateOpsToJsonWithRoot jsonOps (.start obj) =
      jsonOps.forM applyRootOp (.start obj) := by
  have again :=
    @requireRootAssign_eq_ok F _
      "root object is None, first op must be root assign" _ _ required
  simp only [applyDraftUpdateOpsToJsonWithRoot, RootState.start, again]

/-- An update that gets to its ops runs them on the stored object. -/
theorem update_of_required
    (tripped : ops.mapM DraftUpdateOp.roundTrip = .ok jsonOps)
    (required :
      requireRootAssign (notExistMessage path) (storedAt data path) jsonOps =
        .ok ()) :
    InMemory.update path ops data =
      match jsonOps.forM applyRootOp (.start (storedAt data path)) with
      | .ok _ after =>
          if after.isRootChanged then
            .ok () (data.set path after.obj)
          else
            .ok () (InMemory.changeInPlace data path after.stored)
      | .error raised after =>
          .error raised (InMemory.changeInPlace data path after.stored) := by
  have started := applyOps_of_required required
  unfold notExistMessage storedAt at required
  unfold storedAt at started ⊢
  simp only [InMemory.update, tripped, required]
  rw [started]
  cases jsonOps.forM applyRootOp
      (RootState.start ((data.get? path).getD .none)) with
  | ok value after =>
      rfl
  | error raised after =>
      rfl

/-- An update that succeeds has applied every op in order. -/
theorem set_of_update_ok
    {after : RootState F}
    (required :
      requireRootAssign (notExistMessage path) (storedAt data path) jsonOps =
        .ok ())
    (ran :
      jsonOps.forM applyRootOp (.start (storedAt data path)) = .ok () after)
    (notChanged : after.isRootChanged = false) :
    InMemory.changeInPlace data path after.stored =
      data.set path after.stored := by
  have started :
      applyDraftUpdateOpsToJsonWithRoot jsonOps (.start (storedAt data path)) =
        .ok () after :=
    (applyOps_of_required required).trans ran
  have present : data.contains path = true := by
    by_contra missing
    have absent : data.get? path = none := by
      simpa [Dict.contains] using missing
    unfold storedAt at started
    rw [absent] at started
    rw [isRootChanged_of_none started] at notChanged
    cases notChanged
  simp only [InMemory.changeInPlace, present, ↓reduceIte]

/-- What holds of an update, by how the ops on the stored object end. -/
theorem updatesAtomically_of_required
    (tripped : ops.mapM DraftUpdateOp.roundTrip = .ok jsonOps)
    (required :
      requireRootAssign (notExistMessage path) (storedAt data path) jsonOps =
        .ok ()) :
    UpdatesAtomically data path ops ↔
      storedAt data path = .none ∨
        KeepsOnError (storedAt data path)
          (jsonOps.forM applyRootOp (.start (storedAt data path))) := by
  unfold UpdatesAtomically
  rw [update_of_required tripped required]
  cases ran : jsonOps.forM applyRootOp (.start (storedAt data path)) with
  | ok value after =>
      have result := applyInOrder_of_forM ran
      refine iff_of_true ?_ (Or.inr trivial)
      cases changed : after.isRootChanged with
      | true =>
          simp only [↓reduceIte, changed]
          exact ⟨jsonOps, after.obj, tripped, result, rfl⟩
      | false =>
          have moved :=
            (Computation.Moves.forM rootMoves_applyRootOp jsonOps
              (.start (storedAt data path))).recorded
          simp only [Computation.stateAfter, ran, changed, forall_const] at moved
          have root : after.obj = after.stored :=
            RootState.obj_of_notReplaced
              (Option.isNone_iff_eq_none.mp (Option.isSome_eq_false_iff.mp moved.1))
          simp only [Bool.false_eq_true, ↓reduceIte, changed]
          refine ⟨jsonOps, after.stored, tripped, ?_,
            set_of_update_ok required ran changed⟩
          rw [← root]
          exact result
  | error raised after =>
      refine (get?_changeInPlace data path after.stored).trans ?_
      have kept : storedAt data path = .none → after.stored = storedAt data path := by
        intro nothing
        have unchanged : RaisesUnchanged .none .none jsonOps :=
          raisesUnchanged_of_none (nothing ▸ required)
        rw [nothing] at ran ⊢
        have keeps :=
          (@keepsOnError_iff F _ jsonOps (.start .none) .none rfl).mpr unchanged
        rw [ran] at keeps
        exact keeps
      unfold KeepsOnError
      unfold storedAt at kept ⊢
      cases found : data.get? path with
      | none =>
          exact iff_of_true rfl (Or.inl rfl)
      | some doc =>
          rw [found] at kept
          refine ⟨fun same => Or.inr same.symm, fun holds => ?_⟩
          rcases holds with nothing | same
          · exact (kept nothing).symm
          · exact same.symm

end Update

/-- `n += 1` and `del missing`, on the root of a document. -/
def incrementThenDelete : List (DraftUpdateOp WholeFloat) :=
  [{ data := .scalarInplaceOp .add (.str "n") (.int 1), node := .name "" },
    { data := .delete [.str "missing"], node := .name "" }]

end TensorPC.Draft
