import TensorPC.Pmql.Query

namespace TensorPC.Pmql

/-!
# When the two engines agree

Both engines are compared with the traces that the items select.  Going down
level by level selects the traces of the items; filtering the paths of all
leaves selects those leaves that lie at or below the end of such a trace.
-/

variable {M : Type} {torch : QueryItem → M → PyResult (List M)}

/-! ## The level engine -/

/-- Going down level by level reaches the ends of the selected traces, in their order. -/
theorem doQueryNoDoubleStar_modules
    {items : List QueryItem}
    {trees : List (ModuleTree M)}
    (isLevel : ∀ item ∈ items, item.isLevel = true)
    (free : ∀ item ∈ items, item.reserved? = none)
    (wellFormed : ∀ tree ∈ trees, WellFormed tree) :
    doQueryNoDoubleStar torch items (trees.map .module) =
      .ok ((trees.flatMap fun tree => (selected items tree).map (endOf tree)).map .module) := by
  induction items generalizing trees with
  | nil =>
      simp [doQueryNoDoubleStar, selected]
  | cons item rest inductionHypothesis =>
      have stepped :
          (trees.map Value.module).mapM (stepValue torch item) =
            .ok (trees.map fun tree =>
              (tree.children.filter item.selects).map fun entry => .module entry.2) := by
        rw [List.mapM_map]
        refine PyResult.mapM_of_forall fun tree member => ?_
        exact congrArg Except.ok (stepModule_eq (wellFormed tree member)
          (isLevel item List.mem_cons_self) (free item List.mem_cons_self))
      have below :=
        @inductionHypothesis
          (trees.flatMap fun tree => (tree.children.filter item.selects).map Prod.snd)
          (fun other member => isLevel other (List.mem_cons_of_mem _ member))
          (fun other member => free other (List.mem_cons_of_mem _ member))
          (by
            intro child member
            obtain ⟨tree, isTree, inTree⟩ := List.mem_flatMap.mp member
            obtain ⟨entry, isChild, rfl⟩ := List.mem_map.mp inTree
            exact (wellFormed tree isTree).child (List.mem_filter.mp isChild).1)
      unfold doQueryNoDoubleStar
      rw [stepped]
      change doQueryNoDoubleStar torch rest _ = _
      have sameItems :
          (trees.map fun tree =>
              (tree.children.filter item.selects).map fun entry => Value.module entry.2).flatten =
            (trees.flatMap fun tree =>
              (tree.children.filter item.selects).map Prod.snd).map Value.module := by
        rw [List.map_flatMap]
        simp [List.flatMap, Function.comp_def]
      rw [sameItems, below]
      simp [selected, List.flatMap_assoc, List.flatMap_map, List.map_flatMap, Function.comp_def]

/-! ## The paths of the leaves -/

/-- The leaves whose traces the items select lie below the ends of the selected traces. -/
theorem leaves_filter_isSelected
    (items : List QueryItem)
    (tree : ModuleTree M) :
    (tree.leaves.filter fun trace =>
        decide (items.length ≤ trace.length) && trace.isSelected items) =
      (selected items tree).flatMap fun trace =>
        (endOf tree trace).leaves.map (trace ++ ·) := by
  induction items generalizing tree with
  | nil =>
      simp [selected, Trace.isSelected]
  | cons item rest inductionHypothesis =>
      rw [leaves_eq tree]
      split
      · next noChildren =>
          simp [selected, noChildren]
      · have below :
            ∀ entry : String × ModuleTree M,
              ((entry.2.leaves.map (entry :: ·)).filter fun trace =>
                  decide ((item :: rest).length ≤ trace.length) &&
                    Trace.isSelected (item :: rest) trace) =
                if item.selects entry then
                  ((selected rest entry.2).flatMap fun trace =>
                    (endOf entry.2 trace).leaves.map (trace ++ ·)).map (entry :: ·)
                else
                  [] := by
          intro entry
          rw [List.filter_map, ← inductionHypothesis entry.2]
          cases chosen : item.selects entry with
          | false =>
              simp [Function.comp_def, Trace.isSelected, chosen]
          | true =>
              simp [Function.comp_def, Trace.isSelected, chosen]
        rw [List.filter_flatMap]
        simp only [below, selected]
        generalize tree.children = children
        induction children with
        | nil =>
            rfl
        | cons entry others ofOthers =>
            rw [List.flatMap_cons, ofOthers, List.filter_cons]
            cases chosen : item.selects entry with
            | false =>
                simp
            | true =>
                simp [List.flatMap_map, List.map_flatMap, Function.comp_def]

theorem length_of_mem_selected
    {items : List QueryItem}
    {tree : ModuleTree M}
    {trace : Trace M}
    (member : trace ∈ selected items tree) :
    trace.length = items.length := by
  induction items generalizing tree trace with
  | nil =>
      rw [List.mem_singleton.mp member]
      rfl
  | cons item rest inductionHypothesis =>
      obtain ⟨entry, _, below⟩ := List.mem_flatMap.mp member
      obtain ⟨tail, isSelected, rfl⟩ := List.mem_map.mp below
      simpa using inductionHypothesis isSelected

theorem wellFormed_endOf_selected
    {items : List QueryItem}
    {tree : ModuleTree M}
    {trace : Trace M}
    (wellFormed : WellFormed tree)
    (member : trace ∈ selected items tree) :
    WellFormed (endOf tree trace) := by
  induction items generalizing tree trace with
  | nil =>
      rw [List.mem_singleton.mp member]
      exact wellFormed
  | cons item rest inductionHypothesis =>
      obtain ⟨entry, isChild, below⟩ := List.mem_flatMap.mp member
      obtain ⟨tail, isSelected, rfl⟩ := List.mem_map.mp below
      rw [endOf_cons]
      exact inductionHypothesis (wellFormed.child (List.mem_filter.mp isChild).1) isSelected

theorem children_endOf_leaf
    {tree : ModuleTree M}
    {trace : Trace M}
    (member : trace ∈ tree.leaves) :
    (endOf tree trace).children = [] := by
  induction trace generalizing tree with
  | nil =>
      rw [leaves_eq] at member
      split at member
      · assumption
      · simp at member
  | cons entry rest inductionHypothesis =>
      rw [leaves_eq] at member
      split at member
      · simp at member
      obtain ⟨child, _, below⟩ := List.mem_flatMap.mp member
      obtain ⟨tail, isLeaf, same⟩ := List.mem_map.mp below
      obtain ⟨rfl, rfl⟩ := List.cons.inj same
      rw [endOf_cons]
      exact inductionHypothesis isLeaf

/-- On a path of modules every item that stands for one level is compared. -/
theorem validatePath_modules
    {items : List QueryItem}
    (isLevel : ∀ item ∈ items, item.isLevel = true)
    (trace : Trace M) :
    validatePath (trace.map fun entry => (entry.1, .module entry.2)) items =
      .ok (trace.isSelected items) := by
  induction items generalizing trace with
  | nil =>
      cases trace <;> simp [validatePath, Trace.isSelected]
  | cons item rest inductionHypothesis =>
      cases trace with
      | nil =>
          rfl
      | cons entry tail =>
          have compared :
              validateItem (entry.1, Value.module entry.2) item = .ok (item.selects entry) := by
            cases item with
            | doubleGlob =>
                cases isLevel _ List.mem_cons_self
            | identity =>
                cases isLevel _ List.mem_cons_self
            | plain id =>
                rfl
            | type id =>
                rfl
            | index index isAll =>
                rfl
            | partialGlob glob =>
                rfl
          have further :=
            inductionHypothesis (fun other member => isLevel other (List.mem_cons_of_mem _ member))
              tail
          rw [List.map_cons, validatePath, compared]
          cases chosen : item.selects entry with
          | false =>
              simp [Trace.isSelected, chosen]
              rfl
          | true =>
              refine further.trans ?_
              simp [Trace.isSelected, chosen]

/-- Looking at the flattened values one by one, when attributes are skipped. -/
theorem mapM_values
    {f : List String × Value M → PyResult (List (Value M))}
    {found : Trace M → List (Value M)}
    {tree : ModuleTree M}
    {values : List (List String × Value M)}
    {traces : List (Trace M)}
    (modules :
      values.filterMap (fun leaf => leaf.2.module?.map (leaf.1, ·)) =
        traces.map fun trace => (trace.map Prod.fst, endOf tree trace))
    (skips : ∀ path value, f (path, .reserved value) = .ok [])
    (finds :
      ∀ trace ∈ traces,
        f (trace.map Prod.fst, .module (endOf tree trace)) = .ok (found trace)) :
    ∃ results, values.mapM f = .ok results ∧ results.flatten = traces.flatMap found := by
  induction values generalizing traces with
  | nil =>
      have none : traces = [] := by
        simpa using modules.symm
      subst none
      exact ⟨[], rfl, rfl⟩
  | cons leaf rest inductionHypothesis =>
      obtain ⟨path, value⟩ := leaf
      cases value with
      | reserved value =>
          obtain ⟨results, ofRest, same⟩ := inductionHypothesis modules finds
          refine ⟨[] :: results, ?_, same⟩
          rw [List.mapM_cons, skips, ofRest]
          rfl
      | module child =>
          cases traces with
          | nil =>
              cases modules
          | cons trace traces =>
              obtain ⟨isFirst, inRest⟩ := List.cons.inj modules
              obtain ⟨rfl, rfl⟩ := Prod.mk.inj isFirst
              obtain ⟨results, ofRest, same⟩ := inductionHypothesis inRest
                fun other member => finds other (List.mem_cons_of_mem _ member)
              refine ⟨found trace :: results, ?_, ?_⟩
              · rw [List.mapM_cons, finds trace List.mem_cons_self, ofRest]
                rfl
              · rw [List.flatten_cons, same, List.flatMap_cons]

/-! ## What the engines return -/

namespace SingleQuery

/-- Whether the query has a double glob. -/
def hasDoubleStar (query : SingleQuery) : Bool :=
  decide (doubleStarIdx query.items < query.items.length)

/-- The items before the double glob. -/
def before (query : SingleQuery) : List QueryItem :=
  query.items.take (doubleStarIdx query.items)

/-- The items after the double glob. -/
def after (query : SingleQuery) : List QueryItem :=
  query.items.drop (doubleStarIdx query.items + 1)

theorem doubleStarIdx_le (query : SingleQuery) :
    doubleStarIdx query.items ≤ query.items.length :=
  List.findIdx_le_length

theorem length_before (query : SingleQuery) :
    query.before.length = doubleStarIdx query.items :=
  List.length_take_of_le query.doubleStarIdx_le

theorem length_after (query : SingleQuery) :
    query.after.length = lengthAfterDoubleStar query.items := by
  rw [SingleQuery.after, List.length_drop, lengthAfterDoubleStar, Nat.sub_sub]

theorem isLevel_before
    {query : SingleQuery}
    (noIdentity : ∀ item ∈ query.items, item.isIdentity = false) :
    ∀ item ∈ query.before, item.isLevel = true := by
  intro item member
  have isGlob : item.isDoubleGlob = false := by
    obtain ⟨index, inRange, rfl⟩ := List.mem_iff_getElem.mp member
    have early : index < doubleStarIdx query.items := by
      rw [← query.length_before]
      exact inRange
    have notYet := List.not_of_lt_findIdx early
    simpa [SingleQuery.before] using notYet
  simp [QueryItem.isLevel, isGlob, noIdentity item (List.mem_of_mem_take member)]

/-- The items after the double glob stand for one level each. -/
theorem isLevel_after
    {query : SingleQuery}
    (noIdentity : ∀ item ∈ query.items, item.isIdentity = false) :
    ∀ item ∈ query.after, item.isLevel = true := by
  intro item member
  have isGlob : item.isDoubleGlob = false := by
    have inRange : doubleStarIdx query.items < query.items.length := by
      by_contra outside
      have nothing : query.after = [] :=
        List.drop_eq_nil_of_le (Nat.le_succ_of_le (Nat.not_lt.mp outside))
      rw [nothing] at member
      cases member
    have once := query.oneDoubleGlob
    have found : (query.items.get ⟨doubleStarIdx query.items, inRange⟩).isDoubleGlob = true :=
      List.findIdx_getElem (w := inRange)
    rw [List.get_eq_getElem] at found
    rw [← List.take_append_drop (doubleStarIdx query.items) query.items,
      List.drop_eq_getElem_cons inRange, List.filter_append, List.filter_cons, found,
      List.length_append, if_pos rfl, List.length_cons] at once
    by_contra isGlob
    have another :
        0 < (query.after.filter QueryItem.isDoubleGlob).length :=
      List.length_pos_of_mem (List.mem_filter.mpr ⟨member, by simpa using isGlob⟩)
    unfold SingleQuery.after at another
    omega
  simp [QueryItem.isLevel, isGlob, noIdentity item (List.mem_of_mem_drop member)]

end SingleQuery

/-- Whether the items select the last modules of a trace. -/
def Trace.endsSelected (items : List QueryItem) (trace : Trace M) : Bool :=
  decide (items.length ≤ trace.length) &&
    Trace.isSelected items (lastItems items.length trace)

/-- What ends a long enough trace ends every trace that continues to it. -/
theorem endsSelected_append
    {items : List QueryItem}
    {first second : Trace M}
    (long : items.length ≤ second.length) :
    Trace.endsSelected items (first ++ second : Trace M) =
      Trace.endsSelected items second := by
  cases items with
  | nil =>
      simp [Trace.endsSelected, Trace.isSelected]
  | cons item rest =>
      have total : (item :: rest).length ≤ (first ++ second).length := by
        rw [List.length_append]
        exact Nat.le_add_left_of_le long
      have same :
          lastItems (item :: rest).length (first ++ second) =
            lastItems (item :: rest).length second := by
        have behind :
            (first ++ second).length - (item :: rest).length =
              first.length + (second.length - (item :: rest).length) := by
          rw [List.length_append, Nat.add_sub_assoc long]
        unfold lastItems
        rw [if_neg (List.length_pos_of_mem List.mem_cons_self).ne',
          if_neg (List.length_pos_of_mem List.mem_cons_self).ne', behind,
          List.drop_append, List.drop_eq_nil_of_le (Nat.le_add_right _ _), List.nil_append,
          Nat.add_sub_cancel_left]
      rw [Trace.endsSelected, Trace.endsSelected, same, decide_eq_true long,
        decide_eq_true total]

theorem map_lastItems
    (length : Nat)
    (trace : Trace M) :
    lastItems length (trace.map fun entry => (entry.1, Value.module entry.2)) =
      (lastItems length trace).map fun entry => (entry.1, Value.module entry.2) := by
  unfold lastItems
  split
  · rfl
  · rw [List.length_map, List.map_drop]

theorem isSelected_take
    (items : List QueryItem)
    (trace : Trace M) :
    Trace.isSelected items (trace.take items.length) = Trace.isSelected items trace := by
  induction items generalizing trace with
  | nil =>
      simp [Trace.isSelected]
  | cons item rest inductionHypothesis =>
      cases trace with
      | nil =>
          rfl
      | cons entry tail =>
          exact congrArg (item.selects entry && ·) (inductionHypothesis tail)

/-- The leaves below one module whose last modules are selected. -/
theorem mapM_leafBelow
    {query : SingleQuery}
    {tree : ModuleTree M}
    (noIdentity : ∀ item ∈ query.items, item.isIdentity = false)
    (wellFormed : WellFormed tree) :
    ∃ results,
      tree.flatten.mapM (leafBelow query.items (.module tree)) = .ok results ∧
        results.flatten =
          (tree.leaves.filter (Trace.endsSelected query.after)).map fun trace =>
            .module (endOf tree trace) := by
  have found := @mapM_values M (leafBelow query.items (.module tree))
    (fun trace => if Trace.endsSelected query.after trace then [.module (endOf tree trace)] else [])
    tree tree.flatten tree.leaves (modules_flatten tree)
    (by
      intro path value
      rfl)
    (by
      intro trace member
      have followed := followPath_of_mem_leaves wellFormed member
      have compared := validatePath_modules (query.isLevel_after noIdentity)
        (lastItems query.after.length trace)
      rw [← map_lastItems, SingleQuery.length_after] at compared
      simp only [leafBelow, Value.module?, Option.isSome_some, Bool.true_and, List.length_map,
        decide_eq_true_eq, followed, Trace.endsSelected, SingleQuery.length_after]
      split
      · next long =>
          rw [decide_eq_true long, Bool.true_and]
          change (validatePath _ query.after >>= fun isValid => Except.ok _) = _
          rw [compared]
          rfl
      · next short =>
          simp [short]
          rfl)
  obtain ⟨results, looked, same⟩ := found
  refine ⟨results, looked, same.trans ?_⟩
  induction tree.leaves with
  | nil =>
      rfl
  | cons trace rest inductionHypothesis =>
      rw [List.flatMap_cons, inductionHypothesis, List.filter_cons]
      split <;> simp

/-- The leaves that the second engine returns. -/
theorem doQueryOnModuleDictV2_leaves
    {query : SingleQuery}
    {tree : ModuleTree M}
    (noIdentity : ∀ item ∈ query.items, item.isIdentity = false)
    (wellFormed : WellFormed tree) :
    doQueryOnModuleDictV2 tree query =
      .ok ((tree.leaves.filter fun trace =>
          (decide (query.before.length + query.after.length ≤ trace.length) &&
            Trace.isSelected query.after (lastItems query.after.length trace)) &&
          Trace.isSelected query.before trace).map fun trace => .module (endOf tree trace)) := by
  have found := @mapM_values M (leafOfTree query.items tree)
    (fun trace =>
      if (decide (query.before.length + query.after.length ≤ trace.length) &&
          Trace.isSelected query.after (lastItems query.after.length trace)) &&
          Trace.isSelected query.before trace then
        [.module (endOf tree trace)]
      else
        [])
    tree tree.flatten tree.leaves (modules_flatten tree)
    (by
      intro path value
      unfold leafOfTree
      split
      · next isModule =>
          simp [Value.module?] at isModule
      · rfl)
    (by
      intro trace member
      have followed := followPath_of_mem_leaves wellFormed member
      have compared := validatePath_modules (query.isLevel_after noIdentity)
        (lastItems query.after.length trace)
      have comparedBefore := validatePath_modules (query.isLevel_before noIdentity)
        (trace.take query.before.length)
      rw [← map_lastItems, SingleQuery.length_after] at compared
      rw [isSelected_take, List.map_take, SingleQuery.length_before] at comparedBefore
      simp only [leafOfTree, Value.module?, Option.isSome_some, Bool.and_true, List.length_map,
        decide_eq_true_eq, followed, SingleQuery.length_after, SingleQuery.length_before]
      split
      · next long =>
          rw [decide_eq_true long, Bool.true_and]
          change (validatePath _ query.before >>= fun isValidBefore =>
            validatePath _ query.after >>= fun isValid => Except.ok _) = _
          rw [comparedBefore, compared]
          change Except.ok (if _ then _ else _) = _
          rw [Bool.and_comm]
      · next short =>
          simp [short]
          rfl)
  obtain ⟨results, looked, same⟩ := found
  unfold doQueryOnModuleDictV2
  rw [looked]
  refine congrArg Except.ok (same.trans ?_)
  induction tree.leaves with
  | nil =>
      rfl
  | cons trace rest inductionHypothesis =>
      rw [List.flatMap_cons, inductionHypothesis, List.filter_cons]
      split <;> simp

/-- Both parts of a query are decided apart: the first modules of a leaf are a selected
trace, and what follows it ends as the items after the double glob say. -/
theorem leaves_filter_both
    (before after : List QueryItem)
    (tree : ModuleTree M) :
    (tree.leaves.filter fun trace =>
        (decide (before.length + after.length ≤ trace.length) &&
          Trace.isSelected after (lastItems after.length trace)) &&
        Trace.isSelected before trace) =
      (selected before tree).flatMap fun trace =>
        ((endOf tree trace).leaves.filter (Trace.endsSelected after)).map (trace ++ ·) := by
  have ofBefore :
      (tree.leaves.filter fun trace =>
          (decide (before.length + after.length ≤ trace.length) &&
            Trace.isSelected after (lastItems after.length trace)) &&
          Trace.isSelected before trace) =
        (tree.leaves.filter fun trace =>
          decide (before.length ≤ trace.length) && trace.isSelected before).filter
            fun trace =>
              decide (before.length + after.length ≤ trace.length) &&
                Trace.isSelected after (lastItems after.length trace) := by
    rw [List.filter_filter]
    apply List.filter_congr
    intro trace _
    cases long : decide (before.length + after.length ≤ trace.length) with
    | false =>
        rfl
    | true =>
        have first : before.length ≤ trace.length :=
          (Nat.le_add_right _ _).trans (of_decide_eq_true long)
        rw [decide_eq_true first, Bool.true_and, Bool.true_and]
  rw [ofBefore, leaves_filter_isSelected, List.filter_flatMap]
  apply List.flatMap_congr
  intro trace member
  rw [List.filter_map]
  refine congrArg (List.map _) (List.filter_congr fun further _ => ?_)
  have length := length_of_mem_selected member
  by_cases long : after.length ≤ further.length
  · have total : before.length + after.length ≤ (trace ++ further).length := by
      rw [List.length_append, length]
      exact Nat.add_le_add_left long _
    have whole : after.length ≤ (trace ++ further).length :=
      (Nat.le_add_left _ _).trans total
    rw [← endsSelected_append long, Trace.endsSelected, Function.comp_apply,
      decide_eq_true total, decide_eq_true whole]
  · have short : ¬ before.length + after.length ≤ (trace ++ further).length := by
      rw [List.length_append, length]
      omega
    rw [Function.comp_apply, Trace.endsSelected, decide_eq_false short, decide_eq_false long]
    rfl

theorem doQueryOnModuleDictV2_eq
    {query : SingleQuery}
    {tree : ModuleTree M}
    (noIdentity : ∀ item ∈ query.items, item.isIdentity = false)
    (wellFormed : WellFormed tree) :
    doQueryOnModuleDictV2 tree query =
      .ok (((selected query.before tree).flatMap fun trace =>
        ((endOf tree trace).leaves.filter (Trace.endsSelected query.after)).map
          fun further => .module (endOf (endOf tree trace) further))) := by
  rw [doQueryOnModuleDictV2_leaves noIdentity wellFormed, leaves_filter_both, List.map_flatMap]
  refine congrArg Except.ok (List.flatMap_congr fun trace _ => ?_)
  rw [List.map_map]
  exact List.map_congr_left fun further _ => congrArg Value.module (endOf_append _ _ _)

/-- The first engine on a query whose first items name no reserved key. -/
theorem doQueryOnModuleDict_eq
    {query : SingleQuery}
    {tree : ModuleTree M}
    (noIdentity : ∀ item ∈ query.items, item.isIdentity = false)
    (wellFormed : WellFormed tree)
    (free : ∀ item ∈ query.before, item.reserved? = none) :
    doQueryOnModuleDict torch tree query =
      .ok (if query.hasDoubleStar then
        (selected query.before tree).flatMap fun trace =>
          ((endOf tree trace).leaves.filter (Trace.endsSelected query.after)).map
            fun further => .module (endOf (endOf tree trace) further)
      else
        (selected query.before tree).map fun trace => .module (endOf tree trace)) := by
  have reached := @doQueryNoDoubleStar_modules M torch query.before [tree]
    (query.isLevel_before noIdentity) free
    (by
      intro other member
      rw [List.mem_singleton.mp member]
      exact wellFormed)
  rw [List.flatMap_cons, List.flatMap_nil, List.append_nil, List.map_map] at reached
  unfold doQueryOnModuleDict
  change (doQueryNoDoubleStar torch query.before [.module tree] >>= _) = _
  refine (congrArg (· >>= _) reached).trans ?_
  change (if query.hasDoubleStar && _ then _ else _) = _
  cases hasDoubleStar : query.hasDoubleStar with
  | false =>
      rfl
  | true =>
      have below :
          ∀ trace ∈ selected query.before tree,
            ((Value.module (endOf tree trace)).flatten.mapM
                (leafBelow query.items (.module (endOf tree trace))) >>= fun leaves =>
              pure leaves.flatten) =
              .ok (((endOf tree trace).leaves.filter (Trace.endsSelected query.after)).map
                fun further => Value.module (endOf (endOf tree trace) further)) := by
        intro trace member
        obtain ⟨results, looked, same⟩ :=
          mapM_leafBelow noIdentity (wellFormed_endOf_selected wellFormed member)
        change ((endOf tree trace).flatten.mapM _ >>= _) = _
        rw [looked, ← same]
        rfl
      cases traces : selected query.before tree with
      | nil =>
          rfl
      | cons trace rest =>
          rw [traces] at below
          have all :
              ((trace :: rest).map fun trace => Value.module (endOf tree trace)).mapM
                  (fun curItem =>
                    curItem.flatten.mapM (leafBelow query.items curItem) >>= fun leaves =>
                      pure leaves.flatten) =
                .ok ((trace :: rest).map fun trace =>
                  ((endOf tree trace).leaves.filter (Trace.endsSelected query.after)).map
                    fun further => Value.module (endOf (endOf tree trace) further)) := by
            rw [List.mapM_map]
            exact PyResult.mapM_of_forall below
          change (List.mapM _ (List.map _ (trace :: rest)) >>= _) = _
          refine (congrArg (· >>= _) all).trans ?_
          rfl

end TensorPC.Pmql
