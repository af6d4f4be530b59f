import TensorPC.Pmql.EngineAgreement

namespace TensorPC.Pmql

/-!
# Reserved keys and the condition of agreement

An item may name a reserved key.  The level engine then goes on with the value
under that key, which is no module, while no path of a leaf has such a key.
Apart from that the engines differ on queries without a double glob: one
returns the selected modules, the other the leaves below them.
-/

variable {M : Type} {torch : QueryItem → M → PyResult (List M)}

/-- The items before the first that names a reserved key, that key, and the items after it. -/
def splitAtReserved : List QueryItem → Option (List QueryItem × String × List QueryItem)
  | [] => none
  | item :: rest =>
      match item.reserved? with
      | some key => some ([], key, rest)
      | none => (splitAtReserved rest).map fun found => (item :: found.1, found.2)

/-- The values that the level engine reaches under a reserved key. -/
def reservedValues
    (tree : ModuleTree M)
    (free : List QueryItem)
    (key : String) :
    List (Value M) :=
  (selected free tree).filterMap fun trace => (endOf tree trace).get? key

/-- When both engines return the same: no selected module has children, or there is a double
glob; and where an item names a reserved key, nothing is left of the values under it, or
they are dropped at a double glob. -/
def EnginesCanAgree
    (torch : QueryItem → M → PyResult (List M))
    (tree : ModuleTree M)
    (query : SingleQuery) :
    Prop :=
  match splitAtReserved query.before with
  | none =>
      query.hasDoubleStar = true ∨
        ∀ trace ∈ selected query.before tree, (endOf tree trace).children = []
  | some (free, key, rest) =>
      doQueryNoDoubleStar torch rest (reservedValues tree free key) = .ok [] ∨
        (query.hasDoubleStar = true ∧
          ∃ left, doQueryNoDoubleStar torch rest (reservedValues tree free key) = .ok left)

theorem free_of_splitAtReserved
    {items : List QueryItem}
    (split : splitAtReserved items = none) :
    ∀ item ∈ items, item.reserved? = none := by
  induction items with
  | nil =>
      intro item member
      cases member
  | cons item rest inductionHypothesis =>
      unfold splitAtReserved at split
      cases named : item.reserved? with
      | some key =>
          simp [named] at split
      | none =>
          simp only [named, Option.map_eq_none_iff] at split
          exact List.forall_mem_cons.mpr ⟨named, inductionHypothesis split⟩

/-- What a split says about the items. -/
theorem eq_of_splitAtReserved
    {items free rest : List QueryItem}
    {key : String}
    (split : splitAtReserved items = some (free, key, rest)) :
    ∃ item,
      items = free ++ item :: rest ∧
        item.reserved? = some key ∧
        ∀ other ∈ free, other.reserved? = none := by
  induction items generalizing free with
  | nil =>
      cases split
  | cons item others inductionHypothesis =>
      unfold splitAtReserved at split
      cases named : item.reserved? with
      | some found =>
          simp only [named, Option.some.injEq, Prod.mk.injEq] at split
          obtain ⟨rfl, rfl, rfl⟩ := split
          exact ⟨item, rfl, named, nofun⟩
      | none =>
          simp only [named, Option.map_eq_some_iff] at split
          obtain ⟨found, ofOthers, same⟩ := split
          obtain ⟨before, sameRest⟩ := Prod.mk.inj same
          subst before
          obtain ⟨first, sameTail⟩ := found
          subst sameRest
          obtain ⟨reserved, items, isReserved, areFree⟩ := inductionHypothesis ofOthers
          refine ⟨reserved, ?_, isReserved, List.forall_mem_cons.mpr ⟨named, areFree⟩⟩
          rw [items]
          rfl

/-- The key that an item names is reserved, and it is what the item looks up. -/
theorem reserved?_eq_some
    {item : QueryItem}
    {key : String}
    (named : item.reserved? = some key) :
    key ∈ reservedAttrs ∧
      (∀ tree : ModuleTree M, stepModule item tree = (tree.get? key).toList) ∧
      ∀ entry : String × ModuleTree M, item.selects entry = decide (key = entry.1) := by
  cases item with
  | plain id =>
      simp only [QueryItem.reserved?] at named
      split at named
      · next member =>
          obtain rfl := Option.some.inj named
          exact ⟨member, fun _ => rfl, fun _ => rfl⟩
      · cases named
  | index index isAll =>
      cases isAll with
      | true =>
          cases named
      | false =>
          simp only [QueryItem.reserved?] at named
          split at named
          · next member =>
              obtain rfl := Option.some.inj named
              exact ⟨member, fun _ => rfl, fun _ => rfl⟩
          · cases named
  | type id =>
      cases named
  | doubleGlob =>
      cases named
  | partialGlob glob =>
      cases named
  | identity =>
      cases named

theorem filter_selects_of_reserved
    {tree : ModuleTree M}
    {item : QueryItem}
    {key : String}
    (wellFormed : WellFormed tree)
    (named : item.reserved? = some key) :
    tree.children.filter item.selects = [] := by
  obtain ⟨reserved, _, selects⟩ := reserved?_eq_some (M := M) named
  rw [List.filter_eq_nil_iff]
  intro entry member
  rw [selects, decide_eq_true_eq]
  intro same
  rw [same] at reserved
  exact wellFormed.freeName member reserved

theorem selected_of_reserved
    {tree : ModuleTree M}
    {free rest : List QueryItem}
    {item : QueryItem}
    {key : String}
    (wellFormed : WellFormed tree)
    (named : item.reserved? = some key) :
    selected (free ++ item :: rest) tree = [] := by
  induction free generalizing tree with
  | nil =>
      rw [List.nil_append, selected, filter_selects_of_reserved wellFormed named]
      rfl
  | cons first others inductionHypothesis =>
      rw [List.cons_append, selected, List.flatMap_eq_nil_iff]
      intro entry member
      rw [inductionHypothesis (wellFormed.child (List.mem_filter.mp member).1)]
      rfl

theorem doQueryNoDoubleStar_append
    (first second : List QueryItem)
    (values : List (Value M)) :
    doQueryNoDoubleStar torch (first ++ second) values =
      (doQueryNoDoubleStar torch first values >>= doQueryNoDoubleStar torch second) := by
  induction first generalizing values with
  | nil =>
      rfl
  | cons item rest inductionHypothesis =>
      simp only [List.cons_append, doQueryNoDoubleStar, bind_assoc, inductionHypothesis]

/-- The level engine up to a reserved key and beyond it. -/
theorem doQueryNoDoubleStar_reserved
    {tree : ModuleTree M}
    {free rest : List QueryItem}
    {item : QueryItem}
    {key : String}
    (isLevel : ∀ other ∈ free, other.isLevel = true)
    (areFree : ∀ other ∈ free, other.reserved? = none)
    (wellFormed : WellFormed tree)
    (named : item.reserved? = some key) :
    doQueryNoDoubleStar torch (free ++ item :: rest) [.module tree] =
      doQueryNoDoubleStar torch rest (reservedValues tree free key) := by
  have reached := @doQueryNoDoubleStar_modules M torch free [tree] isLevel areFree
    (by
      intro other member
      rw [List.mem_singleton.mp member]
      exact wellFormed)
  rw [List.flatMap_cons, List.flatMap_nil, List.append_nil, List.map_map] at reached
  obtain ⟨_, looksUp, _⟩ := reserved?_eq_some (M := M) named
  have stepped :
      ((selected free tree).map (Value.module ∘ endOf tree)).mapM (stepValue torch item) =
        .ok ((selected free tree).map fun trace => ((endOf tree trace).get? key).toList) := by
    rw [List.mapM_map]
    refine PyResult.mapM_of_forall fun trace _ => ?_
    exact congrArg Except.ok (looksUp (endOf tree trace))
  rw [doQueryNoDoubleStar_append]
  refine (congrArg (· >>= _) reached).trans ?_
  change doQueryNoDoubleStar torch (item :: rest) _ = _
  rw [doQueryNoDoubleStar, stepped]
  change doQueryNoDoubleStar torch rest (List.flatten _) = _
  rw [reservedValues, List.filterMap_eq_flatMap_toList, List.flatMap]

theorem module?_reservedValues
    {tree : ModuleTree M}
    {free : List QueryItem}
    {key : String}
    (reserved : key ∈ reservedAttrs) :
    ∀ value ∈ reservedValues tree free key, value.module? = none := by
  intro value member
  obtain ⟨trace, _, found⟩ := List.mem_filterMap.mp member
  obtain ⟨held, isAttribute⟩ := get?_of_reserved (endOf tree trace) reserved
  rw [found] at isAttribute
  obtain rfl := Option.some.inj isAttribute
  rfl

/-- From values that are no modules no module is reached. -/
theorem module?_doQueryNoDoubleStar
    {items : List QueryItem}
    {values results : List (Value M)}
    (noModule : ∀ value ∈ values, value.module? = none)
    (queried : doQueryNoDoubleStar torch items values = .ok results) :
    ∀ value ∈ results, value.module? = none := by
  induction items generalizing values with
  | nil =>
      obtain rfl := Except.ok.inj queried
      exact noModule
  | cons item rest inductionHypothesis =>
      obtain ⟨newItems, stepped, further⟩ := PyResult.bind_eq_ok.mp queried
      refine inductionHypothesis (fun value member => ?_) further
      obtain ⟨found, isFound, inFound⟩ := List.mem_flatten.mp member
      obtain ⟨source, isSource, computed⟩ :=
        exists_mem_of_forall₂ (PyResult.mapM_eq_ok.mp stepped) isFound
      cases source with
      | module tree =>
          cases noModule _ isSource
      | reserved held =>
          obtain ⟨attributes, _, rfl⟩ := PyResult.map_eq_ok computed
          obtain ⟨reached, _, rfl⟩ := List.mem_map.mp inFound
          rfl

theorem mapM_leafBelow_reserved
    {query : SingleQuery}
    {values : List (Value M)}
    (noModule : ∀ value ∈ values, value.module? = none) :
    values.mapM (fun curItem =>
        curItem.flatten.mapM (leafBelow query.items curItem) >>= fun leaves =>
          pure leaves.flatten) =
      .ok (values.map fun _ => []) := by
  refine PyResult.mapM_of_forall fun value member => ?_
  cases value with
  | module tree =>
      cases noModule _ member
  | reserved held =>
      rfl

/-- Where an item names a reserved key, the first engine returns what the rest of the query
makes of the values under it, or nothing at a double glob. -/
theorem doQueryOnModuleDict_reserved
    {tree : ModuleTree M}
    {query : SingleQuery}
    {free rest : List QueryItem}
    {key : String}
    (noIdentity : ∀ item ∈ query.items, item.isIdentity = false)
    (wellFormed : WellFormed tree)
    (split : splitAtReserved query.before = some (free, key, rest)) :
    doQueryOnModuleDict torch tree query =
      (doQueryNoDoubleStar torch rest (reservedValues tree free key)).map fun left =>
        if query.hasDoubleStar then [] else left := by
  obtain ⟨item, items, named, areFree⟩ := eq_of_splitAtReserved split
  have isLevel : ∀ other ∈ free, other.isLevel = true := by
    intro other member
    apply query.isLevel_before noIdentity
    rw [items]
    exact List.mem_append_left _ member
  obtain ⟨reserved, _, _⟩ := reserved?_eq_some (M := M) named
  unfold doQueryOnModuleDict
  change (doQueryNoDoubleStar torch query.before [.module tree] >>= _) = _
  rw [items, doQueryNoDoubleStar_reserved isLevel areFree wellFormed named]
  cases reached : doQueryNoDoubleStar torch rest (reservedValues tree free key) with
  | error raised =>
      rfl
  | ok left =>
      change (if query.hasDoubleStar && !left.isEmpty then _ else _) =
        Except.ok (if query.hasDoubleStar then [] else left)
      cases hasDoubleStar : query.hasDoubleStar with
      | false =>
          rfl
      | true =>
          cases left with
          | nil =>
              rfl
          | cons value others =>
              have noLeaf := @mapM_leafBelow_reserved M query (value :: others)
                (module?_doQueryNoDoubleStar (module?_reservedValues reserved) reached)
              change ((value :: others).mapM _ >>= _) = _
              refine (congrArg (· >>= _) noLeaf).trans ?_
              simp

theorem leaves_of_children_nil
    {tree : ModuleTree M}
    (noChildren : tree.children = []) :
    tree.leaves = [[]] := by
  rw [leaves_eq, if_pos noChildren]

/-- Both engines return the same modules in the same order, exactly when no selected module
has children or the query has a double glob, and no value under a reserved key is left. -/
theorem doQueryOnModuleDict_eq_v2
    {tree : ModuleTree M}
    {query : SingleQuery}
    (noIdentity : ∀ item ∈ query.items, item.isIdentity = false)
    (wellFormed : WellFormed tree) :
    doQueryOnModuleDict torch tree query = doQueryOnModuleDictV2 tree query ↔
      EnginesCanAgree torch tree query := by
  unfold EnginesCanAgree
  cases split : splitAtReserved query.before with
  | none =>
      rw [doQueryOnModuleDict_eq noIdentity wellFormed (free_of_splitAtReserved split),
        doQueryOnModuleDictV2_eq noIdentity wellFormed]
      cases hasDoubleStar : query.hasDoubleStar with
      | true =>
          simp
      | false =>
          have noAfter : query.after = [] :=
            List.drop_eq_nil_of_le
              (Nat.le_succ_of_le (Nat.not_lt.mp (of_decide_eq_false hasDoubleStar)))
          have allEnd : Trace.endsSelected (M := M) [] = fun _ => true := by
            funext trace
            simp [Trace.endsSelected, Trace.isSelected]
          simp only [noAfter, allEnd, List.filter_true, Except.ok.injEq, Bool.false_eq_true,
            if_false, false_or]
          constructor
          · intro same trace member
            have returned :
                Value.module (endOf tree trace) ∈
                  (selected query.before tree).map fun trace => Value.module (endOf tree trace) :=
              List.mem_map_of_mem member
            rw [same] at returned
            obtain ⟨other, _, below⟩ := List.mem_flatMap.mp returned
            obtain ⟨further, isLeaf, sameModule⟩ := List.mem_map.mp below
            rw [← Value.module.inj sameModule]
            exact children_endOf_leaf isLeaf
          · intro noChildren
            rw [List.map_eq_flatMap]
            refine List.flatMap_congr fun trace member => ?_
            rw [leaves_of_children_nil (noChildren trace member)]
            rfl
  | some found =>
      obtain ⟨free, key, rest⟩ := found
      obtain ⟨item, items, named, _⟩ := eq_of_splitAtReserved split
      have nothing : doQueryOnModuleDictV2 tree query = .ok [] := by
        rw [doQueryOnModuleDictV2_eq noIdentity wellFormed, items,
          selected_of_reserved wellFormed named]
        rfl
      rw [nothing, doQueryOnModuleDict_reserved noIdentity wellFormed split]
      change _ ↔
        doQueryNoDoubleStar torch rest (reservedValues tree free key) = .ok [] ∨
          (query.hasDoubleStar = true ∧
            ∃ left, doQueryNoDoubleStar torch rest (reservedValues tree free key) = .ok left)
      cases doQueryNoDoubleStar torch rest (reservedValues tree free key) with
      | error raised =>
          constructor
          · intro same
            cases same
          · rintro (same | ⟨_, left, same⟩)
            · cases same
            · cases same
      | ok left =>
          cases hasDoubleStar : query.hasDoubleStar with
          | true =>
              exact iff_of_true rfl (.inr ⟨rfl, left, rfl⟩)
          | false =>
              constructor
              · intro same
                exact .inl same
              · rintro (same | ⟨impossible, _⟩)
                · exact same
                · cases impossible

/-- A module with a child that has a child itself. -/
def sampleTorchModule : TorchModule Unit :=
  .node () .normal "Net" [("encoder", .node () .normal "Encoder" [
    ("linear", .node () .normal "Linear" [])])]

/-- The query `encoder`. -/
def sampleQuery : SingleQuery where
  items := [.plain "encoder"]
  oneDoubleGlob := Nat.zero_le 1

/-- The query `encoder.**`. -/
def sampleDoubleStarQuery : SingleQuery where
  items := [.plain "encoder", .doubleGlob]
  oneDoubleGlob := Nat.le_refl 1

theorem wellNamed_sampleTorchModule : WellNamed sampleTorchModule := by
  unfold sampleTorchModule
  refine .node (by decide) (by decide) ?_
  simp only [List.mem_singleton, forall_eq]
  refine .node (by decide) (by decide) ?_
  simp only [List.mem_singleton, forall_eq]
  exact .node (by decide) (by decide) nofun

theorem doQueryOnModuleDict_eq_v2_sample :
    doQueryOnModuleDict (fun _ _ => .ok []) (convertPthModuleToPytree sampleTorchModule "")
        sampleDoubleStarQuery =
      doQueryOnModuleDictV2 (convertPthModuleToPytree sampleTorchModule "")
        sampleDoubleStarQuery :=
  (doQueryOnModuleDict_eq_v2 (by decide)
    (wellFormed_convert sampleTorchModule "" wellNamed_sampleTorchModule)).mpr
      (Or.inl rfl)

/-- The first engine returns the selected module, the second one the leaf below it. -/
theorem not_doQueryOnModuleDict_eq_v2 :
    ¬ ∀ (tree : ModuleTree Unit) (query : SingleQuery),
      WellFormed tree →
        (∀ item ∈ query.items, item.isIdentity = false) →
          doQueryOnModuleDict (fun _ _ => .ok []) tree query =
            doQueryOnModuleDictV2 tree query := by
  intro agree
  have same := agree (convertPthModuleToPytree sampleTorchModule "") sampleQuery
    (wellFormed_convert sampleTorchModule "" wellNamed_sampleTorchModule) (by decide)
  have sameNames := congrArg
    (fun result => (result.toOption.getD []).filterMap fun value =>
      value.module?.map ModuleTree.fqn) same
  revert sameNames
  decide

end TensorPC.Pmql
