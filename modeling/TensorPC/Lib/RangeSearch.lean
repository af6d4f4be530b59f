import Mathlib.Data.List.Pairwise
import Mathlib.Data.List.TakeWhile
import Mathlib.Order.Lattice
import Mathlib.Tactic.Common

namespace TensorPC.RangeSearch

/-!
# Looking a point up among ranges

Items cover ranges of a linear order and are sorted by where they start.  A
lookup goes to the first item that does not start before the point.  If that
item does not reach the point, the scan goes back over the items that do, and
stops at the first one that does not.
-/

variable {ν P : Type*} [LinearOrder P]

/-- `bisect.bisect_left` on items sorted by `key`. -/
def bisectLeft (key : ν → P) (items : List ν) (point : P) : Nat :=
  (items.takeWhile fun item => key item < point).length

/-- The range of an item ends, and not before the point. -/
def reaches (stop : Option P) (point : P) : Bool :=
  match stop with
  | some last => point ≤ last
  | none => false

/-- The scan back: items without an end are skipped, the last one in range is kept. -/
def scanBack
    (start : ν → P)
    (stop : ν → Option P)
    (point : P) :
    List ν → Option ν → Option ν
  | [], kept => kept
  | item :: earlier, kept =>
      match stop item with
      | none => scanBack start stop point earlier kept
      | some last =>
          if start item ≤ point ∧ point ≤ last then
            scanBack start stop point earlier (some item)
          else
            kept

/-- The lookup; `curStop` is the end that is asked of the item at the insertion point. -/
def findNearest
    (start : ν → P)
    (stop curStop : ν → Option P)
    (items : List ν)
    (point : P) :
    Option ν :=
  let index := bisectLeft start items point
  match items[index]? with
  | none =>
      match items.getLast? with
      | some last => if start last ≤ point ∧ reaches (stop last) point then some last else none
      | none => none
  | some current =>
      if start current ≤ point ∧ reaches (curStop current) point then
        some current
      else
        scanBack start stop point (items.take index).reverse none

/-- The place in a sorted list at which the lookup of a point stops. -/
inductive StopsAt
    (start last : ν → P)
    (point : P)
    (earlier : List ν)
    (item : ν)
    (later : List ν) : Prop
  | starts
      (here : start item = point)
      (before : ∀ other ∈ earlier, start other < point) :
      StopsAt start last point earlier item later
  | ends
      (before : start item < point)
      (inside : point ≤ last item)
      (final : later = []) :
      StopsAt start last point earlier item later
  | scanned
      (before : start item < point)
      (inside : point ≤ last item)
      (behind : ∃ other ∈ later, point < start other)
      (noStart : ∀ other ∈ later, start other ≠ point)
      (run : ∀ other ∈ later, start other < point → point ≤ last other)
      (edge : ∀ other ∈ earlier.getLast?, ¬ point ≤ last other) :
      StopsAt start last point earlier item later

section Lookup

variable {start last : ν → P} {stop curStop : ν → Option P} {items : List ν} {point : P}

/-- A scan over items that all end keeps the last one of the leading items in range. -/
theorem scanBack_eq_some_iff
    (ends : ∀ item ∈ items, stop item = some (last item))
    {kept : Option ν}
    {found : ν} :
    scanBack start stop point items kept = some found ↔
      (∃ near far, items = near ++ found :: far ∧
        (∀ other ∈ near, start other ≤ point ∧ point ≤ last other) ∧
        (start found ≤ point ∧ point ≤ last found) ∧
        ∀ other ∈ far.head?, ¬ (start other ≤ point ∧ point ≤ last other)) ∨
      (kept = some found ∧
        ∀ other ∈ items.head?, ¬ (start other ≤ point ∧ point ≤ last other)) := by
  induction items generalizing kept with
  | nil =>
      simp [scanBack]
  | cons item earlier inductionHypothesis =>
      have others := @inductionHypothesis
        (fun other member => ends other (List.mem_cons_of_mem _ member)) (some item)
      rw [scanBack, ends item List.mem_cons_self]
      by_cases inRange : start item ≤ point ∧ point ≤ last item
      · simp only [inRange, and_self, if_true, others]
        constructor
        · rintro (⟨near, far, rfl, allNear, here, edge⟩ | ⟨same, edge⟩)
          · refine .inl ⟨item :: near, far, rfl, ?_, here, edge⟩
            exact List.forall_mem_cons.mpr ⟨inRange, allNear⟩
          · cases same
            exact .inl ⟨[], earlier, rfl, by simp, inRange, edge⟩
        · rintro (⟨near, far, split, allNear, here, edge⟩ | ⟨_, edge⟩)
          · cases near with
            | nil =>
                cases split
                exact .inr ⟨rfl, edge⟩
            | cons first near =>
                cases split
                exact .inl ⟨near, far, rfl, (List.forall_mem_cons.mp allNear).2, here, edge⟩
          · exact absurd inRange (edge item rfl)
      · simp only [inRange, if_false]
        constructor
        · intro same
          refine .inr ⟨same, fun other isHead => ?_⟩
          cases isHead
          exact inRange
        · rintro (⟨near, far, split, allNear, here, edge⟩ | ⟨same, _⟩)
          · cases near with
            | nil =>
                cases split
                exact absurd here inRange
            | cons first near =>
                cases split
                exact absurd (List.forall_mem_cons.mp allNear).1 inRange
          · exact same

/-- Where the items that start before the point end. -/
theorem exists_split
    (sorted : items.Pairwise fun first second => start first ≤ start second)
    (point : P) :
    ∃ before after,
      items = before ++ after ∧
      bisectLeft start items point = before.length ∧
      (∀ item ∈ before, start item < point) ∧
      ∀ item ∈ after, point ≤ start item := by
  refine ⟨items.takeWhile fun item => start item < point,
    items.dropWhile fun item => start item < point,
    List.takeWhile_append_dropWhile.symm, rfl, fun item member => ?_, fun item member => ?_⟩
  · simpa using List.mem_takeWhile_imp member
  · have sortedAfter := sorted.sublist
      (List.dropWhile_sublist fun item => decide (start item < point))
    cases remaining : items.dropWhile fun item => decide (start item < point) with
    | nil =>
        rw [remaining] at member
        cases member
    | cons first rest =>
        have notBefore := List.head_dropWhile_not (fun item => decide (start item < point))
          (l := items) (by simp [remaining])
        simp only [remaining, List.head_cons, decide_eq_false_iff_not, not_lt] at notBefore
        rw [remaining] at member sortedAfter
        rcases List.mem_cons.mp member with same | inRest
        · subst same
          exact notBefore
        · exact notBefore.trans (List.rel_of_pairwise_cons sortedAfter inRest)

/-- The lookup of a point, from the items that start before it and the others. -/
theorem findNearest_eq
    {before after : List ν}
    (split : items = before ++ after)
    (index : bisectLeft start items point = before.length) :
    findNearest start stop curStop items point =
      match after with
      | [] =>
          match items.getLast? with
          | some final =>
              if start final ≤ point ∧ reaches (stop final) point then some final else none
          | none => none
      | current :: _ =>
          if start current ≤ point ∧ reaches (curStop current) point then
            some current
          else
            scanBack start stop point before.reverse none := by
  subst split
  simp only [findNearest, index]
  cases after with
  | nil => simp
  | cons current rest => simp

theorem takeWhile_of_split
    {before after : List ν}
    (allBefore : ∀ item ∈ before, start item < point)
    (allAfter : ∀ item ∈ after, point ≤ start item) :
    (before ++ after).takeWhile (fun item => start item < point) = before := by
  rw [List.takeWhile_append_of_pos (by simpa using allBefore)]
  cases after with
  | nil =>
      simp
  | cons current rest =>
      have notBefore : ¬ start current < point :=
        not_lt.mpr (allAfter current List.mem_cons_self)
      simp [List.takeWhile_cons, notBefore]

theorem start_le_of_mem_earlier
    {earlier later : List ν}
    {item other : ν}
    (sorted : (earlier ++ item :: later).Pairwise fun first second => start first ≤ start second)
    (member : other ∈ earlier) :
    start other ≤ start item :=
  (List.pairwise_append.mp sorted).2.2 other member item List.mem_cons_self

/-- The lookup when every item starts before the point: only the last item is tried. -/
theorem lookup_all_before
    (ends : ∀ item ∈ items, stop item = some (last item))
    (allBefore : ∀ item ∈ items, start item < point)
    {found : ν} :
    (match items.getLast? with
      | some final =>
          if start final ≤ point ∧ reaches (stop final) point then some final else none
      | none => none) = some found ↔
      ∃ earlier later,
        items = earlier ++ found :: later ∧ StopsAt start last point earlier found later := by
  constructor
  · intro finds
    cases isLast : items.getLast? with
    | none =>
        rw [isLast] at finds
        cases finds
    | some final =>
        obtain ⟨earlier, split⟩ := List.getLast?_eq_some_iff.mp isLast
        have listed : final ∈ items := by simp [split]
        simp only [isLast, ends final listed, reaches, decide_eq_true_eq] at finds
        split at finds
        · rename_i inside
          cases finds
          exact ⟨earlier, [], split, .ends (allBefore _ listed) inside.2 rfl⟩
        · cases finds
  · rintro ⟨earlier, later, split, stops⟩
    have listed : found ∈ items := by simp [split]
    cases stops with
    | starts here _ =>
        exact absurd here (ne_of_lt (allBefore found listed))
    | ends started inside final =>
        have isLast : items.getLast? = some found :=
          List.getLast?_eq_some_iff.mpr ⟨earlier, by rw [split, final]⟩
        simp [isLast, ends found listed, reaches, started.le, inside]
    | scanned _ _ behind _ _ _ =>
        obtain ⟨other, member, starts⟩ := behind
        have otherListed : other ∈ items := by simp [split, member]
        exact absurd (allBefore other otherListed) (not_lt.mpr starts.le)

/-- The lookup when an item starts at the point: the first such item is the place. -/
theorem stopsAt_iff_of_starts
    {before rest : List ν}
    {current found : ν}
    (split : items = before ++ current :: rest)
    (sorted : items.Pairwise fun first second => start first ≤ start second)
    (allBefore : ∀ item ∈ before, start item < point)
    (here : start current = point) :
    current = found ↔
      ∃ earlier later,
        items = earlier ++ found :: later ∧ StopsAt start last point earlier found later := by
  constructor
  · intro same
    subst same
    exact ⟨before, rest, split, .starts here allBefore⟩
  · rintro ⟨earlier, later, otherSplit, stops⟩
    have position : current ∈ earlier ++ found :: later := by
      rw [← otherSplit, split]
      simp
    have sortedThere := sorted
    rw [otherSplit] at sortedThere
    have notStarted :
        current ∈ earlier → ¬ start found < point := by
      intro inEarlier started
      have notAfter := start_le_of_mem_earlier sortedThere inEarlier
      rw [here] at notAfter
      exact absurd started (not_lt.mpr notAfter)
    cases stops with
    | starts foundHere allEarlier =>
        have after :
            ∀ {first : ν} {others : List ν},
              start first = point →
              (first :: others).Pairwise (fun first second => start first ≤ start second) →
              ∀ item ∈ first :: others, point ≤ start item := by
          intro first others firstHere sortedOthers item member
          rcases List.mem_cons.mp member with same | inOthers
          · rw [same, firstHere]
          · rw [← firstHere]
            exact List.rel_of_pairwise_cons sortedOthers inOthers
        have leading := takeWhile_of_split allBefore
          (after here (List.pairwise_append.mp (split ▸ sorted)).2.1)
        have otherLeading := takeWhile_of_split allEarlier
          (after foundHere (List.pairwise_append.mp sortedThere).2.1)
        rw [← otherSplit, split, leading] at otherLeading
        rw [otherSplit, otherLeading] at split
        exact (List.cons.inj (List.append_cancel_left split)).1.symm
    | ends started _ final =>
        rw [final] at position
        rcases List.mem_append.mp position with inEarlier | isFound
        · exact absurd started (notStarted inEarlier)
        · exact List.mem_singleton.mp isFound
    | scanned started _ _ noStart _ _ =>
        rcases List.mem_append.mp position with inEarlier | inLater
        · exact absurd started (notStarted inEarlier)
        · rcases List.mem_cons.mp inLater with same | inLater
          · exact same
          · exact absurd here (noStart current inLater)

/-- The lookup when the items change from before the point to behind it: the scan back. -/
theorem scanBack_iff_stopsAt
    {before after : List ν}
    {found : ν}
    (split : items = before ++ after)
    (sorted : items.Pairwise fun first second => start first ≤ start second)
    (ends : ∀ item ∈ items, stop item = some (last item))
    (allBefore : ∀ item ∈ before, start item < point)
    (allBehind : ∀ item ∈ after, point < start item)
    (someBehind : after ≠ []) :
    scanBack start stop point before.reverse none = some found ↔
      ∃ earlier later,
        items = earlier ++ found :: later ∧ StopsAt start last point earlier found later := by
  have endsBefore : ∀ item ∈ before.reverse, stop item = some (last item) := by
    intro item member
    refine ends item ?_
    rw [split]
    exact List.mem_append_left _ (List.mem_reverse.mp member)
  rw [scanBack_eq_some_iff endsBefore]
  simp only [reduceCtorEq, false_and, or_false]
  constructor
  · rintro ⟨near, far, reversed, allNear, inside, edge⟩
    have shape : before = far.reverse ++ found :: near.reverse := by
      have unreversed := congrArg List.reverse reversed
      simpa using unreversed
    obtain ⟨behind, isBehind⟩ := List.exists_mem_of_ne_nil after someBehind
    refine ⟨far.reverse, near.reverse ++ after, by rw [split, shape]; simp, ?_⟩
    refine .scanned (allBefore found (by simp [shape])) inside.2
      ⟨behind, by simp [isBehind], allBehind behind isBehind⟩ (fun other member => ?_)
      (fun other member begun => ?_) fun other isLast => ?_
    · rcases List.mem_append.mp member with isNear | isAfter
      · refine ne_of_lt (allBefore other ?_)
        rw [shape]
        exact List.mem_append_right _ (List.mem_cons_of_mem _ isNear)
      · exact ne_of_gt (allBehind other isAfter)
    · rcases List.mem_append.mp member with isNear | isAfter
      · exact (allNear other (List.mem_reverse.mp isNear)).2
      · exact absurd begun (not_lt.mpr (allBehind other isAfter).le)
    · have isHead : far.head? = some other := by simpa using isLast
      have listedBefore : other ∈ before := by
        rw [shape]
        exact List.mem_append_left _ (List.mem_reverse.mpr (List.mem_of_mem_head? isHead))
      exact fun inRange => edge other isHead ⟨(allBefore other listedBefore).le, inRange⟩
  · rintro ⟨earlier, later, otherSplit, stops⟩
    have sortedThere := sorted
    rw [otherSplit] at sortedThere
    have position : found ∈ before ++ after := by
      rw [← split, otherSplit]
      simp
    cases stops with
    | starts foundHere _ =>
        rcases List.mem_append.mp position with isBefore | isAfter
        · exact absurd foundHere (ne_of_lt (allBefore found isBefore))
        · exact absurd foundHere (ne_of_gt (allBehind found isAfter))
    | ends started _ final =>
        obtain ⟨behind, isBehind⟩ := List.exists_mem_of_ne_nil after someBehind
        have listed : behind ∈ earlier ++ found :: later := by
          rw [← otherSplit, split]
          exact List.mem_append_right _ isBehind
        have starts := allBehind behind isBehind
        rw [final] at listed
        rcases List.mem_append.mp listed with inEarlier | isFound
        · exact absurd (start_le_of_mem_earlier sortedThere inEarlier)
            (not_le.mpr (started.trans starts))
        · rw [List.mem_singleton.mp isFound] at starts
          exact absurd started (not_lt.mpr starts.le)
    | scanned started inside _ _ run edge =>
        have leading := takeWhile_of_split allBefore fun item member => (allBehind item member).le
        have otherLeading :
            (earlier ++ found :: later).takeWhile (fun item => start item < point) =
              earlier ++ found :: later.takeWhile fun item => start item < point := by
          rw [List.takeWhile_append_of_pos, List.takeWhile_cons]
          · simp [started]
          · intro item member
            simpa using lt_of_le_of_lt (start_le_of_mem_earlier sortedThere member) started
        rw [← otherSplit, split, leading] at otherLeading
        refine ⟨(later.takeWhile fun item => start item < point).reverse, earlier.reverse,
          by rw [otherLeading]; simp, fun other member => ?_, ⟨started.le, inside⟩,
          fun other isHead => ?_⟩
        · have isNear := List.mem_reverse.mp member
          have begun : start other < point := by simpa using List.mem_takeWhile_imp isNear
          exact ⟨begun.le, run other ((List.takeWhile_sublist _).subset isNear) begun⟩
        · exact fun inRange => edge other (by simpa using isHead) inRange.2

/-- A lookup finds the item of the place at which it stops. -/
theorem findNearest_eq_some_iff
    (sorted : items.Pairwise fun first second => start first ≤ start second)
    (ordered : ∀ item ∈ items, start item ≤ last item)
    (ends : ∀ item ∈ items, stop item = some (last item))
    (curEnds : ∀ item ∈ items, curStop item = some (last item))
    {found : ν} :
    findNearest start stop curStop items point = some found ↔
      ∃ earlier later,
        items = earlier ++ found :: later ∧ StopsAt start last point earlier found later := by
  obtain ⟨before, after, split, index, allBefore, allAfter⟩ := exists_split sorted point
  rw [findNearest_eq split index]
  cases after with
  | nil =>
      rw [List.append_nil] at split
      subst split
      exact lookup_all_before ends allBefore
  | cons current rest =>
      have listed : current ∈ items := by simp [split]
      by_cases here : start current = point
      · have reached : start current ≤ point ∧ reaches (curStop current) point = true := by
          have inside := ordered current listed
          rw [here] at inside
          simp [curEnds current listed, reaches, here, inside]
        simp only [reached, and_self, if_true, Option.some.injEq]
        exact stopsAt_iff_of_starts split sorted allBefore here
      · have starts : point < start current :=
          lt_of_le_of_ne (allAfter current List.mem_cons_self) (Ne.symm here)
        have notReached : ¬ (start current ≤ point ∧ reaches (curStop current) point = true) :=
          fun reached => absurd starts (not_lt.mpr reached.1)
        simp only [notReached, if_false]
        refine scanBack_iff_stopsAt split sorted ends allBefore (fun item member => ?_)
          (List.cons_ne_nil _ _)
        rcases List.mem_cons.mp member with same | inRest
        · rw [same]
          exact starts
        · rw [split] at sorted
          exact lt_of_lt_of_le starts
            (List.rel_of_pairwise_cons (List.pairwise_append.mp sorted).2.1 inRest)

theorem StopsAt.contains
    {earlier later : List ν}
    {item : ν}
    (ordered : start item ≤ last item)
    (stops : StopsAt start last point earlier item later) :
    start item ≤ point ∧ point ≤ last item := by
  cases stops with
  | starts here _ => exact ⟨here.le, here ▸ ordered⟩
  | ends started inside _ => exact ⟨started.le, inside⟩
  | scanned started inside _ _ _ _ => exact ⟨started.le, inside⟩

end Lookup

end TensorPC.RangeSearch
