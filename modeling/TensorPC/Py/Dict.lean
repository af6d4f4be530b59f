import TensorPC.Py.Error
import Mathlib.Algebra.GroupWithZero.Nat
import Mathlib.Data.List.Nodup

namespace TensorPC

/-!
# Insertion-ordered dictionaries

A Python `dict` keeps its entries in the order in which the keys were first
inserted, and assigning to a present key keeps the key's place.  `Dict` is that
list of entries together with the fact that no key occurs twice.
-/

/-- A Python dictionary: its entries in insertion order, each key once. -/
structure Dict (κ : Type*) (β : Type*) where
  entries : List (κ × β)
  nodup : (entries.map Prod.fst).Nodup

namespace Dict

variable {κ : Type*} {β γ : Type*}

instance [DecidableEq κ] [DecidableEq β] : DecidableEq (Dict κ β) :=
  fun first second =>
    decidable_of_iff (first.entries = second.entries) (by
      cases first
      cases second
      simp)

/-- The empty dictionary `{}`. -/
def empty : Dict κ β where
  entries := []
  nodup := List.nodup_nil

/-- The keys in insertion order. -/
def keys (dict : Dict κ β) : List κ :=
  dict.entries.map Prod.fst

/-- The values in insertion order. -/
def values (dict : Dict κ β) : List β :=
  dict.entries.map Prod.snd

@[simp] theorem keys_empty :
    (empty : Dict κ β).keys = [] :=
  rfl

@[simp] theorem nodup_keys (dict : Dict κ β) : dict.keys.Nodup :=
  dict.nodup

variable [DecidableEq κ]

/-- `dict.get(key)`. -/
def get? (dict : Dict κ β) (key : κ) : Option β :=
  dict.entries.lookup key

/-- The entries after `dict[key] = value`. -/
def setEntries (key : κ) (value : β) : List (κ × β) → List (κ × β)
  | [] => [(key, value)]
  | (first, old) :: rest =>
      if first = key then
        (key, value) :: rest
      else
        (first, old) :: setEntries key value rest

attribute [local simp] setEntries

theorem mem_keys_setEntries
    {key query : κ}
    {value : β}
    {entries : List (κ × β)} :
    query ∈ (setEntries key value entries).map Prod.fst ↔
      query = key ∨ query ∈ entries.map Prod.fst := by
  induction entries with
  | nil =>
      simp
  | cons head rest inductionHypothesis =>
      rcases head with ⟨first, old⟩
      by_cases same : first = key
      · subst same
        simp
      · simp only [setEntries, same, ↓reduceIte, List.map_cons,
          List.mem_cons, inductionHypothesis]
        tauto

/-- Assigning keeps the keys distinct. -/
theorem nodup_setEntries
    {key : κ}
    {value : β}
    {entries : List (κ × β)}
    (nodup : (entries.map Prod.fst).Nodup) :
    ((setEntries key value entries).map Prod.fst).Nodup := by
  induction entries with
  | nil =>
      simp
  | cons head rest inductionHypothesis =>
      rcases head with ⟨first, old⟩
      simp only [List.map_cons, List.nodup_cons] at nodup
      by_cases same : first = key
      · subst same
        simpa using nodup
      · simp only [setEntries, same, ↓reduceIte, List.map_cons,
          List.nodup_cons]
        refine ⟨?_, inductionHypothesis nodup.2⟩
        rw [mem_keys_setEntries]
        rintro (isKey | inRest)
        · exact same isKey
        · exact nodup.1 inRest

/-- `dict[key] = value`. -/
def set (dict : Dict κ β) (key : κ) (value : β) : Dict κ β where
  entries := setEntries key value dict.entries
  nodup := nodup_setEntries dict.nodup

/-- `dict.pop(key, None)`. -/
def erase (dict : Dict κ β) (key : κ) : Dict κ β where
  entries := dict.entries.filter (fun entry => entry.1 ≠ key)
  nodup :=
    dict.nodup.sublist (List.filter_sublist.map Prod.fst)

/-- `key in dict`. -/
def contains (dict : Dict κ β) (key : κ) : Bool :=
  (dict.get? key).isSome

/-- `dict.update(entries)`, for the entries of another dictionary. -/
def update (dict : Dict κ β) (entries : List (κ × β)) : Dict κ β :=
  entries.foldl (fun acc entry => acc.set entry.1 entry.2) dict

/-- A dictionary display or `dict(pairs)`: later pairs win. -/
def ofList (entries : List (κ × β)) : Dict κ β :=
  empty.update entries

@[simp] theorem get?_empty (key : κ) :
    (empty : Dict κ β).get? key = none :=
  rfl

/-- Looking up after an assignment. -/
theorem get?_set
    (dict : Dict κ β)
    (key query : κ)
    (value : β) :
    (dict.set key value).get? query =
      if query = key then some value else dict.get? query := by
  rcases dict with ⟨entries, nodup⟩
  simp only [get?, set]
  clear nodup
  induction entries with
  | nil =>
      by_cases same : query = key <;>
        simp [same]
  | cons head rest inductionHypothesis =>
      rcases head with ⟨first, old⟩
      by_cases isFirst : first = key
      · subst isFirst
        by_cases same : query = first
        · simp [same]
        · have unequal : (query == first) = false := by
            simp [same]
          simp [List.lookup_cons, unequal, same]
      · by_cases same : query = first
        · subst same
          simp [isFirst]
        · have unequal : (query == first) = false := by
            simp [same]
          simp only [setEntries, isFirst, ↓reduceIte, List.lookup_cons, unequal]
          exact inductionHypothesis

@[simp] theorem get?_set_self
    (dict : Dict κ β)
    (key : κ)
    (value : β) :
    (dict.set key value).get? key = some value := by
  simp [get?_set]

theorem get?_set_ne
    (dict : Dict κ β)
    {key query : κ}
    (value : β)
    (different : query ≠ key) :
    (dict.set key value).get? query = dict.get? query := by
  simp [get?_set, different]

/-- A second assignment to a key overwrites the first. -/
@[simp] theorem set_set
    (dict : Dict κ β)
    (key : κ)
    (old new : β) :
    (dict.set key old).set key new = dict.set key new := by
  rcases dict with ⟨entries, nodup⟩
  simp only [set, mk.injEq]
  clear nodup
  induction entries with
  | nil =>
      simp
  | cons head rest inductionHypothesis =>
      rcases head with ⟨first, value⟩
      by_cases same : first = key
      · simp [same]
      · simp only [setEntries, same, ↓reduceIte, List.cons.injEq, true_and]
        exact inductionHypothesis

/-- Looking up after a removal. -/
theorem get?_erase
    (dict : Dict κ β)
    (key query : κ) :
    (dict.erase key).get? query =
      if query = key then none else dict.get? query := by
  rcases dict with ⟨entries, nodup⟩
  simp only [get?, erase]
  clear nodup
  induction entries with
  | nil =>
      simp
  | cons head rest inductionHypothesis =>
      rcases head with ⟨first, old⟩
      by_cases isFirst : first = key
      · subst isFirst
        by_cases same : query = first
        · subst same
          simpa using inductionHypothesis
        · have unequal : (query == first) = false := by
            simp [same]
          simpa [List.lookup_cons, unequal, same] using inductionHypothesis
      · by_cases same : query = first
        · subst same
          simp [isFirst]
        · have unequal : (query == first) = false := by
            simp [same]
          simpa [List.lookup_cons, isFirst, unequal] using inductionHypothesis

@[simp] theorem get?_erase_self
    (dict : Dict κ β)
    (key : κ) :
    (dict.erase key).get? key = none := by
  simp [get?_erase]

theorem mem_keys_iff
    {dict : Dict κ β}
    {key : κ} :
    key ∈ dict.keys ↔ (dict.get? key).isSome := by
  rcases dict with ⟨entries, nodup⟩
  simp only [keys, get?]
  clear nodup
  induction entries with
  | nil =>
      simp
  | cons head rest inductionHypothesis =>
      rcases head with ⟨first, old⟩
      by_cases same : key = first
      · simp [same]
      · have unequal : (key == first) = false := by
          simp [same]
        simp only [List.map_cons, List.mem_cons, same, false_or,
          List.lookup_cons, unequal]
        exact inductionHypothesis

/-- An entry is listed exactly when it is what its key looks up. -/
theorem mem_entries_iff
    (dict : Dict κ β)
    {key : κ}
    {value : β} :
    (key, value) ∈ dict.entries ↔ dict.get? key = some value := by
  rcases dict with ⟨entries, nodup⟩
  simp only [get?]
  induction entries with
  | nil =>
      simp
  | cons head rest inductionHypothesis =>
      rcases head with ⟨first, old⟩
      simp only [List.map_cons, List.nodup_cons] at nodup
      by_cases same : key = first
      · subst same
        have notInRest : (key, value) ∉ rest := fun member =>
          nodup.1 (List.mem_map.mpr ⟨_, member, rfl⟩)
        simp [notInRest, eq_comm]
      · have unequal : (key == first) = false := by
          simp [same]
        simp only [List.mem_cons, Prod.mk.injEq, same, false_and, false_or,
          List.lookup_cons, unequal]
        exact inductionHypothesis nodup.2

theorem mem_keys_set
    {dict : Dict κ β}
    {key query : κ}
    {value : β} :
    query ∈ (dict.set key value).keys ↔ query = key ∨ query ∈ dict.keys :=
  mem_keys_setEntries

theorem mem_keys_erase
    {dict : Dict κ β}
    {key query : κ} :
    query ∈ (dict.erase key).keys ↔ query ≠ key ∧ query ∈ dict.keys := by
  rw [mem_keys_iff, get?_erase, mem_keys_iff]
  by_cases same : query = key <;> simp [same]

theorem erase_of_get?_eq_none
    {dict : Dict κ β}
    {key : κ}
    (absent : dict.get? key = none) :
    dict.erase key = dict := by
  have kept :
      dict.entries.filter (fun entry => entry.1 ≠ key) = dict.entries := by
    refine List.filter_eq_self.mpr fun entry member => ?_
    have found := (mem_entries_iff dict).mp member
    simp only [ne_eq, decide_not, Bool.not_eq_true', decide_eq_false_iff_not]
    rintro rfl
    rw [found] at absent
    cases absent
  rcases dict with ⟨entries, nodup⟩
  simp only [erase, kept]

/-- Assigning the value that a key has changes nothing. -/
theorem set_of_get?_eq_some
    {dict : Dict κ β}
    {key : κ}
    {value : β}
    (found : dict.get? key = some value) :
    dict.set key value = dict := by
  rcases dict with ⟨entries, nodup⟩
  simp only [get?, set, Dict.mk.injEq] at *
  clear nodup
  induction entries with
  | nil =>
      cases found
  | cons head rest inductionHypothesis =>
      rcases head with ⟨first, old⟩
      by_cases same : first = key
      · subst same
        simp only [List.lookup_cons, beq_self_eq_true, Option.some.injEq] at found
        simp [found]
      · have unequal : (key == first) = false := by
          simp [Ne.symm same]
        simp only [List.lookup_cons, unequal] at found
        simp [same, inductionHypothesis found]

/-- `for key in keys: dict.pop(key, None)`. -/
def eraseAll (dict : Dict κ β) (keys : List κ) : Dict κ β :=
  keys.foldl erase dict

theorem get?_eraseAll
    (dict : Dict κ β)
    (keys : List κ)
    (query : κ) :
    (dict.eraseAll keys).get? query =
      if query ∈ keys then none else dict.get? query := by
  induction keys generalizing dict with
  | nil =>
      simp [eraseAll]
  | cons first rest inductionHypothesis =>
      have others := inductionHypothesis (dict.erase first)
      simp only [eraseAll, List.foldl_cons] at others ⊢
      rw [others, get?_erase]
      by_cases isFirst : query = first <;> by_cases inRest : query ∈ rest <;>
        simp [isFirst, inRest]

theorem mem_keys_eraseAll
    {dict : Dict κ β}
    {keys : List κ}
    {key : κ} :
    key ∈ (dict.eraseAll keys).keys ↔ key ∉ keys ∧ key ∈ dict.keys := by
  rw [mem_keys_iff, mem_keys_iff, get?_eraseAll]
  by_cases erased : key ∈ keys <;> simp [erased]

/-- Changing the value of a key where the value asks for it. -/
theorem get?_changeIf
    {asks : β → Bool}
    {f : β → β}
    {dict changed : Dict κ β}
    {key : κ}
    (present :
      ∀ value,
        dict.get? key = some value →
        changed = if asks value then dict.set key (f value) else dict)
    (missing : dict.get? key = none → changed = dict)
    (query : κ) :
    changed.get? query =
      if query = key then (dict.get? query).map fun value => if asks value then f value else value
      else dict.get? query := by
  cases found : dict.get? key with
  | none =>
      rw [missing found]
      by_cases same : query = key
      · simp [same, found]
      · simp [same]
  | some value =>
      rw [present value found]
      by_cases same : query = key
      · subst same
        cases asked : asks value <;> simp [asked, found]
      · cases asked : asks value <;> simp [same, Dict.get?_set]

/-- Changing the values of the listed keys, where changing twice is changing once. -/
theorem get?_foldl_change
    {change : Dict κ β → κ → Dict κ β}
    {f : β → β}
    (idempotent : ∀ value, f (f value) = f value)
    (changes :
      ∀ dict key other,
        (change dict key).get? other =
          if other = key then (dict.get? other).map f else dict.get? other)
    (keys : List κ)
    (dict : Dict κ β)
    (query : κ) :
    (keys.foldl change dict).get? query =
      if query ∈ keys then (dict.get? query).map f else dict.get? query := by
  induction keys generalizing dict with
  | nil => simp
  | cons first rest inductionHypothesis =>
      rw [List.foldl_cons, inductionHypothesis, changes]
      by_cases same : query = first
      · subst same
        cases dict.get? query <;> simp [idempotent]
      · simp [same]

theorem eraseAll_eq_empty
    {dict : Dict κ β}
    {keys : List κ}
    (all : ∀ key ∈ dict.keys, key ∈ keys) :
    dict.eraseAll keys = empty := by
  have noEntry : (dict.eraseAll keys).entries = [] := by
    refine List.eq_nil_iff_forall_not_mem.mpr fun entry member => ?_
    have found := (mem_entries_iff (dict.eraseAll keys)).mp member
    rw [get?_eraseAll] at found
    split at found
    · cases found
    · rename_i notRemoved
      exact notRemoved (all _ (mem_keys_iff.mpr (by simp [found])))
  cases removed : dict.eraseAll keys with
  | mk entries nodup =>
      rw [removed] at noEntry
      subst noEntry
      rfl

theorem lookup_eq_some_iff
    {entries : List (κ × β)}
    (nodup : (entries.map Prod.fst).Nodup)
    {key : κ}
    {value : β} :
    entries.lookup key = some value ↔ (key, value) ∈ entries :=
  (mem_entries_iff ⟨entries, nodup⟩).symm

theorem lookup_eq_none_of_notMem
    {entries : List (κ × β)}
    {key : κ}
    (absent : key ∉ entries.map Prod.fst) :
    entries.lookup key = none := by
  rw [List.lookup_eq_none_iff]
  intro entry member
  have different : key ≠ entry.1 := by
    rintro rfl
    exact absent (List.mem_map_of_mem member)
  simpa using different

/-- Looking up after `dict.update(other)`. -/
theorem get?_update
    (dict other : Dict κ β)
    (query : κ) :
    (dict.update other.entries).get? query =
      (other.get? query).or (dict.get? query) := by
  rcases other with ⟨entries, nodup⟩
  simp only [update, get?]
  induction entries generalizing dict with
  | nil =>
      simp
  | cons head rest inductionHypothesis =>
      rcases head with ⟨first, value⟩
      simp only [List.map_cons, List.nodup_cons] at nodup
      rw [List.foldl_cons, inductionHypothesis _ nodup.2]
      by_cases same : query = first
      · subst same
        have assigned := get?_set_self dict query value
        simp only [get?] at assigned
        simp [lookup_eq_none_of_notMem nodup.1, assigned]
      · have unequal : (query == first) = false := by
          simp [same]
        have unchanged := get?_set_ne dict value same
        simp only [get?] at unchanged
        simp [List.lookup_cons, unequal, unchanged]

theorem get?_ofList
    {entries : List (κ × β)}
    (nodup : (entries.map Prod.fst).Nodup)
    (query : κ) :
    (ofList entries).get? query = entries.lookup query := by
  have updated := get?_update empty ⟨entries, nodup⟩ query
  simpa [ofList, get?, empty] using updated

theorem mem_of_get?_update
    {dict : Dict κ β}
    {entries : List (κ × β)}
    {query : κ}
    {value : β}
    (found : (dict.update entries).get? query = some value) :
    (query, value) ∈ entries ∨ dict.get? query = some value := by
  induction entries generalizing dict with
  | nil =>
      exact .inr found
  | cons head rest inductionHypothesis =>
      rcases inductionHypothesis found with inRest | wasSet
      · exact .inl (List.mem_cons_of_mem _ inRest)
      · rw [get?_set] at wasSet
        by_cases same : query = head.1
        · rw [if_pos same] at wasSet
          cases wasSet
          exact .inl (by simp [same])
        · rw [if_neg same] at wasSet
          exact .inr wasSet

/-- Looking up after `dict.update(entries)`, when a repeated key has one value. -/
theorem get?_update_eq_some_iff
    {dict : Dict κ β}
    {entries : List (κ × β)}
    (coherent :
      ∀ key first second,
        (key, first) ∈ entries →
        (key, second) ∈ entries →
        first = second)
    {query : κ}
    {value : β} :
    (dict.update entries).get? query = some value ↔
      (query, value) ∈ entries ∨
        query ∉ entries.map Prod.fst ∧ dict.get? query = some value := by
  induction entries generalizing dict with
  | nil =>
      simp [update]
  | cons head rest inductionHypothesis =>
      rcases head with ⟨key, assigned⟩
      have later :=
        @inductionHypothesis (dict.set key assigned)
          (fun key first second inFirst inSecond =>
            coherent key first second (List.mem_cons_of_mem _ inFirst)
              (List.mem_cons_of_mem _ inSecond))
      rw [get?_set] at later
      refine later.trans ?_
      by_cases same : query = key
      · subst same
        rw [if_pos rfl, List.map_cons, List.mem_cons, List.mem_cons]
        constructor
        · rintro (inRest | ⟨_, isAssigned⟩)
          · exact .inl (.inr inRest)
          · cases isAssigned
            exact .inl (.inl rfl)
        · rintro ((isHead | inRest) | ⟨notKey, _⟩)
          · cases isHead
            by_cases repeated : query ∈ rest.map Prod.fst
            · obtain ⟨⟨_, other⟩, inRest, rfl⟩ := List.mem_map.mp repeated
              cases coherent _ _ _ List.mem_cons_self
                (List.mem_cons_of_mem _ inRest)
              exact .inl inRest
            · exact .inr ⟨repeated, rfl⟩
          · exact .inl inRest
          · exact absurd (.inl rfl) notKey
      · rw [if_neg same, List.map_cons, List.mem_cons, List.mem_cons]
        simp [same]

theorem map_values_eq_keys
    {dict : Dict κ β}
    {idOf : β → κ}
    (keyed : ∀ id value, dict.get? id = some value → idOf value = id) :
    dict.values.map idOf = dict.keys := by
  rw [values, keys, List.map_map]
  refine List.map_congr_left fun entry member => ?_
  exact keyed entry.1 entry.2 ((mem_entries_iff dict).mp member)

theorem mem_values_iff
    {dict : Dict κ β}
    {value : β} :
    value ∈ dict.values ↔ ∃ key, dict.get? key = some value := by
  simp only [values, List.mem_map, Prod.exists, exists_eq_right, mem_entries_iff]

/-! ## Adding up the values -/

/-- The sum of a weight over the values. -/
def total (weight : β → Nat) (dict : Dict κ β) : Nat :=
  (dict.values.map weight).sum

/-- The weight of the value of a key, if there is one. -/
def weightAt (weight : β → Nat) (dict : Dict κ β) (key : κ) : Nat :=
  ((dict.get? key).map weight).getD 0

/-- Assigning trades the weight of the old value for that of the new one. -/
theorem total_set
    (weight : β → Nat)
    (dict : Dict κ β)
    (key : κ)
    (value : β) :
    total weight (dict.set key value) + weightAt weight dict key =
      total weight dict + weight value := by
  rcases dict with ⟨entries, nodup⟩
  simp only [total, weightAt, values, set, get?]
  clear nodup
  induction entries with
  | nil =>
      simp
  | cons head rest inductionHypothesis =>
      rcases head with ⟨first, old⟩
      by_cases same : first = key
      · subst same
        simp only [setEntries, ↓reduceIte, List.map_cons, List.sum_cons,
          List.lookup_cons, beq_self_eq_true, Option.map_some, Option.getD_some]
        omega
      · have unequal : (key == first) = false := by
          simp [Ne.symm same]
        simp only [setEntries, same, ↓reduceIte, List.map_cons, List.sum_cons,
          List.lookup_cons, unequal]
        omega

/-- Removing a key takes away the weight of its value. -/
theorem total_erase
    (weight : β → Nat)
    (dict : Dict κ β)
    (key : κ) :
    total weight (dict.erase key) + weightAt weight dict key =
      total weight dict := by
  cases found : dict.get? key with
  | none =>
      simp [erase_of_get?_eq_none found, weightAt, found]
  | some value =>
      have member := (mem_entries_iff dict).mpr found
      simp only [weightAt, found, Option.map_some, Option.getD_some]
      rcases dict with ⟨entries, nodup⟩
      simp only [total, values, erase] at *
      clear found
      induction entries with
      | nil =>
          cases member
      | cons head rest inductionHypothesis =>
          rcases head with ⟨first, old⟩
          simp only [List.map_cons, List.nodup_cons] at nodup
          rcases List.mem_cons.mp member with isHead | inRest
          · cases isHead
            have others : rest.filter (fun entry => entry.1 ≠ key) = rest := by
              refine List.filter_eq_self.mpr fun entry inRest => ?_
              have different : entry.1 ≠ key := by
                rintro rfl
                exact nodup.1 (List.mem_map_of_mem inRest)
              simpa using different
            simp only [ne_eq, not_true_eq_false, decide_false, Bool.false_eq_true,
              not_false_eq_true, List.filter_cons_of_neg, List.map_cons,
              List.sum_cons] at others ⊢
            rw [others]
            omega
          · have different : first ≠ key := by
              rintro rfl
              exact nodup.1 (List.mem_map_of_mem inRest)
            have rested := inductionHypothesis nodup.2 inRest
            simp only [ne_eq, different, not_false_eq_true, decide_true,
              List.filter_cons_of_pos, List.map_cons, List.sum_cons] at rested ⊢
            omega

/-- Updating trades the weights of the overwritten values for those of the new ones. -/
theorem total_update
    (weight : β → Nat)
    (dict other : Dict κ β) :
    total weight (dict.update other.entries) +
        (other.keys.map (weightAt weight dict)).sum =
      total weight dict + total weight other := by
  rcases other with ⟨entries, nodup⟩
  simp only [update, total, keys, values]
  induction entries generalizing dict with
  | nil =>
      simp
  | cons head rest inductionHypothesis =>
      rcases head with ⟨first, value⟩
      simp only [List.map_cons, List.nodup_cons] at nodup
      have rested := inductionHypothesis (dict.set first value) nodup.2
      have assigned := total_set weight dict first value
      have unchanged :
          rest.map (fun entry => weightAt weight (dict.set first value) entry.1) =
            rest.map (fun entry => weightAt weight dict entry.1) := by
        refine List.map_congr_left fun entry inRest => ?_
        have different : entry.1 ≠ first := by
          rintro rfl
          exact nodup.1 (List.mem_map_of_mem inRest)
        simp only [weightAt, get?_set_ne dict value different]
      simp only [total, values, List.map_map, Function.comp_def] at rested assigned ⊢
      rw [unchanged] at rested
      simp only [List.foldl_cons, List.map_cons, List.sum_cons]
      omega

/-- The dictionary with every value replaced by a function of its key and itself. -/
def mapWithKey (dict : Dict κ β) (f : κ → β → γ) : Dict κ γ where
  entries := dict.entries.map (fun entry => (entry.1, f entry.1 entry.2))
  nodup := by
    simpa [List.map_map, Function.comp_def] using dict.nodup

theorem get?_mapWithKey
    (dict : Dict κ β)
    (f : κ → β → γ)
    (query : κ) :
    (dict.mapWithKey f).get? query = (dict.get? query).map (f query) := by
  rcases dict with ⟨entries, nodup⟩
  simp only [get?, mapWithKey]
  clear nodup
  induction entries with
  | nil =>
      rfl
  | cons head rest inductionHypothesis =>
      rcases head with ⟨first, value⟩
      by_cases same : query = first
      · subst same
        simp
      · have unequal : (query == first) = false := by
          simp [same]
        simpa [List.lookup_cons, unequal] using inductionHypothesis

end Dict

/-! ## Loops that fill a dictionary -/

namespace Dict

variable {κ β γ : Type} [DecidableEq κ]

/-- `for key, value in entries: result[key] = f(key, value)`. -/
def fillFrom
    (f : κ → β → PyResult γ)
    (entries : List (κ × β))
    (start : Dict κ γ) :
    PyResult (Dict κ γ) :=
  entries.foldlM (fun result entry => do
    let value ← f entry.1 entry.2
    return result.set entry.1 value) start

/-- A filling loop that raises for no entry assigns each entry's value. -/
theorem fillFrom_eq_ok
    {f : κ → β → PyResult γ}
    {entries : List (κ × β)}
    (start : Dict κ γ)
    (nodup : (entries.map Prod.fst).Nodup)
    (computes : ∀ entry ∈ entries, ∃ value, f entry.1 entry.2 = .ok value) :
    ∃ result, fillFrom f entries start = .ok result ∧
      ∀ query value,
        result.get? query = some value ↔
          (∃ old, entries.lookup query = some old ∧ f query old = .ok value) ∨
          entries.lookup query = none ∧ start.get? query = some value := by
  induction entries generalizing start with
  | nil =>
      exact ⟨start, rfl, by simp⟩
  | cons head rest inductionHypothesis =>
      rcases head with ⟨first, old⟩
      simp only [List.map_cons, List.nodup_cons] at nodup
      obtain ⟨assigned, computed⟩ := computes (first, old) (by simp)
      obtain ⟨result, filled, looks⟩ :=
        inductionHypothesis (start.set first assigned) nodup.2
          (fun entry member => computes entry (List.mem_cons_of_mem _ member))
      refine ⟨result, ?_, ?_⟩
      · rw [fillFrom, List.foldlM_cons, computed]
        exact filled
      · intro query value
        rw [looks query value]
        by_cases same : query = first
        · subst same
          simp only [lookup_eq_none_of_notMem nodup.1, List.lookup_cons, beq_self_eq_true,
            get?_set_self, Option.some.injEq, reduceCtorEq, false_and, exists_false,
            true_and, false_or, exists_eq_left', or_false]
          rw [computed]
          simp
        · have unequal : (query == first) = false := by
            simp [same]
          simp [List.lookup_cons, unequal, get?_set_ne _ _ same]

theorem exists_of_fillFrom_eq_ok
    {f : κ → β → PyResult γ}
    {entries : List (κ × β)}
    {start result : Dict κ γ}
    (filled : fillFrom f entries start = .ok result) :
    ∀ entry ∈ entries, ∃ value, f entry.1 entry.2 = .ok value := by
  induction entries generalizing start with
  | nil =>
      simp
  | cons head rest inductionHypothesis =>
      rw [fillFrom, List.foldlM_cons] at filled
      obtain ⟨next, assigned, remaining⟩ := PyResult.bind_eq_ok.mp filled
      obtain ⟨value, computed, _⟩ := PyResult.bind_eq_ok.mp assigned
      exact List.forall_mem_cons.mpr
        ⟨⟨value, computed⟩, inductionHypothesis remaining⟩

end Dict

end TensorPC
