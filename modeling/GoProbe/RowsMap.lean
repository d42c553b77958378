import GoProbe.Rows
import Mathlib.Data.List.Dedup
import Mathlib.Algebra.BigOperators.Group.List
import Mathlib.Algebra.Order.Ring.Nat

/-!
# Merging result maps

`RowsMap` aggregates result rows by their labels and attributes (`MergeableAttributes`).
`MergeRows` adds a list of rows into a map, `MergeRowsMap` adds another map, and `ToRows`
flattens a map back into rows. The two merges return how many of the added entries met a key
that was already there.

A Go map is modelled by its entries in the order a `range` loop visits them; its keys are
distinct. Go visits a map in an unspecified order, so the results are stated through lookups
(`RowsMap.get?`) and sizes, which no visiting order changes.

* **Merging one map** (`get?_mergeRowsMap`, `merged_add_length_mergeRowsMap`): at each key the
  result holds the sum of what the two maps hold, and the merged count and the result's size
  add up to the two maps' sizes.
* **Merging many maps** (`mergeAll_perm`): merging a list of maps one after another into an
  empty map gives, at each key, the sum of the values the maps hold there, and a merged count
  of the total size less the number of distinct keys; neither depends on the order of the list.
* **Rows and maps agree** (`mergeRows_toRows`): `ToRows` emits one row per entry, and merging
  those rows does what merging the map does.
-/

namespace GoProbe

/-- `MergeableAttributes`: the key of a `RowsMap`. -/
structure MergeableAttributes where
  labels : Labels
  attributes : Attributes
  deriving DecidableEq, Repr

/-- `Rows`: a list of result rows. -/
abbrev Rows := List Row

/-- `MergeableAttributes{res.Labels, res.Attributes}`: the key `MergeRows` files a row under. -/
def Row.key (r : Row) : MergeableAttributes := ⟨r.labels, r.attributes⟩

/-- `RowsMap`, a Go `map[MergeableAttributes]types.Counters`: its entries in the order a
`range` loop visits them, with distinct keys. -/
structure RowsMap where
  entries : List (MergeableAttributes × Counters)
  nodup : (entries.map Prod.fst).Nodup

namespace RowsMap

/-- An empty `RowsMap`. -/
def empty : RowsMap := ⟨[], List.nodup_nil⟩

/-- The keys of the map. -/
def keys (rm : RowsMap) : List MergeableAttributes := rm.entries.map Prod.fst

/-- `rm[k]`: the value at `k`, and whether it `exists`. -/
def get? (rm : RowsMap) (k : MergeableAttributes) : Option Counters := rm.entries.lookup k

/-- An entry after `rm[k] = v`. -/
def setAt (k : MergeableAttributes) (v : Counters) (p : MergeableAttributes × Counters) :
    MergeableAttributes × Counters :=
  if p.1 = k then (k, v) else p

theorem fst_setAt (k : MergeableAttributes) (v : Counters) (p : MergeableAttributes × Counters) :
    (setAt k v p).1 = p.1 := by
  unfold setAt; split_ifs with h <;> simp [h]

/-- `rm[k] = v`: the value of a key that is there is replaced, a new key is added. -/
def set (rm : RowsMap) (k : MergeableAttributes) (v : Counters) : RowsMap :=
  if h : k ∈ rm.keys then
    ⟨rm.entries.map (setAt k v), by simpa [Function.comp_def, fst_setAt] using rm.nodup⟩
  else
    ⟨rm.entries ++ [(k, v)], by
      rw [List.map_append, List.nodup_append]
      exact ⟨rm.nodup, List.nodup_singleton _, by simpa [keys] using h⟩⟩

/-- One iteration of the loops of `MergeRows` and `MergeRowsMap`: add `c` at `ma`, and count a
merge when `ma` was there. -/
def mergeOne (acc : RowsMap × Nat) (ma : MergeableAttributes) (c : Counters) : RowsMap × Nat :=
  match acc.1.get? ma with
  | some counters => (acc.1.set ma (counters.add c), acc.2 + 1)
  | none => (acc.1.set ma c, acc.2)

/-- `rm.MergeRows(r)`: the map afterwards, and `merged`. -/
def mergeRows (rm : RowsMap) (r : Rows) : RowsMap × Nat :=
  r.foldl (fun acc res => mergeOne acc res.key res.counters) (rm, 0)

/-- `rm.MergeRowsMap(om)`: the map afterwards, and `merged`. -/
def mergeRowsMap (rm om : RowsMap) : RowsMap × Nat :=
  om.entries.foldl (fun acc e => mergeOne acc e.1 e.2) (rm, 0)

/-- `rm.ToRows()`: `make(Rows, len(rm))`, filled by an index loop over the map. -/
def toRows (rm : RowsMap) : Rows :=
  let r : Rows := List.replicate rm.entries.length default
  if rm.entries.length = 0 then r
  else (rm.entries.foldl (fun (acc : Rows × Nat) e =>
    (acc.1.set acc.2 ⟨e.1.labels, e.1.attributes, e.2⟩, acc.2 + 1)) (r, 0)).1

/-! ## Lookups -/

theorem lookup_cons_of_eq {k : MergeableAttributes} {p : MergeableAttributes × Counters}
    (l : List (MergeableAttributes × Counters)) (h : k = p.1) : (p :: l).lookup k = some p.2 := by
  rw [List.lookup_cons, h, beq_self_eq_true]

theorem lookup_cons_of_ne {k : MergeableAttributes} {p : MergeableAttributes × Counters}
    (l : List (MergeableAttributes × Counters)) (h : k ≠ p.1) : (p :: l).lookup k = l.lookup k := by
  rw [List.lookup_cons, beq_eq_false_iff_ne.mpr h]

theorem isSome_lookup_iff (l : List (MergeableAttributes × Counters)) (k : MergeableAttributes) :
    (l.lookup k).isSome ↔ k ∈ l.map Prod.fst := by
  induction l with
  | nil => simp
  | cons p l ih =>
    by_cases h : k = p.1
    · simp [lookup_cons_of_eq l h, h]
    · rw [lookup_cons_of_ne l h, ih, List.map_cons, List.mem_cons]
      simp [h]

theorem lookup_eq_some_iff (l : List (MergeableAttributes × Counters))
    (hl : (l.map Prod.fst).Nodup) (k : MergeableAttributes) (c : Counters) :
    l.lookup k = some c ↔ (k, c) ∈ l := by
  induction l with
  | nil => simp
  | cons p l ih =>
    rw [List.map_cons, List.nodup_cons] at hl
    rw [List.mem_cons]
    by_cases hk : k = p.1
    · subst hk
      have : (p.1, c) ∉ l := fun h => hl.1 (List.mem_map.mpr ⟨_, h, rfl⟩)
      rw [lookup_cons_of_eq l rfl]
      simp [this, Prod.ext_iff, eq_comm]
    · have : (k, c) ≠ p := fun e => hk (e ▸ rfl)
      rw [lookup_cons_of_ne l hk, ih hl.2]
      simp [this]

theorem mem_keys_iff (rm : RowsMap) (k : MergeableAttributes) :
    k ∈ rm.keys ↔ (rm.get? k).isSome :=
  (isSome_lookup_iff _ _).symm

theorem lookup_map_setAt (l : List (MergeableAttributes × Counters)) (k k' : MergeableAttributes)
    (v : Counters) :
    (l.map (setAt k v)).lookup k' = if k' = k then (l.lookup k').map fun _ => v else l.lookup k' := by
  induction l with
  | nil => split_ifs <;> rfl
  | cons p l ih =>
    rw [List.map_cons]
    by_cases hp : k' = p.1
    · rw [lookup_cons_of_eq _ (hp.trans (fst_setAt k v p).symm), lookup_cons_of_eq l hp]
      subst hp
      by_cases hk : p.1 = k <;> simp [hk, setAt]
    · rw [lookup_cons_of_ne _ (by rwa [fst_setAt]), lookup_cons_of_ne l hp, ih]

@[simp] theorem get?_set (rm : RowsMap) (k k' : MergeableAttributes) (v : Counters) :
    (rm.set k v).get? k' = if k' = k then some v else rm.get? k' := by
  unfold set get?
  split_ifs with h hk hk
  · subst hk
    rw [lookup_map_setAt, if_pos rfl]
    obtain ⟨c, hc⟩ := Option.isSome_iff_exists.mp ((isSome_lookup_iff _ _).mpr h)
    simp [hc]
  · rw [lookup_map_setAt, if_neg hk]
  · subst hk
    rw [List.lookup_append, show rm.entries.lookup k' = none from
      Option.not_isSome_iff_eq_none.mp fun hs => h ((isSome_lookup_iff _ _).mp hs)]
    simp
  · rw [List.lookup_append, lookup_cons_of_ne _ hk, List.lookup_nil, Option.or_none]

theorem length_set (rm : RowsMap) (k : MergeableAttributes) (v : Counters) :
    (rm.set k v).entries.length = rm.entries.length + if (rm.get? k).isSome then 0 else 1 := by
  unfold set
  split_ifs with h h' h'
  · simp
  · exact absurd ((mem_keys_iff _ _).mp h) h'
  · exact absurd ((mem_keys_iff _ _).mpr h') h
  · simp

/-- Maps with the same lookups have the same size, whatever order their entries are in. -/
theorem length_eq_of_get? {rm rm' : RowsMap} (h : ∀ k, rm.get? k = rm'.get? k) :
    rm.entries.length = rm'.entries.length := by
  have hp : rm.keys.Perm rm'.keys :=
    (List.perm_ext_iff_of_nodup rm.nodup rm'.nodup).mpr fun k => by
      show k ∈ rm.keys ↔ k ∈ rm'.keys
      rw [mem_keys_iff, mem_keys_iff, h]
  simpa [keys] using hp.length_eq

/-! ## Merging one map -/

theorem get?_mergeOne (acc : RowsMap × Nat) (ma : MergeableAttributes) (c : Counters)
    (k : MergeableAttributes) :
    (mergeOne acc ma c).1.get? k = if k = ma then some ((acc.1.get? ma).getD 0 + c)
      else acc.1.get? k := by
  unfold mergeOne
  split <;> rename_i h <;> simp [h, Counters.add_eq]

theorem merged_add_length_mergeOne (acc : RowsMap × Nat) (ma : MergeableAttributes) (c : Counters) :
    (mergeOne acc ma c).2 + (mergeOne acc ma c).1.entries.length =
      acc.2 + acc.1.entries.length + 1 := by
  unfold mergeOne
  split <;> rename_i h <;> simp [length_set, h] <;> omega

theorem merge_none (a : Option Counters) : Option.merge (· + ·) a none = a := by
  cases a <;> rfl

theorem none_merge (a : Option Counters) : Option.merge (· + ·) none a = a := by
  cases a <;> rfl

/-- The value at `k` after one merge step: `c` added to what was there. -/
theorem merge_mergeOne (a : Option Counters) (c : Counters) :
    some (a.getD 0 + c) = Option.merge (· + ·) a (some c) := by
  cases a <;> simp [Option.merge]

theorem get?_foldl_mergeOne (l : List (MergeableAttributes × Counters))
    (hl : (l.map Prod.fst).Nodup) (acc : RowsMap × Nat) (k : MergeableAttributes) :
    (l.foldl (fun acc e => mergeOne acc e.1 e.2) acc).1.get? k =
      Option.merge (· + ·) (acc.1.get? k) (l.lookup k) := by
  induction l generalizing acc with
  | nil => exact (merge_none _).symm
  | cons p l ih =>
    rw [List.map_cons, List.nodup_cons] at hl
    rw [List.foldl_cons, ih hl.2, get?_mergeOne]
    by_cases hk : k = p.1
    · subst hk
      have hnone : l.lookup p.1 = none :=
        Option.not_isSome_iff_eq_none.mp fun hs => hl.1 ((isSome_lookup_iff _ _).mp hs)
      rw [if_pos rfl, hnone, merge_none, lookup_cons_of_eq l rfl, merge_mergeOne]
    · rw [if_neg hk, lookup_cons_of_ne l hk]

/-- **Merging one map**, at each key: the sum of what the two maps hold. -/
theorem get?_mergeRowsMap (rm om : RowsMap) (k : MergeableAttributes) :
    (rm.mergeRowsMap om).1.get? k = Option.merge (· + ·) (rm.get? k) (om.get? k) :=
  get?_foldl_mergeOne _ om.nodup _ k

theorem merged_add_length_foldl (l : List (MergeableAttributes × Counters)) (acc : RowsMap × Nat) :
    (l.foldl (fun acc e => mergeOne acc e.1 e.2) acc).2 +
        (l.foldl (fun acc e => mergeOne acc e.1 e.2) acc).1.entries.length =
      acc.2 + acc.1.entries.length + l.length := by
  induction l generalizing acc with
  | nil => rfl
  | cons p l ih =>
    rw [List.foldl_cons, ih, merged_add_length_mergeOne, List.length_cons]
    omega

/-- **Merging one map**, in size: each added entry is merged or makes the map one larger. -/
theorem merged_add_length_mergeRowsMap (rm om : RowsMap) :
    (rm.mergeRowsMap om).2 + (rm.mergeRowsMap om).1.entries.length =
      rm.entries.length + om.entries.length := by
  simpa using merged_add_length_foldl om.entries (rm, 0)

/-! ## Merging many maps -/

/-- Merging maps one after another into an empty `RowsMap`, adding up the merged counts. -/
def mergeAll (ms : List RowsMap) : RowsMap × Nat :=
  ms.foldl (fun acc m => ((acc.1.mergeRowsMap m).1, acc.2 + (acc.1.mergeRowsMap m).2)) (empty, 0)

/-- The sum of a list of values, or nothing for the empty list. -/
def sumOf (l : List Counters) : Option Counters := if l = [] then none else some l.sum

theorem merge_sumOf (a : Option Counters) (l : List Counters) :
    Option.merge (· + ·) a (sumOf l) = sumOf (a.toList ++ l) := by
  cases a with
  | none => rw [none_merge]; rfl
  | some c =>
    unfold sumOf
    by_cases hl : l = [] <;> simp [hl, Option.merge]

theorem merge_assoc (a b c : Option Counters) :
    Option.merge (· + ·) (Option.merge (· + ·) a b) c =
      Option.merge (· + ·) a (Option.merge (· + ·) b c) := by
  cases a <;> cases b <;> cases c <;> simp [Option.merge, add_assoc]

theorem get?_foldl_mergeRowsMap (ms : List RowsMap) (acc : RowsMap × Nat) (k : MergeableAttributes) :
    (ms.foldl (fun acc m => ((acc.1.mergeRowsMap m).1, acc.2 + (acc.1.mergeRowsMap m).2)) acc).1.get? k =
      Option.merge (· + ·) (acc.1.get? k) (sumOf (ms.filterMap (·.get? k))) := by
  induction ms generalizing acc with
  | nil => simp [sumOf, merge_none]
  | cons m ms ih =>
    rw [List.foldl_cons, ih, get?_mergeRowsMap, merge_assoc, merge_sumOf]
    congr 2
    cases h : m.get? k <;> simp [h]

theorem merged_add_length_foldl_mergeRowsMap (ms : List RowsMap) (acc : RowsMap × Nat) :
    (ms.foldl (fun acc m => ((acc.1.mergeRowsMap m).1, acc.2 + (acc.1.mergeRowsMap m).2)) acc).2 +
        (ms.foldl (fun acc m => ((acc.1.mergeRowsMap m).1,
          acc.2 + (acc.1.mergeRowsMap m).2)) acc).1.entries.length =
      acc.2 + acc.1.entries.length + (ms.map fun m => m.entries.length).sum := by
  induction ms generalizing acc with
  | nil => simp
  | cons m ms ih =>
    rw [List.foldl_cons, ih, List.map_cons, List.sum_cons]
    have := merged_add_length_mergeRowsMap acc.1 m
    dsimp only
    omega

theorem get?_mergeAll (ms : List RowsMap) (k : MergeableAttributes) :
    (mergeAll ms).1.get? k = sumOf (ms.filterMap (·.get? k)) := by
  rw [mergeAll, get?_foldl_mergeRowsMap]
  exact none_merge _

/-- The merged map holds exactly the keys some input holds. -/
theorem keys_mergeAll_perm (ms : List RowsMap) :
    (mergeAll ms).1.keys.Perm (ms.flatMap keys).dedup := by
  refine (List.perm_ext_iff_of_nodup (mergeAll ms).1.nodup (List.nodup_dedup _)).mpr fun k => ?_
  show k ∈ (mergeAll ms).1.keys ↔ _
  rw [mem_keys_iff, get?_mergeAll, List.mem_dedup, List.mem_flatMap]
  simp only [sumOf, mem_keys_iff]
  by_cases h : ms.filterMap (·.get? k) = []
  · simp only [h, if_true, Option.isSome_none, Bool.false_eq_true, false_iff, not_exists, not_and]
    intro m hm hs
    obtain ⟨c, hc⟩ := Option.isSome_iff_exists.mp hs
    exact List.not_mem_nil c (h ▸ List.mem_filterMap.mpr ⟨m, hm, hc⟩)
  · simp only [h, if_false, Option.isSome_some, true_iff]
    obtain ⟨c, hc⟩ := List.exists_mem_of_ne_nil _ h
    obtain ⟨m, hm, hmc⟩ := List.mem_filterMap.mp hc
    exact ⟨m, hm, by simp [hmc]⟩

/-- **Merging many maps.** Merging a list of maps one after another into an empty map, and
merging any permutation of the list, give the same map and the same total merged count. At
each key the map holds the sum of the values the inputs hold there, and nothing where no input
holds the key; the merged count is the total size of the inputs less their number of distinct
keys. -/
theorem mergeAll_perm {ms ms' : List RowsMap} (hp : ms.Perm ms') :
    (∀ k, (mergeAll ms).1.get? k = (mergeAll ms').1.get? k) ∧
      (mergeAll ms).2 = (mergeAll ms').2 ∧
      (∀ k, (mergeAll ms).1.get? k =
        if ms.filterMap (·.get? k) = [] then none else some (ms.filterMap (·.get? k)).sum) ∧
      (ms.flatMap keys).dedup.length ≤ (ms.map fun m => m.entries.length).sum ∧
      (mergeAll ms).2 = (ms.map fun m => m.entries.length).sum - (ms.flatMap keys).dedup.length := by
  have hsame : ∀ k, (mergeAll ms).1.get? k = (mergeAll ms').1.get? k := fun k => by
    have hf := hp.filterMap (·.get? k)
    rw [get?_mergeAll, get?_mergeAll, sumOf, sumOf, hf.sum_eq]
    simp only [← List.length_eq_zero, hf.length_eq]
  have hcount : ∀ ms : List RowsMap, (mergeAll ms).2 + (mergeAll ms).1.entries.length =
      (ms.map fun m => m.entries.length).sum := fun ms => by
    simpa [empty] using merged_add_length_foldl_mergeRowsMap ms (empty, 0)
  have hkeys : (mergeAll ms).1.entries.length = (ms.flatMap keys).dedup.length := by
    simpa [keys] using (keys_mergeAll_perm ms).length_eq
  have hc := hcount ms
  have hc' := hcount ms'
  have hsum := (hp.map fun m => m.entries.length).sum_eq
  have hlen := length_eq_of_get? hsame
  exact ⟨hsame, by omega, fun k => get?_mergeAll ms k, by omega, by omega⟩

theorem mergeAll_rotate :
    let k₁ : MergeableAttributes := ⟨default, default⟩
    let k₂ : MergeableAttributes := ⟨default, { (default : Attributes) with dstPort := 53 }⟩
    let m₁ : RowsMap := ⟨[(k₁, ⟨1, 0, 1, 0⟩), (k₂, ⟨2, 0, 1, 0⟩)], by decide⟩
    let m₂ : RowsMap := ⟨[(k₂, ⟨5, 0, 1, 0⟩)], List.nodup_singleton _⟩
    let m₃ : RowsMap := ⟨[(k₁, ⟨7, 0, 1, 0⟩)], List.nodup_singleton _⟩
    [m₁, m₂, m₃].Perm [m₃, m₁, m₂] ∧
      (mergeAll [m₁, m₂, m₃]).1.get? k₁ = some ⟨8, 0, 2, 0⟩ ∧ (mergeAll [m₁, m₂, m₃]).2 = 2 ∧
      (∀ k, (mergeAll [m₁, m₂, m₃]).1.get? k = (mergeAll [m₃, m₁, m₂]).1.get? k) ∧
      (mergeAll [m₁, m₂, m₃]).2 = (mergeAll [m₃, m₁, m₂]).2 ∧
      (∀ k, (mergeAll [m₁, m₂, m₃]).1.get? k =
        if [m₁, m₂, m₃].filterMap (·.get? k) = [] then none
        else some ([m₁, m₂, m₃].filterMap (·.get? k)).sum) ∧
      ([m₁, m₂, m₃].flatMap keys).dedup.length ≤
        ([m₁, m₂, m₃].map fun m => m.entries.length).sum ∧
      (mergeAll [m₁, m₂, m₃]).2 = ([m₁, m₂, m₃].map fun m => m.entries.length).sum -
        ([m₁, m₂, m₃].flatMap keys).dedup.length := by
  intro k₁ k₂ m₁ m₂ m₃
  have hp : [m₁, m₂, m₃].Perm [m₃, m₁, m₂] :=
    ((List.Perm.swap m₃ m₂ []).cons m₁).trans (List.Perm.swap m₃ m₁ [m₂])
  exact ⟨hp, rfl, rfl, mergeAll_perm hp⟩

/-! ## Rows and maps -/

/-- The index loop of `ToRows` fills slot `i` with the `i`-th entry's row. -/
theorem foldl_fill {α : Type} (f : α → Row) (pre l : List α) :
    l.foldl (fun (acc : Rows × Nat) e => (acc.1.set acc.2 (f e), acc.2 + 1))
        (pre.map f ++ List.replicate l.length default, pre.length) =
      ((pre ++ l).map f, pre.length + l.length) := by
  induction l generalizing pre with
  | nil => simp
  | cons x l ih =>
    have hset : (pre.map f ++ List.replicate (l.length + 1) default).set pre.length (f x) =
        (pre ++ [x]).map f ++ List.replicate l.length default := by
      rw [List.set_append_right _ _ (by simp), List.length_map, Nat.sub_self, List.replicate_succ]
      simp
    rw [List.foldl_cons, List.length_cons]
    dsimp only
    rw [hset, show pre.length + 1 = (pre ++ [x]).length by simp, ih]
    simp only [List.append_assoc, List.singleton_append, List.length_append,
      List.length_singleton, Prod.mk.injEq, true_and]
    omega

/-- `ToRows` emits the entries' rows, one per entry. -/
theorem toRows_eq (rm : RowsMap) :
    rm.toRows = rm.entries.map fun e => ⟨e.1.labels, e.1.attributes, e.2⟩ := by
  unfold toRows
  split_ifs with h
  · simp [List.length_eq_zero.mp h]
  · simpa using congrArg Prod.fst
      (foldl_fill (fun e => ⟨e.1.labels, e.1.attributes, e.2⟩) [] rm.entries)

/-- **Rows and maps agree.** Adding `rm.ToRows()` to `acc` with `MergeRows` leaves `acc` as
adding `rm` with `MergeRowsMap` does, and returns the same count, however the two loops visit
`rm` (`rm'` is `rm` visited in another order). `ToRows` emits `len(rm)` rows with distinct keys,
one for each entry, with its labels, attributes and counters. -/
theorem mergeRows_toRows (acc rm rm' : RowsMap) (hsame : ∀ k, rm.get? k = rm'.get? k) :
    (∀ k, (acc.mergeRows rm.toRows).1.get? k = (acc.mergeRowsMap rm').1.get? k) ∧
      (acc.mergeRows rm.toRows).2 = (acc.mergeRowsMap rm').2 ∧
      rm.toRows.length = rm.entries.length ∧ (rm.toRows.map Row.key).Nodup ∧
      ∀ row : Row, row ∈ rm.toRows ↔ rm.get? row.key = some row.counters := by
  have hkey : (fun e : MergeableAttributes × Counters =>
      Row.key ⟨e.1.labels, e.1.attributes, e.2⟩) = Prod.fst := rfl
  have hrows : acc.mergeRows rm.toRows = acc.mergeRowsMap rm := by
    rw [mergeRows, toRows_eq, List.foldl_map]
    rfl
  have hget : ∀ k, (acc.mergeRows rm.toRows).1.get? k = (acc.mergeRowsMap rm').1.get? k :=
    fun k => by rw [hrows, get?_mergeRowsMap, get?_mergeRowsMap, hsame]
  have hc := merged_add_length_mergeRowsMap acc rm
  have hc' := merged_add_length_mergeRowsMap acc rm'
  have hlen := length_eq_of_get? hget
  have hlen' := length_eq_of_get? hsame
  refine ⟨hget, by rw [hrows] at hlen ⊢; omega, by simp [toRows_eq],
    by simpa [toRows_eq, hkey] using rm.nodup, fun row => ?_⟩
  rw [toRows_eq, List.mem_map, get?, lookup_eq_some_iff _ rm.nodup]
  exact ⟨fun ⟨e, he, hrow⟩ => hrow ▸ he, fun h => ⟨_, h, rfl⟩⟩

/-- Maps whose entries are one another's permutation have the same lookups. -/
theorem get?_eq_of_perm {rm rm' : RowsMap} (h : rm.entries.Perm rm'.entries)
    (k : MergeableAttributes) : rm.get? k = rm'.get? k :=
  Option.ext fun c => by
    show rm.entries.lookup k = some c ↔ rm'.entries.lookup k = some c
    rw [lookup_eq_some_iff _ rm.nodup, lookup_eq_some_iff _ rm'.nodup, h.mem_iff]

theorem mergeRows_toRows_of_reordered_map :
    let k₁ : MergeableAttributes := ⟨default, default⟩
    let k₂ : MergeableAttributes := ⟨default, { (default : Attributes) with dstPort := 53 }⟩
    let acc : RowsMap := ⟨[(k₁, ⟨1, 0, 1, 0⟩)], List.nodup_singleton _⟩
    let rm : RowsMap := ⟨[(k₁, ⟨2, 0, 1, 0⟩), (k₂, ⟨3, 0, 1, 0⟩)], by decide⟩
    let rm' : RowsMap := ⟨[(k₂, ⟨3, 0, 1, 0⟩), (k₁, ⟨2, 0, 1, 0⟩)], by decide⟩
    (∀ k, rm.get? k = rm'.get? k) ∧
      (acc.mergeRows rm.toRows).1.get? k₁ = some ⟨3, 0, 2, 0⟩ ∧ (acc.mergeRows rm.toRows).2 = 1 ∧
      (∀ k, (acc.mergeRows rm.toRows).1.get? k = (acc.mergeRowsMap rm').1.get? k) ∧
      (acc.mergeRows rm.toRows).2 = (acc.mergeRowsMap rm').2 ∧
      rm.toRows.length = rm.entries.length ∧ (rm.toRows.map Row.key).Nodup ∧
      ∀ row : Row, row ∈ rm.toRows ↔ rm.get? row.key = some row.counters := by
  intro k₁ k₂ acc rm rm'
  have hsame : ∀ k, rm.get? k = rm'.get? k := get?_eq_of_perm (List.Perm.swap _ _ [])
  exact ⟨hsame, rfl, rfl, mergeRows_toRows acc rm rm' hsame⟩

/-! ## Merging rows -/

theorem sumOf_perm {l l' : List Counters} (h : l.Perm l') : sumOf l = sumOf l' := by
  simp only [sumOf, ← List.length_eq_zero, h.length_eq, h.sum_eq]

theorem isSome_merge_sumOf (a : Option Counters) (l : List Counters) :
    (Option.merge (· + ·) a (sumOf l)).isSome ↔ a.isSome ∨ l ≠ [] := by
  rw [merge_sumOf]
  cases a <;> by_cases hl : l = [] <;> simp [sumOf, hl]

/-- `MergeRows` is the map merge of the rows' keys and counters. -/
theorem mergeRows_eq (rm : RowsMap) (r : Rows) :
    rm.mergeRows r = (r.map fun row => (row.key, row.counters)).foldl
      (fun acc e => mergeOne acc e.1 e.2) (rm, 0) := by
  rw [mergeRows, List.foldl_map]

theorem get?_foldl_mergeOne_rows (r : Rows) (acc : RowsMap × Nat) (k : MergeableAttributes) :
    (r.foldl (fun acc res => mergeOne acc res.key res.counters) acc).1.get? k =
      Option.merge (· + ·) (acc.1.get? k)
        (sumOf ((r.filter fun row => row.key = k).map Row.counters)) := by
  induction r generalizing acc with
  | nil => exact (merge_none _).symm
  | cons row r ih =>
    rw [List.foldl_cons, ih, get?_mergeOne]
    by_cases hk : k = row.key
    · subst hk
      rw [if_pos rfl, List.filter_cons_of_pos (by simp), List.map_cons, merge_mergeOne, merge_assoc,
        merge_sumOf]
      rfl
    · rw [if_neg hk, List.filter_cons_of_neg (by simpa [eq_comm] using hk)]

theorem get?_mergeRows (rm : RowsMap) (r : Rows) (k : MergeableAttributes) :
    (rm.mergeRows r).1.get? k = Option.merge (· + ·) (rm.get? k)
      (sumOf ((r.filter fun row => row.key = k).map Row.counters)) :=
  get?_foldl_mergeOne_rows r (rm, 0) k

/-- Every row either adds a key or is counted as merged. -/
theorem merged_add_length_mergeRows (rm : RowsMap) (r : Rows) :
    (rm.mergeRows r).2 + (rm.mergeRows r).1.entries.length = rm.entries.length + r.length := by
  simpa [mergeRows_eq] using
    merged_add_length_foldl (r.map fun row => (row.key, row.counters)) (rm, 0)

/-- The keys after `MergeRows` are the map's and the rows', each once. -/
theorem keys_mergeRows_perm (rm : RowsMap) (r : Rows) :
    (rm.mergeRows r).1.keys.Perm (rm.keys ++ r.map Row.key).dedup := by
  refine (List.perm_ext_iff_of_nodup (rm.mergeRows r).1.nodup (List.nodup_dedup _)).mpr
    fun k => ?_
  show k ∈ (rm.mergeRows r).1.keys ↔ _
  rw [mem_keys_iff, get?_mergeRows, isSome_merge_sumOf, List.mem_dedup, List.mem_append,
    mem_keys_iff, Ne, List.map_eq_nil_iff, List.filter_eq_nil_iff, List.mem_map]
  simp

/-- **`MergeRows` aggregates.** Adding any rows to a map leaves, at each key, the map's value
plus the counters of all the rows with that key; the keys afterwards are the map's and the
rows'; and the merged count is what the rows add beyond those keys, the number of rows that
met a key already there. Any order of the rows gives the same map and count. -/
theorem mergeRows_aggregates (rm : RowsMap) (r : Rows) :
    (∀ k, (rm.mergeRows r).1.get? k = Option.merge (· + ·) (rm.get? k)
        (sumOf ((r.filter fun row => row.key = k).map Row.counters))) ∧
      (rm.mergeRows r).1.keys.Perm (rm.keys ++ r.map Row.key).dedup ∧
      (rm.mergeRows r).2 = rm.entries.length + r.length - (rm.keys ++ r.map Row.key).dedup.length ∧
      ∀ r', r.Perm r' → (∀ k, (rm.mergeRows r).1.get? k = (rm.mergeRows r').1.get? k) ∧
        (rm.mergeRows r).2 = (rm.mergeRows r').2 := by
  have hlen : (rm.mergeRows r).1.entries.length = (rm.keys ++ r.map Row.key).dedup.length := by
    simpa [keys] using (keys_mergeRows_perm rm r).length_eq
  refine ⟨get?_mergeRows rm r, keys_mergeRows_perm rm r,
    by have := merged_add_length_mergeRows rm r; omega, fun r' hp => ?_⟩
  have hsame : ∀ k, (rm.mergeRows r).1.get? k = (rm.mergeRows r').1.get? k := fun k => by
    rw [get?_mergeRows, get?_mergeRows, sumOf_perm ((hp.filter _).map _)]
  have := merged_add_length_mergeRows rm r
  have := merged_add_length_mergeRows rm r'
  have := length_eq_of_get? hsame
  exact ⟨hsame, by have := hp.length_eq; omega⟩

end RowsMap

end GoProbe
