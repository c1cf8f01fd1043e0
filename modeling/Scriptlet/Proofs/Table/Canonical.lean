/-
**The canonical layout of a table.**

What a table holds is told by its insertions; how it holds it is told by less. The names in the
order of their first insertions and their latest values determine every chain, the number of names
determines the number of bins, and nothing else of the insertions is left.

* `Table.firstNames`, `Scope.latest`: the names in that order, and their values.
* `Table.Fitted`: the number of bins is the least doubling of the initial one that is not crowded;
  an insertion keeps it so (`Table.Fitted.insert`), since one doubling makes room for one name.
* `Scope.names_ordered`: a table's order of entries is the one of the first insertions.
* `Table.ofInsertionsByLoad_eq`: growing by the load factor makes the same table.
* `Table.ofInsertions_canonical`: **the bins of a table after any insertions**, and what follows for
  chains, for other insertions and for a name that is inserted again.
-/

import Mathlib.Data.List.Induction
import Mathlib.Order.Bounds.Basic
import Scriptlet.Proofs.Scope.Refinement
import Scriptlet.Proofs.Table.Load

namespace Scriptlet

open scoped Powers

/-! ### Chains -/

namespace Chain

variable {α : Type} {chain other : Chain α}

theorem get?_of_mem {entry : String × α} (once : chain.names.Nodup) (member : entry ∈ chain) :
    chain.get? entry.1 = some entry.2 := by
  induction chain with
  | nil => cases member
  | cons first rest hypothesis =>
    rw [names_cons, List.nodup_cons] at once
    rcases List.mem_cons.mp member with rfl | later
    · simp [get?]
    · have different : first.1 ≠ entry.1 := by
        intro same
        exact once.1 (same ▸ List.mem_map_of_mem later)
      rw [get?, if_neg different, hypothesis once.2 later]

/-- **A chain is told by its names in order and their values.** -/
theorem eq_of_names (once : chain.names.Nodup) (same : chain.names = other.names)
    (values : ∀ name, chain.get? name = other.get? name) : chain = other := by
  have again : other.names.Nodup := same ▸ once
  refine List.ext_getElem (by simpa [names] using congrArg List.length same) ?_
  intro index first second
  have name : chain[index].1 = other[index].1 := by
    have inside : index < chain.names.length := by rwa [length_names]
    simpa [names] using List.getElem_of_eq same inside
  have left : chain.get? chain[index].1 = some chain[index].2 :=
    get?_of_mem once (List.getElem_mem first)
  have right : other.get? other[index].1 = some other[index].2 :=
    get?_of_mem again (List.getElem_mem second)
  rw [name, values, right] at left
  exact Prod.ext name (Option.some.inj left).symm

theorem names_select (condition : String → Bool) :
    (chain.select condition).names = chain.names.filter condition := by
  rw [names, select, names, List.filter_map]
  rfl

end Chain

/-! ### The order of the entries -/

/-- An item behind others is kept if it is none of them. -/
theorem eraseDups_concat (names : List String) (name : String) :
    (names ++ [name]).eraseDups =
      if name ∈ names then names.eraseDups else names.eraseDups ++ [name] := by
  rw [List.eraseDups_append]
  by_cases known : name ∈ names
  · simp [List.removeAll, known]
  · simp [List.removeAll, known, List.eraseDups_cons]

/-- **The entries of a table are in the order of the first insertions.** -/
theorem Scope.names_ordered {α : Type} (insertions : List (String × α)) :
    (Scope.ordered insertions).names = (Scope.inserted insertions).reverse.eraseDups := by
  induction insertions with
  | nil => rfl
  | cons entry rest hypothesis =>
    have names : (Scope.ordered (entry :: rest)).names =
        if entry.1 ∈ (Scope.ordered rest).names then (Scope.ordered rest).names
        else (Scope.ordered rest).names ++ [entry.1] := Chain.names_put
    have inserted : Scope.inserted (entry :: rest) = entry.1 :: Scope.inserted rest := rfl
    rw [names, inserted, List.reverse_cons, eraseDups_concat, hypothesis]
    simp only [List.mem_eraseDups]

namespace Table

variable {α : Type} {table other : Table α} {name : String} {value : α} {chain : Chain α}

/-! ### The number of bins -/

@[simp] theorem binCount_grow : table.grow.binCount = 2 * table.binCount :=
  Bins.size_distribute ..

@[simp] theorem binCount_insertNew
    (unknown : (table.chain name).overwrite? name value = none) :
    (table.insertNew name value unknown).binCount = table.binCount := Bins.size_append ..

@[simp] theorem binCount_overwrite
    (known : (table.chain name).overwrite? name value = some chain) :
    (table.overwrite name value chain known).binCount = table.binCount :=
  Array.size_setIfInBounds ..

/-- **The bins fit the names**: their number is the least doubling of the initial one for which the
table is not crowded. -/
def Fitted (table : Table α) : Prop :=
  ∃ doublings, table.binCount = initialBins * 2 ^ doublings ∧
    IsLeast {count : ℕ | 4 * table.size ≤ 3 * (initialBins * 2 ^ count)} doublings

theorem fitted_empty : (empty : Table α).Fitted :=
  ⟨0, Array.size_replicate, Nat.zero_le _, fun _ _ => Nat.zero_le _⟩

/-- One doubling makes room for one more name. -/
theorem Fitted.insertNew (fitted : table.Fitted)
    (unknown : (table.chain name).overwrite? name value = none) :
    (table.insertNew name value unknown).relieved.Fitted := by
  obtain ⟨doublings, bins, enough, least⟩ := fitted
  have size : (table.insertNew name value unknown).size = table.size + 1 := rfl
  have enough : 4 * table.size ≤ 3 * (initialBins * 2 ^ doublings) := enough
  have several : initialBins ≤ initialBins * 2 ^ doublings :=
    Nat.le_mul_of_pos_right initialBins (Nat.two_pow_pos doublings)
  have initial : initialBins = 10 := rfl
  rw [relieved]
  by_cases crowded : (table.insertNew name value unknown).crowded
  · have beyond : 3 * (initialBins * 2 ^ doublings) < 4 * (table.size + 1) := by
      simpa [Table.crowded, size, bins] using crowded
    have double : initialBins * 2 ^ (doublings + 1) = 2 * (initialBins * 2 ^ doublings) := by
      rw [Nat.pow_succ, ← Nat.mul_assoc, Nat.mul_comm]
    rw [if_pos crowded]
    refine ⟨doublings + 1, ?_, ?_, ?_⟩
    · rw [binCount_grow, binCount_insertNew, bins, double]
    · show 4 * (table.size + 1) ≤ 3 * (initialBins * 2 ^ (doublings + 1))
      omega
    · intro count room
      have room : 4 * (table.size + 1) ≤ 3 * (initialBins * 2 ^ count) := room
      by_contra fewer
      have smaller : initialBins * 2 ^ count ≤ initialBins * 2 ^ doublings :=
        Nat.mul_le_mul_left _ (Nat.pow_le_pow_right (by decide) (by omega))
      omega
  · have within : 4 * (table.size + 1) ≤ 3 * (initialBins * 2 ^ doublings) := by
      simpa [Table.crowded, size, bins] using crowded
    rw [if_neg crowded]
    refine ⟨doublings, by rw [binCount_insertNew, bins], within, ?_⟩
    intro count room
    have room : 4 * (table.size + 1) ≤ 3 * (initialBins * 2 ^ count) := room
    exact least (show 4 * table.size ≤ 3 * (initialBins * 2 ^ count) by omega)

/-- **An insertion keeps the bins fitted.** -/
theorem Fitted.insert (fitted : table.Fitted) (name : String) (value : α) :
    (table.insert name value).Fitted := by
  unfold Table.insert
  split
  · next chain walk =>
    obtain ⟨doublings, bins, least⟩ := fitted
    exact ⟨doublings, (binCount_overwrite walk).trans bins, least⟩
  · next walk => exact fitted.insertNew walk

/-- Tables with the same bins and as many names are the same. -/
theorem eq_of_bins (bins : table.bins = other.bins) (size : table.size = other.size) :
    table = other := by
  cases table
  cases other
  cases bins
  cases size
  rfl

/-- As many names need as many bins. -/
theorem Fitted.binCount_eq (fitted : table.Fitted) (otherFitted : other.Fitted)
    (size : table.size = other.size) : table.binCount = other.binCount := by
  obtain ⟨doublings, bins, least⟩ := fitted
  obtain ⟨others, otherBins, otherLeast⟩ := otherFitted
  obtain rfl : doublings = others := IsLeast.unique least (size ▸ otherLeast)
  rw [bins, otherBins]

/-- Few names have few bins: a doubling less would not be enough. -/
theorem Fitted.binCount_lt (fitted : table.Fitted) (few : table.size < 2 ^ 50) :
    table.binCount < 2 ^ 52 := by
  obtain ⟨doublings, bins, -, least⟩ := fitted
  have initial : initialBins = 10 := rfl
  rw [bins, initial]
  cases doublings with
  | zero => decide
  | succ doublings =>
    have needed : ¬ 4 * table.size ≤ 3 * (initialBins * 2 ^ doublings) := by
      intro enough
      exact Nat.not_succ_le_self doublings (least enough)
    rw [initial] at needed
    rw [Nat.pow_succ]
    omega

/-- **The entries in their order and a fitted number of bins determine a table.** -/
theorem eq_of_ordered {ordered : Chain α} (laid : table.Ordered ordered) (fitted : table.Fitted)
    (otherLaid : other.Ordered ordered) (otherFitted : other.Fitted) : table = other := by
  have size : table.size = other.size := laid.size_eq.trans otherLaid.size_eq.symm
  have count : table.bins.size = other.bins.size := fitted.binCount_eq otherFitted size
  refine eq_of_bins (Array.ext_getElem? fun index => ?_) size
  by_cases inside : index < table.bins.size
  · rw [laid.bin index inside, otherLaid.bin index (count ▸ inside), count]
  · rw [Array.getElem?_eq_none (Nat.le_of_not_lt inside),
      Array.getElem?_eq_none (count ▸ Nat.le_of_not_lt inside)]

/-! ### Tables of insertions -/

/-- **The table after some insertions**, the first of them first. -/
def ofInsertions (insertions : List (String × α)) : Table α :=
  insertions.foldl (fun table entry => table.insert entry.1 entry.2) .empty

/-- **The distinct names of some insertions**, in the order of their first insertions. -/
def firstNames (insertions : List (String × α)) : List String :=
  (insertions.map Prod.fst).eraseDups

/-- **The value last inserted under a name.** -/
def lastValue? (insertions : List (String × α)) (name : String) : Option α :=
  Scope.latest name insertions.reverse

theorem ofInsertions_concat (insertions : List (String × α)) (entry : String × α) :
    ofInsertions (insertions ++ [entry]) = (ofInsertions insertions).insert entry.1 entry.2 := by
  rw [ofInsertions, List.foldl_append]
  rfl

theorem ofInsertions_fitted (insertions : List (String × α)) :
    (ofInsertions insertions).Fitted := by
  induction insertions using List.reverseRecOn with
  | nil => exact fitted_empty
  | append_singleton insertions entry hypothesis =>
    rw [ofInsertions_concat]
    exact hypothesis.insert entry.1 entry.2

/-- The entries that insertions leave in a table, in the order of their first insertions. -/
theorem ofInsertions_ordered (insertions : List (String × α)) :
    (ofInsertions insertions).Ordered (Scope.ordered insertions.reverse) := by
  induction insertions using List.reverseRecOn with
  | nil => exact ordered_empty
  | append_singleton insertions entry hypothesis =>
    rw [ofInsertions_concat, List.reverse_append]
    exact hypothesis.insert entry.1 entry.2

theorem names_ordered_reverse (insertions : List (String × α)) :
    (Scope.ordered insertions.reverse).names = firstNames insertions := by
  rw [Scope.names_ordered, Scope.inserted, List.map_reverse, List.reverse_reverse]
  rfl

theorem ofInsertions_size (insertions : List (String × α)) :
    (ofInsertions insertions).size = (firstNames insertions).length := by
  rw [← names_ordered_reverse, Chain.length_names]
  exact (ofInsertions_ordered insertions).size_eq

theorem firstNames_concat (insertions : List (String × α)) (entry : String × α) :
    firstNames (insertions ++ [entry]) =
      if entry.1 ∈ firstNames insertions then firstNames insertions
      else firstNames insertions ++ [entry.1] := by
  rw [firstNames, List.map_append, List.map_singleton, eraseDups_concat]
  simp only [firstNames, List.mem_eraseDups]

/-- **The table after some insertions that grow by the load factor.** -/
def ofInsertionsByLoad (insertions : List (String × α)) : Table α :=
  insertions.foldl (fun table entry => table.insertByLoad entry.1 entry.2) .empty

/-- **Growing by the load factor makes the same table**, for fewer than `2 ^ 50` names. -/
theorem ofInsertionsByLoad_eq {insertions : List (String × α)}
    (few : (firstNames insertions).length < 2 ^ 50) :
    ofInsertionsByLoad insertions = ofInsertions insertions := by
  induction insertions using List.reverseRecOn with
  | nil => rw [ofInsertionsByLoad, ofInsertions, List.foldl_nil, List.foldl_nil]
  | append_singleton insertions entry hypothesis =>
    have before : (firstNames insertions).length < 2 ^ 50 := by
      refine Nat.lt_of_le_of_lt ?_ few
      rw [firstNames_concat]
      split
      · exact Nat.le_refl _
      · rw [List.length_append]
        exact Nat.le_add_right ..
    have names : (ofInsertions insertions).size < 2 ^ 50 := by rwa [ofInsertions_size]
    have bins := (ofInsertions_fitted insertions).binCount_lt names
    have room : (ofInsertions insertions).size + 1 < 2 ^ significandBits := by
      unfold significandBits
      omega
    rw [ofInsertionsByLoad, List.foldl_append, ofInsertions_concat]
    show (ofInsertionsByLoad insertions).insertByLoad entry.1 entry.2 = _
    rw [hypothesis before, insertByLoad_eq _ entry.1 entry.2 room bins]

section Bins

variable (insertions : List (String × α))

/-- **A bin holds the names that belong there**, in the order of their first insertions and each with
its latest value. -/
theorem ofInsertions_bin {index : ℕ} (inside : index < (ofInsertions insertions).binCount) :
    ∃ chain, (ofInsertions insertions).bins[index]? = some chain ∧
      chain.names = (firstNames insertions).filter
        (fun name => binIndex name (ofInsertions insertions).binCount = index) ∧
      ∀ entry ∈ chain, lastValue? insertions entry.1 = some entry.2 := by
  have laid := ofInsertions_ordered insertions
  refine ⟨_, laid.bin index inside, ?_, ?_⟩
  · rw [Chain.bin, Chain.names_select, names_ordered_reverse]
    rfl
  · intro entry member
    rw [lastValue?, ← Scope.get?_ordered]
    exact Chain.get?_of_mem laid.once (List.mem_of_mem_filter member)

/-- The chain of a name has as many entries as there are names in its bin. -/
theorem length_chain_ofInsertions (name : String) :
    ((ofInsertions insertions).chain name).length =
      (firstNames insertions).countP fun other =>
        binIndex other (ofInsertions insertions).binCount =
          binIndex name (ofInsertions insertions).binCount := by
  have inside := binIndex_lt name (ofInsertions insertions).bins_pos
  obtain ⟨chain, bin, names, -⟩ := ofInsertions_bin insertions inside
  have found : (ofInsertions insertions).chain name = chain := by
    rw [Table.chain, Array.getD_eq_getD_getElem?, Table.index, binCount, bin, Option.getD_some]
  rw [found, ← Chain.length_names, names, List.countP_eq_length_filter]
  rfl

/-- **A name that is inserted again** changes neither the number of bins nor the names of any. -/
theorem names_bin_reinsert {name : String} (known : name ∈ firstNames insertions) (value : α) :
    ((ofInsertions insertions).insert name value).binCount = (ofInsertions insertions).binCount ∧
    ∀ index : ℕ, (((ofInsertions insertions).insert name value).bins[index]?).map Chain.names =
      ((ofInsertions insertions).bins[index]?).map Chain.names := by
  have same : firstNames (insertions ++ [(name, value)]) = firstNames insertions := by
    rw [firstNames_concat, if_pos known]
  have again : ofInsertions (insertions ++ [(name, value)]) =
      (ofInsertions insertions).insert name value := ofInsertions_concat insertions (name, value)
  have count := (ofInsertions_fitted (insertions ++ [(name, value)])).binCount_eq
    (ofInsertions_fitted insertions) (by rw [ofInsertions_size, ofInsertions_size, same])
  rw [← again]
  refine ⟨count, fun index => ?_⟩
  by_cases inside : index < (ofInsertions insertions).binCount
  · obtain ⟨chain, bin, names, -⟩ := ofInsertions_bin insertions inside
    obtain ⟨changed, newBin, newNames, -⟩ :=
      ofInsertions_bin (insertions ++ [(name, value)]) (count ▸ inside)
    rw [bin, newBin, Option.map_some, Option.map_some, names, newNames, same, count]
  · have outside : ¬ index < (ofInsertions (insertions ++ [(name, value)])).binCount := by
      rw [count]
      exact inside
    rw [Array.getElem?_eq_none (Nat.le_of_not_lt inside),
      Array.getElem?_eq_none (Nat.le_of_not_lt outside)]

/-- **The names in their order and their values determine the table.** -/
theorem ofInsertions_eq {others : List (String × α)}
    (names : firstNames others = firstNames insertions)
    (values : ∀ name, lastValue? others name = lastValue? insertions name) :
    ofInsertions others = ofInsertions insertions := by
  have ordered : Scope.ordered others.reverse = Scope.ordered insertions.reverse := by
    refine Chain.eq_of_names (Scope.nodup_ordered _) ?_ fun name => ?_
    · rw [names_ordered_reverse, names_ordered_reverse, names]
    · rw [Scope.get?_ordered, Scope.get?_ordered]
      exact values name
  exact eq_of_ordered (ordered ▸ ofInsertions_ordered others) (ofInsertions_fitted others)
    (ofInsertions_ordered insertions) (ofInsertions_fitted insertions)

end Bins

/-- **The canonical layout of a table after any insertions.** The number of bins is ten, doubled as
often as the number of distinct names needs; each bin holds the names that belong there, in the
order of their first insertions and with their latest values. So insertions with the same first
names and latest values leave the same table, a chain has as many entries as names share its bin,
and a name that is inserted again changes no order and no number of bins. For fewer than `2 ^ 50`
names, this is also the table that grows by its load factor in double precision. -/
theorem ofInsertions_canonical (insertions : List (String × α)) :
    (∃ doublings, (ofInsertions insertions).binCount = 10 * 2 ^ doublings ∧
      IsLeast {count : ℕ | 4 * (firstNames insertions).length ≤ 3 * (10 * 2 ^ count)}
        doublings) ∧
    (∀ index < (ofInsertions insertions).binCount,
      ∃ chain, (ofInsertions insertions).bins[index]? = some chain ∧
        chain.names = (firstNames insertions).filter
          (fun name => binIndex name (ofInsertions insertions).binCount = index) ∧
        ∀ entry ∈ chain, lastValue? insertions entry.1 = some entry.2) ∧
    (∀ others, firstNames others = firstNames insertions →
      (∀ name, lastValue? others name = lastValue? insertions name) →
      ofInsertions others = ofInsertions insertions) ∧
    (∀ name, ((ofInsertions insertions).chain name).length =
      (firstNames insertions).countP fun other =>
        binIndex other (ofInsertions insertions).binCount =
          binIndex name (ofInsertions insertions).binCount) ∧
    (∀ name ∈ firstNames insertions, ∀ value,
      ((ofInsertions insertions).insert name value).binCount =
        (ofInsertions insertions).binCount ∧
      ∀ index : ℕ, (((ofInsertions insertions).insert name value).bins[index]?).map Chain.names =
        ((ofInsertions insertions).bins[index]?).map Chain.names) ∧
    ((firstNames insertions).length < 2 ^ 50 →
      ofInsertionsByLoad insertions = ofInsertions insertions) := by
  refine ⟨?_, fun index => ofInsertions_bin insertions, fun others => ofInsertions_eq insertions,
    length_chain_ofInsertions insertions, fun name => names_bin_reinsert insertions,
    ofInsertionsByLoad_eq⟩
  rw [← ofInsertions_size]
  exact ofInsertions_fitted insertions

/-- The eighth name doubles the bins, and the ninth insertion is one of a known name. -/
theorem ofInsertions_canonical_doubled :
    (ofInsertions [("a", 1), ("b", 2), ("c", 3), ("d", 4), ("e", 5), ("f", 6), ("g", 7), ("h", 8),
      ("b", 9)]).binCount = 20 ∧
    ofInsertionsByLoad [("a", 1), ("b", 2), ("c", 3), ("d", 4), ("e", 5), ("f", 6), ("g", 7),
      ("h", 8), ("b", 9)] = ofInsertions [("a", 1), ("b", 2), ("c", 3), ("d", 4), ("e", 5),
        ("f", 6), ("g", 7), ("h", 8), ("b", 9)] := by
  have count : (firstNames [("a", 1), ("b", 2), ("c", 3), ("d", 4), ("e", 5), ("f", 6), ("g", 7),
      ("h", 8), ("b", 9)]).length = 8 := by decide
  obtain ⟨⟨doublings, bins, least⟩, -, -, -, -, load⟩ := ofInsertions_canonical [("a", 1), ("b", 2),
    ("c", 3), ("d", 4), ("e", 5), ("f", 6), ("g", 7), ("h", 8), ("b", 9)]
  rw [count] at least load
  have once : IsLeast {count : ℕ | 4 * 8 ≤ 3 * (10 * 2 ^ count)} 1 := by
    refine ⟨show 4 * 8 ≤ 3 * (10 * 2 ^ 1) by decide, fun count enough => ?_⟩
    refine Nat.pos_of_ne_zero ?_
    rintro rfl
    exact absurd enough (by decide)
  obtain rfl := least.unique once
  exact ⟨bins, load (by decide)⟩

end Table

end Scriptlet
