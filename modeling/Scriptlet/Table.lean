/-
**A hash table of names** with chained bins.

A name's bin is given by a polynomial hash of its bytes. A new name goes to the end of its chain, a
known one keeps its place. When more than three quarters as many names as bins are stored, the
number of bins doubles and every entry moves to its new bin, old bins in order.

A table carries its layout: there is an order of all its entries, without a name twice, such that
every bin holds the entries that belong there, in that order. Doubling keeps the order, because the
entries that share a bin among twice as many bins shared one before.

* `binIndex`: the bin of a name among a number of bins.
* `Table.insert`, `Table.get?`, `Table.contains`, `Table.chain`.
* `Laid`: the layout; `Table.Ordered.insert`: **inserting puts the entry into the order.**
* `Table.get?_insert`: the law of a finite map, whatever the bins are.
-/

import Scriptlet.Table.Chain

namespace Scriptlet

/-- The factor of the hash. -/
def hashFactor : UInt64 := 499

/-- **The hash of some bytes**: a polynomial in the hash factor, modulo `2 ^ 64`. -/
def hashBytes (bytes : Array UInt8) : UInt64 :=
  bytes.foldl (fun hash byte => hash * hashFactor + byte.toUInt64) 0

/-- **The bin of a name** among a number of bins. -/
def binIndex (name : String) (bins : Nat) : Nat :=
  (hashBytes name.toUTF8.data).toNat % bins

theorem binIndex_lt (name : String) {count : Nat} (positive : 0 < count) :
    binIndex name count < count :=
  Nat.mod_lt _ positive

/-- The bin among twice as many bins tells the bin. -/
theorem binIndex_double (name : String) (count : Nat) :
    binIndex name (2 * count) % count = binIndex name count :=
  Nat.mod_mul_left_mod ..

/-! ### Layouts -/

section Layouts

variable {α : Type}

/-- The entries that belong to a bin. -/
def Chain.bin (ordered : Chain α) (count index : Nat) : Chain α :=
  ordered.select fun name => binIndex name count = index

/-- **Entries laid out in bins**: no name twice, and each bin holds the entries that belong there,
in the given order. -/
structure Laid (bins : Array (Chain α)) (size : Nat) (ordered : Chain α) : Prop where
  once : ordered.names.Nodup
  size_eq : size = ordered.length
  bin : ∀ index < bins.size, bins[index]? = some (ordered.bin bins.size index)

namespace Bins

/-- An entry goes to the end of its chain. -/
def append (bins : Array (Chain α)) (entry : String × α) : Array (Chain α) :=
  bins.modify (binIndex entry.1 bins.size) (· ++ [entry])

/-- The given entries in a number of bins. -/
def distribute (count : Nat) (entries : List (String × α)) : Array (Chain α) :=
  entries.foldl append (.replicate count [])

@[simp] theorem size_append (bins : Array (Chain α)) (entry : String × α) :
    (append bins entry).size = bins.size := by
  simp [append]

theorem size_foldl_append (bins : Array (Chain α)) (entries : List (String × α)) :
    (entries.foldl append bins).size = bins.size := by
  induction entries generalizing bins with
  | nil => rfl
  | cons entry rest hypothesis => rw [List.foldl_cons, hypothesis, size_append]

@[simp] theorem size_distribute (count : Nat) (entries : List (String × α)) :
    (distribute count entries).size = count := by
  rw [distribute, size_foldl_append, Array.size_replicate]

/-- Each entry goes to the end of the bin it belongs to. -/
theorem getElem?_foldl_append (bins : Array (Chain α)) (entries : Chain α) (index : Nat) :
    (entries.foldl append bins)[index]? =
      bins[index]?.map (· ++ entries.bin bins.size index) := by
  induction entries generalizing bins with
  | nil => simp [Chain.bin, Chain.select]
  | cons entry rest hypothesis =>
    rw [List.foldl_cons, hypothesis, size_append, append, Array.getElem?_modify]
    by_cases here : binIndex entry.1 bins.size = index
    · simp [Chain.bin, Chain.select, here, Function.comp_def]
    · simp [Chain.bin, Chain.select, here]

/-- **Distributed entries are in the bins they belong to**, in their order. -/
theorem getElem?_distribute {count index : Nat} (inside : index < count) (entries : Chain α) :
    (distribute count entries)[index]? = some (entries.bin count index) := by
  rw [distribute, getElem?_foldl_append]
  simp [inside]

end Bins

open Bins

theorem flatMap_range_single {β : Type} {count index : Nat} {items : Nat → List β}
    (inside : index < count) (others : ∀ other, other ≠ index → items other = []) :
    (List.range count).flatMap items = items index := by
  induction count with
  | zero => omega
  | succ count hypothesis =>
    rw [List.range_succ, List.flatMap_append, List.flatMap_singleton]
    by_cases last : index = count
    · have front : (List.range count).flatMap items = [] := by
        rw [List.flatMap_eq_nil_iff]
        intro other member
        exact others other (by rw [List.mem_range] at member; omega)
      rw [front, List.nil_append, last]
    · rw [hypothesis (by omega), others count (Ne.symm last), List.append_nil]

/-- **Doubling keeps the order of a bin**: the entries of a new bin all come from one old bin. -/
theorem Laid.bin_flatten {bins : Array (Chain α)} {size : Nat} {ordered : Chain α}
    (laid : Laid bins size ordered) (positive : 0 < bins.size) (index : Nat) :
    Chain.bin bins.toList.flatten (2 * bins.size) index = ordered.bin (2 * bins.size) index := by
  have lists : bins.toList = (List.range bins.size).map (ordered.bin bins.size) := by
    refine List.ext_getElem? fun place => ?_
    by_cases inside : place < bins.size
    · rw [Array.getElem?_toList, laid.bin place inside]
      simp [inside]
    · simp [inside]
  have parts : Chain.bin bins.toList.flatten (2 * bins.size) index =
      (List.range bins.size).flatMap fun old =>
        (ordered.bin bins.size old).bin (2 * bins.size) index := by
    rw [lists, Chain.bin, Chain.select, List.filter_flatten, List.map_map, List.flatMap_def]
    rfl
  rw [parts, flatMap_range_single (Nat.mod_lt index positive)]
  · refine (List.filter_filter).trans (List.filter_congr fun entry _ => ?_)
    by_cases new : binIndex entry.1 (2 * bins.size) = index
    · simp [new, ← binIndex_double entry.1 bins.size]
    · simp [new]
  · intro old different
    refine List.filter_eq_nil_iff.mpr fun entry member new => different ?_
    have before : binIndex entry.1 bins.size = old := by
      simpa using (List.mem_filter.mp member).2
    have after : binIndex entry.1 (2 * bins.size) = index := by simpa using new
    rw [← before, ← after, binIndex_double]

namespace Laid

variable {bins : Array (Chain α)} {size : Nat} {ordered chain : Chain α} {name : String} {value : α}

theorem getD_bin (laid : Laid bins size ordered) {index : Nat} (inside : index < bins.size) :
    bins.getD index [] = ordered.bin bins.size index := by
  rw [Array.getD_eq_getD_getElem?, laid.bin index inside]
  rfl

/-- The walk along a name's bin finds what a walk along all entries finds. -/
theorem overwrite?_bin (laid : Laid bins size ordered) (positive : 0 < bins.size) :
    (bins.getD (binIndex name bins.size) []).overwrite? name value =
      (ordered.overwrite? name value).map
        fun changed => changed.bin bins.size (binIndex name bins.size) := by
  rw [laid.getD_bin (binIndex_lt name positive), Chain.bin, Chain.overwrite?_select _ (by simp)]
  rfl

theorem overwrite (laid : Laid bins size ordered) (positive : 0 < bins.size)
    (known : (bins.getD (binIndex name bins.size) []).overwrite? name value = some chain) :
    Laid (bins.setIfInBounds (binIndex name bins.size) chain) size (ordered.put name value) := by
  rw [laid.overwrite?_bin positive, Option.map_eq_some_iff] at known
  obtain ⟨changed, found, rfl⟩ := known
  have member : name ∈ ordered.names := by
    refine Decidable.of_not_not fun unknown => ?_
    rw [Chain.overwrite?_eq_none_iff.mpr unknown] at found
    cases found
  have same : ordered.put name value = changed := by rw [Chain.put, found, Option.getD_some]
  refine ⟨Chain.nodup_put laid.once, ?_, ?_⟩
  · rw [Chain.length_put, if_pos member, laid.size_eq]
  · intro index inside
    rw [Array.size_setIfInBounds] at inside ⊢
    rw [same, Array.getElem?_setIfInBounds]
    by_cases here : binIndex name bins.size = index
    · rw [if_pos here, if_pos (here ▸ inside), here]
    · rw [if_neg here, laid.bin index inside, Chain.bin, Chain.bin,
        Chain.select_of_overwrite? _ (by simpa using here) found]

theorem appendNew (laid : Laid bins size ordered) (positive : 0 < bins.size)
    (unknown : (bins.getD (binIndex name bins.size) []).overwrite? name value = none) :
    Laid (append bins (name, value)) (size + 1) (ordered.put name value) := by
  rw [laid.overwrite?_bin positive, Option.map_eq_none_iff] at unknown
  have same : ordered.put name value = ordered ++ [(name, value)] := by
    rw [Chain.put, unknown, Option.getD_none]
  refine ⟨Chain.nodup_put laid.once, ?_, ?_⟩
  · rw [same, List.length_append, laid.size_eq]
    rfl
  · intro index inside
    have one := getElem?_foldl_append bins [(name, value)] index
    rw [size_append] at inside ⊢
    rw [List.foldl_cons, List.foldl_nil] at one
    rw [one, laid.bin index inside, same]
    simp [Chain.bin, Chain.select]

theorem double (laid : Laid bins size ordered) (positive : 0 < bins.size) :
    Laid (distribute (2 * bins.size) bins.toList.flatten) size ordered := by
  refine ⟨laid.once, laid.size_eq, ?_⟩
  intro index inside
  rw [size_distribute] at inside ⊢
  rw [getElem?_distribute inside, laid.bin_flatten positive]

end Laid

end Layouts

/-! ### Tables -/

/-- **A table of names.** -/
structure Table (α : Type) where
  /-- The chains, one for each bin. -/
  bins : Array (Chain α)
  /-- The number of stored names. -/
  size : Nat
  /-- There is a bin for every name. -/
  bins_pos : 0 < bins.size
  /-- Every entry is in the bin of its name, and no name is stored twice. -/
  laid : ∃ ordered, Laid bins size ordered

namespace Table

open Bins

variable {α : Type}

/-- The number of bins of an empty table. -/
def initialBins : Nat := 10

/-- **The table without names.** -/
def empty : Table α where
  bins := .replicate initialBins []
  size := 0
  bins_pos := by simp [initialBins]
  laid := by
    refine ⟨[], ⟨by simp, rfl, ?_⟩⟩
    intro index inside
    rw [Array.size_replicate] at inside
    simp [inside, Chain.bin, Chain.select]

instance : Inhabited (Table α) := ⟨empty⟩

/-- The number of bins. -/
def binCount (table : Table α) : Nat := table.bins.size

/-- The bin of a name. -/
def index (table : Table α) (name : String) : Nat := binIndex name table.binCount

/-- The chain in which a name is stored, if it is stored. -/
def chain (table : Table α) (name : String) : Chain α := table.bins.getD (table.index name) []

/-- **The value of a name.** -/
def get? (table : Table α) (name : String) : Option α := (table.chain name).get? name

/-- Whether a name is stored. -/
def contains (table : Table α) (name : String) : Bool := (table.get? name).isSome

/-- Whether no name is stored. -/
def isEmpty (table : Table α) : Bool := table.size = 0

/-- The entries, bin by bin. -/
def entries (table : Table α) : List (String × α) := table.bins.toList.flatten

/-- Twice as many bins for the same entries. -/
def grow (table : Table α) : Table α where
  bins := distribute (2 * table.binCount) table.entries
  size := table.size
  bins_pos := by
    have positive := table.bins_pos
    rw [size_distribute, binCount]
    omega
  laid := by
    obtain ⟨ordered, laid⟩ := table.laid
    exact ⟨ordered, laid.double table.bins_pos⟩

/-- Whether more than three quarters as many names as bins are stored. -/
def crowded (table : Table α) : Bool := 3 * table.binCount < 4 * table.size

/-- A table that is crowded grows once. -/
def relieved (table : Table α) : Table α := if table.crowded then table.grow else table

/-- A known name with another value in its place. -/
def overwrite (table : Table α) (name : String) (value : α) (chain : Chain α)
    (known : (table.chain name).overwrite? name value = some chain) : Table α where
  bins := table.bins.setIfInBounds (table.index name) chain
  size := table.size
  bins_pos := by rw [Array.size_setIfInBounds]; exact table.bins_pos
  laid := by
    obtain ⟨ordered, laid⟩ := table.laid
    exact ⟨_, laid.overwrite table.bins_pos known⟩

/-- A new name at the end of its chain. -/
def insertNew (table : Table α) (name : String) (value : α)
    (unknown : (table.chain name).overwrite? name value = none) : Table α where
  bins := append table.bins (name, value)
  size := table.size + 1
  bins_pos := by rw [size_append]; exact table.bins_pos
  laid := by
    obtain ⟨ordered, laid⟩ := table.laid
    exact ⟨_, laid.appendNew table.bins_pos unknown⟩

/-- **Store a value under a name.** -/
def insert (table : Table α) (name : String) (value : α) : Table α :=
  match walk : (table.chain name).overwrite? name value with
  | some chain => table.overwrite name value chain walk
  | none => (table.insertNew name value walk).relieved

/-! ### Laws -/

/-- **The entries of a table in their order.** -/
def Ordered (table : Table α) (ordered : Chain α) : Prop := Laid table.bins table.size ordered

variable {table : Table α} {ordered : Chain α} {name : String} {value : α}

theorem ordered_empty : (empty : Table α).Ordered [] := by
  obtain ⟨ordered, laid⟩ := (empty : Table α).laid
  have nothing : ordered = [] := List.eq_nil_of_length_eq_zero laid.size_eq.symm
  exact nothing ▸ laid

theorem Ordered.relieved (laid : table.Ordered ordered) : table.relieved.Ordered ordered := by
  rw [Table.relieved]
  split
  · exact Laid.double laid table.bins_pos
  · exact laid

/-- **Inserting puts the entry into the order**: a known name keeps its place, a new one is last. -/
theorem Ordered.insert (laid : table.Ordered ordered) (name : String) (value : α) :
    (table.insert name value).Ordered (ordered.put name value) := by
  unfold Table.insert
  split
  · next chain walk => exact Laid.overwrite laid table.bins_pos walk
  · next walk =>
    have new : (table.insertNew name value walk).Ordered (ordered.put name value) :=
      Laid.appendNew laid table.bins_pos walk
    exact new.relieved

theorem Ordered.get? (laid : table.Ordered ordered) (name : String) :
    table.get? name = ordered.get? name := by
  have bin : table.chain name = ordered.bin table.bins.size (binIndex name table.bins.size) :=
    laid.getD_bin (binIndex_lt name table.bins_pos)
  rw [Table.get?, bin, Chain.bin, Chain.get?_select _ (by simp)]

@[simp] theorem get?_empty (name : String) : (empty : Table α).get? name = none :=
  ordered_empty.get? name

/-- **A stored value is found under its name, and no other name has changed.** -/
theorem get?_insert (other : String) :
    (table.insert name value).get? other =
      if other = name then some value else table.get? other := by
  obtain ⟨ordered, laid⟩ := table.laid
  have before : table.Ordered ordered := laid
  rw [(before.insert name value).get?, Chain.get?_put, before.get?]

theorem contains_insert (other : String) :
    (table.insert name value).contains other = (decide (other = name) || table.contains other) := by
  rw [contains, get?_insert, contains]
  by_cases same : other = name
  · simp [same]
  · simp [same]

end Table

end Scriptlet
