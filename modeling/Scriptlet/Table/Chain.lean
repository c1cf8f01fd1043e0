/-
**Chains of entries**: names with their values, oldest first.

A known name gets a new value in its place, a new one goes to the end.

* `Chain.overwrite?`, `Chain.get?`: the two walks along a chain.
* `Chain.put`: an entry in a chain, known or new.
* `Chain.get?_put`: **after a value is put under a name, that name has it and no other name has
  changed.**
* `Chain.overwrite?_select`, `Chain.get?_select`: a walk meets only the entries that share a
  property of the name it looks for, such as its bin.
-/

namespace Scriptlet

/-- The entries of one bin, oldest first. -/
abbrev Chain (α : Type) := List (String × α)

namespace Chain

variable {α : Type}

/-- A known name gets a new value in its place; `none` for an unknown name. -/
def overwrite? (name : String) (value : α) : Chain α → Option (Chain α)
  | [] => none
  | entry :: rest =>
    if entry.1 = name then some ((name, value) :: rest)
    else (overwrite? name value rest).map (entry :: ·)

/-- The value of a name. -/
def get? (name : String) : Chain α → Option α
  | [] => none
  | entry :: rest => if entry.1 = name then some entry.2 else get? name rest

/-- **Put a value under a name**: in its place, or at the end. -/
def put (name : String) (value : α) (chain : Chain α) : Chain α :=
  (chain.overwrite? name value).getD (chain ++ [(name, value)])

/-- The names of a chain. -/
def names (chain : Chain α) : List String := chain.map Prod.fst

variable {name other : String} {value : α} {chain changed : Chain α}

@[simp] theorem names_nil : names ([] : Chain α) = [] := rfl

@[simp] theorem names_cons (entry : String × α) (chain : Chain α) :
    names (entry :: chain) = entry.1 :: names chain := rfl

theorem length_names (chain : Chain α) : chain.names.length = chain.length := List.length_map ..

/-! ### Known names -/

theorem overwrite?_eq_none_iff : chain.overwrite? name value = none ↔ name ∉ chain.names := by
  induction chain with
  | nil => simp [overwrite?]
  | cons entry rest hypothesis =>
    by_cases same : entry.1 = name
    · simp [overwrite?, same]
    · simp [overwrite?, same, hypothesis, Ne.symm same]

theorem names_of_overwrite? (known : chain.overwrite? name value = some changed) :
    changed.names = chain.names := by
  induction chain generalizing changed with
  | nil => cases known
  | cons entry rest hypothesis =>
    by_cases same : entry.1 = name
    · simp only [overwrite?, if_pos same, Option.some.injEq] at known
      rw [← known, names_cons, names_cons, same]
    · simp only [overwrite?, if_neg same, Option.map_eq_some_iff] at known
      obtain ⟨later, found, rfl⟩ := known
      rw [names_cons, names_cons, hypothesis found]

theorem get?_of_overwrite? (known : chain.overwrite? name value = some changed) (other : String) :
    changed.get? other = if other = name then some value else chain.get? other := by
  induction chain generalizing changed with
  | nil => cases known
  | cons entry rest hypothesis =>
    by_cases same : entry.1 = name
    · simp only [overwrite?, if_pos same, Option.some.injEq] at known
      subst known
      by_cases found : other = name
      · simp [get?, found]
      · simp [get?, found, same, Ne.symm found]
    · simp only [overwrite?, if_neg same, Option.map_eq_some_iff] at known
      obtain ⟨later, overwritten, rfl⟩ := known
      by_cases first : entry.1 = other
      · have different : other ≠ name := fun equal => same (first.trans equal)
        simp [get?, first, different]
      · simp [get?, first, hypothesis overwritten]

theorem isSome_get?_iff : (chain.get? name).isSome ↔ name ∈ chain.names := by
  induction chain with
  | nil => simp [get?]
  | cons entry rest hypothesis =>
    by_cases same : entry.1 = name
    · simp [get?, same]
    · simp [get?, same, hypothesis, Ne.symm same]

/-! ### Putting a value -/

theorem get?_append_new (unknown : name ∉ chain.names) (other : String) :
    Chain.get? other (chain ++ [(name, value)]) =
      if other = name then some value else chain.get? other := by
  induction chain with
  | nil =>
    by_cases same : other = name
    · simp [get?, same]
    · simp [get?, same, Ne.symm same]
  | cons entry rest hypothesis =>
    rw [names_cons, List.mem_cons, not_or] at unknown
    by_cases first : entry.1 = other
    · have different : other ≠ name := fun equal => unknown.1 (equal.symm.trans first.symm)
      simp [get?, first, different]
    · simp [get?, first, hypothesis unknown.2]

/-- **A value that is put under a name is found there, and no other name has changed.** -/
theorem get?_put (other : String) :
    (chain.put name value).get? other = if other = name then some value else chain.get? other := by
  rw [put]
  cases known : chain.overwrite? name value with
  | some changed => exact get?_of_overwrite? known other
  | none => exact get?_append_new (overwrite?_eq_none_iff.mp known) other

/-- A known name keeps its place, a new one is the last. -/
theorem names_put :
    (chain.put name value).names =
      if name ∈ chain.names then chain.names else chain.names ++ [name] := by
  rw [put]
  cases known : chain.overwrite? name value with
  | some changed =>
    have member : name ∈ chain.names := by
      refine Decidable.of_not_not fun unknown => ?_
      rw [overwrite?_eq_none_iff.mpr unknown] at known
      cases known
    rw [if_pos member]
    exact names_of_overwrite? known
  | none =>
    rw [if_neg (overwrite?_eq_none_iff.mp known)]
    simp [names]

theorem length_put :
    (chain.put name value).length =
      if name ∈ chain.names then chain.length else chain.length + 1 := by
  rw [← length_names, names_put]
  by_cases known : name ∈ chain.names
  · rw [if_pos known, if_pos known, length_names]
  · rw [if_neg known, if_neg known, List.length_append, length_names, List.length_singleton]

theorem nodup_put (once : chain.names.Nodup) : (chain.put name value).names.Nodup := by
  rw [names_put]
  by_cases known : name ∈ chain.names
  · rwa [if_pos known]
  · rw [if_neg known, List.nodup_append]
    refine ⟨once, by simp, ?_⟩
    rintro first member last single rfl
    rw [List.mem_singleton] at single
    exact known (single ▸ member)

/-! ### Entries that share a property of their names -/

section Filter

variable (condition : String → Bool)

/-- The entries whose names satisfy a condition. -/
def select (chain : Chain α) : Chain α := chain.filter fun entry => condition entry.1

variable {condition} in
theorem select_cons_of_pos {entry : String × α} (holds : condition entry.1) :
    select condition (entry :: chain) = entry :: chain.select condition := by
  simp [select, holds]

variable {condition} in
theorem select_cons_of_neg {entry : String × α} (fails : condition entry.1 = false) :
    select condition (entry :: chain) = chain.select condition := by
  simp [select, fails]

theorem get?_select (kept : condition name) :
    (chain.select condition).get? name = chain.get? name := by
  induction chain with
  | nil => rfl
  | cons entry rest hypothesis =>
    cases holds : condition entry.1 with
    | true => rw [select_cons_of_pos holds, get?, get?, hypothesis]
    | false =>
      have different : entry.1 ≠ name := by
        rintro rfl
        rw [holds] at kept
        cases kept
      rw [select_cons_of_neg holds, hypothesis, get?, if_neg different]

theorem overwrite?_select (kept : condition name) :
    (chain.select condition).overwrite? name value =
      (chain.overwrite? name value).map (select condition) := by
  induction chain with
  | nil => rfl
  | cons entry rest hypothesis =>
    by_cases same : entry.1 = name
    · have holds : condition entry.1 := same ▸ kept
      have stays : condition (name, value).1 := kept
      simp [select_cons_of_pos holds, overwrite?, same, select_cons_of_pos stays]
    · cases holds : condition entry.1 with
      | true =>
        rw [select_cons_of_pos holds, overwrite?, if_neg same, overwrite?, if_neg same, hypothesis,
          Option.map_map, Option.map_map]
        congr 1
        funext later
        exact (select_cons_of_pos holds).symm
      | false =>
        rw [select_cons_of_neg holds, overwrite?, if_neg same, hypothesis, Option.map_map]
        congr 1
        funext later
        exact (select_cons_of_neg holds).symm

/-- A value that is put under a name changes no entry with another property. -/
theorem select_of_overwrite? (dropped : condition name = false)
    (known : chain.overwrite? name value = some changed) :
    changed.select condition = chain.select condition := by
  induction chain generalizing changed with
  | nil => cases known
  | cons entry rest hypothesis =>
    by_cases same : entry.1 = name
    · simp only [overwrite?, if_pos same, Option.some.injEq] at known
      subst known
      rw [select_cons_of_neg dropped, select_cons_of_neg (same ▸ dropped)]
    · simp only [overwrite?, if_neg same, Option.map_eq_some_iff] at known
      obtain ⟨later, found, rfl⟩ := known
      cases holds : condition entry.1 with
      | true => rw [select_cons_of_pos holds, select_cons_of_pos holds, hypothesis found]
      | false => rw [select_cons_of_neg holds, select_cons_of_neg holds, hypothesis found]

end Filter

end Chain

end Scriptlet
