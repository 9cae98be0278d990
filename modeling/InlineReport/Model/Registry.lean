/-!
# Registries

A registry is a table whose keys are unique and keep the order in which they were first
registered; registering a key again replaces its value in place. Everything that a
report lists (files, the functions of a file, the copies of a version) is listed in the
order of some registry.

**Looking up after registering** is `Registry.get?_insert`; **the keys** after
registering are `Registry.keys_insert`.
-/

namespace InlineReport

variable {κ α : Type}

/-- A table with unique keys in the order of their first registration. -/
structure Registry (κ α : Type) where
  entries : List (κ × α)
  nodup_keys : (entries.map (·.1)).Nodup

namespace Registry

/-! ### The entries as a list -/

section Entries

variable [DecidableEq κ]

/-- The value that a list of entries has for a key. -/
def find? (k : κ) : List (κ × α) → Option α
  | [] => none
  | (k', a) :: more => if k' = k then some a else find? k more

/-- Replaces the value of a key, or appends the key. -/
def put (k : κ) (a : α) : List (κ × α) → List (κ × α)
  | [] => [(k, a)]
  | (k', a') :: more => if k' = k then (k, a) :: more else (k', a') :: put k a more

theorem map_fst_put (k : κ) (a : α) (l : List (κ × α)) :
    (put k a l).map (·.1) = if k ∈ l.map (·.1) then l.map (·.1) else l.map (·.1) ++ [k] := by
  induction l with
  | nil => simp [put]
  | cons e l ih =>
    obtain ⟨k', a'⟩ := e
    by_cases h : k' = k
    · simp [put, h]
    · simp only [put, if_neg h, List.map_cons, ih, List.mem_cons, Ne.symm h, false_or]
      split <;> simp

theorem nodup_put {l : List (κ × α)} (h : (l.map (·.1)).Nodup) (k : κ) (a : α) :
    ((put k a l).map (·.1)).Nodup := by
  rw [map_fst_put]
  split
  · exact h
  · next hk =>
    rw [List.nodup_append]
    refine ⟨h, by simp, ?_⟩
    intro x hx y hy
    simp only [List.mem_singleton] at hy
    exact fun e => hk (hy ▸ e ▸ hx)

theorem find?_put (k k' : κ) (a : α) (l : List (κ × α)) :
    find? k' (put k a l) = if k = k' then some a else find? k' l := by
  induction l with
  | nil => simp [put, find?]
  | cons e l ih =>
    obtain ⟨k₀, a₀⟩ := e
    by_cases h : k₀ = k
    · subst h
      by_cases h' : k₀ = k' <;> simp [put, find?, h']
    · by_cases h' : k₀ = k'
      · subst h'
        simp [put, find?, h, Ne.symm h]
      · simp [put, find?, h, h', ih]

omit [DecidableEq κ] in
theorem map_fst_map (f : κ → α → α) (l : List (κ × α)) :
    ((l.map fun (k, a) => (k, f k a)).map (·.1)) = l.map (·.1) := by
  simp [Function.comp_def]

theorem find?_map (f : κ → α → α) (k : κ) (l : List (κ × α)) :
    find? k (l.map fun (k, a) => (k, f k a)) = (find? k l).map (f k) := by
  induction l with
  | nil => simp [find?]
  | cons e l ih =>
    obtain ⟨k', a⟩ := e
    by_cases h : k' = k
    · subst h
      simp [find?]
    · simp only [List.map_cons, find?, if_neg h]
      exact ih

end Entries

/-! ### Operations -/

/-- The registry without entries. -/
def empty : Registry κ α := ⟨[], List.nodup_nil⟩

instance : Inhabited (Registry κ α) := ⟨empty⟩

/-- The keys, in the order of their first registration. -/
def keys (r : Registry κ α) : List κ := r.entries.map (·.1)

/-- The values, in the order of the first registration of their keys. -/
def values (r : Registry κ α) : List α := r.entries.map (·.2)

/-- The number of keys. -/
def size (r : Registry κ α) : Nat := r.entries.length

variable [DecidableEq κ]

/-- The value of a key. -/
def get? (r : Registry κ α) (k : κ) : Option α := find? k r.entries

/-- Whether a key is registered. -/
def contains (r : Registry κ α) (k : κ) : Bool := (r.get? k).isSome

/-- Registers a key with a value. -/
def insert (r : Registry κ α) (k : κ) (a : α) : Registry κ α :=
  ⟨put k a r.entries, nodup_put r.nodup_keys k a⟩

/-- Changes the value of a key, if it is registered. -/
def modify (r : Registry κ α) (k : κ) (f : α → α) : Registry κ α :=
  ⟨r.entries.map fun (k', a) => (k', if k' = k then f a else a), by
    rw [map_fst_map (fun k' a => if k' = k then f a else a)]
    exact r.nodup_keys⟩

/-- Registers a key with a value unless it is registered already. -/
def insertNew (r : Registry κ α) (k : κ) (a : α) : Registry κ α :=
  if r.contains k then r else r.insert k a

@[simp]
theorem get?_empty (k : κ) : (empty : Registry κ α).get? k = none := rfl

omit [DecidableEq κ] in
@[simp]
theorem keys_empty : (empty : Registry κ α).keys = [] := rfl

/-- **Looking up after registering.** -/
@[simp]
theorem get?_insert (r : Registry κ α) (k k' : κ) (a : α) :
    (r.insert k a).get? k' = if k = k' then some a else r.get? k' :=
  find?_put k k' a r.entries

/-- **The keys after registering**: a new one comes last. -/
theorem keys_insert (r : Registry κ α) (k : κ) (a : α) :
    (r.insert k a).keys = if k ∈ r.keys then r.keys else r.keys ++ [k] :=
  map_fst_put k a r.entries

@[simp]
theorem keys_modify (r : Registry κ α) (k : κ) (f : α → α) : (r.modify k f).keys = r.keys :=
  map_fst_map (fun k' a => if k' = k then f a else a) r.entries

@[simp]
theorem get?_modify (r : Registry κ α) (k k' : κ) (f : α → α) :
    (r.modify k f).get? k' = if k' = k then (r.get? k').map f else r.get? k' := by
  unfold get? modify
  rw [find?_map (fun k' a => if k' = k then f a else a)]
  split
  · rfl
  · simp

omit [DecidableEq κ] in
theorem keys_nodup (r : Registry κ α) : r.keys.Nodup := r.nodup_keys

theorem get?_isSome_iff {r : Registry κ α} {k : κ} : (r.get? k).isSome ↔ k ∈ r.keys := by
  unfold get? keys
  induction r.entries with
  | nil => simp [find?]
  | cons e l ih =>
    obtain ⟨k', a⟩ := e
    by_cases h : k' = k
    · simp [find?, h]
    · simp only [find?, if_neg h, List.map_cons, List.mem_cons, Ne.symm h, false_or]
      exact ih

end Registry

end InlineReport
