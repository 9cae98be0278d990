import InlineReport.Yaml.Document
import Mathlib.Data.Option.Basic

/-!
# The keys of a table

A settings text is made into values container by container: a container is empty when it is
opened, and it is filled once, when its turn comes. Only then does a table get entries, and each
key has to be something other than a container. So **no key of a table is a container**
(`Yaml.keyed_load?`), whatever the text mentions and wherever its tables hold each other.

The invariant is one of the store, `Store.Keyed`. It has to be followed through every step of
`Yaml.Loading` that touches the store; those that only open containers keep it for free.
-/

namespace InlineReport

/-- Whether the keys of a container are no containers, if it is a table. -/
def Container.Keyed : Container → Prop
  | table entries => ∀ entry ∈ entries, entry.1.isKey = true
  | list _ | set _ | pair .. => True

namespace Store

/-- Whether no key of a table in a store is a container. -/
def Keyed (store : Store) : Prop := ∀ (n : Nat) (c : Container), store[n]? = some c → c.Keyed

variable {store : Store} {c : Container}

theorem keyed_empty : Keyed #[] := by
  intro n c h
  simp at h

theorem Keyed.push (h : store.Keyed) (hc : c.Keyed) : Keyed (store.push c) := by
  intro n c' hc'
  rw [Array.getElem?_push] at hc'
  split at hc'
  · obtain rfl := Option.some.inj hc'
    exact hc
  · exact h n c' hc'

theorem Keyed.modify (h : store.Keyed) (hc : c.Keyed) (number : Nat) :
    Keyed (store.modify number fun _ => c) := by
  intro n c' hc'
  rw [Array.getElem?_modify] at hc'
  split at hc'
  · obtain ⟨_, -, rfl⟩ := Option.map_eq_some_iff.mp hc'
    exact hc
  · exact h n c' hc'

theorem Keyed.isKey {v : Value} {entries : List (Value × Value)} (h : store.Keyed)
    (hv : v.entries? store = some entries) : ∀ entry ∈ entries, entry.1.isKey = true := by
  cases v with
  | container n =>
    simp only [Value.entries?, at'] at hv
    cases hfound : store[n]? with
    | none =>
      rw [hfound] at hv
      cases hv
    | some c =>
      have hc := h n c hfound
      rw [hfound] at hv
      cases c with
      | table entries' =>
        cases hv
        exact hc
      | list _ => cases hv
      | set _ => cases hv
      | pair _ _ => cases hv
  | _ => cases hv

end Store

namespace Yaml

/-! ### Entries -/

theorem isKey_of_mem_putEntry {key value : Value} (hkey : key.isKey = true)
    {entries : List (Value × Value)} (h : ∀ entry ∈ entries, entry.1.isKey = true) :
    ∀ entry ∈ putEntry key value entries, entry.1.isKey = true := by
  induction entries with
  | nil =>
    intro entry hentry
    rw [List.mem_singleton.mp hentry]
    exact hkey
  | cons first entries ih =>
    obtain ⟨k, v⟩ := first
    obtain ⟨hfirst, hrest⟩ := List.forall_mem_cons.mp h
    unfold putEntry
    split
    · exact List.forall_mem_cons.mpr ⟨hfirst, hrest⟩
    · exact List.forall_mem_cons.mpr ⟨hfirst, ih hrest⟩

theorem isKey_of_mem_tableOf {entries : List (Value × Value)}
    (h : ∀ entry ∈ entries, entry.1.isKey = true) :
    ∀ entry ∈ tableOf entries, entry.1.isKey = true := by
  unfold tableOf
  refine List.foldlRecOn entries _
    (motive := fun table : List (Value × Value) => ∀ entry ∈ table, entry.1.isKey = true)
    ?_ fun table htable entry hentry => ?_
  · exact fun _ hentry => absurd hentry List.not_mem_nil
  · exact isKey_of_mem_putEntry (h entry hentry) htable

namespace Loading

variable {arrange : List Value → List Value} {l l' : Loading} {n number : Nat}

/-! ### Values that are mentioned -/

theorem keyed_valueOf? {v : Value} (hl : l.store.Keyed) (h : l.valueOf? n = some (v, l')) :
    l'.store.Keyed := by
  unfold valueOf? at h
  split at h
  · cases h
    exact hl
  · obtain ⟨node, -, h⟩ := Option.bind_eq_some_iff.mp h
    split at h
    · obtain ⟨_, -, h⟩ := Option.bind_eq_some_iff.mp h
      obtain ⟨_, -, h⟩ := Option.bind_eq_some_iff.mp h
      obtain ⟨_, -, h⟩ := Option.bind_eq_some_iff.mp h
      cases h
      exact hl
    · cases h
      exact hl.push trivial
    · cases h
      exact hl.push trivial
    · cases h
      exact hl.push fun _ hentry => absurd hentry List.not_mem_nil
    · cases h
      exact hl.push trivial
    · cases h

theorem keyed_valuesOf? {ns : List Nat} {vs : List Value} (hl : l.store.Keyed)
    (h : l.valuesOf? ns = some (vs, l')) : l'.store.Keyed := by
  induction ns generalizing l vs with
  | nil =>
    cases h
    exact hl
  | cons n ns ih =>
    obtain ⟨⟨v, l₁⟩, hv, h⟩ := Option.bind_eq_some_iff.mp h
    obtain ⟨⟨vs', l₂⟩, hvs, h⟩ := Option.bind_eq_some_iff.mp h
    cases h
    exact ih (keyed_valueOf? hl hv) hvs

/-- The keys of entries have passed the test, and the store is still in order. -/
theorem keyed_entriesOf? {test : Value → Bool} {ns : List (Nat × Nat)}
    {entries : List (Value × Value)} (hl : l.store.Keyed)
    (h : l.entriesOf? test ns = some (entries, l')) :
    l'.store.Keyed ∧ ∀ entry ∈ entries, test entry.1 = true := by
  induction ns generalizing l entries with
  | nil =>
    cases h
    exact ⟨hl, fun _ hentry => absurd hentry List.not_mem_nil⟩
  | cons first ns ih =>
    obtain ⟨⟨key, l₁⟩, hkey, h⟩ := Option.bind_eq_some_iff.mp h
    obtain ⟨⟨⟩, htest, h⟩ := Option.bind_eq_some_iff.mp h
    obtain ⟨⟨value, l₂⟩, hvalue, h⟩ := Option.bind_eq_some_iff.mp h
    obtain ⟨⟨entries', l₃⟩, hrest, h⟩ := Option.bind_eq_some_iff.mp h
    cases h
    obtain ⟨hl', hentries⟩ := ih (keyed_valueOf? (keyed_valueOf? hl hkey) hvalue) hrest
    exact ⟨hl', List.forall_mem_cons.mpr ⟨(Option.guard_eq_some' ()).mp htest, hentries⟩⟩

theorem keyed_pushPairs (hl : l.store.Keyed) (entries : List (Value × Value)) :
    (l.pushPairs entries).2.store.Keyed := by
  induction entries generalizing l with
  | nil => exact hl
  | cons first entries ih => exact ih (hl.push trivial)

/-! ### Containers that are filled -/

theorem keyed_tableEntries? {entries : List (Value × Value)} (hl : l.store.Keyed)
    (h : l.tableEntries? n = some (entries, l')) :
    l'.store.Keyed ∧ ∀ entry ∈ entries, entry.1.isKey = true := by
  obtain ⟨graph, -, h⟩ := Option.bind_eq_some_iff.mp h
  obtain ⟨ns, -, h⟩ := Option.bind_eq_some_iff.mp h
  obtain ⟨⟨entries', l₁⟩, hentries, h⟩ := Option.bind_eq_some_iff.mp h
  cases h
  obtain ⟨hl', hkeys⟩ := keyed_entriesOf? (l := { l with graph }) hl hentries
  exact ⟨hl', isKey_of_mem_tableOf hkeys⟩

theorem keyed_put {c : Container} (hl : l.store.Keyed) (hc : c.Keyed) :
    (l.put number c).store.Keyed := hl.modify hc number

/-- **Filling a container** keeps the store in order. -/
theorem keyed_fill? (hl : l.store.Keyed) (h : l.fill? arrange n number = some l') :
    l'.store.Keyed := by
  obtain ⟨node, -, h⟩ := Option.bind_eq_some_iff.mp h
  simp only at h
  split at h
  · obtain ⟨⟨vs, l₁⟩, hvs, h⟩ := Option.bind_eq_some_iff.mp h
    cases h
    exact keyed_put (keyed_valuesOf? hl hvs) trivial
  · obtain ⟨ns, -, h⟩ := Option.bind_eq_some_iff.mp h
    obtain ⟨⟨entries, l₁⟩, hentries, h⟩ := Option.bind_eq_some_iff.mp h
    cases h
    exact keyed_put (keyed_pushPairs (keyed_entriesOf? hl hentries).1 entries) trivial
  · obtain ⟨⟨entries, l₁⟩, hentries, h⟩ := Option.bind_eq_some_iff.mp h
    cases h
    obtain ⟨hl', hkeys⟩ := keyed_tableEntries? hl hentries
    exact keyed_put hl' hkeys
  · obtain ⟨⟨entries, l₁⟩, hentries, h⟩ := Option.bind_eq_some_iff.mp h
    cases h
    exact keyed_put (keyed_tableEntries? hl hentries).1 trivial
  · cases h

theorem keyed_run? {fuel : Nat} (hl : l.store.Keyed) (h : l.run? arrange fuel = some l') :
    l'.store.Keyed := by
  induction fuel generalizing l with
  | zero => cases h
  | succ fuel ih =>
    unfold run? at h
    split at h
    · cases h
      exact hl
    next n number waiting _ =>
      obtain ⟨l₁, hfill, h⟩ := Option.bind_eq_some_iff.mp h
      exact ih (keyed_fill? (l := { l with waiting }) hl hfill) h

end Loading

/-! ### Texts -/

/-- **No key of a table is a container**, however deeply collections may be nested and in which
order the items of a set come. -/
theorem keyed_load? {deepest : Nat} {arrange : List Value → List Value} {s : Text} {v : Value}
    {store : Store} (h : load? deepest arrange s = some (v, store)) : store.Keyed := by
  obtain ⟨tokens, -, h⟩ := Option.bind_eq_some_iff.mp h
  obtain ⟨found, -, h⟩ := Option.bind_eq_some_iff.mp h
  cases found with
  | none =>
    cases h
    exact Store.keyed_empty
  | some root =>
    obtain ⟨_, -, h⟩ := Option.bind_eq_some_iff.mp h
    obtain ⟨⟨n, graph⟩, -, h⟩ := Option.bind_eq_some_iff.mp h
    obtain ⟨⟨v', l⟩, hv, h⟩ := Option.bind_eq_some_iff.mp h
    obtain ⟨l', hrun, h⟩ := Option.bind_eq_some_iff.mp h
    cases h
    exact Loading.keyed_run? (Loading.keyed_valueOf? Store.keyed_empty hv) hrun

end Yaml

end InlineReport
