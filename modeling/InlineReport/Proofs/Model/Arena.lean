import InlineReport.Model.Register
import InlineReport.Proofs.Data.Position

/-!
# The arena

Versions are only ever added at the end of the arena. What happens to a version later on is
of two kinds: the copies that it owns are registered with it, and blocks write into it (where
it stands, what is placed in it, why it was deoptimised, which operations are left). The
first kind is said here; the second one leaves the **entry** of a version as it is
(`Version.entry`), and so whatever depends on entries only.

**A coherent arena** (`Model.Coherent`) has each version at its handle, and the table of
copies of each version has exactly the copies that name it as their owner. Adding a compiled
version (`Coherent.addCompiled`), registering a copy (`Coherent.registerCopy`) and writing into
versions (`Coherent.of_entries`) keep an arena coherent.

**The scan** of an arena for compiled versions is `Model.compiledHandles`.
-/

namespace InlineReport

/-- **The entry of a version**: what no block writes into a version once it is there. -/
def Version.entry (v : Version) : Version :=
  { v with offset := 0, inlines := [], deopts := [], runtime := [] }

/-- What an entry tells about a version. -/
theorem Version.fields_of_entry {v v' : Version} (h : v.entry = v'.entry) :
    v.handle = v'.handle ∧ v.owner = v'.owner ∧ v.secondId = v'.secondId ∧
      v.copies = v'.copies := by
  simp only [entry, mk.injEq] at h
  simp only [h, and_self]

namespace Model

variable {m m' : Model} {h : Nat} {v : Version}

/-! ### Reading the arena -/

theorem getElem?_addVersion (m : Model) (content : Nat → Version) (h : Nat) :
    (m.addVersion content).versions[h]? =
      if h = m.nextHandle then some (content m.nextHandle) else m.versions[h]? :=
  Array.getElem?_push

theorem getElem?_modifyVersion (m : Model) (handle : Nat) (f : Version → Version) (h : Nat) :
    (m.modifyVersion handle f).versions[h]? =
      if h = handle then (m.versions[h]?).map f else m.versions[h]? := by
  simp only [modifyVersion, Array.getElem?_modify, eq_comm]

theorem lt_nextHandle (hv : m.versions[h]? = some v) : h < m.nextHandle :=
  (Array.getElem?_eq_some_iff.mp hv).1

theorem mem_versions_iff : v ∈ m.versions ↔ ∃ h : Nat, m.versions[h]? = some v :=
  Array.mem_iff_getElem?

/-- What a number refers to is a version. -/
theorem mem_of_version {number : Int} (h : m.version number = .ok v) : v ∈ m.versions := by
  unfold version at h
  split at h
  · next w hw =>
    obtain ⟨k, -, hk⟩ := Option.bind_eq_some_iff.mp hw
    exact Except.ok.inj h ▸ mem_versions_iff.mpr ⟨k, hk⟩
  · exact absurd h (by simp)

theorem mem_compiled_iff : v ∈ m.compiled ↔ v ∈ m.versions ∧ v.isInline = false := by
  simp [compiled]

/-- Writing into a version leaves alone what does not depend on what is written. -/
theorem map_modifyVersion {β : Type} (m : Model) (handle : Nat) {f : Version → Version}
    {g : Version → β} (hf : ∀ v, g (f v) = g v) :
    (m.modifyVersion handle f).versions.map g = m.versions.map g := by
  refine Array.ext_getElem? fun h => ?_
  rw [Array.getElem?_map, Array.getElem?_map, getElem?_modifyVersion]
  split
  · rw [Option.map_map]
    exact congrArg (Option.map · m.versions[h]?) (funext hf)
  · rfl

/-- A version that has been written into is still there. -/
theorem exists_of_entries (he : m'.versions.map Version.entry = m.versions.map Version.entry)
    (hv : m.versions[h]? = some v) : ∃ v', m'.versions[h]? = some v' ∧ v'.entry = v.entry := by
  have hmap := congrArg (fun versions : Array Version => versions[h]?) he
  simp only [Array.getElem?_map, hv, Option.map_some] at hmap
  exact Option.map_eq_some_iff.mp hmap

/-! ### Scanning the arena -/

/-- **The scan for compiled versions** with a property: their handles, in the order in which
they were added. -/
def compiledHandles (m : Model) (p : Version → Prop) [DecidablePred p] : List Nat :=
  m.versions.toList.findIdxs fun v => !v.isInline && p v

section Scan

variable {p : Version → Prop} [DecidablePred p]

theorem compiledHandles_congr (h : m'.versions = m.versions) :
    m'.compiledHandles p = m.compiledHandles p := by
  rw [compiledHandles, h, compiledHandles]

theorem mem_compiledHandles_iff :
    h ∈ m.compiledHandles p ↔ ∃ v, m.versions[h]? = some v ∧ v.isInline = false ∧ p v := by
  simp [compiledHandles, Array.getElem?_eq_some_iff]

theorem pairwise_compiledHandles : (m.compiledHandles p).Pairwise (· < ·) :=
  List.pairwise_findIdxs

/-- The last handle of a scan is the largest one. -/
theorem getLast?_compiledHandles_eq_some_iff :
    (m.compiledHandles p).getLast? = some h ↔
      h ∈ m.compiledHandles p ∧ ∀ k ∈ m.compiledHandles p, k ≤ h :=
  getLast?_eq_some_iff_of_increasing pairwise_compiledHandles

/-- A further version is found if it is a compiled one with the property. -/
theorem compiledHandles_addVersion (m : Model) (content : Nat → Version) :
    (m.addVersion content).compiledHandles p =
      m.compiledHandles p ++
        if (content m.nextHandle).isInline = false ∧ p (content m.nextHandle) then [m.nextHandle]
        else [] := by
  simp only [compiledHandles, addVersion, Array.toList_push, List.findIdxs_append,
    List.findIdxs_singleton, Array.length_toList, Nat.zero_add, nextHandle]
  congr 2
  simp

theorem compiledHandles_modifyVersion (m : Model) (handle : Nat) {f : Version → Version}
    (hf : ∀ v, (f v).owner = v.owner ∧ (p (f v) ↔ p v)) :
    (m.modifyVersion handle f).compiledHandles p = m.compiledHandles p := by
  rw [compiledHandles, modifyVersion, Array.toList_modify]
  refine findIdxs_modify (fun v => ?_) _ _ _
  simp only [Version.isInline, (hf v).1, (hf v).2]

/-- Writing into versions does not change what a scan of their entries finds. -/
theorem compiledHandles_of_entries (hp : ∀ v, p v.entry ↔ p v)
    (he : m'.versions.map Version.entry = m.versions.map Version.entry) :
    m'.compiledHandles p = m.compiledHandles p := by
  have hscan : ∀ m : Model, m.compiledHandles p =
      ((m.versions.map Version.entry).toList).findIdxs fun v => !v.isInline && p v := fun m => by
    rw [Array.toList_map, List.findIdxs_map, compiledHandles]
    congr 1
    funext v
    simp only [Function.comp_apply, hp]
    rfl
  rw [hscan, hscan, he]

end Scan

/-! ### Coherence -/

/-- **A coherent arena**: each version is at its handle and has been added after its owner,
and a version knows the copies that it owns. -/
structure Coherent (m : Model) : Prop where
  handle_eq : ∀ {h : Nat} {v}, m.versions[h]? = some v → v.handle = h
  owner_lt : ∀ {h : Nat} {v o}, m.versions[h]? = some v → v.owner = some o →
    ∃ k : Nat, o = k ∧ k < h
  copies_iff : ∀ {h : Nat} {v}, m.versions[h]? = some v → ∀ s k, v.copies.get? s = some k ↔
    ∃ c, m.versions[k]? = some c ∧ c.owner = some (h : Int) ∧ c.secondId = s

/-- A version is at its handle. -/
theorem Coherent.getElem?_handle (hm : Coherent m) (hv : v ∈ m.versions) :
    m.versions[v.handle]? = some v := by
  obtain ⟨h, hv⟩ := mem_versions_iff.mp hv
  rwa [hm.handle_eq hv]

theorem Coherent.version_handle (hm : Coherent m) (hv : v ∈ m.versions) :
    m.version v.handle = .ok v :=
  version_eq_ok_iff.mpr (hm.getElem?_handle hv)

/-- No handle comes twice. -/
theorem Coherent.nodup_handles (hm : Coherent m) : (m.versions.toList.map (·.handle)).Nodup := by
  have hrange : m.versions.toList.map (·.handle) = List.range m.nextHandle := by
    refine List.ext_getElem? fun h => ?_
    rw [List.getElem?_map, Array.getElem?_toList]
    cases hv : m.versions[h]? with
    | none =>
      rw [Option.map_none, List.getElem?_eq_none]
      rw [List.length_range]
      exact Array.getElem?_eq_none_iff.mp hv
    | some v => rw [Option.map_some, hm.handle_eq hv, List.getElem?_range (lt_nextHandle hv)]
  rw [hrange]
  exact List.nodup_range

theorem Coherent.nodup_handles_filter (hm : Coherent m) (p : Version → Bool) :
    ((m.versions.toList.filter p).map (·.handle)).Nodup :=
  hm.nodup_handles.sublist (List.filter_sublist.map _)

theorem coherent_empty : Coherent Model.empty where
  handle_eq hv := by simp [empty] at hv
  owner_lt hv := by simp [empty] at hv
  copies_iff hv := by simp [empty] at hv

theorem Coherent.congr (hm : Coherent m) (h : m'.versions = m.versions) : Coherent m' where
  handle_eq hv := hm.handle_eq (h ▸ hv)
  owner_lt hv := hm.owner_lt (h ▸ hv)
  copies_iff hv s k := by
    rw [h] at hv ⊢
    exact hm.copies_iff hv s k

theorem Coherent.of_entries (hm : Coherent m)
    (he : m'.versions.map Version.entry = m.versions.map Version.entry) : Coherent m' where
  handle_eq hv := by
    obtain ⟨v, hv, heq⟩ := exists_of_entries he.symm hv
    rw [← (Version.fields_of_entry heq).1, hm.handle_eq hv]
  owner_lt hv ho := by
    obtain ⟨v, hv, heq⟩ := exists_of_entries he.symm hv
    exact hm.owner_lt hv ((Version.fields_of_entry heq).2.1.trans ho)
  copies_iff hv s k := by
    obtain ⟨v, hv, heq⟩ := exists_of_entries he.symm hv
    rw [← (Version.fields_of_entry heq).2.2.2, hm.copies_iff hv s k]
    constructor
    · rintro ⟨c, hc, howner, hid⟩
      obtain ⟨c', hc', heq⟩ := exists_of_entries he hc
      obtain ⟨-, howner', hid', -⟩ := Version.fields_of_entry heq
      exact ⟨c', hc', howner'.trans howner, hid'.trans hid⟩
    · rintro ⟨c', hc', howner, hid⟩
      obtain ⟨c, hc, heq⟩ := exists_of_entries he.symm hc'
      obtain ⟨-, howner', hid', -⟩ := Version.fields_of_entry heq
      exact ⟨c, hc, howner'.trans howner, hid'.trans hid⟩

/-- **Adding a compiled version** keeps the arena coherent. -/
theorem Coherent.addCompiled (hm : Coherent m) {content : Nat → Version}
    (hhandle : (content m.nextHandle).handle = m.nextHandle)
    (howner : (content m.nextHandle).owner = none)
    (hcopies : (content m.nextHandle).copies = .empty) : Coherent (m.addVersion content) where
  handle_eq hv := by
    rw [getElem?_addVersion] at hv
    split at hv
    · next hh => rw [← Option.some.inj hv, hhandle, hh]
    · exact hm.handle_eq hv
  owner_lt hv ho := by
    rw [getElem?_addVersion] at hv
    split at hv
    · rw [← Option.some.inj hv, howner] at ho
      exact absurd ho (by simp)
    · exact hm.owner_lt hv ho
  copies_iff hv s k := by
    -- nothing names the new version as its owner, and it has no owner itself
    have hnew : ∀ {c : Version} {o : Int}, (m.addVersion content).versions[k]? = some c →
        c.owner = some o → m.versions[k]? = some c := by
      intro c o hc ho
      rw [getElem?_addVersion] at hc
      split at hc
      · rw [← Option.some.inj hc, howner] at ho
        exact absurd ho (by simp)
      · exact hc
    have hold : ∀ {c : Version}, m.versions[k]? = some c →
        (m.addVersion content).versions[k]? = some c := fun hc => by
      rw [getElem?_addVersion, if_neg (Nat.ne_of_lt (lt_nextHandle hc)), hc]
    rw [getElem?_addVersion] at hv
    split at hv
    · next hh =>
      rw [← Option.some.inj hv, hcopies, Registry.get?_empty]
      refine iff_of_false (by simp) ?_
      rintro ⟨c, hc, ho, -⟩
      obtain ⟨o, ho', hlt⟩ := hm.owner_lt (hnew hc ho) ho
      have := lt_nextHandle (hnew hc ho)
      omega
    · rw [hm.copies_iff hv s k]
      constructor
      · rintro ⟨c, hc, ho, hid⟩
        exact ⟨c, hold hc, ho, hid⟩
      · rintro ⟨c, hc, ho, hid⟩
        exact ⟨c, hnew hc ho, ho, hid⟩

/-! ### Registering copies -/

/-- The copy that is registered with an owner. -/
def newCopy (m : Model) (owner : Version) (name : String) (secondId : Int) (code : Text) :
    Version :=
  { handle := m.nextHandle, file := owner.file, name, code, secondId, owner := some owner.handle }

/-- A copy is registered if its second id is free. -/
theorem registerCopy_eq_ok_iff {owner : Version} {name : String} {secondId : Int} {code : Text} :
    m.registerCopy owner name secondId code = .ok m' ↔ owner.copies.get? secondId = none ∧
      m' = (m.addVersion fun _ => m.newCopy owner name secondId code).modifyVersion owner.handle
        fun v => { v with copies := v.copies.insert secondId m.nextHandle } := by
  unfold registerCopy Registry.contains
  cases owner.copies.get? secondId with
  | none => simp [newCopy, addVersion, eq_comm]
  | some k => simp

/-- A copy is not found in a scan for compiled versions. -/
theorem compiledHandles_registerCopy {p : Version → Prop} [DecidablePred p] {owner : Version}
    {name : String} {secondId : Int} {code : Text}
    (hreg : m.registerCopy owner name secondId code = .ok m')
    (hp : ∀ v copies, p { v with copies } ↔ p v) :
    m'.compiledHandles p = m.compiledHandles p := by
  obtain ⟨-, rfl⟩ := registerCopy_eq_ok_iff.mp hreg
  rw [compiledHandles_modifyVersion _ _ (by exact fun v => ⟨rfl, hp v _⟩),
    compiledHandles_addVersion, if_neg (by simp [newCopy, Version.isInline]), List.append_nil]

/-- **The arena with a copy registered**: the copy comes last, and its owner knows it. -/
theorem getElem?_registerCopy {owner : Version} {name : String} {secondId : Int} {code : Text}
    (howner : m.versions[owner.handle]? = some owner)
    (hreg : m.registerCopy owner name secondId code = .ok m') (h : Nat) :
    m'.versions[h]? =
      if h = m.nextHandle then some (m.newCopy owner name secondId code)
      else if h = owner.handle then
        some { owner with copies := owner.copies.insert secondId m.nextHandle }
      else m.versions[h]? := by
  obtain ⟨-, rfl⟩ := registerCopy_eq_ok_iff.mp hreg
  have hlt := lt_nextHandle howner
  rw [getElem?_modifyVersion, getElem?_addVersion]
  by_cases hh : h = owner.handle
  · rw [if_pos hh, if_neg (by omega), if_neg (by omega), if_pos hh, hh, howner]
    rfl
  · rw [if_neg hh, if_neg hh]

/-- The copies that name an owner after one has been registered: the new one, if the owner
is its owner, and those that named it before. -/
theorem exists_copy_registerCopy_iff {owner : Version} {name : String} {secondId : Int}
    {code : Text} (howner : m.versions[owner.handle]? = some owner)
    (hreg : m.registerCopy owner name secondId code = .ok m') {h k : Nat} {s : Int} :
    (∃ c, m'.versions[k]? = some c ∧ c.owner = some (h : Int) ∧ c.secondId = s) ↔
      (k = m.nextHandle ∧ h = owner.handle ∧ s = secondId) ∨
        ∃ c, m.versions[k]? = some c ∧ c.owner = some (h : Int) ∧ c.secondId = s := by
  rw [getElem?_registerCopy howner hreg]
  by_cases hk : k = m.nextHandle
  · have hnone : m.versions[m.nextHandle]? = none :=
      Array.getElem?_eq_none_iff.mpr (Nat.le_refl _)
    subst hk
    simp only [if_true, hnone, newCopy, Option.some.injEq, exists_eq_left', Int.ofNat_inj,
      true_and, reduceCtorEq, false_and, exists_false, or_false]
    exact and_congr eq_comm eq_comm
  by_cases hk' : k = owner.handle
  · simp [hk', howner, Nat.ne_of_lt (lt_nextHandle howner)]
  · simp [hk, hk']

/-- **Registering a copy** keeps the arena coherent. -/
theorem Coherent.registerCopy {owner : Version} {name : String} {secondId : Int} {code : Text}
    (hm : Coherent m) (howner : m.versions[owner.handle]? = some owner)
    (hreg : m.registerCopy owner name secondId code = .ok m') : Coherent m' where
  handle_eq hv := by
    rw [getElem?_registerCopy howner hreg] at hv
    split at hv
    · next hh => rw [← Option.some.inj hv, hh, newCopy]
    split at hv
    · next hh => rw [← Option.some.inj hv, hh]
    · exact hm.handle_eq hv
  owner_lt {h v o} hv ho := by
    rw [getElem?_registerCopy howner hreg] at hv
    split at hv
    · next hh =>
      rw [← Option.some.inj hv] at ho
      exact ⟨owner.handle, (Option.some.inj ho).symm, hh ▸ lt_nextHandle howner⟩
    split at hv
    · next hh =>
      have ho' : owner.owner = some o := by rwa [← Option.some.inj hv] at ho
      obtain ⟨k, hk, hlt⟩ := hm.owner_lt howner ho'
      exact ⟨k, hk, hh ▸ hlt⟩
    · exact hm.owner_lt hv ho
  copies_iff {h v} hv s k := by
    rw [exists_copy_registerCopy_iff howner hreg]
    rw [getElem?_registerCopy howner hreg] at hv
    have hlt := lt_nextHandle howner
    split at hv
    · next hh =>
      -- the copy itself owns nothing yet
      rw [← Option.some.inj hv, newCopy, Registry.get?_empty]
      refine iff_of_false (by simp) ?_
      rintro (⟨-, hh', -⟩ | ⟨c, hc, ho, -⟩)
      · omega
      · obtain ⟨o, ho', hlt'⟩ := hm.owner_lt hc ho
        have := lt_nextHandle hc
        omega
    split at hv
    · next hh =>
      rw [← Option.some.inj hv, Registry.get?_insert, hh, ← hm.copies_iff howner]
      split
      · next hs => simp [← hs, (registerCopy_eq_ok_iff.mp hreg).1, eq_comm]
      · next hs => simp [Ne.symm hs]
    · next hh => simp [hh, hm.copies_iff hv]

end Model

end InlineReport
