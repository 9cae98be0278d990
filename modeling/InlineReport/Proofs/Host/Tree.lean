import InlineReport.Proofs.Data.Outcome
import InlineReport.Proofs.Host.Session

/-!
# What writing a file changes

A file is written in two steps: the folders on the way to it are made where they are missing,
and then the bytes are put in its place. Here it is said what is different in the tree
afterwards: **the file**, and the folders that were made for it (`Tree.Saved`). A folder is
made for a file only where nothing was, and at the place of a leading part of the path of the
file; so everything else stays as it was.

The places in question are those that paths lead to in the tree that is left. Since a folder
never goes away, a path that leads somewhere goes on leading there (`Tree.follow_mono`).
-/

namespace InlineReport

/-- The first names of a path. -/
def Path.front (p : Path) (n : Nat) : Path := { p with parts := p.parts.take n }

theorem Path.front_length (p : Path) : p.front p.parts.length = p := by
  rw [front, List.take_length]

theorem Path.exists_parent_front (p : Path) (n : Nat) : ∃ k, (p.front n).parent = p.front k :=
  ⟨min ((p.parts.take n).length - 1) n, by
    simp only [parent, front, List.dropLast_eq_take, List.take_take]⟩

namespace Tree

variable {t t' t'' : Tree} {p q : Path} {place : Place}

/-! ### Entries -/

theorem get?_put (hne : place ≠ []) (e : Entry) (place' : Place) :
    (t.put place e).get? place' = if place' = place then some e else t.get? place' := by
  by_cases hroot : place' = []
  · subst hroot
    simp [get?, hne.symm]
  · simp only [get?, put, if_neg hroot, List.lookup_cons]
    by_cases heq : place' = place
    · simp [heq]
    · rw [beq_eq_false_iff_ne.mpr heq, if_neg heq]

theorem ne_nil_of_get? (h : t.get? place ≠ some .folder) : place ≠ [] := by
  rintro rfl
  exact h rfl

/-- What is added to a tree is put at its place. -/
theorem eq_put_of_add {e : Entry} (h : t.add place e = .ok t') : t' = t.put place e := by
  unfold add at h
  split at h
  · cases h
  · cases h
  · obtain ⟨⟨⟩, -, h⟩ := bind_eq_ok_iff.mp h
    exact (Except.ok.inj h).symm

/-! ### Places of paths -/

/-- Whether each folder of a tree is one of another tree, in which the same things are allowed. -/
structure FoldersIn (t t' : Tree) : Prop where
  get?_eq : ∀ place, t.get? place = some .folder → t'.get? place = some .folder
  fault?_eq : t'.fault? = t.fault?

theorem follow_mono (h : t.FoldersIn t') {from' : Place} {names : List WideText}
    (hfollow : t.follow from' names = .ok place) : t'.follow from' names = .ok place := by
  induction names generalizing from' with
  | nil => exact hfollow
  | cons name names ih =>
    unfold follow at hfollow ⊢
    split at hfollow
    · cases hfollow
    · cases hfollow
    next hfolder =>
      obtain ⟨⟨⟩, hgrant, hfollow⟩ := bind_eq_ok_iff.mp hfollow
      rw [h.get?_eq from' hfolder]
      refine bind_eq_ok_iff.mpr ⟨(), ?_, ?_⟩
      · rwa [grant, h.fault?_eq]
      · split at hfollow
        · cases hfollow
        next hname =>
          rw [if_neg hname]
          exact ih hfollow

theorem locate_mono (h : t.FoldersIn t') (hlocate : t.locate p = .ok place) :
    t'.locate p = .ok place := by
  unfold locate at hlocate ⊢
  split at hlocate
  · cases hlocate
  next hlength =>
    rw [if_neg hlength]
    exact follow_mono h hlocate

/-! ### Folders on the way to a path -/

/-- Whether a tree is another one with folders made on the way to a path. -/
structure FoldersMade (p : Path) (t t' : Tree) : Prop where
  get?_eq_or : ∀ place, t'.get? place = t.get? place ∨
    t.get? place = none ∧ t'.get? place = some .folder ∧ ∃ n, t'.locate (p.front n) = .ok place
  fault?_eq : t'.fault? = t.fault?

theorem FoldersMade.foldersIn (h : FoldersMade p t t') : t.FoldersIn t' := by
  refine ⟨fun place hfolder => ?_, h.fault?_eq⟩
  rcases h.get?_eq_or place with hsame | ⟨hnone, -⟩
  · rw [hsame, hfolder]
  · rw [hnone] at hfolder
    cases hfolder

theorem FoldersMade.refl (p : Path) (t : Tree) : FoldersMade p t t := ⟨fun _ => .inl rfl, rfl⟩

theorem FoldersMade.trans (h : FoldersMade p t t') (h' : FoldersMade p t' t'') :
    FoldersMade p t t'' := by
  refine ⟨fun place => ?_, h'.fault?_eq.trans h.fault?_eq⟩
  rcases h.get?_eq_or place with hsame | ⟨hnone, hfolder, n, hplace⟩
  · rw [← hsame]
    exact h'.get?_eq_or place
  · exact .inr ⟨hnone, h'.foldersIn.get?_eq place hfolder, n, locate_mono h'.foldersIn hplace⟩

theorem foldersMade_of_makeFolder {n : Nat} (h : t.makeFolder (p.front n) = .ok t') :
    FoldersMade p t t' := by
  obtain ⟨place, hplace, h⟩ := bind_eq_ok_iff.mp h
  split at h
  · cases h
  next hnone =>
    obtain rfl := eq_put_of_add h
    have hne : place ≠ [] := ne_nil_of_get? (t := t) (by rw [hnone]; simp)
    have hin : t.FoldersIn (t.put place .folder) := by
      refine ⟨fun place' hplace' => ?_, rfl⟩
      rw [get?_put hne]
      split
      · rfl
      · exact hplace'
    refine ⟨fun place' => ?_, rfl⟩
    rw [get?_put hne]
    split
    next heq =>
      subst heq
      exact .inr ⟨hnone, rfl, n, locate_mono hin hplace⟩
    · exact .inl rfl

/-! ### A file -/

/-- Whether a tree is another one with a file written at a path: the file has the bytes, and
besides there are at most new folders, made on the way to it. -/
def Saved (t t' : Tree) (p : Path) (bytes : List UInt8) : Prop :=
  t'.fault? = t.fault? ∧
    ∃ place, t'.locate p = .ok place ∧ t'.get? place = some (.file bytes) ∧
      ∀ place', place' ≠ place → t'.get? place' = t.get? place' ∨
        t.get? place' = none ∧ t'.get? place' = some .folder ∧
          ∃ n, t'.locate (p.parent.front n) = .ok place'

/-- What is needed of a place where bytes are put. -/
theorem exists_of_write {bytes : List UInt8} (h : t.write p bytes = .ok t') :
    ∃ place, t.locate p = .ok place ∧ t.get? place ≠ some .folder ∧
      t' = t.put place (.file bytes) := by
  obtain ⟨place, hplace, h⟩ := bind_eq_ok_iff.mp h
  refine ⟨place, hplace, ?_⟩
  split at h
  · cases h
  next hfile =>
    obtain ⟨⟨⟩, -, h⟩ := bind_eq_ok_iff.mp h
    rw [hfile]
    exact ⟨by simp, (Except.ok.inj h).symm⟩
  next hnone =>
    rw [hnone]
    exact ⟨by simp, eq_put_of_add h⟩

theorem saved_of_write {bytes : List UInt8} (hmade : FoldersMade p.parent t t')
    (h : t'.write p bytes = .ok t'') : t.Saved t'' p bytes := by
  obtain ⟨place, hplace, hfree, rfl⟩ := exists_of_write h
  have hne := ne_nil_of_get? hfree
  have hin : t'.FoldersIn (t'.put place (.file bytes)) := by
    refine ⟨fun place' hfolder => ?_, rfl⟩
    rw [get?_put hne, if_neg (by rintro rfl; exact hfree hfolder), hfolder]
  refine ⟨hmade.fault?_eq, place, locate_mono hin hplace, by rw [get?_put hne, if_pos rfl], ?_⟩
  intro place' hother
  rw [get?_put hne, if_neg hother]
  rcases hmade.get?_eq_or place' with hsame | ⟨hnone, hfolder, n, hn⟩
  · exact .inl hsame
  · exact .inr ⟨hnone, hfolder, n, locate_mono hin hn⟩

end Tree

namespace Session

variable {w w' : World} {p : Path}

/-! ### Making folders -/

/-- Whether all that is new in a world are folders made on the way to a path. -/
def OnlyFolders (p : Path) (w w' : World) : Prop :=
  ∃ tree, w' = { w with tree } ∧ Tree.FoldersMade p w.tree tree

instance (p : Path) : IsPreorder World (OnlyFolders p) where
  refl w := ⟨w.tree, rfl, .refl p w.tree⟩
  trans := by
    rintro w _ _ ⟨tree, rfl, hmade⟩ ⟨tree', rfl, hmade'⟩
    exact ⟨tree', rfl, hmade.trans hmade'⟩

theorem within_makeFolder (p : Path) (n : Nat) :
    (Host.makeFolder (p.front n) : Session Unit).Within (OnlyFolders p) := by
  intro w
  change OnlyFolders p w ((changePath (p.front n) (·.makeFolder (p.front n))).runIn w).2
  rw [runIn_changePath]
  cases hmake : w.tree.ask (p.front n) (·.makeFolder (p.front n)) with
  | error e => exact refl w
  | ok tree =>
    exact ⟨tree, rfl, Tree.foldersMade_of_makeFolder (n := n) (Tree.eq_ok_of_ask hmake)⟩

theorem within_makeFolderOr (p : Path) (n : Nat) {onMissing : HostError → Session Unit}
    (hmissing : ∀ e, (onMissing e).Within (OnlyFolders p)) :
    (Host.makeFolderOr onMissing (p.front n)).Within (OnlyFolders p) := by
  refine (within_makeFolder p n).tryCatch fun e => ?_
  cases e with
  | host e =>
    simp only
    split
    · exact hmissing e
    · refine (within_kind? _).bind fun kind => ?_
      split
      · exact within_pure ()
      · exact within_throw _
  | trace fault => exact within_throw _
  | overrun limit => exact within_throw _

theorem within_ensureFolder (p : Path) (n : Nat) :
    (Host.ensureFolder (p.front n) : Session Unit).Within (OnlyFolders p) :=
  within_makeFolderOr p n fun _ => within_throw _

/-- **Making a folder and those around it** makes folders on the way to it, and nothing else. -/
theorem within_makeFolders (p : Path) :
    (Host.makeFolders p : Session Unit).Within (OnlyFolders p) := by
  have hfrom (depth n : Nat) :
      (Host.makeFoldersFrom depth (p.front n) : Session Unit).Within (OnlyFolders p) := by
    induction depth generalizing n with
    | zero => exact within_ensureFolder p n
    | succ depth ih =>
      obtain ⟨k, hk⟩ := p.exists_parent_front n
      refine within_makeFolderOr p n fun _ => ?_
      rw [hk]
      exact (ih k).bind fun _ => within_ensureFolder p n
  have h := hfrom p.parts.length p.parts.length
  rwa [p.front_length] at h

/-- Writes a text to a file, and makes the folders for it. -/
def save (p : Path) (text : Text) : Session Unit := do
  Host.makeFolders p.parent
  Host.writeText p text

/-- **A text that is written** is all that is new, with the folders made for it. -/
theorem exists_of_save {text : Text} (h : (save p text).runIn w = (.ok (), w')) :
    ∃ tree, w' = { w with tree } ∧ w.tree.Saved tree p (Utf8.encode text) := by
  obtain ⟨_, w₁, hmake, hwrite⟩ := runIn_bind_eq_ok_iff.mp h
  obtain ⟨tree, hw₁, hmade⟩ := within_makeFolders p.parent w
  rw [hmake] at hw₁
  obtain rfl : w₁ = { w with tree } := hw₁
  obtain ⟨tree', hwritten, rfl⟩ := @exists_of_changePath _ p (·.write p (Utf8.encode text)) _ hwrite
  exact ⟨tree', rfl, Tree.saved_of_write hmade hwritten⟩

end Session

end InlineReport
