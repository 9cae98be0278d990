import InlineReport.Proofs.View.Segment
import InlineReport.Proofs.View.Splice

/-!
# Escapes and markers

The marked code of a version is made by one list of replacements in which escapes, copies
and operations compete for the same characters. An escape comes first among the
replacements of one start, so a mark that would begin on an angle bracket is never made,
and that is all that the escapes do to the marks. The other way round, an escape is left
out only where a mark covers its bracket, and then the text of the mark has been escaped
as a whole. So making the replacements is the same as putting the markers into the code
and escaping what is between them (`View.Item.splice_all`).
-/

namespace InlineReport

namespace View

/-! ### Escapes and markers in one list -/

/-- A mark and the text that is put in the place of what it covers. -/
structure Marker where
  mark : Mark
  text : Text

/-- The replacement that a marker is. -/
def Marker.replacement (code : Text) (x : Marker) : Replacement :=
  ⟨x.mark.start, x.mark.stop code, x.text⟩

/-- A replacement in a code, by what it is for. -/
inductive Item
  | escape (offset : Nat) (c : Char)
  | marker (x : Marker)

namespace Item

/-- Where an item begins. -/
def start : Item → Int
  | escape offset _ => offset
  | marker x => x.mark.start

/-- The replacement that an item is. -/
def replacement (code : Text) : Item → Replacement
  | escape offset c => ⟨offset, offset + 1, Markup.codeEntity c⟩
  | marker x => x.replacement code

/-- The escapes of a code that begins at an offset. -/
def escapes (start : Nat) : Text → List Item
  | [] => []
  | c :: code =>
    if isAngle c then escape start c :: escapes (start + 1) code else escapes (start + 1) code

/-- The items of a code with markers, in the order in which they are given. -/
def all (code : Text) (xs : List Marker) : List Item := escapes 0 code ++ xs.map marker

/-- A marker that does not give way to an escape. -/
def marker? (code : Text) : Item → Option Marker
  | escape _ _ => none
  | marker x => if x.mark.isBlocked code then none else some x

variable {code : Text} {i k : Nat} {c : Char} {xs : List Marker} {item : Item}

theorem map_replacement_escapes (code s : Text) (k : Nat) :
    (escapes k s).map (replacement code) = View.escapes k s := by
  induction s generalizing k with
  | nil => rfl
  | cons c s ih =>
    rw [escapes, View.escapes]
    simp only [isAngle, decide_eq_true_eq]
    split
    · exact congrArg _ (ih (k + 1))
    · exact ih (k + 1)

theorem mem_escapes {s : Text} (h : item ∈ escapes k s) :
    ∃ i c, item = escape i c ∧ k ≤ i ∧ s[i - k]? = some c ∧ isAngle c := by
  induction s generalizing k with
  | nil => exact absurd h List.not_mem_nil
  | cons d s ih =>
    have hmore : item ∈ escapes (k + 1) s →
        ∃ i c, item = escape i c ∧ k ≤ i ∧ (d :: s)[i - k]? = some c ∧ isAngle c := by
      intro h
      obtain ⟨i, c, rfl, hle, hget, hc⟩ := ih h
      refine ⟨i, c, rfl, by omega, ?_, hc⟩
      rw [show i - k = i - (k + 1) + 1 by omega, List.getElem?_cons_succ, hget]
    rw [escapes] at h
    split at h
    · next hd =>
      rcases List.mem_cons.mp h with rfl | h
      · exact ⟨k, d, rfl, Nat.le_refl _, by simp, hd⟩
      · exact hmore h
    · exact hmore h

theorem escape_mem_escapes {s : Text} (h : s[i]? = some c) (hc : isAngle c) :
    escape (k + i) c ∈ escapes k s := by
  induction s generalizing k i with
  | nil => simp at h
  | cons d s ih =>
    rw [escapes]
    cases i with
    | zero =>
      rw [List.getElem?_cons_zero, Option.some.injEq] at h
      rw [h, if_pos hc]
      exact List.mem_cons_self
    | succ i =>
      have hmem : escape (k + 1 + i) c ∈ escapes (k + 1) s :=
        ih (List.getElem?_cons_succ ▸ h)
      rw [show k + 1 + i = k + (i + 1) by omega] at hmem
      split
      · exact List.mem_cons_of_mem _ hmem
      · exact hmem

theorem mem_of_mem_filterMap_marker? {items : List Item} {x : Marker}
    (h : x ∈ items.filterMap (marker? code)) :
    marker x ∈ items ∧ x.mark.isBlocked code = false := by
  obtain ⟨item, hmem, hitem⟩ := List.mem_filterMap.mp h
  cases item with
  | escape i c => exact absurd hitem (by simp [marker?])
  | marker y =>
    rw [marker?, Option.ite_none_left_eq_some, Option.some.injEq] at hitem
    obtain ⟨hy, rfl⟩ := hitem
    exact ⟨hmem, by simpa using hy⟩

theorem filterMap_marker?_all (code : Text) (xs : List Marker) :
    (all code xs).filterMap (marker? code) = xs.filter (!·.mark.isBlocked code) := by
  have hescapes : (escapes 0 code).filterMap (marker? code) = [] := by
    rw [List.filterMap_eq_nil_iff]
    intro item h
    obtain ⟨i, c, rfl, -⟩ := mem_escapes h
    rfl
  rw [all, List.filterMap_append, hescapes, List.nil_append, List.filterMap_map]
  induction xs with
  | nil => rfl
  | cons x xs ih =>
    cases hx : x.mark.isBlocked code
    · rw [List.filterMap_cons_some (b := x) (by simp [marker?, hx]), ih,
        List.filter_cons_of_pos (by simp [hx])]
    · rw [List.filterMap_cons_none (by simp [marker?, hx]), ih,
        List.filter_cons_of_neg (by simp [hx])]

/-! ### The items still to come -/

/-- **The items still to come**, when what begins before `stop` is no longer of interest:
in order, and complete from there on. -/
structure Upcoming (code : Text) (xs : List Marker) (stop : Int) (items : List Item) : Prop where
  pairwise_le : items.Pairwise fun a b => a.start ≤ b.start
  filter_eq : ∀ i, stop ≤ i → items.filter (·.start = i) = (all code xs).filter (·.start = i)

namespace Upcoming

variable {stop stop' : Int} {items : List Item}

theorem of_stablySorted (h : StablySorted start (all code xs) items) :
    Upcoming code xs 0 items :=
  ⟨h.pairwise_le, fun i _ => h.filter_eq i⟩

/-- An item may be forgotten once everything of interest begins behind it. -/
theorem tail (h : Upcoming code xs stop (item :: items)) (hle : stop ≤ stop')
    (hlt : item.start < stop') : Upcoming code xs stop' items := by
  refine ⟨(List.pairwise_cons.mp h.pairwise_le).2, fun i hi => ?_⟩
  rw [← h.filter_eq i (by omega), List.filter_cons_of_neg]
  simp only [decide_eq_true_eq]
  omega

theorem le_start (h : Upcoming code xs stop (item :: items)) {a : Item} (ha : a ∈ items) :
    item.start ≤ a.start :=
  (List.pairwise_cons.mp h.pairwise_le).1 a ha

/-- The escapes of the brackets still to come are all there. -/
theorem escape_mem (h : Upcoming code xs stop items) (hi : stop ≤ i) (hget : code[i]? = some c)
    (hc : isAngle c) : escape i c ∈ items := by
  have hmem : escape i c ∈ (all code xs).filter (·.start = (i : Int)) := by
    refine List.mem_filter.mpr ⟨List.mem_append_left _ ?_, decide_eq_true rfl⟩
    simpa using escape_mem_escapes (k := 0) hget hc
  rw [← h.filter_eq i hi] at hmem
  exact (List.mem_filter.mp hmem).1

theorem getElem?_of_escape_mem (h : Upcoming code xs stop items) (hmem : escape i c ∈ items)
    (hi : stop ≤ i) : code[i]? = some c ∧ isAngle c := by
  have hfilter : escape i c ∈ items.filter (·.start = (i : Int)) :=
    List.mem_filter.mpr ⟨hmem, decide_eq_true rfl⟩
  rw [h.filter_eq i hi] at hfilter
  rcases List.mem_append.mp (List.mem_filter.mp hfilter).1 with hesc | hmark
  · obtain ⟨j, d, heq, -, hget, hd⟩ := mem_escapes hesc
    obtain ⟨rfl, rfl⟩ := Item.escape.inj heq
    exact ⟨hget, hd⟩
  · obtain ⟨x, -, hx⟩ := List.mem_map.mp hmark
    exact absurd hx (by simp)

/-- Before the first item still to come there is no bracket. -/
theorem isAngle_eq_false (h : Upcoming code xs stop items) (hi : stop ≤ i)
    (hget : code[i]? = some c) (hitems : ∀ item ∈ items, (i : Int) < item.start) :
    isAngle c = false := by
  by_contra hangle
  have hlt := hitems _ (h.escape_mem hi hget (by simpa using hangle))
  exact absurd hlt (Int.lt_irrefl _)

theorem escapeCode_slice (h : Upcoming code xs stop items) (hstop : 0 ≤ stop)
    (hle : stop ≤ stop') (hitems : ∀ item ∈ items, stop' ≤ item.start) :
    escapeCode (Text.slice stop stop' code) = Text.slice stop stop' code := by
  refine Markup.escapeCode_eq_self fun c hc => ?_
  obtain ⟨i, h1, h2, hget⟩ := Text.mem_slice hstop (by omega) hc
  refine h.isAngle_eq_false h1 hget fun item hitem => ?_
  have := hitems item hitem
  omega

theorem escapeCode_behind (h : Upcoming code xs stop []) (hstop : 0 ≤ stop) :
    escapeCode (Text.behind stop code) = Text.behind stop code := by
  refine Markup.escapeCode_eq_self fun c hc => ?_
  obtain ⟨i, h1, hget⟩ := Text.mem_behind hstop hc
  exact h.isAngle_eq_false h1 hget (by simp)

/-- A marker that is next begins on no bracket: the escape would come before it. -/
theorem isBlocked_eq_false {x : Marker} (h : Upcoming code xs stop (marker x :: items))
    (hstop : 0 ≤ stop) (hle : stop ≤ x.mark.start) : x.mark.isBlocked code = false := by
  by_contra hblocked
  rw [Bool.not_eq_false, Mark.isBlocked, Option.any_eq_true] at hblocked
  obtain ⟨c, hget, hc⟩ := hblocked
  have hfilter := h.filter_eq x.mark.start hle
  rw [List.filter_cons_of_pos (by simp [Item.start]), all, List.filter_append] at hfilter
  have hmem : escape x.mark.start.toNat c ∈
      (escapes 0 code).filter (·.start = x.mark.start) := by
    have htoNat : ((x.mark.start.toNat : Nat) : Int) = x.mark.start := by omega
    refine List.mem_filter.mpr ⟨?_, decide_eq_true htoNat⟩
    simpa using escape_mem_escapes (k := 0) hget hc
  -- the first item of this start would be the escape, not the marker
  cases hesc : (escapes 0 code).filter (·.start = x.mark.start) with
  | nil =>
    rw [hesc] at hmem
    exact absurd hmem List.not_mem_nil
  | cons first more =>
    rw [hesc, List.cons_append] at hfilter
    have hfirst : first ∈ escapes 0 code :=
      (List.mem_filter.mp (hesc ▸ List.mem_cons_self)).1
    obtain ⟨i, c', rfl, -⟩ := mem_escapes hfirst
    exact absurd (List.cons.inj hfilter).1 (by simp)

end Upcoming

end Item

/-! ### Escapes and markers side by side -/

/-- The code from `start` on with ordered markers, what is between them escaped. -/
def markedFrom (code : Text) (start : Int) : List Marker → Text
  | [] => escapeCode (Text.behind start code)
  | x :: xs =>
    if x.mark.start < start then markedFrom code start xs
    else
      escapeCode (Text.slice start x.mark.start code) ++ x.text ++
        markedFrom code (x.mark.stop code) xs

/-- Where no marker begins, the code is escaped. -/
theorem markedFrom_of_le {code : Text} {start stop : Int} {xs : List Marker} (h : 0 ≤ start)
    (hle : start ≤ stop) (hxs : ∀ x ∈ xs, stop ≤ x.mark.start) :
    markedFrom code start xs =
      escapeCode (Text.slice start stop code) ++ markedFrom code stop xs := by
  cases xs with
  | nil => rw [markedFrom, markedFrom, ← escapeCode_append, Text.slice_append_behind h hle]
  | cons x xs =>
    have hx := hxs x List.mem_cons_self
    rw [markedFrom, markedFrom, if_neg (by omega), if_neg (by omega),
      ← Text.slice_append_slice h hle hx, escapeCode_append]
    simp only [List.append_assoc]

namespace Item

variable {code : Text} {xs : List Marker} {items : List Item} {stop : Int}

/-- **The escapes fill the gaps** between the markers: making the replacements of escapes
and markers is putting the markers, those left out that begin on a bracket, into the code
and escaping what is between them. -/
theorem Upcoming.weaveFrom_kept (h : Upcoming code xs stop items) (hstop : 0 ≤ stop) :
    Replacement.weaveFrom code stop
        (Replacement.kept stop (items.map (replacement code))) =
      markedFrom code stop (items.filterMap (marker? code)) := by
  induction items generalizing stop with
  | nil => exact (h.escapeCode_behind hstop).symm
  | cons item items ih =>
    rw [List.map_cons, Replacement.kept]
    cases item with
    | escape i c =>
      -- an escape that begins too early belongs to what a marker covers
      rcases Int.lt_or_le i stop with hlt | hle
      · rw [if_pos (show (replacement code (escape i c)).start < stop from hlt),
          List.filterMap_cons_none rfl]
        exact ih (h.tail (Int.le_refl stop) hlt) hstop
      · obtain ⟨hget, hc⟩ := h.getElem?_of_escape_mem List.mem_cons_self hle
        have hslice := h.escapeCode_slice hstop hle
          (List.forall_mem_cons.mpr ⟨Int.le_refl _, fun a => h.le_start⟩)
        have hrest := ih (h.tail (show stop ≤ i + 1 by omega) (Int.lt_succ i)) (by omega)
        have hgap : escapeCode (Text.slice stop (i + 1) code) =
            Text.slice stop i code ++ Markup.codeEntity c := by
          rw [← Text.slice_append_slice hstop hle (show (i : Int) ≤ i + 1 by omega),
            escapeCode_append, hslice, Text.slice_succ hget, escapeCode, List.flatMap_singleton]
        have hmarkers : ∀ x ∈ items.filterMap (marker? code), (i : Int) + 1 ≤ x.mark.start := by
          intro x hx
          obtain ⟨hmem, hblocked⟩ := mem_of_mem_filterMap_marker? hx
          have hle : (i : Int) ≤ x.mark.start := h.le_start hmem
          -- a marker at the bracket itself would be blocked
          have hne : x.mark.start ≠ i := by
            intro heq
            rw [Mark.isBlocked, heq, Int.toNat_natCast, hget, Option.any_some, hc] at hblocked
            exact absurd hblocked (by simp)
          omega
        rw [if_neg (show ¬ (replacement code (escape i c)).start < stop from Int.not_lt.mpr hle),
          List.filterMap_cons_none rfl, Replacement.weaveFrom,
          markedFrom_of_le hstop (show stop ≤ i + 1 by omega) hmarkers, hgap, ← hrest]
        rfl
    | marker x =>
      rcases Int.lt_or_le x.mark.start stop with hlt | hle
      · rw [if_pos (show (replacement code (marker x)).start < stop from hlt),
          ih (h.tail (Int.le_refl stop) hlt) hstop]
        cases hx : x.mark.isBlocked code with
        | true => rw [List.filterMap_cons_none (by simp [marker?, hx])]
        | false =>
          rw [List.filterMap_cons_some (b := x) (by simp [marker?, hx]), markedFrom, if_pos hlt]
      · have hlt := x.mark.start_lt_stop code
        have hslice := h.escapeCode_slice hstop hle
          (List.forall_mem_cons.mpr ⟨Int.le_refl _, fun a => h.le_start⟩)
        have hrest := ih (h.tail (show stop ≤ x.mark.stop code by omega) hlt) (by omega)
        rw [if_neg (show ¬ (replacement code (marker x)).start < stop from Int.not_lt.mpr hle),
          List.filterMap_cons_some (b := x)
            (by simp [marker?, h.isBlocked_eq_false hstop hle]),
          markedFrom, if_neg (Int.not_lt.mpr hle), Replacement.weaveFrom, hslice, ← hrest]
        rfl

/-- The replacements of escapes and markers, made in order. -/
theorem splice_all (code : Text) {xs : List Marker} (hxs : ∀ x ∈ xs, 0 ≤ x.mark.start) :
    ∃ ordered, StablySorted (·.mark.start) (xs.filter (!·.mark.isBlocked code)) ordered ∧
      splice code ((all code xs).map (replacement code)) = markedFrom code 0 ordered := by
  have hitems := stablySorted_mergeSort start (all code xs)
  have hmarker : ∀ item x, marker? code item = some x → x.mark.start = start item := by
    intro item x hx
    cases item with
    | escape i c => exact absurd hx (by simp [marker?])
    | marker y =>
      rw [marker?, Option.ite_none_left_eq_some, Option.some.injEq] at hx
      rw [← hx.2]
      rfl
  have hsorted : StablySorted (·.start) ((all code xs).map (replacement code)) _ :=
    hitems.map fun item => by cases item <;> rfl
  refine ⟨_, filterMap_marker?_all code xs ▸ hitems.filterMap hmarker, ?_⟩
  rw [Replacement.splice_eq_weaveFrom, (Replacement.stablySorted_sort _).eq hsorted,
    (Upcoming.of_stablySorted hitems).weaveFrom_kept (Int.le_refl 0)]
  intro r hr
  obtain ⟨item, hitem, rfl⟩ := List.mem_map.mp hr
  rcases List.mem_append.mp hitem with hesc | hmark
  · obtain ⟨i, c, rfl, -⟩ := mem_escapes hesc
    simp only [replacement]
    omega
  · obtain ⟨x, hx, rfl⟩ := List.mem_map.mp hmark
    have := hxs x hx
    have := x.mark.start_lt_stop code
    simp only [replacement, Marker.replacement]
    omega

end Item

end View

end InlineReport
