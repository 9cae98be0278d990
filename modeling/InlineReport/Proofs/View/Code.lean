import InlineReport.Proofs.Data.Outcome
import InlineReport.Proofs.View.Marker

/-!
# Marked code, segment by segment

What comes out as the marked code of a version is what `View.segments` says: the segments
of the code, each written on its own (`View.code_eq_segments`). The copies in it are
marked by the very same function, since a marked code that is not nested too deeply does
not depend on how deeply it might be nested (`View.codeWithin_mono`). Whatever the marks
are, **every angle bracket is escaped exactly once**.
-/

namespace InlineReport

namespace View

variable {lim : Limits} {m : Model} {v : Version} {code : Text}
  {mark mark' : Int → Except Failure Text}

/-! ### The markers of a version -/

/-- **A marker is right** if its text is what is written for what it covers. -/
def Marker.IsRight (lim : Limits) (m : Model) (code : Text) (mark : Int → Except Failure Text)
    (x : Marker) : Prop :=
  ∃ p, Writes lim m code mark (.marked x.mark (x.mark.site code)) p ∧ x.text = p.text

/-- The marker of an operation. -/
def operationMarker (m : Model) (code : Text) (call : RuntimeCall) : Marker :=
  ⟨.operation call, (runtimeMark m code call).text⟩

/-- The text of an operation's marker depends on whether it has a target. -/
theorem text_runtimeMark (m : Model) (code : Text) (call : RuntimeCall) :
    (runtimeMark m code call).text =
      (target m (Mark.site code (.operation call)) call).elim
        (operationSpan (Mark.site code (.operation call)) (displayKind call.kind))
        (callLink (Mark.site code (.operation call))) := by
  unfold runtimeMark
  dsimp only
  split
  · next f hf =>
    rw [show target m (Mark.site code (.operation call)) call = some f from hf]
    rfl
  · next hf =>
    rw [show target m (Mark.site code (.operation call)) call = none from hf]
    rfl

theorem isRight_operationMarker (lim : Limits) (m : Model) (code : Text)
    (mark : Int → Except Failure Text) (call : RuntimeCall) :
    (operationMarker m code call).IsRight lim m code mark := by
  have htext := text_runtimeMark m code call
  cases ht : target m (Mark.site code (.operation call)) call with
  | none =>
    refine ⟨_, .operation ht, ?_⟩
    rw [operationMarker, htext, ht, Option.elim_none]
    simp only [operationSpan, concat, Piece.text, List.flatten_cons, List.flatten_nil,
      List.append_nil, List.append_assoc]
  | some f =>
    refine ⟨_, .link ht, ?_⟩
    have hrole : "<a class=\"runtime CallWithDescriptor\"".toList =
        "<a class=\"runtime ".toList ++ (callKind.toList ++ "\"".toList) := by
      rw [← String.toList_append, ← String.toList_append]
      rfl
    rw [operationMarker, htext, ht, Option.elim_some]
    simp only [hrole, callLink, concat, Piece.text, List.flatten_cons, List.flatten_nil,
      List.append_nil, List.append_assoc]

theorem isRight_of_inlineMark {child offset : Int} {body : Text} {r : Replacement}
    (hbody : mark child = .ok body) (h : inlineMark lim code offset body = .ok r) :
    ∃ x : Marker, x.mark = .copy child offset ∧ r = x.replacement code ∧
      x.IsRight lim m code mark := by
  obtain ⟨blanks, hblanks, h⟩ := bind_eq_ok_iff.mp h
  obtain rfl := Except.ok.inj h
  refine ⟨⟨.copy child offset, _⟩, rfl, rfl, _, .copy hbody hblanks, ?_⟩
  simp only [Piece.text, List.flatten_cons, List.flatten_nil, List.append_nil,
    List.append_assoc]
  rfl

/-- The markers of copies. -/
theorem exists_copyMarkers {children : List Int} {rs : List Replacement}
    (h : List.Forall₂ (fun child r => (do
      let copy ← m.version child
      inlineMark lim code copy.offset (← mark child)) = Except.ok r) children rs) :
    ∃ xs : List Marker,
      xs.map (·.mark) = children.filterMap (fun child =>
        (m.version child).toOption.map fun copy => .copy child copy.offset) ∧
      rs = xs.map (Marker.replacement code) ∧ ∀ x ∈ xs, x.IsRight lim m code mark := by
  induction h with
  | nil => exact ⟨[], rfl, rfl, by simp⟩
  | cons h _ ih =>
    obtain ⟨xs, hmarks, hrs, hright⟩ := ih
    obtain ⟨copy, hcopy, h⟩ := bind_eq_ok_iff.mp h
    obtain ⟨body, hbody, h⟩ := bind_eq_ok_iff.mp h
    obtain ⟨x, hx, hr, hxright⟩ := isRight_of_inlineMark (m := m) hbody h
    refine ⟨x :: xs, ?_, ?_, List.forall_mem_cons.mpr ⟨hxright, hright⟩⟩
    · rw [List.map_cons, hmarks, hx, List.filterMap_cons_some]
      rw [hcopy]
      rfl
    · rw [List.map_cons, hrs, hr]

/-- **The replacements of a version** are its escapes and right markers for its marks. -/
theorem exists_markers {rs : List Replacement} (h : replacementsWith lim m mark v = .ok rs) :
    ∃ xs : List Marker, xs.map (·.mark) = marks m v ∧ (∀ x ∈ xs, x.IsRight lim m v.code mark) ∧
      rs = (Item.all v.code xs).map (Item.replacement v.code) := by
  obtain ⟨inlined, hinlined, h⟩ := bind_eq_ok_iff.mp h
  obtain rfl := Except.ok.inj h
  obtain ⟨xs, hmarks, rfl, hright⟩ := exists_copyMarkers (mapM_eq_ok_iff.mp hinlined)
  refine ⟨xs ++ v.runtime.map (operationMarker m v.code), ?_, ?_, ?_⟩
  · rw [List.map_append, hmarks, List.map_map]
    rfl
  · intro x hx
    rcases List.mem_append.mp hx with hx | hx
    · exact hright x hx
    · obtain ⟨call, -, rfl⟩ := List.mem_map.mp hx
      exact isRight_operationMarker lim m v.code mark call
  · rw [Item.all, List.map_append, Item.map_replacement_escapes, List.map_append,
      List.map_append, List.map_map, List.map_map, List.map_map, List.append_assoc]
    rfl

/-! ### The pieces -/

/-- Right markers write the segments. -/
theorem exists_pieces {xs : List Marker} (h : ∀ x ∈ xs, x.IsRight lim m code mark) (start : Int) :
    ∃ pieces, List.Forall₂ (Writes lim m code mark) (segmentsFrom code start (xs.map (·.mark)))
        pieces ∧
      markedFrom code start xs = pieces.flatMap Piece.text := by
  induction xs generalizing start with
  | nil =>
    refine ⟨[_], .cons (.plain _) .nil, ?_⟩
    simp [markedFrom, Piece.text]
  | cons x xs ih =>
    obtain ⟨⟨p, hp, htext⟩, hxs⟩ := List.forall_mem_cons.mp h
    rw [List.map_cons, segmentsFrom, markedFrom]
    split
    · exact ih hxs start
    · obtain ⟨pieces, hpieces, hrest⟩ := ih hxs (x.mark.stop code)
      refine ⟨_ :: p :: pieces, .cons (.plain _) (.cons hp hpieces), ?_⟩
      rw [List.flatMap_cons, List.flatMap_cons, hrest, htext]
      simp [Piece.text]

theorem start_nonneg_of_mem_marks (hm : m.OffsetsNonneg) (hv : v ∈ m.versions) {x : Mark}
    (hx : x ∈ marks m v) : 0 ≤ x.start := by
  rcases List.mem_append.mp hx with hx | hx
  · obtain ⟨child, -, hcopy⟩ := List.mem_filterMap.mp hx
    cases hc : m.version child with
    | error e =>
      rw [hc] at hcopy
      exact absurd hcopy (by simp [Except.toOption])
    | ok copy =>
      rw [hc] at hcopy
      obtain rfl := Option.some.inj hcopy
      exact (hm copy (Model.mem_of_version hc)).1
  · obtain ⟨call, hcall, rfl⟩ := List.mem_map.mp hx
    exact (hm v hv).2 call hcall

/-- **One level of marked code**: the segments of a version are written with what the
copies in it are marked as. -/
theorem exists_pieces_of_codeWithin (hm : m.OffsetsNonneg) {depth : Nat} {handle : Int}
    {out : Text} (h : codeWithin lim m (depth + 1) handle = .ok out) :
    ∃ v pieces, m.version handle = .ok v ∧
      List.Forall₂ (Writes lim m v.code (codeWithin lim m depth)) (segments m v) pieces ∧
      out = codeBox (pieces.flatMap Piece.text) := by
  obtain ⟨v, hv, h⟩ := bind_eq_ok_iff.mp h
  obtain ⟨rs, hrs, h⟩ := bind_eq_ok_iff.mp h
  obtain rfl := Except.ok.inj h
  obtain ⟨xs, hmarks, hright, rfl⟩ := exists_markers hrs
  obtain ⟨ordered, hordered, hsplice⟩ := Item.splice_all v.code fun x hx =>
    start_nonneg_of_mem_marks hm (Model.mem_of_version hv)
      (hmarks ▸ List.mem_map_of_mem hx)
  -- leaving out blocked marks and sorting depend on the marks alone, not on their texts
  have hsorted : ordered.map (·.mark) =
      Mark.sort ((marks m v).filter (!·.isBlocked v.code)) := by
    have hmap : StablySorted Mark.start _ (ordered.map (·.mark)) := hordered.map fun _ => rfl
    rw [← hmarks, List.filter_map]
    exact hmap.eq (stablySorted_mergeSort Mark.start _)
  obtain ⟨pieces, hpieces, htext⟩ :=
    exists_pieces (fun x hx => hright x (List.mem_filter.mp (hordered.mem_iff.mp hx)).1) 0
  refine ⟨v, pieces, hv, ?_, ?_⟩
  · rw [segments, ← hsorted]
    exact hpieces
  · rw [hsplice, htext]

/-! ### Nesting -/

theorem replacementsWith_mono (hmark : ∀ child body, mark child = .ok body → mark' child = .ok body)
    {rs : List Replacement} (h : replacementsWith lim m mark v = .ok rs) :
    replacementsWith lim m mark' v = .ok rs := by
  obtain ⟨inlined, hinlined, h⟩ := bind_eq_ok_iff.mp h
  refine bind_eq_ok_iff.mpr ⟨inlined, mapM_eq_ok_iff.mpr ?_, h⟩
  refine (mapM_eq_ok_iff.mp hinlined).imp fun child r hr => ?_
  obtain ⟨copy, hcopy, hr⟩ := bind_eq_ok_iff.mp hr
  obtain ⟨body, hbody, hr⟩ := bind_eq_ok_iff.mp hr
  exact bind_eq_ok_iff.mpr ⟨copy, hcopy, bind_eq_ok_iff.mpr ⟨body, hmark child body hbody, hr⟩⟩

/-- **Marked code that is not nested too deeply** is the same when it might be nested more
deeply. -/
theorem codeWithin_mono {depth depth' : Nat} {handle : Int} {out : Text}
    (h : codeWithin lim m depth handle = .ok out) (hle : depth ≤ depth') :
    codeWithin lim m depth' handle = .ok out := by
  induction depth generalizing handle out depth' with
  | zero => exact absurd h (by simp [codeWithin])
  | succ depth ih =>
    obtain ⟨depth', rfl⟩ : ∃ d, depth' = d + 1 := ⟨depth' - 1, by omega⟩
    obtain ⟨v, hv, h⟩ := bind_eq_ok_iff.mp h
    obtain ⟨rs, hrs, h⟩ := bind_eq_ok_iff.mp h
    refine bind_eq_ok_iff.mpr ⟨v, hv, bind_eq_ok_iff.mpr ⟨rs, ?_, h⟩⟩
    exact replacementsWith_mono (fun child body hbody => ih hbody (by omega)) hrs

theorem Writes.mono (hmark : ∀ child body, mark child = .ok body → mark' child = .ok body)
    {segment : Segment} {p : Piece} (h : Writes lim m code mark segment p) :
    Writes lim m code mark' segment p := by
  cases h with
  | plain source => exact .plain source
  | copy hbody hblanks => exact .copy (hmark _ _ hbody) hblanks
  | operation htarget => exact .operation htarget
  | link htarget => exact .link htarget

/-! ### Escaped once -/

/-- What a segment shows is its source, escaped character by character. -/
theorem Writes.exists_parts {segment : Segment} {p : Piece} (h : Writes lim m code mark segment p) :
    ∃ parts, List.Forall₂ Markup.IsEscapeOf segment.source parts ∧ p.shown = parts.flatten := by
  have hcode : ∀ source : Text, ∃ parts,
      List.Forall₂ Markup.IsEscapeOf source parts ∧ escapeCode source = parts.flatten :=
    fun source => ⟨_, Markup.forall₂_map_self Markup.isEscapeOf_codeEntity, rfl⟩
  cases h with
  | plain source => exact hcode source
  | copy _ _ => exact hcode _
  | operation _ => exact hcode _
  | link _ => exact ⟨_, Markup.forall₂_map_self Markup.isEscapeOf_entity, rfl⟩

/-- What all segments show is the whole code, escaped character by character. -/
theorem exists_parts_of_forall₂ {segments : List Segment} {pieces : List Piece}
    (h : List.Forall₂ (Writes lim m code mark) segments pieces) :
    ∃ parts, List.Forall₂ Markup.IsEscapeOf (segments.flatMap Segment.source) parts ∧
      pieces.flatMap Piece.shown = parts.flatten := by
  induction h with
  | nil => exact ⟨[], .nil, rfl⟩
  | cons h _ ih =>
    obtain ⟨parts, hparts, hshown⟩ := h.exists_parts
    obtain ⟨more, hmore, hrest⟩ := ih
    refine ⟨parts ++ more, List.rel_append hparts hmore, ?_⟩
    rw [List.flatMap_cons, hshown, hrest, List.flatten_append]

/-! ### Segments of marked code -/

theorem mem_marks_of_mem_segmentsFrom {start : Int} {given : List Mark} {x : Mark} {source : Text}
    (h : .marked x source ∈ segmentsFrom code start given) : x ∈ given ∧ source = x.site code := by
  induction given generalizing start with
  | nil => exact absurd h (by simp [segmentsFrom])
  | cons first more ih =>
    rw [segmentsFrom] at h
    split at h
    · exact (ih h).imp (List.mem_cons_of_mem _) id
    · rcases List.mem_cons.mp h with h | h
      · exact absurd h (by simp)
      rcases List.mem_cons.mp h with h | h
      · obtain ⟨rfl, rfl⟩ := Segment.marked.inj h
        exact ⟨List.mem_cons_self, rfl⟩
      · exact (ih h).imp (List.mem_cons_of_mem _) id

/-- What is marked in a segment is a mark of the version, on what it covers. -/
theorem mem_marks_of_mem_segments {x : Mark} {source : Text}
    (h : .marked x source ∈ segments m v) : x ∈ marks m v ∧ source = x.site v.code := by
  obtain ⟨hx, hsource⟩ := mem_marks_of_mem_segmentsFrom h
  have hfilter := (stablySorted_mergeSort Mark.start _).mem_iff.mp hx
  exact ⟨(List.mem_filter.mp hfilter).1, hsource⟩

/-- **Marked code is the box around its segments**, however deeply it may be nested: they are the
code, in order and without gaps; each is plain or what a mark of the version covers, and is written
on its own, a copy with its own marked code behind it. What they show is the code with each of its
characters escaped once. -/
theorem code_eq_segments (hm : m.OffsetsNonneg) {depth : Nat} {handle : Int} {out : Text}
    (h : codeWithin lim m depth handle = .ok out) :
    ∃ v pieces, m.version handle = .ok v ∧
      (segments m v).flatMap Segment.source = v.code ∧
      (∀ x source, .marked x source ∈ segments m v → x ∈ marks m v ∧ source = x.site v.code) ∧
      List.Forall₂ (Writes lim m v.code (codeWithin lim m depth)) (segments m v) pieces ∧
      out = "<div class=\"code\">".toList ++ pieces.flatMap Piece.text ++ "</div>".toList ∧
      ∃ parts, List.Forall₂ Markup.IsEscapeOf v.code parts ∧
        pieces.flatMap Piece.shown = parts.flatten := by
  -- without any depth nothing is marked, so there is one level to open
  cases depth with
  | zero => exact absurd h (by simp [codeWithin])
  | succ depth =>
    obtain ⟨v, pieces, hv, hpieces, rfl⟩ := exists_pieces_of_codeWithin hm h
    have hwrites : List.Forall₂ (Writes lim m v.code (codeWithin lim m (depth + 1)))
        (segments m v) pieces :=
      hpieces.imp fun _ _ => Writes.mono fun child body hbody =>
        codeWithin_mono hbody (Nat.le_succ depth)
    refine ⟨v, pieces, hv, flatMap_source_segments m v, fun _ _ => mem_marks_of_mem_segments,
      hwrites, ?_, ?_⟩
    · simp only [codeBox, concat, List.flatten_cons, List.flatten_nil, List.append_nil,
        List.append_assoc]
    · rw [← flatMap_source_segments m v]
      exact exists_parts_of_forall₂ hwrites

/-- A function with a copy and a call in its code, which holds angle brackets as well. -/
def markedModel : Model where
  versions := #[
    { handle := 0, file := "a.js", name := "f", code := "if (x<g(y)) h(x)".toList
      compileId := some 0, inlines := [1], runtime := [⟨12, "CallRuntime"⟩, ⟨5, "LessThan"⟩] },
    { handle := 1, file := "a.js", name := "g", code := "y>1".toList
      secondId := 1, owner := some 0, offset := 6 }]

/-- The marked code of the function: its own, and that of the copy inside it. -/
def markedText : Text :=
  concat [
    "<div class=\"code\">if (x&lt;".toList,
    "<span class=\"inline toggle-next\" data-title=\"Show inlined\">g</span>".toList,
    "<span class=\"inline-code hidden\"><div class=\"code\">y&gt;1</div>".toList,
    "       </span>(y)) ".toList,
    "<span class=\"runtime CallWithDescriptor\" data-title=\"CallWithDescriptor\">h".toList,
    "</span>(x)</div>".toList]

theorem code_markedModel : View.code .usual markedModel 0 = .ok markedText := by
  change codeWithin .usual markedModel 3 0 = _
  simp only [codeWithin, splice, Replacement.sort_eq_insertionSort]
  decide +kernel

theorem code_markedModel_segments :
    markedModel.OffsetsNonneg ∧ View.code .usual markedModel 0 = .ok markedText ∧
      ∃ v pieces, markedModel.version 0 = .ok v ∧
        (segments markedModel v).flatMap Segment.source = v.code ∧
        (∀ x source, .marked x source ∈ segments markedModel v →
          x ∈ marks markedModel v ∧ source = x.site v.code) ∧
        List.Forall₂ (Writes .usual markedModel v.code (View.code .usual markedModel))
          (segments markedModel v) pieces ∧
        markedText = "<div class=\"code\">".toList ++ pieces.flatMap Piece.text ++
          "</div>".toList ∧
        ∃ parts, List.Forall₂ Markup.IsEscapeOf v.code parts ∧
          pieces.flatMap Piece.shown = parts.flatten := by
  have hm : markedModel.OffsetsNonneg := by simp [Model.OffsetsNonneg, markedModel]
  exact ⟨hm, code_markedModel, code_eq_segments hm code_markedModel⟩

end View

end InlineReport
