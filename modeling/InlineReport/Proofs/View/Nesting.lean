import InlineReport.Proofs.Text.Tag
import InlineReport.Proofs.View.Code

/-!
# Marked code is well nested

The tags of the page are few (`View.PageTag`): a text of the trace stands in them only in
the place of an attribute, and there it is escaped. Marked code is made of such tags and of
escaped code, and it is closed in the sense of `Markup.Closed`, however deeply copies are
nested in it (`View.closed_codeWithin`).
-/

namespace InlineReport

namespace View

open Markup

/-! ### The tags of the page -/

/-- The roles of the boxes of the page. -/
def boxRoles : List String := [
  "file-item", "file-name toggle-next", "fn-names", "fn-item", "fn-item fn-deopt", "fn-versions",
  "recompile", "", "hidden", "deopt", "code"]

/-- The roles of the parts of lines that have no title. -/
def spanRoles : List String := ["recompile-title toggle-next", "inline-code hidden"]

/-- **The tags of the page.** -/
inductive PageTag : Tag → Prop
  | body : PageTag (.opening .body [])
  | heading : PageTag (.opening .h1 [])
  | note : PageTag (.opening .p [.of "class" "note".toList])
  | box (role : String) : role ∈ boxRoles →
    PageTag (.opening .div [.of "class" role.toList])
  | span (role : String) : role ∈ spanRoles →
    PageTag (.opening .span [.of "class" role.toList])
  | copy : PageTag (.opening .span
      [.of "class" "inline toggle-next".toList, .of "data-title" "Show inlined".toList])
  | operation (kind : Text) : PageTag (.opening .span
      [.of "class" ("runtime ".toList ++ escapeMarkup kind), .of "data-title" (escapeMarkup kind)])
  | anchor (name : Text) : PageTag (.opening .a
      [.of "class" "fn-name".toList, .of "href" ("#".toList ++ escapeMarkup name),
        .of "id" (escapeMarkup name)])
  | link (site : Text) : PageTag (.opening .a
      [.of "class" "runtime CallWithDescriptor".toList,
        .of "href" ("#".toList ++ escapeMarkup site)])
  | refusedLink (site reason : Text) : PageTag (.opening .a
      [.of "class" "runtime CallWithDescriptor".toList, .flag "did-not-inlined",
        .of "data-title" ("Did not inline: ".toList ++ escapeMarkup reason),
        .of "href" ("#".toList ++ escapeMarkup site)])
  | closing (e : Element) : PageTag (.closing e)

/-- **No text leaves an attribute**, whatever it is. -/
theorem PageTag.isQuoted {tag : Tag} (h : PageTag tag) : tag.IsQuoted := by
  have hclass : Quotable "class".toList := by decide
  have htitle : Quotable "data-title".toList := by decide
  have hhref : Quotable "href".toList := by decide
  have hid : Quotable "id".toList := by decide
  have hescaped := quotable_escapeMarkup
  have htarget : ∀ s, Quotable ("#".toList ++ escapeMarkup s) :=
    fun s => Quotable.append (by decide) (hescaped s)
  have hroles : ∀ role ∈ boxRoles ++ spanRoles, Quotable role.toList := by decide
  cases h with
  | body => exact .nil _
  | heading => exact .nil _
  | note => exact .cons hclass (by decide) (.nil _)
  | box role h => exact .cons hclass (hroles role (List.mem_append_left _ h)) (.nil _)
  | span role h => exact .cons hclass (hroles role (List.mem_append_right _ h)) (.nil _)
  | copy => exact .cons hclass (by decide) (.cons htitle (by decide) (.nil _))
  | operation kind =>
    have hrole : Quotable ("runtime ".toList ++ escapeMarkup kind) :=
      Quotable.append (by decide) (hescaped kind)
    exact .cons hclass hrole (.cons htitle (hescaped kind) (.nil _))
  | anchor name =>
    exact .cons hclass (by decide) (.cons hhref (htarget name) (.cons hid (hescaped name) (.nil _)))
  | link site => exact .cons hclass (by decide) (.cons hhref (htarget site) (.nil _))
  | refusedLink site reason =>
    have hreason : Quotable ("Did not inline: ".toList ++ escapeMarkup reason) :=
      Quotable.append (by decide) (hescaped reason)
    exact .cons hclass (by decide)
      (.flag (by decide) (.cons htitle hreason (.cons hhref (htarget site) (.nil _))))
  | closing e => exact .closing e

/-! ### Anchors and links -/

/-- The tag of a function's anchor. -/
def anchorTag (name : Text) : Tag :=
  .opening .a [.of "class" "fn-name".toList, .of "href" ("#".toList ++ escapeMarkup name),
    .of "id" (escapeMarkup name)]

/-- What a link says about why its function was not inlined. -/
def refusalAttributes (refusal : String) : List Attribute :=
  if refusal.isEmpty then []
  else [.flag "did-not-inlined",
    .of "data-title" ("Did not inline: ".toList ++ escapeMarkup refusal.toList)]

/-- The tag of the link of a call. -/
def linkTag (site : Text) (refusal : String) : Tag :=
  .opening .a (.of "class" "runtime CallWithDescriptor".toList :: (refusalAttributes refusal ++
    [.of "href" ("#".toList ++ escapeMarkup site)]))

theorem PageTag.linkTag (site : Text) (refusal : String) : PageTag (View.linkTag site refusal) := by
  unfold View.linkTag refusalAttributes
  split
  · exact .link site
  · exact .refusedLink site refusal.toList

/-- **The tags of versions** and of what is around them in the page: links lead to functions
that a name means and say why these were not inlined, and no tag is an anchor. -/
inductive PartTag (m : Model) : Tag → Prop
  | link {site : Text} {f : Function} : m.functionByName? (String.ofList site) = some f →
    PartTag m (linkTag site f.refusal)
  | other {tag : Tag} : PageTag tag → (∀ attributes, tag ≠ .opening .a attributes) → PartTag m tag

variable {lim : Limits} {m : Model}

theorem PartTag.pageTag {tag : Tag} (h : PartTag m tag) : PageTag tag := by
  cases h with
  | link _ => exact .linkTag _ _
  | other h _ => exact h

theorem PartTag.closing (e : Element) : PartTag m (.closing e) :=
  .other (.closing e) fun _ => by simp

/-! ### Closed parts of the page -/

theorem closed_element {e : Element} {attributes : List Attribute} {s : Text}
    (hopening : PageTag (.opening e attributes)) (h : Closed PageTag s) :
    Closed PageTag (element e attributes s) :=
  Closed.element (fun _ => PageTag.isQuoted) hopening (.closing e) h

theorem closed_part {e : Element} {attributes : List Attribute} {s : Text} (he : e ≠ .a)
    (hopening : PageTag (.opening e attributes)) (h : Closed (PartTag m) s) :
    Closed (PartTag m) (element e attributes s) := by
  refine Closed.element (fun _ htag => htag.pageTag.isQuoted) (.other hopening ?_) (.closing e) h
  rintro attributes' heq
  exact he (Tag.opening.inj heq).1

theorem closed_escapeCode (P : Tag → Prop) (s : Text) : Closed P (escapeCode s) :=
  .of_plain (plain_escapeCode s)

theorem closed_escapeMarkup (P : Tag → Prop) (s : Text) : Closed P (escapeMarkup s) :=
  .of_plain (quotable_escapeMarkup s).plain

/-! ### Marked code -/

variable {code : Text} {mark : Int → Except Failure Text}

theorem codeBox_eq_element (s : Text) :
    codeBox s = element .div [.of "class" "code".toList] s := by
  simp only [codeBox, concat, element, List.flatten_cons, List.flatten_nil, List.append_nil]
  rfl

theorem plain_of_indent {offset : Int} {blanks : Text} (h : indent lim code offset = .ok blanks) :
    Plain blanks := by
  unfold indent at h
  split at h
  · exact absurd h (by simp)
  split at h
  · exact absurd h (by simp)
  · intro c hc
    rw [← Except.ok.inj h] at hc
    rw [List.eq_of_mem_replicate hc]
    rfl

/-- **A link of a call is closed**, if it is one to a function that its name means. -/
theorem closed_callLink {source : Text} {f : Function}
    (hf : m.functionByName? (String.ofList source) = some f) :
    Closed (PartTag m) ("<a class=\"runtime CallWithDescriptor\"".toList ++
      refusalTitle f.refusal ++ " href=\"#".toList ++ escapeMarkup source ++ "\">".toList ++
      escapeMarkup source ++ "</a>".toList) := by
  have h := Closed.element (fun _ htag => PageTag.isQuoted (PartTag.pageTag htag)) (.link hf)
    (.closing .a) (closed_escapeMarkup (PartTag m) source)
  unfold refusalTitle
  unfold refusalAttributes at h
  split
  -- literals in a row are run together on both sides, which makes them the same
  · next hempty =>
    rw [if_pos hempty] at h
    simp only [element_eq, Element.name, Attribute.text_of, List.flatMap_cons,
      List.flatMap_nil, List.nil_append, List.append_assoc, List.append_nil,
      toList_append_toList, ← String.toList_append, String.reduceAppend] at h ⊢
    exact h
  · next hempty =>
    rw [if_neg hempty] at h
    simp only [concat, List.flatten_cons, List.flatten_nil]
    simp only [element_eq, Element.name, Attribute.text_of, Attribute.text_flag, List.flatMap_cons,
      List.flatMap_nil, List.cons_append, List.nil_append, List.append_assoc, List.append_nil,
      toList_append_toList, ← String.toList_append, String.reduceAppend] at h ⊢
    exact h

theorem closed_operationSpan (source kind : Text) :
    Closed (PartTag m) ("<span class=\"runtime ".toList ++ escapeMarkup kind ++
      "\" data-title=\"".toList ++ escapeMarkup kind ++ "\">".toList ++ escapeCode source ++
      "</span>".toList) := by
  have h := closed_part (m := m) (by decide) (.operation kind) (closed_escapeCode _ source)
  simp only [element_eq, Element.name, Attribute.text_of, List.flatMap_cons,
    List.flatMap_nil, List.append_assoc, List.append_nil, toList_append_toList,
    ← String.toList_append, String.reduceAppend] at h ⊢
  exact h

theorem closed_copySpans {source body blanks : Text} (hbody : Closed (PartTag m) body)
    (hblanks : Plain blanks) :
    Closed (PartTag m)
      ("<span class=\"inline toggle-next\" data-title=\"Show inlined\">".toList ++
        escapeCode source ++ ("</span><span class=\"inline-code hidden\">".toList ++ body ++
          blanks ++ "</span>".toList)) := by
  have h := (closed_part (m := m) (by decide) .copy (closed_escapeCode _ source)).append
    (closed_part (by decide) (.span "inline-code hidden" (by decide))
      (hbody.append (.of_plain hblanks)))
  simp only [element_eq, Element.name, Attribute.text_of, List.flatMap_cons,
    List.flatMap_nil, List.append_assoc, List.append_nil, toList_append_toList,
    ← String.toList_append, String.reduceAppend] at h ⊢
  exact h

theorem functionByName?_of_target {site : Text} {call : RuntimeCall} {f : Function}
    (h : target m site call = some f) : m.functionByName? (String.ofList site) = some f := by
  unfold target at h
  split at h
  · exact h
  · exact absurd h (by simp)

/-- What is written for a segment is closed, if the marked code of copies is. -/
theorem Writes.closed (hmark : ∀ child body, mark child = .ok body → Closed (PartTag m) body)
    {segment : Segment} {p : Piece} (h : Writes lim m code mark segment p) :
    Closed (PartTag m) p.text := by
  cases h with
  | plain source =>
    rw [Piece.text, List.append_nil]
    exact closed_escapeCode _ source
  | copy hbody hblanks => exact closed_copySpans (hmark _ _ hbody) (plain_of_indent hblanks)
  | operation _ => exact closed_operationSpan _ _
  | link htarget => exact closed_callLink (functionByName?_of_target htarget)

/-- **Marked code is closed**, however deeply copies are nested in it. -/
theorem closed_codeWithin (hm : m.OffsetsNonneg) {depth : Nat} {handle : Int} {out : Text}
    (h : codeWithin lim m depth handle = .ok out) : Closed (PartTag m) out := by
  induction depth generalizing handle out with
  | zero => exact absurd h (by simp [codeWithin])
  | succ depth ih =>
    obtain ⟨v, pieces, -, hpieces, rfl⟩ := exists_pieces_of_codeWithin hm h
    -- the induction hypothesis is about the marked code of every copy in it
    rw [codeBox_eq_element]
    refine closed_part (by decide) (.box "code" (by decide)) (Closed.flatMap fun p hp => ?_)
    obtain ⟨segment, -, hwrites⟩ := exists_mem_of_forall₂ hpieces hp
    exact hwrites.closed fun child body => ih

end View

end InlineReport
