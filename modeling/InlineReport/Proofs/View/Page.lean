import InlineReport.Proofs.Text.Search
import InlineReport.Proofs.View.Nesting
import InlineReport.View.Page

/-!
# The page is well nested

From its `<body>` on the page is well-nested markup with no other tags than the renderer's
own (`View.page_wellNested`), whatever the title is and whatever the trace has put into the
model.

A part of the page is a list of lines, and a box may be opened in one line and closed in
another one; so what is shown to be closed is not a line but the lines of a part with their
newlines (`View.unlines`). Both a file and a function are two boxes around such a part.

Which anchors there are is read off on the way: each part tells of which functions it holds the
anchors (`View.Anchors`), and **the page has one anchor for each function of each file**
(`View.exists_anchors_of_page`).
-/

namespace InlineReport

namespace View

open Markup

variable {lim : Limits} {m : Model}

/-! ### Lines -/

/-- Lines with a newline behind each of them. -/
def unlines (lines : List Text) : Text := lines.flatMap (· ++ ['\n'])

theorem intercalate_append {lines more : List Text} (h : more ≠ []) :
    ['\n'].intercalate (lines ++ more) = unlines lines ++ ['\n'].intercalate more := by
  induction lines with
  | nil => rfl
  | cons line lines ih =>
    rw [List.cons_append, List.intercalate_cons_of_ne_nil (by simp [h]), ih]
    simp [unlines]

theorem unlines_append (lines more : List Text) :
    unlines (lines ++ more) = unlines lines ++ unlines more := List.flatMap_append

theorem unlines_singleton (line : Text) : unlines [line] = line ++ ['\n'] :=
  List.flatMap_singleton ..

theorem closed_unlines {P : Tag → Prop} {lines : List Text} (h : ∀ line ∈ lines, Closed P line) :
    Closed P (unlines lines) :=
  Closed.flatMap fun line hline => (h line hline).append (.of_plain (by decide))

theorem closed_newline {P : Tag → Prop} : Closed P ['\n'] := .of_plain (by decide)

/-! ### Anchors -/

/-- **A part of the page with the anchors of functions**: it is read as tags of versions and as
anchors, and only anchors name their elements, one for each of the functions, in order. -/
def Anchors (m : Model) (s : Text) (fs : List Function) : Prop :=
  ∃ tags, ReadsAs s tags ∧ (∀ tag ∈ tags, PartTag m tag ∨ ∃ name, tag = anchorTag name) ∧
    tags.filter (fun tag => (tag.value? "id").isSome) = fs.map (anchorTag ·.name.toList)

theorem PageTag.value?_id {tag : Tag} (h : PageTag tag)
    (hanchor : ∀ attributes, tag ≠ .opening .a attributes) : tag.value? "id" = none := by
  cases h with
  | anchor name => exact absurd rfl (hanchor _)
  | link site => exact absurd rfl (hanchor _)
  | refusedLink site reason => exact absurd rfl (hanchor _)
  | _ => rfl

theorem value?_id_linkTag (site : Text) (refusal : String) :
    (linkTag site refusal).value? "id" = none := by
  unfold linkTag refusalAttributes
  split
  · rfl
  · rfl

theorem PartTag.value?_id {tag : Tag} (h : PartTag m tag) : tag.value? "id" = none := by
  cases h with
  | link _ => exact value?_id_linkTag _ _
  | other h hanchor => exact h.value?_id hanchor

theorem value?_id_anchorTag (name : Text) :
    (anchorTag name).value? "id" = some (escapeMarkup name) := rfl

namespace Anchors

variable {s t : Text} {fs gs : List Function}

theorem of_closed (h : Closed (PartTag m) s) : Anchors m s [] := by
  obtain ⟨tags, hparts, hreads⟩ := h
  refine ⟨tags, hreads, fun tag htag => Or.inl (hparts tag htag), ?_⟩
  refine List.filter_eq_nil_iff.mpr fun tag htag => ?_
  simp [(hparts tag htag).value?_id]

/-- A part with anchors is closed. -/
theorem closed (h : Anchors m s fs) : Closed PageTag s := by
  obtain ⟨tags, hreads, htags, -⟩ := h
  refine ⟨tags, fun tag htag => ?_, hreads⟩
  rcases htags tag htag with hpart | ⟨name, rfl⟩
  · exact hpart.pageTag
  · exact .anchor name

theorem append (hs : Anchors m s fs) (ht : Anchors m t gs) : Anchors m (s ++ t) (fs ++ gs) := by
  obtain ⟨tags, hreads, htags, hfilter⟩ := hs
  obtain ⟨tags', hreads', htags', hfilter'⟩ := ht
  refine ⟨tags ++ tags', ReadsAs.append hreads hreads',
    List.forall_mem_append.mpr ⟨htags, htags'⟩, ?_⟩
  rw [List.filter_append, hfilter, hfilter', List.map_append]

/-- An element around a part has the anchors of the part. -/
theorem element {e : Element} {attributes : List Attribute} (he : e ≠ .a)
    (hopening : PageTag (.opening e attributes)) (h : Anchors m s fs) :
    Anchors m (Markup.element e attributes s) fs := by
  obtain ⟨tags, hreads, htags, hfilter⟩ := h
  have hlink : ∀ attributes', Tag.opening e attributes ≠ .opening .a attributes' := by
    rintro attributes' heq
    exact he (Tag.opening.inj heq).1
  refine ⟨_, ReadsAs.element hopening.isQuoted hreads, ?_, ?_⟩
  · exact List.forall_mem_append.mpr ⟨List.forall_mem_cons.mpr ⟨Or.inl (.other hopening hlink),
      htags⟩, List.forall_mem_singleton.mpr (Or.inl (.closing e))⟩
  · simp [hopening.value?_id hlink, (PartTag.closing (m := m) e).value?_id, hfilter]

/-- The anchor of a function. -/
theorem anchor (f : Function) (h : Closed (PartTag m) s) :
    Anchors m (Markup.element .a (anchorTag f.name.toList).attributes s) [f] := by
  obtain ⟨tags, hreads, htags, hfilter⟩ := of_closed h
  refine ⟨_, ReadsAs.element (PageTag.anchor f.name.toList).isQuoted hreads, ?_, ?_⟩
  · exact List.forall_mem_append.mpr ⟨List.forall_mem_cons.mpr ⟨Or.inr ⟨f.name.toList, rfl⟩,
      htags⟩, List.forall_mem_singleton.mpr (Or.inl (.closing .a))⟩
  · rw [List.filter_append, List.filter_cons_of_pos (by rfl), hfilter]
    rfl

theorem flatten {α : Type} {l : List α} {parts : List (List Text)} {g : α → List Function}
    (h : List.Forall₂ (fun a lines => Anchors m (unlines lines) (g a)) l parts) :
    Anchors m (unlines parts.flatten) (l.flatMap g) := by
  induction h with
  | nil => exact of_closed .nil
  | cons hlines _ ih =>
    rw [List.flatten_cons, unlines_append, List.flatMap_cons]
    exact hlines.append ih

end Anchors

/-! ### Boxes -/

/-- The tag that opens a box. -/
def boxOpening (role : Text) : Text := concat ["<div class=\"".toList, role, "\">".toList]

theorem boxOpening_toList (role : String) :
    boxOpening role.toList = ("<div class=\"" ++ (role ++ "\">")).toList := by
  simp [boxOpening, concat, String.toList_append]

theorem element_box (role s : Text) :
    element .div [.of "class" role] s = boxOpening role ++ s ++ "</div>".toList := by
  simp only [boxOpening, concat, List.flatten_cons, List.flatten_nil, element_eq, Element.name,
    Attribute.text_of, List.flatMap_cons, List.flatMap_nil, List.append_nil, List.append_assoc,
    toList_append_toList, ← String.toList_append, String.reduceAppend]

theorem closed_box (role : String) (hrole : role ∈ boxRoles) {s : Text}
    (h : Closed (PartTag m) s) :
    Closed (PartTag m) (boxOpening role.toList ++ s ++ "</div>".toList) := by
  rw [← element_box]
  exact closed_part (by decide) (.box role hrole) h

theorem Anchors.box (role : String) (hrole : role ∈ boxRoles) {s : Text} {fs : List Function}
    (h : Anchors m s fs) : Anchors m (boxOpening role.toList ++ s ++ "</div>".toList) fs := by
  rw [← element_box]
  exact h.element (by decide) (.box role hrole)

/-- Lines in a box, which is opened in the line before them and closed in the line behind
them. -/
theorem closed_boxLines (role : String) (hrole : role ∈ boxRoles) {lines : List Text}
    (h : Closed (PartTag m) (unlines lines)) :
    Closed (PartTag m) (unlines ([boxOpening role.toList] ++ lines ++ ["</div>".toList])) := by
  have hbox := (closed_box role hrole (closed_newline.append h)).append closed_newline
  rw [unlines_append, unlines_append, unlines_singleton, unlines_singleton]
  simp only [List.append_assoc] at hbox ⊢
  exact hbox

/-- Two boxes around lines, with a caption in the outer one. -/
theorem Anchors.nestedBoxes (outer inner : String) (houter : outer ∈ boxRoles)
    (hinner : inner ∈ boxRoles) {caption : Text} {lines : List Text} {fs gs : List Function}
    (hcaption : Anchors m caption fs) (h : Anchors m (unlines lines) gs) :
    Anchors m (unlines ([boxOpening outer.toList, caption, boxOpening inner.toList] ++ lines ++
      ["</div></div>".toList])) (fs ++ gs) := by
  have hnewline : Anchors m ['\n'] [] := .of_closed closed_newline
  have hin := (hnewline.append h).box inner hinner
  have hout := ((((hnewline.append hcaption).append hnewline).append hin).box outer houter).append
    hnewline
  have hend :
      unlines ["</div></div>".toList] = "</div>".toList ++ ("</div>".toList ++ ['\n']) := rfl
  rw [unlines_append, unlines_append, hend]
  simp only [unlines, List.flatMap_cons, List.flatMap_nil, List.append_assoc,
    List.append_nil, List.nil_append] at hout ⊢
  exact hout

/-! ### The parts of the page -/

theorem closed_recompileTitle :
    Closed (PartTag m) "<span class=\"recompile-title toggle-next\">~recompile~</span>".toList := by
  have htext : element .span [.of "class" "recompile-title toggle-next".toList]
      "~recompile~".toList =
      "<span class=\"recompile-title toggle-next\">~recompile~</span>".toList := rfl
  rw [← htext]
  exact closed_part (by decide) (.span _ (by decide)) (.of_plain (by decide))

theorem closed_codeLine (current : Bool) {code : Text} (h : Closed (PartTag m) code) :
    Closed (PartTag m) (concat ["<div class=\"".toList,
      if current then [] else "hidden".toList, "\">".toList, code, "</div>".toList]) := by
  have hbox : ∀ role ∈ boxRoles, Closed (PartTag m) (concat ["<div class=\"".toList, role.toList,
      "\">".toList, code, "</div>".toList]) := by
    intro role hrole
    have hbox := closed_box role hrole h
    simp only [boxOpening, concat, List.flatten_cons, List.flatten_nil, List.append_nil,
      List.append_assoc] at hbox ⊢
    exact hbox
  cases current
  · exact hbox "hidden" (by decide)
  · exact hbox "" (by decide)

theorem closed_deoptLine (reason : Text) :
    Closed (PartTag m) (concat [
      "<div class=\"deopt\">Deopt: ".toList, escapeMarkup reason, "</div>".toList]) := by
  have hlabel : Closed (PartTag m) "Deopt: ".toList := .of_plain (by decide)
  have h := closed_box "deopt" (by decide) (hlabel.append (closed_escapeMarkup _ reason))
  simp only [concat, List.flatten_cons, List.flatten_nil]
  simp only [boxOpening_toList, List.append_assoc, List.append_nil, toList_append_toList,
    String.reduceAppend] at h ⊢
  exact h

theorem closed_versionLines (recompiled current : Bool) (v : Version) {code : Text}
    (h : Closed (PartTag m) code) :
    Closed (PartTag m) (unlines (versionLines recompiled current v code)) := by
  have htitle : Closed (PartTag m) (unlines (if recompiled then
      ["<span class=\"recompile-title toggle-next\">~recompile~</span>".toList] else [])) := by
    split
    · exact closed_unlines (List.forall_mem_singleton.mpr closed_recompileTitle)
    · exact .nil
  have hcode := closed_unlines (List.forall_mem_singleton.mpr (closed_codeLine current h))
  have hdeopts : Closed (PartTag m) (unlines (v.deopts.map fun reason => concat [
      "<div class=\"deopt\">Deopt: ".toList, escapeMarkup reason.toList, "</div>".toList])) := by
    refine closed_unlines fun line hline => ?_
    obtain ⟨reason, -, rfl⟩ := List.mem_map.mp hline
    exact closed_deoptLine reason.toList
  have hlines := (htitle.append hcode).append hdeopts
  rw [← unlines_append, ← unlines_append] at hlines
  have hbox := closed_boxLines "recompile" (by decide) hlines
  rw [versionLines]
  simp only [boxOpening_toList, String.reduceAppend, List.append_assoc] at hbox ⊢
  exact hbox

theorem closed_versionsLines (hm : m.OffsetsNonneg) {recompiled : Bool} {handles : List Nat}
    {lines : List Text} (h : versionsLines lim m recompiled handles = .ok lines) :
    Closed (PartTag m) (unlines lines) := by
  induction handles generalizing lines with
  | nil =>
    obtain rfl := Except.ok.inj h
    exact .nil
  | cons handle more ih =>
    obtain ⟨v, -, h⟩ := bind_eq_ok_iff.mp h
    obtain ⟨code, hcode, h⟩ := bind_eq_ok_iff.mp h
    obtain ⟨below, hbelow, h⟩ := bind_eq_ok_iff.mp h
    obtain rfl := Except.ok.inj h
    rw [unlines_append]
    exact (closed_versionLines _ _ v (closed_codeWithin hm hcode)).append (ih hbelow)

/-- **A function has one anchor**, its own. -/
theorem anchors_functionLines (hm : m.OffsetsNonneg) {f : Function} {lines : List Text}
    (h : functionLines lim m f = .ok lines) : Anchors m (unlines lines) [f] := by
  obtain ⟨versions, hversions, h⟩ := bind_eq_ok_iff.mp h
  obtain rfl := Except.ok.inj h
  have hanchor : Anchors m (concat ["<a class=\"fn-name\" href=\"#".toList,
      escapeMarkup f.name.toList, "\" id=\"".toList, escapeMarkup f.name.toList, "\">".toList,
      escapeMarkup f.name.toList, ":</a>".toList]) [f] := by
    have hcolon : Closed (PartTag m) ":".toList := .of_plain (by decide)
    have h := Anchors.anchor f ((closed_escapeMarkup _ f.name.toList).append hcolon)
    simp only [concat, List.flatten_cons, List.flatten_nil]
    simp only [anchorTag, Tag.attributes, element_eq, Element.name, Attribute.text_of,
      List.flatMap_cons, List.flatMap_nil, List.append_assoc, List.append_nil,
      toList_append_toList, ← String.toList_append, String.reduceAppend] at h ⊢
    exact h
  have hopening : concat ["<div class=\"fn-item".toList,
      if f.deopted then " fn-deopt".toList else [], "\">".toList] =
      boxOpening (if f.deopted then "fn-item fn-deopt" else "fn-item").toList := by
    cases f.deopted <;> rfl
  have hbox := hanchor.nestedBoxes _ "fn-versions"
    (show (if f.deopted then "fn-item fn-deopt" else "fn-item") ∈ boxRoles by
      cases f.deopted <;> decide)
    (by decide) (.of_closed (closed_versionsLines hm hversions))
  rw [← hopening] at hbox
  simp only [boxOpening_toList, String.reduceAppend] at hbox
  exact hbox

/-- **A file has the anchors** of its functions. -/
theorem anchors_fileLines (hm : m.OffsetsNonneg) {file : SourceFile} {lines : List Text}
    (h : fileLines lim m file = .ok lines) : Anchors m (unlines lines) file.functions.values := by
  obtain ⟨functions, hfunctions, h⟩ := bind_eq_ok_iff.mp h
  obtain rfl := Except.ok.inj h
  have hbody : Anchors m (unlines functions.flatten) file.functions.values := by
    rw [← List.flatMap_singleton' file.functions.values]
    exact .flatten ((mapM_eq_ok_iff.mp hfunctions).imp fun f lines => anchors_functionLines hm)
  have hcaption : Closed (PartTag m) (concat ["<div class=\"file-name toggle-next\">".toList,
      escapeMarkup file.path.toList, "</div>".toList]) := by
    have h := closed_box (m := m) "file-name toggle-next" (by decide)
      (closed_escapeMarkup _ file.path.toList)
    simp only [concat, List.flatten_cons, List.flatten_nil]
    simp only [boxOpening_toList, String.reduceAppend, List.append_assoc, List.append_nil] at h ⊢
    exact h
  have hbox := (Anchors.of_closed hcaption).nestedBoxes "file-item" "fn-names" (by decide)
    (by decide) hbody
  simp only [boxOpening_toList, String.reduceAppend] at hbox
  exact hbox

/-! ### The head -/

/-- The tag at which the visible page begins. -/
def bodyTag : Text := "<body>".toList

/-- The lines of the head of the page. -/
def headLines (title : String) : List Text := (openingLines title).take 8

theorem not_mem_join {p : Char} {l : List String} (h : ∀ s ∈ l, p ∉ s.toList) :
    p ∉ (String.join l).toList := by
  -- the strings are joined from the left, onto what has been joined already
  have hfold : ∀ acc : String, p ∉ acc.toList → p ∉ (l.foldl (· ++ ·) acc).toList := by
    induction l with
    | nil => exact fun acc hacc => hacc
    | cons s l ih =>
      obtain ⟨hs, hl⟩ := List.forall_mem_cons.mp h
      refine fun acc hacc => ih hl (acc ++ s) ?_
      rw [String.toList_append, List.mem_append]
      exact not_or.mpr ⟨hacc, hs⟩
  exact hfold "" List.not_mem_nil

/-- What gives an element its identifier. -/
def idLead : Text := " id=\"".toList

/-- What the head is without: the tag of the body, and identifiers. -/
def bodyLeads : List Text := [bodyTag, idLead]

/-- A text that neither opens a tag nor quotes anything. -/
def Unmarked (s : Text) : Prop := '<' ∉ s ∧ '"' ∉ s

instance (s : Text) : Decidable (Unmarked s) := inferInstanceAs (Decidable ('<' ∉ s ∧ '"' ∉ s))

theorem Unmarked.append {s t : Text} (hs : Unmarked s) (ht : Unmarked t) : Unmarked (s ++ t) := by
  simp only [Unmarked, List.mem_append, not_or] at *
  exact ⟨⟨hs.1, ht.1⟩, hs.2, ht.2⟩

theorem unmarked_escapeMarkup (s : Text) : Unmarked (escapeMarkup s) := by
  refine ⟨fun hmem => ?_, fun hmem => ?_⟩
  · exact absurd (quotable_escapeMarkup s _ hmem).1 (by decide)
  · exact (quotable_escapeMarkup s _ hmem).2 rfl

theorem unmarked_join {l : List String} (h : ∀ s ∈ l, Unmarked s.toList) :
    Unmarked (String.join l).toList :=
  ⟨not_mem_join fun s hs => (h s hs).1, not_mem_join fun s hs => (h s hs).2⟩

/-- No rule of the style sheet opens a tag or quotes anything. -/
theorem unmarked_render {r : StyleRule} (hr : r ∈ styleRules) : Unmarked r.render.toList := by
  have hrules : ∀ r ∈ styleRules, Unmarked r.selector.toList ∧
      ∀ d ∈ r.declarations, Unmarked d.1.toList ∧ Unmarked d.2.toList := by
    decide +kernel
  obtain ⟨hselector, hdeclarations⟩ := hrules r hr
  simp only [StyleRule.render, String.toList_append]
  refine ((hselector.append (by decide)).append (unmarked_join fun s hs => ?_)).append (by decide)
  obtain ⟨d, hd, rfl⟩ := List.mem_map.mp hs
  obtain ⟨hname, hvalue⟩ := hdeclarations d hd
  simp only [String.toList_append]
  exact ((hname.append (by decide)).append hvalue).append (by decide)

variable {lead : Text}

/-- An unmarked text in front of a tag keeps out what the tag keeps out. -/
theorem Unmarked.keepsOut_append {s tail : Text} (hs : Unmarked s) (hlead : lead ∈ bodyLeads)
    (htail : Text.keepsOut lead ('<' :: tail)) : Text.keepsOut lead (s ++ '<' :: tail) := by
  simp only [bodyLeads, List.mem_cons, List.not_mem_nil, or_false] at hlead
  rcases hlead with rfl | rfl
  · exact Text.keepsOut_append (Text.keepsOut_of_not_mem hs.1) htail
  · have hin : ¬ idLead <:+: s := fun hin => hs.2 (hin.subset (by decide))
    rw [List.append_cons]
    exact Text.keepsOut_append (Text.keepsOut_concat (by decide) hin)
      (Text.keepsOut_cons_iff.mp htail).2

theorem keepsOut_style (hlead : lead ∈ bodyLeads) : Text.keepsOut lead style.toList := by
  have hrules : Unmarked (String.join (styleRules.map (·.render))).toList := by
    refine unmarked_join fun s hs => ?_
    obtain ⟨r, hr, rfl⟩ := List.mem_map.mp hs
    exact unmarked_render hr
  have htags : ∀ lead ∈ bodyLeads, Text.keepsOut lead "<style>".toList ∧
      Text.keepsOut lead "</style>".toList := by
    decide +kernel
  obtain ⟨hopening, hclosing⟩ := htags lead hlead
  rw [style, String.toList_append, String.toList_append, List.append_assoc]
  exact Text.keepsOut_append hopening (hrules.keepsOut_append hlead hclosing)

theorem keepsOut_script (hlead : lead ∈ bodyLeads) : Text.keepsOut lead script.toList := by
  have hparts : ∀ lead ∈ bodyLeads, ∀ part ∈ [
      "<script>", "document.addEventListener('click',function(e)\x7b",
      "var t=e.target.closest('.toggle-next');",
      "if(t&&t.nextElementSibling)\x7bt.nextElementSibling.classList.toggle('hidden');\x7d",
      "\x7d);", "</script>"], Text.keepsOut lead part.toList := by
    decide +kernel
  have hpart := hparts lead hlead
  simp only [List.forall_mem_cons] at hpart
  obtain ⟨h1, h2, h3, h4, h5, h6, -⟩ := hpart
  simp only [script, String.toList_append]
  exact Text.keepsOut_append (Text.keepsOut_append (Text.keepsOut_append (Text.keepsOut_append
    (Text.keepsOut_append h1 h2) h3) h4) h5) h6

theorem keepsOut_titleLine (hlead : lead ∈ bodyLeads) (title : Text) :
    Text.keepsOut lead
      (concat ["<title>".toList, escapeMarkup title, "</title>".toList]) := by
  have htags : ∀ lead ∈ bodyLeads, Text.keepsOut lead "<title>".toList ∧
      Text.keepsOut lead "</title>".toList := by
    decide
  obtain ⟨hopening, hclosing⟩ := htags lead hlead
  simp only [concat, List.flatten_cons, List.flatten_nil, List.append_nil]
  exact Text.keepsOut_append hopening ((unmarked_escapeMarkup title).keepsOut_append hlead hclosing)

/-- **The head has no identifiers**, nor a tag that looks like that of the body. -/
theorem keepsOut_headLines_of_mem (hlead : lead ∈ bodyLeads) (title : String) :
    Text.keepsOut lead (unlines (headLines title)) := by
  have hopening : ∀ lead ∈ bodyLeads, ∀ line ∈ ["<!doctype html>".toList,
      "<html lang=\"en\">".toList, "<head>".toList, "<meta charset=\"utf-8\">".toList],
      Text.keepsOut lead line := by
    decide +kernel
  have hclosing : ∀ lead ∈ bodyLeads, Text.keepsOut lead "</head>".toList ∧
      Text.keepsOut lead ['\n'] := by
    decide +kernel
  obtain ⟨hend, hnewline⟩ := hclosing lead hlead
  have hlines : ∀ line ∈ headLines title, Text.keepsOut lead line :=
    List.forall_mem_append.mpr ⟨hopening lead hlead,
      List.forall_mem_cons.mpr ⟨keepsOut_titleLine hlead title.toList,
        List.forall_mem_cons.mpr ⟨keepsOut_style hlead,
          List.forall_mem_cons.mpr ⟨keepsOut_script hlead, List.forall_mem_singleton.mpr hend⟩⟩⟩⟩
  exact Text.keepsOut_flatMap fun line hline => Text.keepsOut_append (hlines line hline) hnewline

/-- The head has no tag that looks like that of the body. -/
theorem keepsOut_headLines (title : String) :
    Text.keepsOut bodyTag (unlines (headLines title)) :=
  keepsOut_headLines_of_mem List.mem_cons_self title

/-! ### The page -/

theorem openingLines_eq (title : String) :
    openingLines title = headLines title ++ [bodyTag,
      concat ["<h1>".toList, escapeMarkup title.toList, "</h1>".toList]] := rfl

theorem closed_heading (title : Text) :
    Closed (PartTag m) (concat ["<h1>".toList, escapeMarkup title, "</h1>".toList]) := by
  have h := closed_part (m := m) (by decide) .heading (closed_escapeMarkup _ title)
  simp only [element_eq, List.flatMap_nil, List.nil_append] at h
  exact h

theorem closed_emptyNote : Closed (PartTag m) emptyNote := by
  have htext : element .p [.of "class" "note".toList]
      "No optimized functions found in trace.".toList = emptyNote := rfl
  rw [← htext]
  exact closed_part (by decide) .note (.of_plain (by decide))

/-- What stands in the body of a page, given the lines of its files. -/
def bodyText (m : Model) (title : String) (files : List (List Text)) : Text :=
  ['\n'] ++ (unlines [concat ["<h1>".toList, escapeMarkup title.toList, "</h1>".toList]] ++
    unlines (if m.files.size = 0 then [emptyNote] else [])) ++ unlines files.flatten

/-- **The page** is its head, an element, and the end of the document. -/
theorem page_eq_ok {files : List (List Text)}
    (hfiles : m.files.values.mapM (fileLines lim m) = .ok files) (title : String) :
    page lim m title = .ok (unlines (headLines title) ++
      (element .body [] (bodyText m title files) ++ (Tag.closing .html).markup)) := by
  refine bind_eq_ok_iff.mpr ⟨_, bind_eq_ok_iff.mpr ⟨files, hfiles, rfl⟩, congrArg Except.ok ?_⟩
  have hend : "</body></html>".toList =
      (Tag.closing .body).markup ++ (Tag.closing .html).markup := rfl
  have hbody : bodyTag = (Tag.opening .body []).markup := rfl
  rw [intercalate_append (by simp), List.intercalate_singleton, openingLines_eq,
    unlines_append, unlines_append, unlines_append, hend, element, bodyText, ← hbody]
  simp [unlines]

/-- **In the body of a page** are the anchors of all functions. -/
theorem exists_anchors_of_page (hm : m.OffsetsNonneg) {title : String} {out : Text}
    (h : page lim m title = .ok out) :
    ∃ inner, Anchors m inner m.functions ∧
      out = unlines (headLines title) ++
        (element .body [] inner ++ (Tag.closing .html).markup) := by
  obtain ⟨_, hlines, -⟩ := bind_eq_ok_iff.mp h
  obtain ⟨files, hfiles, -⟩ := bind_eq_ok_iff.mp hlines
  have hnote : Closed (PartTag m) (unlines (if m.files.size = 0 then [emptyNote] else [])) := by
    split
    · exact closed_unlines (List.forall_mem_singleton.mpr closed_emptyNote)
    · exact .nil
  have hparts : Anchors m (unlines files.flatten) m.functions :=
    .flatten ((mapM_eq_ok_iff.mp hfiles).imp fun file lines => anchors_fileLines hm)
  have hheading := closed_unlines (List.forall_mem_singleton.mpr
    (closed_heading (m := m) title.toList))
  refine ⟨bodyText m title files, ?_, Except.ok.inj (h.symm.trans (page_eq_ok hfiles title))⟩
  exact (Anchors.of_closed (closed_newline.append (hheading.append hnote))).append hparts

/-- The page from its body on is closed in an element, but for the end of the document. -/
theorem exists_closed_of_page (hm : m.OffsetsNonneg) {title : String} {out : Text}
    (h : page lim m title = .ok out) :
    ∃ inner, Closed PageTag inner ∧
      out = unlines (headLines title) ++
        (element .body [] inner ++ (Tag.closing .html).markup) := by
  obtain ⟨inner, hinner, hout⟩ := exists_anchors_of_page hm h
  exact ⟨inner, hinner.closed, hout⟩

/-- **The page is well nested** from its body on: the text from the first `<body>` on reads
as tags, so each angle bracket in it delimits one; the tags are those of the renderer, no
attribute in them holds an angle bracket or a quotation mark, and each element that is
opened is closed in the right order, the document last. -/
theorem page_wellNested (hm : m.OffsetsNonneg) {title : String} {out : Text}
    (h : page lim m title = .ok out) :
    ∃ head rest tags, Text.upTo Text.anywhere (Text.cut? bodyTag) out = some (head, rest) ∧
      readTags none (bodyTag ++ rest) = some (tags.map Tag.text) ∧
      (∀ tag ∈ tags, PageTag tag ∧ tag.IsQuoted) ∧
      openAfter [.html] tags = some [] := by
  obtain ⟨inner, hinner, rfl⟩ := exists_closed_of_page hm h
  obtain ⟨tags, htags, hread, hopen⟩ := closed_element .body hinner
  have hbody : element .body [] inner =
      bodyTag ++ (inner ++ (Tag.closing .body).markup) := by
    rw [element, List.append_assoc]
    rfl
  -- the tags of the body leave the root element open, which is closed last
  refine ⟨unlines (headLines title),
    inner ++ (Tag.closing .body).markup ++ (Tag.closing .html).markup,
    tags ++ [.closing .html], ?_, ?_, ?_, ?_⟩
  · rw [hbody, List.append_assoc]
    exact Text.upTo_cut? (keepsOut_headLines title) _
  · rw [← List.append_assoc, ← hbody, hread,
      ← List.append_nil (Tag.closing Element.html).markup,
      readTags_markup (PageTag.closing .html).isQuoted]
    simp [readTags]
  · intro tag htag
    have hpage : PageTag tag := by
      rcases List.mem_append.mp htag with htag | htag
      · exact htags tag htag
      · rw [List.mem_singleton.mp htag]
        exact .closing .html
    exact ⟨hpage, hpage.isQuoted⟩
  · rw [hopen, openAfter, if_pos rfl, openAfter]

/-- A model whose names, codes and reasons are full of markup. -/
def hostileModel : Model where
  files := Registry.empty.insert "<a>.js"
    { path := "<a>.js"
      functions := Registry.empty.insert "\"><b>" {
        name := "\"><b>", file := "<a>.js", deopted := true, versions := [0]
        refusal := "</a>" } }
  homes := Registry.empty.insert "\"><b>" "<a>.js"
  versions := #[
    { handle := 0, file := "<a>.js", name := "\"><b>", code := "</div>x".toList
      compileId := some 0, inlines := [1], deopts := ["<body>"]
      runtime := [⟨6, "\" onclick=\""⟩, ⟨0, "CallRuntime"⟩] },
    { handle := 1, file := "<a>.js", name := "g", code := "<html>".toList
      secondId := 1, owner := some 0, offset := 2 }]

theorem page_hostileModel :
    hostileModel.OffsetsNonneg ∧ ∃ out, page .usual hostileModel "<body>" = .ok out ∧
      ∃ head rest tags, Text.upTo Text.anywhere (Text.cut? bodyTag) out = some (head, rest) ∧
        readTags none (bodyTag ++ rest) = some (tags.map Tag.text) ∧
        (∀ tag ∈ tags, PageTag tag ∧ tag.IsQuoted) ∧
        openAfter [.html] tags = some [] := by
  have hm : hostileModel.OffsetsNonneg := by simp [Model.OffsetsNonneg, hostileModel]
  -- that there is a page can be told without its text
  have hshown : (page .usual hostileModel "<body>").toOption.isSome = true := by decide +kernel
  obtain ⟨out, hout⟩ := Option.isSome_iff_exists.mp hshown
  have hpage := toOption_eq_some_iff.mp hout
  exact ⟨hm, out, hpage, page_wellNested hm hpage⟩

end View

end InlineReport
