import InlineReport.Proofs.Model.Ownership
import InlineReport.Proofs.View.Offset
import InlineReport.Proofs.View.Page

/-!
# Where the links of calls lead

A call in marked code is a link to `#` and the name of a function, and the anchor of a function
has its name as identifier. The link is made for the function that the name means in the table by
name, and shows its refusal; the anchors are those of the functions of all files. So the page has
as many elements of the name as there are files with a function of that name, and **a link leads to
one place just where one file has such a function** (`View.leads_of_page`). Where two files have
one, the link leads to the anchor that comes first, which need not be that of the function it was
made for (`View.two_anchors`).
-/

namespace InlineReport

namespace Model

variable {m : Model} {created : List (String × String)} {f : Function}

/-- The function that a name means is one of the functions, and has this name. -/
theorem Indexed.of_functionByName? (hm : Indexed created m) {name : String}
    (h : m.functionByName? name = some f) : f ∈ m.functions ∧ f.name = name := by
  obtain ⟨path, -, hfound⟩ := Option.bind_eq_some_iff.mp h
  exact ⟨mem_functions_iff.mpr ⟨path, name, hfound⟩, (hm.named hfound).2⟩

/-- **A function is the only one of its name** if there is one function of that name. -/
theorem Indexed.countP_name_eq_one_iff (hm : Indexed created m) (hf : f ∈ m.functions) :
    m.functions.countP (·.name = f.name) = 1 ↔ ∀ g ∈ m.functions, g.name = f.name → g = f := by
  have hmem : f ∈ m.functions.filter (·.name = f.name) := List.mem_filter.mpr ⟨hf, by simp⟩
  rw [List.countP_eq_length_filter]
  constructor
  · intro hone g hg hname
    have hmem' : g ∈ m.functions.filter (·.name = f.name) :=
      List.mem_filter.mpr ⟨hg, by simp [hname]⟩
    obtain ⟨only, honly⟩ := List.length_eq_one_iff.mp hone
    rw [honly, List.mem_singleton] at hmem hmem'
    rw [hmem, hmem']
  · intro honly
    -- two functions of the name would be the same one, and no function is listed twice
    have hpairwise := hm.pairwise_functions.filter (·.name = f.name)
    have hall : ∀ g ∈ m.functions.filter (·.name = f.name), g = f := by
      intro g hg
      obtain ⟨hg, hname⟩ := List.mem_filter.mp hg
      exact honly g hg (by simpa using hname)
    generalize m.functions.filter (·.name = f.name) = named at hmem hpairwise hall
    match named with
    | [] => exact absurd hmem List.not_mem_nil
    | [g] => rfl
    | g :: g' :: more =>
      rw [hall g (by simp), hall g' (by simp)] at hpairwise
      exact absurd ⟨rfl, rfl⟩ (List.rel_of_pairwise_cons hpairwise List.mem_cons_self)

end Model

namespace View

open Markup

variable {lim : Limits} {m : Model} {code ir log : Text} {title : String} {out : Text}
  {tags : List Tag}

/-! ### Anchors -/

/-- How many tags of a page have the identifier that a name gives. -/
def countId (tags : List Tag) (name : String) : Nat :=
  tags.countP fun tag => tag.value? "id" = some (escapeMarkup name.toList)

/-- **An identifier is given** as often as there are functions of its name. -/
theorem countId_eq {fs : List Function}
    (h : tags.filter (fun tag => (tag.value? "id").isSome) = fs.map (anchorTag ·.name.toList))
    (name : String) : countId tags name = fs.countP (·.name = name) := by
  have hcount : countId tags name =
      (tags.filter fun tag => (tag.value? "id").isSome).countP fun tag =>
        tag.value? "id" = some (escapeMarkup name.toList) := by
    rw [countId, List.countP_filter]
    refine List.countP_congr fun tag _ => ?_
    simp only [decide_eq_true_eq, Bool.and_eq_true]
    constructor
    · intro hid
      exact ⟨hid, Option.isSome_of_eq_some hid⟩
    · exact And.left
  rw [hcount, h, List.countP_map]
  refine List.countP_congr fun f _ => ?_
  simp only [Function.comp_apply, decide_eq_true_eq, value?_id_anchorTag, Option.some.injEq]
  constructor
  · intro hescaped
    exact String.toList_inj.mp (escapeMarkup_injective hescaped)
  · rintro rfl
    rfl

/-! ### The body -/

/-- The text from the body on. -/
theorem element_body_append (inner : Text) :
    element .body [] inner ++ (Tag.closing .html).markup =
      bodyTag ++ (inner ++ (Tag.closing .body).markup ++ (Tag.closing .html).markup) := by
  rw [element, List.append_assoc, List.append_assoc, List.append_assoc]
  rfl

/-- The texts of the tags of a page from its body on, given its model. -/
def bodyTexts (lim : Limits) (m : Model) (title : String) : Option (List Text) := do
  let files ← (m.files.values.mapM (fileLines lim m)).toOption
  readTags none (element .body [] (bodyText m title files) ++ (Tag.closing .html).markup)

/-- The tags of a page are read off its model. -/
theorem exists_of_bodyTexts {texts : List Text} (h : bodyTexts lim m title = some texts) :
    ∃ out head rest, page lim m title = .ok out ∧
      Text.upTo Text.anywhere (Text.cut? bodyTag) out = some (head, rest) ∧
      readTags none (bodyTag ++ rest) = some texts := by
  obtain ⟨files, hfiles, hread⟩ := Option.bind_eq_some_iff.mp h
  refine ⟨_, unlines (headLines title), bodyText m title files ++ (Tag.closing .body).markup ++
    (Tag.closing .html).markup, page_eq_ok (toOption_eq_some_iff.mp hfiles) title, ?_, ?_⟩
  · rw [element_body_append]
    exact Text.upTo_cut? (keepsOut_headLines title) _
  · rw [← element_body_append]
    exact hread

/-! ### Links -/

/-- A tag of a link of a call. -/
def IsCallLink (tag : Tag) : Prop :=
  ∃ attributes, tag = .opening .a attributes ∧
    tag.value? "class" = some "runtime CallWithDescriptor".toList

theorem not_isCallLink_anchorTag (name : Text) : ¬ IsCallLink (anchorTag name) := by
  rintro ⟨attributes, -, hclass⟩
  have hname : (anchorTag name).value? "class" = some "fn-name".toList := rfl
  rw [hname] at hclass
  exact absurd (Option.some.inj hclass) (by decide)

/-- A tag of a version that is the link of a call is made for a function that its name means. -/
theorem PartTag.exists_of_isCallLink {tag : Tag} (h : PartTag m tag) (hlink : IsCallLink tag) :
    ∃ site f, m.functionByName? (String.ofList site) = some f ∧ tag = linkTag site f.refusal := by
  cases h with
  | link hf => exact ⟨_, _, hf, rfl⟩
  | other _ hother =>
    obtain ⟨attributes, htag, -⟩ := hlink
    exact absurd htag (hother attributes)

/-- **What the link of a call leads to**, among the tags of a page: it is made for a function that
its name means, it shows the refusal of this function, and it leads to as many places as there are
functions of the name. -/
structure Leads (m : Model) (tags : List Tag) (f : Function) (tag : Tag) : Prop where
  named : m.functionByName? f.name = some f
  tag_eq : tag = linkTag f.name.toList f.refusal
  count_eq : countId tags f.name = m.functions.countP (·.name = f.name)
  /-- The link leads to one place if the function is the only one of its name, and only then. -/
  unique_iff : countId tags f.name = 1 ↔ ∀ g ∈ m.functions, g.name = f.name → g = f

/-- **The tags of a page** from its body on are those of versions and the anchors of all functions,
and the head before them has no identifiers. -/
theorem exists_tags_of_page (hm : m.OffsetsNonneg) (hpage : page lim m title = .ok out) :
    ∃ (head rest : Text) (tags : List Tag),
      Text.upTo Text.anywhere (Text.cut? bodyTag) out = some (head, rest) ∧
      ¬ idLead <:+: head ∧
      readTags none (bodyTag ++ rest) = some (tags.map Tag.text) ∧
      (∀ tag ∈ tags, PartTag m tag ∨ ∃ name, tag = anchorTag name) ∧
      tags.filter (fun tag => (tag.value? "id").isSome) =
        m.functions.map (anchorTag ·.name.toList) := by
  obtain ⟨inner, hinner, rfl⟩ := exists_anchors_of_page hm hpage
  obtain ⟨tags, ⟨hread, -⟩, htags, hfilter⟩ := hinner.element (by decide) .body
  refine ⟨unlines (headLines title),
    inner ++ (Tag.closing .body).markup ++ (Tag.closing .html).markup,
    tags ++ [.closing .html], ?_, ?_, ?_, ?_, ?_⟩
  · rw [element_body_append]
    exact Text.upTo_cut? (keepsOut_headLines title) _
  · exact Text.not_infix_of_keepsOut (by decide)
      (keepsOut_headLines_of_mem (by simp [bodyLeads]) title)
  · rw [← element_body_append, hread, ← List.append_nil (Tag.closing Element.html).markup,
      readTags_markup (PageTag.closing .html).isQuoted]
    simp [readTags]
  · exact List.forall_mem_append.mpr
      ⟨htags, List.forall_mem_singleton.mpr (Or.inl (.closing .html))⟩
  · rw [List.filter_append, hfilter]
    exact List.append_nil _

/-- **Links and anchors.** In the page of a model of a trace, the elements that have identifiers
are the anchors of all functions, one for each, in the order of files. Each link of a call is made
for the function that its name means in the table by name, and leads to the anchors of all functions
of this name: to one place just where the function is the only one. -/
theorem leads_of_page (h : buildModel code ir log = .ok m) (hpage : page lim m title = .ok out) :
    ∃ head rest tags, Text.upTo Text.anywhere (Text.cut? bodyTag) out = some (head, rest) ∧
      ¬ idLead <:+: head ∧
      readTags none (bodyTag ++ rest) = some (tags.map Tag.text) ∧
      (∀ tag ∈ tags, PageTag tag) ∧
      tags.filter (fun tag => (tag.value? "id").isSome) =
        m.functions.map (anchorTag ·.name.toList) ∧
      ∀ tag ∈ tags, IsCallLink tag → ∃ f ∈ m.functions, Leads m tags f tag := by
  obtain ⟨created, hindexed⟩ := (Model.finished_of_buildModel h).indexed
  obtain ⟨head, rest, tags, hbody, hhead, hread, htags, hfilter⟩ :=
    exists_tags_of_page (Model.offsetsNonneg_of_buildModel h) hpage
  refine ⟨head, rest, tags, hbody, hhead, hread, fun tag htag => ?_, hfilter, ?_⟩
  · rcases htags tag htag with hpart | ⟨name, rfl⟩
    · exact hpart.pageTag
    · exact .anchor name
  · intro tag htag hlink
    rcases htags tag htag with hpart | ⟨name, rfl⟩
    · obtain ⟨site, f, hf, rfl⟩ := hpart.exists_of_isCallLink hlink
      obtain ⟨hmem, hname⟩ := hindexed.of_functionByName? hf
      have hcount := countId_eq hfilter f.name
      refine ⟨f, hmem, hname ▸ hf, ?_, hcount, ?_⟩
      · rw [hname, String.toList_ofList]
      · rw [hcount]
        exact hindexed.countP_name_eq_one_iff hmem
    · exact absurd hlink (not_isCallLink_anchorTag name)

/-- An IR stream with a call at the beginning of the code of the function `f` in `a.js`. -/
def firstCall : Text :=
  ("begin_compilation\n  name \"a.js:f\"\n  method \"f:0\"\n" ++
    "    0 0 v1 CallWithDescriptor x changes[*] pos:0 \n").toList

/-- A source stream with a function whose name is written differently in markup, and with a call
of it. -/
def escapedNameSources : Text :=
  ("--- FUNCTION SOURCE (a.js:f) id\x7b0,0\x7d ---\n&g()\n--- END ---\n" ++
    "--- FUNCTION SOURCE (a.js:&g) id\x7b1,0\x7d ---\ny\n--- END ---\n").toList

/-- **One name, one anchor**, though the name is escaped in the link and in the anchor. -/
theorem leads_of_page_escapedName :
    ∃ m out, buildModel escapedNameSources firstCall
        "Did not inline &g called from f (too big).\n".toList = .ok m ∧
      page .usual m defaultTitle = .ok out ∧
      m.functions.map (·.name) = ["f", "&g"] ∧
      ∃ head rest tags, Text.upTo Text.anywhere (Text.cut? bodyTag) out = some (head, rest) ∧
        ¬ idLead <:+: head ∧
        readTags none (bodyTag ++ rest) = some (tags.map Tag.text) ∧
        (linkTag "&g".toList "too big").text ∈ tags.map Tag.text ∧
        (∀ tag ∈ tags, PageTag tag) ∧
        tags.filter (fun tag => (tag.value? "id").isSome) =
          m.functions.map (anchorTag ·.name.toList) ∧
        ∀ tag ∈ tags, IsCallLink tag → ∃ f ∈ m.functions, Leads m tags f tag := by
  have hshown : ((buildModel escapedNameSources firstCall
      "Did not inline &g called from f (too big).\n".toList).toOption.bind fun m =>
        (bodyTexts .usual m defaultTitle).map fun texts =>
          (m.functions.map (·.name), decide ((linkTag "&g".toList "too big").text ∈ texts))) =
      some (["f", "&g"], true) := by
    decide +kernel
  obtain ⟨m, hm, h⟩ := Option.bind_eq_some_iff.mp hshown
  obtain ⟨texts, htexts, h⟩ := Option.map_eq_some_iff.mp h
  obtain ⟨hnames, hlink⟩ := Prod.mk.inj h
  have hm := toOption_eq_some_iff.mp hm
  obtain ⟨out, head, rest, hpage, hbody, hread⟩ := exists_of_bodyTexts htexts
  obtain ⟨head', rest', tags, hbody', hhead, hread', htags⟩ := leads_of_page hm hpage
  -- the body is read in one way only
  obtain ⟨rfl, rfl⟩ := Prod.mk.inj (Option.some.inj (hbody.symm.trans hbody'))
  obtain rfl := Option.some.inj (hread.symm.trans hread')
  exact ⟨m, out, hm, hpage, hnames, head, rest, tags, hbody, hhead, hread',
    of_decide_eq_true hlink, htags⟩

/-- A source stream with a function `f` in each of two files; the first one calls an `f`. -/
def sharedCallSources : Text :=
  ("--- FUNCTION SOURCE (a.js:f) id\x7b0,0\x7d ---\nf()\n--- END ---\n" ++
    "--- FUNCTION SOURCE (b.js:f) id\x7b1,0\x7d ---\ny\n--- END ---\n").toList

/-- **One name, two anchors**: the link of the call shows the refusal of the `f` in `b.js`, which
the name means, and two elements have the identifier that it leads to; the first one is the anchor
of the `f` in `a.js`. -/
theorem two_anchors :
    ∃ m out head rest texts f, buildModel sharedCallSources firstCall
        "Did not inline f called from f (too big).\n".toList = .ok m ∧
      page .usual m defaultTitle = .ok out ∧
      Text.upTo Text.anywhere (Text.cut? bodyTag) out = some (head, rest) ∧
      readTags none (bodyTag ++ rest) = some texts ∧
      m.functions.map (fun g => (g.file, g.name)) = [("a.js", "f"), ("b.js", "f")] ∧
      m.functionByName? "f" = some f ∧ f.file = "b.js" ∧
      (linkTag "f".toList f.refusal).text ∈ texts ∧
      texts.count (anchorTag "f".toList).text = 2 := by
  have hshown : ((buildModel sharedCallSources firstCall
      "Did not inline f called from f (too big).\n".toList).toOption.bind fun m =>
        (m.functionByName? "f").bind fun f => (bodyTexts .usual m defaultTitle).map fun texts =>
          (m.functions.map (fun g => (g.file, g.name)), f.file,
            decide ((linkTag "f".toList f.refusal).text ∈ texts),
            texts.count (anchorTag "f".toList).text)) =
      some ([("a.js", "f"), ("b.js", "f")], "b.js", true, 2) := by
    decide +kernel
  obtain ⟨m, hm, h⟩ := Option.bind_eq_some_iff.mp hshown
  obtain ⟨f, hf, h⟩ := Option.bind_eq_some_iff.mp h
  obtain ⟨texts, htexts, h⟩ := Option.map_eq_some_iff.mp h
  obtain ⟨hfunctions, h⟩ := Prod.mk.inj h
  obtain ⟨hfile, h⟩ := Prod.mk.inj h
  obtain ⟨hlink, hcount⟩ := Prod.mk.inj h
  obtain ⟨out, head, rest, hpage, hbody, hread⟩ := exists_of_bodyTexts htexts
  exact ⟨m, out, head, rest, texts, f, toOption_eq_some_iff.mp hm, hpage, hbody, hread, hfunctions,
    hf, hfile, of_decide_eq_true hlink, hcount⟩

end View

end InlineReport
