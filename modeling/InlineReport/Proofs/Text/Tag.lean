import InlineReport.Proofs.Text.Markup

/-!
# Tags and how they nest

A text is read as markup without any knowledge of what wrote it: every angle bracket has
to open or close a tag, and what stands between the two is the text of the tag
(`Markup.readTags`). The tags are then played on a stack of the elements that are open
(`Markup.openAfter`).

What is written piece by piece is **closed** (`Markup.Closed`) if it reads as tags on its
own, wherever it stands, and leaves the stack as it was. Text without angle brackets is
closed, closed texts may follow one another, and a closed text may be put into an element;
so whatever is made in these three ways is well nested. Two closed texts are read one after
the other without regard to where one ends, because a closed text never stops inside a tag.
-/

namespace InlineReport

namespace Markup

/-! ### Tags -/

/-- The elements of a page. -/
inductive Element
  | html | body | h1 | p | div | span | a
deriving DecidableEq, Repr

/-- The name of an element. -/
def Element.name : Element → String
  | html => "html"
  | body => "body"
  | h1 => "h1"
  | p => "p"
  | div => "div"
  | span => "span"
  | a => "a"

/-- An attribute of a tag; it may have no value. -/
structure Attribute where
  name : Text
  value : Option Text

/-- An attribute with a value. -/
def Attribute.of (name : String) (value : Text) : Attribute := ⟨name.toList, some value⟩

/-- An attribute without a value. -/
def Attribute.flag (name : String) : Attribute := ⟨name.toList, none⟩

/-- The text of an attribute, with the blank before it and its value in quotation marks. -/
def Attribute.text (a : Attribute) : Text :=
  ' ' :: a.name ++
    match a.value with
    | none => []
    | some value => "=\"".toList ++ value ++ "\"".toList

theorem Attribute.text_of (name : String) (value : Text) :
    (Attribute.of name value).text =
      " ".toList ++ (name.toList ++ ("=\"".toList ++ (value ++ "\"".toList))) := by
  simp [Attribute.of, Attribute.text]

theorem Attribute.text_flag (name : String) :
    (Attribute.flag name).text = " ".toList ++ name.toList := by
  simp [Attribute.flag, Attribute.text]

/-- A tag that opens or closes an element. -/
inductive Tag
  | opening (element : Element) (attributes : List Attribute)
  | closing (element : Element)

namespace Tag

/-- The attributes of a tag. -/
def attributes : Tag → List Attribute
  | opening _ attributes => attributes
  | closing _ => []

/-- The value that a tag gives an attribute: if there are several of one name, the first one
counts. -/
def value? (tag : Tag) (name : String) : Option Text :=
  (tag.attributes.find? (·.name = name.toList)).bind (·.value)

/-- What stands between the angle brackets of a tag. -/
def text : Tag → Text
  | opening element attributes => element.name.toList ++ attributes.flatMap Attribute.text
  | closing element => '/' :: element.name.toList

/-- A tag with its angle brackets. -/
def markup (tag : Tag) : Text := '<' :: tag.text ++ ['>']

/-- **A tag that is kept together by its quotation marks**: no attribute has an angle
bracket or a quotation mark in its name or its value. -/
def IsQuoted (tag : Tag) : Prop :=
  ∀ a ∈ tag.attributes, Quotable a.name ∧ ∀ value ∈ a.value, Quotable value

end Tag

theorem Element.plain_name (e : Element) : Plain e.name.toList := by
  cases e <;> decide

theorem Attribute.plain_text {a : Attribute} (hname : Quotable a.name)
    (hvalue : ∀ value ∈ a.value, Quotable value) : Plain a.text := by
  have hlead : Plain (' ' :: a.name) := List.forall_mem_cons.mpr ⟨rfl, hname.plain⟩
  refine hlead.append ?_
  cases hv : a.value with
  | none => exact List.forall_mem_nil _
  | some value =>
    have hopening : Plain "=\"".toList := by decide
    exact (hopening.append (hvalue value hv).plain).append (by decide)

namespace Tag.IsQuoted

variable {e : Element} {attributes : List Attribute} {name : String} {value : Text} {tag : Tag}

theorem nil (e : Element) : (Tag.opening e []).IsQuoted := List.forall_mem_nil _

theorem closing (e : Element) : (Tag.closing e).IsQuoted := List.forall_mem_nil _

/-- A quotable value may be put into a tag. -/
theorem cons (hname : Quotable name.toList) (hvalue : Quotable value)
    (h : (Tag.opening e attributes).IsQuoted) :
    (Tag.opening e (.of name value :: attributes)).IsQuoted := by
  refine List.forall_mem_cons.mpr ⟨⟨hname, ?_⟩, h⟩
  rintro v hv
  exact Option.some.inj hv ▸ hvalue

theorem flag (hname : Quotable name.toList) (h : (Tag.opening e attributes).IsQuoted) :
    (Tag.opening e (.flag name :: attributes)).IsQuoted := by
  refine List.forall_mem_cons.mpr ⟨⟨hname, ?_⟩, h⟩
  rintro v hv
  exact absurd hv (Option.not_mem_none v)

theorem plain_text (h : tag.IsQuoted) : Plain tag.text := by
  cases tag with
  | opening e attributes =>
    refine e.plain_name.append fun c hc => ?_
    obtain ⟨a, ha, hc⟩ := List.mem_flatMap.mp hc
    exact Attribute.plain_text (h a ha).1 (h a ha).2 c hc
  | closing e => exact List.forall_mem_cons.mpr ⟨rfl, e.plain_name⟩

end Tag.IsQuoted

/-! ### Reading -/

/-- The texts of the tags of a text, if each angle bracket in it opens or closes a tag;
`tag` is what has been read of a tag that is not closed yet. -/
def readTags : (tag : Option Text) → Text → Option (List Text)
  | none, [] => some []
  | some _, [] => none
  | none, c :: s =>
    if c = '<' then readTags (some []) s else if c = '>' then none else readTags none s
  | some tag, c :: s =>
    if c = '>' then (readTags none s).map (tag :: ·)
    else if c = '<' then none
    else readTags (some (tag ++ [c])) s

theorem readTags_append {s rest : Text} (h : Plain s) :
    readTags none (s ++ rest) = readTags none rest := by
  induction s with
  | nil => rfl
  | cons c s ih =>
    obtain ⟨hc, hs⟩ := List.forall_mem_cons.mp h
    simp only [isAngle, decide_eq_false_iff_not, not_or] at hc
    rw [List.cons_append, readTags, if_neg hc.1, if_neg hc.2, ih hs]

theorem readTags_some_append {s rest tag : Text} (h : Plain s) :
    readTags (some tag) (s ++ '>' :: rest) = (readTags none rest).map ((tag ++ s) :: ·) := by
  induction s generalizing tag with
  | nil => rw [List.nil_append, readTags, if_pos rfl, List.append_nil]
  | cons c s ih =>
    obtain ⟨hc, hs⟩ := List.forall_mem_cons.mp h
    simp only [isAngle, decide_eq_false_iff_not, not_or] at hc
    rw [List.cons_append, readTags, if_neg hc.2, if_neg hc.1, ih hs, List.append_assoc]
    rfl

/-- **A tag is read as what it is.** -/
theorem readTags_markup {tag : Tag} (h : tag.IsQuoted) (rest : Text) :
    readTags none (tag.markup ++ rest) = (readTags none rest).map (tag.text :: ·) := by
  rw [Tag.markup, List.cons_append, List.cons_append, List.append_assoc, readTags, if_pos rfl]
  exact readTags_some_append h.plain_text

/-! ### Nesting -/

/-- The elements that are open after some tags, the innermost first, if every tag that
closes an element closes the innermost one. -/
def openAfter : List Element → List Tag → Option (List Element)
  | stack, [] => some stack
  | stack, .opening e _ :: tags => openAfter (e :: stack) tags
  | [], .closing _ :: _ => none
  | e' :: stack, .closing e :: tags => if e' = e then openAfter stack tags else none

/-! ### Closed texts -/

/-- **What a text is read as**, wherever it stands: tags that leave open what was open before
them. -/
def ReadsAs (s : Text) (tags : List Tag) : Prop :=
  (∀ rest, readTags none (s ++ rest) = (readTags none rest).map (tags.map Tag.text ++ ·)) ∧
    ∀ stack more, openAfter stack (tags ++ more) = openAfter stack more

/-- **A closed text**: wherever it stands, it is read as some tags, each of them one of the
tags `P`, and they leave open what was open before them. -/
def Closed (P : Tag → Prop) (s : Text) : Prop :=
  ∃ tags : List Tag, (∀ tag ∈ tags, P tag) ∧
    (∀ rest, readTags none (s ++ rest) = (readTags none rest).map (tags.map Tag.text ++ ·)) ∧
    ∀ stack more, openAfter stack (tags ++ more) = openAfter stack more

/-- A text inside an element. -/
def element (e : Element) (attributes : List Attribute) (inner : Text) : Text :=
  (Tag.opening e attributes).markup ++ inner ++ (Tag.closing e).markup

theorem element_eq (e : Element) (attributes : List Attribute) (inner : Text) :
    element e attributes inner =
      "<".toList ++ (e.name.toList ++ (attributes.flatMap Attribute.text ++ (">".toList ++
        (inner ++ ("</".toList ++ (e.name.toList ++ ">".toList)))))) := by
  simp [element, Tag.markup, Tag.text]

/-- Literals in a row are one literal. -/
theorem toList_append_toList (a b : String) (s : Text) :
    a.toList ++ (b.toList ++ s) = (a ++ b).toList ++ s := by
  rw [String.toList_append, List.append_assoc]

namespace ReadsAs

variable {s t : Text} {tags tags' : List Tag}

theorem of_plain (h : Plain s) : ReadsAs s [] := by
  refine ⟨fun rest => ?_, fun stack more => rfl⟩
  rw [readTags_append h]
  simp

theorem append (hs : ReadsAs s tags) (ht : ReadsAs t tags') : ReadsAs (s ++ t) (tags ++ tags') := by
  obtain ⟨hread, hopen⟩ := hs
  obtain ⟨hread', hopen'⟩ := ht
  refine ⟨fun rest => ?_, fun stack more => ?_⟩
  -- the second text is what stands behind the first one
  · rw [List.append_assoc, hread, hread', Option.map_map, List.map_append]
    simp only [Function.comp_def, List.append_assoc]
  · rw [List.append_assoc, hopen, hopen']

theorem element {e : Element} {attributes : List Attribute}
    (hopening : (Tag.opening e attributes).IsQuoted) (h : ReadsAs s tags) :
    ReadsAs (Markup.element e attributes s) (.opening e attributes :: tags ++ [.closing e]) := by
  obtain ⟨hread, hopen⟩ := h
  refine ⟨fun rest => ?_, fun stack more => ?_⟩
  · rw [Markup.element, List.append_assoc, List.append_assoc,
      readTags_markup hopening, hread, readTags_markup (.closing e)]
    simp [Function.comp_def]
  · rw [List.cons_append, List.cons_append, List.append_assoc, openAfter, hopen,
      List.singleton_append, openAfter, if_pos rfl]

end ReadsAs

namespace Closed

variable {P : Tag → Prop} {s t : Text}

theorem of_plain (h : Plain s) : Closed P s := ⟨[], by simp, ReadsAs.of_plain h⟩

theorem nil : Closed P [] := of_plain (List.forall_mem_nil _)

theorem append (hs : Closed P s) (ht : Closed P t) : Closed P (s ++ t) := by
  obtain ⟨tags, hP, hreads⟩ := hs
  obtain ⟨tags', hP', hreads'⟩ := ht
  exact ⟨tags ++ tags', List.forall_mem_append.mpr ⟨hP, hP'⟩, ReadsAs.append hreads hreads'⟩

theorem flatMap {α : Type} {l : List α} {f : α → Text} (h : ∀ a ∈ l, Closed P (f a)) :
    Closed P (l.flatMap f) := by
  induction l with
  | nil => exact nil
  | cons a l ih =>
    obtain ⟨ha, hl⟩ := List.forall_mem_cons.mp h
    rw [List.flatMap_cons]
    exact ha.append (ih hl)

/-- **A closed text in an element is closed.** -/
theorem element {e : Element} {attributes : List Attribute} (hP : ∀ tag, P tag → tag.IsQuoted)
    (hopening : P (.opening e attributes)) (hclosing : P (.closing e)) (h : Closed P s) :
    Closed P (Markup.element e attributes s) := by
  obtain ⟨tags, hs, hreads⟩ := h
  refine ⟨_, ?_, ReadsAs.element (hP _ hopening) hreads⟩
  intro tag htag
  rcases List.mem_append.mp htag with htag | htag
  · rcases List.mem_cons.mp htag with rfl | htag
    · exact hopening
    · exact hs tag htag
  · rw [List.mem_singleton.mp htag]
    exact hclosing

end Closed

end Markup

end InlineReport
