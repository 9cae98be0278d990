import InlineReport.Proofs.Model.Arena
import InlineReport.Proofs.Text.Markup
import InlineReport.Proofs.Text.Slice
import InlineReport.Proofs.View.Token
import InlineReport.View.Code

/-!
# The segments of a code

What marked code looks like, said without replacements: the code of a version is cut into
**segments** (`View.segments`), plain ones and ones that a mark covers, and each segment
is written on its own (`View.Writes`). The segments in order are the code
(`View.flatMap_source_segments`).

Which marks are shown is a matter of the marks alone, but for one thing: a mark that would
begin on an angle bracket is not shown, since the escape of the bracket comes first
(`View.Mark.isBlocked`).
-/

namespace InlineReport

/-- **Offsets count from the beginning** of the code, not from its end. -/
def Model.OffsetsNonneg (m : Model) : Prop :=
  ∀ v ∈ m.versions, 0 ≤ v.offset ∧ ∀ call ∈ v.runtime, 0 ≤ call.offset

namespace View

/-! ### Marks and segments -/

/-- What is marked in a code: an inlined copy, by what refers to it and its offset, or an
operation that was left. -/
inductive Mark
  | copy (child : Int) (offset : Int)
  | operation (call : RuntimeCall)

namespace Mark

/-- Where a mark begins. -/
def start : Mark → Int
  | copy _ offset => offset
  | operation call => call.offset

/-- Where a mark ends in a code. -/
def stop (code : Text) (mark : Mark) : Int := findEnd code mark.start

/-- The part of a code that a mark covers. -/
def site (code : Text) (mark : Mark) : Text := Text.slice mark.start (mark.stop code) code

/-- A mark that begins on an angle bracket gives way to the escape of the bracket. -/
def isBlocked (code : Text) (mark : Mark) : Bool := code[mark.start.toNat]?.any isAngle

/-- The order of marks: by their starts, and those of one start as they are given. -/
def sort (marks : List Mark) : List Mark := marks.mergeSort (·.start ≤ ·.start)

end Mark

/-- The marks of a version: its copies and then its operations, in the order of the
trace. -/
def marks (m : Model) (v : Version) : List Mark :=
  v.inlines.filterMap (fun child => (m.version child).toOption.map fun copy =>
    .copy child copy.offset) ++ v.runtime.map .operation

/-- A part of a code: plain, or covered by a mark. -/
inductive Segment
  | plain (source : Text)
  | marked (mark : Mark) (source : Text)

/-- The part of the code that a segment is. -/
def Segment.source : Segment → Text
  | plain source => source
  | marked _ source => source

/-- The segments of a code from `start` on: of the ordered marks those that do not begin
before the end of the last one, and the plain parts between them. -/
def segmentsFrom (code : Text) (start : Int) : List Mark → List Segment
  | [] => [.plain (Text.behind start code)]
  | mark :: more =>
    if mark.start < start then segmentsFrom code start more
    else
      .plain (Text.slice start mark.start code) :: .marked mark (mark.site code) ::
        segmentsFrom code (mark.stop code) more

/-- **The segments of the code of a version.** -/
def segments (m : Model) (v : Version) : List Segment :=
  segmentsFrom v.code 0 (Mark.sort ((marks m v).filter (!·.isBlocked v.code)))

theorem Mark.start_lt_stop (code : Text) (mark : Mark) : mark.start < mark.stop code :=
  lt_findEnd code mark.start

/-- The segments from an offset on are the code from there on. -/
theorem flatMap_source_segmentsFrom {code : Text} {start : Int} (h : 0 ≤ start)
    (marks : List Mark) :
    (segmentsFrom code start marks).flatMap Segment.source = Text.behind start code := by
  induction marks generalizing start with
  | nil => simp [segmentsFrom, Segment.source]
  | cons mark more ih =>
    rw [segmentsFrom]
    split
    · exact ih h
    · have hlt := mark.start_lt_stop code
      rw [List.flatMap_cons, List.flatMap_cons, ih (by omega)]
      simp only [Segment.source, Mark.site]
      rw [Text.slice_append_behind (by omega) (by omega),
        Text.slice_append_behind h (by omega)]

/-- **Nothing is lost, repeated or reordered**: the segments in order are the code. -/
theorem flatMap_source_segments (m : Model) (v : Version) :
    (segments m v).flatMap Segment.source = v.code := by
  rw [segments, flatMap_source_segmentsFrom (Int.le_refl 0), Text.behind_zero]

/-! ### How segments are written -/

/-- What is written for a segment: its text, and the markup before and behind it. -/
structure Piece where
  lead : Text
  shown : Text
  trail : Text

/-- All that is written for a segment. -/
def Piece.text (p : Piece) : Text := p.lead ++ p.shown ++ p.trail

/-- The function that the marked code of an operation is a link to. -/
def target (m : Model) (site : Text) (call : RuntimeCall) : Option Function :=
  if displayKind call.kind = callKind then m.functionByName? (String.ofList site) else none

/-- **How a segment is written**, given how the copies of a version are marked. A copy is
followed by its own marked code and an indentation; an operation is a link, if a function
has the name that is marked. -/
inductive Writes (lim : Limits) (m : Model) (code : Text) (mark : Int → Except Failure Text) :
    Segment → Piece → Prop
  | plain (source : Text) : Writes lim m code mark (.plain source) ⟨[], escapeCode source, []⟩
  | copy {child offset : Int} {source body blanks : Text} :
    mark child = .ok body → indent lim code (findEnd code offset) = .ok blanks →
    Writes lim m code mark (.marked (.copy child offset) source)
      { lead := "<span class=\"inline toggle-next\" data-title=\"Show inlined\">".toList
        shown := escapeCode source
        trail := "</span><span class=\"inline-code hidden\">".toList ++ body ++ blanks ++
          "</span>".toList }
  | operation {call : RuntimeCall} {source : Text} :
    target m source call = none →
    Writes lim m code mark (.marked (.operation call) source)
      { lead := "<span class=\"runtime ".toList ++ escapeMarkup (displayKind call.kind).toList ++
          "\" data-title=\"".toList ++ escapeMarkup (displayKind call.kind).toList ++
          "\">".toList
        shown := escapeCode source
        trail := "</span>".toList }
  | link {call : RuntimeCall} {source : Text} {f : Function} :
    target m source call = some f →
    Writes lim m code mark (.marked (.operation call) source)
      { lead := "<a class=\"runtime CallWithDescriptor\"".toList ++ refusalTitle f.refusal ++
          " href=\"#".toList ++ escapeMarkup source ++ "\">".toList
        shown := escapeMarkup source
        trail := "</a>".toList }

end View

end InlineReport
