import InlineReport.Proofs.Settings.Load

/-!
# Reading a trace in a world

A trace is three files of a tree. What their texts are, and which model they have, depends on the
tree alone (`Tree.textsAt`, `Tree.modelAt`); a run that reads a trace has this as its result, and
changes nothing but the log (`Request.runIn_readModel`).
-/

namespace InlineReport

namespace Tree

/-- The text of a stream of a trace, as it is in a tree. -/
def streamAt (t : Tree) (folder : Path) (file : WideText) : Except Failure Text :=
  (t.ask (folder.join (.ofText file)) (·.read (folder.join (.ofText file)))).map fun bytes =>
    Text.unifyNewlines (Utf8.decodeLossy bytes)

/-- The streams of a trace, as they are in a tree. -/
def textsAt (t : Tree) (folder : Path) (s : Settings) : Except Failure TraceTexts := do
  return {
    code := ← t.streamAt folder s.codeFile
    ir := ← t.streamAt folder s.irFile
    log := ← t.streamAt folder s.logFile }

/-- The model of the trace in a tree. -/
def modelAt (t : Tree) (folder : Path) (s : Settings) : Except Failure Model := do
  let texts ← t.textsAt folder s
  buildModel texts.code texts.ir texts.log

theorem textsAt_ne_trace (t : Tree) (folder : Path) (s : Settings) (fault : TraceError) :
    t.textsAt folder s ≠ .error (.trace fault) := by
  have hstream (file : WideText) : t.streamAt folder file ≠ .error (.trace fault) := fun h =>
    t.ask_ne_trace _ _ fault (map_eq_error_iff.mp h)
  intro h
  obtain h | ⟨_, -, h⟩ := bind_eq_error_iff.mp h
  · exact hstream _ h
  obtain h | ⟨_, -, h⟩ := bind_eq_error_iff.mp h
  · exact hstream _ h
  obtain h | ⟨_, -, ⟨⟩⟩ := bind_eq_error_iff.mp h
  exact hstream _ h

end Tree

namespace Request

variable {w : World} {folder : Path} {s : Settings}

theorem runIn_readStream (folder : Path) (file : WideText) :
    (readStream folder file : Session Text).runIn w = (w.tree.streamAt folder file, w) := by
  unfold readStream Tree.streamAt
  rw [Session.runIn_bind, Session.runIn_readBytes]
  cases w.tree.ask (folder.join (.ofText file)) (·.read (folder.join (.ofText file))) <;> rfl

theorem runIn_readTexts (folder : Path) (s : Settings) :
    (readTexts folder s : Session TraceTexts).runIn w = (w.tree.textsAt folder s, w) := by
  unfold readTexts Tree.textsAt
  rw [Session.runIn_bind, runIn_readStream]
  cases w.tree.streamAt folder s.codeFile with
  | error e => rfl
  | ok code =>
    simp only
    rw [Session.runIn_bind, runIn_readStream]
    cases w.tree.streamAt folder s.irFile with
    | error e => rfl
    | ok ir =>
      simp only
      rw [Session.runIn_bind, runIn_readStream]
      cases w.tree.streamAt folder s.logFile <;> rfl

theorem runIn_orThrow {α : Type} (x : Except Failure α) :
    (orThrow x : Session α).runIn w = (x, w) := by
  cases x <;> rfl

/-- **The model of a trace** comes from the tree alone; reading it only fills the log. -/
theorem runIn_readModel (folder : Path) (s : Settings) (w : World) :
    ∃ lines, (readModel folder s : Session Model).runIn w =
      (w.tree.modelAt folder s, { w with log := w.log ++ lines }) := by
  unfold readModel Tree.modelAt
  rw [Session.runIn_bind, runIn_readTexts]
  cases w.tree.textsAt folder s with
  | error e => exact ⟨[], by simp [bind, Except.bind]⟩
  | ok texts =>
    refine ⟨(Model.buildNoted texts.code texts.ir texts.log).1.map fun note =>
      { level := .debug, source := .model, message := wide note.message }, ?_⟩
    simp only
    rw [Session.runIn_bind_of_ok (Session.runIn_forIn_log _ _)]
    change (orThrow (buildModel texts.code texts.ir texts.log) : Session Model).runIn _ = _
    rw [runIn_orThrow]
    rfl

end Request

end InlineReport
