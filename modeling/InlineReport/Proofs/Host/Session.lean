import InlineReport.Host.Tree
import Mathlib.Order.Defs.Unbundled

/-!
# Runs in a world

What a run makes of a world: one equation for each way in which runs are put together, and
one for each thing that a run can ask of its host. With them a run is worked out from the
outside in, and nothing needs to know what a run is made of.

**Looking changes nothing.** What is asked of files is answered from the tree alone
(`Tree.ask`), and the world stays as it is.

**What a run leaves** is told by a relation between the worlds before and after it; one that is
reflexive and transitive holds of a run if it holds of its parts (`Session.Within`). In the same
way it is told part by part that a run does not find fault with a trace (`Session.Faultless`).
-/

namespace InlineReport

namespace Tree

variable {α : Type}

/-- What is answered to a question about a tree at a path. -/
def ask (t : Tree) (p : Path) (f : Tree → Except HostFault α) : Except Failure α :=
  match p.flaw? with
  | some flaw => .error (.overrun flaw)
  | none => (f t).mapError fun fault => .host { fault, path := p.text }

theorem eq_ok_of_ask {t : Tree} {p : Path} {f : Tree → Except HostFault α} {a : α}
    (h : t.ask p f = .ok a) : f t = .ok a := by
  unfold ask at h
  split at h
  · cases h
  · cases hf : f t with
    | error fault =>
      rw [hf] at h
      cases h
    | ok b =>
      rw [hf] at h
      cases h
      rfl

theorem ask_ne_trace (t : Tree) (p : Path) (f : Tree → Except HostFault α) (e : TraceError) :
    t.ask p f ≠ .error (.trace e) := by
  unfold ask
  split
  · simp
  · cases f t with
    | error fault => exact fun h => nomatch h
    | ok a => exact fun h => nomatch h

/-- The kind of what is at a path. -/
def kindAt? (t : Tree) (p : Path) : Except Failure (Option EntryKind) :=
  if p.flaw?.isSome then .ok none
  else (t.ask p (·.find? p)).map fun found => found.map (·.kind)

end Tree

namespace Session

variable {α β : Type} {w : World}

/-! ### Putting runs together -/

@[simp] theorem runIn_pure (a : α) : (pure a : Session α).runIn w = (.ok a, w) := rfl

@[simp] theorem runIn_throw (e : Failure) : (throw e : Session α).runIn w = (.error e, w) := rfl

theorem runIn_bind (s : Session α) (f : α → Session β) :
    (s >>= f).runIn w = match s.runIn w with
      | (.ok a, w') => (f a).runIn w'
      | (.error e, w') => (.error e, w') := by
  unfold runIn ExceptT.run StateT.run
  simp only [bind, ExceptT.bind, ExceptT.mk, StateT.bind, ExceptT.bindCont]
  cases s w with
  | mk result next => cases result <;> rfl

theorem runIn_tryCatch (s : Session α) (f : Failure → Session α) :
    (tryCatchThe Failure s f).runIn w = match s.runIn w with
      | (.ok a, w') => (.ok a, w')
      | (.error e, w') => (f e).runIn w' := by
  unfold runIn ExceptT.run StateT.run
  simp only [tryCatchThe, MonadExceptOf.tryCatch, ExceptT.tryCatch, ExceptT.mk, bind, StateT.bind]
  cases s w with
  | mk result next => cases result <;> rfl

theorem runIn_bind_of_ok {s : Session α} {f : α → Session β} {a : α} {w' : World}
    (h : s.runIn w = (.ok a, w')) : (s >>= f).runIn w = (f a).runIn w' := by
  rw [runIn_bind, h]

theorem runIn_bind_of_error {s : Session α} {f : α → Session β} {e : Failure} {w' : World}
    (h : s.runIn w = (.error e, w')) : (s >>= f).runIn w = (.error e, w') := by
  rw [runIn_bind, h]

/-- A run and another one after it have a result where both have one. -/
theorem runIn_bind_eq_ok_iff {s : Session α} {f : α → Session β} {b : β} {w' : World} :
    (s >>= f).runIn w = (.ok b, w') ↔
      ∃ a w'', s.runIn w = (.ok a, w'') ∧ (f a).runIn w'' = (.ok b, w') := by
  rw [runIn_bind]
  rcases s.runIn w with ⟨e | a, w''⟩
  · simp
  · constructor
    · intro h
      exact ⟨a, w'', rfl, h⟩
    · rintro ⟨_, _, hs, h⟩
      cases hs
      exact h

/-- A result that is computed is that of a run. -/
theorem exists_runIn_eq {s : Session α} {a : α} (h : (s.runIn w).1.toOption = some a) :
    ∃ w', s.runIn w = (.ok a, w') := by
  rcases hrun : s.runIn w with ⟨e | b, w'⟩
  · rw [hrun] at h
    cases h
  · rw [hrun] at h
    cases h
    exact ⟨w', rfl⟩

/-- Looking at one thing after another. -/
theorem runIn_mapM {f : α → Session β} {g : α → Except Failure β} {l : List α}
    (h : ∀ a ∈ l, (f a).runIn w = (g a, w)) : (l.mapM f).runIn w = (l.mapM g, w) := by
  induction l with
  | nil => rfl
  | cons a l ih =>
    obtain ⟨hhead, htail⟩ := List.forall_mem_cons.mp h
    rw [List.mapM_cons, List.mapM_cons, runIn_bind, hhead]
    cases g a with
    | error e => rfl
    | ok b =>
      change (l.mapM f >>= fun bs => pure (b :: bs) : Session (List β)).runIn w = _
      rw [runIn_bind, ih htail]
      change _ = (l.mapM g >>= fun bs => pure (b :: bs), w)
      cases l.mapM g <;> rfl

/-! ### Asking the host -/

@[simp] theorem runIn_log (line : LogLine) :
    (Host.log line : Session Unit).runIn w = (.ok (), { w with log := w.log ++ [line] }) := rfl

/-- A line of the log for each item of a list. -/
theorem runIn_forIn_log (items : List α) (line : α → LogLine) :
    (forIn items PUnit.unit fun item _ => do
      Host.log (line item)
      pure (ForInStep.yield PUnit.unit) : Session PUnit).runIn w =
      (.ok PUnit.unit, { w with log := w.log ++ items.map line }) := by
  induction items generalizing w with
  | nil =>
    rw [List.map_nil, List.append_nil]
    rfl
  | cons item items ih =>
    rw [List.forIn_cons, runIn_bind, runIn_bind_of_ok (runIn_log (line item)), runIn_pure]
    exact ih.trans (by rw [List.append_assoc]; rfl)

@[simp] theorem runIn_limits : (Host.limits : Session Limits).runIn w = (.ok w.limits, w) := rfl

@[simp] theorem runIn_load? (text : Text) :
    (Host.load? text : Session (Option (Value × Store))).runIn w = (.ok (w.load? text), w) := rfl

@[simp] theorem runIn_workplace :
    (Host.workplace : Session Path).runIn w = (.ok w.workplace, w) := rfl

@[simp] theorem runIn_start (s : ProcessStart) :
    (Host.start s : Session ProcessEnd).runIn w = (.ok (w.process s w.tree).1,
      { w with tree := (w.process s w.tree).2, started := w.started ++ [s] }) := rfl

theorem runIn_atPath (p : Path) (f : Tree → Except HostFault α) :
    (atPath p f).runIn w = (w.tree.ask p f, w) := by
  unfold atPath Tree.ask
  cases p.flaw? with
  | some flaw => rfl
  | none =>
    rw [runIn_bind_of_ok (show (get : Session World).runIn w = (.ok w, w) from rfl)]
    cases f w.tree <;> rfl

theorem runIn_changePath (p : Path) (f : Tree → Except HostFault Tree) :
    (changePath p f).runIn w = match w.tree.ask p f with
      | .ok tree => (.ok (), { w with tree })
      | .error e => (.error e, w) := by
  unfold changePath
  rw [runIn_bind, runIn_atPath]
  cases w.tree.ask p f <;> rfl

theorem exists_of_changePath {p : Path} {f : Tree → Except HostFault Tree} {w' : World}
    (h : (changePath p f).runIn w = (.ok (), w')) :
    ∃ tree, f w.tree = .ok tree ∧ w' = { w with tree } := by
  rw [runIn_changePath] at h
  cases hask : w.tree.ask p f with
  | error e =>
    rw [hask] at h
    cases h
  | ok tree =>
    rw [hask] at h
    cases h
    exact ⟨tree, Tree.eq_ok_of_ask hask, rfl⟩

@[simp] theorem runIn_readBytes (p : Path) :
    (Host.readBytes p : Session (List UInt8)).runIn w = (w.tree.ask p (·.read p), w) :=
  runIn_atPath p _

@[simp] theorem runIn_kind? (p : Path) :
    (Host.kind? p : Session (Option EntryKind)).runIn w = (w.tree.kindAt? p, w) := by
  change (kind? p).runIn w = _
  unfold kind? Tree.kindAt?
  split
  · rfl
  · rw [runIn_bind, runIn_atPath]
    cases w.tree.ask p (·.find? p) <;> rfl

theorem runIn_isThere (p : Path) :
    (Host.isThere p : Session Bool).runIn w = ((w.tree.kindAt? p).map (·.isSome), w) := by
  unfold Host.isThere
  rw [runIn_bind, runIn_kind?]
  cases w.tree.kindAt? p <;> rfl

theorem runIn_resolve (p : Path) :
    (Host.resolve p : Session Path).runIn w =
      (match p.flaw? with
        | some flaw => .error (.overrun flaw)
        | none => .ok (w.workplace.resolve p), w) := by
  unfold Host.resolve
  rw [runIn_bind, runIn_workplace]
  cases p.flaw? <;> rfl

/-! ### What a run leaves -/

/-- Whether a relation holds between the worlds before and after a run. -/
def Within (r : World → World → Prop) (s : Session α) : Prop := ∀ w, r w (s.runIn w).2

section

variable {r : World → World → Prop} [IsPreorder World r] {s : Session α} {f : α → Session β}

theorem within_pure (a : α) : (pure a : Session α).Within r := fun w => refl w

theorem within_throw (e : Failure) : (throw e : Session α).Within r := fun w => refl w

theorem Within.bind (hs : s.Within r) (hf : ∀ a, (f a).Within r) : (s >>= f).Within r := by
  intro w
  have hfirst := hs w
  rw [runIn_bind]
  rcases hrun : s.runIn w with ⟨e | a, w'⟩
  · rwa [hrun] at hfirst
  · rw [hrun] at hfirst
    exact trans_of r hfirst (hf a w')

theorem Within.tryCatch {f : Failure → Session α} (hs : s.Within r) (hf : ∀ e, (f e).Within r) :
    (tryCatchThe Failure s f).Within r := by
  intro w
  have hfirst := hs w
  rw [runIn_tryCatch]
  rcases hrun : s.runIn w with ⟨e | a, w'⟩
  · rw [hrun] at hfirst
    exact trans_of r hfirst (hf e w')
  · rwa [hrun] at hfirst

theorem within_kind? (p : Path) : (Host.kind? p : Session (Option EntryKind)).Within r := by
  intro w
  rw [runIn_kind?]
  exact refl w

end

/-! ### No fault of a trace -/

/-- Whether a run never finds fault with a trace. -/
def Faultless (s : Session α) : Prop := ∀ w e, (s.runIn w).1 ≠ .error (.trace e)

section

variable {s : Session α} {f : α → Session β}

theorem faultless_pure (a : α) : (pure a : Session α).Faultless := fun _ _ h => nomatch h

theorem Faultless.bind (hs : s.Faultless) (hf : ∀ a, (f a).Faultless) : (s >>= f).Faultless := by
  intro w e h
  have hfirst := hs w e
  rw [runIn_bind] at h
  rcases hrun : s.runIn w with ⟨e' | a, w'⟩
  · rw [hrun] at hfirst h
    exact hfirst (congrArg _ (Except.error.inj h))
  · rw [hrun] at h
    exact hf a w' e h

theorem Faultless.tryCatch {f : Failure → Session α} (hs : s.Faultless)
    (hf : ∀ e, (∀ fault, e ≠ .trace fault) → (f e).Faultless) :
    (tryCatchThe Failure s f).Faultless := by
  intro w e h
  have hfirst := hs w
  rw [runIn_tryCatch] at h
  rcases hrun : s.runIn w with ⟨e' | a, w'⟩
  · rw [hrun] at hfirst h
    exact hf e' (fun fault hfault => hfirst fault (by rw [hfault])) w' e h
  · rw [hrun] at h
    exact nomatch h

end

theorem faultless_throw_host (e : HostError) : (throw (Failure.host e) : Session α).Faultless :=
  fun _ _ h => nomatch h

theorem faultless_throw_overrun (limit : Overrun) :
    (throw (Failure.overrun limit) : Session α).Faultless := fun _ _ h => nomatch h

theorem faultless_log (line : LogLine) : (Host.log line : Session Unit).Faultless :=
  fun _ _ h => nomatch h

theorem faultless_limits : (Host.limits : Session Limits).Faultless := fun _ _ h => nomatch h

theorem faultless_atPath (p : Path) (f : Tree → Except HostFault α) :
    (atPath p f).Faultless := by
  intro w e
  rw [runIn_atPath]
  exact w.tree.ask_ne_trace p f e

theorem faultless_changePath (p : Path) (f : Tree → Except HostFault Tree) :
    (changePath p f).Faultless :=
  (faultless_atPath p f).bind fun _ _ _ h => nomatch h

theorem faultless_kind? (p : Path) :
    (Host.kind? p : Session (Option EntryKind)).Faultless := by
  change (kind? p).Faultless
  unfold kind?
  split
  · exact faultless_pure none
  · exact (faultless_atPath p _).bind fun _ => faultless_pure _

theorem faultless_makeFolderOr (p : Path) {onMissing : HostError → Session Unit}
    (hmissing : ∀ e, (onMissing e).Faultless) : (Host.makeFolderOr onMissing p).Faultless := by
  refine (faultless_changePath p _).tryCatch fun e he => ?_
  cases e with
  | host e =>
    simp only
    split
    · exact hmissing e
    · refine (faultless_kind? p).bind fun kind => ?_
      split
      · exact faultless_pure ()
      · exact faultless_throw_host e
  | trace fault => exact absurd rfl (he fault)
  | overrun limit => exact faultless_throw_overrun limit

theorem faultless_makeFolders (p : Path) : (Host.makeFolders p : Session Unit).Faultless := by
  have hensure (p : Path) : (Host.ensureFolder p : Session Unit).Faultless :=
    faultless_makeFolderOr p faultless_throw_host
  have hfrom (depth : Nat) (p : Path) :
      (Host.makeFoldersFrom depth p : Session Unit).Faultless := by
    induction depth generalizing p with
    | zero => exact hensure p
    | succ depth ih =>
      exact faultless_makeFolderOr p fun _ => (ih p.parent).bind fun _ => hensure p
  exact hfrom p.parts.length p

/-- **Writing a text** with the folders around it never finds fault with a trace. -/
theorem faultless_writeText (p : Path) (text : Text) :
    (Host.writeText p text : Session Unit).Faultless := faultless_changePath p _

end Session

end InlineReport
