import DotLang.Proofs.Slot.Installation

/-!
# The plain parser during an installation

A thread that is to parse as before preprocessing was installed looks for the plain parser in the latch. It
is there when the installation is done. Where it is not, the thread falls back on the parser of the slot,
and this one is changed before the latch is opened. So a call can be overtaken by an installation: it misses
the plain parser and then comes to the changed one, and its text is preprocessed although the plain parser
was asked for. No other call is.

## Main results

* `SharedSlot.exists_overtaken`: a call that is overtaken, and answers otherwise than the plain parser.
* `SharedSlot.parsePlain_unless_overtaken`: every other call answers as the plain parser does.
-/

namespace DotLang

namespace SharedSlot

variable {ε α : Type}

/-- Whether a thread, on the way from a fresh slot to a state, had missed the plain parser when the parser of
the slot was changed already. -/
def Overtaken (parser : Parser ε α) (tasks : Nat → Task) (last : SharedSlot ε α) (thread : Nat) : Prop :=
  ∃ state, Steps tasks (start parser) state ∧ Steps tasks state last ∧
    state.progress thread = .unlatched ∧ state.entry = parser.preprocessed.parse

variable {parser used : Parser ε α} {tasks : Nat → Task} {stage : Stage} {text : String}
  {state middle last : SharedSlot ε α} {thread : Nat}

/-- Once a thread is overtaken, it stays so, whatever the others do. -/
theorem Overtaken.step (h : Overtaken parser tasks middle thread) (hstep : Step tasks middle last) :
    Overtaken parser tasks last thread := by
  obtain ⟨state, hstart, hsteps, hstate⟩ := h
  exact ⟨state, hstart, hsteps.snoc hstep, hstate⟩

/-- A thread that asks for the plain parser comes to it, or to the changed one when it is overtaken. -/
theorem has_plain_or_overtaken (hsteps : Steps tasks (start parser) last)
    (htask : tasks thread = .parsePlain text) (hhas : (last.progress thread).Has used) :
    used = parser ∨ used = parser.preprocessed.parse ∧ Overtaken parser tasks last thread := by
  induction hsteps with
  | refl => exact hhas.elim
  | @snoc middle last hsteps hstep ih =>
    -- The step in which the thread comes to its parser settles which one it is.
    obtain ⟨stage, hat⟩ := exists_at hsteps
    rcases hstep.takes hhas with hhas | htakes
    · exact (ih hhas).imp id fun hovertaken => ⟨hovertaken.1, hovertaken.2.step hstep⟩
    · cases htakes with
      | entry huses => simp [htask, Task.usesEntry] at huses
      | plain _ _ hdone => exact .inl (Stage.eq_done_of_latch (hat.latch.symm.trans hdone)).1
      | fallBack hunlatched =>
        rw [hat.entry]
        rcases stage.entry_eq_or parser with hentry | hentry
        · exact .inl hentry
        · exact .inr ⟨hentry, middle, hsteps, Steps.refl.snoc hstep, hunlatched, hat.entry.trans hentry⟩

/-- A thread that begins when the installation is done does not miss the plain parser. -/
theorem not_unlatched_of_done {installer : Nat} (h : state.At parser tasks (.done installer))
    (hready : state.progress thread = .ready) (hsteps : Steps tasks state last) :
    last.progress thread ≠ .unlatched := by
  induction hsteps with
  | refl => simp [hready]
  | snoc hsteps hstep ih =>
    intro hunlatched
    obtain ⟨later, hleads, hat⟩ := h.steps hsteps
    obtain rfl := hleads.done installer rfl
    -- The thread finds no latch only where none is set, and it has been set all along.
    rcases hstep.unlatched hunlatched with hunlatched | hlatch
    · exact ih hunlatched
    · exact hlatch parser hat.latch

/-- A thread that asks for the plain parser, and begins when the installation is done, comes to it. -/
theorem has_plain_of_done {installer : Nat} (h : state.At parser tasks (.done installer))
    (htask : tasks thread = .parsePlain text) (hready : state.progress thread = .ready)
    (hsteps : Steps tasks state last) (hhas : (last.progress thread).Has used) : used = parser := by
  induction hsteps with
  | refl => simp [hready, Progress.Has] at hhas
  | @snoc middle last hsteps hstep ih =>
    obtain ⟨later, -, hat⟩ := h.steps hsteps
    rcases hstep.takes hhas with hhas | htakes
    · exact ih hhas
    · cases htakes with
      | entry huses => simp [htask, Task.usesEntry] at huses
      -- Of the three ways to take a parser only this one is open to the thread: the latch is set.
      | plain _ _ hdone => exact (Stage.eq_done_of_latch (hat.latch.symm.trans hdone)).1
      | fallBack hunlatched => exact absurd hunlatched (not_unlatched_of_done h hready hsteps)

/-- A completed call that asked for the plain parser has answered as that parser does, unless an installation
overtook it; and it cannot be overtaken if it began when a request to install had come back. -/
theorem parsePlain_unless_overtaken (parser : Parser ε α) (tasks : Nat → Task)
    (hmiddle : Steps tasks (start parser) middle) (hlast : Steps tasks middle last)
    (htask : tasks thread = .parsePlain text) {result : Except ε α}
    (hparsed : last.progress thread = .parsed used result) :
    (result = parser text ∨
      result = parser (Continuation.join text) ∧ Overtaken parser tasks last thread) ∧
    (middle.HasReturned → middle.progress thread = .ready → result = parser text) := by
  obtain ⟨stage, hat⟩ := exists_at hmiddle
  obtain ⟨later, -, hat'⟩ := hat.steps hlast
  have htext : (tasks thread).text? = some text := by rw [htask]; rfl
  obtain ⟨-, rfl⟩ := hat'.parsed hparsed htext
  have hhas : (last.progress thread).Has used := by rw [hparsed]; rfl
  -- The result is that of the parser taken, so the question is which one the thread takes.
  refine ⟨?_, fun hreturned hready => ?_⟩
  · rcases has_plain_or_overtaken (hmiddle.trans hlast) htask hhas with rfl | ⟨rfl, hovertaken⟩
    · exact .inl rfl
    · exact .inr ⟨rfl, hovertaken⟩
  · obtain ⟨installer, rfl⟩ := hat.done_of_hasReturned hreturned
    rw [has_plain_of_done hat htask hready hlast hhas]

/-- A thread that installs preprocessing, and others that ask for the plain parser. -/
def installerAndPlain : Nat → Task
  | 0 => .install
  | _ => .parsePlain Continuation.twiceContinued

/-- A call that begins when the request to install has come back answers as the plain parser does. -/
theorem parsePlain_after_return : ∃ middle last : SharedSlot Unit String,
    Steps installerAndPlain (start .echo) middle ∧ Steps installerAndPlain middle last ∧
      middle.HasReturned ∧ middle.progress 1 = .ready ∧ ∃ used result,
        last.progress 1 = .parsed used result ∧ result = Parser.echo Continuation.twiceContinued := by
  obtain ⟨middle, hmiddle, hlatch, hinstalled, hothers⟩ :=
    exists_installed Parser.echo (rfl : installerAndPlain 0 = .install)
  have hready : middle.progress 1 = .ready := hothers 1 (by decide)
  have hlast := (Steps.refl.snoc (@Step.retrieve _ _ installerAndPlain middle 1 _ _ rfl hready hlatch)).snoc
    (@Step.call _ _ _ _ 1 _ _ (progress_advance_self ..) rfl)
  have hreturned : middle.HasReturned := ⟨0, .installed, hinstalled⟩
  refine ⟨middle, _, hmiddle, hlast, hreturned, hready, _, _, progress_advance_self .., ?_⟩
  exact (parsePlain_unless_overtaken .echo installerAndPlain hmiddle hlast rfl
    (progress_advance_self ..)).2 hreturned hready

/-- A call that looks into the latch while the installation is under way, and falls back on the parser of
the slot when that has been changed, answers with its lines joined and not as the plain parser does. -/
theorem exists_overtaken : ∃ (last : SharedSlot Unit String) (used : Parser Unit String)
    (result : Except Unit String), Steps installerAndPlain (start .echo) last ∧
      installerAndPlain 1 = .parsePlain Continuation.twiceContinued ∧ last.progress 1 = .parsed used result ∧
      result = Parser.echo (Continuation.join Continuation.twiceContinued) ∧
      result ≠ Parser.echo Continuation.twiceContinued := by
  -- One thread enters and changes the parser. Before it opens the latch, the other one misses the plain
  -- parser, falls back and calls what it has come to.
  have henter := Steps.refl.snoc (@Step.enter _ _ installerAndPlain (start Parser.echo) 0 rfl rfl rfl)
  have hswap := henter.snoc (.swap (progress_advance_self ..))
  have hmiss := hswap.snoc (@Step.miss _ _ _ _ 1 _ rfl rfl nofun)
  have hfallBack := hmiss.snoc (.fallBack (progress_advance_self ..))
  have hcall := hfallBack.snoc (.call (progress_advance_self ..) rfl)
  refine ⟨_, _, _, hcall, rfl, progress_advance_self .., rfl, fun h => ?_⟩
  have hjoin : Continuation.join Continuation.twiceContinued = Continuation.twiceContinued :=
    Except.ok.inj h
  rw [Continuation.join_twiceContinued, Continuation.twiceContinued, String.ofList_inj] at hjoin
  simp at hjoin

end SharedSlot

end DotLang
