import Mathlib.Logic.ExistsUnique
import DotLang.Proofs.Slot.Stage
import DotLang.Proofs.Text.Continuation

/-!
# Installation by several threads

However the steps of threads follow one another, preprocessing is installed once, and it is seen from then
on. One request finds that it has installed it, and all others that it was there. What callers get is the
parser as it was or the parser with preprocessing, never one that joins lines twice; and whoever begins to
parse after a request has come back, or after someone has parsed with preprocessing, has preprocessing too.

## Main results

* `SharedSlot.has_of_isChanged`: who begins after the parser is changed comes to the changed parser.
* `SharedSlot.installs_once_and_visibly`: the properties above, for every order of steps.
-/

namespace DotLang

namespace SharedSlot

variable {ε α : Type}

/-- Whether a request to install has come back. -/
def HasReturned (state : SharedSlot ε α) : Prop :=
  ∃ thread outcome, state.progress thread = .installed outcome

/-- Whether a call has been completed with a parser. -/
def HasUsed (state : SharedSlot ε α) (used : Parser ε α) : Prop :=
  ∃ thread result, state.progress thread = .parsed used result

variable {parser used : Parser ε α} {tasks : Nat → Task} {stage : Stage}
  {state middle last : SharedSlot ε α} {thread : Nat}

namespace At

/-- A thread that has called a parser has called the plain one or the one with preprocessing, on its own
text. -/
theorem parsed (h : state.At parser tasks stage) {result : Except ε α} {text : String}
    (hparsed : state.progress thread = .parsed used result) (htext : (tasks thread).text? = some text) :
    (used = parser ∨ used = parser.preprocessed.parse) ∧ result = used text := by
  obtain ⟨hused, text', htext', rfl⟩ := h.allowed hparsed
  obtain rfl : text = text' := Option.some.inj (htext.symm.trans htext')
  refine ⟨?_, rfl⟩
  -- Whatever the stage, the entry is the parser or the one that joins lines first.
  rcases stage.entry_eq_or parser with hentry | hentry
  · rw [hentry, or_self] at hused
    exact .inl hused
  · rwa [hentry] at hused

/-- A request has come back only when the installation is done. -/
theorem done_of_hasReturned (h : state.At parser tasks stage) (hreturned : state.HasReturned) :
    ∃ installer, stage = .done installer := by
  obtain ⟨thread, outcome, hinstalled⟩ := hreturned
  cases outcome with
  | installed => exact ⟨thread, h.allowed hinstalled⟩
  | alreadyInstalled => exact h.allowed hinstalled

/-- A call has been completed with preprocessing only when the parser is changed, unless preprocessing
makes no difference to the parser at all. -/
theorem isChanged_of_hasUsed (h : state.At parser tasks stage)
    (hused : state.HasUsed parser.preprocessed.parse) :
    stage.IsChanged ∨ parser.preprocessed.parse = parser := by
  obtain ⟨thread, result, hparsed⟩ := hused
  obtain ⟨hentry, -⟩ := h.allowed hparsed
  cases stage with
  | idle | entered => exact .inr (hentry.elim id id)
  | swapped | done => exact .inl trivial

end At

/-- A thread that parses with what the slot holds, and begins when that has been changed, comes to the
changed parser. -/
theorem has_of_isChanged (h : state.At parser tasks stage) (hchanged : stage.IsChanged)
    (htask : (tasks thread).usesEntry = true) (hready : state.progress thread = .ready)
    (hsteps : Steps tasks state last) (hhas : (last.progress thread).Has used) :
    used = parser.preprocessed.parse := by
  induction hsteps generalizing used with
  | refl => simp [hready, Progress.Has] at hhas
  | @snoc middle last hsteps hstep ih =>
    -- The parser stays changed up to the step in which the thread comes to it.
    obtain ⟨later, hleads, hat⟩ := h.steps hsteps
    have hentry : middle.entry = parser.preprocessed.parse :=
      hat.entry.trans (hleads.isChanged hchanged).entry_eq
    rcases hstep.takes hhas with hhas | htakes
    · exact ih hhas
    · cases htakes with
      | entry | fallBack => exact hentry
      | plain hplain => simp [hplain, Task.usesEntry] at htask

/-- However threads share a fresh slot: no two requests find that they have installed preprocessing, and one
has found so as soon as any has come back. A completed call has answered what the parser makes of its text,
or of its text with continued lines joined once. A call that begins when a request has come back, or when a
call has been completed with preprocessing, is made with preprocessing. -/
theorem installs_once_and_visibly (parser : Parser ε α) (tasks : Nat → Task)
    (hmiddle : Steps tasks (start parser) middle) (hlast : Steps tasks middle last) :
    (∀ thread other, middle.progress thread = .installed .installed →
      last.progress other = .installed .installed → other = thread) ∧
    (middle.HasReturned → ∃! thread, middle.progress thread = .installed .installed) ∧
    (∀ thread text used result, (tasks thread).usesEntry = true → (tasks thread).text? = some text →
      last.progress thread = .parsed used result →
      result = parser text ∨ result = parser (Continuation.join text)) ∧
    (middle.HasReturned ∨ middle.HasUsed parser.preprocessed.parse →
      ∀ thread text used result, (tasks thread).usesEntry = true → (tasks thread).text? = some text →
        middle.progress thread = .ready → last.progress thread = .parsed used result →
        used = parser.preprocessed.parse ∧ result = parser (Continuation.join text)) := by
  obtain ⟨stage, hat⟩ := exists_at hmiddle
  obtain ⟨later, hleads, hat'⟩ := hat.steps hlast
  refine ⟨fun thread other hthread hother => ?_, fun hreturned => ?_,
    fun thread text used result _ htext hparsed => ?_,
    fun hbefore thread text used result htask htext hready hparsed => ?_⟩
  · -- The stage names the thread that has installed preprocessing, and goes on to name it.
    have hdone : later = .done thread := hleads.done thread (hat.allowed hthread)
    have hdone' : later = .done other := hat'.allowed hother
    exact Stage.done.inj (hdone'.symm.trans hdone)
  · obtain ⟨installer, hdone⟩ := hat.done_of_hasReturned hreturned
    refine ⟨installer, hat.installer installer hdone, fun other hother => ?_⟩
    exact Stage.done.inj ((hat.allowed hother).symm.trans hdone)
  · obtain ⟨hused, rfl⟩ := hat'.parsed hparsed htext
    rcases hused with rfl | rfl
    · exact .inl rfl
    · exact .inr rfl
  · obtain ⟨hused, rfl⟩ := hat'.parsed hparsed htext
    -- Where preprocessing makes no difference to the parser, there is nothing to be seen.
    have hchanged : stage.IsChanged ∨ parser.preprocessed.parse = parser := by
      rcases hbefore with hreturned | hbefore
      · obtain ⟨installer, rfl⟩ := hat.done_of_hasReturned hreturned
        exact .inl trivial
      · exact hat.isChanged_of_hasUsed hbefore
    have heq : used = parser.preprocessed.parse := by
      rcases hchanged with hchanged | hsame
      · exact has_of_isChanged hat hchanged htask hready hlast (by rw [hparsed]; rfl)
      · exact hused.elim (fun h => h.trans hsame.symm) id
    exact ⟨heq, by rw [heq]; rfl⟩

/-- A thread that is to install preprocessing can do so before any other thread begins. -/
theorem exists_installed (parser : Parser ε α) {installer : Nat} (h : tasks installer = .install) :
    ∃ state, Steps tasks (start parser) state ∧ state.latch = .done parser ∧
      state.progress installer = .installed .installed ∧
      ∀ other ≠ installer, state.progress other = .ready := by
  have henter := Steps.refl.snoc (@Step.enter _ _ tasks (start parser) installer h rfl rfl)
  have hswap := henter.snoc (.swap (progress_advance_self ..))
  have hpublish := hswap.snoc (.publish (progress_advance_self ..))
  refine ⟨_, hpublish, rfl, progress_advance_self .., fun other hother => ?_⟩
  simp [start, hother]

/-- Two threads that install preprocessing, and others that parse a text through handles. -/
def twoInstallers : Nat → Task
  | 0 | 1 => .install
  | _ => .callHandle Continuation.twiceContinued

/-- A call that begins when the first of two requests has come back joins lines once, while the second
request has not begun. -/
theorem installs_once_twoInstallers : ∃ middle last : SharedSlot Unit String,
    Steps twoInstallers (start .echo) middle ∧ Steps twoInstallers middle last ∧ middle.HasReturned ∧
      middle.progress 1 = .ready ∧ (∃! thread, middle.progress thread = .installed .installed) ∧
      ∃ used result, last.progress 2 = .parsed used result ∧
        result = Parser.echo (Continuation.join Continuation.twiceContinued) := by
  obtain ⟨middle, hmiddle, -, hfirst, hothers⟩ :=
    exists_installed Parser.echo (rfl : twoInstallers 0 = .install)
  -- The second installer has not begun when the first one has returned, and never needs to.
  have hsecond : middle.progress 1 = .ready := hothers 1 (by decide)
  have hthird : middle.progress 2 = .ready := hothers 2 (by decide)
  have hlast := (Steps.refl.snoc (@Step.take _ _ twoInstallers middle 2 rfl hthird)).snoc
    (@Step.call _ _ _ _ 2 _ _ (progress_advance_self ..) rfl)
  have hreturned : middle.HasReturned := ⟨0, .installed, hfirst⟩
  obtain ⟨-, hone, -, hvisible⟩ := installs_once_and_visibly .echo twoInstallers hmiddle hlast
  refine ⟨middle, _, hmiddle, hlast, hreturned, hsecond, hone hreturned, _, _, progress_advance_self .., ?_⟩
  exact (hvisible (.inl hreturned) 2 _ _ _ rfl rfl hthird (progress_advance_self ..)).2

end SharedSlot

end DotLang
