import DotLang.Slot.Concurrent

/-!
# Stages of an installation

Whatever the order in which threads take their steps, one of them installs preprocessing, and it does so in
three steps: it closes the latch, changes the parser of the slot, and opens the latch again. A `Stage` says
how many of these steps have been taken and by which thread. `SharedSlot.At` says what is true of a slot at a
stage; it is the invariant behind the properties of shared slots.

## Main results

* `SharedSlot.At.step`: a step leaves the slot at its stage or takes it to the next one.
* `SharedSlot.At.steps`: the same for any number of steps; once the parser is changed it stays so.
* `SharedSlot.Step.takes`: how a thread comes to a parser.
-/

namespace DotLang

variable {ε α : Type}

/-- How far the installation of preprocessing has got, and which thread sees to it. -/
inductive Stage where
  /-- No thread has begun to install. -/
  | idle
  /-- The thread has closed the latch. -/
  | entered (installer : Nat)
  /-- The thread has changed the parser of the slot. -/
  | swapped (installer : Nat)
  /-- The thread has opened the latch again and has come back. -/
  | done (installer : Nat)

namespace Stage

/-- The parser that a slot holds at a stage. -/
def entry (parser : Parser ε α) : Stage → Parser ε α
  | idle | entered _ => parser
  | swapped _ | done _ => parser.preprocessed.parse

/-- The latch of a slot at a stage. -/
def latch (parser : Parser ε α) : Stage → Latch ε α
  | idle => .idle
  | entered _ | swapped _ => .busy
  | done _ => .done parser

/-- Whether the parser of the slot has been changed at a stage. -/
def IsChanged : Stage → Prop
  | idle | entered _ => False
  | swapped _ | done _ => True

/-- A thread has a stage behind it and gets on to another one, at which the slot is at the next stage. -/
inductive Next (parser : Parser ε α) (thread : Nat) : Stage → Progress ε α → Stage → Prop where
  /-- It closes the latch. -/
  | enter : Next parser thread idle .entered (entered thread)
  /-- It changes the parser. -/
  | swap : Next parser thread (entered thread) (.swapped parser) (swapped thread)
  /-- It opens the latch. -/
  | publish : Next parser thread (swapped thread) (.installed .installed) (done thread)

/-- How far a thread may have got at a stage. The parsers that threads have are the plain one and the one
that the slot holds, so none of them joins lines twice. -/
def Allows (parser : Parser ε α) (task : Task) (thread : Nat) (stage : Stage) : Progress ε α → Prop
  | .ready | .unlatched => True
  | .entered => stage = entered thread
  | .swapped plain => stage = swapped thread ∧ plain = parser
  | .installed .installed => stage = done thread
  | .installed .alreadyInstalled => ∃ installer, stage = done installer
  | .holds used => used = parser ∨ used = stage.entry parser
  | .parsed used result =>
    (used = parser ∨ used = stage.entry parser) ∧ ∃ text, task.text? = some text ∧ result = used text

/-- What a later stage keeps of an earlier one. -/
structure Leads (stage later : Stage) : Prop where
  /-- A changed parser stays changed. -/
  isChanged : stage.IsChanged → later.IsChanged
  /-- A finished installation stays that of the same thread. -/
  done : ∀ installer, stage = .done installer → later = .done installer

variable {parser : Parser ε α} {stage later last : Stage} {thread : Nat} {progress : Progress ε α}

/-- Each stage leads to itself. -/
theorem Leads.refl (stage : Stage) : stage.Leads stage :=
  ⟨id, fun _ h => h⟩

/-- What a stage leads to leads further on. -/
theorem Leads.trans (h : stage.Leads later) (h' : later.Leads last) : stage.Leads last :=
  ⟨h'.isChanged ∘ h.isChanged, fun installer hdone => h'.done installer (h.done installer hdone)⟩

/-- The next stage is one that the stage leads to. -/
theorem Next.leads (h : Next parser thread stage progress later) : stage.Leads later := by
  cases h with
  | enter | swap => exact ⟨False.elim, nofun⟩
  | publish => exact ⟨fun _ => trivial, nofun⟩

/-- Once changed, the entry is the preprocessed parser. -/
theorem IsChanged.entry_eq (h : stage.IsChanged) : stage.entry parser = parser.preprocessed.parse := by
  cases stage with
  | idle | entered => exact h.elim
  | swapped | done => rfl

/-- The entry is one of the two parsers at each stage. -/
theorem entry_eq_or (stage : Stage) (parser : Parser ε α) :
    stage.entry parser = parser ∨ stage.entry parser = parser.preprocessed.parse := by
  cases stage with
  | idle | entered => exact .inl rfl
  | swapped | done => exact .inr rfl

/-- Before anyone installs, the latch is idle, and only then. -/
theorem eq_idle_of_latch (h : stage.latch parser = .idle) : stage = idle := by
  cases stage with
  | idle => rfl
  | entered | swapped | done => cases h

/-- Once the latch is done, it holds the plain parser, and someone has installed. -/
theorem eq_done_of_latch {plain : Parser ε α} (h : stage.latch parser = .done plain) :
    plain = parser ∧ ∃ installer, stage = done installer := by
  cases stage with
  | idle | entered | swapped => cases h
  | done installer =>
    cases h
    exact ⟨rfl, installer, rfl⟩

/-- A thread that has taken the next step of the installation is where the next stage wants it. -/
theorem Next.allows (h : Next parser thread stage progress later) (task : Task) :
    later.Allows parser task thread progress := by
  cases h with
  | enter | publish => rfl
  | swap => exact ⟨rfl, rfl⟩

/-- The next step of the installation is no matter to the other threads. -/
theorem Allows.next {task : Task} {other : Nat} {gained : Progress ε α}
    (h : stage.Allows parser task other progress) (hnext : Next parser thread stage gained later)
    (hne : other ≠ thread) : later.Allows parser task other progress := by
  -- Where the stage names its thread, the next step would be that thread's own. A parser that is in hand when
  -- the slot is given its changed one is the plain parser.
  cases progress with
  | ready | unlatched => trivial
  | entered => cases hnext <;> cases h; exact absurd rfl hne
  | swapped => cases hnext <;> cases h.1; exact absurd rfl hne
  | installed outcome =>
    cases outcome <;> cases hnext <;> simp [Allows] at h
  | holds used =>
    cases hnext with
    | enter | publish => exact h
    | swap => exact .inl (h.elim id id)
  | parsed used result =>
    cases hnext with
    | enter | publish => exact h
    | swap => exact ⟨.inl (h.1.elim id id), h.2⟩

end Stage

namespace SharedSlot

/-- A slot that is shared over a parser is at a stage. -/
structure At (parser : Parser ε α) (tasks : Nat → Task) (stage : Stage) (state : SharedSlot ε α) :
    Prop where
  /-- The slot holds the parser of the stage. -/
  entry : state.entry = stage.entry parser
  /-- Its latch is that of the stage. -/
  latch : state.latch = stage.latch parser
  /-- No thread has got further than the stage allows. -/
  allows : ∀ thread, stage.Allows parser (tasks thread) thread (state.progress thread)
  /-- A finished installation is known to the thread that saw to it. -/
  installer : ∀ thread, stage = .done thread → state.progress thread = .installed .installed

variable {parser : Parser ε α} {tasks : Nat → Task} {stage later : Stage}
  {state state' first last : SharedSlot ε α} {thread : Nat} {progress : Progress ε α}

/-- At the start nobody has installed. -/
theorem at_start (parser : Parser ε α) (tasks : Nat → Task) : (start parser).At parser tasks .idle :=
  ⟨rfl, rfl, fun _ => trivial, nofun⟩

namespace At

/-- At each stage, the progress of a thread is one that the stage allows. -/
theorem allowed (h : state.At parser tasks stage) (hprogress : state.progress thread = progress) :
    stage.Allows parser (tasks thread) thread progress :=
  hprogress ▸ h.allows thread

/-- A thread that gets on as the stage allows, and was not the one that saw to the installation, leaves the
slot at its stage. -/
theorem advance (h : state.At parser tasks stage)
    (hallows : stage.Allows parser (tasks thread) thread progress)
    (hne : state.progress thread ≠ .installed .installed) :
    (state.advance thread progress).At parser tasks stage where
  entry := h.entry
  latch := h.latch
  allows other := by
    by_cases hother : other = thread
    · subst hother
      rwa [progress_advance_self]
    · rw [progress_advance_of_ne _ _ _ hother]
      exact h.allows other
  installer other hdone := by
    -- The thread that has installed has returned, so it is not the one that goes on.
    have hother : other ≠ thread := by
      rintro rfl
      exact hne (h.installer other hdone)
    rw [progress_advance_of_ne _ _ _ hother]
    exact h.installer other hdone

/-- A thread that takes the next step of the installation takes the slot to the next stage. -/
theorem next (h : state.At parser tasks stage) (hnext : stage.Next parser thread progress later)
    (hprogress : state'.progress = state.progress) (hentry : state'.entry = later.entry parser)
    (hlatch : state'.latch = later.latch parser) :
    (state'.advance thread progress).At parser tasks later where
  entry := hentry
  latch := hlatch
  allows other := by
    by_cases hother : other = thread
    · subst hother
      rw [progress_advance_self]
      exact hnext.allows _
    · rw [progress_advance_of_ne _ _ _ hother, hprogress]
      exact (h.allows other).next hnext hother
  installer other hdone := by
    subst hdone
    cases hnext with
    -- Only this step leads to the last stage, and the thread that takes it is the one that installed.
    | publish => exact progress_advance_self ..

/-- A step leaves the slot at its stage or takes it to a stage that the old one leads to. -/
theorem step (h : state.At parser tasks stage) (hstep : Step tasks state state') :
    ∃ later, stage.Leads later ∧ state'.At parser tasks later := by
  -- Three steps take the slot to the next stage, and the stage names the only thread that can take each of
  -- them. The other steps read the slot as the stage has it and change nothing but their thread.
  cases hstep with
  | @enter thread htask hready hidle =>
    obtain rfl := Stage.eq_idle_of_latch (h.latch.symm.trans hidle)
    have hnext : Stage.Next parser thread .idle .entered (.entered thread) := .enter
    exact ⟨_, hnext.leads, h.next hnext rfl h.entry rfl⟩
  | @swap thread hentered =>
    obtain rfl : stage = .entered thread := h.allowed hentered
    have hnext : Stage.Next parser thread (.entered thread) (.swapped parser) (.swapped thread) := .swap
    have hentry : state.entry = parser := h.entry
    rw [hentry]
    exact ⟨_, hnext.leads, h.next hnext rfl rfl h.latch⟩
  | @publish thread plain hswapped =>
    obtain ⟨rfl, rfl⟩ : stage = .swapped thread ∧ plain = parser := h.allowed hswapped
    have hnext : Stage.Next plain thread (.swapped thread) (.installed .installed) (.done thread) := .publish
    exact ⟨_, hnext.leads, h.next hnext rfl h.entry rfl⟩
  | present htask hready hdone =>
    obtain ⟨-, hinstaller⟩ := Stage.eq_done_of_latch (h.latch.symm.trans hdone)
    exact ⟨stage, .refl stage, h.advance hinstaller (by simp [hready])⟩
  | take htask hready => exact ⟨stage, .refl stage, h.advance (.inr h.entry) (by simp [hready])⟩
  | retrieve htask hready hdone =>
    obtain ⟨rfl, -⟩ := Stage.eq_done_of_latch (h.latch.symm.trans hdone)
    exact ⟨stage, .refl stage, h.advance (.inl rfl) (by simp [hready])⟩
  | miss htask hready hlatch => exact ⟨stage, .refl stage, h.advance trivial (by simp [hready])⟩
  | fallBack hunlatched => exact ⟨stage, .refl stage, h.advance (.inr h.entry) (by simp [hunlatched])⟩
  | @call thread used text hholds htext =>
    have hused : used = parser ∨ used = stage.entry parser := h.allowed hholds
    exact ⟨stage, .refl stage, h.advance ⟨hused, text, htext, rfl⟩ (by simp [hholds])⟩

/-- Any number of steps takes the slot to a stage that the old one leads to. -/
theorem steps (h : state.At parser tasks stage) (hsteps : Steps tasks state last) :
    ∃ later, stage.Leads later ∧ last.At parser tasks later := by
  induction hsteps with
  | refl => exact ⟨stage, .refl stage, h⟩
  | snoc _ hstep ih =>
    obtain ⟨middle, hmiddle, hat⟩ := ih
    obtain ⟨later, hlater, hat'⟩ := hat.step hstep
    exact ⟨later, hmiddle.trans hlater, hat'⟩

end At

/-- Some steps and then some more are steps. -/
theorem Steps.trans {middle : SharedSlot ε α} (h : Steps tasks first middle)
    (h' : Steps tasks middle last) : Steps tasks first last := by
  induction h' with
  | refl => exact h
  | snoc _ hstep ih => exact ih.snoc hstep

/-- Every state that the threads of a fresh slot reach is at a stage. -/
theorem exists_at (h : Steps tasks (start parser) state) : ∃ stage, state.At parser tasks stage := by
  obtain ⟨stage, -, hat⟩ := (at_start parser tasks).steps h
  exact ⟨stage, hat⟩

end SharedSlot

/-- Whether a thread has come to a parser: it is to call it or has called it. -/
def Progress.Has (used : Parser ε α) : Progress ε α → Prop
  | .holds parser | .parsed parser _ => parser = used
  | _ => False

namespace SharedSlot

/-- A thread can come to a parser in its next step. -/
inductive Takes (tasks : Nat → Task) (state : SharedSlot ε α) (thread : Nat) : Parser ε α → Prop where
  /-- It is to parse with the parser of the slot. -/
  | entry : (tasks thread).usesEntry = true → state.progress thread = .ready →
      Takes tasks state thread state.entry
  /-- It finds the plain parser in the latch. -/
  | plain {text plain} : tasks thread = .parsePlain text → state.progress thread = .ready →
      state.latch = .done plain → Takes tasks state thread plain
  /-- It found no plain parser in the latch and falls back on the parser of the slot. -/
  | fallBack : state.progress thread = .unlatched → Takes tasks state thread state.entry

variable {tasks : Nat → Task} {state state' : SharedSlot ε α} {thread : Nat} {used : Parser ε α}

/-- A parser that a thread has after an advance it had before, or it is the thread that advanced. -/
theorem has_of_has_advance {progress : Progress ε α} {other : Nat}
    (h : ((state.advance thread progress).progress other).Has used) :
    (state.progress other).Has used ∨ other = thread ∧ progress.Has used := by
  by_cases hother : other = thread
  · subst hother
    rw [progress_advance_self] at h
    exact .inr ⟨rfl, h⟩
  · rw [progress_advance_of_ne _ _ _ hother] at h
    exact .inl h

/-- A thread that has come to a parser behind a step had done so before, or did so in the step. -/
theorem Step.takes (h : Step tasks state state') (hhas : (state'.progress thread).Has used) :
    (state.progress thread).Has used ∨ state.Takes tasks thread used := by
  -- Only steps that take an entry or the plain parser give the thread a parser that it did not have.
  cases h with
  | enter | swap | publish | present | miss =>
    rcases has_of_has_advance hhas with hhas | ⟨-, hhas⟩
    · exact .inl hhas
    · exact hhas.elim
  | take htask hready =>
    rcases has_of_has_advance hhas with hhas | ⟨rfl, rfl⟩
    · exact .inl hhas
    · exact .inr (.entry htask hready)
  | retrieve htask hready hdone =>
    rcases has_of_has_advance hhas with hhas | ⟨rfl, rfl⟩
    · exact .inl hhas
    · exact .inr (.plain htask hready hdone)
  | fallBack hunlatched =>
    rcases has_of_has_advance hhas with hhas | ⟨rfl, rfl⟩
    · exact .inl hhas
    · exact .inr (.fallBack hunlatched)
  | call hholds =>
    rcases has_of_has_advance hhas with hhas | ⟨rfl, rfl⟩
    · exact .inl hhas
    · exact .inl (hholds ▸ rfl)

/-- A thread that has missed the plain parser behind a step had done so before, or the latch held none. -/
theorem Step.unlatched (h : Step tasks state state') (hunlatched : state'.progress thread = .unlatched) :
    state.progress thread = .unlatched ∨ ∀ plain, state.latch ≠ .done plain := by
  cases h with
  | miss _ _ hlatch => exact .inr hlatch
  -- Each other step leads the thread elsewhere or is one of another thread.
  | enter | swap | publish | present | take | retrieve | fallBack | call =>
    rw [progress_advance] at hunlatched
    split at hunlatched
    · cases hunlatched
    · exact .inl hunlatched

end SharedSlot

end DotLang
