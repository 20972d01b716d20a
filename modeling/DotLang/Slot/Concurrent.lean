import DotLang.Slot.Session

/-!
# Slots shared by threads

Threads install preprocessing in a slot and parse with it at the same time. Each of them takes small
steps, and steps of different threads may follow one another in any order. A slot consists of the parser
that callers reach and of a latch. The first thread that finds the latch open closes it and installs
preprocessing; the others wait. When the installation is done, the latch holds the parser from before.

A thread makes one call. Calls that one caller makes in a row are threads of which the next one begins
when the one before it has come back.
-/

namespace DotLang

/-- What keeps preprocessing from being installed twice. -/
inductive Latch (ε α : Type) where
  /-- No thread has begun to install. -/
  | idle
  /-- A thread is installing. -/
  | busy
  /-- Preprocessing is installed in front of this parser. -/
  | done (plain : Parser ε α)

/-- What a thread is to do. -/
inductive Task where
  /-- Install preprocessing. -/
  | install
  /-- Parse a text with what the slot holds. -/
  | parse (text : String)
  /-- Parse a text through a handle, with what the slot holds then. -/
  | callHandle (text : String)
  /-- Parse a text as before preprocessing was installed. -/
  | parsePlain (text : String)
deriving DecidableEq

namespace Task

/-- The text that a task is to parse. -/
def text? : Task → Option String
  | .install => none
  | .parse text | .callHandle text | .parsePlain text => some text

/-- Whether a task is to parse with what the slot holds. -/
def usesEntry : Task → Bool
  | .parse _ | .callHandle _ => true
  | .install | .parsePlain _ => false

end Task

/-- How far a thread has got. -/
inductive Progress (ε α : Type) where
  /-- It has not begun. -/
  | ready
  /-- It has closed the latch and is to change the parser of the slot. -/
  | entered
  /-- It has changed the parser of the slot and is to open the latch; it keeps the parser from before. -/
  | swapped (plain : Parser ε α)
  /-- It has found no plain parser and is to take the one of the slot. -/
  | unlatched
  /-- It has a parser and is to call it. -/
  | holds (parser : Parser ε α)
  /-- It has installed preprocessing or found it installed. -/
  | installed (outcome : Installation)
  /-- It has parsed its text with a parser. -/
  | parsed (parser : Parser ε α) (result : Except ε α)

/-- A slot and the threads that use it. -/
structure SharedSlot (ε α : Type) where
  /-- The parser that callers reach. -/
  entry : Parser ε α
  /-- The latch. -/
  latch : Latch ε α
  /-- How far each thread has got. -/
  progress : Nat → Progress ε α

namespace SharedSlot

variable {ε α : Type}

/-- A fresh slot that no thread has used yet. -/
def start (parser : Parser ε α) : SharedSlot ε α := ⟨parser, .idle, fun _ => .ready⟩

/-- The state after a thread has got on. -/
def advance (state : SharedSlot ε α) (thread : Nat) (progress : Progress ε α) : SharedSlot ε α :=
  { state with progress := fun other => if other = thread then progress else state.progress other }

section Advance

variable (state : SharedSlot ε α) (thread : Nat) (progress : Progress ε α)

/-- When a thread advances, only its own progress changes. -/
theorem progress_advance (other : Nat) :
    (state.advance thread progress).progress other =
      if other = thread then progress else state.progress other := rfl

/-- The thread that advances has the progress it advances to. -/
@[simp]
theorem progress_advance_self : (state.advance thread progress).progress thread = progress :=
  if_pos rfl

/-- No other thread progresses when one advances. -/
@[simp]
theorem progress_advance_of_ne {other : Nat} (h : other ≠ thread) :
    (state.advance thread progress).progress other = state.progress other :=
  if_neg h

end Advance

/-- A step of one thread. -/
inductive Step (tasks : Nat → Task) : SharedSlot ε α → SharedSlot ε α → Prop where
  /-- A thread that is to install finds the latch idle and closes it. -/
  | enter {state thread} : tasks thread = .install → state.progress thread = .ready →
      state.latch = .idle →
      Step tasks state ({ state with latch := .busy }.advance thread .entered)
  /-- A thread that closed the latch puts preprocessing in front of the parser. -/
  | swap {state thread} : state.progress thread = .entered →
      Step tasks state ({ state with entry := state.entry.preprocessed.parse }.advance thread
        (.swapped state.entry))
  /-- A thread that changed the parser hands the one from before to the latch. -/
  | publish {state thread plain} : state.progress thread = .swapped plain →
      Step tasks state ({ state with latch := .done plain }.advance thread
        (.installed .installed))
  /-- A thread that is to install finds that it is done. -/
  | present {state thread plain} : tasks thread = .install →
      state.progress thread = .ready → state.latch = .done plain →
      Step tasks state (state.advance thread (.installed .alreadyInstalled))
  /-- A thread that is to parse takes the parser of the slot. -/
  | take {state thread} : (tasks thread).usesEntry = true → state.progress thread = .ready →
      Step tasks state (state.advance thread (.holds state.entry))
  /-- A thread that is to parse as before finds the plain parser in the latch. -/
  | retrieve {state thread text plain} : tasks thread = .parsePlain text →
      state.progress thread = .ready → state.latch = .done plain →
      Step tasks state (state.advance thread (.holds plain))
  /-- A thread that is to parse as before finds no plain parser. -/
  | miss {state thread text} : tasks thread = .parsePlain text →
      state.progress thread = .ready → (∀ plain, state.latch ≠ .done plain) →
      Step tasks state (state.advance thread .unlatched)
  /-- A thread that found no plain parser takes the parser of the slot. -/
  | fallBack {state thread} : state.progress thread = .unlatched →
      Step tasks state (state.advance thread (.holds state.entry))
  /-- A thread calls the parser that it has. -/
  | call {state thread parser text} : state.progress thread = .holds parser →
      (tasks thread).text? = some text →
      Step tasks state (state.advance thread (.parsed parser (parser text)))

/-- Any number of steps. -/
inductive Steps (tasks : Nat → Task) : SharedSlot ε α → SharedSlot ε α → Prop where
  /-- No step. -/
  | refl {state} : Steps tasks state state
  /-- One more step. -/
  | snoc {first middle last} : Steps tasks first middle → Step tasks middle last →
      Steps tasks first last

end SharedSlot

end DotLang
