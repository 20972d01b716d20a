import DotLang.Proofs.Text.Continuation
import DotLang.Slot.Session

/-!
# Sessions on a fresh slot

Every session on a fresh slot is determined by its history: what an operation answers is what the history of
the operations before it says. Preprocessing is put in front of the parser by the first request and never
again, so texts are never stripped twice, and the plain parser is kept as it is.

## Main results

* `Session.step_ofHistory`: what one operation answers and leaves behind.
* `Session.answers_of_fresh_slot`: what every operation of a session answers, and that no operation but the
  first request changes later answers.
-/

namespace DotLang

variable {ε α : Type} (parser : Parser ε α)

namespace Slot

/-- A slot over a parser, with preprocessing or without it. -/
def ofInstalled (parser : Parser ε α) : Bool → Slot ε α
  | false => ofParser parser
  | true => ⟨parser.preprocessed.parse, some parser⟩

variable (installed : Bool)

/-- A slot joins continued lines once preprocessing is installed in it. -/
@[simp]
theorem parse_ofInstalled (text : String) :
    (ofInstalled parser installed).parse text =
      parser (if installed then Continuation.join text else text) := by
  cases installed <;> rfl

/-- A slot used as a parser parses as it does by itself. -/
@[simp]
theorem toParser_ofInstalled (text : String) :
    (ofInstalled parser installed).toParser text = (ofInstalled parser installed).parse text := rfl

/-- The plain parser is the one that the slot held at first, installed preprocessing or not. -/
@[simp]
theorem parsePlain_ofInstalled : (ofInstalled parser installed).parsePlain = parser := by
  cases installed <;> rfl

/-- A slot tells whether preprocessing is installed in it. -/
@[simp]
theorem isInstalled_ofInstalled : (ofInstalled parser installed).isInstalled = installed := by
  cases installed <;> rfl

/-- Installing succeeds once, and leaves preprocessing installed. -/
@[simp]
theorem install_ofInstalled :
    (ofInstalled parser installed).install =
      (if installed then .alreadyInstalled else .installed, ofInstalled parser true) := by
  cases installed <;> rfl

/-- The dump of a slot on one line is what its history shows. -/
@[simp]
theorem compact_dump_ofInstalled (handles : Nat) :
    (ofInstalled parser installed).dump.compact = History.shown ⟨installed, handles⟩ := by
  rw [dump, isInstalled_ofInstalled, Dump.compact, History.shown]
  cases installed <;> simp [Dump.ofBool, Dump.compactChars, Dump.compactMembers]

/-- The dump of a slot on several lines is what its history shows. -/
@[simp]
theorem pretty_dump_ofInstalled (handles : Nat) :
    (ofInstalled parser installed).dump.pretty = History.shownPretty ⟨installed, handles⟩ := by
  rw [dump, isInstalled_ofInstalled, Dump.pretty, History.shownPretty]
  cases installed <;> simp [Dump.ofBool, Dump.prettyAt, Dump.prettyMembers, Dump.newLine]

/-- Of several requests, the first one installs preprocessing unless it is there. -/
@[simp]
theorem installMany_ofInstalled (requests : Nat) :
    Session.installMany (ofInstalled parser installed) requests =
      (if installed then 0 else min 1 requests, ofInstalled parser (installed || requests != 0)) := by
  induction requests generalizing installed with
  | zero => cases installed <;> rfl
  | succ requests ih =>
    simp only [Session.installMany, install_ofInstalled, ih true]
    cases installed <;> simp

end Slot

namespace History

/-- No operations change nothing about a history. -/
@[simp]
theorem append_nil (history : History) : history.append [] = history := by
  simp [append]

/-- Operations are appended one by one. -/
theorem append_cons (history : History) (operation : Operation) (operations : List Operation) :
    history.append (operation :: operations) = (history.append [operation]).append operations := by
  simp [append, List.count_cons, Bool.or_assoc, Nat.add_assoc, Nat.add_comm (List.count _ operations)]

/-- A history of operations and those behind them is that of all of them. -/
theorem append_ofOperations (earlier later : List Operation) :
    (ofOperations earlier).append later = ofOperations (earlier ++ later) := by
  simp [append, ofOperations]

variable {history history' : History}

/-- Two histories give an operation the same answer if they agree on preprocessing, and on handles as far as
the operation concerns them. -/
theorem answer_congr (hinstalled : history'.installed = history.installed) {operation : Operation}
    (hhandles : history'.handles = history.handles ∨
      history.handles ≤ history'.handles ∧ history.Knows operation) :
    history'.answer parser operation = history.answer parser operation := by
  -- Handles and entry point parse alike, as the installation says.
  have hparse : history'.parse parser = history.parse parser := by
    funext text
    rw [parse, parse, hinstalled]
  rcases hhandles with hhandles | ⟨hle, hknows⟩
  · cases operation <;> simp [answer, shown, shownPretty, hparse, hinstalled, hhandles]
  · cases operation with
    | takeHandle => exact hknows.elim
    | callHandle handle text =>
      have hlt : handle < history.handles := hknows
      simp [answer, hparse, hlt, Nat.lt_of_lt_of_le hlt hle]
    | _ => simp [answer, shown, shownPretty, hparse, hinstalled]

end History

namespace Session

/-- The session that a history leaves behind on a slot that held the parser at first. -/
def ofHistory (history : History) : Session ε α :=
  ⟨Slot.ofInstalled parser history.installed, history.handles⟩

/-- A fresh slot has the history of no operations. -/
theorem start_ofParser : start (.ofParser parser) = ofHistory parser (.ofOperations []) := rfl

/-- An operation answers what the history says, and its own effect becomes a part of the history. -/
theorem step_ofHistory (history : History) (operation : Operation) :
    (ofHistory parser history).step operation =
      (history.answer parser operation, ofHistory parser (history.append [operation])) := by
  obtain ⟨installed, handles⟩ := history
  -- Requests to install are the only operations that change the slot, and taking a handle the only one that
  -- changes the number of handles; every other operation leaves the session as it was.
  cases operation with
  | callHandle handle text =>
    by_cases hlt : handle < handles <;>
      simp [step, ofHistory, History.answer, History.append, History.parse, Operation.installs, hlt]
  | parseWrapped text =>
    simp [step, ofHistory, History.answer, History.append, History.parse, Operation.installs,
      Preprocessed.parse_apply]
  | dump =>
    simp [step, ofHistory, History.answer, History.append, Operation.installs,
      Slot.compact_dump_ofInstalled _ _ handles]
  | dumpPretty =>
    simp [step, ofHistory, History.answer, History.append, Operation.installs,
      Slot.pretty_dump_ofInstalled _ _ handles]
  | _ => simp [step, ofHistory, History.answer, History.append, History.parse, Operation.installs]

/-- What operations leave behind is the history that they make. -/
theorem after_ofHistory (history : History) (operations : List Operation) :
    (ofHistory parser history).after operations = ofHistory parser (history.append operations) := by
  induction operations generalizing history with
  | nil => rw [History.append_nil]; rfl
  | cons operation operations ih =>
    rw [after, List.foldl_cons, step_ofHistory, ← after, ih, ← History.append_cons]

/-- After some operations, a fresh slot is as its history says. -/
theorem after_start (operations : List Operation) :
    (start (.ofParser parser)).after operations = ofHistory parser (.ofOperations operations) := by
  rw [start_ofParser, after_ofHistory, History.append_ofOperations, List.nil_append]

/-- The answers of a run are those of its operations, each in the session that the ones before it leave. -/
theorem run_getElem? (session : Session ε α) (operations : List Operation) (index : Nat) :
    (session.run operations)[index]? =
      operations[index]?.map fun operation => ((session.after (operations.take index)).step operation).1 := by
  induction operations generalizing session index with
  | nil => simp [run]
  | cons operation operations ih =>
    cases index with
    | zero => simp [run, after]
    | succ index => simp [run, ih, after]

/-- After some operations, a fresh slot answers the next one as its history says. -/
theorem step_after_start (operations : List Operation) (operation : Operation) :
    (((start (.ofParser parser)).after operations).step operation).1 =
      (History.ofOperations operations).answer parser operation := by
  rw [after_start, step_ofHistory]

/-- On a fresh slot every operation of every session answers what the history of the operations before it
says. No operation but the first request to install changes what a later one answers; a handle that is
taken changes only the numbers of later handles. -/
theorem answers_of_fresh_slot :
    (∀ (operations : List Operation) (index : Nat),
      ((start (.ofParser parser)).run operations)[index]? =
        operations[index]?.map ((History.ofOperations (operations.take index)).answer parser)) ∧
    ∀ (earlier later : List Operation) (operation last : Operation),
      (operation.installs = true → (History.ofOperations earlier).installed = true) →
      (operation = .takeHandle → (History.ofOperations (earlier ++ later)).Knows last) →
      (((start (.ofParser parser)).after (earlier ++ operation :: later)).step last).1 =
        (((start (.ofParser parser)).after (earlier ++ later)).step last).1 := by
  refine ⟨fun operations index => ?_, fun earlier later operation last hkeeps hknows => ?_⟩
  · simp only [run_getElem?, step_after_start]
  · rw [step_after_start, step_after_start]
    -- Leaving out an installation changes nothing only where another one came first.
    have hinstalled : (History.ofOperations (earlier ++ operation :: later)).installed =
        (History.ofOperations (earlier ++ later)).installed := by
      cases hinstalls : operation.installs
      · simp [History.ofOperations, hinstalls]
      · have hany : earlier.any Operation.installs = true := hkeeps hinstalls
        simp [History.ofOperations, hany]
    refine History.answer_congr parser hinstalled ?_
    by_cases htake : operation = .takeHandle
    · refine .inr ⟨?_, hknows htake⟩
      simp [History.ofOperations, htake]
    · exact .inl (by simp [History.ofOperations, htake])

/-- A second request to install changes nothing, not even for a text on which it would show. -/
theorem answers_after_second_install :
    (((start (.ofParser .echo)).after [.install, .install]).step (.parse Continuation.twiceContinued)).1 =
        (((start (.ofParser .echo)).after [.install]).step (.parse Continuation.twiceContinued)).1 ∧
      Continuation.join (Continuation.join Continuation.twiceContinued) ≠
        Continuation.join Continuation.twiceContinued := by
  refine ⟨(answers_of_fresh_slot .echo).2 [.install] [] .install _ (fun _ => rfl) (fun h => nomatch h), ?_⟩
  rw [Continuation.join_join_twiceContinued, Continuation.join_twiceContinued, Ne, String.ofList_inj]
  decide

end Session

end DotLang
