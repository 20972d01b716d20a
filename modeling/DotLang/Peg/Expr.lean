import DotLang.Peg.Reply

/-!
# Parsing expressions

The bodies of grammar rules, and what they read. Choice is ordered, and a repetition never gives back
a round that it has read. In `spaced` mode, layout is read between the members of a sequence and
between the rounds of a repetition, but neither before the first nor after the last.
-/

namespace DotLang.Peg

/-- A parsing expression over the rules `R`. -/
inductive Expr (R : Type) where
  /-- Reads nothing, at the very start of the text. -/
  | start
  /-- Reads exactly these characters. -/
  | literal (text : List Char)
  /-- Reads these characters in any mixture of ASCII upper and lower case. -/
  | caseless (text : List Char)
  /-- Reads one character of a class. -/
  | char (accepts : Char → Bool)
  /-- Reads one expression, then another. -/
  | seq (first second : Expr R)
  /-- Reads the first expression, or the second one where the first fails. -/
  | alt (first second : Expr R)
  /-- Reads the expression, or nothing. -/
  | opt (body : Expr R)
  /-- Reads the expression as often as it can. -/
  | star (body : Expr R)
  /-- Reads nothing, where the expression would fail. -/
  | not (body : Expr R)
  /-- Reads what a rule reads. -/
  | call (rule : R)

namespace Expr

variable {R : Type}

/-- Reads the expression as often as it can, at least once. -/
def plus (body : Expr R) : Expr R := seq body (star body)

/-- Reads the expressions one after the other. -/
def all : List (Expr R) → Expr R
  | [] => literal []
  | [e] => e
  | e :: es => seq e (all es)

/-- Reads the first of the expressions that does not fail. -/
def any : List (Expr R) → Expr R
  | [] => char fun _ => false
  | [e] => e
  | e :: es => alt e (any es)

end Expr

/-- How layout is treated and which rules are recorded. -/
inductive Mode where
  /-- Layout is skipped between members; rules are recorded. -/
  | spaced
  /-- Layout is not skipped; rules are recorded. -/
  | tight
  /-- Layout is not skipped; rules are not recorded, neither their matches nor their failures. -/
  | atomic
deriving DecidableEq

/-- A way to read a text at a cursor. -/
abbrev Phrase (R : Type) := Mode → Cursor → Reply R

variable {R : Type}

/-- The match of a text that begins what is left at the cursor; `same` compares its characters with
those that are there. -/
def matchText (same : Char → Char → Bool) : List Char → Cursor → Option (Match R)
  | [], cursor => some (.empty cursor)
  | _ :: _, ⟨_, []⟩ => none
  | c :: cs, ⟨offset, d :: ds⟩ =>
    if same c d then
      (matchText same cs (Cursor.next ⟨offset, d :: ds⟩)).map fun found =>
        { found with text := d :: found.text }
    else none

/-- Rounds of `step`, as many as succeed and read something. The list bounds their number: a round
that reads something leaves fewer characters than there were. -/
def roundsWithin (step : Cursor → Reply R) : List Char → Cursor → Reply R
  | [], cursor => ⟨some (.empty cursor), (step cursor).attempts⟩
  | _ :: bound, cursor =>
    let round := step cursor
    match round.found with
    | none => round.orEmpty cursor
    | some found =>
      -- A round that reads nothing would be repeated for ever.
      if found.text.isEmpty then ⟨some (.empty cursor), round.attempts⟩
      else round.andThen fun found => roundsWithin step bound found.next

/-- Rounds of `step`, as many as succeed and read something. -/
def rounds (step : Cursor → Reply R) (cursor : Cursor) : Reply R :=
  roundsWithin step cursor.rest cursor

namespace Expr

/-- What an expression reads, given what layout there is at a cursor and what the rules read. -/
def run (layout : Mode → Cursor → Match R) (call : R → Phrase R) : Expr R → Phrase R
  | .start, _, cursor => if cursor.offset = 0 then .ok (.empty cursor) else .fail
  | .literal text, _, cursor => ⟨matchText (· == ·) text cursor, .none⟩
  | .caseless text, _, cursor =>
    ⟨matchText (fun c d => c.toLower == d.toLower) text cursor, .none⟩
  | .char accepts, _, cursor =>
    match cursor.rest with
    | [] => .fail
    | c :: _ => if accepts c then .ok ⟨[c], [], cursor.next⟩ else .fail
  | .seq first second, mode, cursor =>
    (first.run layout call mode cursor).andThen fun found =>
      -- Layout stands between the members, not before the first one.
      (Reply.ok (layout mode found.next)).andThen fun gap =>
        second.run layout call mode gap.next
  | .alt first second, mode, cursor =>
    (first.run layout call mode cursor).orElse fun _ => second.run layout call mode cursor
  | .opt body, mode, cursor => (body.run layout call mode cursor).orEmpty cursor
  | .star body, mode, cursor =>
    ((body.run layout call mode cursor).andThen fun found =>
      rounds (fun place =>
        (Reply.ok (layout mode place)).andThen fun gap =>
          body.run layout call mode gap.next) found.next).orEmpty cursor
  -- Looking ahead reads nothing and leaves no attempts.
  | .not body, mode, cursor =>
    match (body.run layout call mode cursor).found with
    | some _ => .fail
    | none => .ok (.empty cursor)
  | .call rule, mode, cursor => call rule mode cursor

end Expr

end DotLang.Peg
