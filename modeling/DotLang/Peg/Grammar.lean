import DotLang.Peg.Expr

/-!
# Grammars

A grammar gives every rule a body and a kind. Reading a text by a rule means reading its body, where
the calls in it read by the rules they name. Rules call one another without end only if one calls
itself before anything is read; a bound on the depth of calls, which no grammar without such rules
ever reaches, makes the definition total.
-/

namespace DotLang.Peg

/-- What a rule makes of its body. -/
inductive Kind where
  /-- The body is read as the caller reads, and the rule is recorded. -/
  | branch
  /-- The body is read without layout and without recording rules; the rule itself is recorded. -/
  | token
  /-- The body is read without layout, and the rule and those it calls are recorded. -/
  | tight
  /-- The body is read as the caller reads, and the rule is not recorded. -/
  | silent
  /-- The body is read without layout and nothing is recorded. -/
  | layout
deriving DecidableEq

/-- A rule's kind and body. -/
structure Production (R : Type) where
  /-- What the rule makes of its body. -/
  kind : Kind
  /-- What the rule reads. -/
  body : Expr R

/-- Productions for all rules, and the layout between the members of spaced sequences. -/
structure Grammar (R : Type) where
  /-- The production of a rule. -/
  production : R → Production R
  /-- What may stand between the members of a sequence; it is read in atomic mode. -/
  layout : Expr R
  /-- The number of rules. -/
  size : Nat

variable {R : Type}

/-- Records a rule that was tried at a cursor: a match becomes the rule's tree, and a failure is noted.
In atomic mode nothing is recorded. -/
def Reply.record (rule : R) (mode : Mode) (cursor : Cursor) (reply : Reply R) : Reply R :=
  if mode = .atomic then reply
  else match reply.found with
    | some found =>
      ⟨some ⟨found.text, [.node rule cursor.offset found.text found.trees], found.next⟩,
        reply.attempts⟩
    | none => ⟨none, reply.attempts.ofRule rule cursor.offset⟩

/-- What a rule of this kind reads, given how its body is read. -/
def Kind.read (kind : Kind) (rule : R) (body : Phrase R) : Phrase R := fun mode cursor =>
  match kind with
  | .branch => (body mode cursor).record rule mode cursor
  | .token => (body .atomic cursor).record rule mode cursor
  | .tight => (body .tight cursor).record rule .tight cursor
  | .silent => body mode cursor
  | .layout => body .atomic cursor

namespace Grammar

/-- The layout at a cursor, given what the rules read. Outside spaced mode there is none. -/
def gap (g : Grammar R) (call : R → Phrase R) (mode : Mode) (cursor : Cursor) : Match R :=
  if mode = .spaced then
    ((g.layout.run (fun _ => .empty) call .atomic cursor).found).getD (.empty cursor)
  else .empty cursor

/-- What a rule reads when calls go at most so deep. -/
def phraseWithin (g : Grammar R) : Nat → R → Phrase R
  | 0, _ => fun _ _ => .fail
  | depth + 1, rule =>
    let production := g.production rule
    production.kind.read rule
      (production.body.run (g.gap (g.phraseWithin depth)) (g.phraseWithin depth))

/-- A depth that calls never reach in a text with so many characters left, as long as no rule calls
itself before anything is read. -/
def depth (g : Grammar R) (cursor : Cursor) : Nat :=
  (g.size + 1) * (cursor.rest.length + 1)

/-- What a rule reads. -/
def phrase (g : Grammar R) (rule : R) : Phrase R := fun mode cursor =>
  g.phraseWithin (g.depth cursor) rule mode cursor

/-- What a rule reads at the start of a text. -/
def parse (g : Grammar R) (rule : R) (text : List Char) : Reply R :=
  g.phrase rule .spaced (.start text)

end Grammar

end DotLang.Peg
