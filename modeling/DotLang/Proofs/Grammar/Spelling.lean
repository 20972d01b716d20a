import DotLang.Proofs.Grammar.Terminal
import DotLang.Proofs.Peg.Induction

/-!
# Trees and the tokens that spell them

Above the terminals, a match of the grammar reads tokens one after the other, and layout between them. What
its trees have to do with these tokens can be told from the bodies of the rules alone: a relation between
trees and tokens holds of all that the grammar finds if every rule's body keeps it (`spelled_of_find`).
-/

namespace DotLang

open Peg Token

namespace Rule

/-- Whether a rule reads tokens by other rules, or by marks. -/
def isNonterminal : Rule → Bool
  | graph | stmtList | stmt | attrStmt | edgeStmt | edgeOperand | assignment | nodeStmt => true
  | nodeId | port | subgraph | attrList | attr | id | quotedConcat => true
  | _ => false

end Rule

namespace Grammar

/-- A separator and the attribute behind it, in the body of an attribute list. -/
def another : Expr Rule := .all [.opt (.any [mark ',', mark ';']), .call .attr]

/-- One bracketed group of an attribute list. -/
def group : Expr Rule := .all [mark '[', .opt (.all [.call .attr, .star another]), mark ']']

/-- The statements of a graph or subgraph between their braces. -/
def braces : Expr Rule := .all [mark '{', .call .stmtList, mark '}']

/-- An edge operator and the operand behind it. -/
def link : Expr Rule := .all [.call .edgeOp, .call .edgeOperand]

/-- A relation between trees and the tokens that spell them. -/
abbrev Spelling := List (ParseTree Rule) → List Token → Prop

/-- Any number of rounds, each of which spells trees by tokens. -/
inductive Repeats (W : Spelling) : Spelling where
  | nil : Repeats W [] []
  | cons {trees trees' : List (ParseTree Rule)} {tokens tokens' : List Token} :
      W trees tokens → Repeats W trees' tokens' → Repeats W (trees ++ trees') (tokens ++ tokens')

/-- Some trees and more behind them, spelled by tokens and more behind those. -/
def Follows (W W' : Spelling) : Spelling := fun trees tokens =>
  ∃ trees₁ trees₂ tokens₁ tokens₂, trees = trees₁ ++ trees₂ ∧ tokens = tokens₁ ++ tokens₂ ∧
    W trees₁ tokens₁ ∧ W' trees₂ tokens₂

/-- One round and more of them behind it are rounds. -/
theorem Repeats.of_follows {W : Spelling} {trees : List (ParseTree Rule)} {tokens : List Token}
    (h : Follows W (Repeats W) trees tokens) : Repeats W trees tokens := by
  obtain ⟨trees₁, trees₂, tokens₁, tokens₂, rfl, rfl, hfirst, hrest⟩ := h
  exact .cons hfirst hrest

/-- How an expression spells trees by tokens, given how the rules do. -/
def Spells (S : Rule → Spelling) : Expr Rule → Spelling
  | .literal text => fun trees tokens => trees = [] ∧ ∃ c, text = [c] ∧ tokens = [.mark c]
  | .seq first second => Follows (Spells S first) (Spells S second)
  | .alt first second => fun trees tokens => Spells S first trees tokens ∨ Spells S second trees tokens
  | .opt body => fun trees tokens => Spells S body trees tokens ∨ trees = [] ∧ tokens = []
  | .star body => Repeats (Spells S body)
  | .call rule => S rule
  -- Expressions over characters spell no tokens.
  | _ => fun _ _ => False

/-- Whether all marks in an expression and all rules that it calls have a property. -/
def usesOnly (mark : Char → Bool) (call : Rule → Bool) : Expr Rule → Bool
  | .literal [c] => mark c
  | .seq first second | .alt first second => usesOnly mark call first && usesOnly mark call second
  | .opt body | .star body => usesOnly mark call body
  | .call rule => call rule
  | _ => true

/-- A relation that is kept by putting one thing behind another holds of all that is spelled if it holds of the
marks and of what the rules spell, as far as the expression has these marks and calls these rules. -/
theorem combined_of_usesOnly {S : Rule → Spelling} {W : Spelling} {mark : Char → Bool} {call : Rule → Bool}
    (hnil : W [] []) (hmark : ∀ c, mark c = true → W [] [.mark c])
    (happend : ∀ {trees trees' tokens tokens'}, W trees tokens → W trees' tokens' →
      W (trees ++ trees') (tokens ++ tokens'))
    (hcall : ∀ {rule trees tokens}, call rule = true → S rule trees tokens → W trees tokens) {e : Expr Rule}
    (he : usesOnly mark call e = true) {trees : List (ParseTree Rule)} {tokens : List Token}
    (h : Spells S e trees tokens) : W trees tokens := by
  induction e generalizing trees tokens with
  | literal text =>
    obtain ⟨rfl, c, rfl, rfl⟩ := h
    exact hmark c he
  | seq first second ihfirst ihsecond =>
    rw [usesOnly, Bool.and_eq_true] at he
    obtain ⟨_, _, _, _, rfl, rfl, hfirst, hsecond⟩ := h
    exact happend (ihfirst he.1 hfirst) (ihsecond he.2 hsecond)
  | alt first second ihfirst ihsecond =>
    rw [usesOnly, Bool.and_eq_true] at he
    exact h.elim (ihfirst he.1) (ihsecond he.2)
  | opt body ih =>
    rcases h with h | ⟨rfl, rfl⟩
    · exact ih he h
    · exact hnil
  | star body ih =>
    -- The expression is fixed here: a second induction goes over its rounds.
    have hrounds : Repeats (Spells S body) trees tokens := h
    induction hrounds with
    | nil => exact hnil
    | cons hround _ ihrounds => exact happend (ih he hround) (ihrounds ‹_›)
  | call rule => exact hcall he h
  | start | caseless | char | not => exact h.elim

/-- A property of trees that is kept by putting trees together holds of all that an expression spells if it holds of
what is spelled by the rules that the expression calls. -/
theorem holds_of_usesOnly {S : Rule → Spelling} (P : List (ParseTree Rule) → Prop) (call : Rule → Bool)
    (hnil : P []) (happend : ∀ {trees trees'}, P trees → P trees' → P (trees ++ trees'))
    (hcall : ∀ {rule trees tokens}, call rule = true → S rule trees tokens → P trees) {e : Expr Rule}
    (he : usesOnly (fun _ => true) call e = true) {trees : List (ParseTree Rule)} {tokens : List Token}
    (h : Spells S e trees tokens) : P trees :=
  combined_of_usesOnly (W := fun trees _ => P trees) hnil (fun _ _ => hnil) happend hcall he h

/-- Every expression uses only what passes tests that nothing fails. -/
theorem usesOnly_true (e : Expr Rule) : usesOnly (fun _ => true) (fun _ => true) e = true := by
  induction e with
  | seq first second ihfirst ihsecond | alt first second ihfirst ihsecond =>
    rw [usesOnly, ihfirst, ihsecond, Bool.and_self]
  | opt body ih | star body ih => rwa [usesOnly]
  | literal text => rcases text with _ | ⟨c, _ | ⟨d, text⟩⟩ <;> rfl
  | call | start | caseless | char | not => rfl

/-- A relation that holds of marks, and is kept by putting one thing behind another, holds of all that is
spelled if it holds of what the rules spell. -/
theorem combined_of_spells {S : Rule → Spelling} {W : Spelling} (hnil : W [] [])
    (hmark : ∀ c, W [] [.mark c])
    (happend : ∀ {trees trees' tokens tokens'}, W trees tokens → W trees' tokens' →
      W (trees ++ trees') (tokens ++ tokens'))
    (hcall : ∀ {rule trees tokens}, S rule trees tokens → W trees tokens) {e : Expr Rule}
    {trees : List (ParseTree Rule)} {tokens : List Token} (h : Spells S e trees tokens) :
    W trees tokens :=
  combined_of_usesOnly hnil (fun c _ => hmark c) happend (fun _ => hcall) (usesOnly_true e) h

/-- Whether an expression reads tokens only. -/
def overTokens : Expr Rule → Bool
  | .literal [c] => c ∈ marks
  | .seq first second | .alt first second => overTokens first && overTokens second
  | .opt body | .star body => overTokens body
  | .call rule => rule.isTerminal || rule.isNonterminal
  | _ => false

/-- The only literals above the terminals are marks. -/
theorem exists_mark_of_overTokens {text : List Char} (h : overTokens (.literal text) = true) :
    ∃ c, text = [c] ∧ c ∈ marks := by
  rcases text with _ | ⟨c, _ | ⟨d, text⟩⟩ <;> simp_all [overTokens]

/-- The rules for more than one token are made of marks and calls. -/
theorem overTokens_production {rule : Rule} (h : rule.isNonterminal = true) :
    overTokens (production rule).body = true := by
  revert h
  cases rule <;> decide

/-- The tokens up to a match spell the match, and the other tokens are those behind it. -/
def Spelled (W : Spelling) (cursor : Cursor) (found : Match Rule) : Prop :=
  ∃ tokens, lex cursor.rest = (lex found.next.rest).map (tokens ++ ·) ∧ W found.trees tokens

variable {W W' : Spelling} {cursor : Cursor} {found later : Match Rule}

/-- Nothing is spelled by no tokens. -/
theorem Spelled.empty (h : W [] []) : Spelled W cursor (.empty cursor) :=
  ⟨[], by simp, h⟩

/-- What is spelled has every weaker property. -/
theorem Spelled.imp (h : Spelled W cursor found) (himp : ∀ trees tokens, W trees tokens → W' trees tokens) :
    Spelled W' cursor found := by
  obtain ⟨tokens, hlex, hspells⟩ := h
  exact ⟨tokens, hlex, himp _ _ hspells⟩

/-- What may be nothing is spelled if it is spelled wherever it is something. -/
theorem Spelled.getD {found : Option (Match Rule)} (h : ∀ inner, found = some inner → Spelled W cursor inner)
    (hempty : W [] []) : Spelled W cursor (found.getD (.empty cursor)) := by
  rcases found with _ | inner
  · exact .empty hempty
  · exact h inner rfl

/-- Two matches, the second behind the layout, are spelled by the tokens of both. -/
theorem Spelled.append (h : Spelled W cursor found) (h' : Spelled W' found.next later) :
    Spelled (Follows W W') cursor (found.append later) := by
  obtain ⟨tokens, hlex, hspells⟩ := h
  obtain ⟨tokens', hlex', hspells'⟩ := h'
  refine ⟨tokens ++ tokens', ?_, _, _, _, _, rfl, rfl, hspells, hspells'⟩
  -- The tokens behind the first match are those of the second one and of what is left.
  rw [hlex, hlex', Option.map_map, Match.append_next]
  congr 1
  funext
  simp

/-- Layout before a match makes no difference to what spells it. -/
theorem Spelled.gap (h : Spelled W (gap cursor).next found) : Spelled W cursor ((gap cursor).append found) := by
  obtain ⟨tokens, hlex, hspells⟩ := h
  refine ⟨tokens, ?_, ?_⟩
  · rw [← lex_gap cursor, hlex, Match.append_next]
  · simpa using hspells

/-- Rounds are spelled one after the other. -/
theorem spelled_roundsWithin {step : Cursor → Reply Rule}
    (hstep : ∀ {place round}, (step place).found = some round → Spelled W place round) :
    ∀ {bound : List Char} {cursor : Cursor} {found : Match Rule},
      (roundsWithin step bound cursor).found = some found → Spelled (Repeats W) cursor found
  | [], cursor, found, h => by
    obtain rfl : Match.empty cursor = found := by simpa [roundsWithin] using h
    exact .empty .nil
  | _ :: bound, cursor, found, h => by
    rcases roundsWithin_found_cases h with rfl | ⟨round, later, hround, hlater, rfl⟩
    · exact .empty .nil
    · exact ((hstep hround).append (spelled_roundsWithin hstep hlater)).imp fun _ _ => .of_follows

/-- What an expression finds is spelled as its body says, given that this holds of calls. -/
theorem spelled_of_run {S : Rule → Spelling} {call : Rule → Phrase Rule}
    (hcall : ∀ {rule cursor found}, (rule.isTerminal || rule.isNonterminal) = true →
      Settled cursor.rest → (call rule .spaced cursor).found = some found →
      Spelled (S rule) cursor found)
    (e : Expr Rule) (he : overTokens e = true) {cursor : Cursor} {found : Match Rule}
    (hcursor : Settled cursor.rest)
    (h : (e.run (grammar.gap grammar.phrase) call .spaced cursor).found = some found) :
    Spelled (Spells S e) cursor found := by
  induction e generalizing cursor found with
  | literal text =>
    obtain ⟨c, rfl, hc⟩ := exists_mark_of_overTokens he
    have hfind : find (mark c) .spaced ⟨cursor.offset, cursor.rest⟩ = some found := h
    obtain ⟨rest, htake, rfl⟩ := (find_mark hc).1 hfind
    exact ⟨[.mark c], lex_of_take? hcursor htake, rfl, c, rfl, rfl⟩
  | seq first second ihfirst ihsecond =>
    simp only [overTokens, Bool.and_eq_true] at he
    simp only [Expr.run, Reply.found_andThen, Reply.found_ok, Option.bind_some, Option.map_map,
      Option.bind_eq_some_iff, Option.map_eq_some_iff] at h
    obtain ⟨inner, hinner, later, hlater, rfl⟩ := h
    exact (ihfirst he.1 hcursor hinner).append (ihsecond he.2 (settled_gap _) hlater).gap
  | alt first second ihfirst ihsecond =>
    simp only [overTokens, Bool.and_eq_true] at he
    simp only [Expr.run, Reply.found_orElse, Option.or_eq_some_iff] at h
    rcases h with h | ⟨-, h⟩
    · exact (ihfirst he.1 hcursor h).imp fun _ _ => .inl
    · exact (ihsecond he.2 hcursor h).imp fun _ _ => .inr
  | opt body ih =>
    simp only [Expr.run, Reply.found_orEmpty, Option.some.injEq] at h
    exact h ▸ .getD (fun inner hinner => (ih he hcursor hinner).imp fun _ _ => .inl) (.inr ⟨rfl, rfl⟩)
  | star body ih =>
    rcases Expr.run_star_cases h with rfl | ⟨first, later, hfirst, hlater, rfl⟩
    · exact .empty .nil
    -- Each further round is layout, which settles the text, and a match of the body behind it.
    have hround : ∀ {place round}, ((Reply.ok (gap place)).andThen fun layout =>
        body.run (grammar.gap grammar.phrase) call .spaced layout.next).found = some round →
        Spelled (Spells S body) place round := by
      intro place round hround
      simp only [Reply.found_andThen, Reply.found_ok, Option.bind_some, Option.map_eq_some_iff] at hround
      obtain ⟨last, hlast, rfl⟩ := hround
      exact (ih he (settled_gap place) hlast).gap
    exact ((ih he hcursor hfirst).append (spelled_roundsWithin hround hlater)).imp
      fun _ _ => .of_follows
  | call rule => exact hcall he hcursor h
  | start | caseless | char | not => simp [overTokens] at he

/-- A relation that every rule's body keeps, in the grammar of DOT above the terminals. -/
structure Closed (S : Rule → Spelling) : Prop where
  /-- The tree of a terminal is spelled by its token. -/
  terminal : ∀ {rule : Rule} {token : Token}, rule.isTerminal = true → rule.accepts token = true →
    ∀ offset, S rule [rule.leaf offset token] [token]
  /-- The tree of a recorded rule is spelled as its body is. -/
  branch : ∀ {rule : Rule} {trees : List (ParseTree Rule)} {tokens : List Token},
    rule.isNonterminal = true → (production rule).kind = .branch →
    Spells S (production rule).body trees tokens → ∀ offset text, S rule [.node rule offset text trees] tokens
  /-- A rule that is not recorded is spelled as its body is. -/
  silent : ∀ {rule : Rule} {trees : List (ParseTree Rule)} {tokens : List Token},
    rule.isNonterminal = true → (production rule).kind = .silent →
    Spells S (production rule).body trees tokens → S rule trees tokens

/-- The rules for more than one token leave a tree or are silent. -/
theorem kind_of_isNonterminal {rule : Rule} (h : rule.isNonterminal = true) :
    (production rule).kind = .branch ∨ (production rule).kind = .silent := by
  revert h
  cases rule <;> decide

/-- Above the terminals only statements and operands of edges are silent. -/
theorem eq_of_isNonterminal_silent {rule : Rule} (h : rule.isNonterminal = true)
    (hkind : (production rule).kind = .silent) : rule = .stmt ∨ rule = .edgeOperand := by
  revert h hkind
  cases rule <;> decide

/-- What the grammar finds above the terminals is spelled by tokens, in every way that the bodies of its
rules keep. -/
theorem spelled_of_find {S : Rule → Spelling} (hS : Closed S) {rule : Rule}
    (hrule : (rule.isTerminal || rule.isNonterminal) = true) {cursor : Cursor} {found : Match Rule}
    (hcursor : Settled cursor.rest) (h : find (.call rule) .spaced cursor = some found) :
    Spelled (S rule) cursor found := by
  refine Peg.Grammar.phrase_induction (P := fun rule mode cursor found =>
      (rule.isTerminal || rule.isNonterminal) = true → mode = .spaced → Settled cursor.rest →
        Spelled (S rule) cursor found) grammar_ranked ?_ rule .spaced cursor found h hrule rfl hcursor
  rintro call hcall rule _ cursor found hphrase hread hrule rfl hcursor
  -- A terminal is its token whatever its body is; the body of any other rule is read by calls.
  rcases hterminal : rule.isTerminal with _ | _
  · have hrule : rule.isNonterminal = true := by simpa [hterminal] using hrule
    have hbody : ∀ {inner}, ((production rule).body.run (grammar.gap grammar.phrase) call .spaced
        cursor).found = some inner → Spelled (Spells S (production rule).body) cursor inner :=
      spelled_of_run (fun {head place inner} hhead hplace hinner =>
        (hcall head .spaced place inner hinner).2 hhead rfl hplace) _ (overTokens_production hrule) hcursor
    rcases kind_of_isNonterminal hrule with hkind | hkind
    · rw [show (grammar.production rule).kind = .branch from hkind, Kind.read,
        Reply.found_record (by decide), Option.map_eq_some_iff] at hread
      obtain ⟨inner, hinner, rfl⟩ := hread
      obtain ⟨tokens, hlex, hspells⟩ := hbody hinner
      exact ⟨tokens, hlex, hS.branch hrule hkind hspells _ _⟩
    · rw [show (grammar.production rule).kind = .silent from hkind] at hread
      exact (hbody hread).imp fun _ _ => hS.silent hrule hkind
  · obtain ⟨token, rest, htake, haccept, rfl⟩ :=
      (find_terminal hterminal cursor.offset cursor.rest found).1 hphrase
    exact ⟨[token], lex_of_take? hcursor htake, hS.terminal hterminal haccept _⟩

end Grammar

end DotLang
