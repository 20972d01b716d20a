import DotLang.Proofs.Grammar.Expectation
import DotLang.Proofs.Grammar.Spelling
import DotLang.Proofs.Token.Between

/-!
# Tokens up to a failure

Where a rule fails while the grammar reads a text, tokens have been passed up to this place, and the
expression that was being read can begin with them (`traces_phrase`). This holds on every path that the
grammar tries, also on those that it gives up: each of them is a part of a derivation, in which what is still
missing can be filled in, since every rule can be spelled by some tokens (`begun_rule`).
-/

namespace DotLang.Grammar

open Peg Token

/-! ## Places -/

/-- Tokens and layout lie between two places of one text. -/
structure Passes (tokens : List Token) (cursor place : Cursor) : Prop where
  /-- The tokens are those that lie between what is left at the two places. -/
  between : Between tokens cursor.rest place.rest
  /-- Both places are in the same text, which ends at the same offset. -/
  stop_eq : place.offset + Text.byteLength place.rest = cursor.offset + Text.byteLength cursor.rest

variable {tokens tokens' : List Token} {cursor place later : Cursor}

/-- Nothing is passed without going on. -/
theorem Passes.refl (cursor : Cursor) : Passes [] cursor cursor :=
  ⟨.nil, rfl⟩

/-- What is passed first and what is passed then are passed together. -/
theorem Passes.trans (h : Passes tokens cursor place) (h' : Passes tokens' place later) :
    Passes (tokens ++ tokens') cursor later :=
  ⟨h.between.trans h'.between, h'.stop_eq.trans h.stop_eq⟩

/-- A match does not change where the text ends. -/
theorem stop_eq_of_startsAt {found : Match Rule} (h : found.StartsAt cursor) :
    found.next.offset + Text.byteLength found.next.rest = cursor.offset + Text.byteLength cursor.rest := by
  rw [h.1, h.2, Text.byteLength_append, Nat.add_assoc]

/-- Layout has no tokens to be passed. -/
theorem passes_gap (cursor : Cursor) : Passes [] cursor (gap cursor).next :=
  ⟨between_of_behind (behind_gap cursor), stop_eq_of_startsAt (gap_startsAt cursor)⟩

/-- Where no layout is left, no byte order mark is next. -/
theorem Settled.head_ne {cs : List Char} (h : Settled cs) : cs.head? ≠ some '\uFEFF' := by
  rcases h with h | ⟨tail, rfl, -⟩
  · exact head?_of_dropLayout h
  · simp

/-! ## What expressions can begin with -/

/-- Tokens with which something can begin: valid tokens behind them complete it. -/
def Begun (W : Spelling) (tokens : List Token) : Prop :=
  ∃ trees more, W trees (tokens ++ more) ∧ ∀ token ∈ more, token.Valid

variable {W W' : Spelling}

/-- What has begun has begun as something of a weaker property. -/
theorem Begun.imp (h : Begun W tokens) (himp : ∀ trees tokens, W trees tokens → W' trees tokens) :
    Begun W' tokens := by
  obtain ⟨trees, more, hspells, hvalid⟩ := h
  exact ⟨trees, more, himp _ _ hspells, hvalid⟩

/-- What is complete has begun. -/
theorem begun_of_spells {trees : List (ParseTree Rule)} (h : W trees tokens) : Begun W tokens :=
  ⟨trees, [], by rwa [List.append_nil], by simp⟩

/-- What has begun can be completed and be followed by something else. -/
theorem Begun.left (h : Begun W tokens) (h' : Begun W' []) : Begun (Follows W W') tokens := by
  obtain ⟨trees, more, hspells, hvalid⟩ := h
  obtain ⟨trees', more', hspells', hvalid'⟩ := h'
  exact ⟨trees ++ trees', more ++ more', ⟨_, _, _, _, rfl, by simp, hspells, hspells'⟩,
    List.forall_mem_append.2 ⟨hvalid, hvalid'⟩⟩

/-- Behind what is complete, something else can begin. -/
theorem Begun.right {trees : List (ParseTree Rule)} (h : W trees tokens) (h' : Begun W' tokens') :
    Begun (Follows W W') (tokens ++ tokens') := by
  obtain ⟨trees', more, hspells, hvalid⟩ := h'
  exact ⟨trees ++ trees', more, ⟨_, _, _, _, rfl, by simp, h, hspells⟩, hvalid⟩

/-! ## Failures -/

/-- Nothing has failed, or what failed furthest was tried behind tokens with which something can begin. -/
def Traced (W : Spelling) (cursor : Cursor) (a : Attempts Rule) : Prop :=
  a = .none ∨ ∃ place tokens, a.offset = place.offset ∧ Passes tokens cursor place ∧ Begun W tokens

variable {a b : Attempts Rule}

/-- What is traced to something begun is traced to every weaker property. -/
theorem Traced.imp (h : Traced W cursor a) (himp : ∀ tokens, Begun W tokens → Begun W' tokens) :
    Traced W' cursor a := by
  rcases h with h | ⟨place, tokens, hoffset, hpasses, hbegun⟩
  · exact .inl h
  · exact .inr ⟨place, tokens, hoffset, hpasses, himp _ hbegun⟩

/-- Failures of two readings are traced if those of each are. -/
theorem Traced.merge (ha : Traced W cursor a) (hb : Traced W cursor b) : Traced W cursor (a.merge b) := by
  rcases ha with rfl | ⟨place, tokens, ha⟩
  · rwa [Attempts.none_merge]
  · rcases hb with rfl | ⟨place', tokens', hb⟩
    · rw [Attempts.merge_none]
      exact .inr ⟨place, tokens, ha⟩
    · refine .inr ?_
      -- The further one of the two is kept, and at one place either will do.
      rw [Attempts.merge]
      split
      · exact ⟨place', tokens', hb⟩
      · split
        · exact ⟨place, tokens, ha⟩
        · exact ⟨place, tokens, ha⟩

/-- What fails behind a match fails behind its tokens too. -/
theorem Traced.behind {trees : List (ParseTree Rule)} (hpasses : Passes tokens cursor place)
    (h : W trees tokens) (hlater : Traced W' place a) : Traced (Follows W W') cursor a := by
  rcases hlater with hnone | ⟨place', tokens', hoffset, hpasses', hbegun⟩
  · exact .inl hnone
  · exact .inr ⟨place', _, hoffset, hpasses.trans hpasses', .right h hbegun⟩

/-- What is traced behind the layout is traced from before it. -/
theorem Traced.gap (h : Traced W (gap cursor).next a) : Traced W cursor a := by
  rcases h with h | ⟨place, tokens, hoffset, hpasses, hbegun⟩
  · exact .inl h
  · exact .inr ⟨place, tokens, hoffset, (passes_gap cursor).trans hpasses, hbegun⟩

/-- A rule that is itself reported was tried at the cursor, where nothing of it has been read. -/
theorem Traced.ofRule (h : Traced W cursor a) (hstart : Begun W []) (rule : Rule) :
    Traced W cursor (a.ofRule rule cursor.offset) := by
  rcases Attempts.ofRule_cases rule cursor.offset a with ⟨hkept, -⟩ | hreported
  · rwa [hkept]
  · exact .inr ⟨cursor, [], by rw [hreported], .refl cursor, hstart⟩

/-! ## Replies -/

/-- What is found is spelled by the tokens that are passed, and what fails is traced. -/
structure Traces (W : Spelling) (reply : Reply Rule) (cursor : Cursor) : Prop where
  /-- What is found. -/
  found : ∀ found, reply.found = some found → ∃ tokens, Passes tokens cursor found.next ∧ W found.trees tokens
  /-- What has failed furthest. -/
  failed : Traced W cursor reply.attempts

section

variable {reply : Reply Rule} {other : Unit → Reply Rule} {following : Match Rule → Reply Rule}

/-- What is traced is traced with every weaker property. -/
theorem Traces.imp (h : Traces W reply cursor) (himp : ∀ trees tokens, W trees tokens → W' trees tokens) :
    Traces W' reply cursor := by
  refine ⟨fun found hfound => ?_, h.failed.imp fun _ hbegun => hbegun.imp himp⟩
  obtain ⟨tokens, hpasses, hspells⟩ := h.found found hfound
  exact ⟨tokens, hpasses, himp _ _ hspells⟩

/-- A reading and another one behind it are traced, if each of them is and the second may not have begun. -/
theorem Traces.andThen (h : Traces W reply cursor) (hstart : Begun W' [])
    (hlater : ∀ found, reply.found = some found → Traces W' (following found) found.next) :
    Traces (Follows W W') (reply.andThen following) cursor := by
  rcases hfound : reply.found with _ | first
  · refine ⟨fun found hnone => by simp [hfound] at hnone, ?_⟩
    rw [Reply.attempts_andThen_of_not_found hfound]
    exact h.failed.imp fun _ hbegun => hbegun.left hstart
  · obtain ⟨tokens, hpasses, hspells⟩ := h.found first hfound
    -- The attempts of the second part come behind the tokens of the first one.
    have hsecond := hlater first hfound
    refine ⟨fun found hsome => ?_, ?_⟩
    · rw [Reply.found_andThen, hfound, Option.bind_some, Option.map_eq_some_iff] at hsome
      obtain ⟨second, hmore, rfl⟩ := hsome
      obtain ⟨tokens', hpasses', hspells'⟩ := hsecond.found second hmore
      exact ⟨_, hpasses.trans hpasses', _, _, _, _, rfl, rfl, hspells, hspells'⟩
    · rw [Reply.attempts_andThen_of_found hfound]
      exact (h.failed.imp fun _ hbegun => hbegun.left hstart).merge (hsecond.failed.behind hpasses hspells)

/-- Layout may be skipped first. -/
theorem Traces.gap (h : Traces W (following (gap cursor)) (gap cursor).next) :
    Traces W ((Reply.ok (gap cursor)).andThen following) cursor := by
  refine ⟨fun found hfound => ?_, ?_⟩
  · rw [Reply.found_andThen, Reply.found_ok, Option.bind_some, Option.map_eq_some_iff] at hfound
    obtain ⟨inner, hinner, rfl⟩ := hfound
    obtain ⟨tokens, hpasses, hspells⟩ := h.found inner hinner
    exact ⟨tokens, (passes_gap cursor).trans hpasses, by simpa using hspells⟩
  -- Layout that is found has tried nothing.
  · rw [Reply.attempts_ok_andThen]
    exact h.failed.gap

/-- A choice is traced if both of its alternatives are. -/
theorem Traces.orElse (h : Traces W reply cursor) (h' : Traces W' (other ()) cursor) :
    Traces (fun trees tokens => W trees tokens ∨ W' trees tokens) (reply.orElse other) cursor := by
  have hfirst : Traces (fun trees tokens => W trees tokens ∨ W' trees tokens) reply cursor :=
    h.imp fun _ _ => .inl
  have hsecond : Traces (fun trees tokens => W trees tokens ∨ W' trees tokens) (other ()) cursor :=
    h'.imp fun _ _ => .inr
  -- The second choice is tried only where the first one fails, but attempts of both count then.
  rcases hfound : reply.found with _ | found
  · refine ⟨fun found hsome => hsecond.found found ?_, ?_⟩
    · rwa [Reply.found_orElse, hfound, Option.none_or] at hsome
    · rw [Reply.attempts_orElse_of_not_found hfound]
      exact hfirst.failed.merge hsecond.failed
  · refine ⟨fun found hsome => hfirst.found found ?_, ?_⟩
    · rwa [Reply.found_orElse, hfound, Option.some_or, ← hfound] at hsome
    · rw [Reply.attempts_orElse_of_found hfound]
      exact hfirst.failed

/-- What may be nothing is spelled by no tokens where it is nothing. -/
theorem Traces.orEmpty (h : Traces W reply cursor) (hnil : W [] []) : Traces W (reply.orEmpty cursor) cursor := by
  refine ⟨fun found hfound => ?_, h.failed⟩
  rw [Reply.found_orEmpty, Option.some.injEq] at hfound
  subst hfound
  rcases hreply : reply.found with _ | inner
  · exact ⟨[], .refl cursor, hnil⟩
  · exact h.found inner hreply

/-- Recording a rule keeps the trace, with the rule in place of its body. -/
theorem Traces.record (h : Traces W reply cursor) (hstart : Begun W' []) {rule : Rule} {mode : Mode}
    (hmode : mode ≠ .atomic)
    (htree : ∀ {trees tokens} offset text, W trees tokens → W' [.node rule offset text trees] tokens) :
    Traces W' (reply.record rule mode cursor) cursor := by
  -- What is begun with the parts is begun with the tree that holds them.
  have hfailed : Traced W' cursor reply.attempts := h.failed.imp fun tokens hbegun => by
    obtain ⟨trees, more, hspells, hvalid⟩ := hbegun
    exact ⟨_, more, htree 0 [] hspells, hvalid⟩
  refine ⟨fun found hfound => ?_, ?_⟩
  · rw [Reply.found_record hmode, Option.map_eq_some_iff] at hfound
    obtain ⟨inner, hinner, rfl⟩ := hfound
    obtain ⟨tokens, hpasses, hspells⟩ := h.found inner hinner
    exact ⟨tokens, hpasses, htree _ _ hspells⟩
  · rcases hreply : reply.found with _ | inner
    · rw [Reply.attempts_record_of_not_found hreply _ hmode]
      exact hfailed.ofRule hstart rule
    · rw [Reply.attempts_record_of_found hreply]
      exact hfailed

/-- Each round is traced from where the rounds before it have ended. -/
theorem traces_roundsWithin {step : Cursor → Reply Rule} (hstep : ∀ place, Traces W (step place) place) :
    ∀ bound cursor, Traces (Repeats W) (roundsWithin step bound cursor) cursor := by
  have hrepeats : ∀ trees tokens, W trees tokens → Repeats W trees tokens := fun trees tokens h => by
    simpa using Repeats.cons h .nil
  -- A round that fails or reads nothing ends the repetition, and its attempts are kept.
  have hnone : ∀ cursor, Traces (Repeats W) ⟨some (.empty cursor), (step cursor).attempts⟩ cursor :=
    fun cursor => ⟨fun _ h => ⟨[], Option.some.inj h ▸ .refl cursor, Option.some.inj h ▸ .nil⟩,
      ((hstep cursor).imp hrepeats).failed⟩
  intro bound
  induction bound with
  | nil => exact hnone
  | cons _ bound ih =>
    intro cursor
    rw [roundsWithin]
    split
    · exact ((hstep cursor).imp hrepeats).orEmpty .nil
    · split
      · exact hnone cursor
      · exact ((hstep cursor).andThen (begun_of_spells .nil) fun found _ => ih found.next).imp
          fun _ _ => .of_follows

end

/-! ## Every rule can be spelled -/

/-- The rules that are called where the first of all alternatives is read, and nothing that may be missing. -/
def required : Expr Rule → List Rule
  | .seq first second => required first ++ required second
  | .alt first _ => required first
  | .call rule => [rule]
  | _ => []

/-- How deep rules call one another where they read only what is required. -/
def height : Rule → Nat
  | .id | .subgraph | .graph | .attrStmt | .quotedConcat => 1
  | .nodeId | .edgeOperand | .port | .attr | .assignment | .stmt => 2
  | .nodeStmt | .edgeStmt => 3
  | _ => 0

/-- A rule is higher than each one that its body requires. -/
theorem height_lt {rule : Rule} (h : rule.isNonterminal = true) :
    ∀ head ∈ required (production rule).body, height head < height rule := by
  revert h
  cases rule <;> decide

/-- An expression over tokens requires only rules of tokens and of more than one token. -/
theorem calls_of_overTokens {e : Expr Rule} (he : overTokens e = true) :
    ∀ rule ∈ required e, (rule.isTerminal || rule.isNonterminal) = true := by
  induction e with
  | seq first second ihfirst ihsecond =>
    rw [overTokens, Bool.and_eq_true] at he
    exact List.forall_mem_append.2 ⟨ihfirst he.1, ihsecond he.2⟩
  | alt first second ihfirst ihsecond =>
    rw [overTokens, Bool.and_eq_true] at he
    exact ihfirst he.1
  | call rule => exact List.forall_mem_singleton.2 he
  | _ => simp [required]

/-- Each terminal accepts some valid token. -/
theorem exists_valid_of_isTerminal {rule : Rule} (h : rule.isTerminal = true) :
    ∃ token : Token, token.Valid ∧ rule.accepts token = true := by
  cases rule with
  | strict => exact ⟨.word Keyword.strict, valid_keyword (by decide), by decide⟩
  | graphKind | attrTarget => exact ⟨.word Keyword.graph, valid_keyword (by decide), by decide⟩
  | subgraphKeyword => exact ⟨.word Keyword.subgraph, valid_keyword (by decide), by decide⟩
  | edgeOp => exact ⟨.operator .digraph, trivial, rfl⟩
  | identifier => exact ⟨.word ['a'], isWord_of_all (by decide) (by decide) (by decide), by decide⟩
  | numeral => exact ⟨.numeral ['0'], .plain (.whole (by simp [Text.AreDigits]) (by decide)), rfl⟩
  | quotedString => exact ⟨.quoted [], ⟨[], Text.isQuotable_nil, rfl⟩, rfl⟩
  | htmlString => exact ⟨.html [], ⟨by simp, rfl⟩, rfl⟩
  | _ => simp [Rule.isTerminal] at h

variable {S : Rule → Spelling}

/-- An expression can be begun by nothing, if each of the rules that it requires can. -/
theorem begun_of_required {e : Expr Rule} (he : overTokens e = true)
    (h : ∀ rule ∈ required e, Begun (S rule) []) : Begun (Spells S e) [] := by
  -- Of a choice the first member is begun, and options and repetitions are left out.
  induction e with
  | literal text =>
    obtain ⟨c, rfl, hc⟩ := exists_mark_of_overTokens he
    exact ⟨[], [.mark c], ⟨rfl, c, rfl, rfl⟩, by simpa [Token.Valid]⟩
  | seq first second ihfirst ihsecond =>
    rw [overTokens, Bool.and_eq_true] at he
    exact (ihfirst he.1 fun rule hrule => h rule (List.mem_append_left _ hrule)).left
      (ihsecond he.2 fun rule hrule => h rule (List.mem_append_right _ hrule))
  | alt first second ihfirst ihsecond =>
    rw [overTokens, Bool.and_eq_true] at he
    exact (ihfirst he.1 h).imp fun _ _ => .inl
  | opt body ih => exact begun_of_spells (.inr ⟨rfl, rfl⟩)
  | star body ih => exact begun_of_spells .nil
  | call rule => exact h rule (List.mem_singleton_self rule)
  | start | caseless | char | not => simp [overTokens] at he

/-- Every rule above the layout can be spelled by valid tokens. -/
theorem begun_rule (hS : Closed S) {rule : Rule} (hrule : (rule.isTerminal || rule.isNonterminal) = true) :
    Begun (S rule) [] := by
  -- By induction on how deep the rules call one another that are required.
  induction hn : height rule using Nat.strongRecOn generalizing rule
  rename_i bound ih
  subst hn
  rcases hterminal : rule.isTerminal with _ | _
  · have hrule : rule.isNonterminal = true := by simpa [hterminal] using hrule
    obtain ⟨trees, more, hspells, hvalid⟩ := begun_of_required (S := S) (overTokens_production hrule)
      fun head hhead => ih _ (height_lt hrule head hhead)
        (calls_of_overTokens (overTokens_production hrule) head hhead) rfl
    rcases kind_of_isNonterminal hrule with hkind | hkind
    · exact ⟨_, more, hS.branch hrule hkind hspells 0 [], hvalid⟩
    · exact ⟨_, more, hS.silent hrule hkind hspells, hvalid⟩
  · obtain ⟨token, hvalid, haccepts⟩ := exists_valid_of_isTerminal hterminal
    exact ⟨_, [token], hS.terminal hterminal haccepts 0, by simpa⟩

/-- Every expression over tokens can be spelled by valid tokens. -/
theorem begun_of_overTokens (hS : Closed S) {e : Expr Rule} (he : overTokens e = true) :
    Begun (Spells S e) [] :=
  begun_of_required he fun rule hrule => begun_rule hS (calls_of_overTokens he rule hrule)

/-! ## Terminals -/

section

variable {rule inner : Rule} {e body : Expr Rule}

/-- In atomic mode nothing is recorded of what words, numbers and strings are made of. -/
theorem attempts_lexical (he : ∀ head ∈ e.calls, head.isLexical = true) (cursor : Cursor) :
    (e.run (grammar.gap grammar.phrase) grammar.phrase .atomic cursor).attempts = .none := by
  refine e.run_attempts_none (fun head hhead place => ?_) cursor
  exact Peg.Grammar.phraseWithin_silent grammar_helpful _ head place (he head hhead)

/-- What stands between the ends of a string may be empty, so it never fails. -/
theorem attempts_inner (hinner : production inner = ⟨.token, .star body⟩)
    (hcalls : ∀ head ∈ body.calls, head.isLexical = true) (cursor : Cursor) :
    (grammar.phrase inner .tight cursor).attempts = .none := by
  have hquiet := attempts_lexical (e := .star body) hcalls cursor
  rw [grammar_phrase_eq, hinner]
  exact (Reply.attempts_record_of_found rfl inner .tight cursor).trans hquiet

/-- Whether a rule leaves no failure other than its own. -/
def FailsAlone (rule : Rule) : Prop :=
  ∀ cursor, ∃ mode ≠ .atomic, ∃ reply : Reply Rule, reply.attempts = .none ∧
    grammar.phrase rule .spaced cursor = reply.record rule mode cursor

/-- A token that calls lexical rules only fails without a trace within it. -/
theorem failsAlone_token (hkind : (production rule).kind = .token)
    (hcalls : ∀ head ∈ (production rule).body.calls, head.isLexical = true) : FailsAlone rule :=
  fun cursor => ⟨.spaced, by decide, _, attempts_lexical hcalls cursor, by rw [grammar_phrase_eq, hkind]; rfl⟩

/-- A string whose content calls lexical rules only fails without a trace within it. -/
theorem failsAlone_string {first last : Char}
    (hrule : production rule = ⟨.tight, .all [mark first, .call inner, mark last]⟩)
    (hinner : production inner = ⟨.token, .star body⟩) (hcalls : ∀ head ∈ body.calls, head.isLexical = true) :
    FailsAlone rule := by
  refine fun cursor => ⟨.tight, by decide, _, ?_, by rw [grammar_phrase_eq, hrule]; rfl⟩
  refine Expr.run_attempts_none _ (fun head hhead place => ?_) cursor
  obtain rfl : head = inner := by simpa [Expr.all, Expr.calls, mark] using hhead
  exact attempts_inner hinner hcalls place

/-- Each terminal fails without a trace within it. -/
theorem failsAlone_terminal (h : rule.isTerminal = true) : FailsAlone rule := by
  cases rule with
  | quotedString => exact failsAlone_string rfl rfl (by decide)
  | htmlString => exact failsAlone_string rfl rfl (by decide)
  | strict | graphKind | attrTarget | subgraphKeyword | edgeOp | identifier | numeral =>
    exact failsAlone_token rfl (by decide)
  | _ => simp [Rule.isTerminal] at h

/-- Such a rule fails where it is tried. -/
theorem FailsAlone.traced (h : FailsAlone rule) (hstart : Begun W []) (cursor : Cursor) :
    Traced W cursor (grammar.phrase rule .spaced cursor).attempts := by
  obtain ⟨mode, hmode, reply, hnone, hreply⟩ := h cursor
  rw [hreply]
  -- The rule is reported where it fails, as nothing inside of it is.
  rcases hfound : reply.found with _ | found
  · rw [Reply.attempts_record_of_not_found hfound _ hmode, hnone]
    exact .ofRule (.inl rfl) hstart rule
  · rw [Reply.attempts_record_of_found hfound, hnone]
    exact .inl rfl

/-- A terminal reads a token that it accepts, or it fails where it is tried. -/
theorem traces_terminal (hS : Closed S) (hrule : rule.isTerminal = true) {cursor : Cursor}
    (hcursor : Settled cursor.rest) : Traces (S rule) (grammar.phrase rule .spaced cursor) cursor := by
  refine ⟨fun found hfound => ?_, (failsAlone_terminal hrule).traced (begun_rule hS (by simp [hrule])) cursor⟩
  obtain ⟨token, rest, htake, haccept, rfl⟩ := (find_terminal hrule cursor.offset cursor.rest found).1 hfound
  have hstart := grammar.phrase_consumes rule .spaced cursor _ hfound
  exact ⟨[token], ⟨between_of_take? htake hcursor.head_ne, stop_eq_of_startsAt hstart⟩,
    hS.terminal hrule haccept _⟩

end

/-! ## Expressions and rules -/

variable {call : Rule → Phrase Rule}

/-- What an expression reads is traced as its body says, given that this holds of calls. -/
theorem traces_run (hS : Closed S)
    (hcall : ∀ {rule cursor}, (rule.isTerminal || rule.isNonterminal) = true → Settled cursor.rest →
      Traces (S rule) (call rule .spaced cursor) cursor)
    (e : Expr Rule) (he : overTokens e = true) {cursor : Cursor} (hcursor : Settled cursor.rest) :
    Traces (Spells S e) (e.run (grammar.gap grammar.phrase) call .spaced cursor) cursor := by
  induction e generalizing cursor with
  -- Over tokens, a literal text is a mark and so a token of its own.
  | literal text =>
    obtain ⟨c, rfl, hc⟩ : ∃ c, text = [c] ∧ c ∈ marks := exists_mark_of_overTokens he
    refine ⟨fun found hfound => ?_, .inl rfl⟩
    have hfind : find (mark c) .spaced ⟨cursor.offset, cursor.rest⟩ = some found := hfound
    have hstart := reply_consumes (mark c) cursor found hfind
    obtain ⟨rest, htake, rfl⟩ := (find_mark hc).1 hfind
    exact ⟨[.mark c], ⟨between_of_take? htake hcursor.head_ne, stop_eq_of_startsAt hstart⟩, rfl, c, rfl, rfl⟩
  | seq first second ihfirst ihsecond =>
    rw [overTokens, Bool.and_eq_true] at he
    exact (ihfirst he.1 hcursor).andThen (begun_of_overTokens hS he.2) fun found _ =>
      .gap (ihsecond he.2 (settled_gap found.next))
  | alt first second ihfirst ihsecond =>
    rw [overTokens, Bool.and_eq_true] at he
    exact (ihfirst he.1 hcursor).orElse (ihsecond he.2 hcursor)
  | opt body ih =>
    exact ((ih he hcursor).imp fun _ _ => .inl).orEmpty (.inr ⟨rfl, rfl⟩)
  | star body ih =>
    -- Each round is traced from where it begins, with the layout in front of it.
    have hround : ∀ place, Traces (Spells S body) ((Reply.ok (gap place)).andThen fun layout =>
        body.run (grammar.gap grammar.phrase) call .spaced layout.next) place :=
      fun place => .gap (ih he (settled_gap place))
    have hrounds := (ih he hcursor).andThen (begun_of_spells .nil) fun found _ =>
      traces_roundsWithin hround found.next.rest found.next
    exact (hrounds.imp fun _ _ => .of_follows).orEmpty .nil
  | call rule => exact hcall he hcursor
  | start | caseless | char | not => simp [overTokens] at he

/-- What a rule above the layout reads is traced, in every way that the bodies of the rules keep: tokens are
passed up to where it fails, and the rule can begin with them. -/
theorem traces_phrase (hS : Closed S) {rule : Rule} (hrule : (rule.isTerminal || rule.isNonterminal) = true)
    {cursor : Cursor} (hcursor : Settled cursor.rest) :
    Traces (S rule) (grammar.phrase rule .spaced cursor) cursor := by
  refine Peg.Grammar.phrase_reply_induction (P := fun rule mode cursor reply =>
      (rule.isTerminal || rule.isNonterminal) = true → mode = .spaced → Settled cursor.rest →
        Traces (S rule) reply cursor) grammar_ranked ?_ ?_ rule .spaced cursor hrule rfl hcursor
  · exact fun rule mode cursor _ _ _ => ⟨fun found h => by simp at h, .inl rfl⟩
  rintro call hcall rule _ cursor hphrase hrule rfl hcursor
  -- A terminal is its token whatever its body is; the body of any other rule is read by calls.
  rcases hterminal : rule.isTerminal with _ | _
  · have hnonterminal : rule.isNonterminal = true := by simpa [hterminal] using hrule
    have hbody := traces_run hS (fun hhead hplace => hcall _ .spaced _ hhead rfl hplace) _
      (overTokens_production hnonterminal) hcursor
    rw [hphrase]
    rcases kind_of_isNonterminal hnonterminal with hkind | hkind
    · rw [show (grammar.production rule).kind = .branch from hkind]
      exact hbody.record (begun_rule hS hrule) (by decide) fun offset text h =>
        hS.branch hnonterminal hkind h offset text
    · rw [show (grammar.production rule).kind = .silent from hkind]
      exact hbody.imp fun _ _ => hS.silent hnonterminal hkind
  · exact traces_terminal hS hterminal hcursor

/-! ## Whole texts -/

/-- The end of the input fails without a trace within it. -/
theorem failsAlone_endOfInput : FailsAlone .endOfInput :=
  fun cursor => ⟨.spaced, by decide, reply (production .endOfInput).body cursor,
    Expr.run_attempts_none _ (by simp [production, Expr.calls]) cursor,
    show reply (.call .endOfInput) cursor = _ from reply_branch rfl cursor⟩

/-- Graphs and the end of the text behind them: where this fails, one or more graphs have begun. -/
theorem traced_graphs (hS : Closed S) {cursor : Cursor} (hcursor : Settled cursor.rest) :
    Traced (Spells S (.plus (.call .graph))) cursor
      (reply (.seq (.plus (.call .graph)) (.call .endOfInput)) cursor).attempts := by
  have hgraphs : Traces (Spells S (.plus (.call .graph))) (reply (.plus (.call .graph)) cursor) cursor :=
    traces_run hS (fun hrule hplace => traces_phrase hS hrule hplace) (.plus (.call .graph)) rfl hcursor
  rcases hfound : (reply (.plus (.call .graph)) cursor).found with _ | found
  · rw [attempts_seq_of_not_found hfound]
    exact hgraphs.failed
  · rw [attempts_seq_of_found hfound]
    obtain ⟨tokens, hpasses, hspells⟩ := hgraphs.found found hfound
    -- The end is tried where the graphs are complete, so nothing is missing there.
    have hend : Traced (fun trees tokens => trees = [] ∧ tokens = []) (gap found.next).next
        (reply (.call .endOfInput) (gap found.next).next).attempts :=
      failsAlone_endOfInput.traced (begun_of_spells ⟨rfl, rfl⟩) _
    refine hgraphs.failed.merge ((hend.gap.behind hpasses hspells).imp fun tokens hbegun => hbegun.imp ?_)
    rintro _ _ ⟨trees, _, tokens, _, rfl, rfl, hspells, rfl, rfl⟩
    rwa [List.append_nil, List.append_nil]

/-- Where a text is rejected, tokens have been passed up to the furthest failure, and graphs can begin with
them. -/
theorem traced_of_rejected (hS : Closed S) {text : List Char}
    (h : (grammar.parse .document text).found = none) :
    ∃ place tokens, (grammar.parse .document text).attempts.offset = place.offset ∧
      Passes tokens (.start text) place ∧ Begun (Spells S (.plus (.call .graph))) tokens := by
  have hempty : Begun (Spells S (.plus (.call .graph))) [] := begun_of_overTokens hS rfl
  have hfailed : Traced (Spells S (.plus (.call .graph))) (.start text)
      (grammar.parse .document text).attempts := by
    rw [attempts_document h]
    exact Traced.ofRule (traced_graphs hS (settled_gap _)).gap hempty Rule.document
  -- If nothing is reported, the empty beginning of the text is as good as any.
  rcases hfailed with hnone | htraced
  · rw [hnone]
    exact ⟨.start text, [], rfl, .refl _, hempty⟩
  · exact htraced

end DotLang.Grammar
