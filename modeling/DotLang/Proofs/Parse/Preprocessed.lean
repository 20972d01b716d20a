import DotLang.Document.Equality
import DotLang.Text.Continuation
import DotLang.Proofs.Document.Naming
import DotLang.Proofs.Document.Outline
import DotLang.Proofs.Grammar.Names
import DotLang.Proofs.Document.Outcome
import Mathlib.Data.List.Infix

/-!
# Texts that parse without preprocessing

Some texts with continued lines parse as they are, since strings may go over several lines. When their lines
are joined first, the same document comes out but for what these strings say (`preprocessed_parse_eq_ok`).

The names of a document stand in the order of the text, as do the trees of its identifiers
(`Grammar.mentioning_of_accepts`). So it is known which literals each of the names was written as, though the
document itself does not tell. With a document's outline its names are all there is to it
(`Document.eq_of_outline`).
-/

namespace DotLang

open Peg Token

namespace Token

variable {tokens name : List Token} {mentions : List Mention}

/-- The tokens of an identifier that is mentioned are among the tokens that mention it. -/
theorem Mentions.names_subset (h : Mentions tokens mentions) (hname : name ∈ Mention.names mentions) :
    name ⊆ tokens := by
  induction h with
  | nil => cases hname
  | separator _ _ ih => exact List.subset_cons_of_subset _ (ih hname)
  | name _ _ ih =>
    rcases List.mem_cons.1 hname with rfl | hname
    · exact List.subset_append_left _ _
    · exact List.subset_append_of_subset_right _ (ih hname)
  | portName _ _ ih =>
    exact List.subset_cons_of_subset _ (List.subset_append_of_subset_right _ (ih hname))

/-- Tokens write one identifier at most. -/
theorem written_unique {id id' : Id} (h : id.Written tokens) (h' : id'.Written tokens) : id = id' := by
  have hnothing : NotAhead ['+'] [] := fun _ _ hhead => by cases hhead
  have hread := readId_of_written h hnothing
  rw [readId_of_written h' hnothing] at hread
  exact (Prod.mk.inj (Option.some.inj hread)).1.symm

/-- A literal without markers is kept when lines are joined. -/
theorem strip_eq_self_of_literal {token : Token}
    (h : ∀ rule content, Grammar.literal? token = some (rule, content) → ¬Continuation.marker <:+: content) :
    token.strip = token := by
  cases token with
  | quoted content => exact congrArg quoted (Continuation.strip_eq_self (h _ _ rfl))
  | html content => exact congrArg html (Continuation.strip_eq_self (h _ _ rfl))
  | word | numeral | operator | mark => rfl

end Token

namespace Grammar

open ParseTree (subtrees)

variable {text : List Char} {tree : ParseTree Rule} {trees : List (ParseTree Rule)} {names : List Id}
variable {written : List (List Token)} {f : ParseTree Rule → Id}

/-- Whether continued lines are in the names of a text only, where joining them changes what these say and
nothing else. -/
structure ContinuesNames (text : List Char) (tree : ParseTree Rule) : Prop where
  /-- No marker has its backslash in a comment. -/
  comments : SparesComments text
  /-- No marker is in an identifier of a port. -/
  ports : ∀ port ∈ subtrees tree, port.rule = .port →
    ∀ literal ∈ subtrees port, literal.rule ∈ [.quotedInner, .htmlInner] →
      ¬Continuation.marker <:+: literal.text
  /-- No marker takes the second backslash of a pair of backslashes in a quoted string. -/
  pairs : ∀ literal ∈ subtrees tree, literal.rule = .quotedInner → ¬Text.Quoted.PairContinued literal.text

instance (text : List Char) (tree : ParseTree Rule) : Decidable (ContinuesNames text tree) :=
  decidable_of_iff (_ ∧ _ ∧ _) ⟨fun ⟨comments, ports, pairs⟩ => ⟨comments, ports, pairs⟩,
    fun ⟨comments, ports, pairs⟩ => ⟨comments, ports, pairs⟩⟩

/-- Identifiers are what trees say if the tokens of each write it. -/
theorem eq_map_of_written (h : List.Forall₂ Id.Written names written)
    (hsaid : List.Forall₂ (fun tree tokens => (f tree).Written tokens) trees written) :
    names = trees.map f := by
  induction h generalizing trees with
  | nil =>
    cases hsaid
    rfl
  | cons hid _ ih =>
    cases hsaid with
    | cons htree hmore => rw [List.map_cons, ← written_unique hid htree, ← ih hmore]

/-- Trees that say what tokens do stand for identifiers that these tokens write. -/
theorem written_of_says (h : List.Forall₂ Says trees written) :
    List.Forall₂ (fun tree tokens => (Id.ofTree tree).Written tokens) trees written :=
  h.imp fun _ _ hsaid => hsaid.1

/-- The same with the lines of all strings joined, where no pair of backslashes is continued. -/
theorem joined_of_says (h : List.Forall₂ Says trees written) (hsound : ∀ tokens ∈ written, Sound tokens) :
    List.Forall₂ (fun tree tokens => (Id.joinedOfTree tree).Written tokens) trees
      (written.map (List.map Token.strip)) := by
  induction h with
  | nil => exact .nil
  | cons hsaid _ ih =>
    rw [List.forall_mem_cons] at hsound
    exact .cons (hsaid.2 hsound.1) (ih hsound.2)

/-- The quoted strings among the tokens are literals in the tree. -/
theorem not_pairContinued {tokens : List Token} (h : Literals [tree] tokens)
    (hpairs : ∀ literal ∈ subtrees tree, literal.rule = .quotedInner → ¬Text.Quoted.PairContinued literal.text) :
    ∀ token ∈ tokens, ¬token.PairContinued := by
  intro token htoken hcontinued
  cases token with
  | quoted content =>
    obtain ⟨literal, hmem, hrule, rfl⟩ := h _ htoken _ _ rfl
    exact hpairs literal (by simpa using hmem) hrule hcontinued
  | word | numeral | html | operator | mark => exact hcontinued

/-- The identifiers in ports have no markers. -/
theorem strip_of_literals {port : ParseTree Rule} {name : List Token} (h : Literals [port] name)
    (hport : ∀ literal ∈ subtrees port, literal.rule ∈ [.quotedInner, .htmlInner] →
      ¬Continuation.marker <:+: literal.text) : name.map Token.strip = name := by
  refine (List.map_congr_left fun token htoken => ?_).trans (List.map_id name)
  refine strip_eq_self_of_literal fun rule content hliteral => ?_
  have hrule : rule ∈ [.quotedInner, .htmlInner] := by cases token <;> cases hliteral <;> decide
  obtain ⟨literal, hmem, rfl, rfl⟩ := h token htoken rule content hliteral
  exact hport literal (by simpa using hmem) hrule

/-- What can be decided of a tree can be decided of the tree of a text. -/
theorem exists_accepts {P : ParseTree Rule → Prop} [DecidablePred P]
    (h : (grammar.parse .document text).found.any (fun found => found.trees.all (P ·)) = true) :
    ∃ tree, Accepts text tree ∧ P tree := by
  rcases hfound : (grammar.parse .document text).found with _ | found
  · rw [hfound] at h
    cases h
  · obtain ⟨tree, htree⟩ := accepts_of_found hfound
    refine ⟨tree, htree, ?_⟩
    obtain ⟨found', hfound', htrees⟩ := htree
    rw [hfound'] at h
    simpa [htrees] using h

end Grammar

/-- A text that parses, with continued lines in its names only, also parses when its lines are joined first.
The document then is the only one with the same outline in which each name, which was what the literals of an
identifier say one after the other, is what each of them says with its lines joined. -/
theorem preprocessed_parse_eq_ok {text : String} {document : Document} {tree : ParseTree Rule}
    (h : parse text = .ok document) (htree : Grammar.Accepts text.toList tree)
    (hcontinues : Grammar.ContinuesNames text.toList tree) :
    document.names = (Grammar.names tree).map Id.ofTree ∧
      ∃ document', (Parser.preprocessed parse).parse text = .ok document' ∧
        ∀ other : Document, other = document' ↔
          other.outline = document.outline ∧ other.names = (Grammar.names tree).map Id.joinedOfTree := by
  obtain ⟨tokens, hlex, hwritten⟩ := parse_eq_ok_iff.1 h
  obtain ⟨_, hlex', hliterals, mentions, hmentions, hsaid, hports⟩ := Grammar.mentioning_of_accepts htree
  obtain rfl := Option.some.inj (hlex.symm.trans hlex')
  rw [Grammar.namesOf_cons, Grammar.namesOf_nil, List.append_nil] at hsaid
  have hpairs := Grammar.not_pairContinued hliterals hcontinues.pairs
  -- What the tokens of the text mention is what its document and its tree have as names.
  obtain ⟨mentions', hmentions', hnames, hrenews⟩ := hwritten.naming
  obtain rfl := hmentions.unique hmentions'
  refine ⟨Grammar.eq_map_of_written hnames (Grammar.written_of_says hsaid), ?_⟩
  -- The tokens of the joined text write a document, and mention the same names with their lines joined.
  obtain ⟨document', hwritten', houtline⟩ := hrenews fun name hname => by
    obtain ⟨port, hport, hrule, hname⟩ := hports name hname
    exact Grammar.strip_of_literals hname (hcontinues.ports port (by simpa using hport) hrule)
  obtain ⟨mentions', hmentions', hnames', -⟩ := hwritten'.naming
  obtain rfl := hmentions.strip.unique hmentions'
  rw [Mention.names_strip] at hnames'
  have hsound : ∀ name ∈ Mention.names mentions, Grammar.Sound name := fun name hname token htoken =>
    have hmem := hmentions.names_subset hname htoken
    ⟨valid_of_lex hlex token hmem, hpairs token hmem⟩
  have hjoined := Grammar.eq_map_of_written hnames' (Grammar.joined_of_says hsaid hsound)
  refine ⟨document', ?_, fun other => ⟨?_, fun ⟨houtline', hnames⟩ => ?_⟩⟩
  · rw [Preprocessed.parse_apply]
    apply parse_eq_ok_iff.2
    refine ⟨tokens.map Token.strip, ?_, hwritten'⟩
    rw [Continuation.toList_join]
    exact lex_strip hlex hcontinues.comments hpairs
  · rintro rfl
    exact ⟨houtline, hjoined⟩
  · exact Document.eq_of_outline (houtline'.trans houtline.symm) (hnames.trans hjoined.symm)

/-- A text with continued lines in the two strings of a node, once behind a pair of backslashes, and in an HTML
string. There are backslashes in a port and in a comment, too, but not at the ends of lines. -/
def stringsText : String := "graph\x7b\"a\\\n\"+\"\\\\\\\nb\":\"\\\\\"[<<\\\n>>=1]// \\ \n\x7d"

/-- The document that it says, but for what the node and its attribute are called. -/
def stringsDocument (node key : String) : Document :=
  ⟨[{ strict := false, kind := .graph, id := none,
      statements := [.node ⟨.quoted node, some ⟨some (.quoted "\\\\"), none⟩⟩ [⟨.html key, .numeral "1"⟩]] }]⟩

/-- The text is parsed with the lines in its strings as they are. -/
theorem parse_stringsText : parse stringsText = .ok (stringsDocument "a\\\n\\\\\\\nb" "<\\\n>") :=
  parse_eq_ok_iff.2 (ofText?_eq_some_iff.1 (by decide +kernel))

/-- The lines of all three strings are joined, and the port and the pair of backslashes are kept. -/
theorem preprocessed_parse_stringsText :
    parse stringsText = .ok (stringsDocument "a\\\n\\\\\\\nb" "<\\\n>") ∧
      (∃ tree, Grammar.Accepts stringsText.toList tree ∧ Grammar.ContinuesNames stringsText.toList tree) ∧
      (Parser.preprocessed parse).parse stringsText = .ok (stringsDocument "a\\\\b" "<>") := by
  obtain ⟨tree, htree, hcontinues, hjoined⟩ : ∃ tree, Grammar.Accepts stringsText.toList tree ∧
      Grammar.ContinuesNames stringsText.toList tree ∧
      (Grammar.names tree).map Id.joinedOfTree = [.quoted "a\\\\b", .html "<>", .numeral "1"] :=
    Grammar.exists_accepts (by decide +kernel)
  obtain ⟨-, document', hparse, hdocument⟩ := preprocessed_parse_eq_ok parse_stringsText htree hcontinues
  have heq : stringsDocument "a\\\\b" "<>" = document' := (hdocument _).2 ⟨rfl, hjoined.symm⟩
  exact ⟨parse_stringsText, ⟨tree, htree, hcontinues⟩, heq ▸ hparse⟩

end DotLang
