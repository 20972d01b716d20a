import DotLang.Text.Continuation
import DotLang.Proofs.Document.Filled
import DotLang.Proofs.Document.Validity
import DotLang.Proofs.Parse.Rendering
import DotLang.Proofs.Text.Continuation
import DotLang.Document.Equality
import DotLang.Proofs.Document.Members
import DotLang.Proofs.Document.Outcome

/-!
# What parsed documents hold

Whatever a text parses to is well formed at every depth (`wellFormed_of_mem_parsers`), and has what the text has,
once and in the same order (`parse_accounts_for_tree`).
-/

namespace DotLang

/-!
## Parsed documents are well formed

Whatever a text parses to is well formed at every depth, and no part of it stands for something that was
missing in the text. The same is true where the continued lines of the text are joined first, once or
twice.
-/

/-- The parser, and the parser with joining of continued lines once or twice in front of it. -/
def parsers : List (Parser ParseError Document) :=
  [parse, (Parser.preprocessed parse).parse, (Parser.preprocessed (Parser.preprocessed parse).parse).parse]

/-- Each of the parsers parses some text as it is. -/
theorem exists_parse_of_mem_parsers {parser : Parser ParseError Document} (h : parser ∈ parsers)
    (text : String) : ∃ source, parser text = parse source := by
  simp only [parsers, List.mem_cons, List.not_mem_nil, or_false] at h
  rcases h with rfl | rfl | rfl
  · exact ⟨text, rfl⟩
  · exact ⟨_, Preprocessed.parse_apply parse text⟩
  · rw [Preprocessed.parse_apply, Preprocessed.parse_apply]
    exact ⟨_, rfl⟩

/-- Whatever is parsed is well formed. -/
theorem wellFormed_of_parse {text : String} {document : Document} (h : parse text = .ok document) :
    document.WellFormed := by
  obtain ⟨tokens, hlex, hwritten⟩ := parse_eq_ok_iff.1 h
  exact hwritten.wellFormed (Token.valid_of_lex hlex)

/-- A parsed document is built from the tree of its text, in which nothing is missing. -/
theorem exists_filled_of_parse {text : String} {document : Document} (h : parse text = .ok document) :
    ∃ tree, Grammar.Accepts text.toList tree ∧ Grammar.Filled tree ∧
      Document.ofTree tree = .ok document := by
  obtain ⟨tokens, hlex, hwritten⟩ := parse_eq_ok_iff.1 h
  obtain ⟨tree, htree, -⟩ := Grammar.accepts_of_written hlex hwritten
  refine ⟨tree, htree, Grammar.filled_of_accepts htree, ?_⟩
  rw [← read_of_accepts htree]
  exact read_eq_ok_iff.2 ⟨tokens, hlex, hwritten⟩

/-- Whatever one of the parsers gives is a well-formed document, built from a tree in which nothing is
missing. -/
theorem wellFormed_of_mem_parsers {parser : Parser ParseError Document} (hparser : parser ∈ parsers)
    {text : String} {document : Document} (h : parser text = .ok document) :
    document.WellFormed ∧
      ∃ source tree, parser text = parse source ∧ Grammar.Accepts source.toList tree ∧
        Grammar.Filled tree ∧ Document.ofTree tree = .ok document := by
  obtain ⟨source, hsource⟩ := exists_parse_of_mem_parsers hparser text
  have hparse : parse source = .ok document := hsource ▸ h
  obtain ⟨tree, htree⟩ := exists_filled_of_parse hparse
  exact ⟨wellFormed_of_parse hparse, source, tree, hsource, htree⟩

/-- A text with a continued line. -/
def continuedText : String := String.ofList
  ['d', 'i', 'G', 'r', 'a', 'p', 'h', '{', 'a', '-', '\\', '\n', '>', 'b', ';', '}']

/-- The text is parsed behind preprocessing, with its line joined. -/
theorem parse_continuedText : (Parser.preprocessed parse).parse continuedText = .ok oneEdge := by
  have hjoin : Continuation.join continuedText = oneEdgeText :=
    Continuation.join_ofList _
  rw [Preprocessed.parse_apply, hjoin]
  exact parse_of_renders renders_oneEdge

/-- A graph from a text with a continued line is well formed. -/
theorem wellFormed_continuedText :
    (Parser.preprocessed parse).parse continuedText = .ok oneEdge ∧ oneEdge.WellFormed :=
  ⟨parse_continuedText,
    (wellFormed_of_mem_parsers (List.mem_cons_of_mem _ List.mem_cons_self) parse_continuedText).1⟩

/-!
## What a text names and what its document names

A document has everything that the tree of its text has, once and in the same order: identifiers, and graphs,
statements, operands and attributes at every depth (`parse_accounts_for_tree`). Only the second identifier of a
port leaves no trace if it is not the name of a compass point.
-/

open Grammar

/-- The document of a text names what stands for the identifiers in the tree of the text, apart from second
identifiers of ports that name no compass point, and has a member for each of the graphs, statements, operands and
attributes in the tree, all in the order of the text. -/
theorem parse_accounts_for_tree {text : String} {document : Document} (h : parse text = .ok document) :
    ∃ tree, trees .document text.toList = .ok [tree] ∧
      idTrees (fun _ => true) tree = tree.subtrees.filter (·.rule == .id) ∧
      List.Forall₂ Named.StandsFor document.named ((idTrees namesCompass tree).map Id.ofTree) ∧
      List.Forall₂ Member.Matches document.members (members tree) := by
  obtain ⟨tree, htree, -, hdocument⟩ := exists_filled_of_parse h
  obtain ⟨hnamed, hmembers⟩ := accountFor_of_accepts htree hdocument
  refine ⟨tree, trees_of_accepts htree, idTrees_of_accepts htree, ?_, hmembers⟩
  rwa [saidIds, idTreesOf_cons, idTreesOf_nil, List.append_nil] at hnamed

/-- A text with ports of all forms. -/
def portedText : String := "graph g\x7ba:b:x--a:n--\x7bc:d:w[k=v]\x7d\x7d"

/-- The document that it says, in which nothing is left of one identifier. -/
def portedDocument : Document :=
  ⟨[{ strict := false, kind := .graph, id := some (.identifier "g"),
      statements := [.edge
        [.node ⟨.identifier "a", some ⟨some (.identifier "b"), none⟩⟩,
          .node ⟨.identifier "a", some ⟨none, some .n⟩⟩,
          .subgraph none [.node ⟨.identifier "c", some ⟨some (.identifier "d"), some .w⟩⟩
            [⟨.identifier "k", .identifier "v"⟩]]] []] }]⟩

/-- The text is parsed to this document, with each form of a port. -/
theorem parse_portedText : parse portedText = .ok portedDocument :=
  parse_eq_ok_iff.2 (ofText?_eq_some_iff.1 (by decide +kernel))

/-- All that is left of the text is in its document, and in order. -/
theorem portedText_accounts :
    parse portedText = .ok portedDocument ∧
      ∃ tree, trees .document portedText.toList = .ok [tree] ∧
        idTrees (fun _ => true) tree = tree.subtrees.filter (·.rule == .id) ∧
        List.Forall₂ Named.StandsFor portedDocument.named ((idTrees namesCompass tree).map Id.ofTree) ∧
        List.Forall₂ Member.Matches portedDocument.members (members tree) :=
  ⟨parse_portedText, parse_accounts_for_tree parse_portedText⟩

end DotLang
