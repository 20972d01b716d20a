import DotLang.Parse
import DotLang.Proofs.Document.Placement
import DotLang.Proofs.Document.Reading

/-!
# The outcome of reading a text

A text is rejected by the grammar, or it has one tree. Building the document of the tree fails at the first
operator in the text that is not that of the enclosing graph's kind (`Grammar.misplaced`); where there is
none, the document is one that the tokens of the text write (`Grammar.ofTree_of_accepts`).
-/

namespace DotLang

open Peg Token

namespace Grammar

variable {text : List Char} {tree : ParseTree Rule}

/-- The edge operators of a graph that are not those of its kind, each with that kind. -/
def misplacedIn (graph : ParseTree Rule) : List (GraphKind × ParseTree Rule) :=
  let kind := GraphKind.ofTrees graph.children
  ((operators graph).filter (kind.Misplaces ·)).map (kind, ·)

/-- The edge operators of a document, at every depth, that are not those of the kind of the graph around
them, each with that kind, in the order of the text. -/
def misplaced (tree : ParseTree Rule) : List (GraphKind × ParseTree Rule) :=
  (graphs tree).flatMap misplacedIn

/-! ## Graphs -/

/-- The first misplaced operator of a graph is the first one that the check for its kind finds. -/
theorem misplacedIn_head? (graph : ParseTree Rule) :
    (misplacedIn graph).head? =
      ((GraphKind.ofTrees graph.children).misplaced? (operators graph)).map
        (GraphKind.ofTrees graph.children, ·) := by
  rw [misplacedIn, List.head?_map, List.head?_filter, GraphKind.misplaced?]

/-- A graph has no misplaced operator where the check finds none. -/
theorem misplacedIn_eq_nil {graph : ParseTree Rule}
    (h : (GraphKind.ofTrees graph.children).misplaced? (operators graph) = none) :
    misplacedIn graph = [] := by
  rw [← List.head?_eq_none_iff, misplacedIn_head?, h, Option.map_none]

/-- Where the check finds an operator, it is the first misplaced one of the graph. -/
theorem misplacedIn_eq_cons {graph operator : ParseTree Rule}
    (h : (GraphKind.ofTrees graph.children).misplaced? (operators graph) = some operator) :
    ∃ more, misplacedIn graph = (GraphKind.ofTrees graph.children, operator) :: more := by
  rw [← List.head?_eq_some_iff, misplacedIn_head?, h, Option.map_some]

/-- Graphs are built from left to right, up to the first that fails. -/
theorem ofTrees_cons (tree : ParseTree Rule) (trees : List (ParseTree Rule)) :
    (tree :: trees).mapM Graph.ofTree =
      Graph.ofTree tree >>= fun graph => trees.mapM Graph.ofTree >>= fun graphs => .ok (graph :: graphs) := by
  rw [List.mapM_cons]
  rfl

/-- The first misplaced operator of some graphs is why they are no graphs of a document; where there is
none, the tokens of the trees write the graphs. -/
theorem ofTree_of_repeats {trees : List (ParseTree Rule)} {tokens : List Token}
    (h : Repeats (means .graph) trees tokens) :
    (∀ kind operator, (trees.flatMap misplacedIn).head? = some (kind, operator) →
      trees.mapM Graph.ofTree = .error (kind.misplacement operator)) ∧
    (trees.flatMap misplacedIn = [] →
      ∃ graphs, trees.mapM Graph.ofTree = .ok graphs ∧ Graph.ListWritten graphs tokens ∧
        (trees ≠ [] → graphs ≠ [])) := by
  induction h with
  | nil => exact ⟨by simp, fun _ => ⟨[], rfl, rfl, by simp⟩⟩
  | @cons _ trees tokens tokens' hround _ ih =>
    obtain ⟨offset, text, children, rfl, -, hsettles⟩ := hround
    rw [List.singleton_append, ofTrees_cons, List.flatMap_cons]
    rcases hfirst : (GraphKind.ofTrees children).misplaced?
        (operators (.node .graph offset text children)) with _ | found
    · -- The first graph is built, so all depends on the others.
      obtain ⟨graph, hgraph, hwritten⟩ := hsettles.ok hfirst
      have hempty : misplacedIn (.node .graph offset text children) = [] := misplacedIn_eq_nil hfirst
      rw [hempty, List.nil_append, hgraph]
      refine ⟨fun kind operator hmisplaced => ?_, fun hnone => ?_⟩
      · rw [ih.1 kind operator hmisplaced]
        rfl
      · obtain ⟨graphs, hgraphs, hlist, -⟩ := ih.2 hnone
        refine ⟨graph :: graphs, ?_, ⟨tokens, tokens', rfl, hwritten, hlist⟩, by simp⟩
        rw [hgraphs]
        rfl
    · -- The first graph fails, and the others are not looked at.
      obtain ⟨more, hmore⟩ : ∃ more, misplacedIn (.node .graph offset text children) =
          (GraphKind.ofTrees children, found) :: more := misplacedIn_eq_cons hfirst
      rw [hsettles.error hfirst, hmore]
      refine ⟨fun kind operator hmisplaced => ?_, by simp⟩
      simp only [List.cons_append, List.head?_cons, Option.some.injEq, Prod.mk.injEq] at hmisplaced
      obtain ⟨rfl, rfl⟩ := hmisplaced
      rfl

/-! ## Documents -/

/-- The first misplaced operator is the reason why there is no document. -/
theorem ofTree_of_misplaced (h : Accepts text tree) {kind : GraphKind} {operator : ParseTree Rule}
    (hfirst : (misplaced tree).head? = some (kind, operator)) :
    Document.ofTree tree = .error (kind.misplacement operator) := by
  obtain ⟨tokens, -, -, hmeans⟩ := means_of_accepts h
  have hgraphs := (ofTree_of_repeats hmeans).1 kind operator hfirst
  rw [Document.ofTree, ← graphs, hgraphs]
  rfl

/-- Where no operator is misplaced, there is a document, and the tokens of the text write it. -/
theorem ofTree_of_accepts (h : Accepts text tree) (hnone : misplaced tree = []) :
    ∃ document tokens, Document.ofTree tree = .ok document ∧ lex text = some tokens ∧
      document.Written tokens := by
  obtain ⟨tokens, hlex, hne, hmeans⟩ := means_of_accepts h
  obtain ⟨built, hbuilt, hwritten, hnonempty⟩ := (ofTree_of_repeats hmeans).2 hnone
  refine ⟨⟨built⟩, tokens, ?_, hlex, hnonempty hne, hwritten⟩
  rw [Document.ofTree, ← graphs, hbuilt]
  rfl

/-- Where all operators are well placed, none is misplaced. -/
theorem misplaced_eq_nil_of_wellPlaced (h : WellPlaced (graphs tree)) : misplaced tree = [] := by
  refine List.flatMap_eq_nil_iff.2 fun graph hgraph => List.map_eq_nil_iff.2 ?_
  refine List.filter_eq_nil_iff.2 fun operator hoperator => ?_
  simpa using h graph hgraph operator hoperator

/-! ## Texts -/

/-- The grammar has one tree for a text or none. -/
theorem accepts_of_found {found : Match Rule} (h : (grammar.parse .document text).found = some found) :
    ∃ tree, Accepts text tree := by
  obtain ⟨inner, hinner, hrest, rfl⟩ := find_document_iff.1 h
  exact ⟨_, _, h, rfl⟩

/-- An accepted text has its tree as the only one. -/
theorem trees_of_accepts (h : Accepts text tree) : trees .document text = .ok [tree] := by
  obtain ⟨found, hfound, htrees⟩ := h
  rw [trees]
  simp only [hfound, htrees]

/-- A rejected text has no trees, and its failure tells where the reading got furthest. -/
theorem trees_of_rejected (h : (grammar.parse .document text).found = none) :
    trees .document text = .error (failure (grammar.parse .document text).attempts) := by
  rw [trees]
  simp only [h]

end Grammar

/-- A text that the grammar accepts is read as its tree is. -/
theorem read_of_accepts {text : List Char} {tree : ParseTree Rule} (h : Grammar.Accepts text tree) :
    read text = Document.ofTree tree := by
  rw [read, Grammar.trees_of_accepts h]
  rfl

/-- Reading a rejected text fails as the grammar does. -/
theorem read_of_rejected {text : List Char} (h : (grammar.parse .document text).found = none) :
    read text = .error (Grammar.failure (grammar.parse .document text).attempts) := by
  rw [read, Grammar.trees_of_rejected h]
  rfl

/-- Tokens write at most one document. -/
theorem Document.Written.unique {document document' : Document} {tokens : List Token}
    (h : document.Written tokens) (h' : document'.Written tokens) : document = document' :=
  Option.some.inj ((Document.ofTokens?_eq_some_iff.2 h).symm.trans (Document.ofTokens?_eq_some_iff.2 h'))

/-- A text is read as a document if and only if its tokens write that document. -/
theorem read_eq_ok_iff {text : List Char} {document : Document} :
    read text = .ok document ↔ ∃ tokens, Token.lex text = some tokens ∧ document.Written tokens := by
  constructor
  · intro h
    rcases hfound : (grammar.parse .document text).found with _ | found
    · rw [read_of_rejected hfound] at h
      cases h
    · -- An accepted text is a document only if no operator of its tree is misplaced.
      obtain ⟨tree, htree⟩ := Grammar.accepts_of_found hfound
      rw [read_of_accepts htree] at h
      rcases hmisplaced : (Grammar.misplaced tree).head? with _ | ⟨kind, operator⟩
      · obtain ⟨built, tokens, hbuilt, hlex, hwritten⟩ :=
          Grammar.ofTree_of_accepts htree (List.head?_eq_none_iff.1 hmisplaced)
        obtain rfl : built = document := Except.ok.inj (hbuilt.symm.trans h)
        exact ⟨tokens, hlex, hwritten⟩
      · rw [Grammar.ofTree_of_misplaced htree hmisplaced] at h
        cases h
  · rintro ⟨tokens, hlex, hwritten⟩
    obtain ⟨tree, htree, hplaced⟩ := Grammar.accepts_of_written hlex hwritten
    obtain ⟨built, tokens', hbuilt, hlex', hwritten'⟩ :=
      Grammar.ofTree_of_accepts htree (Grammar.misplaced_eq_nil_of_wellPlaced hplaced)
    -- The tokens of a text are unique, and they write one document only.
    obtain rfl : tokens' = tokens := Option.some.inj (hlex'.symm.trans hlex)
    rw [read_of_accepts htree, hbuilt, hwritten'.unique hwritten]

/-!
## The parser and the predictive reader

The parser tries alternatives by a grammar and goes back where they fail. It gives the same documents as
cutting the text into tokens first and reading these from left to right, where the next token decides.
-/

/-- Changing the error changes nothing about success. -/
theorem mapError_eq_ok_iff {ε ε' α : Type} {f : ε → ε'} {result : Except ε α} {value : α} :
    result.mapError f = .ok value ↔ result = .ok value := by
  cases result with
  | error => constructor <;> rintro ⟨⟩
  | ok => constructor <;> rintro ⟨⟩ <;> rfl

/-- A text parses to a document exactly if its tokens write the document. -/
theorem parse_eq_ok_iff {text : String} {document : Document} :
    parse text = .ok document ↔
      ∃ tokens, Token.lex text.toList = some tokens ∧ document.Written tokens := by
  rw [parse, mapError_eq_ok_iff, read_eq_ok_iff]

/-- The reader gives a document exactly if the tokens of the text write it. -/
theorem ofText?_eq_some_iff {text : List Char} {document : Document} :
    Document.ofText? text = some document ↔
      ∃ tokens, Token.lex text = some tokens ∧ document.Written tokens := by
  simp only [Document.ofText?, Option.bind_eq_bind, Option.bind_eq_some_iff, Document.ofTokens?_eq_some_iff]

/-- A text parses to a document if and only if the predictive reader accepts it with that document. -/
theorem parse_eq_ok_iff_ofText (text : String) (document : Document) :
    parse text = .ok document ↔ Document.ofText? text.toList = some document :=
  parse_eq_ok_iff.trans ofText?_eq_some_iff.symm

end DotLang
