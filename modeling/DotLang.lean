import DotLang.Document.Equality
import DotLang.Document.Format
import DotLang.Parse
import DotLang.ParseError.Dump
import DotLang.Slot.Session
import DotLang.Main
import DotLang.Proofs.Grammar.Find
import DotLang.Token.Reader
import DotLang.Text.Region
import DotLang.Json.Parser
import DotLang.Json.Written
import DotLang.Document.OfJson
import DotLang.Document.WellFormed
import DotLang.Slot.Concurrent
import DotLang.Proofs.Peg.Found
import DotLang.Proofs.Peg.Induction
import DotLang.Proofs.Token.Lex
import DotLang.Proofs.Token.Layout
import DotLang.Proofs.Grammar.Layout
import DotLang.Proofs.Grammar.Terminal
import DotLang.Proofs.Document.Operators
import DotLang.Proofs.Document.Written
import DotLang.Proofs.Grammar.Spelling
import DotLang.Proofs.Document.Meaning
import DotLang.Proofs.Document.Settling
import DotLang.Proofs.Document.Ahead
import DotLang.Proofs.Grammar.Taking
import DotLang.Proofs.Document.Acceptance
import DotLang.Proofs.Document.Placement
import DotLang.Proofs.Document.Reader
import DotLang.Proofs.Document.Reading
import DotLang.Proofs.Document.Outcome
import DotLang.Proofs.Text.Html
import DotLang.Proofs.Text.Quoted
import DotLang.Proofs.Token.Valid
import DotLang.Proofs.Token.Composed
import DotLang.Proofs.Token.LaidOut
import DotLang.Proofs.Text.Region
import DotLang.Proofs.Token.Region
import DotLang.Proofs.Text.Joined
import DotLang.Proofs.Token.Joined
import DotLang.Proofs.Document.Validity
import DotLang.Proofs.Parse.Rendering
import DotLang.Proofs.Document.Filled
import DotLang.Proofs.Parse.Contents
import DotLang.Proofs.Parse.Layout
import DotLang.Document.Outline
import DotLang.Proofs.Document.Mentions
import DotLang.Proofs.Document.Naming
import DotLang.Proofs.Document.Order
import DotLang.Proofs.Parse.Failure
import DotLang.Proofs.Slot.Session
import DotLang.Proofs.Slot.Stage
import DotLang.Proofs.Text.Continuation
import DotLang.Proofs.Slot.Installation
import DotLang.Proofs.Slot.PlainParser
import DotLang.Proofs.Parse.Continued
import DotLang.Proofs.Grammar.Names
import DotLang.Proofs.Document.Outline
import DotLang.Proofs.Parse.Preprocessed
import DotLang.Proofs.Parse.Pointing
import DotLang.Proofs.CommandLine.Arguments
import DotLang.Proofs.CommandLine.Run
import DotLang.Proofs.ParseError.Hint
import DotLang.Proofs.Parse.OpenQuote
import DotLang.Proofs.Grammar.Expectation
import DotLang.Proofs.Token.Between
import DotLang.Proofs.Grammar.Trace
import DotLang.Proofs.Document.Readable
import DotLang.Proofs.Parse.Viability
import DotLang.Proofs.Text.Ending
import DotLang.Proofs.Grammar.Strings
import DotLang.Proofs.Grammar.Quoting
import DotLang.Document.Members
import DotLang.Proofs.Document.Members
import DotLang.Proofs.Text.Stranded
import DotLang.Proofs.Parse.Advice
import DotLang.Proofs.Text.Removal
import DotLang.Proofs.Text.Rejoined
import DotLang.Proofs.Json.Reader
import DotLang.Proofs.Json.Printer
import DotLang.Proofs.Document.Json
import DotLang.Proofs.Dump.Quote
import DotLang.Proofs.Dump.Printer
import DotLang.Proofs.Document.Dump
import DotLang.Proofs.ParseError.Strings
import DotLang.Proofs.Token.Blank
