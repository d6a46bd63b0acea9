import OasisSyntax.Token.Reader
import OasisSyntax.Syntax.Equality
import OasisSyntax.Syntax.Layout
import OasisSyntax.Parsing.Session
import OasisSyntax.Parsing.Trace
import OasisSyntax.Report.Log
import OasisSyntax.FrontEnd
import OasisSyntax.CommandLine.Run
import OasisSyntax.Main
import OasisSyntax.Proofs.Parsing.Complete
import OasisSyntax.Proofs.Parsing.Reads
import OasisSyntax.Proofs.Parsing.Sound
import OasisSyntax.Proofs.Grammar.Derivation
import OasisSyntax.Proofs.Grammar.Grouping
import OasisSyntax.Proofs.Grammar.Correspondence
import OasisSyntax.Proofs.Grammar.Unambiguous
import OasisSyntax.Proofs.Parsing.Expressions
import OasisSyntax.Proofs.Parsing.Renaming
import OasisSyntax.Proofs.Parsing.Programs
import OasisSyntax.Proofs.Parsing.Completion
import OasisSyntax.Proofs.Parsing.Expected
import OasisSyntax.Proofs.Parsing.EarliestError
import OasisSyntax.Proofs.Printing.Bracketed
import OasisSyntax.Proofs.Printing.Lexemes
import OasisSyntax.Proofs.Printing.Spacing
import OasisSyntax.Proofs.Printing.Layouts
import OasisSyntax.Proofs.Printing.RoundTrip
import OasisSyntax.Proofs.Tokens.Boundaries
import OasisSyntax.Proofs.Tokens.Walks
import OasisSyntax.Proofs.Tokens.TwoPasses
import OasisSyntax.Proofs.Tokens.Lines
import OasisSyntax.Proofs.Parsing.Prepending
import OasisSyntax.Proofs.Parsing.Texts
import OasisSyntax.Proofs.Parsing.Lines
import OasisSyntax.Proofs.Tokens.WrittenEnds
import OasisSyntax.Proofs.Parsing.WrittenEnds
import OasisSyntax.Proofs.Printing.Formatting
import OasisSyntax.Proofs.Tokens.Spans
import OasisSyntax.Proofs.Tokens.LongestMatch
import OasisSyntax.Proofs.Printing.Punctuation
import OasisSyntax.Proofs.Parsing.Accounting
import OasisSyntax.Proofs.Tokens.Gaps
import OasisSyntax.Proofs.Tokens.InsertedBlanks
import OasisSyntax.Proofs.Parsing.RenamedStreams
import OasisSyntax.Proofs.Report.Places
import OasisSyntax.Proofs.Tokens.Ending
import OasisSyntax.Proofs.Report.Positions
import OasisSyntax.Proofs.Descent.Progress
import OasisSyntax.Proofs.Report.Statements
import OasisSyntax.Proofs.Printing.Wrapping
import OasisSyntax.Proofs.Printing.Separation
import OasisSyntax.Proofs.Report.FullSinks
import OasisSyntax.Proofs.Report.QuotedTexts
import OasisSyntax.Proofs.Report.Listings
import OasisSyntax.Proofs.Report.Columns
import OasisSyntax.Proofs.Report.Carets
import OasisSyntax.Proofs.Printing.Semicolons
