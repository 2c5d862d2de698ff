import EcmaSyntax.Text.LineMap
import EcmaSyntax.Text.NameTable
import EcmaSyntax.Unicode.Identifier
import EcmaSyntax.Diagnostic.Failure
import EcmaSyntax.Scope.Labels
import EcmaSyntax.Scope.PrivateNames
import EcmaSyntax.Scope.Exports
import EcmaSyntax.Number.Binary64
import EcmaSyntax.Json.Writer
import EcmaSyntax.Options
import EcmaSyntax.Token.Basic
import EcmaSyntax.Lexer.Lexeme
import EcmaSyntax.Lexer.Quoted
import EcmaSyntax.Lexer.Numeral
import EcmaSyntax.Lexer.Regex
import EcmaSyntax.Lexer.Trivia
import EcmaSyntax.Lexer.Markup
import EcmaSyntax.Lexer.Scan
import EcmaSyntax.Token.Operator
import EcmaSyntax.Grammar.Context
import EcmaSyntax.Tree.Basic
import EcmaSyntax.Grammar.Program
import EcmaSyntax.Tree.Json
import EcmaSyntax.Print.Program
import EcmaSyntax.Main
import EcmaSyntax.Proofs.Cover.Form
import EcmaSyntax.Proofs.Grammar.Outcome
import EcmaSyntax.Proofs.Cover.Phrases
import EcmaSyntax.Proofs.Cover.Class
import EcmaSyntax.Proofs.Cover.Primary
import EcmaSyntax.Proofs.Cover.Operation
import EcmaSyntax.Proofs.Cover.Statement
import EcmaSyntax.Proofs.Cover.Program
import EcmaSyntax.Proofs.Tree.Patterns
import EcmaSyntax.Proofs.Lexer.Words
import EcmaSyntax.Proofs.Lexer.Spelling
import EcmaSyntax.Proofs.Formula.Form
import EcmaSyntax.Proofs.Formula.Text
import EcmaSyntax.Proofs.Formula.Ahead
import EcmaSyntax.Proofs.Formula.Reading
import EcmaSyntax.Proofs.Formula.Lists
import EcmaSyntax.Proofs.Formula.Chains
import EcmaSyntax.Proofs.Formula.Operations
import EcmaSyntax.Proofs.Formula.RoundTrip
import EcmaSyntax.Proofs.Lexer.NumeralTokens
import EcmaSyntax.Proofs.Lexer.Lexemes
import EcmaSyntax.Proofs.Lexer.Gap
import EcmaSyntax.Proofs.Outcome
import EcmaSyntax.Proofs.Lexer.Steps
import EcmaSyntax.Proofs.Scanner.Safety
import EcmaSyntax.Proofs.Grammar.Tiling
import EcmaSyntax.Proofs.Scope.Layout
import EcmaSyntax.Proofs.Scope.Frames
import EcmaSyntax.Proofs.Scope.Redeclaration
import EcmaSyntax.Proofs.Tree.Node
import EcmaSyntax.Proofs.Formula.Recovery
import EcmaSyntax.Proofs.Grammar.Conversion
import EcmaSyntax.Proofs.Grammar.Outline
import EcmaSyntax.Proofs.Grouping.Program
import EcmaSyntax.Proofs.Output.Program
import EcmaSyntax.Proofs.Jumps.Program
import EcmaSyntax.Proofs.Places.Program
import EcmaSyntax.Proofs.Places.Strictness
import EcmaSyntax.Proofs.Scope.ClassRuns
import EcmaSyntax.Proofs.Progress.Program
import EcmaSyntax.Proofs.Chains.Program
import EcmaSyntax.Proofs.Modules.Program
import EcmaSyntax.Proofs.Spans.Program
import EcmaSyntax.Proofs.Lexer.Regexes
import EcmaSyntax.Proofs.Print.Quotes
import EcmaSyntax.Proofs.Print.Guards
import EcmaSyntax.Proofs.Lexer.Names
import EcmaSyntax.Proofs.Lexer.Surrogates
import EcmaSyntax.Proofs.Lexer.Templates
import EcmaSyntax.Proofs.Lexer.LookAhead
import EcmaSyntax.Proofs.Text.Lines
import EcmaSyntax.Proofs.Patterns.Program
import EcmaSyntax.Proofs.Stacks.Program
