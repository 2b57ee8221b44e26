import Calculator.Main
import Calculator.Proofs.Lexing.Spelling
import Calculator.Proofs.Lexing.Tiling
import Calculator.Proofs.Lexing.Partition
import Calculator.Proofs.Lexing.Growth
import Calculator.Proofs.Lexing.Requests
import Calculator.Proofs.Parsing.Grammar
import Calculator.Proofs.Parsing.Acceptance
import Calculator.Proofs.Compiling.Digits
import Calculator.Proofs.Compiling.Meaning
import Calculator.Proofs.Parsing.Frontier
import Calculator.Proofs.Parsing.Moves
import Calculator.Proofs.Parsing.Reports
import Calculator.Proofs.Parsing.Reader
import Calculator.Proofs.Parsing.Tracking
import Calculator.Proofs.Parsing.History
import Calculator.Proofs.Decimal.Range
import Calculator.Proofs.Parsing.Heights
import Calculator.Proofs.Compiling.Endings
import Calculator.Proofs.Compiling.Replies
import Calculator.Proofs.Decimal.Fractions
import Calculator.Proofs.Parsing.Progress
import Calculator.Proofs.Trees.Nodes
import Calculator.Proofs.Parsing.Kinds
import Calculator.Proofs.Parsing.Placeholders
import Calculator.Proofs.Trees.Moving
import Calculator.Proofs.Compiling.Congruence
import Calculator.Proofs.Compiling.Policies
import Calculator.Proofs.Parsing.Nesting
import Calculator.Proofs.Parsing.Lockstep
import Calculator.Proofs.Lexing.Joining
import Calculator.Proofs.Compiling.Layout
import Calculator.Proofs.Parsing.Programs
import Calculator.Proofs.Compiling.Triples
import Calculator.Proofs.Compiling.Failures
import Calculator.Proofs.Compiling.Scopes
import Calculator.Proofs.Compiling.Causes
import Calculator.Proofs.Lexing.Blanks
import Calculator.Proofs.Trees.Lacking
import Calculator.Proofs.Parsing.Faults
import Calculator.Proofs.Parsing.Extension
import Calculator.Proofs.Parsing.Gaps
import Calculator.Proofs.Parsing.Omissions
import Calculator.Proofs.Parsing.Recovery
import Calculator.Proofs.Lexing.Positions
import Calculator.Proofs.Lexing.Respelling
import Calculator.Proofs.Compiling.Frames
import Calculator.Proofs.Parsing.Lookahead
import Calculator.Proofs.Trees.Recursion
import Calculator.Proofs.Compiling.Literals
import Calculator.Proofs.Compiling.Feedback
import Calculator.Proofs.Commands.Sessions
import Calculator.Proofs.Compiling.Depths
import Calculator.Proofs.Lexing.Streams
import Calculator.Proofs.Settings.Files
