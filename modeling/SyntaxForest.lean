import SyntaxForest.Builder.Step
import SyntaxForest.Report.Collection
import SyntaxForest.Report.Terminal
import SyntaxForest.Proofs.Forest.Lookup
import SyntaxForest.Proofs.Forest.Store
import SyntaxForest.Proofs.Forest.Cells
import SyntaxForest.Proofs.Forest.Acts
import SyntaxForest.Proofs.Forest.Tree
import SyntaxForest.Proofs.Forest.Ancestry
import SyntaxForest.Proofs.Forest.Exchange
import SyntaxForest.Proofs.Forest.Rollback
import SyntaxForest.Proofs.Forest.Grouping
import SyntaxForest.Proofs.Forest.Regrouping
import SyntaxForest.Proofs.Forest.History
import SyntaxForest.Proofs.Forest.Fitting
import SyntaxForest.Proofs.Builder.Reach
import SyntaxForest.Proofs.Document.Built
import SyntaxForest.Proofs.Forest.Leading
import SyntaxForest.Proofs.Document.Overloads
import SyntaxForest.Proofs.Forest.Reading
import SyntaxForest.Proofs.Builder.Making
import SyntaxForest.Proofs.Builder.Building
import SyntaxForest.Proofs.Builder.Lasting
import SyntaxForest.Proofs.Builder.Checks
import SyntaxForest.Proofs.Forest.Preorder
import SyntaxForest.Proofs.Forest.Visits
import SyntaxForest.Proofs.Forest.Walks
import SyntaxForest.Proofs.Document.Slots
import SyntaxForest.Proofs.Report.Collected
import SyntaxForest.Proofs.Builder.Carrying
import SyntaxForest.Proofs.Builder.Frames
import SyntaxForest.Proofs.Builder.Ledger
import SyntaxForest.Proofs.Forest.Locals
import SyntaxForest.Proofs.Document.MatchLocals
import SyntaxForest.Proofs.Source.Positions
import SyntaxForest.Proofs.Report.Queued
import SyntaxForest.Proofs.Report.Reported
import SyntaxForest.Proofs.Forest.Abiding
import SyntaxForest.Proofs.Forest.Fates
import SyntaxForest.Proofs.Forest.Regrouped
import SyntaxForest.Proofs.Document.Preservation
import SyntaxForest.Proofs.Forest.Moves
import SyntaxForest.Proofs.Forest.Evolution
import SyntaxForest.Proofs.Forest.Rules
import SyntaxForest.Proofs.Forest.Specialized
import SyntaxForest.Proofs.Report.Calls
import SyntaxForest.Proofs.Syntax.Numbering
import SyntaxForest.Proofs.Syntax.Interning
import SyntaxForest.Proofs.Document.Requests
import SyntaxForest.Proofs.Document.Decorations
import SyntaxForest.Proofs.Forest.Contents
import SyntaxForest.Proofs.Forest.Arrivals
import SyntaxForest.Proofs.Builder.Arrivals
import SyntaxForest.Proofs.Document.Immutability
import SyntaxForest.Proofs.Forest.Residue
import SyntaxForest.Proofs.Builder.Residue
import SyntaxForest.Proofs.Builder.Closing
import SyntaxForest.Proofs.Forest.Beyond
import SyntaxForest.Proofs.Forest.Unguarded
import SyntaxForest.Proofs.Forest.RegroupUnguarded
import SyntaxForest.Proofs.Builder.Unguarded
import SyntaxForest.Proofs.Report.Unguarded
import SyntaxForest.Proofs.Source.Scanning
import SyntaxForest.Proofs.Source.Order
import SyntaxForest.Proofs.Report.Placing
import SyntaxForest.Proofs.Numeral.Digits
import SyntaxForest.Proofs.Numeral.Rounding
import SyntaxForest.Proofs.Numeral.FloatText
import SyntaxForest.Proofs.Numeral.Written
import SyntaxForest.Proofs.Syntax.Literals
import SyntaxForest.Proofs.Syntax.Spelling
import SyntaxForest.Proofs.Syntax.LineBreaks
import SyntaxForest.Proofs.Forest.Outlines
import SyntaxForest.Proofs.Forest.Depths
import SyntaxForest.Proofs.Builder.Depths
import SyntaxForest.Proofs.Document.Safety
import SyntaxForest.Proofs.Report.Repeats
import SyntaxForest.Proofs.Report.Overflow
import SyntaxForest.Proofs.Document.WriteOrder
import SyntaxForest.Proofs.Report.Assembled
import SyntaxForest.Proofs.Report.Colours
import SyntaxForest.Proofs.Forest.Owners
import SyntaxForest.Proofs.Forest.Columns
import SyntaxForest.Proofs.Forest.InColumns
import SyntaxForest.Proofs.Forest.Mirrored
import SyntaxForest.Proofs.Forest.Tables
