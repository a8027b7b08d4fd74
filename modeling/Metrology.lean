import Metrology.Text.Ranges
import Metrology.Text.Blank
import Metrology.Text.Digit
import Metrology.Text.Word
import Metrology.Text.Printable
import Metrology.Text.Quoted
import Metrology.Text.Lines
import Metrology.Text.Search
import Metrology.Error
import Metrology.Number.Numeral
import Metrology.Number.Literal
import Metrology.Number.Decimal
import Metrology.Number.Binary64
import Metrology.Number.Scientific
import Metrology.Number.Scientific.Rounding
import Metrology.Number.Scientific.Arithmetic
import Metrology.Number.Scientific.Power
import Metrology.Number.Exact
import Metrology.Number.Modular
import Metrology.Number.Number
import Metrology.Number.Arithmetic
import Metrology.Name
import Metrology.Dimension
import Metrology.Unit
import Metrology.Measurement
import Metrology.Quantity
import Metrology.Expression.Token
import Metrology.Expression.Tree
import Metrology.Expression.Parser
import Metrology.Table
import Metrology.Event
import Metrology.Catalogue
import Metrology.Catalogue.Activity
import Metrology.Database.Dialect
import Metrology.Database.Comment
import Metrology.Database.Record
import Metrology.Database.Declaration
import Metrology.Database.Reader
import Metrology.Calculator.Value
import Metrology.Calculator.Comparison
import Metrology.Calculator.Label
import Metrology.Calculator.Operator
import Metrology.Calculator.Operation
import Metrology.Calculator.Naming
import Metrology.Calculator.Formula
import Metrology.Calculator.Register
import Metrology.Calculator.Session
import Metrology.Calculator.Catalogue
import Metrology.Calculator.Member
import Metrology.Calculator.Setting
import Metrology.Calculator.Surface
import Metrology.Proofs.Dimension.Exponent
import Metrology.Proofs.Measurement.BaseValue
import Metrology.Proofs.Quantity.Amount
import Metrology.Proofs.Expression.Evaluation
import Metrology.Proofs.Expression.Inlining
import Metrology.Proofs.Table.Definitions
import Metrology.Proofs.Catalogue.Cache
import Metrology.Proofs.Measurement.Order
import Metrology.Proofs.Catalogue.Reads
import Metrology.Proofs.Catalogue.Run
import Metrology.Proofs.Catalogue.Meaning
import Metrology.Proofs.Catalogue.Order
import Metrology.Proofs.Text.Runs
import Metrology.Proofs.Number.Decimal
import Metrology.Proofs.Number.Rendering
import Metrology.Proofs.Expression.Forms
import Metrology.Proofs.Expression.Grammar
import Metrology.Proofs.Expression.Parsing
import Metrology.Proofs.Expression.Scanning
import Metrology.Proofs.Expression.Printing
import Metrology.Proofs.Expression.Composing
import Metrology.Proofs.Unit.Naming
import Metrology.Proofs.Database.Feed
import Metrology.Proofs.Database.Names
import Metrology.Proofs.Database.Missing
import Metrology.Proofs.Database.Skipping
import Metrology.Proofs.Database.Recovery
import Metrology.Proofs.Database.Course
import Metrology.Proofs.Database.Binding
import Metrology.Proofs.Database.Blank
import Metrology.Proofs.Database.Accounting
import Metrology.Proofs.Dimension.Group
import Metrology.Proofs.Unit.Chain
import Metrology.Proofs.Calculator.Operators
import Metrology.Proofs.Calculator.Operation
import Metrology.Proofs.Calculator.Formula
import Metrology.Proofs.Calculator.Register
import Metrology.Proofs.Calculator.Sorting
import Metrology.Proofs.Calculator.Session
import Metrology.Proofs.Calculator.Catalogue
import Metrology.Proofs.Calculator.Member
import Metrology.Proofs.Calculator.Setting
import Metrology.Proofs.Calculator.Unusable
import Metrology.Proofs.Calculator.Naming
import Metrology.Proofs.Calculator.Surface
import Metrology.Proofs.Measurement.Arithmetic
import Metrology.Proofs.Database.Defined
import Metrology.Proofs.Unit.Group
import Metrology.Proofs.Database.Comments
import Metrology.Proofs.Database.Provenance
import Metrology.Proofs.Database.Joining
import Metrology.Proofs.Database.Appending
import Metrology.Proofs.Database.Classification
import Metrology.Proofs.Expression.Lexemes
import Metrology.Proofs.Expression.Tokens
import Metrology.Proofs.Number.Literal
import Metrology.Proofs.Number.Positional
import Metrology.Proofs.Number.Separators
import Metrology.Proofs.Expression.Layout
import Metrology.Proofs.Expression.Numbers
import Metrology.Proofs.Catalogue.Reach
import Metrology.Proofs.Catalogue.Juxtaposition
import Metrology.Proofs.Number.Rounding
import Metrology.Proofs.Expression.Delimiters
import Metrology.Proofs.Expression.Attaching
import Metrology.Proofs.Catalogue.Naming
import Metrology.Proofs.Expression.Shape
import Metrology.Proofs.Catalogue.Shape
import Metrology.Proofs.Unit.FactorText
