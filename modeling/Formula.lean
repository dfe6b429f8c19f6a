import Formula.Binary
import Formula.Binary.Decimal
import Formula.CommandLine
import Formula.CommandLine.Arguments
import Formula.CommandLine.Help
import Formula.Constant
import Formula.Constant.Apply
import Formula.Diagnosis
import Formula.Dictionary
import Formula.Error
import Formula.Evaluation
import Formula.Instruction
import Formula.Integer
import Formula.Kind
import Formula.Language
import Formula.Listing
import Formula.LocalMap
import Formula.Lowering
import Formula.Main
import Formula.Number
import Formula.Number.Text
import Formula.Operator
import Formula.Operator.Match
import Formula.Operator.Table
import Formula.Pool
import Formula.Proofs.Binary.Decimal
import Formula.Proofs.Binary.Order
import Formula.Proofs.Binary.Rounding
import Formula.Proofs.CommandLine
import Formula.Proofs.CommandLine.Sources
import Formula.Proofs.Constant.Comparison
import Formula.Proofs.Constant.Definedness
import Formula.Proofs.Constant.Integral
import Formula.Proofs.Constant.Kinds
import Formula.Proofs.Diagnosis
import Formula.Proofs.Diagnosis.References
import Formula.Proofs.Evaluation.Answers
import Formula.Proofs.Evaluation.Chains
import Formula.Proofs.Evaluation.Discarding
import Formula.Proofs.Evaluation.Errors
import Formula.Proofs.Evaluation.Recursion
import Formula.Proofs.Expression
import Formula.Proofs.Expression.Prefix
import Formula.Proofs.Language
import Formula.Proofs.Limits
import Formula.Proofs.LocalMap
import Formula.Proofs.Lowering.Arity
import Formula.Proofs.Lowering.Assembly
import Formula.Proofs.Lowering.Completion
import Formula.Proofs.Lowering.Depth
import Formula.Proofs.Lowering.Errors
import Formula.Proofs.Lowering.Plans
import Formula.Proofs.Lowering.Pools
import Formula.Proofs.Lowering.PostOrder
import Formula.Proofs.Lowering.Recursion
import Formula.Proofs.Machine
import Formula.Proofs.Machine.Conversions
import Formula.Proofs.Machine.Depth
import Formula.Proofs.Machine.Operators
import Formula.Proofs.Machine.Simulation
import Formula.Proofs.Machine.TypedCode
import Formula.Proofs.Machine.Typing
import Formula.Proofs.Malformed
import Formula.Proofs.Number.Layout
import Formula.Proofs.Number.Text
import Formula.Proofs.Operator.Matching
import Formula.Proofs.Operator.Munch
import Formula.Proofs.Pool
import Formula.Proofs.Pool.Uses
import Formula.Proofs.Reduction.Errors
import Formula.Proofs.Reduction.Recursion
import Formula.Proofs.Reduction.Structure
import Formula.Proofs.Source.Bytes
import Formula.Proofs.Source.Faults
import Formula.Proofs.Source.Grammar
import Formula.Proofs.Source.Grouping
import Formula.Proofs.Source.Keywords
import Formula.Proofs.Source.Lexer
import Formula.Proofs.Source.Lexing
import Formula.Proofs.Source.LiteralBody
import Formula.Proofs.Source.Magnitude
import Formula.Proofs.Source.Names
import Formula.Proofs.Source.NodeTable
import Formula.Proofs.Source.NumberReadings
import Formula.Proofs.Source.Numeral
import Formula.Proofs.Source.NumericLiteral
import Formula.Proofs.Source.Parser
import Formula.Proofs.Source.Phrase
import Formula.Proofs.Source.Places
import Formula.Proofs.Source.Quoted
import Formula.Proofs.Source.Readings
import Formula.Proofs.Source.Trees
import Formula.Proofs.Text.Escape
import Formula.Proofs.Typing.Completeness
import Formula.Proofs.Typing.Elaboration
import Formula.Proofs.Typing.Equality
import Formula.Proofs.Typing.Preorder
import Formula.Proofs.Typing.Soundness
import Formula.Reduction
import Formula.Source.Cursor
import Formula.Source.Lexeme
import Formula.Source.Lexer
import Formula.Source.NodeTable
import Formula.Source.Numeral
import Formula.Source.Parser
import Formula.Source.Quoted
import Formula.StaticType
import Formula.Text.Blank
import Formula.Text.Escape
import Formula.Text.Visible
import Formula.Token
import Formula.TypedExpression
import Formula.Typing
