import InstructionSet.BitField
import InstructionSet.BuildError
import InstructionSet.CommandLine.Options
import InstructionSet.CommandLine.Response
import InstructionSet.Diagnostic
import InstructionSet.Digest.Sha256
import InstructionSet.Document
import InstructionSet.Enumeration
import InstructionSet.FileTree
import InstructionSet.Grammar.Attributes
import InstructionSet.Grammar.Body
import InstructionSet.Grammar.Description
import InstructionSet.Grammar.Directive
import InstructionSet.Grammar.Error
import InstructionSet.Grammar.Reader
import InstructionSet.Hexadecimal
import InstructionSet.Instruction
import InstructionSet.Instruction.Assembly
import InstructionSet.Instruction.Expansion
import InstructionSet.Json
import InstructionSet.Layout
import InstructionSet.Main
import InstructionSet.Mnemonic
import InstructionSet.Modifier
import InstructionSet.Modifier.Catalog
import InstructionSet.NameMap
import InstructionSet.Numeral
import InstructionSet.Operand.Immediate
import InstructionSet.Operand.Source
import InstructionSet.Operand.Staging
import InstructionSet.Proofs.Enumeration.Faults
import InstructionSet.Proofs.Enumeration.Keys
import InstructionSet.Proofs.Enumeration.Registry
import InstructionSet.Proofs.Expansion.Desugaring
import InstructionSet.Proofs.Expansion.Independence
import InstructionSet.Proofs.Expansion.Interleaving
import InstructionSet.Proofs.Expansion.Sessions
import InstructionSet.Proofs.Expansion.Tags
import InstructionSet.Proofs.Fallible
import InstructionSet.Proofs.Grammar.AttributeSets
import InstructionSet.Proofs.Grammar.Completeness
import InstructionSet.Proofs.Grammar.Documents
import InstructionSet.Proofs.Grammar.Endings
import InstructionSet.Proofs.Grammar.GroupBodies
import InstructionSet.Proofs.Grammar.LookAhead
import InstructionSet.Proofs.Grammar.Parallel
import InstructionSet.Proofs.Grammar.Parameters
import InstructionSet.Proofs.Grammar.Phrases
import InstructionSet.Proofs.Grammar.Places
import InstructionSet.Proofs.Grammar.Readers
import InstructionSet.Proofs.Grammar.Rearrangement
import InstructionSet.Proofs.Grammar.Recovery
import InstructionSet.Proofs.Grammar.Refills
import InstructionSet.Proofs.Grammar.Regions
import InstructionSet.Proofs.Grammar.RoundTrip
import InstructionSet.Proofs.Grammar.Rounds
import InstructionSet.Proofs.Grammar.Segments
import InstructionSet.Proofs.Grammar.SlotSearch
import InstructionSet.Proofs.Grammar.Slots
import InstructionSet.Proofs.Grammar.Soundness
import InstructionSet.Proofs.Grammar.Upcoming
import InstructionSet.Proofs.Grammar.Writing
import InstructionSet.Proofs.Instruction.Built
import InstructionSet.Proofs.Instruction.Rules
import InstructionSet.Proofs.Instruction.SecondaryOpcode
import InstructionSet.Proofs.Instruction.Widths
import InstructionSet.Proofs.Json.Compact
import InstructionSet.Proofs.Mnemonic
import InstructionSet.Proofs.NameMap
import InstructionSet.Proofs.Numeral.Decimal
import InstructionSet.Proofs.Numeral.Digits
import InstructionSet.Proofs.Numeral.Grammar
import InstructionSet.Proofs.Numeral.Scanned
import InstructionSet.Proofs.Operand.SourceBits
import InstructionSet.Proofs.Symbol
import InstructionSet.Proofs.Table.Accepted
import InstructionSet.Proofs.Table.Arrangement
import InstructionSet.Proofs.Table.Extension
import InstructionSet.Proofs.Table.Failures
import InstructionSet.Proofs.Table.Identity
import InstructionSet.Proofs.Table.Places
import InstructionSet.Proofs.Table.Queries
import InstructionSet.Proofs.Table.WellFormed
import InstructionSet.Proofs.Text.LowerCase
import InstructionSet.Proofs.Token.Lines
import InstructionSet.Proofs.Token.Order
import InstructionSet.Proofs.Token.Positions
import InstructionSet.Proofs.Token.Printing
import InstructionSet.Proofs.Token.Requests
import InstructionSet.Proofs.Token.Scanned
import InstructionSet.Proofs.Token.Spelling
import InstructionSet.Proofs.Token.Tiling
import InstructionSet.Proofs.Validation.Batches
import InstructionSet.Proofs.Validation.Capacities
import InstructionSet.Proofs.Validation.Errors
import InstructionSet.Proofs.Validation.Verdicts
import InstructionSet.Symbol
import InstructionSet.Table
import InstructionSet.Table.Canonical
import InstructionSet.Text.Alphabetic
import InstructionSet.Text.Casing
import InstructionSet.Text.CodeRange
import InstructionSet.Text.LowerCase
import InstructionSet.Text.Position
import InstructionSet.Text.WhiteSpace
import InstructionSet.Token
import InstructionSet.Token.Scanner
import InstructionSet.Validation
import InstructionSet.Validator
import InstructionSet.Proofs.Grammar.ReportOrder
