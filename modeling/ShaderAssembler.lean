import ShaderAssembler.Assembler.Basic
import ShaderAssembler.Assembler.Config
import ShaderAssembler.Assembler.Source
import ShaderAssembler.CommandLine.Options
import ShaderAssembler.CommandLine.Script
import ShaderAssembler.CommandLine.Session
import ShaderAssembler.Disassembly.Binary
import ShaderAssembler.Disassembly.Listing
import ShaderAssembler.Disassembly.Statement
import ShaderAssembler.Encoder.Basic
import ShaderAssembler.Encoder.Error
import ShaderAssembler.Encoder.Statement
import ShaderAssembler.Encoder.TwoSource
import ShaderAssembler.File
import ShaderAssembler.Instruction.Basic
import ShaderAssembler.Instruction.Opcode
import ShaderAssembler.Json.Parser
import ShaderAssembler.Json.Printer
import ShaderAssembler.Json.Record
import ShaderAssembler.Json.Value
import ShaderAssembler.Listing
import ShaderAssembler.Log
import ShaderAssembler.Main
import ShaderAssembler.Operand.Basic
import ShaderAssembler.Operand.Classify
import ShaderAssembler.Operand.Kind
import ShaderAssembler.Operand.Spelling
import ShaderAssembler.Proofs.AcceptedOperands
import ShaderAssembler.Proofs.Binary
import ShaderAssembler.Proofs.BitField
import ShaderAssembler.Proofs.CodeRange
import ShaderAssembler.Proofs.CommandRun
import ShaderAssembler.Proofs.Concatenation
import ShaderAssembler.Proofs.Disassembly
import ShaderAssembler.Proofs.Field
import ShaderAssembler.Proofs.FieldRuns
import ShaderAssembler.Proofs.FirstFault
import ShaderAssembler.Proofs.JsonText
import ShaderAssembler.Proofs.JsonToken
import ShaderAssembler.Proofs.Line
import ShaderAssembler.Proofs.LineEnd
import ShaderAssembler.Proofs.LineWords
import ShaderAssembler.Proofs.ListingText
import ShaderAssembler.Proofs.NextField
import ShaderAssembler.Proofs.NumberOperand
import ShaderAssembler.Proofs.Numeral
import ShaderAssembler.Proofs.NumeralGrammar
import ShaderAssembler.Proofs.OperandCode
import ShaderAssembler.Proofs.OperandGrammar
import ShaderAssembler.Proofs.OutputFiles
import ShaderAssembler.Proofs.PackingRun
import ShaderAssembler.Proofs.PartialDocument
import ShaderAssembler.Proofs.ReachableInstructions
import ShaderAssembler.Proofs.Refusal
import ShaderAssembler.Proofs.Registration
import ShaderAssembler.Proofs.RunLog
import ShaderAssembler.Proofs.RunReport
import ShaderAssembler.Proofs.ShadowedOperands
import ShaderAssembler.Proofs.SkippedLine
import ShaderAssembler.Proofs.Source
import ShaderAssembler.Proofs.Spacing
import ShaderAssembler.Proofs.Spelling
import ShaderAssembler.Proofs.StoppedRun
import ShaderAssembler.Proofs.StrictReading
import ShaderAssembler.Proofs.TableDocument
import ShaderAssembler.Proofs.TableFaults
import ShaderAssembler.Proofs.TableOrder
import ShaderAssembler.Proofs.TextBytes
import ShaderAssembler.Proofs.TextLines
import ShaderAssembler.Proofs.TwoSource
import ShaderAssembler.Tables.Basic
import ShaderAssembler.Tables.Document
import ShaderAssembler.Tables.Error
import ShaderAssembler.Tables.SouthernIslands
import ShaderAssembler.Tables.Validation
import ShaderAssembler.Text.Basic
import ShaderAssembler.Text.Field
import ShaderAssembler.Text.Numeral
import ShaderAssembler.Word.BitField
import ShaderAssembler.Word.MachineCode
import ShaderAssembler.Word.Packing
