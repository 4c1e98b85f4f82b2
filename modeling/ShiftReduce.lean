import ShiftReduce.Tables.Json
import ShiftReduce.Parser.Run
import ShiftReduce.Parser.Registry
import ShiftReduce.Main
import ShiftReduce.Proofs.Stack
import ShiftReduce.Proofs.Recording
import ShiftReduce.Proofs.Control
import ShiftReduce.Proofs.ErrorStatus
import ShiftReduce.Proofs.Progress
import ShiftReduce.Proofs.Consumption
import ShiftReduce.Proofs.Tracing
import ShiftReduce.Proofs.PassThrough
import ShiftReduce.Proofs.Calculator.Books
import ShiftReduce.Proofs.Calculator.Diagnostics
import ShiftReduce.Proofs.Laziness
import ShiftReduce.Proofs.ValueFlow
import ShiftReduce.Proofs.Calculator.Streams
import ShiftReduce.Proofs.Calculator.Unfinished
import ShiftReduce.Proofs.LexerCalls
import ShiftReduce.Proofs.Translation
import ShiftReduce.Proofs.Validation
import ShiftReduce.Proofs.Reduction
import ShiftReduce.Proofs.Recovery
import ShiftReduce.Proofs.Calculator.Lexing
import ShiftReduce.Proofs.Calculator.CommandLine
import ShiftReduce.Proofs.Json.Definitions
import ShiftReduce.Proofs.TraceText
import ShiftReduce.Proofs.Ledger
import ShiftReduce.Proofs.Agreement
import ShiftReduce.Proofs.Brackets
import ShiftReduce.Proofs.Calculator.Variables
import ShiftReduce.Proofs.Calculator.PrintedTokens
import ShiftReduce.Proofs.FlagTexts
import ShiftReduce.Proofs.Calculator.Descriptions
