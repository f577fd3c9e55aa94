import WordAsm.Address
import WordAsm.Assembly
import WordAsm.Command.Exit
import WordAsm.Command.Options
import WordAsm.Command.Progress
import WordAsm.Command.Run
import WordAsm.Constant.Basic
import WordAsm.Constant.Compile
import WordAsm.Cursor
import WordAsm.Diagnostic
import WordAsm.Disassembly
import WordAsm.Disk
import WordAsm.Encoding
import WordAsm.Failure
import WordAsm.Files
import WordAsm.Image
import WordAsm.Instruction
import WordAsm.Lexeme.Basic
import WordAsm.Lexeme.Numeral
import WordAsm.Lexeme.Scan
import WordAsm.Listing
import WordAsm.Location
import WordAsm.Machine
import WordAsm.Main
import WordAsm.Operand
import WordAsm.Path
import WordAsm.Section
import WordAsm.SymbolFile
import WordAsm.Symbols
import WordAsm.Table
import WordAsm.Text.Blank
import WordAsm.Text.CloseMatch
import WordAsm.Text.CodePoints
import WordAsm.Text.Digit
import WordAsm.Text.Lines
import WordAsm.Text.Number
import WordAsm.Text.Plain
import WordAsm.Text.Printable
import WordAsm.Text.Quoted
import WordAsm.Text.UpperCase
import WordAsm.Text.Utf8
import WordAsm.Token
import WordAsm.Token.Reading
import WordAsm.Token.Rendering
import WordAsm.Workbench
import WordAsm.Proofs.Encoding.Grammar
import WordAsm.Proofs.Encoding.Addresses
import WordAsm.Proofs.Constant.Declarations
import WordAsm.Proofs.Symbols
import WordAsm.Proofs.Assembly.Stages
import WordAsm.Proofs.Assembly.Emission
import WordAsm.Proofs.Token.Reads
import WordAsm.Proofs.Program.Syntax
import WordAsm.Proofs.Section
import WordAsm.Proofs.Program.Tokens
import WordAsm.Proofs.Program.Translation
import WordAsm.Proofs.Disassembly
import WordAsm.Proofs.Text.Case
import WordAsm.Proofs.Token.Language
import WordAsm.Proofs.Token.Continuation
import WordAsm.Proofs.Workbench
import WordAsm.Proofs.Assembly.Extension
import WordAsm.Proofs.Session
import WordAsm.Proofs.Token.Spans
import WordAsm.Proofs.Token.Lines
import WordAsm.Proofs.Text.Lines
import WordAsm.Proofs.Listing
import WordAsm.Proofs.Assembly.Failures
import WordAsm.Proofs.Encoding.Failures
import WordAsm.Proofs.Token.Failures
import WordAsm.Proofs.Assembly.Range
import WordAsm.Proofs.Token.Tiling
import WordAsm.Proofs.Assembly.Closure
import WordAsm.Proofs.Correspondence.Basic
import WordAsm.Proofs.Correspondence.Stages
import WordAsm.Proofs.Correspondence.Encoding
import WordAsm.Proofs.Assembly.Renaming
import WordAsm.Proofs.Assembly.Exchange
import WordAsm.Proofs.Token.Resumption
import WordAsm.Proofs.Correspondence.Places
import WordAsm.Proofs.Assembly.SectionOrder
import WordAsm.Proofs.Assembly.Filler
import WordAsm.Proofs.Disk
import WordAsm.Proofs.Command.Effects
import WordAsm.Proofs.Constant.Outcomes
import WordAsm.Proofs.Encoding.Completion
import WordAsm.Proofs.Token.LetterCase
import WordAsm.Proofs.Assembly.LetterCase
import WordAsm.Proofs.Text.CarriageReturns
import WordAsm.Proofs.Token.CarriageReturns
import WordAsm.Proofs.Assembly.CarriageReturns
import WordAsm.Proofs.Section.Partition
import WordAsm.Proofs.Symbols.Outcomes
import WordAsm.Proofs.Token.Carets
import WordAsm.Proofs.Encoding.Invariant
import WordAsm.Proofs.Image.Outcomes
import WordAsm.Proofs.SymbolFile
import WordAsm.Proofs.Token.Numbering
