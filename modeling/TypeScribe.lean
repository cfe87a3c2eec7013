import TypeScribe.Command.Arguments
import TypeScribe.Main
import TypeScribe.Proofs.Text.Position
import TypeScribe.Proofs.Conversion.Edit
import TypeScribe.Proofs.Conversion.Splice
import TypeScribe.Proofs.Conversion.Choice
import TypeScribe.Proofs.Scan.Suffix
import TypeScribe.Proofs.Scan.Steadiness
import TypeScribe.Proofs.Text.CharClass
import TypeScribe.Proofs.TypeExpr.ReadBack
import TypeScribe.Proofs.TsType.Emission
import TypeScribe.Proofs.Scan.Keywords
import TypeScribe.Proofs.Scan.Declared
import TypeScribe.Proofs.Conversion.Scanning
import TypeScribe.Proofs.Scan.Cursor
import TypeScribe.Proofs.Conversion.CommentLines
import TypeScribe.Proofs.Conversion.ClassText
import TypeScribe.Proofs.Conversion.Order
import TypeScribe.Proofs.Conversion.Settings
import TypeScribe.Proofs.Conversion.AttributeLines
import TypeScribe.Proofs.Conversion.LineEndings
import TypeScribe.Proofs.Command.Effect
import TypeScribe.Proofs.Scan.RefusedProperty
import TypeScribe.Proofs.Conversion.WordStarts
import TypeScribe.Proofs.Conversion.HeaderBrace
import TypeScribe.Proofs.Scan.SummaryBlock
import TypeScribe.Proofs.Scan.BlockComment
import TypeScribe.Proofs.Conversion.Summaries
import TypeScribe.Proofs.TsType.Absence
import TypeScribe.Proofs.TsType.Retraction
import TypeScribe.Proofs.Conversion.PropertyLine
import TypeScribe.Proofs.Conversion.TakenLine
import TypeScribe.Proofs.TypeExpr.FaultSpan
import TypeScribe.Proofs.Conversion.LiteralValue
import TypeScribe.Proofs.Text.Trimmed
import TypeScribe.Proofs.Name.Trimming
import TypeScribe.Proofs.Settings.Postfixes
import TypeScribe.Proofs.Conversion.Spelling
import TypeScribe.Proofs.Scan.DeclaredHeader
import TypeScribe.Proofs.Conversion.PublicHeader
import TypeScribe.Proofs.Report
import TypeScribe.Proofs.Settings.Occurrences
import TypeScribe.Proofs.Settings.Validation
import TypeScribe.Proofs.Toml.Document
import TypeScribe.Proofs.Settings.PostfixFile
