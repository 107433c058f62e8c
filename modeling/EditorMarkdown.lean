import EditorMarkdown.Main
import EditorMarkdown.Command.Memory
import EditorMarkdown.Markdown.Json
import EditorMarkdown.Proofs.Writer.Composition
import EditorMarkdown.Proofs.Conversion.Conforming
import EditorMarkdown.Proofs.Conversion.RoundTrip
import EditorMarkdown.Proofs.Article.Stability
import EditorMarkdown.Proofs.Conversion.History
import EditorMarkdown.Proofs.Conversion.Position
import EditorMarkdown.Proofs.Event.Tidy
import EditorMarkdown.Proofs.Article.Words
import EditorMarkdown.Proofs.Command.Exchange
import EditorMarkdown.Proofs.Command.Order
import EditorMarkdown.Proofs.Writer.Handlers
import EditorMarkdown.Proofs.Writer.Decoding
import EditorMarkdown.Proofs.Writer.Interruption
import EditorMarkdown.Proofs.Event.Items
import EditorMarkdown.Proofs.Writer.Tables
import EditorMarkdown.Proofs.Writer.Neighbours
import EditorMarkdown.Proofs.Writer.ParagraphLines
import EditorMarkdown.Proofs.Writer.CodeBlocks
import EditorMarkdown.Proofs.Conversion.CellBreaks
import EditorMarkdown.Proofs.Conversion.KeptMarks
import EditorMarkdown.Proofs.Conversion.Merging
import EditorMarkdown.Proofs.Writer.Flanking
import EditorMarkdown.Proofs.Writer.LinkTails
import EditorMarkdown.Proofs.Writer.CodeSpans
import EditorMarkdown.Proofs.Conversion.TextContent
import EditorMarkdown.Proofs.Markdown.Callouts
import EditorMarkdown.Proofs.Document.MarkSets
import EditorMarkdown.Proofs.Conversion.Normalized
import EditorMarkdown.Proofs.Writer.Headings
import EditorMarkdown.Proofs.Text.TaskMarkers
import EditorMarkdown.Proofs.Article.MarkOrder
import EditorMarkdown.Proofs.Conversion.Readers
