import UiMarkdown.Calendar.Date
import UiMarkdown.Calendar.Moment
import UiMarkdown.Calendar.Pattern
import UiMarkdown.Calendar.Style
import UiMarkdown.Compile.Document
import UiMarkdown.Compile.Fragment
import UiMarkdown.Compile.Options
import UiMarkdown.Compile.Stack
import UiMarkdown.Compile.Tree
import UiMarkdown.Document.Decode
import UiMarkdown.Document.Encode
import UiMarkdown.Document.Fragment
import UiMarkdown.Document.Node
import UiMarkdown.Document.Normal
import UiMarkdown.Document.References
import UiMarkdown.Json.Basic
import UiMarkdown.Json.Reader
import UiMarkdown.Json.Writer
import UiMarkdown.Markdown.Angle
import UiMarkdown.Markdown.Draft
import UiMarkdown.Markdown.Emphasis
import UiMarkdown.Markdown.Entity
import UiMarkdown.Markdown.EntityTable
import UiMarkdown.Markdown.Inline
import UiMarkdown.Markdown.Line
import UiMarkdown.Markdown.Parse
import UiMarkdown.Markdown.Row
import UiMarkdown.Markdown.Spine
import UiMarkdown.Markdown.Start
import UiMarkdown.Markdown.Target
import UiMarkdown.Markdown.Tree
import UiMarkdown.Number.Binary64
import UiMarkdown.Number.Decimal
import UiMarkdown.Number.Literal
import UiMarkdown.Proofs.Compile.Carried
import UiMarkdown.Proofs.Compile.Document
import UiMarkdown.Proofs.Compile.Fragment
import UiMarkdown.Proofs.Compile.Group
import UiMarkdown.Proofs.Compile.Html
import UiMarkdown.Proofs.Compile.Numbering
import UiMarkdown.Proofs.Compile.Prose
import UiMarkdown.Proofs.Compile.Storable
import UiMarkdown.Proofs.Compile.Walk
import UiMarkdown.Proofs.Document.Carried
import UiMarkdown.Proofs.Document.Dependencies
import UiMarkdown.Proofs.Document.Flat
import UiMarkdown.Proofs.Document.Ids
import UiMarkdown.Proofs.Document.Imageless
import UiMarkdown.Proofs.Document.Json
import UiMarkdown.Proofs.Document.Mark
import UiMarkdown.Proofs.Document.Outline
import UiMarkdown.Proofs.Document.Restored
import UiMarkdown.Proofs.Document.Run
import UiMarkdown.Proofs.Document.Shorthand
import UiMarkdown.Proofs.Document.Stable
import UiMarkdown.Proofs.Document.Strings
import UiMarkdown.Proofs.Document.Visit
import UiMarkdown.Proofs.Document.Whole
import UiMarkdown.Proofs.Json.Object
import UiMarkdown.Proofs.Json.Ordered
import UiMarkdown.Proofs.Markdown.Bare
import UiMarkdown.Proofs.Markdown.Code
import UiMarkdown.Proofs.Markdown.Gap
import UiMarkdown.Proofs.Markdown.Line
import UiMarkdown.Proofs.Markdown.Nesting
import UiMarkdown.Proofs.Markdown.Plain
import UiMarkdown.Proofs.Markdown.Position
import UiMarkdown.Proofs.Markdown.RawHtml
import UiMarkdown.Proofs.Markdown.Sequence
import UiMarkdown.Proofs.Markdown.Size
import UiMarkdown.Proofs.Markdown.Target
import UiMarkdown.Proofs.Mask.Lossless
import UiMarkdown.Proofs.Mask.Restored
import UiMarkdown.Proofs.Mask.Settled
import UiMarkdown.Proofs.Mask.Spread
import UiMarkdown.Proofs.Mask.Token
import UiMarkdown.Proofs.Source.Alone
import UiMarkdown.Proofs.Source.Boundary
import UiMarkdown.Proofs.Source.Directive
import UiMarkdown.Proofs.Source.Draft
import UiMarkdown.Proofs.Source.Excerpt
import UiMarkdown.Proofs.Source.Fence
import UiMarkdown.Proofs.Source.Flat
import UiMarkdown.Proofs.Source.Frontmatter
import UiMarkdown.Proofs.Source.Legacy
import UiMarkdown.Proofs.Source.Loop
import UiMarkdown.Proofs.Source.Markup
import UiMarkdown.Proofs.Source.Metadata
import UiMarkdown.Proofs.Source.Payload
import UiMarkdown.Proofs.Source.Pieces
import UiMarkdown.Proofs.Source.Plain
import UiMarkdown.Proofs.Source.Rebuild
import UiMarkdown.Proofs.Source.RoundTrip
import UiMarkdown.Proofs.Source.Sections
import UiMarkdown.Proofs.Source.Separate
import UiMarkdown.Proofs.Source.Spacing
import UiMarkdown.Proofs.Source.Split
import UiMarkdown.Proofs.Template.Canonical
import UiMarkdown.Proofs.Template.Chaining
import UiMarkdown.Proofs.Template.Expression
import UiMarkdown.Proofs.Template.Piece
import UiMarkdown.Proofs.Template.Quoting
import UiMarkdown.Proofs.Template.Reading
import UiMarkdown.Proofs.Template.Rendering
import UiMarkdown.Proofs.Template.Seam
import UiMarkdown.Proofs.Template.Span
import UiMarkdown.Proofs.Template.Standing
import UiMarkdown.Proofs.Text.Line
import UiMarkdown.Proofs.Text.Occurrence
import UiMarkdown.Proofs.Text.Replace
import UiMarkdown.Proofs.Text.Trim
import UiMarkdown.Proofs.Text.Words
import UiMarkdown.Proofs.Yaml.Ending
import UiMarkdown.Proofs.Yaml.Event
import UiMarkdown.Proofs.Yaml.Flat
import UiMarkdown.Proofs.Yaml.Lexer
import UiMarkdown.Proofs.Yaml.PlainLine
import UiMarkdown.Proofs.Yaml.PlainScalar
import UiMarkdown.Proofs.Yaml.Scalar
import UiMarkdown.Proofs.Yaml.Spread
import UiMarkdown.Proofs.Yaml.Value
import UiMarkdown.Proofs.Yaml.Word
import UiMarkdown.Proofs.Yaml.Writer
import UiMarkdown.Source.Directive
import UiMarkdown.Source.Error
import UiMarkdown.Source.Fence
import UiMarkdown.Source.Frontmatter
import UiMarkdown.Source.Layout
import UiMarkdown.Source.Legacy
import UiMarkdown.Source.Payload
import UiMarkdown.Source.Writer
import UiMarkdown.Template.DateFilter
import UiMarkdown.Template.Expression
import UiMarkdown.Template.Filter
import UiMarkdown.Template.Mask
import UiMarkdown.Template.Reference
import UiMarkdown.Template.Scope
import UiMarkdown.Template.Span
import UiMarkdown.Text.Case
import UiMarkdown.Text.CharSet
import UiMarkdown.Text.Chars
import UiMarkdown.Text.Mark
import UiMarkdown.Text.Quoted
import UiMarkdown.Yaml.Cursor
import UiMarkdown.Yaml.Event
import UiMarkdown.Yaml.Scalar
import UiMarkdown.Yaml.Style
import UiMarkdown.Yaml.Token
import UiMarkdown.Yaml.Token.Lexer
import UiMarkdown.Yaml.Token.Scalar
import UiMarkdown.Yaml.Token.Tag
import UiMarkdown.Yaml.Value
import UiMarkdown.Yaml.Writer
