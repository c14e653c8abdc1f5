import PageSlots.Command.Arguments
import PageSlots.Command.LogFilter
import PageSlots.Command.Outcome
import PageSlots.Command.Render
import PageSlots.Component.Rule
import PageSlots.Component.Slots
import PageSlots.Files.FileTree
import PageSlots.Files.Path
import PageSlots.Log
import PageSlots.Main
import PageSlots.Markdown.Autolink
import PageSlots.Markdown.Backend
import PageSlots.Markdown.Block
import PageSlots.Markdown.Definition
import PageSlots.Markdown.Document
import PageSlots.Markdown.DocumentEvents
import PageSlots.Markdown.Emphasis
import PageSlots.Markdown.Event
import PageSlots.Markdown.Inline
import PageSlots.Markdown.Line
import PageSlots.Markdown.LinkPart
import PageSlots.Markdown.Literal
import PageSlots.Markdown.Marker
import PageSlots.Markdown.NamedCharacter
import PageSlots.Markdown.RawHtml
import PageSlots.Markdown.Rendition
import PageSlots.Markdown.Row
import PageSlots.Markup.AttributeList
import PageSlots.Markup.Construct
import PageSlots.Markup.Element
import PageSlots.Markup.Entity
import PageSlots.Markup.Escape
import PageSlots.Markup.Fault
import PageSlots.Markup.Fragment
import PageSlots.Markup.Tree
import PageSlots.Markup.Tree.Edit
import PageSlots.Markup.Tree.Walk
import PageSlots.Markup.Writing
import PageSlots.Page.Context
import PageSlots.Page.Heading
import PageSlots.Page.Processor
import PageSlots.Page.Promotion
import PageSlots.Page.Rendered
import PageSlots.Page.Renderer
import PageSlots.Page.Run
import PageSlots.Page.Slug
import PageSlots.Settings.Expansion
import PageSlots.Settings.Load
import PageSlots.Settings.Toml.Document
import PageSlots.Settings.Toml.Scalar
import PageSlots.Settings.Toml.Value
import PageSlots.Settings.Written
import PageSlots.Slot.Marker
import PageSlots.Text.Alphanumeric
import PageSlots.Text.Blank
import PageSlots.Text.CaseFold
import PageSlots.Text.CharSet
import PageSlots.Text.LowerCase
import PageSlots.Text.Punctuation
import PageSlots.Text.Quoted
import PageSlots.Text.Search
import PageSlots.Proofs.Tree.Own
import PageSlots.Proofs.Tree.WellFormed
import PageSlots.Proofs.Tree.Edit
import PageSlots.Proofs.Tree.Subtree
import PageSlots.Proofs.Content.Basic
import PageSlots.Proofs.Content.Draft
import PageSlots.Proofs.Component.Slots
import PageSlots.Proofs.Content.Canonical
import PageSlots.Proofs.Content.Edit
import PageSlots.Proofs.Page.Agreement
import PageSlots.Proofs.Page.Labels
import PageSlots.Proofs.Page.NormalForm
import PageSlots.Proofs.Page.Operations
import PageSlots.Proofs.Page.Precedence
import PageSlots.Proofs.Content.Walk
import PageSlots.Proofs.Page.Context
import PageSlots.Proofs.Page.Visits
import PageSlots.Proofs.Component.Finished
import PageSlots.Proofs.Page.HeadingIds
import PageSlots.Proofs.Page.SecondPass
import PageSlots.Proofs.Page.Stable
import PageSlots.Proofs.Content.Joined
import PageSlots.Proofs.Page.Idempotence
import PageSlots.Proofs.Page.Made
import PageSlots.Proofs.Page.SlotMarks
import PageSlots.Proofs.Content.Token
import PageSlots.Proofs.Content.Taken
import PageSlots.Proofs.Markdown.Output
import PageSlots.Proofs.Markdown.Inert
import PageSlots.Proofs.Markdown.Spoken
import PageSlots.Proofs.Markdown.Nesting
import PageSlots.Proofs.Markdown.Captures
import PageSlots.Proofs.Markdown.AltText
import PageSlots.Proofs.Markdown.Columns
import PageSlots.Proofs.Markdown.Reuse
import PageSlots.Proofs.Content.Elements
import PageSlots.Proofs.Markdown.ElementTree
import PageSlots.Proofs.Page.Sweeps
import PageSlots.Proofs.Slot.Spelling
import PageSlots.Proofs.Page.Parallel
import PageSlots.Proofs.Page.Derived
import PageSlots.Proofs.Content.Place
import PageSlots.Proofs.Content.TagPlace
import PageSlots.Proofs.Slot.MarkerPlace
import PageSlots.Proofs.Page.Outcome
import PageSlots.Proofs.Page.Spellings
import PageSlots.Proofs.Page.CutShort
import PageSlots.Proofs.Tree.Enclosing
import PageSlots.Proofs.Page.Placement
import PageSlots.Proofs.Page.Ancestry
import PageSlots.Proofs.Page.Appended
import PageSlots.Proofs.Files.Path
import PageSlots.Proofs.Files.FileTree
import PageSlots.Proofs.Command.Destinations
import PageSlots.Proofs.Command.Render
import PageSlots.Proofs.Command.Stems
import PageSlots.Proofs.Page.Registry
import PageSlots.Proofs.Content.Splice
import PageSlots.Proofs.Command.Isolation
import PageSlots.Proofs.Slot.Migration
import PageSlots.Proofs.Content.RawText
import PageSlots.Proofs.Content.Progress
import PageSlots.Proofs.Content.Numbering
import PageSlots.Proofs.Content.Shape
import PageSlots.Proofs.Tree.Rearranged
import PageSlots.Proofs.Page.GainedIds
import PageSlots.Proofs.Slot.Wrapping
import PageSlots.Proofs.Page.Budget
import PageSlots.Proofs.Page.Depth
import PageSlots.Proofs.Page.Bounded
import PageSlots.Proofs.Reference.Scan
import PageSlots.Proofs.Reference.Escaped
import PageSlots.Proofs.Reference.Numeric
import PageSlots.Proofs.Text.LowerCase
import PageSlots.Proofs.Slug.Words
import PageSlots.Proofs.Slug.Again
import PageSlots.Proofs.Slot.Kept
import PageSlots.Proofs.Settings.Expansion
import PageSlots.Proofs.Files.Ancestors
import PageSlots.Proofs.Files.Extension
import PageSlots.Proofs.Settings.Keys
import PageSlots.Proofs.Settings.Written
import PageSlots.Proofs.Settings.Load
import PageSlots.Proofs.Content.Preorder
