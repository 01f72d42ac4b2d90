import TemplateSelectors.Batch
import TemplateSelectors.CommandLine
import TemplateSelectors.Diff
import TemplateSelectors.ErrorCode
import TemplateSelectors.Excerpt
import TemplateSelectors.Excerpt.Window
import TemplateSelectors.FileFilter
import TemplateSelectors.FilePath
import TemplateSelectors.Glob
import TemplateSelectors.Item
import TemplateSelectors.JsonValue
import TemplateSelectors.Lexeme
import TemplateSelectors.LineIndex
import TemplateSelectors.Location
import TemplateSelectors.Log
import TemplateSelectors.Main
import TemplateSelectors.Markup
import TemplateSelectors.MigrateError
import TemplateSelectors.Migration
import TemplateSelectors.ParseError
import TemplateSelectors.Patch
import TemplateSelectors.Progress
import TemplateSelectors.Project
import TemplateSelectors.Promotion
import TemplateSelectors.Regex
import TemplateSelectors.Regex.Pattern
import TemplateSelectors.Response
import TemplateSelectors.Selector
import TemplateSelectors.SelectorHit
import TemplateSelectors.Snippet
import TemplateSelectors.TagBody
import TemplateSelectors.TagBody.Located
import TemplateSelectors.TagBody.Reader
import TemplateSelectors.Template.Edit
import TemplateSelectors.Template.Expression
import TemplateSelectors.Template.Parser
import TemplateSelectors.Template.Tree
import TemplateSelectors.Text
import TemplateSelectors.Text.Alphanumeric
import TemplateSelectors.Text.Width
import TemplateSelectors.Walk
import TemplateSelectors.Walk.Editor
import TemplateSelectors.Proofs.BlockGrammar
import TemplateSelectors.Proofs.Leaves
import TemplateSelectors.Proofs.PromotionWalk
import TemplateSelectors.Proofs.RoundTrip
import TemplateSelectors.Proofs.PromotionLaws
import TemplateSelectors.Proofs.BareTree
import TemplateSelectors.Proofs.Lexing
import TemplateSelectors.Proofs.PromotedTag
import TemplateSelectors.Proofs.SlowPath
import TemplateSelectors.Proofs.FastPath
import TemplateSelectors.Proofs.Derivation
import TemplateSelectors.Proofs.DirtyTags
import TemplateSelectors.Proofs.PathsAgree
import TemplateSelectors.Proofs.SparedTags
import TemplateSelectors.Proofs.BlockStructure
import TemplateSelectors.Proofs.ExactPlaces
import TemplateSelectors.Proofs.RegexLanguage
import TemplateSelectors.Proofs.BatchRun
import TemplateSelectors.Proofs.Outline
import TemplateSelectors.Proofs.RunsAgree
import TemplateSelectors.Proofs.WalkControl
import TemplateSelectors.Proofs.WalksAgree
import TemplateSelectors.Proofs.PromotionReach
import TemplateSelectors.Proofs.RewrittenText
import TemplateSelectors.Proofs.TokenRuns
import TemplateSelectors.Proofs.Insertions
import TemplateSelectors.Proofs.PatchesFound
import TemplateSelectors.Proofs.BracedBody
import TemplateSelectors.Proofs.IdentifierEdges
import TemplateSelectors.Proofs.HunkLines
import TemplateSelectors.Proofs.WrittenStrings
import TemplateSelectors.Proofs.ErrorExcerpts
import TemplateSelectors.Proofs.ByteSearch
import TemplateSelectors.Proofs.OffsetLexemes
import TemplateSelectors.Proofs.OffsetTags
import TemplateSelectors.Proofs.OffsetBlocks
import TemplateSelectors.Proofs.OffsetReading
import TemplateSelectors.Proofs.StandingExclusions
import TemplateSelectors.Proofs.IndexedPositions
import TemplateSelectors.Proofs.VisitedNodes
import TemplateSelectors.Proofs.DocumentOrder
import TemplateSelectors.Proofs.CommentShapes
import TemplateSelectors.Proofs.TextRuns
import TemplateSelectors.Proofs.MarkupPieces
import TemplateSelectors.Proofs.ShownLines
import TemplateSelectors.Proofs.PathHeads
