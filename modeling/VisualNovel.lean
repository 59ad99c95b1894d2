import VisualNovel.CommandLine.Arguments
import VisualNovel.CommandLine.Command
import VisualNovel.CommandLine.Setup
import VisualNovel.CommandLine.Transcript
import VisualNovel.Condition
import VisualNovel.Files.Access
import VisualNovel.Files.Path
import VisualNovel.Files.Tree
import VisualNovel.Library
import VisualNovel.Main
import VisualNovel.Markup.Color
import VisualNovel.Markup.Reveal
import VisualNovel.Markup.Styled
import VisualNovel.Markup.Tag
import VisualNovel.Number.Arith
import VisualNovel.Number.Decimal
import VisualNovel.Number.Fp
import VisualNovel.Pattern.Basic
import VisualNovel.Pattern.Bracket
import VisualNovel.Pattern.Cursor
import VisualNovel.Pattern.Escape
import VisualNovel.Pattern.Fault
import VisualNovel.Pattern.Nesting
import VisualNovel.Pattern.Problem
import VisualNovel.Pattern.Property
import VisualNovel.Pattern.PropertyTable
import VisualNovel.Pattern.Read
import VisualNovel.Pattern.Report
import VisualNovel.Pattern.Room
import VisualNovel.Play.Pump
import VisualNovel.Play.Slots
import VisualNovel.Play.Terminal
import VisualNovel.Player.Audio
import VisualNovel.Player.Basic
import VisualNovel.Player.Control
import VisualNovel.Player.Cue
import VisualNovel.Player.Preload
import VisualNovel.Player.Session
import VisualNovel.Player.Snapshot
import VisualNovel.Proofs.Markup.Agreement
import VisualNovel.Proofs.Markup.Cut
import VisualNovel.Proofs.Markup.Glyphs
import VisualNovel.Proofs.Markup.Reveal
import VisualNovel.Proofs.Number.Rounding
import VisualNovel.Proofs.Player.Ahead
import VisualNovel.Proofs.Player.Backdrop
import VisualNovel.Proofs.Player.Course
import VisualNovel.Proofs.Player.Cover
import VisualNovel.Proofs.Player.Cursor
import VisualNovel.Proofs.Player.Curtain
import VisualNovel.Proofs.Player.Landing
import VisualNovel.Proofs.Player.Moves
import VisualNovel.Proofs.Player.Narration
import VisualNovel.Proofs.Player.Performance
import VisualNovel.Proofs.Player.Places
import VisualNovel.Proofs.Player.Plays
import VisualNovel.Proofs.Player.Playthrough
import VisualNovel.Proofs.Player.Presence
import VisualNovel.Proofs.Player.Prompts
import VisualNovel.Proofs.Player.Pumping
import VisualNovel.Proofs.Player.Reachable
import VisualNovel.Proofs.Player.Replies
import VisualNovel.Proofs.Player.Restore
import VisualNovel.Proofs.Player.Resume
import VisualNovel.Proofs.Player.Setup
import VisualNovel.Proofs.Player.Silence
import VisualNovel.Proofs.Player.Staging
import VisualNovel.Proofs.Player.Story
import VisualNovel.Proofs.Player.Suspension
import VisualNovel.Proofs.Player.Tracking
import VisualNovel.Proofs.Player.Transform
import VisualNovel.Proofs.Save.Exact
import VisualNovel.Proofs.Save.PrefixCode
import VisualNovel.Proofs.Script.Block
import VisualNovel.Proofs.Script.Canonical
import VisualNovel.Proofs.Script.Edits
import VisualNovel.Proofs.Script.Formatting
import VisualNovel.Proofs.Script.Kept
import VisualNovel.Proofs.Script.Nodes
import VisualNovel.Proofs.Script.OnePass
import VisualNovel.Proofs.Script.Parsed
import VisualNovel.Proofs.Script.Places
import VisualNovel.Proofs.Script.RoundTrip
import VisualNovel.Proofs.Script.SourceOrder
import VisualNovel.Proofs.Script.Targets
import VisualNovel.Proofs.Script.Wording
import VisualNovel.Proofs.Stage.Built
import VisualNovel.Proofs.Stage.Change
import VisualNovel.Proofs.Stage.Endings
import VisualNovel.Proofs.Stage.Identity
import VisualNovel.Proofs.Stage.Opacity
import VisualNovel.Proofs.Stage.Reveals
import VisualNovel.Proofs.Stage.Scenery
import VisualNovel.Proofs.Stage.Writes
import VisualNovel.Proofs.Text.Pieces
import VisualNovel.Save.Codec
import VisualNovel.Save.Format
import VisualNovel.Script.Check
import VisualNovel.Script.Dump
import VisualNovel.Script.Edit
import VisualNovel.Script.Kind
import VisualNovel.Script.Line
import VisualNovel.Script.Node
import VisualNovel.Script.Parse
import VisualNovel.Script.Write
import VisualNovel.Settings.Basic
import VisualNovel.Settings.LogFilter
import VisualNovel.Settings.Read
import VisualNovel.Settings.Store
import VisualNovel.Settings.Toml.Document
import VisualNovel.Settings.Toml.Moment
import VisualNovel.Settings.Toml.Scalar
import VisualNovel.Settings.Toml.Value
import VisualNovel.Settings.Write
import VisualNovel.Stage.Animator
import VisualNovel.Stage.AssetFolder
import VisualNovel.Stage.Assets
import VisualNovel.Stage.Basic
import VisualNovel.Stage.Task
import VisualNovel.Table
import VisualNovel.Text.CharClass
import VisualNovel.Text.Hex
import VisualNovel.Text.Integer
import VisualNovel.Text.Json
import VisualNovel.Text.LetterTable
import VisualNovel.Text.Trim
import VisualNovel.Text.UnprintableTable
import VisualNovel.Text.Utf8
import VisualNovel.Text.WordTable
import VisualNovel.Timing
import VisualNovel.Proofs.Script.Numbering
import VisualNovel.Proofs.Script.Comments
import VisualNovel.Proofs.Script.WellFormed
import VisualNovel.Proofs.Script.Undoing
import VisualNovel.Proofs.Script.Commuting
import VisualNovel.Proofs.Text.Integers
import VisualNovel.Proofs.Player.Coordinates
import VisualNovel.Proofs.Script.Unwritten
import VisualNovel.Proofs.Stage.Schedule
import VisualNovel.Proofs.Stage.Operations
import VisualNovel.Proofs.Player.Counts
import VisualNovel.Proofs.Stage.Unveiling
import VisualNovel.Proofs.Stage.Swaps
import VisualNovel.Proofs.Player.Events
import VisualNovel.Proofs.Player.Instant
import VisualNovel.Proofs.Stage.Passing
import VisualNovel.Proofs.Player.Effects
import VisualNovel.Proofs.Player.Attempts
import VisualNovel.Proofs.Player.Signals
import VisualNovel.Proofs.Player.Pool
import VisualNovel.Proofs.Player.Ending
import VisualNovel.Proofs.Player.Announcements
import VisualNovel.Proofs.Player.Shutdown
import VisualNovel.Proofs.Player.Preloading
import VisualNovel.Proofs.Stage.Indexing
import VisualNovel.Proofs.Script.Loading
import VisualNovel.Proofs.Player.Variables
import VisualNovel.Proofs.Markup.Scopes
import VisualNovel.Proofs.Stage.Stamps
import VisualNovel.Proofs.Player.Revisions
