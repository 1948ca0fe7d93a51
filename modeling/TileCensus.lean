import TileCensus.Action
import TileCensus.Census
import TileCensus.CommandLine
import TileCensus.Constants
import TileCensus.Definition.Scan
import TileCensus.Definition.Token
import TileCensus.Diagnostic
import TileCensus.Disk
import TileCensus.FileTree
import TileCensus.Finding
import TileCensus.Frames
import TileCensus.Inputs
import TileCensus.Instance.Line
import TileCensus.Instance.Rule
import TileCensus.Instance.RuleFile
import TileCensus.Instance.Scan
import TileCensus.Json
import TileCensus.Log
import TileCensus.Main
import TileCensus.Name
import TileCensus.Place
import TileCensus.Program
import TileCensus.Proofs.ActorHeaders
import TileCensus.Proofs.ActorOrigins
import TileCensus.Proofs.BitmapCalls
import TileCensus.Proofs.BlockTree
import TileCensus.Proofs.CleanedLines
import TileCensus.Proofs.Cleaning
import TileCensus.Proofs.ConstantRecords
import TileCensus.Proofs.DefinitionHistory
import TileCensus.Proofs.DefinitionRecords
import TileCensus.Proofs.DefinitionSteps
import TileCensus.Proofs.DefinitionTokens
import TileCensus.Proofs.Footprint
import TileCensus.Proofs.FrameArithmetic
import TileCensus.Proofs.FrameMarks
import TileCensus.Proofs.FrameReports
import TileCensus.Proofs.Growth
import TileCensus.Proofs.JoinedWords
import TileCensus.Proofs.JsonLayout
import TileCensus.Proofs.LinePlaces
import TileCensus.Proofs.LineTexts
import TileCensus.Proofs.LiteralNames
import TileCensus.Proofs.LiteralTexts
import TileCensus.Proofs.Locations
import TileCensus.Proofs.MoreConstants
import TileCensus.Proofs.Numerals
import TileCensus.Proofs.Occurrences
import TileCensus.Proofs.OnePass
import TileCensus.Proofs.OpenBlocks
import TileCensus.Proofs.Precedence
import TileCensus.Proofs.PrintedLines
import TileCensus.Proofs.Reachability
import TileCensus.Proofs.ReportBitmaps
import TileCensus.Proofs.Rerun
import TileCensus.Proofs.ResolutionReports
import TileCensus.Proofs.ScopeRuns
import TileCensus.Proofs.ScopeViolations
import TileCensus.Proofs.ScriptOrder
import TileCensus.Proofs.StateUses
import TileCensus.Proofs.TableNames
import TileCensus.Proofs.TileSpace
import TileCensus.Proofs.TreeGrowth
import TileCensus.Proofs.TreeWalks
import TileCensus.Proofs.UsageWalk
import TileCensus.Proofs.VoxelBlocks
import TileCensus.Proofs.WiderSpace
import TileCensus.Proofs.Writing
import TileCensus.Report
import TileCensus.Run
import TileCensus.Script.Clause
import TileCensus.Script.Clean
import TileCensus.Script.Header
import TileCensus.Script.Reach
import TileCensus.Script.Reading
import TileCensus.Script.Scope
import TileCensus.Script.Symbols
import TileCensus.Script.Word
import TileCensus.Survey
import TileCensus.Survey.Log
import TileCensus.Table
import TileCensus.Text.CharClass
import TileCensus.Text.Digits
import TileCensus.Text.Excerpt
import TileCensus.Text.Line
import TileCensus.Text.Quoted
import TileCensus.Text.Utf8
import TileCensus.Tile.Bitmap
import TileCensus.Tile.Number
import TileCensus.Tile.Range
import TileCensus.Toml.Document
import TileCensus.Toml.Double
import TileCensus.Toml.Error
import TileCensus.Toml.Fault
import TileCensus.Toml.Growth
import TileCensus.Toml.Mismatch
import TileCensus.Toml.Moment
import TileCensus.Toml.Number
import TileCensus.Toml.Reader
import TileCensus.Toml.Text
import TileCensus.Toml.Value
import TileCensus.Toml.WrittenKey
