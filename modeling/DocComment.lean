import DocComment.Text.Search
import DocComment.Text.CodePoints
import DocComment.Text.Blank
import DocComment.Text.Lines
import DocComment.Text.ByteLines
import DocComment.Text.Buffer
import DocComment.Section
import DocComment.Line
import DocComment.Xml.Escape
import DocComment.Xml.CData
import DocComment.Markup
import DocComment.Text.Hidden
import DocComment.Text.Quoted
import DocComment.Buffers
import DocComment.Log
import DocComment.Log.Filter
import DocComment.Event
import DocComment.Assembler
import DocComment.Session
import DocComment.Element
import DocComment.Block
import DocComment.Xml.Reader
import DocComment.Layout
import DocComment.Path
import DocComment.FileTree.Basic
import DocComment.FileTree.Access
import DocComment.Glob.Pattern
import DocComment.Glob.Expand
import DocComment.Inputs
import DocComment.Options
import DocComment.Run
import DocComment.Main
import DocComment.Regex.Escape
import DocComment.Regex.Expression
import DocComment.Text.Bytes
import DocComment.Proofs.Words
import DocComment.Proofs.Trimming
import DocComment.Proofs.CharacterData
import DocComment.Proofs.Assembly
import DocComment.Proofs.LineBreaks
import DocComment.Proofs.ByteLines
import DocComment.Proofs.SectionOrder
import DocComment.Proofs.Sessions
import DocComment.Proofs.ElementText
import DocComment.Proofs.DocumentReading
import DocComment.Proofs.QuotedText
import DocComment.Proofs.LayoutLines
import DocComment.Proofs.LayoutReading
import DocComment.Proofs.BlockParts
import DocComment.Proofs.TagGroups
import DocComment.Proofs.EndMarker
import DocComment.Proofs.EventLog
import DocComment.Proofs.Locations
import DocComment.Proofs.Directories
import DocComment.Proofs.DirectoryPatterns
import DocComment.Proofs.Resolution
import DocComment.Proofs.Conversions
import DocComment.Proofs.FileRuns
import DocComment.Proofs.Contents
import DocComment.Proofs.Deliveries
import DocComment.Proofs.FailingRuns
import DocComment.Proofs.ArgumentSets
import DocComment.Proofs.FileWrites
import DocComment.Proofs.PatternStability
import DocComment.Proofs.Reruns
import DocComment.Proofs.InsertedBlanks
import DocComment.Proofs.Indentation
import DocComment.Proofs.LineCuts
import DocComment.Proofs.LineScanning
import DocComment.Proofs.TextLines
import DocComment.Proofs.DirectoryExpansion
import DocComment.Proofs.DirectoryListing
import DocComment.Proofs.CDataRows
import DocComment.Proofs.Representation
import DocComment.Proofs.BytePositions
import DocComment.Proofs.LineSlices
