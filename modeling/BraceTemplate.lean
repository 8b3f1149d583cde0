import BraceTemplate.Context.Step
import BraceTemplate.Options.Reader
import BraceTemplate.Template
import BraceTemplate.Token.Stream
import BraceTemplate.Proofs.Lexing
import BraceTemplate.Proofs.Spelling
import BraceTemplate.Proofs.BlockGrammar
import BraceTemplate.Proofs.Building
import BraceTemplate.Proofs.CompiledTree
import BraceTemplate.Proofs.TreePrinting
import BraceTemplate.Proofs.ScopeBalance
import BraceTemplate.Proofs.ChunkOutput
import BraceTemplate.Proofs.FrontTokens
import BraceTemplate.Proofs.Displacement
import BraceTemplate.Proofs.Concatenation
import BraceTemplate.Proofs.OpenBlocks
import BraceTemplate.Proofs.ErrorFinality
import BraceTemplate.Proofs.FaultSpans
import BraceTemplate.Proofs.Observation
import BraceTemplate.Proofs.ScopePaths
import BraceTemplate.Proofs.PathPrefix
import BraceTemplate.Proofs.ByteDelivery
import BraceTemplate.Proofs.EscapedText
import BraceTemplate.Proofs.ChunkOrigin
import BraceTemplate.Proofs.BalancedBlocks
import BraceTemplate.Proofs.LiteralText
import BraceTemplate.Proofs.TurnPaths
import BraceTemplate.Proofs.ListTemplates
import BraceTemplate.Proofs.SkippedText
import BraceTemplate.Proofs.EscapedTree
import BraceTemplate.Proofs.EntityReading
import BraceTemplate.Proofs.LoopUnrolling
import BraceTemplate.Proofs.PathSegments
import BraceTemplate.Proofs.ScanResults
import BraceTemplate.Proofs.ResumedScan
import BraceTemplate.Proofs.DataPositions
import BraceTemplate.Proofs.TagPadding
import BraceTemplate.Proofs.BlockLog
import BraceTemplate.Proofs.PiecewiseReading
import BraceTemplate.Proofs.SingleUse
