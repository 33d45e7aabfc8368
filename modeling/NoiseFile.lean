import NoiseFile.Main
import NoiseFile.Rehearsal
import NoiseFile.World
import NoiseFile.Proofs.Chunks.Exchange
import NoiseFile.Proofs.Chunks.Accounting
import NoiseFile.Proofs.Chunks.Rehearsal
import NoiseFile.Proofs.FileSystem.Walk
import NoiseFile.Proofs.World
import NoiseFile.Proofs.Generate.Stages
import NoiseFile.Proofs.Generate.Success
import NoiseFile.Proofs.Generate.Failure
import NoiseFile.Proofs.Binary64.Field
import NoiseFile.Proofs.Binary64.Nearest
import NoiseFile.Proofs.Size.ByteCount
import NoiseFile.Proofs.Decimal.Numeral
import NoiseFile.Proofs.Decimal.Reading
import NoiseFile.Proofs.Decimal.Denotation
import NoiseFile.Proofs.Size.Denoted
import NoiseFile.Proofs.Binary64.Shortest
import NoiseFile.Proofs.Size.RoundTrip
import NoiseFile.Proofs.FileSystem.Skeleton
import NoiseFile.Proofs.Generate.Frame
import NoiseFile.Proofs.Generate.Deed
import NoiseFile.Proofs.Generate.Deeds
import NoiseFile.Proofs.Generate.History
import NoiseFile.Proofs.CommandLine.Run
import NoiseFile.Proofs.Chunks.Unfailing
import NoiseFile.Proofs.Chunks.Stream
import NoiseFile.Proofs.Sink
import NoiseFile.Proofs.Generate.Notice
import NoiseFile.Proofs.CommandLine.Grammar
import NoiseFile.Proofs.CommandLine.Scan
import NoiseFile.Proofs.CommandLine.Acceptance
import NoiseFile.Proofs.CommandLine.Directory
import NoiseFile.Proofs.Binary64.Value
import NoiseFile.Proofs.Decimal.Recognition
import NoiseFile.Proofs.Size.Exact
import NoiseFile.Proofs.Size.Reading
import NoiseFile.Proofs.CommandLine.ExitCode
import NoiseFile.Proofs.Generate.Repeated
import NoiseFile.Proofs.CommandLine.Replay
import NoiseFile.Proofs.Log
import NoiseFile.Proofs.Failure
import NoiseFile.Proofs.Elapsed
import NoiseFile.Proofs.Clock
import NoiseFile.Proofs.Layout.Exact
import NoiseFile.Proofs.Generate.Rounds
