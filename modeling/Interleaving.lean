import Interleaving.Choice.Stream
import Interleaving.Files.Tree
import Interleaving.Json.Reader
import Interleaving.Json.Writer
import Interleaving.Main
import Interleaving.Pattern.Dfa
import Interleaving.Pattern.Matcher
import Interleaving.Program.RegisterRace
import Interleaving.Program.Script
import Interleaving.Program.Spin
import Interleaving.Proofs.Chain.Antichain
import Interleaving.Proofs.Chain.Linked
import Interleaving.Proofs.Chain.Partition
import Interleaving.Proofs.Chain.Search
import Interleaving.Proofs.Chain.Splice
import Interleaving.Proofs.Choice.Draws
import Interleaving.Proofs.Choice.Geometric
import Interleaving.Proofs.Choice.Mutation
import Interleaving.Proofs.Choice.Tape
import Interleaving.Proofs.Clock
import Interleaving.Proofs.Files.Tree
import Interleaving.Proofs.Json.Encoding
import Interleaving.Proofs.Json.RoundTrip
import Interleaving.Proofs.Pattern.Association
import Interleaving.Proofs.Pattern.Closure
import Interleaving.Proofs.Pattern.Cursor
import Interleaving.Proofs.Pattern.Cuts
import Interleaving.Proofs.Pattern.Dead
import Interleaving.Proofs.Pattern.FirstError
import Interleaving.Proofs.Pattern.Grammar
import Interleaving.Proofs.Pattern.Matcher
import Interleaving.Proofs.Pattern.Path
import Interleaving.Proofs.Pattern.Reading
import Interleaving.Proofs.Pattern.RoundTrip
import Interleaving.Proofs.Pattern.Shape
import Interleaving.Proofs.Pattern.Spans
import Interleaving.Proofs.Pattern.Subsets
import Interleaving.Proofs.Pattern.Thompson
import Interleaving.Proofs.Pattern.Tokens
import Interleaving.Proofs.Pattern.Written
import Interleaving.Proofs.Program.Causality
import Interleaving.Proofs.Program.RegisterRace.Clocks
import Interleaving.Proofs.Program.RegisterRace.Completion
import Interleaving.Proofs.Program.RegisterRace.Overwrites
import Interleaving.Proofs.Program.RegisterRace.Steps
import Interleaving.Proofs.Program.RegisterRace.Turns
import Interleaving.Proofs.Program.Run
import Interleaving.Proofs.Race
import Interleaving.Proofs.Schedule.ChangePoint
import Interleaving.Proofs.Schedule.Copy
import Interleaving.Proofs.Schedule.Demotion
import Interleaving.Proofs.Schedule.Generator
import Interleaving.Proofs.Schedule.Pct
import Interleaving.Proofs.Schedule.Pctcp
import Interleaving.Proofs.Schedule.Priorities
import Interleaving.Proofs.Schedule.Shuffle
import Interleaving.Proofs.Schedule.Tape
import Interleaving.Proofs.Session.Accounts
import Interleaving.Proofs.Session.Checkpoint
import Interleaving.Proofs.Session.Coverage
import Interleaving.Proofs.Session.Decisions
import Interleaving.Proofs.Session.Replay
import Interleaving.Proofs.Session.Resume
import Interleaving.Proofs.Session.Steps
import Interleaving.Proofs.Session.Summary
import Interleaving.Proofs.Session.Timeline
import Interleaving.Proofs.Strategy.Contract
import Interleaving.Proofs.Strategy.Guidance
import Interleaving.Proofs.Strategy.Novelty
import Interleaving.Proofs.Strategy.Rotation
import Interleaving.Proofs.Strategy.Steps
import Interleaving.Proofs.Strategy.TwoStage
import Interleaving.Proofs.Text.Lines
import Interleaving.Proofs.Trace
import Interleaving.Race
import Interleaving.Schedule.Pct
import Interleaving.Schedule.Pctcp
import Interleaving.Schedule.Random
import Interleaving.Session.Explorer
import Interleaving.Strategy.Basic
import Interleaving.Text.Decimal
import Interleaving.Text.Lines
