import Adventure.CommandLine.Options
import Adventure.CommandLine.Run
import Adventure.CommandLine.Schedule
import Adventure.Files.Path
import Adventure.Files.Store
import Adventure.Geometry
import Adventure.Interpreter.Basic
import Adventure.Interpreter.Effect
import Adventure.Interpreter.Execute
import Adventure.Interpreter.Fault
import Adventure.Interpreter.Motion
import Adventure.Interpreter.Run
import Adventure.Main
import Adventure.Number.Binary64
import Adventure.Number.Decimal
import Adventure.Number.Narrow
import Adventure.Platform.Basic
import Adventure.Platform.FileHost
import Adventure.Platform.Host
import Adventure.Platform.Request
import Adventure.Platform.Sound
import Adventure.Project.Basic
import Adventure.Project.Wire
import Adventure.Proofs.Dialogue.Choices
import Adventure.Proofs.Dialogue.Columns
import Adventure.Proofs.Dialogue.Directives
import Adventure.Proofs.Dialogue.History
import Adventure.Proofs.Dialogue.Messages
import Adventure.Proofs.Dialogue.Uses
import Adventure.Proofs.Files.Writes
import Adventure.Proofs.Inventory.Belongings
import Adventure.Proofs.Inventory.Replacing
import Adventure.Proofs.Inventory.Selections
import Adventure.Proofs.Memory.Assignments
import Adventure.Proofs.Memory.Hints
import Adventure.Proofs.Memory.Keys
import Adventure.Proofs.Memory.Operands
import Adventure.Proofs.Number.Draws
import Adventure.Proofs.Number.Finite
import Adventure.Proofs.Platform.Answers
import Adventure.Proofs.Platform.Permanent
import Adventure.Proofs.Platform.Purchases
import Adventure.Proofs.Save.Permanent
import Adventure.Proofs.Platform.Traffic
import Adventure.Proofs.Project.Diagnostics
import Adventure.Proofs.Project.Storable
import Adventure.Proofs.Room.Cast
import Adventure.Proofs.Room.Erasures
import Adventure.Proofs.Room.Pages
import Adventure.Proofs.Room.Placeholders
import Adventure.Proofs.Save.Envelope
import Adventure.Proofs.Save.Layout
import Adventure.Proofs.Save.Parts
import Adventure.Proofs.Save.RoundTrip
import Adventure.Proofs.Save.Stage
import Adventure.Proofs.Save.Tolerance
import Adventure.Proofs.Script.Actions
import Adventure.Proofs.Script.Commands
import Adventure.Proofs.Script.Documents
import Adventure.Proofs.Script.Lossless
import Adventure.Proofs.Script.Nesting
import Adventure.Proofs.Script.Orders
import Adventure.Proofs.Script.Places
import Adventure.Proofs.Script.Sizes
import Adventure.Proofs.Script.Visits
import Adventure.Proofs.Scripts.Meaning
import Adventure.Proofs.Scripts.Refinement
import Adventure.Proofs.Scripts.Ticks
import Adventure.Proofs.Session.Arrivals
import Adventure.Proofs.Session.Awaiting
import Adventure.Proofs.Session.Belonging
import Adventure.Proofs.Session.Changes
import Adventure.Proofs.Session.Choosing
import Adventure.Proofs.Session.Chronicle
import Adventure.Proofs.Session.Commands
import Adventure.Proofs.Session.Continuity
import Adventure.Proofs.Session.Counts
import Adventure.Proofs.Session.Course
import Adventure.Proofs.Session.Cover
import Adventure.Proofs.Session.Deeds
import Adventure.Proofs.Session.Directions
import Adventure.Proofs.Session.Faults
import Adventure.Proofs.Session.Fixtures
import Adventure.Proofs.Session.Forgetting
import Adventure.Proofs.Session.Gradual
import Adventure.Proofs.Session.Journeys
import Adventure.Proofs.Session.Openings
import Adventure.Proofs.Session.Pace
import Adventure.Proofs.Session.Presence
import Adventure.Proofs.Session.Quiet
import Adventure.Proofs.Session.Reachable
import Adventure.Proofs.Session.References
import Adventure.Proofs.Session.Registry
import Adventure.Proofs.Session.Resumption
import Adventure.Proofs.Session.Roster
import Adventure.Proofs.Session.Saves
import Adventure.Proofs.Session.Scripts
import Adventure.Proofs.Session.Stacks
import Adventure.Proofs.Session.Stays
import Adventure.Proofs.Session.Stirs
import Adventure.Proofs.Session.Story
import Adventure.Proofs.Session.Succession
import Adventure.Proofs.Session.Suspension
import Adventure.Proofs.Session.Taps
import Adventure.Proofs.Session.Timing
import Adventure.Proofs.Session.Turns
import Adventure.Proofs.Session.Walks
import Adventure.Proofs.Text.Decimals
import Adventure.Proofs.Text.Numerals
import Adventure.Proofs.Text.Utf8
import Adventure.Proofs.Ways.Counts
import Adventure.Proofs.Ways.Search
import Adventure.Proofs.Ways.Shortest
import Adventure.Proofs.Ways.Slides
import Adventure.Proofs.Ways.Spacing
import Adventure.Proofs.Ways.Steps
import Adventure.Proofs.Ways.Targets
import Adventure.Proofs.Ways.Tours
import Adventure.Proofs.Ways.Walkers
import Adventure.Proofs.Wire.Bounded
import Adventure.Proofs.Wire.Entries
import Adventure.Proofs.Wire.Faithful
import Adventure.Proofs.Wire.Json
import Adventure.Proofs.Wire.Keyed
import Adventure.Proofs.Wire.Leaves
import Adventure.Proofs.Wire.MessagePack
import Adventure.Proofs.Wire.Packed
import Adventure.Proofs.Wire.Parts
import Adventure.Proofs.Wire.Plain
import Adventure.Proofs.Wire.Reading
import Adventure.Proofs.Wire.Records
import Adventure.Proofs.Wire.Retold
import Adventure.Proofs.Wire.Reworked
import Adventure.Proofs.Wire.Sizes
import Adventure.Proofs.Wire.Spelled
import Adventure.Proofs.Wire.Writable
import Adventure.Random
import Adventure.Save.Envelope
import Adventure.Save.Permanent
import Adventure.Script.Action
import Adventure.Script.Assignment
import Adventure.Script.Command
import Adventure.Script.Condition
import Adventure.Script.Motion
import Adventure.Script.Staging
import Adventure.Session.Basic
import Adventure.Session.Tick
import Adventure.SortedMap
import Adventure.Text.Blank
import Adventure.Text.Hidden
import Adventure.Text.Integer
import Adventure.Text.Quoted
import Adventure.Text.Split
import Adventure.Text.Utf8
import Adventure.Wire.Codec
import Adventure.Wire.Document
import Adventure.Wire.Json.Reader
import Adventure.Wire.Json.Writer
import Adventure.Wire.MessagePack.Reader
import Adventure.Wire.MessagePack.Writer
import Adventure.Wire.Value
import Adventure.World.Basic
import Adventure.World.Character
import Adventure.World.Events
import Adventure.World.Hints
import Adventure.World.Input
import Adventure.World.Interpolation
import Adventure.World.Inventory
import Adventure.World.Message
import Adventure.World.Path
import Adventure.World.Pictures
import Adventure.World.Progress
import Adventure.World.Questions
import Adventure.World.Screen
import Adventure.World.Stage
import Adventure.World.Variables
import Adventure.World.Walk
import Adventure.World.Walking
import Adventure.World.Windows
