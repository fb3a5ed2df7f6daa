import ScriptedRobot.Display.TurnView
import ScriptedRobot.Json.Limits
import ScriptedRobot.Json.Parser
import ScriptedRobot.Json.Printer
import ScriptedRobot.Level.Folder
import ScriptedRobot.Level.Placement
import ScriptedRobot.Main
import ScriptedRobot.Moment
import ScriptedRobot.Program.CommandLine
import ScriptedRobot.Program.Options
import ScriptedRobot.Program.Run
import ScriptedRobot.Proofs.Board.Ticking
import ScriptedRobot.Random.Twister
import ScriptedRobot.RunLog.Stored
import ScriptedRobot.Schema.Command
import ScriptedRobot.Schema.Level
import ScriptedRobot.Schema.Turn
import ScriptedRobot.Script.Printer
import ScriptedRobot.Script.Reader
import ScriptedRobot.Session.Batch
import ScriptedRobot.Session.View
import ScriptedRobot.Storage.Disk
import ScriptedRobot.Text.RecordNumeral
import ScriptedRobot.Text.Uppercase
import ScriptedRobot.Proofs.Board.Tiles
import ScriptedRobot.Proofs.Board.Unnamed
import ScriptedRobot.Proofs.Board.Hazards
import ScriptedRobot.Proofs.Session.Entry
import ScriptedRobot.Proofs.Session.Effect
import ScriptedRobot.Proofs.Session.Progress
import ScriptedRobot.Proofs.Session.Reachable
import ScriptedRobot.Proofs.Session.World
import ScriptedRobot.Proofs.Session.Collision
import ScriptedRobot.Proofs.Session.Completion
import ScriptedRobot.Proofs.Session.Rollback
import ScriptedRobot.Proofs.Session.Reply
import ScriptedRobot.Proofs.Session.Search
import ScriptedRobot.Proofs.Session.Obstacle
import ScriptedRobot.Proofs.Session.Course
import ScriptedRobot.Proofs.Session.Halting
import ScriptedRobot.Proofs.Session.Finished
import ScriptedRobot.Proofs.Session.Reporting
import ScriptedRobot.Proofs.Session.Gathering
import ScriptedRobot.Proofs.Text.Numerals
import ScriptedRobot.Proofs.Text.Lines
import ScriptedRobot.Proofs.Script.Reading
import ScriptedRobot.Proofs.Script.Writing
import ScriptedRobot.Proofs.Schema.Arguments
import ScriptedRobot.Proofs.Script.Faults
import ScriptedRobot.Proofs.Session.Congruence
import ScriptedRobot.Proofs.Session.Agreement
import ScriptedRobot.Proofs.Session.Batching
import ScriptedRobot.Proofs.Board.Draws
import ScriptedRobot.Proofs.Session.Kinds
import ScriptedRobot.Proofs.Session.Entering
import ScriptedRobot.Proofs.Session.Loops
import ScriptedRobot.Proofs.Session.Answering
import ScriptedRobot.Proofs.Session.Safety
import ScriptedRobot.Proofs.Board.Advancing
import ScriptedRobot.Proofs.Session.Resources
import ScriptedRobot.Proofs.Session.Degrading
import ScriptedRobot.Proofs.Level.Conversion
import ScriptedRobot.Proofs.Level.Faults
import ScriptedRobot.Proofs.Level.Loading
import ScriptedRobot.Proofs.Storage.Removal
import ScriptedRobot.Proofs.Level.Skipping
import ScriptedRobot.Proofs.Session.Strides
import ScriptedRobot.Proofs.Session.Searching
import ScriptedRobot.Proofs.Session.Sweeping
import ScriptedRobot.Proofs.Session.Recording
import ScriptedRobot.Proofs.Session.Turns
import ScriptedRobot.Proofs.Session.Lasting
import ScriptedRobot.Proofs.Session.Gains
import ScriptedRobot.Proofs.Session.Credits
import ScriptedRobot.Proofs.Session.Losses
import ScriptedRobot.Proofs.Session.Status
import ScriptedRobot.Proofs.Session.Serpentine
import ScriptedRobot.Proofs.Session.Aliases
import ScriptedRobot.Proofs.Session.Telling
import ScriptedRobot.Proofs.Json.Strings
import ScriptedRobot.Proofs.Json.Literals
import ScriptedRobot.Proofs.Json.Floats
import ScriptedRobot.Proofs.Json.Writing
import ScriptedRobot.Proofs.Binary64.Rounding
import ScriptedRobot.Proofs.Json.Reading
import ScriptedRobot.Proofs.Binary64.Decimals
import ScriptedRobot.Proofs.Json.Cutting
import ScriptedRobot.Proofs.RunLog.Turns
import ScriptedRobot.Proofs.Session.Payloads
import ScriptedRobot.Proofs.RunLog.Lines
import ScriptedRobot.Proofs.Storage.Writing
import ScriptedRobot.Proofs.RunLog.Adding
import ScriptedRobot.Proofs.RunLog.RoundTrip
import ScriptedRobot.Proofs.RunLog.Truncation
import ScriptedRobot.Proofs.RunLog.Foreign
import ScriptedRobot.Proofs.Level.Placing
import ScriptedRobot.Proofs.Board.Construction
import ScriptedRobot.Proofs.Robot.Reach
import ScriptedRobot.Proofs.Session.Collecting
import ScriptedRobot.Proofs.Session.Equipment
import ScriptedRobot.Proofs.Session.Scanner
import ScriptedRobot.Proofs.Session.Lasers
import ScriptedRobot.Proofs.Session.Failing
import ScriptedRobot.Proofs.Board.Patrolling
import ScriptedRobot.Proofs.Strategy.Spiral
import ScriptedRobot.Proofs.Strategy.Guard
import ScriptedRobot.Proofs.Strategy.Chase
import ScriptedRobot.Proofs.Strategy.Bounce
import ScriptedRobot.Proofs.Session.Guarding
import ScriptedRobot.Proofs.Strategy.Circular
import ScriptedRobot.Proofs.Schema.Commands
import ScriptedRobot.Proofs.Script.Leftmost
import ScriptedRobot.Proofs.Strategy.Sentinel
import ScriptedRobot.Proofs.Display.Fog
import ScriptedRobot.Proofs.Moment.Order
import ScriptedRobot.Proofs.Storage.Growth
import ScriptedRobot.Proofs.Storage.Names
import ScriptedRobot.Proofs.RunLog.Folders
import ScriptedRobot.Proofs.RunLog.Listing
import ScriptedRobot.Proofs.Program.Effects
import ScriptedRobot.Proofs.Program.Launching
import ScriptedRobot.Proofs.Program.Logging
import ScriptedRobot.Proofs.Session.AutoGrab
import ScriptedRobot.Proofs.Item.Handing
import ScriptedRobot.Proofs.Display.Events
