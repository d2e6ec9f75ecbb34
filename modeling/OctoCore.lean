import OctoCore.FieldHash
import OctoCore.DataTypes
import OctoCore.State.Basic
import OctoCore.Command.Args
import OctoCore.Command.Registry
import OctoCore.State.Run
import OctoCore.State.World
import OctoCore.State.History
import OctoCore.State.Replay
import OctoCore.State.Rewind
import OctoCore.State.Registrations
import OctoCore.State.Versions
import OctoCore.State.Redoable
import OctoCore.State.Minting
import OctoCore.State.SetValue
import OctoCore.State.Employees
