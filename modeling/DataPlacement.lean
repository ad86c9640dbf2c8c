import DataPlacement.CommandLine.Folder
import DataPlacement.Device.Describe
import DataPlacement.Main
import DataPlacement.Proofs.Audit.Exactness
import DataPlacement.Proofs.Command.Codecs
import DataPlacement.Proofs.Configuration.AllOrNothing
import DataPlacement.Proofs.Configuration.Dealing
import DataPlacement.Proofs.Configuration.Deferral
import DataPlacement.Proofs.Configuration.Descent
import DataPlacement.Proofs.Configuration.Resolution
import DataPlacement.Proofs.Device.Aftermath
import DataPlacement.Proofs.Device.Budgets
import DataPlacement.Proofs.Device.Fetching
import DataPlacement.Proofs.Device.FirstInFirstOut
import DataPlacement.Proofs.Device.ForegroundPass
import DataPlacement.Proofs.Device.Handback
import DataPlacement.Proofs.Device.Isolation
import DataPlacement.Proofs.Device.Landing
import DataPlacement.Proofs.Device.LeftFull
import DataPlacement.Proofs.Device.LifeCycle
import DataPlacement.Proofs.Device.MeteredCommands
import DataPlacement.Proofs.Device.Noninterference
import DataPlacement.Proofs.Device.Partition
import DataPlacement.Proofs.Device.Splitting
import DataPlacement.Proofs.Device.Standby
import DataPlacement.Proofs.Device.Volume
import DataPlacement.Proofs.Device.Wear
import DataPlacement.Proofs.Host.Numbers
import DataPlacement.Proofs.Page.Decoding
import DataPlacement.Proofs.Pool.Collection
import DataPlacement.Proofs.Pool.Primitives
import DataPlacement.Proofs.Scenario.Size
import DataPlacement.Proofs.Session.Bookkeeping
import DataPlacement.Proofs.Session.Destinations
import DataPlacement.Proofs.Session.Failures
