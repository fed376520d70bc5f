import ContainerHost.Config.Overrides
import ContainerHost.Config.Read
import ContainerHost.Event.Script
import ContainerHost.Guest.Number
import ContainerHost.Interpreter.Machine
import ContainerHost.Manager.Report
import ContainerHost.Proofs.Manager.Reservations
import ContainerHost.Proofs.Container.Session
import ContainerHost.Proofs.Container.Checks
import ContainerHost.Proofs.Container.Lifecycle
import ContainerHost.Proofs.Container.Accounts
import ContainerHost.Proofs.Stamps
import ContainerHost.Proofs.Pool
import ContainerHost.Proofs.Manager.Effects
import ContainerHost.Proofs.Manager.ConcurrentManager
import ContainerHost.Proofs.Manager.Registry
import ContainerHost.Proofs.Manager.Capacity
import ContainerHost.Proofs.Manager.Escapes
import ContainerHost.Proofs.Container.Vacancy
import ContainerHost.Proofs.Container.State
import ContainerHost.Proofs.Event.ConcurrentBus
import ContainerHost.Proofs.Event.ListenerLog
import ContainerHost.Proofs.Event.Emissions
import ContainerHost.Proofs.Event.Nesting
import ContainerHost.Proofs.Names
import ContainerHost.Proofs.Manager.ModuleSupply
import ContainerHost.Proofs.Manager.Caching
import ContainerHost.Proofs.Manager.Transparency
import ContainerHost.Proofs.Container.Origin
import ContainerHost.Proofs.Manager.Upkeep
import ContainerHost.Proofs.Manager.Modules
import ContainerHost.Proofs.Manager.Provenance
import ContainerHost.Proofs.Manager.Freshness
import ContainerHost.Proofs.Guest.Imports
import ContainerHost.Proofs.Guest.Sizes
import ContainerHost.Proofs.Guest.Growth
import ContainerHost.Proofs.Guest.Shared
import ContainerHost.Proofs.Container.Confinement
import ContainerHost.Proofs.Documents
import ContainerHost.Proofs.Fragments
import ContainerHost.Proofs.Manager.Runs
import ContainerHost.Proofs.Manager.Reloads
import ContainerHost.Proofs.Manager.Handling
import ContainerHost.Proofs.Manager.Announcements
import ContainerHost.Proofs.Manager.Scaling
import ContainerHost.Proofs.Manager.Removals
import ContainerHost.Proofs.Manager.Restarts
import ContainerHost.Proofs.Manager.RestartAll
import ContainerHost.Proofs.Manager.Isolation
import ContainerHost.Proofs.Event.Renumbering
import ContainerHost.Proofs.Leftovers
import ContainerHost.Proofs.Manager.Reuse
import ContainerHost.Proofs.Manager.Frames
import ContainerHost.Proofs.Manager.ManagerSteps
import ContainerHost.Proofs.Manager.Renewal
import ContainerHost.Proofs.Container.Subscribers
import ContainerHost.Proofs.Container.Losses
import ContainerHost.Proofs.Container.Cascades
import ContainerHost.Proofs.Container.Handovers
import ContainerHost.Proofs.Container.Warnings
import ContainerHost.Proofs.Manager.Holdings
import ContainerHost.Proofs.Event.Registrations
import ContainerHost.Proofs.Event.Agreement
import ContainerHost.Proofs.Guest.Fuel
import ContainerHost.Proofs.Guest.Exactness
import ContainerHost.Proofs.Characters
import ContainerHost.Proofs.Guest.Storage
import ContainerHost.Proofs.Guest.Blind
import ContainerHost.Proofs.Guest.Reach
import ContainerHost.Proofs.Guest.Resolution
import ContainerHost.Proofs.Compose
import ContainerHost.Proofs.Ids
import ContainerHost.Proofs.Sources
import ContainerHost.Proofs.Overrides
import ContainerHost.Proofs.Manager.Keys
import ContainerHost.Proofs.Manager.Fetches
import ContainerHost.Proofs.Budgets
import ContainerHost.Proofs.Units
import ContainerHost.Proofs.Guest.Texts
import ContainerHost.Proofs.Guest.Deadlines
import ContainerHost.Proofs.Guest.Engine
import ContainerHost.Proofs.Guest.Interrupts
