import FabricEpoch.Acknowledgements
import FabricEpoch.Batches
import FabricEpoch.Bindings
import FabricEpoch.Capacity
import FabricEpoch.Remote
import FabricEpoch.Counters
import FabricEpoch.CrashRecovery
import FabricEpoch.Currentness
import FabricEpoch.Delegation
import FabricEpoch.EpochChain
import FabricEpoch.EpochChange
import FabricEpoch.Explanations
import FabricEpoch.FailedSaves
import FabricEpoch.FenceRetention
import FabricEpoch.GrantLedger
import FabricEpoch.HashStream
import FabricEpoch.Indexes
import FabricEpoch.Issuance
import FabricEpoch.Linearized
import FabricEpoch.Refusals
import FabricEpoch.RegisteredLive
import FabricEpoch.RegistrationSaves
import FabricEpoch.ReplayIdentity
import FabricEpoch.Retirement
import FabricEpoch.Retries
import FabricEpoch.Revalidation
import FabricEpoch.RevocationLoops
import FabricEpoch.SaveAtomicity
import FabricEpoch.ScopeBinding
import FabricEpoch.ScopeSets
import FabricEpoch.Separation
import FabricEpoch.SessionClosures
import FabricEpoch.SessionDiscipline
import FabricEpoch.SessionLoss
import FabricEpoch.SessionTable
import FabricEpoch.SnapshotDigest
import FabricEpoch.Snapshots
import FabricEpoch.Wire.OneEncoding
import FabricEpoch.Wire.RoundTrip
import FabricEpoch.Wire.Stream
