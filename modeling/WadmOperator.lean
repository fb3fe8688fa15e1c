import WadmOperator.Foundation.Transition
import WadmOperator.Foundation.Dict
import WadmOperator.SocketAddr
import WadmOperator.Manifest
import WadmOperator.Commands
import WadmOperator.Commands.Frames
import WadmOperator.Commands.Removals
import WadmOperator.Commands.Upserts
import WadmOperator.Foundation.Channel
import WadmOperator.ServiceWatcher
import WadmOperator.WatcherTasks
import WadmOperator.TaskLifetime
import WadmOperator.RegisteredNamespaces
import WadmOperator.Controller
import WadmOperator.Routing
import WadmOperator.Commands.Effects
import WadmOperator.Operator
import WadmOperator.Isolation
import WadmOperator.Acknowledgement
import WadmOperator.Cleanup
import WadmOperator.Commands.Dormant
import WadmOperator.Unpublication
import WadmOperator.EventHistory
import WadmOperator.LateUpserts
import WadmOperator.RegisteredPairs
import WadmOperator.Context
import WadmOperator.PodTemplate
import WadmOperator.Reconcile
import WadmOperator.ReconcileSteps
import WadmOperator.HostWorkloads
import WadmOperator.ReconcileSuccess
import WadmOperator.Foundation.Pieces
import WadmOperator.NatsConf
import WadmOperator.Credentials
import WadmOperator.WatcherClients
import WadmOperator.ReconcileFootprint
import WadmOperator.ReconcileOrder
import WadmOperator.Applications
import WadmOperator.Foundation.Firsts
import WadmOperator.ApplicationListing
import WadmOperator.LatticeConnection
import WadmOperator.ApplicationLookup
import WadmOperator.ApplicationViews
import WadmOperator.HttpServer
import WadmOperator.EndpointSlices
import WadmOperator.Foundation.LocalSteps
import WadmOperator.LocalFailures
import WadmOperator.Foundation.JsonMerge
import WadmOperator.Patching
import WadmOperator.RepeatedPatches
import WadmOperator.PatchTarget
import WadmOperator.CertificateVolumes
import WadmOperator.PodVolumes
import WadmOperator.PodEnvironment
import WadmOperator.RegistryCredentials
import WadmOperator.UnparsableCredentials
import WadmOperator.HostLabels
import WadmOperator.PodAdditions
import WadmOperator.NatsConfReading
import WadmOperator.AcceptHeader
import WadmOperator.Foundation.Retry
import WadmOperator.Retries
import WadmOperator.FailedAttempts
import WadmOperator.Foundation.Versioned
import WadmOperator.Installation
import WadmOperator.EventRouting
import WadmOperator.Foundation.Codec
import WadmOperator.HostConfigFormat
import WadmOperator.Foundation.Schema
import WadmOperator.ConcurrentRequests
import WadmOperator.Foundation.Access
import WadmOperator.Permissions
import WadmOperator.Repairs
import WadmOperator.Foundation.Simulation
import WadmOperator.WholeReconciles
import WadmOperator.Foundation.Finalizers
import WadmOperator.Lifecycle
