import CartridgeRuntime.Storage.Quarantine
import CartridgeRuntime.Storage.BlobReference
import CartridgeRuntime.Storage.BlobCollection
import CartridgeRuntime.Core.AssetRoot
import CartridgeRuntime.Core.Migration
import CartridgeRuntime.Engine.RollingLiveness
import CartridgeRuntime.Engine.Fencing
import CartridgeRuntime.Engine.RolloutArchive
import CartridgeRuntime.Engine.InterruptedMove
import CartridgeRuntime.Engine.Inventory
import CartridgeRuntime.Engine.Installed
import CartridgeRuntime.Daemon.Replay
import CartridgeRuntime.Network.Rollback
import CartridgeRuntime.Network.Scopes
import CartridgeRuntime.Media.LowPass
import CartridgeRuntime.Media.RealtimeBuffer
import CartridgeRuntime.Media.DrawWork
import CartridgeRuntime.Network.AssetTransfer
import CartridgeRuntime.Ingress.Response
import CartridgeRuntime.Network.Convergence
import CartridgeRuntime.Network.PeerDelivery
import CartridgeRuntime.Daemon.ServiceWorker
import CartridgeRuntime.Storage.Restore
import CartridgeRuntime.Identity.Transparency
import CartridgeRuntime.Identity.TrustFile
import CartridgeRuntime.Core.SelectiveAsset
import CartridgeRuntime.Runtime.Replay
