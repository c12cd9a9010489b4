import InterchainEvents.Hub.Lifecycle
import InterchainEvents.Hub.Trigger
import InterchainEvents.Hub.Rollback
import InterchainEvents.Watcher.Coverage
import InterchainEvents.Watcher.JsonPath
import InterchainEvents.Watcher.Threshold
import InterchainEvents.Watcher.Equality
import InterchainEvents.Explorer.Subscribe
import InterchainEvents.Explorer.JsonPath
import InterchainEvents.Explorer.Leaves
import InterchainEvents.Hub.Binding
import InterchainEvents.Hub.Frame
import InterchainEvents.ProofCallback.Payload
import InterchainEvents.Watcher.Store
import InterchainEvents.Explorer.WatchKey
import InterchainEvents.Registry.Condition
import InterchainEvents.Hub.Watches
import InterchainEvents.Hub.Expiry
import InterchainEvents.Contracts.Listing
import InterchainEvents.Hub.Comparison
import InterchainEvents.Hub.Commute
import InterchainEvents.Explorer.StateKey
import InterchainEvents.Watcher.Loop
import InterchainEvents.Hub.AppHash
import InterchainEvents.Explorer.Folder
import InterchainEvents.Explorer.Regroup
import InterchainEvents.Contracts.Delivery
import InterchainEvents.Watcher.Log
import InterchainEvents.Watcher.Manual
import InterchainEvents.Watcher.Settle
import InterchainEvents.Scripts.Deliver
import InterchainEvents.Scripts.Order
import InterchainEvents.Async.Invariant
import InterchainEvents.Explorer.Honest
