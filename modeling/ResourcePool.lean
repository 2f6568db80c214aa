import ResourcePool.Bench.Action
import ResourcePool.Registry.Action
import ResourcePool.Slot.Action
import ResourcePool.Waiter.Action
import ResourcePool.Proofs.Cancellation
import ResourcePool.Proofs.Creations
import ResourcePool.Proofs.Custody
import ResourcePool.Proofs.DeliveryOrder
import ResourcePool.Proofs.Drain
import ResourcePool.Proofs.Emptied
import ResourcePool.Proofs.Failures
import ResourcePool.Proofs.Protocol
import ResourcePool.Proofs.SchedulerIndependence
import ResourcePool.Proofs.Starvation
import ResourcePool.Proofs.Termination
import ResourcePool.Proofs.Transparency
import ResourcePool.Proofs.Vetting
