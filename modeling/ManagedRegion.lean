import ManagedRegion.Main
import ManagedRegion.Proofs.Debouncing
import ManagedRegion.Proofs.Handover
import ManagedRegion.Proofs.Inline
import ManagedRegion.Proofs.Quiescence
import ManagedRegion.Proofs.Regions
import ManagedRegion.Proofs.Synchronization
import ManagedRegion.Proofs.TableCoding
import ManagedRegion.Service.Watcher
import ManagedRegion.Proofs.Exchange
import ManagedRegion.Proofs.Listing
import ManagedRegion.Proofs.Traces
import ManagedRegion.Proofs.Residue
import ManagedRegion.Proofs.Confinement
import ManagedRegion.Proofs.ImageCoding
import ManagedRegion.Proofs.DeviceLayout
import ManagedRegion.Proofs.StringArea
import ManagedRegion.Proofs.Records
import ManagedRegion.Proofs.Summary
import ManagedRegion.Proofs.Announcements
import ManagedRegion.Proofs.Independence
import ManagedRegion.Proofs.Identities
import ManagedRegion.Proofs.Passes
import ManagedRegion.Proofs.Deadlines
import ManagedRegion.Proofs.Bursts
import ManagedRegion.Proofs.FieldReads
import ManagedRegion.Proofs.Settings
