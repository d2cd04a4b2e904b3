import BeltHeap.Endian.Lemmas
import BeltHeap.Mutator
import BeltHeap.Observer.LiveProcess
import BeltHeap.Observer.PublishedHeap
import BeltHeap.Observer.ReadOnlyImage
import BeltHeap.Observer.Simulated
import BeltHeap.Proofs.Arranging
import BeltHeap.Proofs.Blocks
import BeltHeap.Proofs.Collected
import BeltHeap.Proofs.Enduring
import BeltHeap.Proofs.Exhausting
import BeltHeap.Proofs.Failing
import BeltHeap.Proofs.Imaging
import BeltHeap.Proofs.Observing
import BeltHeap.Proofs.Reclaiming
import BeltHeap.Proofs.Redirecting
import BeltHeap.Proofs.Tables
import BeltHeap.Proofs.Vacating
import BeltHeap.Proofs.Watching
import BeltHeap.Proofs.Commanding
import BeltHeap.Proofs.Logging
import BeltHeap.Proofs.Snapshots
import BeltHeap.Proofs.Sources
import BeltHeap.Proofs.Withstanding
import BeltHeap.Proofs.Boundaries
import BeltHeap.Proofs.Decoding
import BeltHeap.Proofs.Growing
import BeltHeap.Proofs.Requesting
import BeltHeap.Proofs.Scanning
import BeltHeap.Proofs.Shuffling
import BeltHeap.Proofs.Handles
import BeltHeap.Proofs.Registering
import BeltHeap.Proofs.Refreshing
import BeltHeap.Proofs.WritingThrough
import BeltHeap.Proofs.Carving
import BeltHeap.Proofs.Encoding
import BeltHeap.Proofs.Noting
import BeltHeap.Proofs.Clearing
import BeltHeap.Proofs.Lending
import BeltHeap.Proofs.Setting
import BeltHeap.Proofs.Moving
import BeltHeap.Proofs.Rounding
