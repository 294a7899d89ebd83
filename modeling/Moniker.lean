import Moniker.Program
import Moniker.Proofs.Accounting
import Moniker.Proofs.Ambiguity
import Moniker.Proofs.Apart
import Moniker.Proofs.Binding
import Moniker.Proofs.Blaming
import Moniker.Proofs.Bytes
import Moniker.Proofs.Carrying
import Moniker.Proofs.Clipping
import Moniker.Proofs.Cutting
import Moniker.Proofs.Descending
import Moniker.Proofs.Equivalence
import Moniker.Proofs.Fingerprints
import Moniker.Proofs.Hosts
import Moniker.Proofs.Interning
import Moniker.Proofs.Paths
import Moniker.Proofs.Printing
import Moniker.Proofs.Proper
import Moniker.Proofs.Ranging
import Moniker.Proofs.Restoring
import Moniker.Proofs.Shadowing
import Moniker.Proofs.Soundness
import Moniker.Proofs.Tuples
import Moniker.Proofs.Widening
import Moniker.Proofs.Writing
import Moniker.Resolver
import Moniker.Writer
