import Parley.Complaint
import Parley.Document.Json
import Parley.Document.Writing
import Parley.Host.Stock
import Parley.Playthrough
import Parley.Proofs.Known
import Parley.Proofs.Congruence
import Parley.Proofs.Uses
import Parley.Proofs.Signal
import Parley.Proofs.Guard
import Parley.Proofs.Overlap
import Parley.Proofs.Running
import Parley.Proofs.Confined
import Parley.Proofs.Change
import Parley.Proofs.Plain
import Parley.Proofs.Write
import Parley.Proofs.Decent
import Parley.Proofs.Prefix
import Parley.Proofs.Widening
import Parley.Proofs.Delivery
import Parley.Proofs.Listeners
import Parley.Proofs.Acyclic
import Parley.Proofs.Alias
import Parley.Proofs.Arrival
import Parley.Proofs.Environment
import Parley.Proofs.Canonical
import Parley.Proofs.Formula
import Parley.Proofs.Malformed
import Parley.Proofs.Assignment
import Parley.Proofs.Verbatim
import Parley.Proofs.Regime
import Parley.Proofs.Modes
import Parley.Proofs.Scalar
import Parley.Proofs.Ordering
import Parley.Proofs.Compound
import Parley.Proofs.Hops
import Parley.Proofs.LookAhead
import Parley.Proofs.Literals
import Parley.Proofs.Effects
import Parley.Proofs.Fields
import Parley.Proofs.Defaults
