import Enclave.Host.Call
import Enclave.Host.Payload
import Enclave.Volume.Request
import Enclave.Volume.Sink
import Enclave.Proofs.Accounting
import Enclave.Proofs.FailedOpen
import Enclave.Proofs.Fit
import Enclave.Proofs.Openings
import Enclave.Proofs.Flushes
import Enclave.Proofs.Acts
import Enclave.Proofs.Isolation
import Enclave.Proofs.Safety
import Enclave.Proofs.Agenda
import Enclave.Proofs.Deferral
import Enclave.Proofs.Displacement
import Enclave.Proofs.Reports
import Enclave.Proofs.Loosening
import Enclave.Proofs.Observations
import Enclave.Proofs.Sentinels
import Enclave.Proofs.Retirement
import Enclave.Proofs.Loading
import Enclave.Proofs.Writing
import Enclave.Proofs.Refusals
import Enclave.Proofs.Layers
import Enclave.Proofs.Draining
import Enclave.Proofs.Payload
import Enclave.Proofs.Seeking
import Enclave.Proofs.SizedReads
import Enclave.Proofs.Doubling
import Enclave.Proofs.PartialLimits
import Enclave.Proofs.Atomicity
