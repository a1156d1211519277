import LinkedProof.Backend
import LinkedProof.CommandLine
import LinkedProof.Http.Script
import LinkedProof.Main
import LinkedProof.Proofs.AlgorithmBinding
import LinkedProof.Proofs.CommandLine.Output
import LinkedProof.Proofs.Commutation
import LinkedProof.Proofs.Did.Coherence
import LinkedProof.Proofs.Did.Failures
import LinkedProof.Proofs.Did.OwnKey
import LinkedProof.Proofs.Independence
import LinkedProof.Proofs.KeyExport
import LinkedProof.Proofs.Malleability
import LinkedProof.Proofs.RemoteTasks
import LinkedProof.Proofs.Separation
import LinkedProof.Proofs.SignatureForms
import LinkedProof.Proofs.TimeFormat
