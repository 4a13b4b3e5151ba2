import LedgerSandbox.Archive.Checksum
import LedgerSandbox.Archive.CodePage
import LedgerSandbox.Archive.Inflate
import LedgerSandbox.Archive.Zip
import LedgerSandbox.Bytes
import LedgerSandbox.Config
import LedgerSandbox.Failure
import LedgerSandbox.Host.Call
import LedgerSandbox.Host.Error
import LedgerSandbox.Host.Function
import LedgerSandbox.Host.GuestMemory
import LedgerSandbox.Host.State
import LedgerSandbox.Ledger.Basic
import LedgerSandbox.Ledger.CompositeKey
import LedgerSandbox.Ledger.Faulty
import LedgerSandbox.Ledger.Layers
import LedgerSandbox.Ledger.Memory
import LedgerSandbox.ModuleName
import LedgerSandbox.Proofs.Archive.Entries
import LedgerSandbox.Proofs.Archive.Limit
import LedgerSandbox.Proofs.Except
import LedgerSandbox.Proofs.Host.Copies
import LedgerSandbox.Proofs.Host.FailedCall
import LedgerSandbox.Proofs.Host.Imports
import LedgerSandbox.Proofs.Host.Isolation
import LedgerSandbox.Proofs.Host.Linking
import LedgerSandbox.Proofs.Host.Memory
import LedgerSandbox.Proofs.Host.Outcome
import LedgerSandbox.Proofs.Host.Range
import LedgerSandbox.Proofs.Host.ServedCall
import LedgerSandbox.Proofs.Host.Widths
import LedgerSandbox.Proofs.Ledger.Changes
import LedgerSandbox.Proofs.Ledger.Commit
import LedgerSandbox.Proofs.Ledger.CompositeKey
import LedgerSandbox.Proofs.Ledger.CompositeScan
import LedgerSandbox.Proofs.Ledger.Dependable
import LedgerSandbox.Proofs.Ledger.Keys
import LedgerSandbox.Proofs.Ledger.Overlay
import LedgerSandbox.Proofs.Ledger.Recorded
import LedgerSandbox.Proofs.Ledger.Stack
import LedgerSandbox.Proofs.Ledger.Staging
import LedgerSandbox.Proofs.Ledger.View
import LedgerSandbox.Proofs.Ledger.WholeScan
import LedgerSandbox.Proofs.Registry.DirectRun
import LedgerSandbox.Proofs.Registry.InMemory
import LedgerSandbox.Proofs.Registry.Install
import LedgerSandbox.Proofs.Registry.NoTrace
import LedgerSandbox.Proofs.Registry.WritePhase
import LedgerSandbox.Proofs.Sandbox.Calls
import LedgerSandbox.Proofs.Sandbox.CompletedRun
import LedgerSandbox.Proofs.Sandbox.Deadline
import LedgerSandbox.Proofs.Sandbox.Failures
import LedgerSandbox.Proofs.Sandbox.HostCalls
import LedgerSandbox.Proofs.Sandbox.Rejection
import LedgerSandbox.Proofs.Sandbox.Reuse
import LedgerSandbox.Proofs.Sandbox.TypedRun
import LedgerSandbox.Proofs.Simulation.Action
import LedgerSandbox.Proofs.Simulation.Host
import LedgerSandbox.Proofs.Simulation.Run
import LedgerSandbox.Proofs.Simulation.Session
import LedgerSandbox.Proofs.Simulation.Transaction
import LedgerSandbox.Proofs.SortedMap
import LedgerSandbox.Proofs.Submission.Decode
import LedgerSandbox.Proofs.Submission.Forms
import LedgerSandbox.Proofs.Submission.Hex
import LedgerSandbox.Proofs.Text.Json
import LedgerSandbox.Proofs.Text.JsonReader
import LedgerSandbox.Proofs.Text.Utf8
import LedgerSandbox.Proofs.Transaction.AcceptedModules
import LedgerSandbox.Proofs.Transaction.Answer
import LedgerSandbox.Proofs.Transaction.FailurePayload
import LedgerSandbox.Proofs.Transaction.Footprint
import LedgerSandbox.Proofs.Transaction.History
import LedgerSandbox.Proofs.Transaction.InMemory
import LedgerSandbox.Proofs.Transaction.Listing
import LedgerSandbox.Proofs.Transaction.ListingFaults
import LedgerSandbox.Proofs.Transaction.ListingLines
import LedgerSandbox.Proofs.Transaction.Noninterference
import LedgerSandbox.Proofs.Transaction.Order
import LedgerSandbox.Proofs.Transaction.Reachable
import LedgerSandbox.Proofs.Transaction.Rejection
import LedgerSandbox.Proofs.Wasm.Instantiation
import LedgerSandbox.Proofs.Wasm.Instructions
import LedgerSandbox.Proofs.Wasm.Operands
import LedgerSandbox.Proofs.Wasm.Soundness
import LedgerSandbox.Proofs.Wasm.TypedStore
import LedgerSandbox.Proofs.Wasm.WellTyped
import LedgerSandbox.Registry
import LedgerSandbox.Response
import LedgerSandbox.Sandbox
import LedgerSandbox.SortedMap
import LedgerSandbox.Submission.Decode
import LedgerSandbox.Submission.FileType
import LedgerSandbox.Submission.Hex
import LedgerSandbox.Text.Json
import LedgerSandbox.Text.Lossy
import LedgerSandbox.Text.Quoted
import LedgerSandbox.Text.Unprintable
import LedgerSandbox.Transaction
import LedgerSandbox.Wasm.Arithmetic
import LedgerSandbox.Wasm.Fault
import LedgerSandbox.Wasm.FloatingPoint
import LedgerSandbox.Wasm.Instance
import LedgerSandbox.Wasm.Instruction
import LedgerSandbox.Wasm.Integer
import LedgerSandbox.Wasm.Machine
import LedgerSandbox.Wasm.Module
import LedgerSandbox.Wasm.Opcode
import LedgerSandbox.Wasm.Reader
import LedgerSandbox.Wasm.Section
import LedgerSandbox.Wasm.Store
import LedgerSandbox.Wasm.Trap
import LedgerSandbox.Wasm.Types
import LedgerSandbox.Wasm.Typing
import LedgerSandbox.Wasm.Validation
