import StepReplay.Action
import StepReplay.Attempt
import StepReplay.Base64
import StepReplay.Binary64
import StepReplay.Bindings
import StepReplay.Block
import StepReplay.Bytes
import StepReplay.Calldata
import StepReplay.CommandLine
import StepReplay.CommandLine.Parameter
import StepReplay.CommandLine.Scan
import StepReplay.CommandLine.Settings
import StepReplay.Config
import StepReplay.DecodeError
import StepReplay.Deflate.Bits
import StepReplay.Deflate.Code
import StepReplay.Deflate.Inflate
import StepReplay.Deployment
import StepReplay.Disk
import StepReplay.Environment
import StepReplay.Environment.Engine
import StepReplay.Environment.Evm
import StepReplay.Environment.Scripted
import StepReplay.Environment.Simulated
import StepReplay.Evm.Gas
import StepReplay.Evm.Ledger
import StepReplay.Evm.Machine
import StepReplay.Evm.Message
import StepReplay.Evm.Op
import StepReplay.Evm.Run
import StepReplay.Fault
import StepReplay.FileTree
import StepReplay.Fixture
import StepReplay.Form
import StepReplay.Hex
import StepReplay.Json
import StepReplay.Json.Literal
import StepReplay.Json.Printer
import StepReplay.Json.Reader
import StepReplay.Keccak
import StepReplay.Main
import StepReplay.Outcome
import StepReplay.Page
import StepReplay.Path
import StepReplay.Proofs.Exchange
import StepReplay.Run
import StepReplay.State
import StepReplay.State.Hash
import StepReplay.Step
import StepReplay.StepWitness
import StepReplay.StepWitness.Calls
import StepReplay.Table
import StepReplay.Text
import StepReplay.Text.Blank
import StepReplay.Text.Decimal
import StepReplay.Text.Integer
import StepReplay.Text.Printable
import StepReplay.Text.Quoted
import StepReplay.Text.Similarity
import StepReplay.Text.Utf8
import StepReplay.Zlib
import StepReplay.Proofs.Progress
import StepReplay.Proofs.Verdict
import StepReplay.Proofs.CallTrace
import StepReplay.Proofs.Rollback
import StepReplay.Proofs.Disk
import StepReplay.Proofs.Reports
import StepReplay.Proofs.Bytes
import StepReplay.Proofs.Calldata
import StepReplay.Proofs.Layout
import StepReplay.Proofs.Table
import StepReplay.Proofs.SimulatedStep
import StepReplay.Proofs.Disclosure
import StepReplay.Proofs.Visibility
import StepReplay.Proofs.Lockstep
import StepReplay.Proofs.Sharing
import StepReplay.Proofs.Hex
import StepReplay.Proofs.Keccak
import StepReplay.Proofs.Utf8
import StepReplay.Proofs.Json.Scalar
import StepReplay.Proofs.Json.RoundTrip
import StepReplay.Proofs.Json.Encoding
import StepReplay.Proofs.Fixture
import StepReplay.Proofs.Text
import StepReplay.Proofs.Path
import StepReplay.Proofs.FixtureFile
import StepReplay.Proofs.Bindings
import StepReplay.Proofs.FileTree
import StepReplay.Proofs.CorpusPath
import StepReplay.Proofs.Corpus
import StepReplay.Proofs.Reportable
import StepReplay.Proofs.Replay
import StepReplay.Proofs.Base64
import StepReplay.Proofs.Zlib
import StepReplay.Proofs.Compressed
import StepReplay.Proofs.Deployment
import StepReplay.Proofs.Relocation
import StepReplay.Proofs.JsonForm
import StepReplay.Proofs.Precedence
import StepReplay.Proofs.Residue
import StepReplay.Proofs.Recoding
import StepReplay.Proofs.Fingerprint
import StepReplay.Proofs.Hex.Grammar
import StepReplay.Proofs.Base64.Grammar
import StepReplay.Proofs.Deflate.Forward
import StepReplay.Proofs.Truncation
import StepReplay.Proofs.Checksum
import StepReplay.Proofs.Corruption
import StepReplay.Proofs.Calldata.Tuple
import StepReplay.Proofs.Disclosure.Calldata
import StepReplay.Proofs.JsonForm.Acceptance
import StepReplay.Proofs.Commitment
import StepReplay.Proofs.Signature
import StepReplay.Proofs.Bindings.Layout
import StepReplay.Proofs.GasLimit
