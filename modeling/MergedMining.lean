import MergedMining.Json.Forms
import MergedMining.Json.Reader
import MergedMining.Json.Writer
import MergedMining.Proofs.Grammar
import MergedMining.Proofs.Recognition
import MergedMining.Proofs.Counts
import MergedMining.Proofs.TransactionFormat
import MergedMining.Proofs.BlockFormat
import MergedMining.Proofs.Locality
import MergedMining.Proofs.Misreading
import MergedMining.Proofs.TransactionId
import MergedMining.Proofs.MerkleLevels
import MergedMining.Proofs.MerkleInclusion
import MergedMining.Proofs.MerkleBisection
import MergedMining.Proofs.MerkleBinding
import MergedMining.Proofs.InjectedFormats
import MergedMining.Proofs.CountGuard
import MergedMining.Proofs.Failures
import MergedMining.Proofs.Delegation
import MergedMining.Proofs.VarIntForms
import MergedMining.Proofs.TransactionLayouts
import MergedMining.Proofs.ReceivedBytes
import MergedMining.Proofs.CursorRuns
import MergedMining.Proofs.HexText
import MergedMining.Proofs.JsonRoundTrip
import MergedMining.Proofs.MerkleFolding
import MergedMining.Proofs.HexSpelling
import MergedMining.Proofs.Composition
import MergedMining.Proofs.WireErrors
import MergedMining.Proofs.HexBlocks
import MergedMining.Proofs.EventLog
import MergedMining.Proofs.NetworkNames
import MergedMining.Proofs.CheckpointLookup
import MergedMining.Proofs.FailureLog
import MergedMining.Proofs.BranchFormat
import MergedMining.Proofs.SettledReads
import MergedMining.Proofs.NamedFields
import MergedMining.Proofs.UnreachedErrors
