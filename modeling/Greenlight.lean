import Greenlight.Tramp.Allocation
import Greenlight.Tramp.AllocationRetry
import Greenlight.Tramp.AllocationSpec
import Greenlight.Lib.Transition
import Greenlight.Lib.Versioned
import Greenlight.Lib.Word
import Greenlight.Persist.State
import Greenlight.Persist.Memory
import Greenlight.Persist.Rollback
import Greenlight.Persist.Convergence
import Greenlight.Plugin.Respond
import Greenlight.Plugin.Durability
import Greenlight.Plugin.SignerSync
import Greenlight.Plugin.Deletion
import Greenlight.Plugin.SignatureContext
import Greenlight.Plugin.Configure
import Greenlight.Lib.Text
import Greenlight.Lib.Decimal
import Greenlight.Runes.Context
import Greenlight.Runes.Plain
import Greenlight.Signer.Rune
import Greenlight.Signer.Auth
import Greenlight.Signer.Request
import Greenlight.Client.AuthService
import Greenlight.Signer.Binding
import Greenlight.Signer.Resolve
import Greenlight.Signer.Process
import Greenlight.Signer.Authorize
import Greenlight.Signer.Outcome
import Greenlight.Signer.Extension
import Greenlight.Signer.History
import Greenlight.Pairing.Approval
import Greenlight.Pairing.Restriction
import Greenlight.Tramp.Completeness
import Greenlight.Plugin.Tlv
import Greenlight.Plugin.TlvStreams
import Greenlight.Plugin.TlvMap
import Greenlight.Plugin.Amounts
import Greenlight.Tramp.ErrorCode
import Greenlight.Tramp.Reestablish
import Greenlight.Lsp.HtlcAccepted
import Greenlight.Lsp.Panics
import Greenlight.Lsp.Payload
import Greenlight.Lsp.Totals
import Greenlight.Lsp.Amendment
import Greenlight.Tramp.Idempotence
import Greenlight.Persist.Nodes
import Greenlight.Lib.Channel
import Greenlight.Plugin.Stage
import Greenlight.Plugin.Delivery
import Greenlight.Plugin.Routing
import Greenlight.Lib.Base64
import Greenlight.Client.Envelope
import Greenlight.Persist.Diff
import Greenlight.Plugin.Waker
import Greenlight.Lib.Staged
import Greenlight.Plugin.ChannelStages
import Greenlight.Lib.Codec
import Greenlight.Signerproxy.Wire
import Greenlight.Persist.Channels
import Greenlight.Persist.Isolation
import Greenlight.Persist.Deletion
import Greenlight.Lnurl.Models
import Greenlight.Lnurl.Pay
import Greenlight.Lnurl.Withdraw
import Greenlight.Lnurl.Panics
import Greenlight.Lnurl.Addresses
import Greenlight.Signer.Allowlist
import Greenlight.Runes.Rules
import Greenlight.Signer.ReadOnly
import Greenlight.Sdk.OnchainSend
import Greenlight.Lib.StableSort
import Greenlight.Lib.Loop
import Greenlight.Lib.NumeralOrder
import Greenlight.Tramp.Arithmetic
import Greenlight.Tramp.FeatureBits
import Greenlight.Plugin.Reconnect
import Greenlight.Plugin.Buffering
import Greenlight.Signerproxy.Proxy
import Greenlight.Plugin.Version
import Greenlight.Runes.Printable
import Greenlight.Runes.Composition
import Greenlight.Signer.Narrowing
import Greenlight.Signer.Issue
import Greenlight.Client.Upgrade
import Greenlight.Plugin.Tu64
import Greenlight.Lib.Search
import Greenlight.Pairing.Exactness
import Greenlight.Plugin.Storage
import Greenlight.Signer.Session
import Greenlight.Plugin.Hsm
import Greenlight.Plugin.Pipeline
import Greenlight.Plugin.PipelineInv
import Greenlight.Plugin.Answers
import Greenlight.Signer.Mint
import Greenlight.Pairing.Protocol
import Greenlight.Lib.Retry
import Greenlight.Pairing.Lookup
import Greenlight.Signer.Loops
import Greenlight.Plugin.Events
import Greenlight.Lib.Protobuf
import Greenlight.Client.Registration
import Greenlight.Plugin.PeerList
import Greenlight.Plugin.CloseTo
import Greenlight.Tramp.Overlap
