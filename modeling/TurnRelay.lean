import TurnRelay.Address.Text
import TurnRelay.AllocationTable
import TurnRelay.Config.Json
import TurnRelay.Credential
import TurnRelay.Endpoint.Exchange
import TurnRelay.Message.Codec
import TurnRelay.Packet
import TurnRelay.Proofs.Hash.Burst
import TurnRelay.Proofs.Message.Bare
import TurnRelay.Proofs.Message.Canonical
import TurnRelay.Proofs.Message.Fingerprint
import TurnRelay.Proofs.Message.Framing
import TurnRelay.Proofs.Message.Grammar
import TurnRelay.Proofs.Message.Packet
import TurnRelay.Proofs.Message.Reading
import TurnRelay.Proofs.Message.Reencoding
import TurnRelay.Proofs.Message.RoundTrip
import TurnRelay.Proofs.Message.Signature
import TurnRelay.Proofs.Message.Tampering
import TurnRelay.Proofs.Message.Trailer
import TurnRelay.Proofs.Message.Units
import TurnRelay.Proofs.Message.Validity
import TurnRelay.Proofs.Message.Values
import TurnRelay.Proofs.PortPool.Run
import TurnRelay.Proofs.Service.Acknowledgement
import TurnRelay.Proofs.Service.Capacity
import TurnRelay.Proofs.Service.Ledger
import TurnRelay.Proofs.Service.Ports
import TurnRelay.Proofs.Service.References
import TurnRelay.Proofs.Service.Run
import TurnRelay.Proofs.Site.Answers
import TurnRelay.Proofs.Site.Authorisation
import TurnRelay.Proofs.Site.Channels
import TurnRelay.Proofs.Site.Concealment
import TurnRelay.Proofs.Site.Delivery
import TurnRelay.Proofs.Site.Execution
import TurnRelay.Proofs.Site.Frame
import TurnRelay.Proofs.Site.Gates
import TurnRelay.Proofs.Site.Granting
import TurnRelay.Proofs.Site.History
import TurnRelay.Proofs.Site.Lifetimes
import TurnRelay.Proofs.Site.Ownership
import TurnRelay.Proofs.Site.Permissions
import TurnRelay.Proofs.Site.Provenance
import TurnRelay.Proofs.Site.Reception
import TurnRelay.Proofs.Site.Refusal
import TurnRelay.Proofs.Site.Replies
import TurnRelay.Proofs.Site.Retransmission
import TurnRelay.Proofs.Site.Roster
import TurnRelay.Proofs.Site.Suspension
import TurnRelay.Proofs.Site.Upkeep
import TurnRelay.Proofs.Table.Atomicity
import TurnRelay.Proofs.Table.Channels
import TurnRelay.Proofs.Table.Conservation
import TurnRelay.Proofs.Table.Expiry
import TurnRelay.Proofs.Table.Fading
import TurnRelay.Proofs.Table.Sharing
import TurnRelay.Proofs.Table.Tidy
import TurnRelay.Service
