import Netlink.Datagram.Basic
import Netlink.Datagram.Packer
import Netlink.Endpoint.Scripted
import Netlink.Family.Netfilter
import Netlink.Main
import Netlink.Message.Acknowledgement
import Netlink.Proofs.Access
import Netlink.Proofs.Acknowledging
import Netlink.Proofs.Attributes
import Netlink.Proofs.Batches
import Netlink.Proofs.Bounds
import Netlink.Proofs.Budget
import Netlink.Proofs.Calm
import Netlink.Proofs.Capacity
import Netlink.Proofs.Chain
import Netlink.Proofs.Completeness
import Netlink.Proofs.Confinement
import Netlink.Proofs.Confirmation
import Netlink.Proofs.Cursor
import Netlink.Proofs.Cutting
import Netlink.Proofs.Damage
import Netlink.Proofs.Decodings
import Netlink.Proofs.Drafting
import Netlink.Proofs.Excerpt
import Netlink.Proofs.Finishing
import Netlink.Proofs.Forgetting
import Netlink.Proofs.Formats
import Netlink.Proofs.Grammar
import Netlink.Proofs.Honest
import Netlink.Proofs.Interruptions
import Netlink.Proofs.Laziness
import Netlink.Proofs.Leftover
import Netlink.Proofs.Memory
import Netlink.Proofs.Operations
import Netlink.Proofs.Ownership
import Netlink.Proofs.Packing
import Netlink.Proofs.Pulling
import Netlink.Proofs.Reader
import Netlink.Proofs.Reassembly
import Netlink.Proofs.Repacking
import Netlink.Proofs.Repetition
import Netlink.Proofs.Sending
import Netlink.Proofs.Single
import Netlink.Proofs.Source
import Netlink.Proofs.Stepwise
import Netlink.Proofs.Strictness
import Netlink.Proofs.Supply
import Netlink.Proofs.Texts
import Netlink.Proofs.Timeouts
import Netlink.Proofs.Transcript
import Netlink.Proofs.Truthful
import Netlink.Proofs.Unpacking
import Netlink.Proofs.WordCursor
