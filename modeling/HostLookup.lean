import HostLookup.Main
import HostLookup.Proofs.Listing
import HostLookup.Proofs.Index
import HostLookup.Proofs.Lookup
import HostLookup.Proofs.Tracking
import HostLookup.Proofs.Dispatch
import HostLookup.Proofs.Freshness
import HostLookup.Proofs.Request
import HostLookup.Proofs.Slots
import HostLookup.Proofs.Answers
import HostLookup.Proofs.Texts
import HostLookup.Proofs.Framing
import HostLookup.Proofs.Sockaddr
import HostLookup.Proofs.FirstAddress
import HostLookup.Proofs.Forward
import HostLookup.Proofs.Numerals
import HostLookup.Proofs.AddressText
import HostLookup.Proofs.ReplyReading
import HostLookup.Proofs.Arguments
import HostLookup.Proofs.Paths
import HostLookup.Proofs.Retargeting
import HostLookup.Proofs.Pipeline
import HostLookup.Proofs.Reloading
import HostLookup.Proofs.Names
import HostLookup.Proofs.Layout
import HostLookup.Proofs.Reverse
import HostLookup.Proofs.Faults
import HostLookup.Proofs.Statuses
import HostLookup.Proofs.Serving
import HostLookup.Proofs.Comments
import HostLookup.Proofs.Outstanding
import HostLookup.Proofs.Search
import HostLookup.Proofs.Ports
import HostLookup.Proofs.Literals
import HostLookup.Proofs.Listening
