import DoggyDns.Ebpf.Keys
import DoggyDns.Ebpf.Checksum
import DoggyDns.Ebpf.Answered
import DoggyDns.System.Flags
import DoggyDns.System.Parity
import DoggyDns.Nacos.Deadline
import DoggyDns.Nacos.Zone
import DoggyDns.Nacos.Mapping
import DoggyDns.Nacos.Configured
import DoggyDns.Nacos.BackoffHistory
import DoggyDns.Plugin.Memo
import DoggyDns.Xdp.Expiry
import DoggyDns.Xdp.Separation
import DoggyDns.Xdp.Stats
import DoggyDns.Basic.Expansion
import DoggyDns.Observability.Merge
import DoggyDns.Control.Redact
import DoggyDns.Core.Rotation
import DoggyDns.Observability.InFlight
import DoggyDns.Observability.RoundTrip
import DoggyDns.System.Accounting
import DoggyDns.System.Restarts
import DoggyDns.Nacos.Ledger
import DoggyDns.System.ServiceReply
import DoggyDns.System.Overlap
import DoggyDns.Observability.Profiler
import DoggyDns.Observability.Metrics
import DoggyDns.System.Startup
