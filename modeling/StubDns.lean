import StubDns.Exchange
import StubDns.Proofs.Accepted
import StubDns.Main
import StubDns.Proofs.Exchange.Genuine
import StubDns.Proofs.Exchange.History
import StubDns.Proofs.Exchange.Retry
import StubDns.Proofs.Reply
import StubDns.Resolver
import StubDns.Script
import StubDns.Machine
import StubDns.Proofs.Reach
import StubDns.Proofs.Resolver.Calls
import StubDns.Proofs.Resolver.Lifecycle
import StubDns.Proofs.Resolver.Withdrawal
import StubDns.Proofs.Resolver.Sessions
import StubDns.Proofs.Registry
import StubDns.Proofs.Exchange.Buffers
import StubDns.Proofs.Exchange.Waiting
import StubDns.Proofs.Exchange.Writes
import StubDns.Proofs.Links
import StubDns.Proofs.Resolver.Failures
import StubDns.Proofs.Resolver.Objects
import StubDns.Proofs.Name.Hops
import StubDns.Proofs.Name.Hostname
import StubDns.Proofs.Name.Agreement
import StubDns.Proofs.Name.Canonical
import StubDns.Proofs.ReadQuery
import StubDns.Proofs.Extension
import StubDns.Proofs.Exchange.Output
import StubDns.Proofs.Duration
import StubDns.Proofs.OnLink
import StubDns.Proofs.ResolvConf.Bounds
import StubDns.Proofs.ResolvConf.Concatenation
import StubDns.Proofs.Wire.Access
