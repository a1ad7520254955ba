/-!
# Transport protocols
-/

namespace MediaSession

/-- A transport protocol that a pair of ports is reserved for. -/
inductive Protocol where
  | udp
  | tcp
  deriving DecidableEq, Repr

namespace Protocol

/-- The other protocol. -/
def opposite : Protocol → Protocol
  | .udp => .tcp
  | .tcp => .udp

/-- The name of the protocol. -/
def name : Protocol → String
  | .udp => "UDP"
  | .tcp => "TCP"

end Protocol

end MediaSession
