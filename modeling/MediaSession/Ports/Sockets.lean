import MediaSession.Ports.Pool

/-!
# Socket pairs

A socket pair is two sockets on a pair of ports that is held for them, one for packets and one for their control. Two
more sockets keep the other protocol away from the same ports. The allocator takes a pair of ports from the pool of the
protocol and asks for the four sockets one after the other. At the first refusal it closes what it has opened, gives the
ports back and tries the next pair, three times in all.

What opens the sockets is not known here: its answers may depend on everything that has happened before. The allocator
keeps this history, so that the order of openings, closings and returns can be told from it.
-/

namespace MediaSession

/-- A request for a socket. Only a UDP socket can share its port. -/
inductive SocketCall where
  | bindUdp (port : UInt16) (address : Text) (reuse : Bool)
  | listenTcp (port : UInt16) (address : Text)
  deriving DecidableEq, Repr

namespace SocketCall

/-- The request for a socket of the given protocol. -/
def ofProtocol (protocol : Protocol) (port : UInt16) (address : Text) (reuse : Bool) : SocketCall :=
  match protocol with
  | .udp => .bindUdp port address reuse
  | .tcp => .listenTcp port address

/-- The protocol of the socket that is asked for. -/
def protocol : SocketCall → Protocol
  | .bindUdp .. => .udp
  | .listenTcp .. => .tcp

/-- The port of the socket that is asked for. -/
def port : SocketCall → UInt16
  | .bindUdp port .. => port
  | .listenTcp port _ => port

end SocketCall

/-- A socket, with the request that opened it. No two sockets of an allocator have the same number. -/
structure Socket where
  number : Nat
  call : SocketCall
  deriving DecidableEq, Repr

/-- What can happen to sockets and ports. -/
inductive SocketEvent where
  /-- A pair of ports was taken from the queue of its pool. -/
  | reserved (protocol : Protocol) (lease : Lease)
  /-- A pair of ports went back to the queue of its pool. -/
  | returned (protocol : Protocol) (lease : Lease)
  | opened (socket : Socket)
  | refused (call : SocketCall) (reason : String)
  | closed (socket : Socket)
  deriving DecidableEq, Repr

/-- What opens sockets. Given what has happened so far, the latest first, it refuses a request with a reason, or it does
not and the socket is open. -/
abbrev SocketFactory := List SocketEvent → SocketCall → Option String

/-- Two sockets on a pair of ports, and two that keep the other protocol away. -/
structure SocketPair where
  protocol : Protocol
  lease : Lease
  rtp : Socket
  rtcp : Socket
  reservedRtp : Socket
  reservedRtcp : Socket
  deriving DecidableEq, Repr

/-- How a socket pair is to be opened. -/
structure SocketRequest where
  protocol : Protocol
  address : Text
  /-- Whether UDP ports may be shared. -/
  reuse : Bool
  deriving DecidableEq, Repr

/-- The pools of both protocols and what has happened to their pairs, the latest first. -/
structure Allocator where
  udp : Pool
  tcp : Pool
  history : List SocketEvent := []
  /-- The number of sockets opened so far. -/
  sockets : Nat := 0
  deriving DecidableEq, Repr

namespace Allocator

/-- An allocator over a pool of each protocol for the same range. -/
def ofRange (range : PortRange) (randomUdp randomTcp : Nat → UInt32) : Except Error Allocator := do
  let udp ← Pool.ofRange .udp range randomUdp
  let tcp ← Pool.ofRange .tcp range randomTcp
  return { udp, tcp }

/-- An allocator over the range that a configuration sets. -/
def ofSettings (settings : Settings) (randomUdp randomTcp : Nat → UInt32) : Except Error Allocator := do
  ofRange (← PortRange.ofSettings settings) randomUdp randomTcp

/-- The pool of a protocol. -/
def pool (a : Allocator) : Protocol → Pool
  | .udp => a.udp
  | .tcp => a.tcp

/-- The allocator with another pool for a protocol. -/
def setPool (a : Allocator) (pool : Pool) : Protocol → Allocator
  | .udp => { a with udp := pool }
  | .tcp => { a with tcp := pool }

/-- The allocator after an event. -/
def record (a : Allocator) (event : SocketEvent) : Allocator := { a with history := event :: a.history }

/-- Takes the next pair of ports from the pool of a protocol. -/
def reserve? (a : Allocator) (protocol : Protocol) : Option (Lease × Allocator) :=
  (a.pool protocol).acquire?.map fun (lease, pool) => (lease, (a.setPool pool protocol).record (.reserved protocol lease))

/-- Gives a lease of a protocol one more holder. -/
def share (a : Allocator) (protocol : Protocol) (lease : Lease) : Allocator :=
  a.setPool ((a.pool protocol).share lease) protocol

/-- Takes one holder from a lease of a protocol. -/
def release (a : Allocator) (protocol : Protocol) (lease : Lease) : Allocator :=
  let after := a.setPool ((a.pool protocol).release lease) protocol
  if (a.pool protocol).regains lease then after.record (.returned protocol lease) else after

/-- Asks for a socket. -/
def openSocket (factory : SocketFactory) (a : Allocator) (call : SocketCall) : Except Error Socket × Allocator :=
  match factory a.history call with
  | some reason => (.error (.socketRefused call.protocol call.port reason), a.record (.refused call reason))
  | none =>
    let socket := ⟨a.sockets, call⟩
    (.ok socket, { a with sockets := a.sockets + 1 }.record (.opened socket))

/-- Closes a socket. -/
def closeSocket (a : Allocator) (socket : Socket) : Allocator := a.record (.closed socket)

/-- Asks for the sockets of one protocol on both ports of a lease. A first socket that remains alone is closed. -/
def openBoth (factory : SocketFactory) (a : Allocator) (lease : Lease) (r : SocketRequest) :
    Except Error (Socket × Socket) × Allocator :=
  match a.openSocket factory (.ofProtocol r.protocol lease.rtpPort r.address r.reuse) with
  | (.error e, a) => (.error e, a)
  | (.ok rtp, a) =>
    match a.openSocket factory (.ofProtocol r.protocol lease.rtcpPort r.address r.reuse) with
    | (.error e, a) => (.error e, a.closeSocket rtp)
    | (.ok rtcp, a) => (.ok (rtp, rtcp), a)

/-- Asks for all four sockets on the ports of a lease. On a refusal all that were opened are closed, the latest first. -/
def openOn (factory : SocketFactory) (a : Allocator) (lease : Lease) (r : SocketRequest) :
    Except Error SocketPair × Allocator :=
  match a.openBoth factory lease r with
  | (.error e, a) => (.error e, a)
  | (.ok (rtp, rtcp), a) =>
    match a.openBoth factory lease { r with protocol := r.protocol.opposite } with
    | (.error e, a) => (.error e, (a.closeSocket rtcp).closeSocket rtp)
    | (.ok (reservedRtp, reservedRtcp), a) =>
      (.ok ⟨r.protocol, lease, rtp, rtcp, reservedRtp, reservedRtcp⟩, a)

/-- One attempt at a socket pair: on a refusal the ports are given back after the sockets are closed. -/
def attempt (factory : SocketFactory) (a : Allocator) (r : SocketRequest) : Except Error SocketPair × Allocator :=
  match a.reserve? r.protocol with
  | none => (.error (.poolExhausted r.protocol), a)
  | some (lease, a) =>
    match a.openOn factory lease r with
    | (.error e, a) => (.error e, a.release r.protocol lease)
    | (.ok pair, a) => (.ok pair, a)

/-- An attempt, and at most the given number of further ones after failures. The last failure counts. -/
def attemptAgain (factory : SocketFactory) (r : SocketRequest) : Nat → Allocator → Except Error SocketPair × Allocator
  | 0, a => a.attempt factory r
  | n + 1, a =>
    match a.attempt factory r with
    | (.ok pair, a) => (.ok pair, a)
    | (.error _, a) => attemptAgain factory r n a

/-- The number of attempts at a socket pair. -/
def maxAttempts : Nat := 3

/-- Opens a socket pair. -/
def openPair (factory : SocketFactory) (a : Allocator) (r : SocketRequest) : Except Error SocketPair × Allocator :=
  attemptAgain factory r (maxAttempts - 1) a

/-- Closes the sockets of a pair, and only then lets go of its ports. -/
def closePair (a : Allocator) (pair : SocketPair) : Allocator :=
  ((((a.closeSocket pair.rtp).closeSocket pair.rtcp).closeSocket pair.reservedRtp).closeSocket
    pair.reservedRtcp).release pair.protocol pair.lease

end Allocator

end MediaSession
