import MediaSession.Ports.Sockets
import MediaSession.Proofs.Ports.Conservation

/-!
# Attempts at a socket pair

An attempt takes the pair of ports at the front of the queue and asks for its four sockets in a fixed order until one is
refused. Whatever the factory answers, what is left of the attempt is one of two things: four open sockets on ports that
stay held, or no open socket and ports that are free again, at the end of the queue. Both are told as events, and what a
history leaves open is read off its events.
-/

namespace MediaSession

/-! ## Pools that can serve -/

/-- A pool that hands out pairs under numbers not used before: it has a handle, what is held has an earlier number, and both
ports of every free pair exist. -/
structure Pool.InService (p : Pool) : Prop where
  handles_ne_zero : p.handles ≠ 0
  number_lt : ∀ lease ∈ p.holders, lease.number < p.leases
  port_lt : ∀ index ∈ p.free, 2 * index.toNat + 1 < UInt16.size

/-- Whatever clients have done to a pool over a range, it can serve as long as it has a handle. -/
theorem Pool.Ledger.inService {range : PortRange} {served returned : List Lease} {p : Pool}
    (h : Ledger range served returned p) (hh : p.handles ≠ 0) : p.InService := by
  refine ⟨hh, ?_, ?_⟩
  · intro lease hl
    have hn : lease.number ∈ served.map Lease.number := List.mem_map_of_mem (h.mem_served lease hl)
    rwa [h.numbers, List.mem_range] at hn
  · intro index hi
    exact PortRange.port_lt ((h.indices_perm hh).mem_iff.1 (List.mem_append_left _ hi))

/-- The lease that is handed out next, if the pair of the given index is at the front of the queue. -/
def Pool.nextLease (p : Pool) (index : UInt16) : Lease := ⟨p.leases, index⟩

/-- The pool when that lease has one holder and the given pairs are left in the queue. -/
def Pool.holding (p : Pool) (index : UInt16) (rest : List UInt16) : Pool :=
  { p with free := rest, holders := p.nextLease index :: p.holders, leases := p.leases + 1 }

/-- The pool regains the pair that it has just handed out when its one holder lets go of it. -/
theorem Pool.InService.regains_nextLease {p : Pool} (h : p.InService) (index : UInt16) (rest : List UInt16) :
    (p.holding index rest).regains (p.nextLease index) = true := by
  have hnew : p.nextLease index ∉ p.holders := fun hm => absurd (h.number_lt _ hm) (Nat.lt_irrefl _)
  simp [regains, isLastHolder, holding, List.count_eq_zero.2 hnew, h.handles_ne_zero]

/-- The pair is then the last of the queue, and no number is used again. -/
theorem Pool.InService.release_nextLease {p : Pool} (h : p.InService) (index : UInt16) (rest : List UInt16) :
    (p.holding index rest).release (p.nextLease index) =
      { p with free := rest ++ [index], leases := p.leases + 1 } := by
  rw [release, h.regains_nextLease]
  simp [holding, nextLease]

/-- Both ports of a lease of a pool that can serve are what the index says. -/
theorem Lease.toNat_ports {lease : Lease} (h : 2 * lease.index.toNat + 1 < UInt16.size) :
    lease.rtpPort.toNat = 2 * lease.index.toNat ∧ lease.rtcpPort.toNat = 2 * lease.index.toNat + 1 := by
  have hsize : UInt16.size = 65536 := rfl
  have htwo : (2 : UInt16).toNat = 2 := rfl
  have hone : (1 : UInt16).toNat = 1 := rfl
  constructor
  · rw [rtpPort, UInt16.toNat_mul, htwo]
    omega
  · rw [rtcpPort, UInt16.toNat_add, UInt16.toNat_mul, htwo, hone]
    omega

/-! ## Open sockets -/

/-- The sockets that a history leaves open, the latest first. -/
def openSockets : List SocketEvent → List Socket
  | [] => []
  | .opened socket :: past => socket :: openSockets past
  | .closed socket :: past => (openSockets past).erase socket
  | _ :: past => openSockets past

theorem openSockets_opened (sockets : List Socket) (past : List SocketEvent) :
    openSockets (sockets.map .opened ++ past) = sockets ++ openSockets past := by
  induction sockets with
  | nil => rfl
  | cons socket rest ih => rw [List.map_cons, List.cons_append, openSockets, ih, List.cons_append]

/-- Sockets that are closed in the opposite order of their opening leave open what was open before them. -/
theorem openSockets_closed {sockets others : List Socket} {past : List SocketEvent}
    (h : openSockets past = sockets.reverse ++ others) : openSockets (sockets.map .closed ++ past) = others := by
  induction sockets generalizing others with
  | nil => exact h
  | cons socket rest ih =>
    rw [List.reverse_cons, List.append_assoc] at h
    rw [List.map_cons, List.cons_append, openSockets, ih h, List.singleton_append, List.erase_cons_head]

/-! ## What a factory answers -/

/-- The two requests for sockets of the protocol on the ports of a lease, packets first. -/
def SocketRequest.ownCalls (r : SocketRequest) (lease : Lease) : List SocketCall :=
  [.ofProtocol r.protocol lease.rtpPort r.address r.reuse, .ofProtocol r.protocol lease.rtcpPort r.address r.reuse]

/-- The request for the same ports under the other protocol. -/
def SocketRequest.opposite (r : SocketRequest) : SocketRequest := { r with protocol := r.protocol.opposite }

/-- The four requests of an attempt, in order: those of the protocol itself and then those of the other one. -/
def SocketRequest.calls (r : SocketRequest) (lease : Lease) : List SocketCall :=
  r.ownCalls lease ++ r.opposite.ownCalls lease

/-- Each request is for the protocol and the port that its place says. -/
theorem SocketRequest.map_calls (r : SocketRequest) (lease : Lease) :
    (r.calls lease).map (fun call => (call.protocol, call.port)) =
      [(r.protocol, lease.rtpPort), (r.protocol, lease.rtcpPort), (r.protocol.opposite, lease.rtpPort),
        (r.protocol.opposite, lease.rtcpPort)] := by
  obtain ⟨protocol, address, reuse⟩ := r
  cases protocol <;> rfl

/-- What a factory answers to requests that are made one after the other up to the first refusal: the sockets that are
opened, in order, and the request that is refused, with the reason, if one is. The first socket has the given number. -/
def SocketFactory.answers (factory : SocketFactory) :
    List SocketEvent → Nat → List SocketCall → List Socket × Option (SocketCall × String)
  | _, _, [] => ([], none)
  | past, number, call :: rest =>
    match factory past call with
    | some reason => ([], some (call, reason))
    | none =>
      let later := factory.answers (.opened ⟨number, call⟩ :: past) (number + 1) rest
      (⟨number, call⟩ :: later.1, later.2)

/-- Without a refusal every request opens a socket. -/
theorem SocketFactory.answers_granted {factory : SocketFactory} {past : List SocketEvent} {number : Nat}
    {calls : List SocketCall} {opened : List Socket} (h : factory.answers past number calls = (opened, none)) :
    opened.map (·.call) = calls := by
  induction calls generalizing past number opened with
  | nil =>
    simp only [answers, Prod.mk.injEq] at h
    rw [← h.1]
    rfl
  | cons call rest ih =>
    simp only [answers] at h
    cases hf : factory past call with
    | some reason => simp [hf] at h
    | none =>
      simp only [hf, Prod.mk.injEq] at h
      rw [← h.1, List.map_cons, ih (Prod.ext rfl h.2)]

/-- Requests after others: either one of the others is refused already, or they are answered after all others were
granted. -/
theorem SocketFactory.answers_append {factory : SocketFactory} {past : List SocketEvent} {number : Nat}
    {first second : List SocketCall} {opened : List Socket} {refusal? : Option (SocketCall × String)}
    (h : factory.answers past number (first ++ second) = (opened, refusal?)) :
    (∃ refusal, refusal? = some refusal ∧ factory.answers past number first = (opened, some refusal)) ∨
    ∃ early late, opened = early ++ late ∧ factory.answers past number first = (early, none) ∧
      factory.answers (early.reverse.map .opened ++ past) (number + early.length) second = (late, refusal?) := by
  induction first generalizing past number opened with
  | nil => exact Or.inr ⟨[], opened, rfl, rfl, h⟩
  | cons call rest ih =>
    rw [List.cons_append, answers] at h
    rw [answers]
    cases hf : factory past call with
    | some reason =>
      simp only [hf, Prod.mk.injEq] at h
      obtain ⟨rfl, rfl⟩ := h
      exact Or.inl ⟨_, rfl, rfl⟩
    | none =>
      simp only [hf, Prod.mk.injEq] at h
      obtain ⟨rfl, hlater⟩ := h
      rcases ih (Prod.ext rfl hlater) with ⟨refusal, hrefusal, hrest⟩ | ⟨early, late, hopened, hrest, hsecond⟩
      · exact Or.inl ⟨refusal, hrefusal, by simp only [hrest]⟩
      · refine Or.inr ⟨⟨number, call⟩ :: early, late, congrArg (⟨number, call⟩ :: ·) hopened, by simp only [hrest], ?_⟩
        simpa [Nat.add_assoc, Nat.add_comm 1] using hsecond

/-! ## The allocator after events -/

namespace Allocator

/-- The allocator after more events, the latest first, and a number of sockets that were opened in them. -/
def advance (a : Allocator) (events : List SocketEvent) (opened : Nat) : Allocator :=
  { a with history := events ++ a.history, sockets := a.sockets + opened }

@[simp] theorem history_advance (a : Allocator) (events : List SocketEvent) (opened : Nat) :
    (a.advance events opened).history = events ++ a.history := rfl

@[simp] theorem sockets_advance (a : Allocator) (events : List SocketEvent) (opened : Nat) :
    (a.advance events opened).sockets = a.sockets + opened := rfl

@[simp] theorem advance_advance (a : Allocator) (earlier later : List SocketEvent) (m n : Nat) :
    (a.advance earlier m).advance later n = a.advance (later ++ earlier) (m + n) := by
  simp [advance, Nat.add_assoc]

@[simp] theorem pool_advance (a : Allocator) (events : List SocketEvent) (opened : Nat) (protocol : Protocol) :
    (a.advance events opened).pool protocol = a.pool protocol := by
  cases protocol <;> rfl

@[simp] theorem history_setPool (a : Allocator) (p : Pool) (protocol : Protocol) :
    (a.setPool p protocol).history = a.history := by
  cases protocol <;> rfl

@[simp] theorem sockets_setPool (a : Allocator) (p : Pool) (protocol : Protocol) :
    (a.setPool p protocol).sockets = a.sockets := by
  cases protocol <;> rfl

@[simp] theorem pool_setPool (a : Allocator) (p : Pool) (protocol : Protocol) :
    (a.setPool p protocol).pool protocol = p := by
  cases protocol <;> rfl

@[simp] theorem pool_opposite_setPool (a : Allocator) (p : Pool) (protocol : Protocol) :
    (a.setPool p protocol).pool protocol.opposite = a.pool protocol.opposite := by
  cases protocol <;> rfl

@[simp] theorem setPool_setPool (a : Allocator) (p q : Pool) (protocol : Protocol) :
    (a.setPool p protocol).setPool q protocol = a.setPool q protocol := by
  cases protocol <;> rfl

@[simp] theorem advance_setPool (a : Allocator) (p : Pool) (protocol : Protocol) (events : List SocketEvent) (opened : Nat) :
    (a.setPool p protocol).advance events opened = (a.advance events opened).setPool p protocol := by
  cases protocol <;> rfl

theorem record_eq_advance (a : Allocator) (event : SocketEvent) : a.record event = a.advance [event] 0 := rfl

theorem closeSocket_eq_advance (a : Allocator) (socket : Socket) : a.closeSocket socket = a.advance [.closed socket] 0 :=
  rfl

end Allocator

/-! ## Requests for sockets -/

namespace Allocator

variable {factory : SocketFactory} {a : Allocator} {lease : Lease} {r : SocketRequest} {opened : List Socket}
  {call : SocketCall} {reason : String}

/-- The events of requests that end with a refusal, the latest first: the sockets are closed, the latest of them first. -/
def refusedEvents (opened : List Socket) (call : SocketCall) (reason : String) : List SocketEvent :=
  opened.map .closed ++ .refused call reason :: opened.reverse.map .opened

/-- The requests of one protocol, when one is refused. -/
theorem openBoth_of_refused
    (h : factory.answers a.history a.sockets (r.ownCalls lease) = (opened, some (call, reason))) :
    a.openBoth factory lease r =
      (.error (.socketRefused call.protocol call.port reason), a.advance (refusedEvents opened call reason) opened.length) := by
  simp only [SocketRequest.ownCalls, SocketFactory.answers] at h
  unfold openBoth openSocket
  cases hrtp : factory a.history (.ofProtocol r.protocol lease.rtpPort r.address r.reuse) with
  | some reason' =>
    simp only [hrtp, Prod.mk.injEq, Option.some.injEq] at h
    obtain ⟨rfl, rfl, rfl⟩ := h
    rfl
  | none =>
    simp only [hrtp] at h
    cases hrtcp : factory (.opened ⟨a.sockets, .ofProtocol r.protocol lease.rtpPort r.address r.reuse⟩ :: a.history)
        (.ofProtocol r.protocol lease.rtcpPort r.address r.reuse) with
    | some reason' =>
      simp only [hrtcp, Prod.mk.injEq, Option.some.injEq] at h
      obtain ⟨rfl, rfl, rfl⟩ := h
      simp only [record, hrtcp]
      rfl
    | none => simp [hrtcp] at h

/-- The requests of one protocol, when none is refused. -/
theorem openBoth_of_granted
    (h : factory.answers a.history a.sockets (r.ownCalls lease) = (opened, none)) :
    ∃ rtp rtcp, opened = [rtp, rtcp] ∧
      a.openBoth factory lease r = (.ok (rtp, rtcp), a.advance (opened.reverse.map .opened) opened.length) := by
  simp only [SocketRequest.ownCalls, SocketFactory.answers] at h
  unfold openBoth openSocket
  cases hrtp : factory a.history (.ofProtocol r.protocol lease.rtpPort r.address r.reuse) with
  | some reason' => simp [hrtp] at h
  | none =>
    simp only [hrtp] at h
    cases hrtcp : factory (.opened ⟨a.sockets, .ofProtocol r.protocol lease.rtpPort r.address r.reuse⟩ :: a.history)
        (.ofProtocol r.protocol lease.rtcpPort r.address r.reuse) with
    | some reason' => simp [hrtcp] at h
    | none =>
      simp only [hrtcp, Prod.mk.injEq, and_true] at h
      obtain rfl := h
      refine ⟨_, _, rfl, ?_⟩
      simp only [record, hrtcp]
      rfl

/-- All four requests, when one is refused: what was opened under either protocol is closed, the latest first. -/
theorem openOn_of_refused (h : factory.answers a.history a.sockets (r.calls lease) = (opened, some (call, reason))) :
    a.openOn factory lease r =
      (.error (.socketRefused call.protocol call.port reason), a.advance (refusedEvents opened call reason) opened.length) := by
  rw [openOn]
  rcases SocketFactory.answers_append h with ⟨refusal, hsome, hfirst⟩ | ⟨early, late, rfl, hfirst, hsecond⟩
  · obtain rfl := Option.some.inj hsome
    rw [openBoth_of_refused hfirst]
  · obtain ⟨rtp, rtcp, rfl, hown⟩ := openBoth_of_granted hfirst
    have hopposite := openBoth_of_refused (a := a.advance ([rtp, rtcp].reverse.map .opened) [rtp, rtcp].length) hsecond
    rw [SocketRequest.opposite] at hopposite
    simp only [hown, hopposite, closeSocket_eq_advance, advance_advance]
    simp [refusedEvents, Nat.add_comm, Nat.add_left_comm]

/-- All four requests, when none is refused. -/
theorem openOn_of_granted (h : factory.answers a.history a.sockets (r.calls lease) = (opened, none)) :
    ∃ rtp rtcp reservedRtp reservedRtcp, opened = [rtp, rtcp, reservedRtp, reservedRtcp] ∧
      a.openOn factory lease r = (.ok ⟨r.protocol, lease, rtp, rtcp, reservedRtp, reservedRtcp⟩,
        a.advance (opened.reverse.map .opened) opened.length) := by
  rw [openOn]
  rcases SocketFactory.answers_append h with ⟨refusal, hsome, -⟩ | ⟨early, late, rfl, hfirst, hsecond⟩
  · cases hsome
  · obtain ⟨rtp, rtcp, rfl, hown⟩ := openBoth_of_granted hfirst
    obtain ⟨reservedRtp, reservedRtcp, rfl, hopposite⟩ :=
      openBoth_of_granted (a := a.advance ([rtp, rtcp].reverse.map .opened) [rtp, rtcp].length) hsecond
    refine ⟨rtp, rtcp, reservedRtp, reservedRtcp, rfl, ?_⟩
    rw [SocketRequest.opposite] at hopposite
    simp only [hown, hopposite, advance_advance]
    rfl

end Allocator

/-! ## Attempts -/

/-- What happened in an attempt: the pair of ports that it took, the sockets that were opened, in order, and the request
that was refused, with the reason, if one was. -/
structure Attempt where
  lease : Lease
  opened : List Socket
  refusal? : Option (SocketCall × String)
  deriving DecidableEq, Repr

namespace Attempt

/-- The attempt at a lease after a given history. -/
def made (factory : SocketFactory) (r : SocketRequest) (past : List SocketEvent) (number : Nat) (lease : Lease) : Attempt :=
  let answers := factory.answers (.reserved r.protocol lease :: past) number (r.calls lease)
  ⟨lease, answers.1, answers.2⟩

/-- The events of an attempt, the latest first. After a refusal the sockets are closed and then the ports go back. -/
def events (protocol : Protocol) (t : Attempt) : List SocketEvent :=
  match t.refusal? with
  | none => t.opened.reverse.map .opened ++ [.reserved protocol t.lease]
  | some (call, reason) =>
    .returned protocol t.lease :: (Allocator.refusedEvents t.opened call reason ++ [.reserved protocol t.lease])

/-- An attempt that was refused leaves no socket open, and any other leaves all of its own open. -/
theorem openSockets_events (protocol : Protocol) (t : Attempt) (past : List SocketEvent) :
    openSockets (t.events protocol ++ past) =
      if t.refusal?.isSome then openSockets past else t.opened.reverse ++ openSockets past := by
  have hopened : openSockets (t.opened.reverse.map .opened ++ ([.reserved protocol t.lease] ++ past)) =
      t.opened.reverse ++ openSockets past := openSockets_opened _ _
  unfold events
  cases h : t.refusal? with
  | none =>
    rw [List.append_assoc]
    exact hopened
  | some refusal =>
    simp only [Allocator.refusedEvents, List.cons_append, List.append_assoc, openSockets, Option.isSome_some, if_true]
    exact openSockets_closed hopened

end Attempt

namespace Allocator

variable {factory : SocketFactory} {a : Allocator} {r : SocketRequest} {index : UInt16} {rest : List UInt16}

/-- With no free pair there is no request. -/
theorem attempt_of_empty (h : (a.pool r.protocol).free = []) :
    a.attempt factory r = (.error (.poolExhausted r.protocol), a) := by
  have hnone : (a.pool r.protocol).acquire? = none := Pool.acquire?_eq_none_iff.2 (Or.inr h)
  simp [attempt, reserve?, hnone]

/-- The pair at the front of the queue is taken under a new number. -/
theorem reserve?_eq (h : (a.pool r.protocol).InService) (hfree : (a.pool r.protocol).free = index :: rest) :
    a.reserve? r.protocol = some ((a.pool r.protocol).nextLease index,
      (a.advance [.reserved r.protocol ((a.pool r.protocol).nextLease index)] 0).setPool
        ((a.pool r.protocol).holding index rest) r.protocol) := by
  have hsome : (a.pool r.protocol).acquire? =
      some ((a.pool r.protocol).nextLease index, (a.pool r.protocol).holding index rest) :=
    Pool.acquire?_eq_some_iff.2 ⟨h.handles_ne_zero, rest, hfree, rfl, rfl⟩
  rw [reserve?, hsome, Option.map_some]
  simp only [record_eq_advance, advance_setPool]

/-- The one holder of a lease that has just been taken gives the pair back. -/
theorem release_holding {p : Pool} (h : p.InService) (index : UInt16) (rest : List UInt16) (protocol : Protocol) :
    (a.setPool (p.holding index rest) protocol).release protocol (p.nextLease index) =
      (a.advance [.returned protocol (p.nextLease index)] 0).setPool
        { p with free := rest ++ [index], leases := p.leases + 1 } protocol := by
  simp only [release, pool_setPool, setPool_setPool, h.regains_nextLease, if_true, h.release_nextLease, record_eq_advance,
    advance_setPool]

/-- An attempt that is refused leaves its pair at the end of the queue and what was held as it was. -/
theorem attempt_of_refused (h : (a.pool r.protocol).InService) (hfree : (a.pool r.protocol).free = index :: rest)
    {t : Attempt} (ht : t = .made factory r a.history a.sockets ((a.pool r.protocol).nextLease index))
    {call : SocketCall} {reason : String} (hrefused : t.refusal? = some (call, reason)) :
    a.attempt factory r = (.error (.socketRefused call.protocol call.port reason),
      (a.advance (t.events r.protocol) t.opened.length).setPool
        { a.pool r.protocol with free := rest ++ [index], leases := (a.pool r.protocol).leases + 1 } r.protocol) := by
  have hlease : t.lease = (a.pool r.protocol).nextLease index := by rw [ht]; rfl
  have hanswers : factory.answers (.reserved r.protocol ((a.pool r.protocol).nextLease index) :: a.history) a.sockets
      (r.calls ((a.pool r.protocol).nextLease index)) = (t.opened, some (call, reason)) := by
    rw [← hrefused, ht]
    rfl
  have hopen := openOn_of_refused (r := r)
    (a := (a.advance [.reserved r.protocol ((a.pool r.protocol).nextLease index)] 0).setPool
      ((a.pool r.protocol).holding index rest) r.protocol) (by rw [history_setPool, sockets_setPool]; exact hanswers)
  simp only [attempt, reserve?_eq h hfree, hopen, advance_setPool, advance_advance, release_holding h]
  simp [Attempt.events, hrefused, hlease]

/-- An attempt that is not refused holds its pair, with the four sockets on it. -/
theorem attempt_of_granted (h : (a.pool r.protocol).InService) (hfree : (a.pool r.protocol).free = index :: rest)
    {t : Attempt} (ht : t = .made factory r a.history a.sockets ((a.pool r.protocol).nextLease index))
    (hgranted : t.refusal? = none) :
    ∃ rtp rtcp reservedRtp reservedRtcp, t.opened = [rtp, rtcp, reservedRtp, reservedRtcp] ∧
      a.attempt factory r = (.ok ⟨r.protocol, t.lease, rtp, rtcp, reservedRtp, reservedRtcp⟩,
        (a.advance (t.events r.protocol) t.opened.length).setPool
          ((a.pool r.protocol).holding index rest) r.protocol) := by
  have hlease : t.lease = (a.pool r.protocol).nextLease index := by rw [ht]; rfl
  have hanswers : factory.answers (.reserved r.protocol ((a.pool r.protocol).nextLease index) :: a.history) a.sockets
      (r.calls ((a.pool r.protocol).nextLease index)) = (t.opened, none) := by
    rw [← hgranted, ht]
    rfl
  obtain ⟨rtp, rtcp, reservedRtp, reservedRtcp, hopened, hopen⟩ := openOn_of_granted (r := r)
    (a := (a.advance [.reserved r.protocol ((a.pool r.protocol).nextLease index)] 0).setPool
      ((a.pool r.protocol).holding index rest) r.protocol) (by rw [history_setPool, sockets_setPool]; exact hanswers)
  refine ⟨rtp, rtcp, reservedRtp, reservedRtcp, hopened, ?_⟩
  simp only [attempt, reserve?_eq h hfree, hopen, advance_setPool, advance_advance]
  simp [Attempt.events, hgranted, hlease]

end Allocator

end MediaSession
