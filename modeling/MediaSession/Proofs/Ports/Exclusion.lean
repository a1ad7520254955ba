import MediaSession.Proofs.Ports.Tenancy

/-!
# Exclusive ports

The pools of the two protocols are over ranges that may overlap, so one pair of ports can be free in one of them while the
other has handed it out. That no two socket pairs share a port rests on their sockets: a pair has a socket for TCP on both
of its ports, whatever its protocol, and two of those cannot be open on one port at a time.

`Allocator.Sound` says what an attempt keeps, and `Tenancy.Accounted` what a client's action keeps: the open sockets are
those of the socket pairs, none more and none less.
-/

namespace MediaSession

/-- A factory that refuses to listen on a port while a socket for TCP is open on it. For UDP it may do as it likes. -/
def SocketFactory.KeepsTcpApart (factory : SocketFactory) : Prop :=
  ∀ past, ∀ socket ∈ openSockets past, socket.call.protocol = .tcp →
    ∀ call, call.protocol = .tcp → call.port = socket.call.port → (factory past call).isSome

/-! ## Sockets that are apart -/

/-- Sockets that are all different, with numbers below the next one, and of which no two listen on one port. -/
structure SocketsApart (sockets : List Socket) (next : Nat) : Prop where
  nodup : sockets.Nodup
  number_lt : ∀ s ∈ sockets, s.number < next
  /-- A socket for TCP is the only one on its port. -/
  eq_of_port_eq : ∀ s ∈ sockets, ∀ t ∈ sockets, s.call.protocol = .tcp → t.call.protocol = .tcp →
    s.call.port = t.call.port → s = t

namespace SocketsApart

variable {factory : SocketFactory} {past : List SocketEvent} {sockets : List Socket} {next : Nat}

theorem mono (h : SocketsApart sockets next) {later : Nat} (hle : next ≤ later) : SocketsApart sockets later :=
  ⟨h.nodup, fun s hs => Nat.lt_of_lt_of_le (h.number_lt s hs) hle, h.eq_of_port_eq⟩

/-- Some of the sockets are apart as well. -/
theorem of_perm_append (h : SocketsApart sockets next) {gone left : List Socket} (hp : sockets.Perm (gone ++ left)) :
    SocketsApart left next := by
  have hmem : ∀ s ∈ left, s ∈ sockets := fun s hs => hp.mem_iff.2 (List.mem_append_right _ hs)
  refine ⟨(hp.nodup_iff.1 h.nodup).of_append_right, fun s hs => h.number_lt s (hmem s hs), ?_⟩
  exact fun s hs t ht => h.eq_of_port_eq s (hmem s hs) t (hmem t ht)

/-- A socket that is opened gets a new number, and if it listens, then on a port of its own. -/
theorem cons (h : SocketsApart (openSockets past) next) (hf : factory.KeepsTcpApart) {call : SocketCall}
    (hgranted : factory past call = none) : SocketsApart (⟨next, call⟩ :: openSockets past) (next + 1) := by
  have hport : ∀ s ∈ openSockets past, s.call.protocol = .tcp → call.protocol = .tcp → call.port ≠ s.call.port := by
    intro s hs hstcp hcall hport
    have hrefused := hf past s hs hstcp call hcall hport
    rw [hgranted] at hrefused
    cases hrefused
  refine ⟨List.nodup_cons.2 ⟨fun hm => Nat.lt_irrefl _ (h.number_lt _ hm), h.nodup⟩, ?_, ?_⟩
  · intro s hs
    rcases List.mem_cons.1 hs with rfl | hs
    · exact Nat.lt_succ_self _
    · exact Nat.lt_succ_of_lt (h.number_lt s hs)
  · intro s hs t ht hstcp httcp heq
    rcases List.mem_cons.1 hs with rfl | hs <;> rcases List.mem_cons.1 ht with rfl | ht
    · rfl
    · exact absurd heq (hport t ht httcp hstcp)
    · exact absurd heq.symm (hport s hs hstcp httcp)
    · exact h.eq_of_port_eq s hs t ht hstcp httcp heq

/-- So do all that are opened one after the other. -/
theorem answers (h : SocketsApart (openSockets past) next) (hf : factory.KeepsTcpApart) (calls : List SocketCall) :
    SocketsApart ((factory.answers past next calls).1.reverse ++ openSockets past)
      (next + (factory.answers past next calls).1.length) := by
  induction calls generalizing past next with
  | nil => exact h
  | cons call rest ih =>
    rw [SocketFactory.answers]
    cases hanswer : factory past call with
    | some reason => exact h
    | none =>
      have hopened : SocketsApart (openSockets (.opened ⟨next, call⟩ :: past)) (next + 1) := h.cons hf hanswer
      simpa [openSockets, Nat.add_assoc, Nat.add_comm 1] using ih hopened

/-- An attempt leaves the open sockets apart, whether it is granted or refused. -/
theorem attempt (h : SocketsApart (openSockets past) next) (hf : factory.KeepsTcpApart) (r : SocketRequest) (lease : Lease)
    {t : Attempt} (ht : t = .made factory r past next lease) :
    SocketsApart (openSockets (t.events r.protocol ++ past)) (next + t.opened.length) := by
  rw [Attempt.openSockets_events]
  split
  · exact h.mono (Nat.le_add_right _ _)
  · rw [ht]
    have hreserved : SocketsApart (openSockets (.reserved r.protocol lease :: past)) next := h
    exact hreserved.answers hf (r.calls lease)

end SocketsApart

/-! ## What an attempt keeps -/

namespace Allocator

variable {factory : SocketFactory} {range : Protocol → PortRange} {a b : Allocator} {r : SocketRequest}

/-- Both pools are over their ranges, and the open sockets are apart. -/
structure Sound (range : Protocol → PortRange) (a : Allocator) : Prop where
  stems : ∀ protocol, (a.pool protocol).StemsFrom (range protocol)
  apart : SocketsApart (openSockets a.history) a.sockets

namespace Sound

/-- Whatever comes of an attempt, the pool stays one over its range: its first pair is held or goes to the end. -/
theorem attempt (h : a.Sound range) (hf : factory.KeepsTcpApart) : (a.attempt factory r).2.Sound range := by
  have hpool := h.stems r.protocol
  cases hfree : (a.pool r.protocol).free with
  | nil =>
    rw [attempt_of_empty hfree]
    exact h
  | cons index rest =>
    generalize ht : Attempt.made factory r a.history a.sockets ((a.pool r.protocol).nextLease index) = t
    have hapart := h.apart.attempt hf r _ ht.symm
    cases hrefusal : t.refusal? with
    | some refusal =>
      rw [attempt_of_refused hpool.inService hfree ht.symm hrefusal]
      exact ⟨stems_setPool h.stems (hpool.returned hfree) _ _, by simpa using hapart⟩
    | none =>
      obtain ⟨rtp, rtcp, reservedRtp, reservedRtcp, -, heq⟩ := attempt_of_granted hpool.inService hfree ht.symm hrefusal
      rw [heq]
      exact ⟨stems_setPool h.stems (hpool.holding hfree) _ _, by simpa using hapart⟩

theorem attemptAgain (h : a.Sound range) (hf : factory.KeepsTcpApart) (n : Nat) :
    (Allocator.attemptAgain factory r n a).2.Sound range := by
  induction n generalizing a with
  | zero => exact h.attempt hf
  | succ n ih =>
    have hfirst : (a.attempt factory r).2.Sound range := h.attempt hf
    rw [Allocator.attemptAgain]
    split
    · rename_i heq
      rwa [heq] at hfirst
    · rename_i heq
      rw [heq] at hfirst
      exact ih hfirst

theorem openPair (h : a.Sound range) (hf : factory.KeepsTcpApart) : (a.openPair factory r).2.Sound range :=
  h.attemptAgain hf _

theorem reserve (h : a.Sound range) {protocol : Protocol} {lease : Lease} (heq : a.reserve? protocol = some (lease, b)) :
    b.Sound range := by
  obtain ⟨index, rest, hfree, -, rfl⟩ := reserve?_cases heq
  refine ⟨stems_setPool h.stems ((h.stems protocol).holding hfree) _ _, ?_⟩
  rw [history_setPool, sockets_setPool]
  exact h.apart

theorem share (h : a.Sound range) (protocol : Protocol) (lease : Lease) : (a.share protocol lease).Sound range := by
  refine ⟨stems_share h.stems protocol lease, ?_⟩
  rw [Allocator.share, history_setPool, sockets_setPool]
  exact h.apart

theorem release (h : a.Sound range) (protocol : Protocol) (lease : Lease) : (a.release protocol lease).Sound range := by
  refine ⟨stems_release h.stems protocol lease, ?_⟩
  rw [openSockets_release, sockets_release]
  exact h.apart

end Sound

end Allocator

/-! ## The sockets of a pair -/

/-- A history in which some of the open sockets are closed leaves the others open. -/
theorem openSockets_closing {sockets left : List Socket} {past : List SocketEvent}
    (h : (openSockets past).Perm (sockets ++ left)) :
    (openSockets (sockets.reverse.map .closed ++ past)).Perm left := by
  induction sockets generalizing past with
  | nil => exact h
  | cons socket rest ih =>
    have hclosed : (openSockets (.closed socket :: past)).Perm (rest ++ left) := by
      have herase := h.erase socket
      rwa [List.cons_append, List.erase_cons_head] at herase
    rw [List.reverse_cons, List.map_append, List.append_assoc]
    exact ih hclosed

namespace SocketPair

/-- The sockets of a pair: its own two and the two that keep the other protocol away. -/
def sockets (pair : SocketPair) : List Socket := [pair.rtp, pair.rtcp, pair.reservedRtp, pair.reservedRtcp]

/-- The two ports of a pair. -/
def ports (pair : SocketPair) : List UInt16 := [pair.lease.rtpPort, pair.lease.rtcpPort]

/-- A pair has a socket for its own protocol on each of its two ports, and one for the other protocol. -/
def IsPlaced (pair : SocketPair) : Prop :=
  pair.sockets.map (fun socket => (socket.call.protocol, socket.call.port)) =
    [(pair.protocol, pair.lease.rtpPort), (pair.protocol, pair.lease.rtcpPort),
      (pair.protocol.opposite, pair.lease.rtpPort), (pair.protocol.opposite, pair.lease.rtcpPort)]

/-- Whatever its protocol, a pair listens on both of its ports. -/
theorem IsPlaced.exists_tcp {pair : SocketPair} (h : pair.IsPlaced) {port : UInt16} (hport : port ∈ pair.ports) :
    ∃ socket ∈ pair.sockets, socket.call.protocol = .tcp ∧ socket.call.port = port := by
  have hmem : (Protocol.tcp, port) ∈ pair.sockets.map fun socket => (socket.call.protocol, socket.call.port) := by
    rw [h]
    rcases List.mem_pair.1 hport with rfl | rfl <;> cases pair.protocol <;> simp [Protocol.opposite]
  obtain ⟨socket, hs, heq⟩ := List.mem_map.1 hmem
  simp only [Prod.mk.injEq] at heq
  exact ⟨socket, hs, heq.1, heq.2⟩

end SocketPair

namespace Allocator

variable {factory : SocketFactory} {range : Protocol → PortRange} {a b : Allocator} {r : SocketRequest}

/-- A request fails at once with no free pair, or it takes its course of attempts. -/
theorem openPair_cases (factory : SocketFactory) (h : (a.pool r.protocol).InService) :
    a.openPair factory r = (.error (.poolExhausted r.protocol), a) ∨
      ∃ failed last, Course factory r maxAttempts a failed last (a.openPair factory r).1 (a.openPair factory r).2 := by
  by_cases hfree : (a.pool r.protocol).free = []
  · left
    simp only [openPair, maxAttempts, attemptAgain, attempt_of_empty hfree]
  · right
    exact exists_course_attemptAgain factory r (maxAttempts - 1) a h hfree

/-- A request that is granted leaves the sockets of the pair open, which are in their places, and its lease held. -/
theorem openPair_granted (h : (a.pool r.protocol).InService) {pair : SocketPair}
    (heq : a.openPair factory r = (.ok pair, b)) :
    pair.protocol = r.protocol ∧ pair.IsPlaced ∧
      (b.pool r.protocol).holders = pair.lease :: (a.pool r.protocol).holders ∧
      b.pool r.protocol.opposite = a.pool r.protocol.opposite ∧
      openSockets b.history = pair.sockets.reverse ++ openSockets a.history := by
  rcases openPair_cases factory h with hempty | ⟨failed, last, hc⟩
  · rw [heq] at hempty
    cases hempty
  rw [heq] at hc
  cases hrefusal : last.refusal? with
  | some refusal => cases (hc.exhausted refusal.1 refusal.2 hrefusal).2.1
  | none =>
    obtain ⟨⟨rtp, rtcp, reservedRtp, reservedRtcp, hopened, hpair⟩, hcalls, hopen, hpool⟩ := hc.granted hrefusal
    obtain rfl := Except.ok.inj hpair
    refine ⟨rfl, ?_, by rw [hpool], hc.pool_opposite, by rw [hopen, hopened]; rfl⟩
    have hmap := r.map_calls last.lease
    rwa [← hcalls, hopened, List.map_map] at hmap

/-- A request that fails leaves what is held and what is open as it was. -/
theorem openPair_failed (h : (a.pool r.protocol).InService) {e : Error} (heq : a.openPair factory r = (.error e, b)) :
    (∀ protocol, (b.pool protocol).holders = (a.pool protocol).holders) ∧
      openSockets b.history = openSockets a.history := by
  rcases openPair_cases factory h with hempty | ⟨failed, last, hc⟩
  · rw [heq, Prod.mk.injEq] at hempty
    rw [hempty.2]
    exact ⟨fun _ => rfl, rfl⟩
  rw [heq] at hc
  cases hrefusal : last.refusal? with
  | none =>
    obtain ⟨⟨_, _, _, _, -, hpair⟩, -⟩ := hc.granted hrefusal
    cases hpair
  | some refusal =>
    obtain ⟨-, -, hopen, hpool⟩ := hc.exhausted refusal.1 refusal.2 hrefusal
    refine ⟨?_, hopen⟩
    exact forall_pool (motive := fun q p => p.holders = (a.pool q).holders) (fun _ => rfl) (by rw [hpool])
      hc.pool_opposite

/-- To close a pair is to close its sockets in order and then to let go of its lease. -/
theorem closePair_eq_advance (a : Allocator) (pair : SocketPair) :
    a.closePair pair = (a.advance (pair.sockets.reverse.map .closed) 0).release pair.protocol pair.lease := by
  simp [closePair, closeSocket_eq_advance, SocketPair.sockets]

/-- Some of the open sockets are closed. -/
theorem Sound.closing (h : a.Sound range) {sockets left : List Socket}
    (hp : (openSockets a.history).Perm (sockets ++ left)) : (a.advance (sockets.reverse.map .closed) 0).Sound range := by
  have hgone := hp.trans ((openSockets_closing hp).symm.append_left sockets)
  exact ⟨by simpa using h.stems, h.apart.of_perm_append hgone⟩

end Allocator

namespace Tenancy

variable {factory : SocketFactory} {range : Protocol → PortRange} {s : Tenancy}

/-! ## Holders after an action -/

/-- A new allocator has the pools that it was given. -/
theorem stems_start {udp tcp : Pool} (hudp : udp.StemsFrom (range .udp)) (htcp : tcp.StemsFrom (range .tcp))
    (protocol : Protocol) : ((start udp tcp).allocator.pool protocol).StemsFrom (range protocol) := by
  cases protocol
  · exact hudp
  · exact htcp

/-- The leases of those pools are all that clients hold at first. -/
theorem heldBy_start (udp tcp : Pool) : (start udp tcp).allocator.HeldBy (start udp tcp).holdings := by
  intro protocol
  cases protocol <;> simp [leasesOf, holdings, start, Allocator.pool, List.filterMap_map]

/-- Without a socket pair its lease has one holder less. -/
theorem heldBy_without_pair (h : s.allocator.HeldBy s.holdings) {pair : SocketPair} (hm : pair ∈ s.pairs) :
    s.allocator.HeldBy ((pair.protocol, pair.lease) :: holdings { s with pairs := s.pairs.erase pair }) :=
  h.of_perm (((List.perm_cons_erase hm).map _).append_right s.held)

/-- So it is without one of the other holders. -/
theorem heldBy_without_lease (h : s.allocator.HeldBy s.holdings) {protocol : Protocol} {lease : Lease}
    (hm : (protocol, lease) ∈ s.held) :
    s.allocator.HeldBy ((protocol, lease) :: holdings { s with held := s.held.erase (protocol, lease) }) :=
  h.of_perm (((List.perm_cons_erase hm).append_left _).trans List.perm_middle)

/-- Whatever a client does, the holders of leases stay what clients hold. -/
theorem heldBy_act (factory : SocketFactory) (hservice : ∀ protocol, (s.allocator.pool protocol).InService)
    (h : s.allocator.HeldBy s.holdings) (action : Action) :
    (s.act factory action).allocator.HeldBy (s.act factory action).holdings := by
  cases action with
  | openPair r =>
    simp only [Tenancy.act]
    split
    · rename_i heq
      obtain ⟨hprotocol, -, hholders, hother, -⟩ := Allocator.openPair_granted (hservice r.protocol) heq
      have hheld := h.cons hholders hother
      rwa [← hprotocol] at hheld
    · rename_i heq
      obtain ⟨hholders, -⟩ := Allocator.openPair_failed (hservice r.protocol) heq
      intro q
      rw [hholders]
      exact h q
  | closePair pair =>
    simp only [Tenancy.act]
    split
    · rename_i hm
      rw [Allocator.closePair_eq_advance]
      exact Allocator.HeldBy.release fun q => by rw [Allocator.pool_advance]; exact heldBy_without_pair h hm q
    · exact h
  | reserve protocol =>
    simp only [Tenancy.act]
    split
    · rename_i heq
      obtain ⟨index, rest, -, rfl, rfl⟩ := Allocator.reserve?_cases heq
      refine (h.cons (by rw [Allocator.pool_setPool]; rfl) (by simp)).of_perm ?_
      exact List.perm_middle.symm
    · exact h
  | share protocol lease =>
    simp only [Tenancy.act]
    split
    · rename_i hm
      exact (h.share hm).of_perm List.perm_middle.symm
    · exact h
  | release protocol lease =>
    simp only [Tenancy.act]
    split
    · rename_i hm
      exact Allocator.HeldBy.release (heldBy_without_lease h hm)
    · exact h

/-! ## What an action keeps -/

/-- The clients of a sound allocator have what it holds: each lease as often as there are holders of it, and the open
sockets are those of the socket pairs, each in its place. -/
structure Accounted (range : Protocol → PortRange) (s : Tenancy) : Prop where
  sound : s.allocator.Sound range
  heldBy : s.allocator.HeldBy s.holdings
  open_perm : (openSockets s.allocator.history).Perm (s.pairs.flatMap SocketPair.sockets)
  placed : ∀ pair ∈ s.pairs, pair.IsPlaced

namespace Accounted

theorem heldBy_act (h : s.Accounted range) (factory : SocketFactory) (action : Action) :
    (s.act factory action).allocator.HeldBy (s.act factory action).holdings :=
  Tenancy.heldBy_act factory (fun protocol => (h.sound.stems protocol).inService) h.heldBy action

/-- A pair that is opened brings its own sockets and one more holder. A failure brings nothing, though it may reorder the
free pairs. -/
theorem openPair (h : s.Accounted range) (hf : factory.KeepsTcpApart) (r : SocketRequest) :
    (s.act factory (.openPair r)).Accounted range := by
  have hservice := (h.sound.stems r.protocol).inService
  have hsound : (s.allocator.openPair factory r).2.Sound range := h.sound.openPair hf
  have hheld := h.heldBy_act factory (.openPair r)
  simp only [Tenancy.act] at hheld ⊢
  split
  · rename_i pair a heq
    rw [heq] at hsound hheld
    obtain ⟨-, hplaced, -, -, hopen⟩ := Allocator.openPair_granted hservice heq
    refine ⟨hsound, hheld, ?_, ?_⟩
    · rw [List.flatMap_cons, hopen]
      exact (List.reverse_perm _).append h.open_perm
    · intro p hp
      rcases List.mem_cons.1 hp with rfl | hp
      · exact hplaced
      · exact h.placed p hp
  · rename_i e a heq
    rw [heq] at hsound hheld
    obtain ⟨-, hopen⟩ := Allocator.openPair_failed hservice heq
    refine ⟨hsound, hheld, ?_, h.placed⟩
    rw [hopen]
    exact h.open_perm

/-- A pair that is closed takes its own sockets and its holder with it. -/
theorem closePair (h : s.Accounted range) (pair : SocketPair) : (s.act factory (.closePair pair)).Accounted range := by
  have hheld := h.heldBy_act factory (.closePair pair)
  simp only [Tenancy.act] at hheld ⊢
  split
  · rename_i hm
    rw [if_pos hm] at hheld
    have hpairs : s.pairs.Perm (pair :: s.pairs.erase pair) := List.perm_cons_erase hm
    have hopen : (openSockets s.allocator.history).Perm
        (pair.sockets ++ (s.pairs.erase pair).flatMap SocketPair.sockets) :=
      h.open_perm.trans (hpairs.flatMap_right _)
    refine ⟨?_, hheld, ?_, fun p hp => h.placed p (List.mem_of_mem_erase hp)⟩
    · rw [Allocator.closePair_eq_advance]
      exact (h.sound.closing hopen).release _ _
    · rw [Allocator.closePair_eq_advance, Allocator.openSockets_release]
      exact openSockets_closing hopen
  · exact h

theorem reserve (h : s.Accounted range) (protocol : Protocol) : (s.act factory (.reserve protocol)).Accounted range := by
  have hheld := h.heldBy_act factory (.reserve protocol)
  simp only [Tenancy.act] at hheld ⊢
  split
  · rename_i lease a heq
    rw [heq] at hheld
    obtain ⟨index, rest, hfree, rfl, rfl⟩ := Allocator.reserve?_cases heq
    refine ⟨h.sound.reserve heq, hheld, ?_, h.placed⟩
    rw [Allocator.history_setPool]
    exact h.open_perm
  · exact h

theorem share (h : s.Accounted range) (protocol : Protocol) (lease : Lease) :
    (s.act factory (.share protocol lease)).Accounted range := by
  have hheld := h.heldBy_act factory (.share protocol lease)
  simp only [Tenancy.act] at hheld ⊢
  split
  · rename_i hm
    rw [if_pos hm] at hheld
    refine ⟨h.sound.share protocol lease, hheld, ?_, h.placed⟩
    rw [Allocator.share, Allocator.history_setPool]
    exact h.open_perm
  · exact h

theorem release (h : s.Accounted range) (protocol : Protocol) (lease : Lease) :
    (s.act factory (.release protocol lease)).Accounted range := by
  have hheld := h.heldBy_act factory (.release protocol lease)
  simp only [Tenancy.act] at hheld ⊢
  split
  · rename_i hm
    rw [if_pos hm] at hheld
    refine ⟨h.sound.release protocol lease, hheld, ?_, h.placed⟩
    rw [Allocator.openSockets_release]
    exact h.open_perm
  · exact h

/-- Whatever a client does, the account is kept. -/
theorem act (h : s.Accounted range) (hf : factory.KeepsTcpApart) (action : Action) :
    (s.act factory action).Accounted range := by
  cases action with
  | openPair r => exact h.openPair hf r
  | closePair pair => exact h.closePair pair
  | reserve protocol => exact h.reserve protocol
  | share protocol lease => exact h.share protocol lease
  | release protocol lease => exact h.release protocol lease

theorem run (h : s.Accounted range) (hf : factory.KeepsTcpApart) (actions : List Action) :
    (s.run factory actions).Accounted range := by
  induction actions generalizing s with
  | nil => exact h
  | cons action rest ih => exact ih (h.act hf action)

/-- A new allocator has no sockets. -/
theorem start {udp tcp : Pool} (hudp : udp.StemsFrom (range .udp)) (htcp : tcp.StemsFrom (range .tcp)) :
    (Tenancy.start udp tcp).Accounted range := by
  refine ⟨⟨stems_start hudp htcp, List.nodup_nil, by simp [openSockets, Tenancy.start], by simp [openSockets, Tenancy.start]⟩,
    heldBy_start udp tcp, .refl _, by simp [Tenancy.start]⟩

/-- Two socket pairs on one port would be two sockets that listen on it. -/
theorem disjoint_ports (h : s.Accounted range) : s.pairs.Pairwise fun p q => p.ports.Disjoint q.ports := by
  -- No open socket is there twice, so no two pairs have a socket in common.
  have hnodup : (s.pairs.flatMap SocketPair.sockets).Nodup := h.open_perm.nodup_iff.1 h.sound.apart.nodup
  refine (List.nodup_flatMap.1 hnodup).2.imp_of_mem ?_
  intro p q hp hq hsockets port hport hport'
  obtain ⟨socket, hs, htcp, heq⟩ := (h.placed p hp).exists_tcp hport
  obtain ⟨socket', hs', htcp', heq'⟩ := (h.placed q hq).exists_tcp hport'
  have hopen : socket ∈ openSockets s.allocator.history := h.open_perm.mem_iff.2 (List.mem_flatMap.2 ⟨p, hp, hs⟩)
  have hopen' : socket' ∈ openSockets s.allocator.history := h.open_perm.mem_iff.2 (List.mem_flatMap.2 ⟨q, hq, hs'⟩)
  have hsame : socket = socket' :=
    h.sound.apart.eq_of_port_eq socket hopen socket' hopen' htcp htcp' (heq.trans heq'.symm)
  exact hsockets hs (hsame ▸ hs')

/-- The live leases of a pool are those that clients hold, each counted once. -/
theorem available_add_leases (h : s.Accounted range) (protocol : Protocol) :
    (s.allocator.pool protocol).available + (leasesOf protocol s.holdings).dedup.length =
      (s.allocator.pool protocol).capacity := by
  rw [← (h.heldBy protocol).dedup.length_eq]
  exact (h.sound.stems protocol).balanced.available_add_live

/-- If nothing else is held of a pool, its live leases are those of the socket pairs. -/
theorem available_add_pairs (h : s.Accounted range) {protocol : Protocol} (hheld : leasesOf protocol s.held = []) :
    (s.allocator.pool protocol).available + (s.pairs.filter (·.protocol = protocol)).length =
      (s.allocator.pool protocol).capacity := by
  have hleases : leasesOf protocol s.holdings = (s.pairs.filter (·.protocol = protocol)).map SocketPair.lease := by
    rw [holdings, leasesOf_append, hheld, List.append_nil, leasesOf_pairs]
  -- Two pairs with one lease would have the same ports.
  have hnodup : (leasesOf protocol s.holdings).Nodup := by
    rw [hleases]
    refine List.pairwise_map.2 ((h.disjoint_ports.filter _).imp ?_)
    intro p q hports hlease
    have hport : p.lease.rtpPort ∈ q.ports := by simp [SocketPair.ports, hlease]
    exact hports (List.mem_cons_self ..) hport
  rw [← h.available_add_leases protocol, hnodup.dedup, hleases, List.length_map]

/-- A socket pair has the two ports that the index of its lease says. -/
theorem toNat_ports (h : s.Accounted range) {pair : SocketPair} (hm : pair ∈ s.pairs) :
    pair.lease.index ∈ (range pair.protocol).pairIndices ∧
      pair.ports.map UInt16.toNat = [2 * pair.lease.index.toNat, 2 * pair.lease.index.toNat + 1] := by
  have hholding : (pair.protocol, pair.lease) ∈ s.holdings := List.mem_append_left _ (List.mem_map_of_mem hm)
  have hlive : pair.lease ∈ (s.allocator.pool pair.protocol).live :=
    List.mem_dedup.2 ((h.heldBy pair.protocol).mem_iff.2 (mem_leasesOf.2 hholding))
  have hindex := ((h.sound.stems pair.protocol).balanced.mem_pairIndices_iff pair.lease.index).2 (Or.inr ⟨_, hlive, rfl⟩)
  obtain ⟨hrtp, hrtcp⟩ := Lease.toNat_ports (PortRange.port_lt hindex)
  exact ⟨hindex, by simp [SocketPair.ports, hrtp, hrtcp]⟩

end Accounted

/-- Clients of which each has the ports of its socket pairs to itself. -/
structure Exclusive (range : Protocol → PortRange) (s : Tenancy) : Prop where
  /-- No two socket pairs share a port, whatever their protocols are. -/
  disjoint_ports : s.pairs.Pairwise fun p q => p.ports.Disjoint q.ports
  /-- The ports of a socket pair are neighbours in the range of its pool, the even one first. -/
  toNat_ports : ∀ pair ∈ s.pairs, pair.lease.index ∈ (range pair.protocol).pairIndices ∧
    pair.ports.map UInt16.toNat = [2 * pair.lease.index.toNat, 2 * pair.lease.index.toNat + 1]
  /-- A socket pair has a socket for each protocol on each of its ports. -/
  placed : ∀ pair ∈ s.pairs, pair.IsPlaced
  /-- The sockets of the socket pairs are open, and no other socket is. -/
  open_perm : (openSockets s.allocator.history).Perm (s.pairs.flatMap SocketPair.sockets)
  nodup_open : (openSockets s.allocator.history).Nodup
  capacity_eq : ∀ protocol, (s.allocator.pool protocol).capacity = (range protocol).pairIndices.length
  /-- The free pairs and the leases that clients hold make up the capacity of each pool. -/
  available_add_leases : ∀ protocol,
    (s.allocator.pool protocol).available + (leasesOf protocol s.holdings).dedup.length =
      (s.allocator.pool protocol).capacity
  /-- Where clients hold no other lease of a pool, these are as many as the socket pairs. -/
  available_add_pairs : ∀ protocol, leasesOf protocol s.held = [] →
    (s.allocator.pool protocol).available + (s.pairs.filter (·.protocol = protocol)).length =
      (s.allocator.pool protocol).capacity

/-- Whatever clients do, in whatever order, each socket pair has its ports to itself, as long as the factory lets only one
socket listen on a port. -/
theorem run_exclusive {factory : SocketFactory} (hf : factory.KeepsTcpApart) {range : Protocol → PortRange} {udp tcp : Pool}
    (hudp : udp.StemsFrom (range .udp)) (htcp : tcp.StemsFrom (range .tcp)) (actions : List Action) :
    ((start udp tcp).run factory actions).Exclusive range := by
  have h : ((start udp tcp).run factory actions).Accounted range := (Accounted.start hudp htcp).run hf actions
  refine ⟨h.disjoint_ports, fun _ hm => h.toNat_ports hm, h.placed, h.open_perm, h.sound.apart.nodup, ?_,
    h.available_add_leases, fun _ hheld => h.available_add_pairs hheld⟩
  exact fun protocol => (h.sound.stems protocol).balanced.capacity_eq

/-- A factory that refuses nothing but to listen where a socket listens. -/
def oneListener : SocketFactory := fun past call =>
  if call.protocol = .tcp ∧ ∃ socket ∈ openSockets past, socket.call.protocol = .tcp ∧ call.port = socket.call.port then
    some "address in use"
  else none

/-- Both pools have the last pair of the range at the front. The request for TCP finds it taken by the one for UDP, and gets
the pair before. -/
theorem run_exclusive_of_oneListener :
    oneListener.KeepsTcpApart ∧ ∃ udp tcp s, udp.StemsFrom ⟨30000, 30036⟩ ∧ tcp.StemsFrom ⟨30000, 30036⟩ ∧
      s = (start udp tcp).run oneListener
        [.openPair ⟨.udp, "::1".toList, true⟩, .openPair ⟨.tcp, "::1".toList, false⟩] ∧
      s.Exclusive (fun _ => ⟨30000, 30036⟩) ∧
      s.pairs.map (fun pair => (pair.protocol, pair.ports)) = [(.tcp, [30032, 30033]), (.udp, [30034, 30035])] ∧
      s.held = [] ∧ (s.allocator.udp.available, s.allocator.tcp.available) = (17, 17) := by
  have hf : oneListener.KeepsTcpApart := by
    intro past socket hs htcp call hcall hport
    rw [oneListener, if_pos ⟨hcall, socket, hs, htcp, hport⟩]
    rfl
  have hstems : ∀ protocol, Pool.StemsFrom ⟨30000, 30036⟩
      { protocol, capacity := 18, free := (List.range' 15000 18).reverse.map UInt16.ofNat } := by
    intro protocol
    exact ⟨Nat.one_ne_zero, protocol, fun _ => 0, _, [], rfl, rfl⟩
  refine ⟨hf, _, _, _, hstems .udp, hstems .tcp, rfl, run_exclusive hf (hstems .udp) (hstems .tcp) _, ?_⟩
  decide +kernel

end Tenancy

end MediaSession
