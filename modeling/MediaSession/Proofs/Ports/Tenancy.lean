import MediaSession.Proofs.Ports.SocketPairs

/-!
# Clients of an allocator

Clients open and close socket pairs, and they may hold leases besides: one that they took from a pool themselves, or one
more on the ports of a pair. A `Tenancy` is an allocator with all that its clients hold of it, and a run is a sequence of
things that they do, in the order in which they take effect. A client can use only what it holds.

Whatever is done, each pool stems from a new pool by a run of its own (`Pool.StemsFrom`), and the holders of its leases
are what the clients hold (`Allocator.HeldBy`).
-/

namespace MediaSession

/-- An allocator and what its clients hold of it. -/
structure Tenancy where
  allocator : Allocator
  /-- The socket pairs that have not been closed, the latest first. -/
  pairs : List SocketPair := []
  /-- The leases that are held besides those of the socket pairs, with the protocols of their pools, once for each holder. -/
  held : List (Protocol × Lease) := []
  deriving DecidableEq, Repr

namespace Tenancy

/-- Something that a client does. -/
inductive Action where
  /-- Asks for a socket pair. -/
  | openPair (r : SocketRequest)
  /-- Closes a socket pair. -/
  | closePair (pair : SocketPair)
  /-- Asks the pool of a protocol for a lease. -/
  | reserve (protocol : Protocol)
  /-- Gives a lease one more holder. -/
  | share (protocol : Protocol) (lease : Lease)
  /-- Takes such a holder from a lease. -/
  | release (protocol : Protocol) (lease : Lease)
  deriving DecidableEq, Repr

/-- The leases that clients hold, with the protocols of their pools, once for each holder. -/
def holdings (s : Tenancy) : List (Protocol × Lease) := s.pairs.map (fun pair => (pair.protocol, pair.lease)) ++ s.held

/-- What clients hold after an action. A request that is refused leaves it as it is. -/
def act (factory : SocketFactory) (s : Tenancy) : Action → Tenancy
  | .openPair r =>
    match s.allocator.openPair factory r with
    | (.ok pair, a) => { s with allocator := a, pairs := pair :: s.pairs }
    | (.error _, a) => { s with allocator := a }
  | .closePair pair =>
    if pair ∈ s.pairs then { s with allocator := s.allocator.closePair pair, pairs := s.pairs.erase pair } else s
  | .reserve protocol =>
    match s.allocator.reserve? protocol with
    | some (lease, a) => { s with allocator := a, held := (protocol, lease) :: s.held }
    | none => s
  | .share protocol lease =>
    if (protocol, lease) ∈ s.holdings then
      { s with allocator := s.allocator.share protocol lease, held := (protocol, lease) :: s.held }
    else s
  | .release protocol lease =>
    if (protocol, lease) ∈ s.held then
      { s with allocator := s.allocator.release protocol lease, held := s.held.erase (protocol, lease) }
    else s

/-- What clients hold after a run. -/
def run (factory : SocketFactory) (s : Tenancy) (actions : List Action) : Tenancy := actions.foldl (act factory) s

/-- A new allocator over two pools, of which leases may be held already. -/
def start (udp tcp : Pool) : Tenancy :=
  { allocator := { udp, tcp }, held := udp.holders.map (Protocol.udp, ·) ++ tcp.holders.map (Protocol.tcp, ·) }

end Tenancy

/-- The leases of a protocol's pool among the holdings of clients. -/
def leasesOf (protocol : Protocol) (holdings : List (Protocol × Lease)) : List Lease :=
  holdings.filterMap fun h => if h.1 = protocol then some h.2 else none

theorem leasesOf_cons_self (protocol : Protocol) (lease : Lease) (holdings : List (Protocol × Lease)) :
    leasesOf protocol ((protocol, lease) :: holdings) = lease :: leasesOf protocol holdings := by
  simp [leasesOf]

theorem leasesOf_cons_opposite (protocol : Protocol) (lease : Lease) (holdings : List (Protocol × Lease)) :
    leasesOf protocol.opposite ((protocol, lease) :: holdings) = leasesOf protocol.opposite holdings := by
  cases protocol <;> simp [leasesOf, Protocol.opposite]

theorem mem_leasesOf {protocol : Protocol} {lease : Lease} {holdings : List (Protocol × Lease)} :
    lease ∈ leasesOf protocol holdings ↔ (protocol, lease) ∈ holdings := by
  simp only [leasesOf, List.mem_filterMap]
  constructor
  · rintro ⟨⟨p, l⟩, hm, hl⟩
    simp only [Option.ite_none_right_eq_some, Option.some.injEq] at hl
    obtain ⟨rfl, rfl⟩ := hl
    exact hm
  · intro hm
    exact ⟨_, hm, if_pos rfl⟩

theorem leasesOf_append (protocol : Protocol) (holdings others : List (Protocol × Lease)) :
    leasesOf protocol (holdings ++ others) = leasesOf protocol holdings ++ leasesOf protocol others :=
  List.filterMap_append

/-- The leases of socket pairs in a pool are those of the pairs that have its protocol. -/
theorem leasesOf_pairs (protocol : Protocol) (pairs : List SocketPair) :
    leasesOf protocol (pairs.map fun pair => (pair.protocol, pair.lease)) =
      (pairs.filter (·.protocol = protocol)).map SocketPair.lease := by
  induction pairs with
  | nil => rfl
  | cons pair rest ih =>
    rw [List.map_cons, leasesOf, List.filterMap_cons, ← leasesOf, ih]
    by_cases h : pair.protocol = protocol <;> simp [h]

/-- Every protocol is a given one or the other. -/
theorem Protocol.eq_or_eq_opposite (p q : Protocol) : q = p ∨ q = p.opposite := by
  cases p <;> cases q <;> simp [opposite]

/-! ## Pools -/

namespace Pool

/-- A pool that clients have brought about from a new pool over a range, and that still has a handle. -/
structure StemsFrom (range : PortRange) (p : Pool) : Prop where
  handles_ne_zero : p.handles ≠ 0
  exists_run : ∃ protocol random start actions, ofRange protocol range random = .ok start ∧ p = start.run actions

variable {range : PortRange} {p : Pool}

theorem StemsFrom.exists_ledger (h : p.StemsFrom range) : ∃ served returned, Ledger range served returned p := by
  obtain ⟨protocol, random, start, actions, hstart, rfl⟩ := h.exists_run
  exact ⟨_, _, (Ledger.ofRange hstart).1.run actions⟩

theorem StemsFrom.balanced (h : p.StemsFrom range) : p.Balanced range := by
  obtain ⟨served, returned, hl⟩ := h.exists_ledger
  exact hl.balanced h.handles_ne_zero

theorem StemsFrom.inService (h : p.StemsFrom range) : p.InService := by
  obtain ⟨served, returned, hl⟩ := h.exists_ledger
  exact hl.inService h.handles_ne_zero

/-- What is done to a pool over a range, short of dropping its last handle, leaves one over the range. -/
theorem StemsFrom.act (h : p.StemsFrom range) (a : Action) (hh : (p.act a).handles ≠ 0) : (p.act a).StemsFrom range := by
  obtain ⟨protocol, random, start, actions, hstart, rfl⟩ := h.exists_run
  exact ⟨hh, protocol, random, start, actions ++ [a], hstart, by simp [run]⟩

theorem StemsFrom.share (h : p.StemsFrom range) (lease : Lease) : (p.share lease).StemsFrom range := by
  refine h.act (.share lease) ?_
  have hhandles : (p.share lease).handles = p.handles := by
    unfold Pool.share
    split <;> rfl
  exact hhandles.trans_ne h.handles_ne_zero

theorem StemsFrom.release (h : p.StemsFrom range) (lease : Lease) : (p.release lease).StemsFrom range :=
  h.act (.release lease) h.handles_ne_zero

/-- The pool whose first free pair has been handed out is what a request leaves. -/
theorem StemsFrom.holding (h : p.StemsFrom range) {index : UInt16} {rest : List UInt16} (hfree : p.free = index :: rest) :
    (p.holding index rest).StemsFrom range := by
  have hact : p.act .acquire = p.holding index rest := by
    rcases acquire_cases p with ⟨-, -, hnone⟩ | ⟨i, r, -, hir, -, hacquire⟩
    · rcases hnone with hgone | hempty
      · exact absurd hgone h.handles_ne_zero
      · rw [hfree] at hempty
        cases hempty
    · rw [hfree] at hir
      obtain ⟨rfl, rfl⟩ := List.cons.inj hir
      exact hacquire
  rw [← hact]
  exact h.act .acquire (by rw [hact]; exact h.handles_ne_zero)

/-- A pair that was handed out and given back is the last of the queue. -/
theorem StemsFrom.returned (h : p.StemsFrom range) {index : UInt16} {rest : List UInt16} (hfree : p.free = index :: rest) :
    StemsFrom range { p with free := rest ++ [index], leases := p.leases + 1 } := by
  have hreleased := (h.holding hfree).release (p.nextLease index)
  rwa [h.inService.release_nextLease] at hreleased

end Pool

/-! ## Steps of an allocator -/

namespace Allocator

variable {a b : Allocator} {protocol : Protocol} {lease : Lease} {holdings : List (Protocol × Lease)}

/-- What holds of every pool still does after a step that changes one of them. -/
theorem forall_pool {motive : Protocol → Pool → Prop} (h : ∀ q, motive q (a.pool q)) (hown : motive protocol (b.pool protocol))
    (hother : b.pool protocol.opposite = a.pool protocol.opposite) (q : Protocol) : motive q (b.pool q) := by
  rcases protocol.eq_or_eq_opposite q with rfl | rfl
  · exact hown
  · rw [hother]
    exact h _

@[simp] theorem pool_share (a : Allocator) (protocol : Protocol) (lease : Lease) :
    (a.share protocol lease).pool protocol = (a.pool protocol).share lease := pool_setPool _ _ _

@[simp] theorem pool_opposite_share (a : Allocator) (protocol : Protocol) (lease : Lease) :
    (a.share protocol lease).pool protocol.opposite = a.pool protocol.opposite := pool_opposite_setPool _ _ _

/-- To let go of a lease changes its pool, and at most tells of a return. -/
theorem release_eq_advance (a : Allocator) (protocol : Protocol) (lease : Lease) :
    a.release protocol lease =
      (a.advance (if (a.pool protocol).regains lease then [.returned protocol lease] else []) 0).setPool
        ((a.pool protocol).release lease) protocol := by
  unfold release
  split
  · rw [record_eq_advance, advance_setPool]
  · rfl

@[simp] theorem pool_release (a : Allocator) (protocol : Protocol) (lease : Lease) :
    (a.release protocol lease).pool protocol = (a.pool protocol).release lease := by
  rw [release_eq_advance, pool_setPool]

@[simp] theorem pool_opposite_release (a : Allocator) (protocol : Protocol) (lease : Lease) :
    (a.release protocol lease).pool protocol.opposite = a.pool protocol.opposite := by
  rw [release_eq_advance, pool_opposite_setPool, pool_advance]

@[simp] theorem openSockets_release (a : Allocator) (protocol : Protocol) (lease : Lease) :
    openSockets (a.release protocol lease).history = openSockets a.history := by
  rw [release_eq_advance, history_setPool, history_advance]
  split <;> rfl

@[simp] theorem sockets_release (a : Allocator) (protocol : Protocol) (lease : Lease) :
    (a.release protocol lease).sockets = a.sockets := by
  rw [release_eq_advance, sockets_setPool]
  rfl

/-- A lease that is handed out is the next one of its pool. -/
theorem reserve?_cases (h : a.reserve? protocol = some (lease, b)) :
    ∃ index rest, (a.pool protocol).free = index :: rest ∧ lease = (a.pool protocol).nextLease index ∧
      b = (a.advance [.reserved protocol lease] 0).setPool ((a.pool protocol).holding index rest) protocol := by
  obtain ⟨⟨lease', p⟩, hacquire, hb⟩ := Option.map_eq_some_iff.1 h
  simp only [Prod.mk.injEq] at hb
  obtain ⟨rfl, rfl⟩ := hb
  obtain ⟨-, rest, hfree, hnumber, rfl⟩ := Pool.acquire?_eq_some_iff.1 hacquire
  have hlease : lease' = (a.pool protocol).nextLease lease'.index := by
    rw [Pool.nextLease, ← hnumber]
  refine ⟨lease'.index, rest, hfree, hlease, ?_⟩
  rw [record_eq_advance, advance_setPool, Pool.holding, ← hlease]

/-- Whatever is told, a pool can be replaced by another one over its range. -/
theorem stems_setPool {range : Protocol → PortRange} (h : ∀ q, (a.pool q).StemsFrom (range q)) {p : Pool}
    (hp : p.StemsFrom (range protocol)) (events : List SocketEvent) (opened : Nat) (q : Protocol) :
    (((a.advance events opened).setPool p protocol).pool q).StemsFrom (range q) :=
  forall_pool h (by rw [pool_setPool]; exact hp) (by simp) q

theorem stems_share {range : Protocol → PortRange} (h : ∀ q, (a.pool q).StemsFrom (range q)) (protocol : Protocol)
    (lease : Lease) (q : Protocol) : ((a.share protocol lease).pool q).StemsFrom (range q) :=
  stems_setPool h ((h protocol).share lease) [] 0 q

theorem stems_release {range : Protocol → PortRange} (h : ∀ q, (a.pool q).StemsFrom (range q)) (protocol : Protocol)
    (lease : Lease) (q : Protocol) : ((a.release protocol lease).pool q).StemsFrom (range q) := by
  rw [release_eq_advance]
  exact stems_setPool h ((h protocol).release lease) _ 0 q

/-! ## Holders -/

/-- The holders of the leases of each pool are the clients that hold them. -/
def HeldBy (a : Allocator) (holdings : List (Protocol × Lease)) : Prop :=
  ∀ protocol, (a.pool protocol).holders.Perm (leasesOf protocol holdings)

theorem HeldBy.of_perm {others : List (Protocol × Lease)} (h : a.HeldBy holdings) (hp : holdings.Perm others) :
    a.HeldBy others :=
  fun q => (h q).trans (hp.filterMap _)

/-- A lease of one pool with one more holder. -/
theorem HeldBy.cons (h : a.HeldBy holdings) (hown : (b.pool protocol).holders = lease :: (a.pool protocol).holders)
    (hother : b.pool protocol.opposite = a.pool protocol.opposite) : b.HeldBy ((protocol, lease) :: holdings) := by
  intro q
  rcases protocol.eq_or_eq_opposite q with rfl | rfl
  · rw [hown, leasesOf_cons_self]
    exact (h _).cons lease
  · rw [hother, leasesOf_cons_opposite]
    exact h _

theorem HeldBy.share (h : a.HeldBy holdings) (hm : (protocol, lease) ∈ holdings) :
    (a.share protocol lease).HeldBy ((protocol, lease) :: holdings) := by
  have hheld : lease ∈ (a.pool protocol).holders := (h protocol).mem_iff.2 (mem_leasesOf.2 hm)
  refine h.cons ?_ (pool_opposite_share a protocol lease)
  rw [pool_share, Pool.share, if_pos hheld]

theorem HeldBy.release (h : a.HeldBy ((protocol, lease) :: holdings)) : (a.release protocol lease).HeldBy holdings := by
  intro q
  rcases protocol.eq_or_eq_opposite q with rfl | rfl
  · have hperm := (h q).erase lease
    rw [leasesOf_cons_self, List.erase_cons_head] at hperm
    rw [pool_release]
    exact hperm
  · have hperm := h protocol.opposite
    rw [leasesOf_cons_opposite] at hperm
    rw [pool_opposite_release]
    exact hperm

end Allocator

end MediaSession
