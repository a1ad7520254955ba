import MediaSession.Ports.Range
import MediaSession.Ports.Shuffle

/-!
# Pools of port pairs

A pool hands out the pairs of a range, the one that has been free the longest first. What it hands out is a lease; a
lease may have several holders, and when the last of them lets go of it the pair is free again, at the end of the queue.
The pool itself is known through handles. Once the last handle is gone there is no pool any more: the pairs that are
still held come back to nothing.
-/

namespace MediaSession

/-- A pair of ports that is or was handed out. No two leases of a pool have the same number. -/
structure Lease where
  number : Nat
  index : UInt16
  deriving DecidableEq, Repr

namespace Lease

/-- The port for packets. -/
def rtpPort (l : Lease) : UInt16 := l.index * 2

/-- The port for control. -/
def rtcpPort (l : Lease) : UInt16 := l.index * 2 + 1

end Lease

/-- A pool of port pairs, with all that is held of it. -/
structure Pool where
  protocol : Protocol
  /-- The number of pairs, free or held. -/
  capacity : Nat
  /-- The indices of the free pairs, the next one to be handed out first. -/
  free : List UInt16
  /-- The lease of every holder, the latest first. -/
  holders : List Lease := []
  /-- The number of handles to the pool. -/
  handles : Nat := 1
  /-- The number of leases so far. -/
  leases : Nat := 0
  deriving DecidableEq, Repr

namespace Pool

/-- A new pool over a range, in an order that random numbers give, with one handle. -/
def ofRange (protocol : Protocol) (range : PortRange) (random : Nat → UInt32) : Except Error Pool := do
  range.validate
  let free := Shuffle.shuffle random range.pairIndices
  return { protocol, free, capacity := free.length }

/-- A new pool over the range that a configuration sets. -/
def ofSettings (protocol : Protocol) (settings : Settings) (random : Nat → UInt32) : Except Error Pool := do
  ofRange protocol (← PortRange.ofSettings settings) random

/-- The number of free pairs. -/
def available (p : Pool) : Nat := p.free.length

/-- Hands out the next free pair to one holder. There is none when all are held, or when the pool is gone. -/
def acquire? (p : Pool) : Option (Lease × Pool) :=
  if p.handles = 0 then none
  else
    match p.free with
    | [] => none
    | index :: rest =>
      let lease := ⟨p.leases, index⟩
      some (lease, { p with free := rest, holders := lease :: p.holders, leases := p.leases + 1 })

/-- Gives a lease one more holder. Only a holder can share it. -/
def share (p : Pool) (lease : Lease) : Pool :=
  if lease ∈ p.holders then { p with holders := lease :: p.holders } else p

/-- Whether a lease has only one holder left, so that its pair is free again without that holder. -/
def isLastHolder (p : Pool) (lease : Lease) : Bool := p.holders.count lease == 1

/-- Whether the pair of a lease goes back to the queue when one holder lets go of it. -/
def regains (p : Pool) (lease : Lease) : Bool := p.isLastHolder lease && p.handles != 0

/-- Takes one holder from a lease. With the last one the pair goes to the end of the queue, if there still is a pool. -/
def release (p : Pool) (lease : Lease) : Pool :=
  { p with
    holders := p.holders.erase lease
    free := if p.regains lease then p.free ++ [lease.index] else p.free }

/-- Gives the pool one more handle. Only a handle can be copied. -/
def addHandle (p : Pool) : Pool := if p.handles = 0 then p else { p with handles := p.handles + 1 }

/-- Takes a handle from the pool. With the last one the pool is gone, and its queue with it. -/
def dropHandle (p : Pool) : Pool :=
  if p.handles ≤ 1 then { p with handles := 0, free := [] } else { p with handles := p.handles - 1 }

/-! ## Small facts -/

/-- Over a range that is wide enough there can be a pool, and at first all its pairs are free. -/
theorem ofRange_eq_ok {range : PortRange} (h : range.validate = .ok ()) (protocol : Protocol) (random : Nat → UInt32) :
    ofRange protocol range random =
      .ok { protocol, free := Shuffle.shuffle random range.pairIndices,
            capacity := (Shuffle.shuffle random range.pairIndices).length } := by
  rw [ofRange, h]
  rfl

/-- Nothing is handed out exactly when no pair is free or there is no pool. -/
theorem acquire?_eq_none_iff {p : Pool} : p.acquire? = none ↔ p.handles = 0 ∨ p.free = [] := by
  unfold acquire?
  split
  · simp_all
  · split <;> simp_all

/-- What is handed out is the pair at the front of the queue, under a new number. -/
theorem acquire?_eq_some_iff {p q : Pool} {lease : Lease} :
    p.acquire? = some (lease, q) ↔ p.handles ≠ 0 ∧ ∃ rest, p.free = lease.index :: rest ∧ lease.number = p.leases ∧
      q = { p with free := rest, holders := lease :: p.holders, leases := p.leases + 1 } := by
  unfold acquire?
  split
  · simp_all
  · rename_i hh
    split
    · simp_all
    · rename_i index rest hf
      simp only [Option.some.injEq, Prod.mk.injEq, hf, List.cons.injEq]
      constructor
      · rintro ⟨rfl, rfl⟩
        exact ⟨hh, rest, ⟨rfl, rfl⟩, rfl, rfl⟩
      · rintro ⟨-, r, ⟨hi, rfl⟩, hn, rfl⟩
        obtain ⟨number, index'⟩ := lease
        simp only at hi hn
        subst hi hn
        exact ⟨rfl, rfl⟩

theorem free_share (p : Pool) (lease : Lease) : (p.share lease).free = p.free := by
  unfold share
  split <;> rfl

/-- A lease that is not held cannot come back. -/
theorem release_of_notMem {p : Pool} {lease : Lease} (h : lease ∉ p.holders) : p.release lease = p := by
  have hc : p.regains lease = false := by simp [regains, isLastHolder, List.count_eq_zero.2 h]
  simp [release, hc, List.erase_of_not_mem h]

end Pool

end MediaSession
