import MediaSession.Ports.Pool
import Mathlib.Data.List.Dedup

/-!
# Runs of a pool

A run is a sequence of things that clients do to one pool, in the order in which they take effect. Several clients may act
in turn; what they do is one sequence all the same. A client can use only what there is: a lease that nobody holds is
neither shared nor let go of, and a pool without a handle is not asked.

The leases that a run hands out and those that it takes back are told in two lists, each in the order of the run.
-/

namespace MediaSession.Pool

/-- Something that a client does to a pool. -/
inductive Action where
  /-- Asks for a pair. -/
  | acquire
  /-- Gives a lease one more holder. -/
  | share (lease : Lease)
  /-- Takes one holder from a lease. -/
  | release (lease : Lease)
  /-- Copies a handle. -/
  | addHandle
  /-- Drops a handle. -/
  | dropHandle
  deriving DecidableEq, Repr

/-- The pool after an action. A request that is refused leaves the pool as it is. -/
def act (p : Pool) : Action → Pool
  | .acquire => p.acquire?.elim p (·.2)
  | .share lease => p.share lease
  | .release lease => p.release lease
  | .addHandle => p.addHandle
  | .dropHandle => p.dropHandle

/-- The pool after a run. -/
def run (p : Pool) (actions : List Action) : Pool := actions.foldl act p

/-- The lease that an action hands out, if any. -/
def servedBy (p : Pool) : Action → List Lease
  | .acquire => (p.acquire?.map (·.1)).toList
  | _ => []

/-- The lease whose pair an action puts back into the queue, if any. -/
def returnedBy (p : Pool) : Action → List Lease
  | .release lease => if p.regains lease then [lease] else []
  | _ => []

/-- The leases that a run hands out, in order. -/
def served (p : Pool) : List Action → List Lease
  | [] => []
  | a :: rest => p.servedBy a ++ (p.act a).served rest

/-- The leases whose pairs a run puts back into the queue, in order. -/
def returned (p : Pool) : List Action → List Lease
  | [] => []
  | a :: rest => p.returnedBy a ++ (p.act a).returned rest

/-- The leases that have a holder, each once. -/
def live (p : Pool) : List Lease := p.holders.dedup

@[simp] theorem run_nil (p : Pool) : p.run [] = p := rfl

@[simp] theorem run_cons (p : Pool) (a : Action) (rest : List Action) : p.run (a :: rest) = (p.act a).run rest := rfl

/-! ## What each action can do -/

/-- A request is refused and changes nothing, or it takes the pair at the front of the queue under a new number. -/
theorem acquire_cases (p : Pool) :
    (p.servedBy .acquire = [] ∧ p.act .acquire = p ∧ (p.handles = 0 ∨ p.free = [])) ∨
    ∃ index rest, p.handles ≠ 0 ∧ p.free = index :: rest ∧ p.servedBy .acquire = [⟨p.leases, index⟩] ∧
      p.act .acquire = { p with free := rest, holders := ⟨p.leases, index⟩ :: p.holders, leases := p.leases + 1 } := by
  cases h : p.acquire? with
  | none => exact Or.inl ⟨by simp [servedBy, h], by simp [act, h], acquire?_eq_none_iff.1 h⟩
  | some result =>
    obtain ⟨⟨number, index⟩, q⟩ := result
    obtain ⟨hh, rest, hf, hn, rfl⟩ := acquire?_eq_some_iff.1 h
    simp only at hn
    subst hn
    exact Or.inr ⟨index, rest, hh, hf, by simp [servedBy, h], by simp [act, h]⟩

/-- A lease that is shared is held already, so the same leases are live. -/
theorem live_share (p : Pool) (lease : Lease) : (p.share lease).live = p.live := by
  unfold share
  split
  · rename_i h
    exact List.dedup_cons_of_mem h
  · rfl

/-- A lease that loses a holder stays live unless that was its last one. -/
theorem live_release_of_not_last {p : Pool} {lease : Lease} (h : p.isLastHolder lease = false) :
    (p.release lease).live.Perm p.live := by
  have hc : p.holders.count lease ≠ 1 := by simpa [isLastHolder] using h
  refine List.perm_iff_count.2 fun x => ?_
  simp only [live, release, List.count_dedup]
  by_cases hx : x = lease
  · subst hx
    have hm : x ∈ p.holders.erase x ↔ x ∈ p.holders := by
      rw [← List.count_pos_iff, ← List.count_pos_iff, List.count_erase_self]
      omega
    simp only [hm]
  · simp only [List.mem_erase_of_ne hx]

/-- A lease that loses its last holder is the one that is not live any more. -/
theorem live_release_of_last {p : Pool} {lease : Lease} (h : p.isLastHolder lease = true) :
    (lease :: (p.release lease).live).Perm p.live := by
  have hc : p.holders.count lease = 1 := by simpa [isLastHolder] using h
  refine List.perm_iff_count.2 fun x => ?_
  rw [List.count_cons]
  simp only [live, release, List.count_dedup]
  by_cases hx : x = lease
  · subst hx
    have hm : x ∈ p.holders := List.count_pos_iff.1 (by omega)
    have hn : x ∉ p.holders.erase x := by
      rw [← List.count_pos_iff, List.count_erase_self]
      omega
    simp [hm, hn]
  · simp [List.mem_erase_of_ne hx, Ne.symm hx]

/-- Once the last handle is gone, letting go of a lease takes the holder away and does nothing else. -/
theorem release_of_handles_eq_zero {p : Pool} (h : p.handles = 0) (lease : Lease) :
    p.release lease = { p with holders := p.holders.erase lease } := by
  have hr : p.regains lease = false := by simp [regains, h]
  simp [release, hr]

end MediaSession.Pool
