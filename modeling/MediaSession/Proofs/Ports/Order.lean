import MediaSession.Proofs.Ports.Conservation

/-!
# The order in which pairs are handed out

A pair waits its turn: it is handed out after all pairs that were free before it. What a run hands out can be told from the
order in which the pairs were free at first and the order in which leases end, without looking at the queue in between: a
lease ends with the action after which nobody holds it any more, however many holders it had by then (`endedBy`). One action
moves the boundary between what was handed out and what still waits in the one list of all that was ever free
(`free_append_returnedBy`), and so does a run (`free_append_returned`).
-/

namespace MediaSession.Pool

/-- The leases that end with an action: those with a holder before it and without one after it. -/
def endedBy (p : Pool) (a : Action) : List Lease := p.live.filter (· ∉ (p.act a).live)

/-- The leases that end in a run, in the order in which they do. -/
def ended (p : Pool) : List Action → List Lease
  | [] => []
  | a :: rest => p.endedBy a ++ (p.act a).ended rest

/-- The indices of the pairs of leases. -/
def indices (leases : List Lease) : List UInt16 := leases.map Lease.index

/-! ## A handle throughout -/

/-- A pool that is gone stays gone. -/
theorem handles_act_of_gone {p : Pool} (h : p.handles = 0) (a : Action) : (p.act a).handles = 0 := by
  cases a with
  | acquire =>
    rcases acquire_cases p with ⟨-, hact, -⟩ | ⟨index, rest, hh, -⟩
    · rw [hact]
      exact h
    · exact absurd h hh
  | share lease =>
    simp only [act, share]
    split <;> exact h
  | release lease => exact h
  | addHandle =>
    have hstay : p.act .addHandle = p := if_pos h
    rw [hstay]
    exact h
  | dropHandle => rw [show p.act .dropHandle = { p with handles := 0, free := [] } from if_pos (by omega)]

theorem handles_run_of_gone {p : Pool} (h : p.handles = 0) (actions : List Action) : (p.run actions).handles = 0 :=
  List.foldlRecOn (motive := fun q : Pool => q.handles = 0) actions act h fun _ hq a _ => handles_act_of_gone hq a

/-- A pool that has a handle after a run had one after each action of it. -/
theorem handles_ne_zero_of_run {p : Pool} (actions : List Action) (h : (p.run actions).handles ≠ 0) : p.handles ≠ 0 :=
  fun hgone => h (handles_run_of_gone hgone actions)

/-! ## Leases that end -/

/-- Where the same leases are live after an action, none ends. -/
theorem endedBy_eq_nil {p : Pool} {a : Action} (h : ∀ lease ∈ p.live, lease ∈ (p.act a).live) : p.endedBy a = [] :=
  List.filter_eq_nil_iff.2 fun lease hl => by simpa using h lease hl

/-- While there is a handle, the leases that end are those whose pairs come back. -/
theorem endedBy_eq_returnedBy {p : Pool} (hh : p.handles ≠ 0) (a : Action) : p.endedBy a = p.returnedBy a := by
  cases a with
  | acquire =>
    refine endedBy_eq_nil fun lease hl => ?_
    rcases acquire_cases p with ⟨-, hact, -⟩ | ⟨index, rest, -, -, -, hact⟩
    · rwa [hact]
    · rw [hact]
      exact List.mem_dedup.2 (List.mem_cons_of_mem _ (List.mem_dedup.1 hl))
  | share lease => exact endedBy_eq_nil fun _ hl => (live_share p lease).symm ▸ hl
  | addHandle =>
    have hstay : p.act .addHandle = { p with handles := p.handles + 1 } := if_neg hh
    exact endedBy_eq_nil fun _ hl => by rwa [hstay]
  | dropHandle =>
    refine endedBy_eq_nil fun _ hl => ?_
    simp only [act, dropHandle]
    split <;> exact hl
  | release lease =>
    cases hlast : p.isLastHolder lease with
    | false =>
      have hnone : p.returnedBy (.release lease) = [] := by simp [returnedBy, regains, hlast]
      rw [hnone]
      exact endedBy_eq_nil fun _ hl => (live_release_of_not_last hlast).mem_iff.2 hl
    | true =>
      have hone : p.returnedBy (.release lease) = [lease] := by simp [returnedBy, regains, hlast, hh]
      have hperm := live_release_of_last hlast
      have hnodup : (lease :: (p.release lease).live).Nodup := hperm.nodup_iff.2 (List.nodup_dedup _)
      -- Of the leases that were live, only this one is not live any more.
      have hfilter : p.endedBy (.release lease) = p.live.filter (· == lease) := by
        show p.live.filter (· ∉ (p.release lease).live) = _
        refine List.filter_congr fun l hl => ?_
        rcases List.mem_cons.1 (hperm.mem_iff.2 hl) with rfl | hstill
        · simpa using (List.nodup_cons.1 hnodup).1
        · have hne : l ≠ lease := fun heq => (List.nodup_cons.1 hnodup).1 (heq ▸ hstill)
          rw [beq_eq_false_iff_ne.2 hne]
          simpa using hstill
      have hcount : p.live.count lease = 1 :=
        List.count_eq_one_of_mem (List.nodup_dedup _) (hperm.mem_iff.1 List.mem_cons_self)
      rw [hone, hfilter, List.filter_beq, hcount]
      rfl

/-- While there is a handle to the end, the leases that end are those whose pairs come back. -/
theorem ended_eq_returned {p : Pool} {actions : List Action} (hh : (p.run actions).handles ≠ 0) :
    p.ended actions = p.returned actions := by
  induction actions generalizing p with
  | nil => rfl
  | cons a rest ih =>
    have hnow : p.handles ≠ 0 := handles_ne_zero_of_run (a :: rest) hh
    rw [ended, returned, endedBy_eq_returnedBy hnow, ih hh]

/-! ## The queue moves on -/

/-- One action takes from the front of the queue what it hands out, and adds to its end what comes back. -/
theorem free_append_returnedBy {p : Pool} {a : Action} (hh : (p.act a).handles ≠ 0) :
    p.free ++ indices (p.returnedBy a) = indices (p.servedBy a) ++ (p.act a).free := by
  cases a with
  | acquire =>
    rcases acquire_cases p with ⟨hserved, hact, -⟩ | ⟨index, rest, -, hfree, hserved, hact⟩
    · rw [hserved, hact]
      exact List.append_nil _
    · rw [hserved, hact, hfree]
      exact List.append_nil _
  | share lease =>
    have hfree : (p.act (.share lease)).free = p.free := free_share p lease
    rw [hfree]
    exact List.append_nil _
  | release lease =>
    simp only [returnedBy, servedBy, act, release]
    split
    · rfl
    · exact List.append_nil _
  | addHandle =>
    have hfree : (p.act .addHandle).free = p.free := by
      simp only [act, addHandle]
      split <;> rfl
    rw [hfree]
    exact List.append_nil _
  | dropHandle =>
    have hfree : (p.act .dropHandle).free = p.free := by
      simp only [act, dropHandle] at hh ⊢
      split
      · rename_i hlast
        rw [if_pos hlast] at hh
        exact absurd rfl hh
      · rfl
    rw [hfree]
    exact List.append_nil _

/-- What was free at first, and after it what came back, is what was handed out, and after it what is free now. -/
theorem free_append_returned {p : Pool} {actions : List Action} (hh : (p.run actions).handles ≠ 0) :
    p.free ++ indices (p.returned actions) = indices (p.served actions) ++ (p.run actions).free := by
  induction actions generalizing p with
  | nil => exact List.append_nil _
  | cons a rest ih =>
    have hstep := free_append_returnedBy (handles_ne_zero_of_run rest hh)
    have hrest := ih (p := p.act a) hh
    simp only [indices, served, returned, run_cons, List.map_append] at hstep hrest ⊢
    rw [← List.append_assoc, hstep, List.append_assoc, hrest, List.append_assoc]

/-! ## Turns -/

/-- How a run hands out the pairs of a pool. -/
structure InTurn (start : Pool) (actions : List Action) : Prop where
  /-- What is handed out is the beginning of what was free at first and then came back with the end of a lease. -/
  served_prefix : indices (start.served actions) <+: start.free ++ indices (start.ended actions)
  /-- What has not been handed out of that waits in the queue. -/
  free_eq : (start.run actions).free = (start.free ++ indices (start.ended actions)).drop (start.served actions).length
  /-- A request is refused only when all of that has been handed out. -/
  acquire?_eq_none_iff : (start.run actions).acquire? = none ↔
    indices (start.served actions) = start.free ++ indices (start.ended actions)
  /-- A pair that comes back is not handed out again before every pair that was free by then has been handed out. -/
  waits : ∀ before lease after, actions = before ++ .release lease :: after →
    lease ∈ (start.run before).endedBy (.release lease) → ∀ k : Nat,
    (indices (((start.run before).release lease).served after))[k]? = some lease.index →
    ∀ index ∈ (start.run before).free,
      index ∈ (indices (((start.run before).release lease).served after)).take k

/-- A pair that has come back comes after all that are free by then. -/
theorem mem_take_served_of_release {p : Pool} {lease : Lease} {after : List Action} {k : Nat}
    (hh : ((p.release lease).run after).handles ≠ 0) (hreturned : p.regains lease = true) (hnew : lease.index ∉ p.free)
    (hk : (indices ((p.release lease).served after))[k]? = some lease.index) {index : UInt16} (hfree : index ∈ p.free) :
    index ∈ (indices ((p.release lease).served after)).take k := by
  have hqueue : (p.release lease).free = p.free ++ [lease.index] := by simp [release, hreturned]
  have hprefix : indices ((p.release lease).served after) <+:
      p.free ++ ([lease.index] ++ indices ((p.release lease).returned after)) := by
    rw [← List.append_assoc, ← hqueue, free_append_returned hh]
    exact List.prefix_append _ _
  obtain ⟨hlt, hget⟩ := List.getElem?_eq_some_iff.1 hk
  have hlong : p.free.length ≤ k := by
    by_contra hshort
    have hinside : k < p.free.length := Nat.lt_of_not_le hshort
    refine hnew ?_
    rw [← hget, hprefix.getElem hlt, List.getElem_append_left hinside]
    exact List.getElem_mem hinside
  have htake : p.free <+: (indices ((p.release lease).served after)).take k := by
    refine List.prefix_of_prefix_length_le (List.prefix_append _ _) ((List.take_prefix _ _).trans hprefix) ?_
    rw [List.length_take]
    omega
  exact htake.subset hfree

/-- A pool hands out its pairs in the order in which they became free. Over every range that is wide enough and in whatever
order the random numbers give, a pool can be made, and every run during which it has a handle hands out the pairs in turn. -/
theorem served_in_turn (protocol : Protocol) (range : PortRange) (random : Nat → UInt32) (actions : List Action)
    (hr : range.validate = .ok ()) :
    ∃ start, Pool.ofRange protocol range random = .ok start ∧
      start.free = Shuffle.shuffle random range.pairIndices ∧
      ((start.run actions).handles ≠ 0 → InTurn start actions) := by
  obtain ⟨start, hs, hfree⟩ : ∃ start, Pool.ofRange protocol range random = .ok start ∧
      start.free = Shuffle.shuffle random range.pairIndices := by
    simp [Pool.ofRange, hr, bind, Except.bind, pure, Except.pure]
  refine ⟨start, hs, hfree, fun hh => ?_⟩
  have hqueue := free_append_returned hh
  rw [← ended_eq_returned hh] at hqueue
  refine ⟨?_, ?_, ?_, ?_⟩
  · rw [hqueue]
    exact List.prefix_append _ _
  · have hlength : (start.served actions).length = (indices (start.served actions)).length := by simp [indices]
    rw [hqueue, hlength, List.drop_left]
  · rw [Pool.acquire?_eq_none_iff, or_iff_right hh, hqueue, List.self_eq_append_right]
  · rintro before lease after rfl hends k hk index hindex
    have hrun : start.run (before ++ .release lease :: after) = ((start.run before).release lease).run after :=
      List.foldl_append
    rw [hrun] at hh
    have hhandles : (start.run before).handles ≠ 0 := handles_ne_zero_of_run (.release lease :: after) hh
    have hbalanced := ((Ledger.ofRange hs).1.run before).balanced hhandles
    have hlive : lease ∈ (start.run before).live := (List.mem_filter.1 hends).1
    rw [endedBy_eq_returnedBy hhandles] at hends
    have hreturned : (start.run before).regains lease = true := by
      by_contra hstays
      simp [returnedBy, hstays] at hends
    exact mem_take_served_of_release hh hreturned (hbalanced.index_notMem_free lease hlive) hk hindex

/-- A lease with two holders loses one of them, and then as many pairs are asked for as the narrowest range has. -/
def betweenReleases : List Action :=
  [.acquire, .share ⟨0, 15017⟩, .release ⟨0, 15017⟩] ++ List.replicate 18 .acquire

/-- After that the lease loses its other holder, and one more pair is asked for. -/
def wholeRound : List Action := betweenReleases ++ [.release ⟨0, 15017⟩, .acquire]

/-- In the narrowest range the pair that was handed out first is not handed out again as long as its lease has a holder left,
although all others are and one more is asked for. When the last holder has let go it is the next. -/
theorem served_in_turn_of_wholeRound :
    PortRange.validate ⟨30000, 30036⟩ = .ok () ∧
    ∃ start, Pool.ofRange .udp ⟨30000, 30036⟩ (fun _ => 0) = .ok start ∧ (start.run wholeRound).handles ≠ 0 ∧
      InTurn start wholeRound ∧ start.ended betweenReleases = [] ∧ indices (start.served betweenReleases) = start.free ∧
      (start.run betweenReleases).acquire? = none ∧ start.ended wholeRound = [⟨0, 15017⟩] ∧
      indices (start.served wholeRound) = start.free ++ [15017] := by
  obtain ⟨start, hs, -, hturn⟩ := served_in_turn .udp ⟨30000, 30036⟩ (fun _ => 0) wholeRound rfl
  have hstart : start = { protocol := .udp, capacity := 18, free := (List.range' 15000 18).reverse.map UInt16.ofNat } :=
    Except.ok.inj (hs.symm.trans rfl)
  have hh : (start.run wholeRound).handles ≠ 0 := by
    rw [hstart]
    decide
  refine ⟨rfl, start, hs, hh, hturn hh, ?_⟩
  rw [hstart]
  decide

end MediaSession.Pool
