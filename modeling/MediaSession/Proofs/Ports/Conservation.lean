import MediaSession.Proofs.Ports.Run

/-!
# Conservation of pairs

Whatever clients do to a pool over a range, no pair of the range is lost and none is doubled as long as the pool has a
handle: every pair is either free or held under exactly one lease, and every lease that was handed out is either live or
was taken back once.

The invariant is `Ledger`. It speaks of the pool and of the two lists that the run has told so far, `served` and
`returned`. `Ledger.act` shows that one action keeps it and `Ledger.run` that a whole run does; what the invariant says of
a pool that has a handle is `Ledger.balanced`.
-/

namespace MediaSession.Pool

/-- A pool keeps account of the pairs of a range: each is free or held, none is both and none is there twice. -/
structure Balanced (p : Pool) (range : PortRange) : Prop where
  /-- No free pair stands in the queue twice. -/
  nodup_free : p.free.Nodup
  /-- What is held is not free. -/
  index_notMem_free : ∀ lease ∈ p.live, lease.index ∉ p.free
  /-- Two leases hold two pairs. -/
  eq_of_index_eq : ∀ a ∈ p.live, ∀ b ∈ p.live, a.index = b.index → a = b
  /-- The pairs that are free or held are those of the range. -/
  mem_pairIndices_iff : ∀ i, i ∈ range.pairIndices ↔ i ∈ p.free ∨ ∃ lease ∈ p.live, lease.index = i
  /-- The pool is as large as the range. -/
  capacity_eq : p.capacity = range.pairIndices.length
  /-- The free pairs and the live leases make up the capacity. -/
  available_add_live : p.available + p.live.length = p.capacity

/-- What holds of a pool over a range when a run has handed out `served` and taken back `returned` so far. -/
structure Ledger (range : PortRange) (served returned : List Lease) (p : Pool) : Prop where
  capacity_eq : p.capacity = range.pairIndices.length
  /-- The leases are numbered in the order in which they are handed out. -/
  numbers : served.map Lease.number = List.range p.leases
  /-- Only what was handed out can be held. -/
  mem_served : ∀ lease ∈ p.holders, lease ∈ served
  /-- The queue goes with the last handle. -/
  free_of_gone : p.handles = 0 → p.free = []
  indices_perm : p.handles ≠ 0 → (p.free ++ p.live.map Lease.index).Perm range.pairIndices
  leases_perm : p.handles ≠ 0 → (returned ++ p.live).Perm served

namespace Ledger

variable {range : PortRange} {served returned : List Lease} {p : Pool}

/-- The number of the next lease is new. -/
theorem notMem_holders (h : Ledger range served returned p) (index : UInt16) : ⟨p.leases, index⟩ ∉ p.holders := by
  intro hm
  have hn : p.leases ∈ served.map Lease.number := List.mem_map_of_mem (f := Lease.number) (h.mem_served _ hm)
  rw [h.numbers, List.mem_range] at hn
  omega

/-- No two leases are the same, for their numbers differ. -/
theorem nodup_served (h : Ledger range served returned p) : served.Nodup := by
  refine List.Nodup.of_map Lease.number ?_
  rw [h.numbers]
  exact List.nodup_range

/-- A request moves one pair from the queue to the live leases, or nothing at all. -/
theorem acquire (h : Ledger range served returned p) :
    Ledger range (served ++ p.servedBy .acquire) returned (p.act .acquire) := by
  rcases acquire_cases p with ⟨hs, ha, -⟩ | ⟨index, rest, hh, hf, hs, ha⟩
  · rw [hs, ha, List.append_nil]
    exact h
  · rw [hs, ha]
    have hlive : (⟨p.leases, index⟩ :: p.holders).dedup = ⟨p.leases, index⟩ :: p.live :=
      List.dedup_cons_of_notMem (h.notMem_holders index)
    refine ⟨h.capacity_eq, ?_, ?_, fun h0 => absurd h0 hh, fun _ => ?_, fun _ => ?_⟩
    · rw [List.map_append, h.numbers, List.range_succ]
      rfl
    · intro lease hl
      rcases List.mem_cons.1 hl with rfl | hl
      · simp
      · exact List.mem_append_left _ (h.mem_served lease hl)
    · have hp := h.indices_perm hh
      rw [hf] at hp
      simp only [live, hlive, List.map_cons]
      exact List.perm_middle.trans hp
    · simp only [live, hlive]
      exact (List.perm_middle.trans ((h.leases_perm hh).cons _)).trans (List.perm_append_singleton _ _).symm

/-- To share a lease changes neither what is free nor what is live. -/
theorem share (h : Ledger range served returned p) (lease : Lease) : Ledger range served returned (p.share lease) := by
  by_cases hm : lease ∈ p.holders
  · have hlive : (p.share lease).live = p.live := live_share p lease
    have he : p.share lease = { p with holders := lease :: p.holders } := if_pos hm
    rw [he] at hlive ⊢
    refine ⟨h.capacity_eq, h.numbers, ?_, h.free_of_gone, ?_, ?_⟩
    · intro l hl
      rcases List.mem_cons.1 hl with rfl | hl
      · exact h.mem_served l hm
      · exact h.mem_served l hl
    · rw [hlive]
      exact h.indices_perm
    · rw [hlive]
      exact h.leases_perm
  · rw [show p.share lease = p from if_neg hm]
    exact h

/-- To let go of a lease moves its pair from the live leases to the queue if that was its last holder, and nothing at all
otherwise. -/
theorem release (h : Ledger range served returned p) (lease : Lease) :
    Ledger range served (returned ++ p.returnedBy (.release lease)) (p.release lease) := by
  have hmem : ∀ l ∈ (p.release lease).holders, l ∈ served := fun l hl => h.mem_served l (List.mem_of_mem_erase hl)
  by_cases hh : p.handles = 0
  · rw [release_of_handles_eq_zero hh] at hmem ⊢
    exact ⟨h.capacity_eq, h.numbers, hmem, h.free_of_gone, fun h0 => absurd hh h0, fun h0 => absurd hh h0⟩
  cases hl : p.isLastHolder lease with
  | false =>
    have hr : p.regains lease = false := by simp [regains, hl]
    have hfree : (p.release lease).free = p.free := by simp [Pool.release, hr]
    have hret : p.returnedBy (.release lease) = [] := by simp [returnedBy, hr]
    have hlive := live_release_of_not_last hl
    refine ⟨h.capacity_eq, h.numbers, hmem, fun h0 => absurd h0 hh, fun _ => ?_, fun _ => ?_⟩
    · rw [hfree]
      exact ((hlive.map Lease.index).append_left p.free).trans (h.indices_perm hh)
    · rw [hret, List.append_nil]
      exact (hlive.append_left returned).trans (h.leases_perm hh)
  | true =>
    have hr : p.regains lease = true := by simp [regains, hl, hh]
    have hfree : (p.release lease).free = p.free ++ [lease.index] := by simp [Pool.release, hr]
    have hret : p.returnedBy (.release lease) = [lease] := by simp [returnedBy, hr]
    have hlive := live_release_of_last hl
    refine ⟨h.capacity_eq, h.numbers, hmem, fun h0 => absurd h0 hh, fun _ => ?_, fun _ => ?_⟩
    · rw [hfree, List.append_assoc]
      exact ((hlive.map Lease.index).append_left p.free).trans (h.indices_perm hh)
    · rw [hret, List.append_assoc]
      exact (hlive.append_left returned).trans (h.leases_perm hh)

/-- To copy a handle leaves everything else as it is. -/
theorem addHandle (h : Ledger range served returned p) : Ledger range served returned p.addHandle := by
  unfold Pool.addHandle
  split
  · exact h
  · rename_i hh
    exact ⟨h.capacity_eq, h.numbers, h.mem_served, fun h0 => by simp at h0, fun _ => h.indices_perm hh,
      fun _ => h.leases_perm hh⟩

/-- To drop a handle leaves everything else as it is, unless it was the last one. -/
theorem dropHandle (h : Ledger range served returned p) : Ledger range served returned p.dropHandle := by
  unfold Pool.dropHandle
  split
  · exact ⟨h.capacity_eq, h.numbers, h.mem_served, fun _ => rfl, fun h0 => absurd rfl h0, fun h0 => absurd rfl h0⟩
  · rename_i hh
    have h1 : p.handles ≠ 0 := by omega
    refine ⟨h.capacity_eq, h.numbers, h.mem_served, fun h0 => ?_, fun _ => h.indices_perm h1, fun _ => h.leases_perm h1⟩
    simp only at h0
    omega

/-- One action keeps the account. -/
theorem act (h : Ledger range served returned p) (a : Action) :
    Ledger range (served ++ p.servedBy a) (returned ++ p.returnedBy a) (p.act a) := by
  cases a with
  | acquire => simpa [returnedBy] using h.acquire
  | share lease => simpa [servedBy, returnedBy, Pool.act] using h.share lease
  | release lease => simpa [servedBy, Pool.act] using h.release lease
  | addHandle => simpa [servedBy, returnedBy, Pool.act] using h.addHandle
  | dropHandle => simpa [servedBy, returnedBy, Pool.act] using h.dropHandle

/-- A run keeps the account. -/
theorem run (h : Ledger range served returned p) (actions : List Action) :
    Ledger range (served ++ p.served actions) (returned ++ p.returned actions) (p.run actions) := by
  induction actions generalizing served returned p with
  | nil => simpa [Pool.served, Pool.returned] using h
  | cons a rest ih => simpa [Pool.served, Pool.returned] using ih (h.act a)

/-- A new pool has handed out nothing. -/
theorem ofRange {protocol : Protocol} {random : Nat → UInt32} (h : Pool.ofRange protocol range random = .ok p) :
    Ledger range [] [] p ∧ p.handles ≠ 0 := by
  unfold Pool.ofRange at h
  cases hv : range.validate with
  | error e => simp [hv, bind, Except.bind] at h
  | ok u =>
    simp only [hv, bind, Except.bind, pure, Except.pure, Except.ok.injEq] at h
    subst h
    have hperm := Shuffle.shuffle_perm random range.pairIndices
    refine ⟨⟨hperm.length_eq, rfl, by simp, fun h0 => absurd h0 Nat.one_ne_zero, fun _ => ?_, fun _ => .refl _⟩,
      Nat.one_ne_zero⟩
    simpa [live] using hperm

/-- As long as the pool has a handle, the account says that it is in balance. -/
theorem balanced (h : Ledger range served returned p) (hh : p.handles ≠ 0) : p.Balanced range := by
  have hperm := h.indices_perm hh
  have hnd : (p.free ++ p.live.map Lease.index).Nodup := hperm.nodup_iff.2 range.nodup_pairIndices
  obtain ⟨hfree, hlive, hdisj⟩ := List.nodup_append.1 hnd
  refine ⟨hfree, ?_, ?_, ?_, h.capacity_eq, ?_⟩
  · intro lease hl hf
    exact hdisj _ hf _ (List.mem_map_of_mem hl) rfl
  · exact fun a ha b hb => List.inj_on_of_nodup_map hlive ha hb
  · intro i
    rw [← hperm.mem_iff, List.mem_append, List.mem_map]
  · rw [h.capacity_eq, ← hperm.length_eq, List.length_append, List.length_map]
    rfl

end Ledger

/-- In a pool in balance a request is refused exactly when all pairs are held. -/
theorem Balanced.acquire?_eq_none_iff {p : Pool} {range : PortRange} (h : p.Balanced range) (hh : p.handles ≠ 0) :
    p.acquire? = none ↔ p.live.length = p.capacity := by
  have hsum := h.available_add_live
  rw [Pool.acquire?_eq_none_iff, or_iff_right hh, ← List.length_eq_zero_iff]
  simp only [available] at hsum
  omega

/-- While there is a handle, a pair comes back with the last holder of its lease and not before. -/
theorem free_release {p : Pool} (hh : p.handles ≠ 0) (lease : Lease) :
    (p.release lease).free = if p.holders.count lease = 1 then p.free ++ [lease.index] else p.free := by
  have hr : p.regains lease = true ↔ p.holders.count lease = 1 := by simp [regains, isLastHolder, hh]
  simp only [release, hr]

/-! ## A pool that is gone -/

/-- Without a handle and with nothing in the queue an action changes at most the holders. -/
theorem act_of_gone {p : Pool} (hh : p.handles = 0) (hf : p.free = []) (a : Action) :
    p.act a = { p with holders := (p.act a).holders } ∧ p.servedBy a = [] ∧ p.returnedBy a = [] := by
  cases a with
  | acquire =>
    have hn : p.acquire? = none := acquire?_eq_none_iff.2 (Or.inl hh)
    simp [act, servedBy, returnedBy, hn]
  | share lease =>
    refine ⟨?_, rfl, rfl⟩
    simp only [act, share]
    split <;> rfl
  | release lease =>
    have hr : p.regains lease = false := by simp [regains, hh]
    exact ⟨by rw [act, release_of_handles_eq_zero hh], rfl, by simp [returnedBy, hr]⟩
  | addHandle =>
    have he : p.act .addHandle = p := if_pos hh
    exact ⟨by rw [he], rfl, rfl⟩
  | dropHandle =>
    obtain ⟨protocol, capacity, free, holders, handles, leases⟩ := p
    simp only at hh hf
    subst hh hf
    exact ⟨rfl, rfl, rfl⟩

/-- Without a handle and with nothing in the queue a run changes at most the holders. -/
theorem run_of_gone {p : Pool} (hh : p.handles = 0) (hf : p.free = []) (actions : List Action) :
    p.run actions = { p with holders := (p.run actions).holders } ∧ p.served actions = [] ∧ p.returned actions = [] := by
  induction actions generalizing p with
  | nil => exact ⟨rfl, rfl, rfl⟩
  | cons a rest ih =>
    obtain ⟨ha, hs, hr⟩ := act_of_gone hh hf a
    have hh' : (p.act a).handles = 0 := by rw [ha]; exact hh
    have hf' : (p.act a).free = [] := by rw [ha]; exact hf
    obtain ⟨hrun, hserved, hreturned⟩ := ih hh' hf'
    refine ⟨?_, by rw [served, hs, hserved]; rfl, by rw [returned, hr, hreturned]; rfl⟩
    rw [run_cons, hrun, ha]

/-! ## Conservation -/

/-- What a run from a new pool over a range keeps. -/
structure Conserved (range : PortRange) (start : Pool) (actions : List Action) : Prop where
  /-- As long as there is a handle the pool keeps account of the pairs of the range. -/
  balanced : (start.run actions).handles ≠ 0 → (start.run actions).Balanced range
  /-- A request is refused exactly when as many leases are live as the pool has pairs. -/
  acquire?_eq_none_iff : (start.run actions).handles ≠ 0 →
    ((start.run actions).acquire? = none ↔ (start.run actions).live.length = (start.run actions).capacity)
  /-- No lease is handed out twice. -/
  nodup_served : (start.served actions).Nodup
  /-- Every lease that was handed out is either live or was taken back, and taken back once. -/
  returned_once : (start.run actions).handles ≠ 0 →
    (start.returned actions ++ (start.run actions).live).Perm (start.served actions)
  /-- A pair goes back to the end of the queue with the last holder of its lease, and not before. -/
  free_release : (start.run actions).handles ≠ 0 → ∀ lease, ((start.run actions).release lease).free =
    if (start.run actions).holders.count lease = 1 then (start.run actions).free ++ [lease.index]
    else (start.run actions).free
  /-- Once the last handle is gone nothing is handed out or taken back, and nothing but the holders ever changes. -/
  gone : (start.run actions).handles = 0 → ∀ more,
    (start.run actions).run more = { start.run actions with holders := ((start.run actions).run more).holders } ∧
      (start.run actions).served more = [] ∧ (start.run actions).returned more = []

/-- A pool can be made over every range that is wide enough, in whatever order the random numbers give, and every run
conserves its pairs. -/
theorem pairs_conserved (protocol : Protocol) (range : PortRange) (random : Nat → UInt32) (actions : List Action)
    (hr : range.validate = .ok ()) :
    ∃ start, Pool.ofRange protocol range random = .ok start ∧ Conserved range start actions := by
  obtain ⟨start, hs⟩ : ∃ start, Pool.ofRange protocol range random = .ok start := by
    simp [Pool.ofRange, hr, bind, Except.bind, pure, Except.pure]
  have hl := (Ledger.ofRange hs).1.run actions
  simp only [List.nil_append] at hl
  refine ⟨start, hs, hl.balanced, ?_, hl.nodup_served, hl.leases_perm, fun hh => Pool.free_release hh, ?_⟩
  · exact fun hh => (hl.balanced hh).acquire?_eq_none_iff hh
  · exact fun hh => run_of_gone hh (hl.free_of_gone hh)

/-- A lease gets a second holder and the pool a second handle, and then one of the holders and one of the handles go. -/
def oneOfTwoLeft : List Action :=
  [.acquire, .share ⟨0, 15017⟩, .addHandle, .release ⟨0, 15017⟩, .dropHandle]

/-- In the narrowest range the lease is live after that, and its pair is not free. When the other holder goes too, the pair is
free as long as the other handle is there. When that handle has gone before, it is not. -/
theorem pairs_conserved_of_eighteen :
    PortRange.validate ⟨30000, 30036⟩ = .ok () ∧
    ∃ start, Pool.ofRange .udp ⟨30000, 30036⟩ (fun _ => 0) = .ok start ∧ Conserved ⟨30000, 30036⟩ start oneOfTwoLeft ∧
      (start.run oneOfTwoLeft).live = [⟨0, 15017⟩] ∧ (start.run oneOfTwoLeft).handles = 1 ∧
      (start.run oneOfTwoLeft).available = 17 ∧
      (start.run (oneOfTwoLeft ++ [.release ⟨0, 15017⟩])).available = 18 ∧
      start.returned (oneOfTwoLeft ++ [.dropHandle, .release ⟨0, 15017⟩]) = [] := by
  obtain ⟨start, hs, hc⟩ := pairs_conserved .udp ⟨30000, 30036⟩ (fun _ => 0) oneOfTwoLeft rfl
  have hstart : start = { protocol := .udp, capacity := 18, free := (List.range' 15000 18).reverse.map UInt16.ofNat } :=
    Except.ok.inj (hs.symm.trans rfl)
  refine ⟨rfl, start, hs, hc, ?_⟩
  rw [hstart]
  decide

end MediaSession.Pool
