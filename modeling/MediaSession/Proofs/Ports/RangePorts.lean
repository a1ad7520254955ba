import MediaSession.Proofs.Ports.Attempts

/-!
# Ports of a range

Which ports the pairs of a range have. The bounds of a range may be odd or even, and they are halved in numbers of another
width than the ports are doubled in. All the same no port is computed beyond the largest there is, and none outside the
range: the pair after the last one that is handed out would still begin in the range (`PortRange.mem_pairIndices`).

That a pool never hands out anything else is an invariant of its account, `Pool.Ledger`: what is handed out was free, and what
is free or held are the pairs of the range.
-/

namespace MediaSession

/-- A pair of ports of a range: two neighbours in it, the even one first, and neither is a port of another pair of the range. -/
structure Lease.LiesIn (range : PortRange) (lease : Lease) : Prop where
  index_mem : lease.index ∈ range.pairIndices
  /-- The ports are computed without overflow. -/
  toNat_rtpPort : lease.rtpPort.toNat = 2 * lease.index.toNat
  toNat_rtcpPort : lease.rtcpPort.toNat = 2 * lease.index.toNat + 1
  rtpPort_mem : range.min ≤ lease.rtpPort ∧ lease.rtpPort ≤ range.max
  rtcpPort_mem : range.min ≤ lease.rtcpPort ∧ lease.rtcpPort ≤ range.max
  disjoint : ∀ other : Lease, other.index ∈ range.pairIndices → other.index ≠ lease.index →
    List.Disjoint [lease.rtpPort, lease.rtcpPort] [other.rtpPort, other.rtcpPort]

namespace PortRange

variable {r : PortRange}

/-- The ports of a range are counted with both of its ends. -/
theorem validate_eq_ok_iff_ports : r.validate = .ok () ↔ 36 ≤ (r.max.toNat : Int) - r.min.toNat + 1 := by
  have hspan : minPortSpan = 36 := rfl
  rw [validate_eq_ok_iff]
  omega

/-- What a configuration sets is checked, and so is the usual range. -/
theorem validate_of_ofSettings {settings : Settings} (h : ofSettings settings = .ok r) : r.validate = .ok () := by
  rw [ofSettings_eq] at h
  cases hset : (settings key).elim (.ok usual) read with
  | error e =>
    rw [hset] at h
    cases h
  | ok range =>
    rw [hset, Except.bind] at h
    cases hvalid : range.validate with
    | error e =>
      rw [hvalid] at h
      cases h
    | ok u =>
      rw [hvalid] at h
      obtain rfl := Except.ok.inj h
      exact hvalid

/-- A lower end that is odd loses its port, and so does an upper end that is even. -/
theorem length_pairIndices (r : PortRange) :
    r.pairIndices.length = r.max.toNat / 2 - (r.min.toNat + 1) / 2 := by
  rw [pairIndices, List.length_map, List.length_range', toNat_firstPair, toNat_endPair]

/-- Wherever the ends lie, at most two of 36 ports are lost. -/
theorem le_length_pairIndices (h : r.validate = .ok ()) : 17 ≤ r.pairIndices.length := by
  have hspan : minPortSpan = 36 := rfl
  rw [validate_eq_ok_iff] at h
  rw [length_pairIndices]
  omega

/-- Every pair of a range lies in it. -/
theorem liesIn_of_mem {lease : Lease} (h : lease.index ∈ r.pairIndices) : lease.LiesIn r := by
  obtain ⟨hlower, hupper⟩ := mem_pairIndices.1 h
  obtain ⟨hrtp, hrtcp⟩ := lease.toNat_ports (port_lt h)
  refine ⟨h, hrtp, hrtcp, ?_, ?_, ?_⟩
  · rw [UInt16.le_iff_toNat_le, UInt16.le_iff_toNat_le, hrtp]
    omega
  · rw [UInt16.le_iff_toNat_le, UInt16.le_iff_toNat_le, hrtcp]
    omega
  · intro other hother hne port hport hshared
    obtain ⟨hrtp', hrtcp'⟩ := other.toNat_ports (port_lt hother)
    have hindex : other.index.toNat ≠ lease.index.toNat := fun heq => hne (UInt16.toNat_inj.1 heq)
    rcases List.mem_pair.1 hport with rfl | rfl <;> rcases List.mem_pair.1 hshared with heq | heq <;>
      · have hnumbers := congrArg UInt16.toNat heq
        omega

end PortRange

namespace Pool.Ledger

variable {range : PortRange} {served returned : List Lease} {p : Pool}

/-- What an action hands out was free, and so it is a pair of the range. -/
theorem index_mem_of_mem_servedBy (h : Ledger range served returned p) {a : Action} {lease : Lease}
    (hl : lease ∈ p.servedBy a) : lease.index ∈ range.pairIndices := by
  cases a with
  | acquire =>
    rcases acquire_cases p with ⟨hnone, -, -⟩ | ⟨index, rest, hh, hfree, hserved, -⟩
    · rw [hnone] at hl
      cases hl
    · rw [hserved, List.mem_singleton] at hl
      rw [hl, ← (h.indices_perm hh).mem_iff, hfree]
      exact List.mem_append_left _ List.mem_cons_self
  | _ => cases hl

/-- So is all that a run hands out. -/
theorem index_mem_of_mem_served (h : Ledger range served returned p) {actions : List Action} {lease : Lease}
    (hl : lease ∈ p.served actions) : lease.index ∈ range.pairIndices := by
  induction actions generalizing served returned p with
  | nil => cases hl
  | cons a rest ih =>
    rcases List.mem_append.1 hl with hnow | hlater
    · exact h.index_mem_of_mem_servedBy hnow
    · exact ih (h.act a) hlater

end Pool.Ledger

namespace PortRange

/-- Every port of a range that is set stays in it, in four parts.
1. A range is accepted exactly when it has at least 36 ports.
2. What a configuration gives is such a range.
3. The pairs of any range are those with at least one more port of the range after them, each once.
4. An accepted range has at least 17 pairs, and a pool of that capacity can be made over it in whatever order the random
   numbers give. Whatever clients do to the pool, both ports of every pair that it hands out lie in the range, as the numbers
   that the index says, and no other pair has them. -/
theorem served_ports_in_range (r : PortRange) :
    (r.validate = .ok () ↔ 36 ≤ (r.max.toNat : Int) - r.min.toNat + 1) ∧
    (∀ settings, ofSettings settings = .ok r → r.validate = .ok ()) ∧
    (∀ i, i ∈ r.pairIndices ↔ r.min.toNat ≤ 2 * i.toNat ∧ 2 * i.toNat + 2 ≤ r.max.toNat) ∧ r.pairIndices.Nodup ∧
    (r.validate = .ok () → 17 ≤ r.pairIndices.length ∧
      ∀ protocol random, ∃ start, Pool.ofRange protocol r random = .ok start ∧ start.capacity = r.pairIndices.length ∧
        ∀ actions, ∀ lease ∈ start.served actions, lease.LiesIn r) := by
  refine ⟨validate_eq_ok_iff_ports, fun _ => validate_of_ofSettings, fun _ => mem_pairIndices, r.nodup_pairIndices, ?_⟩
  intro hvalid
  refine ⟨le_length_pairIndices hvalid, fun protocol random => ?_⟩
  obtain ⟨start, hstart⟩ : ∃ start, Pool.ofRange protocol r random = .ok start := by
    simp [Pool.ofRange, hvalid, bind, Except.bind, pure, Except.pure]
  have hledger := (Pool.Ledger.ofRange hstart).1
  exact ⟨start, hstart, hledger.capacity_eq, fun _ _ hl => liesIn_of_mem (hledger.index_mem_of_mem_served hl)⟩

/-- The last 36 ports there are have 17 pairs, and the largest port is not in any. -/
theorem served_ports_in_range_of_last :
    PortRange.validate ⟨65500, 65535⟩ = .ok () ∧ (PortRange.pairIndices ⟨65500, 65535⟩).length = 17 ∧
      ∃ start, Pool.ofRange .tcp ⟨65500, 65535⟩ (fun _ => 0) = .ok start ∧ start.capacity = 17 ∧
        start.served [.acquire] = [⟨0, 32766⟩] ∧ Lease.LiesIn ⟨65500, 65535⟩ ⟨0, 32766⟩ := by
  have hvalid : PortRange.validate ⟨65500, 65535⟩ = .ok () := rfl
  obtain ⟨-, -, -, -, hpool⟩ := served_ports_in_range ⟨65500, 65535⟩
  obtain ⟨start, hstart, hcapacity, hserved⟩ := (hpool hvalid).2 .tcp fun _ => 0
  have hlast : start.served [.acquire] = [⟨0, 32766⟩] := by
    obtain rfl := Except.ok.inj hstart
    decide +kernel
  exact ⟨hvalid, rfl, start, hstart, hcapacity, hlast, hserved [.acquire] _ (by rw [hlast]; exact List.mem_cons_self)⟩

end PortRange

end MediaSession
