import MediaSession.Proofs.Ports.Exclusion
import MediaSession.Proofs.Ports.Orderly

/-!
# Free pairs have no open sockets

A pair of ports goes back to its queue only after the sockets that were opened for it are closed. Otherwise the next client to
draw it could find its ports taken. An action closes sockets and gives pairs back in several steps, so this has to hold between
any two events and not only between two actions: the history has to be orderly.

That it is rests on an invariant, `Allocator.Guarded`: what is open for a lease belongs to a socket pair that has not been closed.
Such a pair is a holder of its lease, so when the last holder lets go of a lease nothing is open for it
(`Tenancy.index_ne_of_regains`). The factory may do as it likes.
-/

namespace MediaSession

variable {initial : Protocol → List UInt16} {past : List SocketEvent} {protocol : Protocol} {lease : Lease} {socket : Socket}

/-! ## Attempts -/

/-- Each request of an attempt is for one of the ports that were taken. -/
theorem SocketRequest.port_mem_of_mem_calls {r : SocketRequest} {call : SocketCall} (h : call ∈ r.calls lease) :
    call.port ∈ [lease.rtpPort, lease.rtcpPort] := by
  have hm : (call.protocol, call.port) ∈ (r.calls lease).map fun call => (call.protocol, call.port) := List.mem_map_of_mem h
  rw [r.map_calls] at hm
  simp only [List.mem_cons, Prod.mk.injEq, List.not_mem_nil, or_false] at hm ⊢
  tauto

/-- Sockets are numbered from the given number on. -/
theorem SocketFactory.le_number_of_mem_answers {factory : SocketFactory} {past : List SocketEvent} {number : Nat}
    {calls : List SocketCall} (h : socket ∈ (factory.answers past number calls).1) : number ≤ socket.number := by
  induction calls generalizing past number with
  | nil => cases h
  | cons call rest ih =>
    rw [answers] at h
    cases hanswer : factory past call with
    | some reason =>
      rw [hanswer] at h
      cases h
    | none =>
      rw [hanswer] at h
      rcases List.mem_cons.1 h with rfl | h
      · exact Nat.le_refl _
      · exact Nat.le_of_succ_le (ih h)

/-- The events of an attempt that is granted: its pair is taken and its sockets are opened. -/
theorem Attempt.events_append_of_granted {t : Attempt} (h : t.refusal? = none) (protocol : Protocol)
    (past : List SocketEvent) : t.events protocol ++ past =
      t.opened.reverse.map .opened ++ .reserved protocol t.lease :: past := by
  simp [events, h]

/-- After a refusal the sockets are closed, and then the pair goes back. -/
theorem Attempt.events_append_of_refused {t : Attempt} {call : SocketCall} {reason : String}
    (h : t.refusal? = some (call, reason)) (protocol : Protocol) (past : List SocketEvent) :
    t.events protocol ++ past = .returned protocol t.lease :: (t.opened.map .closed ++
      .refused call reason :: (t.opened.reverse.map .opened ++ .reserved protocol t.lease :: past)) := by
  simp [events, h, Allocator.refusedEvents]

/-- A history in which a pair of ports has been taken and sockets may be opened for it. The next one has the given number. -/
structure Underway (initial : Protocol → List UInt16) (protocol : Protocol) (lease : Lease) (past : List SocketEvent)
    (number : Nat) : Prop where
  orderly : Orderly initial past
  last : lastReserved? past = some (protocol, lease)
  notMem_queue : lease.index ∉ queueAfter initial past protocol
  number_lt : ∀ socket, .opened socket ∈ past → socket.number < number

namespace Underway

variable {factory : SocketFactory} {number : Nat}

/-- One more socket is opened. -/
theorem opened (h : Underway initial protocol lease past number) {call : SocketCall}
    (hport : call.port ∈ [lease.rtpPort, lease.rtcpPort]) :
    Underway initial protocol lease (.opened ⟨number, call⟩ :: past) (number + 1) := by
  refine ⟨h.orderly.opened h.number_lt h.last h.notMem_queue hport, h.last, h.notMem_queue, fun socket hs => ?_⟩
  rcases List.mem_cons.1 hs with heq | hs
  · obtain rfl := SocketEvent.opened.inj heq
    exact Nat.lt_succ_self _
  · exact Nat.lt_succ_of_lt (h.number_lt socket hs)

/-- As many are opened as the factory grants. -/
theorem answers (h : Underway initial protocol lease past number) {calls : List SocketCall}
    (hports : ∀ call ∈ calls, call.port ∈ [lease.rtpPort, lease.rtcpPort]) :
    Underway initial protocol lease ((factory.answers past number calls).1.reverse.map .opened ++ past)
      (number + (factory.answers past number calls).1.length) := by
  induction calls generalizing past number with
  | nil => exact h
  | cons call rest ih =>
    rw [SocketFactory.answers]
    cases hanswer : factory past call with
    | some reason => exact h
    | none =>
      have hrest := ih (h.opened (hports call List.mem_cons_self)) fun other hm => hports other (List.mem_cons_of_mem _ hm)
      simpa [Nat.add_assoc, Nat.add_comm 1] using hrest

end Underway

/-! ## What an allocator keeps -/

namespace Allocator

variable {factory : SocketFactory} {range : Protocol → PortRange} {pairs : List SocketPair} {a b : Allocator}
  {r : SocketRequest} {index : UInt16} {rest : List UInt16} {t : Attempt}

/-- The history is orderly and tells the queues of the pools, and what is open for a lease belongs to a socket pair that is
among the given ones. -/
structure Guarded (range : Protocol → PortRange) (initial : Protocol → List UInt16) (pairs : List SocketPair)
    (a : Allocator) : Prop where
  stems : ∀ protocol, (a.pool protocol).StemsFrom (range protocol)
  orderly : Orderly initial a.history
  queue_eq : ∀ protocol, queueAfter initial a.history protocol = (a.pool protocol).free
  number_lt : ∀ socket, .opened socket ∈ a.history → socket.number < a.sockets
  owned : ∀ protocol lease socket, OpenedFor a.history protocol lease socket → socket ∈ openSockets a.history →
    ∃ pair ∈ pairs, pair.protocol = protocol ∧ pair.lease = lease ∧ socket ∈ pair.sockets

/-- Where one pool and its queue change, the history tells the queues if it tells this one. -/
theorem queue_eq_of_update (protocol : Protocol) (h : ∀ q, queueAfter initial a.history q = (a.pool q).free)
    (hown : queueAfter initial b.history = Function.update (queueAfter initial a.history) protocol (b.pool protocol).free)
    (hother : b.pool protocol.opposite = a.pool protocol.opposite) (q : Protocol) :
    queueAfter initial b.history q = (b.pool q).free := by
  rw [hown]
  rcases protocol.eq_or_eq_opposite q with rfl | rfl
  · exact Function.update_self _ _ _
  · rw [Function.update_of_ne (by cases protocol <;> decide), hother, h]

namespace Guarded

/-- The pair at the front is no longer in the queue when it has been taken, and sockets can be opened for it. -/
theorem reserved (h : a.Guarded range initial pairs) (hfree : (a.pool protocol).free = index :: rest) :
    queueAfter initial (.reserved protocol ((a.pool protocol).nextLease index) :: a.history) =
        Function.update (queueAfter initial a.history) protocol rest ∧
      Underway initial protocol ((a.pool protocol).nextLease index)
        (.reserved protocol ((a.pool protocol).nextLease index) :: a.history) a.sockets := by
  have hqueue : queueAfter initial (.reserved protocol ((a.pool protocol).nextLease index) :: a.history) =
      Function.update (queueAfter initial a.history) protocol rest := by
    rw [queueAfter, h.queue_eq, hfree]
    exact congrArg _ (List.erase_cons_head _ _)
  refine ⟨hqueue, h.orderly.reserved _ _, rfl, ?_, fun socket hs => ?_⟩
  · have hnodup := (h.stems protocol).balanced.nodup_free
    rw [hfree] at hnodup
    rw [hqueue, Function.update_self]
    exact (List.nodup_cons.1 hnodup).1
  · exact h.number_lt socket (List.mem_of_ne_of_mem (by simp) hs)

/-- The sockets of an attempt are opened for the pair that it takes, under new numbers. -/
theorem made (h : a.Guarded range initial pairs) (hfree : (a.pool r.protocol).free = index :: rest)
    (ht : t = .made factory r a.history a.sockets ((a.pool r.protocol).nextLease index)) :
    t.lease = (a.pool r.protocol).nextLease index ∧ (∀ socket ∈ t.opened, a.sockets ≤ socket.number) ∧
      Underway initial r.protocol t.lease (t.opened.reverse.map .opened ++ .reserved r.protocol t.lease :: a.history)
        (a.sockets + t.opened.length) := by
  rw [ht]
  exact ⟨rfl, fun _ hs => SocketFactory.le_number_of_mem_answers hs,
    (h.reserved hfree).2.answers fun _ => SocketRequest.port_mem_of_mem_calls⟩

/-- A socket that was opened before an attempt is none of the attempt. -/
theorem notMem_opened (h : a.Guarded range initial pairs) (hnew : ∀ socket ∈ t.opened, a.sockets ≤ socket.number)
    (hs : .opened socket ∈ a.history) : socket ∉ t.opened := by
  intro hm
  exact Nat.lt_irrefl _ (Nat.lt_of_lt_of_le (h.number_lt socket hs) (hnew socket hm))

/-- A socket that was opened for a lease is one of the attempt, which has that lease, or it is from before. -/
theorem openedFor_made (h : a.Guarded range initial pairs) (hnew : ∀ socket ∈ t.opened, a.sockets ≤ socket.number)
    (hs : OpenedFor (t.opened.reverse.map .opened ++ .reserved r.protocol t.lease :: a.history) protocol lease socket) :
    (socket ∈ t.opened ∧ r.protocol = protocol ∧ t.lease = lease) ∨
      (socket ∉ t.opened ∧ OpenedFor a.history protocol lease socket) := by
  rcases openedFor_opened hs with ⟨hm, hlast⟩ | hpast
  · rw [lastReserved?, Option.some.injEq, Prod.mk.injEq] at hlast
    exact Or.inl ⟨List.mem_reverse.1 hm, hlast.1, hlast.2⟩
  · exact Or.inr ⟨h.notMem_opened hnew (opened_mem_of_openedFor hpast), hpast⟩

/-- An attempt that is granted brings a socket pair with the sockets that it opened. -/
theorem granted (h : a.Guarded range initial pairs) (hfree : (a.pool r.protocol).free = index :: rest)
    (ht : t = .made factory r a.history a.sockets ((a.pool r.protocol).nextLease index)) (hgranted : t.refusal? = none)
    {pair : SocketPair} (hprotocol : pair.protocol = r.protocol) (hlease : pair.lease = t.lease)
    (hsockets : pair.sockets = t.opened) :
    ((a.advance (t.events r.protocol) t.opened.length).setPool ((a.pool r.protocol).holding index rest) r.protocol).Guarded
      range initial (pair :: pairs) := by
  obtain ⟨htaken, hnew, hunderway⟩ := h.made hfree ht
  have hevents := t.events_append_of_granted hgranted r.protocol a.history
  refine ⟨stems_setPool h.stems ((h.stems _).holding hfree) _ _, ?_, ?_, ?_, ?_⟩
  · rw [history_setPool, history_advance, hevents]
    exact hunderway.orderly
  · refine queue_eq_of_update r.protocol h.queue_eq ?_ (pool_opposite_setPool _ _ _)
    rw [history_setPool, history_advance, hevents, queueAfter_opened, htaken, (h.reserved hfree).1, pool_setPool]
    rfl
  · rw [history_setPool, history_advance, hevents, sockets_setPool]
    exact hunderway.number_lt
  · intro protocol lease socket hs hopen
    rw [history_setPool, history_advance] at hs hopen
    rw [hevents] at hs
    rw [Attempt.openSockets_events, hgranted] at hopen
    rcases h.openedFor_made hnew hs with ⟨hm, rfl, rfl⟩ | ⟨hm, hpast⟩
    · exact ⟨pair, List.mem_cons_self, hprotocol, hlease, hsockets ▸ hm⟩
    · have hopen' : socket ∈ openSockets a.history := by
        rcases List.mem_append.1 hopen with hown | hopen
        · exact absurd (List.mem_reverse.1 hown) hm
        · exact hopen
      obtain ⟨owner, howner, howned⟩ := h.owned protocol lease socket hpast hopen'
      exact ⟨owner, List.mem_cons_of_mem _ howner, howned⟩

/-- What is open for a lease after a refusal was opened before the attempt. -/
theorem openedFor_of_refused (h : a.Guarded range initial pairs) (hnew : ∀ socket ∈ t.opened, a.sockets ≤ socket.number)
    {call : SocketCall} {reason : String} (hrefused : t.refusal? = some (call, reason))
    (hs : OpenedFor (t.events r.protocol ++ a.history) protocol lease socket) (hopen : socket ∈ openSockets a.history) :
    OpenedFor a.history protocol lease socket := by
  rw [t.events_append_of_refused hrefused] at hs
  change OpenedFor (t.opened.map .closed ++ _) protocol lease socket at hs
  rw [openedFor_closed] at hs
  rcases h.openedFor_made hnew hs with ⟨hm, -⟩ | ⟨-, hpast⟩
  · exact absurd hm (h.notMem_opened hnew (opened_mem_of_mem_openSockets hopen))
  · exact hpast

/-- An attempt that is refused closes what it opened before its pair goes back. -/
theorem refused (h : a.Guarded range initial pairs) (hfree : (a.pool r.protocol).free = index :: rest)
    (ht : t = .made factory r a.history a.sockets ((a.pool r.protocol).nextLease index))
    {call : SocketCall} {reason : String} (hrefused : t.refusal? = some (call, reason)) :
    ((a.advance (t.events r.protocol) t.opened.length).setPool
      { a.pool r.protocol with free := rest ++ [index], leases := (a.pool r.protocol).leases + 1 } r.protocol).Guarded
      range initial pairs := by
  obtain ⟨htaken, hnew, hunderway⟩ := h.made hfree ht
  have hevents := t.events_append_of_refused hrefused r.protocol a.history
  have hopens : openSockets (t.events r.protocol ++ a.history) = openSockets a.history := by
    rw [Attempt.openSockets_events, hrefused]
    rfl
  refine ⟨stems_setPool h.stems ((h.stems _).returned hfree) _ _, ?_, ?_, ?_, ?_⟩
  · rw [history_setPool, history_advance, hevents]
    refine ((hunderway.orderly.refused call reason).closing t.opened).returned fun earlier socket hs hindex hopen => ?_
    -- The pair was free before the attempt, so nothing was open behind it.
    rw [hevents] at hopens
    have hopen' : socket ∈ openSockets a.history := hopens ▸ hopen
    have hpast := h.openedFor_of_refused hnew hrefused (by rw [hevents]; exact hs) hopen'
    refine h.orderly.noneOpenBehindFree r.protocol earlier socket hpast ?_ hopen'
    rw [h.queue_eq, hfree, hindex, htaken]
    exact List.mem_cons_self
  · refine queue_eq_of_update r.protocol h.queue_eq ?_ (pool_opposite_setPool _ _ _)
    rw [history_setPool, history_advance, hevents, queueAfter, queueAfter_closed, queueAfter_refused, queueAfter_opened,
      htaken, (h.reserved hfree).1, Function.update_self, Function.update_idem, pool_setPool]
    rfl
  · rw [history_setPool, history_advance, hevents, sockets_setPool]
    intro socket hs
    exact hunderway.number_lt socket (by simpa using hs)
  · intro protocol lease socket hs hopen
    rw [history_setPool, history_advance] at hs hopen
    rw [hopens] at hopen
    exact h.owned protocol lease socket (h.openedFor_of_refused hnew hrefused hs hopen) hopen

/-- Whatever comes of an attempt, what is open for a lease belongs to a socket pair: one from before, or the one it brings. -/
theorem attempt (h : a.Guarded range initial pairs) (factory : SocketFactory) (r : SocketRequest) :
    (a.attempt factory r).2.Guarded range initial ((a.attempt factory r).1.toOption.toList ++ pairs) := by
  have hservice := (h.stems r.protocol).inService
  cases hfree : (a.pool r.protocol).free with
  | nil =>
    rw [attempt_of_empty hfree]
    exact h
  | cons index rest =>
    generalize ht : Attempt.made factory r a.history a.sockets ((a.pool r.protocol).nextLease index) = t
    cases hrefusal : t.refusal? with
    | some refusal =>
      rw [attempt_of_refused hservice hfree ht.symm hrefusal]
      exact h.refused hfree ht.symm hrefusal
    | none =>
      obtain ⟨rtp, rtcp, reservedRtp, reservedRtcp, hopened, heq⟩ := attempt_of_granted hservice hfree ht.symm hrefusal
      rw [heq]
      exact h.granted hfree ht.symm hrefusal rfl rfl hopened.symm

theorem attemptAgain (h : a.Guarded range initial pairs) (factory : SocketFactory) (r : SocketRequest) (n : Nat) :
    (Allocator.attemptAgain factory r n a).2.Guarded range initial
      ((Allocator.attemptAgain factory r n a).1.toOption.toList ++ pairs) := by
  induction n generalizing a with
  | zero => exact h.attempt factory r
  | succ n ih =>
    have hfirst := h.attempt factory r
    rw [Allocator.attemptAgain]
    split
    · rename_i heq
      rwa [heq] at hfirst
    · rename_i heq
      rw [heq] at hfirst
      exact ih hfirst

theorem openPair (h : a.Guarded range initial pairs) (factory : SocketFactory) (r : SocketRequest) :
    (a.openPair factory r).2.Guarded range initial ((a.openPair factory r).1.toOption.toList ++ pairs) :=
  h.attemptAgain factory r _

theorem reserve (h : a.Guarded range initial pairs) (heq : a.reserve? protocol = some (lease, b)) :
    b.Guarded range initial pairs := by
  obtain ⟨index, rest, hfree, rfl, rfl⟩ := reserve?_cases heq
  obtain ⟨hqueue, hunderway⟩ := h.reserved hfree
  refine ⟨stems_setPool h.stems ((h.stems _).holding hfree) _ _, ?_, ?_, ?_, ?_⟩
  · rw [history_setPool]
    exact hunderway.orderly
  · refine queue_eq_of_update protocol h.queue_eq ?_ (pool_opposite_setPool _ _ _)
    rw [history_setPool, pool_setPool]
    exact hqueue
  · rw [history_setPool, sockets_setPool]
    exact hunderway.number_lt
  · rw [history_setPool]
    exact h.owned

/-- Where nothing is told and no queue changes, the allocator stays guarded. -/
theorem of_history_eq (h : a.Guarded range initial pairs) (hstems : ∀ q, (b.pool q).StemsFrom (range q))
    (hhistory : b.history = a.history) (hsockets : b.sockets = a.sockets)
    (hfree : ∀ q, (b.pool q).free = (a.pool q).free) : b.Guarded range initial pairs := by
  refine ⟨hstems, ?_, ?_, ?_, ?_⟩
  · rw [hhistory]
    exact h.orderly
  · intro q
    rw [hhistory, hfree]
    exact h.queue_eq q
  · rw [hhistory, hsockets]
    exact h.number_lt
  · rw [hhistory]
    exact h.owned

theorem share (h : a.Guarded range initial pairs) (protocol : Protocol) (lease : Lease) :
    (a.share protocol lease).Guarded range initial pairs := by
  refine h.of_history_eq (stems_share h.stems protocol lease) (history_setPool _ _ _) (sockets_setPool _ _ _) ?_
  exact forall_pool (motive := fun q p => p.free = (a.pool q).free) (fun _ => rfl)
    (by rw [pool_share, Pool.free_share]) (pool_opposite_share a protocol lease)

/-- A lease can lose a holder if no socket pair has a lease on the same pair of ports when that was the last one. -/
theorem release (h : a.Guarded range initial pairs)
    (hlast : (a.pool protocol).regains lease = true → ∀ pair ∈ pairs, pair.protocol = protocol →
      pair.lease.index ≠ lease.index) : (a.release protocol lease).Guarded range initial pairs := by
  have hother := pool_opposite_release a protocol lease
  have hstems := stems_release h.stems protocol lease
  have hfree : ((a.pool protocol).release lease).free =
      if (a.pool protocol).regains lease then (a.pool protocol).free ++ [lease.index] else (a.pool protocol).free := rfl
  cases hr : (a.pool protocol).regains lease with
  | false =>
    have hquiet : a.release protocol lease = a.setPool ((a.pool protocol).release lease) protocol := by
      simp [Allocator.release, hr]
    refine h.of_history_eq hstems (by rw [hquiet, history_setPool]) (sockets_release a protocol lease) ?_
    exact forall_pool (motive := fun q p => p.free = (a.pool q).free) (fun _ => rfl) (by simp [hfree, hr]) hother
  | true =>
    have hhistory : (a.release protocol lease).history = .returned protocol lease :: a.history := by
      simp [release_eq_advance, hr]
    refine ⟨hstems, ?_, ?_, ?_, ?_⟩
    · rw [hhistory]
      refine h.orderly.returned fun earlier socket hs hindex hopen => ?_
      obtain ⟨pair, hp, hprotocol, rfl, -⟩ := h.owned _ _ _ hs hopen
      exact hlast hr pair hp hprotocol hindex
    · refine queue_eq_of_update protocol h.queue_eq ?_ hother
      rw [hhistory, queueAfter, h.queue_eq, pool_release, hfree, if_pos hr]
    · rw [hhistory, sockets_release]
      exact fun socket hs => h.number_lt socket (List.mem_of_ne_of_mem (by simp) hs)
    · rw [hhistory]
      exact h.owned

/-- The sockets of a socket pair are closed. -/
theorem closing (h : a.Guarded range initial pairs) (pair : SocketPair) :
    (a.advance (pair.sockets.reverse.map .closed) 0).Guarded range initial (pairs.erase pair) := by
  have hmem := mem_openSockets_closed h.orderly.nodup_openSockets pair.sockets.reverse
  refine ⟨by simpa using h.stems, h.orderly.closing _, ?_, ?_, ?_⟩
  · intro protocol
    rw [history_advance, queueAfter_closed, pool_advance]
    exact h.queue_eq protocol
  · intro socket hs
    exact h.number_lt socket (by simpa using hs)
  · intro protocol lease socket hs hopen
    rw [history_advance, openedFor_closed] at hs
    obtain ⟨hleft, hopen⟩ := (hmem.2 socket).1 hopen
    obtain ⟨owner, howner, hprotocol, hlease, howned⟩ := h.owned protocol lease socket hs hopen
    -- The socket is not one of those that were closed, so it belongs to another pair.
    have hne : owner ≠ pair := by
      rintro rfl
      exact hleft (List.mem_reverse.2 howned)
    exact ⟨owner, (List.mem_erase_of_ne hne).2 howner, hprotocol, hlease, howned⟩

end Guarded

end Allocator

namespace Tenancy

variable {factory : SocketFactory} {range : Protocol → PortRange} {s : Tenancy}

/-! ## What clients keep -/

/-- When the last holder of a lease lets go of it, no other lease that is held is on the same pair of ports. -/
theorem index_ne_of_regains {a : Allocator} {holdings : List (Protocol × Lease)} {range : PortRange}
    (hpool : (a.pool protocol).StemsFrom range) (h : a.HeldBy ((protocol, lease) :: holdings))
    (hlast : (a.pool protocol).regains lease = true) {other : Lease} (hm : (protocol, other) ∈ holdings) :
    other.index ≠ lease.index := by
  intro heq
  have hperm := h protocol
  rw [leasesOf_cons_self] at hperm
  have hother : other ∈ leasesOf protocol holdings := mem_leasesOf.2 hm
  have hlive : ∀ l ∈ lease :: leasesOf protocol holdings, l ∈ (a.pool protocol).live :=
    fun l hl => List.mem_dedup.2 (hperm.mem_iff.2 hl)
  have hsame : other = lease := hpool.balanced.eq_of_index_eq other (hlive _ (List.mem_cons_of_mem _ hother)) lease
    (hlive _ List.mem_cons_self) heq
  -- So the lease would have two holders.
  have hcount : (a.pool protocol).holders.count lease = 1 := by
    have hone : (a.pool protocol).isLastHolder lease = true := (Bool.and_eq_true_iff.1 hlast).1
    simpa [Pool.isLastHolder] using hone
  rw [hperm.count_eq, List.count_cons_self] at hcount
  rw [hsame] at hother
  have hpos := List.count_pos_iff.2 hother
  omega

/-- The allocator is guarded by the socket pairs that clients have, and they hold what is held of it. -/
structure Guarded (range : Protocol → PortRange) (initial : Protocol → List UInt16) (s : Tenancy) : Prop where
  allocator : s.allocator.Guarded range initial s.pairs
  heldBy : s.allocator.HeldBy s.holdings

namespace Guarded

/-- The lease of a socket pair is held as long as the pair is not closed. -/
theorem closePair (h : s.Guarded range initial) {pair : SocketPair} (hm : pair ∈ s.pairs) :
    (s.allocator.closePair pair).Guarded range initial (s.pairs.erase pair) := by
  rw [Allocator.closePair_eq_advance]
  refine (h.allocator.closing pair).release fun hlast other hother hprotocol => ?_
  rw [Allocator.pool_advance] at hlast
  refine index_ne_of_regains (h.allocator.stems pair.protocol) (heldBy_without_pair h.heldBy hm) hlast ?_
  refine List.mem_append_left _ (List.mem_map.2 ⟨other, hother, ?_⟩)
  rw [hprotocol]

theorem release (h : s.Guarded range initial) (hm : (protocol, lease) ∈ s.held) :
    (s.allocator.release protocol lease).Guarded range initial s.pairs := by
  refine h.allocator.release fun hlast other hother hprotocol => ?_
  refine index_ne_of_regains (h.allocator.stems protocol) (heldBy_without_lease h.heldBy hm) hlast ?_
  refine List.mem_append_left _ (List.mem_map.2 ⟨other, hother, ?_⟩)
  rw [hprotocol]

/-- Whatever a client does, the allocator stays guarded. -/
theorem act (h : s.Guarded range initial) (factory : SocketFactory) (action : Action) :
    (s.act factory action).Guarded range initial := by
  refine ⟨?_, heldBy_act factory (fun protocol => (h.allocator.stems protocol).inService) h.heldBy action⟩
  cases action with
  | openPair r =>
    have hopened := h.allocator.openPair factory r
    simp only [Tenancy.act]
    split
    · rename_i heq
      rwa [heq] at hopened
    · rename_i heq
      rwa [heq] at hopened
  | closePair pair =>
    simp only [Tenancy.act]
    split
    · rename_i hm
      exact h.closePair hm
    · exact h.allocator
  | reserve protocol =>
    simp only [Tenancy.act]
    split
    · rename_i heq
      exact h.allocator.reserve heq
    · exact h.allocator
  | share protocol lease =>
    simp only [Tenancy.act]
    split
    · exact h.allocator.share protocol lease
    · exact h.allocator
  | release protocol lease =>
    simp only [Tenancy.act]
    split
    · rename_i hm
      exact h.release hm
    · exact h.allocator

theorem run (h : s.Guarded range initial) (factory : SocketFactory) (actions : List Action) :
    (s.run factory actions).Guarded range initial := by
  induction actions generalizing s with
  | nil => exact h
  | cons action rest ih => exact ih (h.act factory action)

/-- A new allocator has no history. -/
theorem start {udp tcp : Pool} (hudp : udp.StemsFrom (range .udp)) (htcp : tcp.StemsFrom (range .tcp)) :
    (Tenancy.start udp tcp).Guarded range fun protocol => ((Tenancy.start udp tcp).allocator.pool protocol).free := by
  refine ⟨⟨stems_start hudp htcp, .nil, fun _ => rfl, ?_, ?_⟩, heldBy_start udp tcp⟩
  · intro socket hs
    cases hs
  · intro protocol lease socket hs
    exact hs.elim

end Guarded

/-! ## Free pairs -/

/-- What a history says of the free pairs and the sockets at its end and at every point before. -/
structure ClosedBeforeFree (initial : Protocol → List UInt16) (s : Tenancy) : Prop where
  /-- The history tells the queues as they are. -/
  queue_eq : ∀ protocol, queueAfter initial s.allocator.history protocol = (s.allocator.pool protocol).free
  /-- Every socket was opened for a lease, on one of its ports. -/
  exists_openedFor : ∀ socket, .opened socket ∈ s.allocator.history → ∃ protocol lease,
    OpenedFor s.allocator.history protocol lease socket ∧ socket.call.port ∈ [lease.rtpPort, lease.rtcpPort]
  /-- Behind every event, also between the events of one action, no socket is open that was opened for a free pair. -/
  noneOpenBehindFree : ∀ past, past <:+ s.allocator.history → NoneOpenBehindFree initial past

/-- Whatever clients do and whatever the factory answers, a pair of ports is free only when all sockets that were opened for it
are closed. -/
theorem run_closedBeforeFree (range : Protocol → PortRange) {udp tcp : Pool} (hudp : udp.StemsFrom (range .udp))
    (htcp : tcp.StemsFrom (range .tcp)) (factory : SocketFactory) (actions : List Action) :
    ((start udp tcp).run factory actions).ClosedBeforeFree fun protocol => ((start udp tcp).allocator.pool protocol).free := by
  have h := ((Guarded.start hudp htcp).run factory actions).allocator
  exact ⟨h.queue_eq, fun _ hs => h.orderly.exists_openedFor hs, fun _ hs => (h.orderly.of_suffix hs).noneOpenBehindFree⟩

/-- A socket pair on the third pair of ports of a range, after two refused attempts at a socket for TCP. -/
def thirdPair : SocketPair where
  protocol := .udp
  lease := ⟨2, 15015⟩
  rtp := ⟨4, .bindUdp 30030 "::1".toList true⟩
  rtcp := ⟨5, .bindUdp 30031 "::1".toList true⟩
  reservedRtp := ⟨6, .listenTcp 30030 "::1".toList⟩
  reservedRtcp := ⟨7, .listenTcp 30031 "::1".toList⟩

/-- Two pairs of ports go back after refusals, and the third with the last holder of its lease, after its sockets are closed. -/
theorem run_closedBeforeFree_of_busyTwice :
    ∃ udp tcp s, udp.StemsFrom ⟨30000, 30036⟩ ∧ tcp.StemsFrom ⟨30000, 30036⟩ ∧
      s = (start udp tcp).run Allocator.busyTwice [.openPair ⟨.udp, "::1".toList, true⟩, .share .udp ⟨2, 15015⟩,
        .closePair thirdPair, .release .udp ⟨2, 15015⟩] ∧
      s.ClosedBeforeFree (fun protocol => ((start udp tcp).allocator.pool protocol).free) ∧
      s.pairs = [] ∧ s.allocator.sockets = 8 ∧ openSockets s.allocator.history = [] ∧
      s.allocator.udp.free = (List.range' 15000 15).reverse.map UInt16.ofNat ++ [15017, 15016, 15015] := by
  have hstems : ∀ protocol, Pool.StemsFrom ⟨30000, 30036⟩
      { protocol, capacity := 18, free := (List.range' 15000 18).reverse.map UInt16.ofNat } := by
    intro protocol
    exact ⟨Nat.one_ne_zero, protocol, fun _ => 0, _, [], rfl, rfl⟩
  refine ⟨_, _, _, hstems .udp, hstems .tcp, rfl,
    run_closedBeforeFree (fun _ => ⟨30000, 30036⟩) (hstems .udp) (hstems .tcp) _ _, ?_⟩
  decide +kernel

end Tenancy

end MediaSession
