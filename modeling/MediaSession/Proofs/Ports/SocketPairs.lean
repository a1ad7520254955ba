import MediaSession.Proofs.Ports.Attempts
import Mathlib.Data.List.Rotate

/-!
# Socket pairs against any factory

The allocator makes up to three attempts. Each takes the pair at the front of the queue and, when it is refused, leaves it
at the end, so the attempts go round the queue: with fewer than three free pairs they come to the same pair again. Nothing
else is left of a refused attempt. This holds for every factory, whose answers may depend on all that has happened before.

The allocator is followed attempt by attempt: `Course` says what a run of attempts did, `Course.cons` adds a refused attempt
in front of a course, and the loop is one induction on the number of attempts that are left.
-/

namespace MediaSession

namespace Attempt

/-- The attempts follow one another from the given history and number of sockets: each got the answers that the factory
gives after those before it. -/
def Consecutive (factory : SocketFactory) (r : SocketRequest) : List SocketEvent → Nat → List Attempt → Prop
  | _, _, [] => True
  | past, number, t :: later =>
    t = made factory r past number t.lease ∧
      Consecutive factory r (t.events r.protocol ++ past) (number + t.opened.length) later

/-- The events of attempts one after the other, the latest first. -/
def story (protocol : Protocol) (attempts : List Attempt) : List SocketEvent := attempts.reverse.flatMap (events protocol)

theorem story_cons (protocol : Protocol) (t : Attempt) (attempts : List Attempt) :
    story protocol (t :: attempts) = story protocol attempts ++ t.events protocol := by
  simp [story]

end Attempt

namespace Allocator

/-- What at most `limit` attempts did: some were refused, and the last one was granted or was refused as well. -/
structure Course (factory : SocketFactory) (r : SocketRequest) (limit : Nat) (a : Allocator) (failed : List Attempt)
    (last : Attempt) (result : Except Error SocketPair) (b : Allocator) : Prop where
  length_lt : failed.length < limit
  /-- The attempts before the last were refused. -/
  refused : ∀ t ∈ failed, t.refusal?.isSome
  /-- The attempts take the pairs of the queue in order, and from its front again after its end. -/
  turn : ∀ k (hk : k < (failed ++ [last]).length),
    (a.pool r.protocol).free[k % (a.pool r.protocol).free.length]? = some (failed ++ [last])[k].lease.index
  /-- Each attempt makes its requests in order up to the first refusal, and the factory knows what happened before. -/
  consecutive : Attempt.Consecutive factory r a.history a.sockets (failed ++ [last])
  history_eq : b.history = Attempt.story r.protocol (failed ++ [last]) ++ a.history
  /-- The other pool is not touched. -/
  pool_opposite : b.pool r.protocol.opposite = a.pool r.protocol.opposite
  /-- When the last attempt was granted, its four sockets and its pair are held, and nothing else is left of the course. -/
  granted : last.refusal? = none →
    (∃ rtp rtcp reservedRtp reservedRtcp, last.opened = [rtp, rtcp, reservedRtp, reservedRtcp] ∧
      result = .ok ⟨r.protocol, last.lease, rtp, rtcp, reservedRtp, reservedRtcp⟩) ∧
    last.opened.map (·.call) = r.calls last.lease ∧
    openSockets b.history = last.opened.reverse ++ openSockets a.history ∧
    b.pool r.protocol = { a.pool r.protocol with
      free := ((a.pool r.protocol).free.rotate failed.length).tail
      holders := last.lease :: (a.pool r.protocol).holders
      leases := (a.pool r.protocol).leases + failed.length + 1 }
  /-- When the last attempt was refused too, all attempts are used up and nothing is left of them. -/
  exhausted : ∀ call reason, last.refusal? = some (call, reason) →
    failed.length + 1 = limit ∧
    result = .error (.socketRefused call.protocol call.port reason) ∧
    openSockets b.history = openSockets a.history ∧
    b.pool r.protocol = { a.pool r.protocol with
      free := (a.pool r.protocol).free.rotate limit
      leases := (a.pool r.protocol).leases + limit }

variable {factory : SocketFactory} {r : SocketRequest} {a b : Allocator} {index : UInt16} {rest : List UInt16} {limit : Nat}

/-- The pair of a first attempt is the first in turn. -/
theorem turn_zero (hfree : (a.pool r.protocol).free = index :: rest) {t : Attempt}
    (hlease : t.lease = (a.pool r.protocol).nextLease index) :
    (a.pool r.protocol).free[0 % (a.pool r.protocol).free.length]? = some t.lease.index := by
  rw [Nat.zero_mod, hfree, hlease]
  rfl

/-- A course of one attempt takes the first pair. -/
theorem turn_singleton (hfree : (a.pool r.protocol).free = index :: rest) {t : Attempt}
    (hlease : t.lease = (a.pool r.protocol).nextLease index) (k : Nat) (hk : k < [t].length) :
    (a.pool r.protocol).free[k % (a.pool r.protocol).free.length]? = some [t][k].lease.index := by
  obtain rfl : k = 0 := by simpa using hk
  exact turn_zero hfree hlease

/-- A granted attempt is a course by itself. -/
theorem Course.of_granted (h : (a.pool r.protocol).InService) (hfree : (a.pool r.protocol).free = index :: rest)
    {t : Attempt} (ht : t = .made factory r a.history a.sockets ((a.pool r.protocol).nextLease index))
    (hgranted : t.refusal? = none) (hlimit : 0 < limit) :
    Course factory r limit a [] t (a.attempt factory r).1 (a.attempt factory r).2 := by
  obtain ⟨rtp, rtcp, reservedRtp, reservedRtcp, hopened, heq⟩ := attempt_of_granted h hfree ht hgranted
  have hlease : t.lease = (a.pool r.protocol).nextLease index := by rw [ht]; rfl
  have hanswers : factory.answers (.reserved r.protocol ((a.pool r.protocol).nextLease index) :: a.history) a.sockets
      (r.calls t.lease) = (t.opened, none) := by
    rw [← hgranted, hlease, ht]
    rfl
  have hcalls : t.opened.map (·.call) = r.calls t.lease := SocketFactory.answers_granted hanswers
  rw [heq]
  refine ⟨hlimit, by simp, turn_singleton hfree hlease, ⟨by rw [hlease]; exact ht, trivial⟩, by simp [Attempt.story],
    by simp, fun _ => ⟨⟨rtp, rtcp, reservedRtp, reservedRtcp, hopened, rfl⟩, hcalls, ?_, ?_⟩, by simp [hgranted]⟩
  · simp [Attempt.openSockets_events, hgranted]
  · simp [Pool.holding, hfree, hlease]

/-- A refused attempt is a course by itself when it is the only one. -/
theorem Course.of_refused (h : (a.pool r.protocol).InService) (hfree : (a.pool r.protocol).free = index :: rest)
    {t : Attempt} (ht : t = .made factory r a.history a.sockets ((a.pool r.protocol).nextLease index))
    {call : SocketCall} {reason : String} (hrefused : t.refusal? = some (call, reason)) :
    Course factory r 1 a [] t (a.attempt factory r).1 (a.attempt factory r).2 := by
  have hlease : t.lease = (a.pool r.protocol).nextLease index := by rw [ht]; rfl
  rw [attempt_of_refused h hfree ht hrefused]
  refine ⟨Nat.one_pos, by simp, turn_singleton hfree hlease, ⟨by rw [hlease]; exact ht, trivial⟩, by simp [Attempt.story],
    by simp, by simp [hrefused], ?_⟩
  intro call' reason' hrefused'
  obtain ⟨rfl, rfl⟩ : call = call' ∧ reason = reason' := by simpa [hrefused] using hrefused'
  refine ⟨rfl, rfl, ?_, ?_⟩
  · simp [Attempt.openSockets_events, hrefused]
  · simp [hfree]

/-- A refused attempt before a course makes a longer course: its pair is the last of the queue then. -/
theorem Course.cons (hfree : (a.pool r.protocol).free = index :: rest)
    {t : Attempt} (ht : t = .made factory r a.history a.sockets ((a.pool r.protocol).nextLease index))
    (hrefused : t.refusal?.isSome) {failed : List Attempt} {last : Attempt} {result : Except Error SocketPair}
    (hc : Course factory r limit ((a.advance (t.events r.protocol) t.opened.length).setPool
      { a.pool r.protocol with free := rest ++ [index], leases := (a.pool r.protocol).leases + 1 } r.protocol)
      failed last result b) :
    Course factory r (limit + 1) a (t :: failed) last result b := by
  have hlease : t.lease = (a.pool r.protocol).nextLease index := by rw [ht]; rfl
  have hrotate : rest ++ [index] = (a.pool r.protocol).free.rotate 1 := by simp [hfree]
  have hopen : openSockets (t.events r.protocol ++ a.history) = openSockets a.history := by
    rw [Attempt.openSockets_events, if_pos hrefused]
  obtain ⟨hlength, hfailed, hturn, hconsecutive, hhistory, hopposite, hgranted, hexhausted⟩ := hc
  simp only [pool_setPool, history_setPool, sockets_setPool, history_advance, sockets_advance, pool_opposite_setPool,
    pool_advance, hopen, hrotate, List.rotate_rotate] at hturn hconsecutive hhistory hopposite hgranted hexhausted
  refine ⟨Nat.succ_lt_succ hlength, ?_, ?_, ⟨by rw [hlease]; exact ht, hconsecutive⟩, ?_, hopposite, ?_, ?_⟩
  · intro u hu
    rcases List.mem_cons.1 hu with rfl | hu
    · exact hrefused
    · exact hfailed u hu
  · intro k hk
    cases k with
    | zero => exact turn_zero hfree hlease
    | succ k =>
      have hk' : k < (failed ++ [last]).length := by simpa using hk
      have hlt : k % (a.pool r.protocol).free.length < (a.pool r.protocol).free.length :=
        Nat.mod_lt _ (by rw [hfree]; simp)
      have hnext := hturn k hk'
      rw [List.length_rotate, List.getElem?_rotate hlt, Nat.mod_add_mod] at hnext
      simpa using hnext
  · rw [hhistory, List.cons_append, Attempt.story_cons, List.append_assoc]
  · intro hlast
    obtain ⟨hresult, hcalls, hsockets, hpool⟩ := hgranted hlast
    refine ⟨hresult, hcalls, hsockets, hpool.trans ?_⟩
    simp [Nat.add_comm 1, Nat.add_assoc, Nat.add_left_comm]
  · intro call reason hlast
    obtain ⟨hcount, hresult, hsockets, hpool⟩ := hexhausted call reason hlast
    refine ⟨by simp [hcount], hresult, hsockets, hpool.trans ?_⟩
    simp [Nat.add_comm 1, Nat.add_assoc]

/-- A refused attempt leaves a pool that can serve, and its queue is not empty. -/
theorem inService_of_refused {p : Pool} (h : p.InService) (hfree : p.free = index :: rest) :
    Pool.InService { p with free := rest ++ [index], leases := p.leases + 1 } := by
  refine ⟨h.handles_ne_zero, fun lease hl => Nat.lt_succ_of_lt (h.number_lt lease hl), ?_⟩
  intro i hi
  refine h.port_lt i ?_
  rw [hfree]
  simpa [or_comm] using hi

/-- The loop makes a course of attempts. -/
theorem exists_course_attemptAgain (factory : SocketFactory) (r : SocketRequest) (n : Nat) (a : Allocator)
    (h : (a.pool r.protocol).InService) (hne : (a.pool r.protocol).free ≠ []) :
    ∃ failed last, Course factory r (n + 1) a failed last (attemptAgain factory r n a).1 (attemptAgain factory r n a).2 := by
  induction n generalizing a with
  | zero =>
    obtain ⟨index, rest, hfree⟩ := List.exists_cons_of_ne_nil hne
    rw [attemptAgain]
    cases hrefusal : (Attempt.made factory r a.history a.sockets ((a.pool r.protocol).nextLease index)).refusal? with
    | none => exact ⟨[], _, .of_granted h hfree rfl hrefusal Nat.one_pos⟩
    | some refusal => exact ⟨[], _, .of_refused h hfree rfl hrefusal⟩
  | succ n ih =>
    obtain ⟨index, rest, hfree⟩ := List.exists_cons_of_ne_nil hne
    rw [attemptAgain]
    cases hrefusal : (Attempt.made factory r a.history a.sockets ((a.pool r.protocol).nextLease index)).refusal? with
    | none =>
      obtain ⟨rtp, rtcp, reservedRtp, reservedRtcp, -, heq⟩ := attempt_of_granted h hfree rfl hrefusal
      have hc : Course factory r (n + 2) a [] _ _ _ := .of_granted h hfree rfl hrefusal (Nat.succ_pos _)
      rw [heq] at hc ⊢
      exact ⟨[], _, hc⟩
    | some refusal =>
      rw [attempt_of_refused h hfree rfl hrefusal]
      generalize ht : Attempt.made factory r a.history a.sockets ((a.pool r.protocol).nextLease index) = t at hrefusal
      obtain ⟨failed, last, hc⟩ := ih ((a.advance (t.events r.protocol) t.opened.length).setPool
          { a.pool r.protocol with free := rest ++ [index], leases := (a.pool r.protocol).leases + 1 } r.protocol)
        (by rw [pool_setPool]; exact inService_of_refused h hfree) (by rw [pool_setPool]; simp)
      exact ⟨t :: failed, last, hc.cons hfree ht.symm (by rw [hrefusal]; rfl)⟩

/-- Opening a socket pair, whatever the factory answers, in two parts.
1. With no free pair there is no request: the allocator stays as it is, and the error says which pool is exhausted.
2. Otherwise there is a course of at most three attempts. The pair that is tried has its two ports, and the four requests
   are for the protocol on the first and the second port and then for the other protocol on the same ports. The free pairs
   after three refusals are those before. -/
theorem openPair_any_factory (factory : SocketFactory) (r : SocketRequest) (a : Allocator)
    (h : (a.pool r.protocol).InService) :
    ((a.pool r.protocol).free = [] → a.openPair factory r = (.error (.poolExhausted r.protocol), a)) ∧
    ((a.pool r.protocol).free ≠ [] → ∃ failed last,
      Course factory r 3 a failed last (a.openPair factory r).1 (a.openPair factory r).2 ∧
      (∀ t ∈ failed ++ [last], t.lease.rtpPort.toNat = 2 * t.lease.index.toNat ∧
        t.lease.rtcpPort.toNat = 2 * t.lease.index.toNat + 1 ∧
        (r.calls t.lease).map (fun call => (call.protocol, call.port)) =
          [(r.protocol, t.lease.rtpPort), (r.protocol, t.lease.rtcpPort), (r.protocol.opposite, t.lease.rtpPort),
            (r.protocol.opposite, t.lease.rtcpPort)]) ∧
      (last.refusal?.isSome →
        (((a.openPair factory r).2.pool r.protocol).free).Perm (a.pool r.protocol).free)) := by
  constructor
  · intro hempty
    have hattempt : a.attempt factory r = (.error (.poolExhausted r.protocol), a) := attempt_of_empty hempty
    simp [openPair, maxAttempts, attemptAgain, hattempt]
  · intro hne
    obtain ⟨failed, last, hc⟩ := exists_course_attemptAgain factory r 2 a h hne
    refine ⟨failed, last, hc, ?_, ?_⟩
    · intro t ht
      obtain ⟨k, hk, rfl⟩ := List.getElem_of_mem ht
      obtain ⟨hrtp, hrtcp⟩ := Lease.toNat_ports (h.port_lt _ (List.mem_of_getElem? (hc.turn k hk)))
      exact ⟨hrtp, hrtcp, r.map_calls _⟩
    · intro hrefused
      obtain ⟨⟨call, reason⟩, hlast⟩ := Option.isSome_iff_exists.1 hrefused
      have hpool := (hc.exhausted call reason hlast).2.2.2
      rw [openPair, maxAttempts, hpool]
      exact List.rotate_perm _ _

/-- An allocator with two free pairs for UDP; the other sixteen of the range are held. -/
def twoFree : Allocator :=
  let held := (List.range 16).map fun k => Lease.mk k (UInt16.ofNat (15002 + k))
  { udp := { protocol := .udp, capacity := 18, free := [15000, 15001], holders := held, leases := 16 }
    tcp := { protocol := .tcp, capacity := 18, free := [15003] } }

/-- A factory that refuses the first two requests for TCP after whatever else has been refused. -/
def busyTwice : SocketFactory := fun past call =>
  if call.protocol = .tcp ∧ past.countP (fun event => event matches .refused ..) < 2 then some "busy" else none

/-- The third attempt comes to the first pair again, and is granted. -/
theorem openPair_any_factory_of_busyTwice :
    (twoFree.pool .udp).InService ∧ (twoFree.pool .udp).free ≠ [] ∧
      (∃ failed last, Course busyTwice ⟨.udp, "::1".toList, true⟩ 3 twoFree failed last
        (twoFree.openPair busyTwice ⟨.udp, "::1".toList, true⟩).1 (twoFree.openPair busyTwice ⟨.udp, "::1".toList, true⟩).2) ∧
      ((twoFree.openPair busyTwice ⟨.udp, "::1".toList, true⟩).2.pool .udp).free = [15001] ∧
      ((openSockets (twoFree.openPair busyTwice ⟨.udp, "::1".toList, true⟩).2.history).map fun s => (s.number, s.call.port)) =
        [(7, 30001), (6, 30000), (5, 30001), (4, 30000)] := by
  have hservice : (twoFree.pool .udp).InService := by
    refine ⟨by decide, by decide, ?_⟩
    intro index hi
    obtain rfl | rfl : index = 15000 ∨ index = 15001 := by simpa [pool, twoFree] using hi
    · decide
    · decide
  have hfree : (twoFree.pool .udp).free ≠ [] := by decide
  obtain ⟨failed, last, hc, -, -⟩ :=
    (openPair_any_factory busyTwice ⟨.udp, "::1".toList, true⟩ twoFree hservice).2 hfree
  exact ⟨hservice, hfree, ⟨failed, last, hc⟩, by decide +kernel, by decide +kernel⟩

end Allocator

end MediaSession
