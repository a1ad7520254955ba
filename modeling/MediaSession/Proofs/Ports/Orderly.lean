import MediaSession.Proofs.Ports.Attempts
import Mathlib.Logic.Function.Basic

/-!
# Orderly histories

The events of an allocator tell which pairs of ports are free, which sockets are open and for which lease each was opened. A
history is orderly when a pair goes back to its queue only after the sockets that were opened for it are closed. Then no socket is
open behind a free pair (`Orderly.noneOpenBehindFree`), and as everything behind an event of an orderly history is orderly too,
this holds not only at the end of it but at every point (`Orderly.of_suffix`).
-/

namespace MediaSession

/-! ## Queues and sockets told from a history -/

/-- The queues of the pools after a history that began with the given ones, as its events tell. -/
def queueAfter (initial : Protocol → List UInt16) : List SocketEvent → Protocol → List UInt16
  | [] => initial
  | .reserved protocol lease :: past =>
    Function.update (queueAfter initial past) protocol ((queueAfter initial past protocol).erase lease.index)
  | .returned protocol lease :: past =>
    Function.update (queueAfter initial past) protocol (queueAfter initial past protocol ++ [lease.index])
  | _ :: past => queueAfter initial past

/-- The pair of ports that was taken last, with the protocol of its pool. -/
def lastReserved? : List SocketEvent → Option (Protocol × Lease)
  | [] => none
  | .reserved protocol lease :: _ => some (protocol, lease)
  | _ :: past => lastReserved? past

/-- Whether a socket was opened for a lease: that of the last reservation before the socket. -/
def OpenedFor : List SocketEvent → Protocol → Lease → Socket → Prop
  | [], _, _, _ => False
  | .opened other :: past, protocol, lease, socket =>
    (other = socket ∧ lastReserved? past = some (protocol, lease)) ∨ OpenedFor past protocol lease socket
  | _ :: past, protocol, lease, socket => OpenedFor past protocol lease socket

/-- No socket that was opened for a pair of ports is open while the pair is free. -/
def NoneOpenBehindFree (initial : Protocol → List UInt16) (past : List SocketEvent) : Prop :=
  ∀ protocol lease socket, OpenedFor past protocol lease socket → lease.index ∈ queueAfter initial past protocol →
    socket ∉ openSockets past

variable {initial : Protocol → List UInt16} {past history : List SocketEvent} {protocol : Protocol} {lease : Lease}
  {socket : Socket} {sockets : List Socket}

theorem opened_mem_of_openedFor (h : OpenedFor past protocol lease socket) : .opened socket ∈ past := by
  induction past with
  | nil => exact h.elim
  | cons event past ih =>
    cases event with
    | opened other =>
      rcases h with ⟨rfl, -⟩ | h
      · exact List.mem_cons_self
      · exact List.mem_cons_of_mem _ (ih h)
    | _ => exact List.mem_cons_of_mem _ (ih h)

theorem opened_mem_of_mem_openSockets (h : socket ∈ openSockets past) : .opened socket ∈ past := by
  induction past with
  | nil => cases h
  | cons event past ih =>
    cases event with
    | opened other =>
      rcases List.mem_cons.1 h with rfl | h
      · exact List.mem_cons_self
      · exact List.mem_cons_of_mem _ (ih h)
    | closed other => exact List.mem_cons_of_mem _ (ih (List.mem_of_mem_erase h))
    | _ => exact List.mem_cons_of_mem _ (ih h)

theorem queueAfter_refused (call : SocketCall) (reason : String) (past : List SocketEvent) :
    queueAfter initial (.refused call reason :: past) = queueAfter initial past := rfl

/-! ### Sockets that are opened or closed one after the other -/

@[simp] theorem queueAfter_opened (sockets : List Socket) (past : List SocketEvent) :
    queueAfter initial (sockets.map .opened ++ past) = queueAfter initial past := by
  induction sockets with
  | nil => rfl
  | cons socket rest ih => exact ih

@[simp] theorem queueAfter_closed (sockets : List Socket) (past : List SocketEvent) :
    queueAfter initial (sockets.map .closed ++ past) = queueAfter initial past := by
  induction sockets with
  | nil => rfl
  | cons socket rest ih => exact ih

/-- A socket among some that are opened for one lease, or one from before. -/
theorem openedFor_opened (h : OpenedFor (sockets.map .opened ++ past) protocol lease socket) :
    (socket ∈ sockets ∧ lastReserved? past = some (protocol, lease)) ∨ OpenedFor past protocol lease socket := by
  have hlast : ∀ opened : List Socket, lastReserved? (opened.map .opened ++ past) = lastReserved? past := by
    intro opened
    induction opened with
    | nil => rfl
    | cons _ _ ih => exact ih
  induction sockets with
  | nil => exact Or.inr h
  | cons other rest ih =>
    rcases h with ⟨rfl, hreserved⟩ | h
    · exact Or.inl ⟨List.mem_cons_self, (hlast rest).symm.trans hreserved⟩
    · rcases ih h with ⟨hm, hreserved⟩ | hpast
      · exact Or.inl ⟨List.mem_cons_of_mem _ hm, hreserved⟩
      · exact Or.inr hpast

theorem openedFor_closed :
    OpenedFor (sockets.map .closed ++ past) protocol lease socket ↔ OpenedFor past protocol lease socket := by
  induction sockets with
  | nil => exact Iff.rfl
  | cons other rest ih => exact ih

/-- Of sockets that are all different, those that are closed are no longer open and the others are. -/
theorem mem_openSockets_closed (h : (openSockets past).Nodup) (sockets : List Socket) :
    (openSockets (sockets.map .closed ++ past)).Nodup ∧
      ∀ socket, socket ∈ openSockets (sockets.map .closed ++ past) ↔ socket ∉ sockets ∧ socket ∈ openSockets past := by
  induction sockets with
  | nil => exact ⟨h, by simp⟩
  | cons other rest ih =>
    obtain ⟨hnodup, hmem⟩ := ih
    refine ⟨hnodup.erase other, fun socket => ?_⟩
    rw [List.map_cons, List.cons_append, openSockets, hnodup.mem_erase_iff, hmem, List.mem_cons, not_or, and_assoc]

/-! ## Orderly histories -/

/-- Histories in which a socket is opened, under a new number, on a port of the pair that was taken last and that is not free,
and in which a pair goes back only when all sockets that were opened for it are closed. -/
inductive Orderly (initial : Protocol → List UInt16) : List SocketEvent → Prop where
  | nil : Orderly initial []
  | reserved {past : List SocketEvent} (h : Orderly initial past) (protocol : Protocol) (lease : Lease) :
    Orderly initial (.reserved protocol lease :: past)
  | returned {past : List SocketEvent} {protocol : Protocol} {lease : Lease} (h : Orderly initial past)
    (hclosed : ∀ earlier socket, OpenedFor past protocol earlier socket → earlier.index = lease.index →
      socket ∉ openSockets past) : Orderly initial (.returned protocol lease :: past)
  | opened {past : List SocketEvent} {protocol : Protocol} {lease : Lease} {socket : Socket} (h : Orderly initial past)
    (hnew : ∀ other, .opened other ∈ past → other.number < socket.number)
    (hlast : lastReserved? past = some (protocol, lease)) (hheld : lease.index ∉ queueAfter initial past protocol)
    (hport : socket.call.port ∈ [lease.rtpPort, lease.rtcpPort]) : Orderly initial (.opened socket :: past)
  | refused {past : List SocketEvent} (h : Orderly initial past) (call : SocketCall) (reason : String) :
    Orderly initial (.refused call reason :: past)
  | closed {past : List SocketEvent} (h : Orderly initial past) (socket : Socket) : Orderly initial (.closed socket :: past)

namespace Orderly

/-- In an orderly history no socket is open behind a free pair. -/
theorem noneOpenBehindFree (h : Orderly initial past) : NoneOpenBehindFree initial past := by
  induction h with
  | nil =>
    intro _ _ _ hopened
    exact hopened.elim
  | refused _ _ _ ih => exact ih
  | closed _ _ ih =>
    intro protocol lease socket hopened hfree hopen
    exact ih protocol lease socket hopened hfree (List.mem_of_mem_erase hopen)
  | reserved _ taken lease' ih =>
    -- A queue that loses a pair has no new ones.
    intro protocol lease socket hopened hfree
    refine ih protocol lease socket hopened ?_
    rw [queueAfter] at hfree
    by_cases hown : protocol = taken
    · subst hown
      rw [Function.update_self] at hfree
      exact List.mem_of_mem_erase hfree
    · rwa [Function.update_of_ne hown] at hfree
  | @returned past given lease' _ hclosed ih =>
    intro protocol lease socket hopened hfree
    rw [queueAfter] at hfree
    by_cases hown : protocol = given
    · subst hown
      rw [Function.update_self] at hfree
      rcases List.mem_append.1 hfree with hfree | hback
      · exact ih protocol lease socket hopened hfree
      · exact hclosed lease socket hopened (List.mem_singleton.1 hback)
    · rw [Function.update_of_ne hown] at hfree
      exact ih protocol lease socket hopened hfree
  | @opened past taken lease' other _ hnew hlast hheld _ ih =>
    rintro protocol lease socket (⟨rfl, hsame⟩ | hopened) hfree hopen
    · rw [hlast, Option.some.injEq, Prod.mk.injEq] at hsame
      obtain ⟨rfl, rfl⟩ := hsame
      exact hheld hfree
    · rcases List.mem_cons.1 hopen with rfl | hopen
      · exact Nat.lt_irrefl _ (hnew _ (opened_mem_of_openedFor hopened))
      · exact ih protocol lease socket hopened hfree hopen

theorem tail {event : SocketEvent} (h : Orderly initial (event :: past)) : Orderly initial past := by
  cases h <;> assumption

/-- What stands behind an event of an orderly history is one too. -/
theorem of_suffix (h : Orderly initial history) (hs : past <:+ history) : Orderly initial past := by
  induction history with
  | nil =>
    rw [List.suffix_nil.1 hs]
    exact h
  | cons event history ih =>
    rcases List.suffix_cons_iff.1 hs with rfl | hs
    · exact h
    · exact ih h.tail hs

/-- No socket is open twice, because each has a new number. -/
theorem nodup_openSockets (h : Orderly initial past) : (openSockets past).Nodup := by
  induction h with
  | nil => exact List.nodup_nil
  | reserved _ _ _ ih => exact ih
  | returned _ _ ih => exact ih
  | refused _ _ _ ih => exact ih
  | closed _ _ ih => exact ih.erase _
  | opened _ hnew _ _ _ ih =>
    refine List.nodup_cons.2 ⟨fun hm => ?_, ih⟩
    exact Nat.lt_irrefl _ (hnew _ (opened_mem_of_mem_openSockets hm))

/-- Every socket was opened for some lease, on one of its ports. -/
theorem exists_openedFor (h : Orderly initial past) (hs : .opened socket ∈ past) :
    ∃ protocol lease, OpenedFor past protocol lease socket ∧ socket.call.port ∈ [lease.rtpPort, lease.rtcpPort] := by
  induction h with
  | nil => cases hs
  | opened _ _ hlast _ hport ih =>
    rcases List.mem_cons.1 hs with heq | hs
    · obtain rfl := SocketEvent.opened.inj heq
      exact ⟨_, _, Or.inl ⟨rfl, hlast⟩, hport⟩
    · obtain ⟨protocol, lease, hopened, hon⟩ := ih hs
      exact ⟨protocol, lease, Or.inr hopened, hon⟩
  | reserved _ _ _ ih => exact ih (List.mem_of_ne_of_mem (by simp) hs)
  | returned _ _ ih => exact ih (List.mem_of_ne_of_mem (by simp) hs)
  | refused _ _ _ ih => exact ih (List.mem_of_ne_of_mem (by simp) hs)
  | closed _ _ ih => exact ih (List.mem_of_ne_of_mem (by simp) hs)

theorem closing (h : Orderly initial past) (sockets : List Socket) : Orderly initial (sockets.map .closed ++ past) := by
  induction sockets with
  | nil => exact h
  | cons socket rest ih => exact ih.closed socket

end Orderly

end MediaSession
