import MediaSession.Proofs.Ports.RangePorts
import Mathlib.Data.List.Induction
import Mathlib.Data.List.Perm.Basic
import Mathlib.Data.Set.Function

/-!
# The order that a pool starts with

The queue of a new pool is filled item by item. The place of an item is drawn when the one before it has been put in, among
the places that the queue has by then, so no place is ever beyond the end of the queue (`fill?_eq_some`).

Each order of the items comes from exactly one way to choose the places. The item that was put in last stands where its place
was chosen, and without it the queue is that of the items before it; so the choices are read off an order from the last item
back to the first (`place_eq_of_arrange_eq`), and they can be made so that any order comes out (`exists_arrange_eq`).
-/

namespace MediaSession

namespace Shuffle

variable {α : Type}

/-! ## Item by item -/

/-- Puts an item at a place of a queue, if the queue has this place. -/
def insertAt? (queue : List α) (place : Nat) (x : α) : Option (List α) :=
  if place ≤ queue.length then some (queue.insertIdx place x) else none

/-- Fills a queue, the first item at the given place. After each item the next random number is drawn, and its remainder by the
number of places of the queue as it is then is the place of the next item. The numbers before `drawn` have been used. -/
def fill? (random : Nat → UInt32) : Nat → Nat → List α → List α → Option (List α)
  | _, _, queue, [] => some queue
  | drawn, place, queue, x :: rest =>
    (insertAt? queue place x).bind fun queue =>
      fill? random (drawn + 1) ((random drawn).toNat % (queue.length + 1)) queue rest

/-- As many numbers have been used as there are items in the queue, so the queue has every place that is drawn. -/
theorem fill?_eq_some (random : Nat → UInt32) (items : List α) : ∀ queue : List α,
    fill? random queue.length (placeOf random queue.length) queue items =
      some (arrangeFrom (placeOf random) queue.length queue items) := by
  induction items with
  | nil =>
    intro queue
    rfl
  | cons x rest ih =>
    intro queue
    have hplace := placeOf_le random queue.length
    have hnext := ih (queue.insertIdx (placeOf random queue.length) x)
    rw [List.length_insertIdx_of_le_length hplace] at hnext
    rw [fill?, insertAt?, if_pos hplace, Option.bind_some, List.length_insertIdx_of_le_length hplace]
    exact hnext

/-! ## Choices -/

/-- What is chosen for a queue of `n` items: for the item after `k` others, one of the `k + 1` places there are by then. The
first item has no choice. -/
abbrev Choices (n : Nat) : Type := (k : Fin n) → Fin (k + 1)

namespace Choices

variable {n : Nat}

/-- The place of the item after `k` others. -/
def place (c : Choices n) (k : Nat) : Nat := if h : k < n then c ⟨k, h⟩ else 0

/-- Places that there are, as choices. -/
def ofPlaces (place : Nat → Nat) (h : ∀ k, place k ≤ k) : Choices n := fun k => ⟨place k, Nat.lt_succ_of_le (h k)⟩

/-- What a sequence of random numbers chooses. -/
def drawn (random : Nat → UInt32) : Choices n := ofPlaces (placeOf random) (placeOf_le random)

theorem place_of_lt (c : Choices n) {k : Nat} (hk : k < n) : c.place k = c ⟨k, hk⟩ := dif_pos hk

theorem place_ofPlaces {place : Nat → Nat} (h : ∀ k, place k ≤ k) {k : Nat} (hk : k < n) :
    (ofPlaces place h : Choices n).place k = place k := dif_pos hk

theorem place_le (c : Choices n) (k : Nat) : c.place k ≤ k := by
  unfold place
  split
  · exact Nat.le_of_lt_succ (c _).isLt
  · exact Nat.zero_le k

end Choices

/-! ## Orders -/

/-- A queue is filled with some items and then with more. -/
theorem arrangeFrom_append (place : Nat → Nat) (items more : List α) (k : Nat) (queue : List α) :
    arrangeFrom place k queue (items ++ more) =
      arrangeFrom place (k + items.length) (arrangeFrom place k queue items) more := by
  induction items generalizing k queue with
  | nil => rfl
  | cons x rest ih =>
    rw [List.cons_append, arrangeFrom, ih, arrangeFrom, List.length_cons]
    congr 1
    omega

/-- The last item is put into the queue of those before it. -/
theorem arrange_concat (place : Nat → Nat) (items : List α) (x : α) :
    arrange place (items ++ [x]) = (arrange place items).insertIdx (place items.length) x := by
  rw [arrange, arrangeFrom_append, Nat.zero_add]
  rfl

theorem arrange_perm {place : Nat → Nat} (h : ∀ k, place k ≤ k) (items : List α) : (arrange place items).Perm items :=
  arrangeFrom_perm h items []

/-- Only the places of the items count. -/
theorem arrange_congr {p q : Nat → Nat} {items : List α} (h : ∀ k < items.length, p k = q k) :
    arrange p items = arrange q items := by
  induction items using List.reverseRecOn with
  | nil => rfl
  | append_singleton items x ih =>
    have hitems : ∀ k < items.length, p k = q k := by
      intro k hk
      exact h k (by simp; omega)
    rw [arrange_concat, arrange_concat, ih hitems, h items.length (by simp)]

/-- Where an item stands only once, its place can be told, and so can the queue without it. -/
theorem eq_of_insertIdx_eq {q r : List α} {i j : Nat} {x : α} (hnodup : (q.insertIdx i x).Nodup) (hi : i ≤ q.length)
    (hj : j ≤ r.length) (h : q.insertIdx i x = r.insertIdx j x) : i = j ∧ q = r := by
  have hself : ∀ {l : List α} {k : Nat}, k ≤ l.length → (l.insertIdx k x)[k]? = some x := by
    intro l k hk
    rw [List.getElem?_insertIdx_self, if_pos hk]
  have hlen : (q.insertIdx i x).length = q.length + 1 := List.length_insertIdx_of_le_length hi x
  have hplace : i = j := by
    refine (List.getElem?_inj (by omega) hnodup).1 ?_
    rw [hself hi, h, hself hj]
  subst hplace
  exact ⟨rfl, List.insertIdx_injective i x h⟩

/-- An order tells the place that was chosen for each item. -/
theorem place_eq_of_arrange_eq {p q : Nat → Nat} (hp : ∀ k, p k ≤ k) (hq : ∀ k, q k ≤ k) {items : List α}
    (hnodup : items.Nodup) (h : arrange p items = arrange q items) : ∀ k < items.length, p k = q k := by
  induction items using List.reverseRecOn with
  | nil =>
    intro k hk
    exact absurd hk (Nat.not_lt_zero k)
  | append_singleton items x ih =>
    have hqueue : (arrange p (items ++ [x])).Nodup := (arrange_perm hp _).nodup_iff.2 hnodup
    rw [arrange_concat] at hqueue h
    rw [arrange_concat] at h
    obtain ⟨hlast, hbefore⟩ := eq_of_insertIdx_eq hqueue (by rw [(arrange_perm hp items).length_eq]; exact hp _)
      (by rw [(arrange_perm hq items).length_eq]; exact hq _) h
    intro k hk
    rw [List.length_append, List.length_singleton] at hk
    rcases Nat.lt_succ_iff_lt_or_eq.1 hk with hk | rfl
    · exact ih (List.nodup_append.1 hnodup).1 hbefore k hk
    · exact hlast

/-- An item of an order can be taken out and put back at a place that the others have. -/
theorem exists_insertIdx_eq {items order : List α} {x : α} (h : order.Perm (items ++ [x])) :
    ∃ i ≤ items.length, ∃ others : List α, others.Perm items ∧ others.insertIdx i x = order := by
  obtain ⟨i, hi, rfl⟩ := List.mem_iff_getElem.1 (h.mem_iff.2 (List.mem_append_right items List.mem_cons_self))
  have hlen := h.length_eq
  rw [List.length_append, List.length_singleton] at hlen
  have hfirst : (order[i] :: order.eraseIdx i).Perm (order[i] :: items) :=
    (List.getElem_cons_eraseIdx_perm hi).trans (h.trans (List.perm_append_singleton _ items))
  exact ⟨i, by omega, order.eraseIdx i, List.Perm.cons_inv hfirst, List.insertIdx_eraseIdx_getElem hi⟩

/-- Places can be chosen so that any order comes out. -/
theorem exists_arrange_eq {items order : List α} (h : order.Perm items) :
    ∃ place : Nat → Nat, (∀ k, place k ≤ k) ∧ arrange place items = order := by
  induction items using List.reverseRecOn generalizing order with
  | nil => exact ⟨fun _ => 0, fun k => Nat.zero_le k, h.eq_nil.symm⟩
  | append_singleton items x ih =>
    obtain ⟨i, hi, others, hothers, hback⟩ := exists_insertIdx_eq h
    obtain ⟨place, hplace, harrange⟩ := ih hothers
    -- The places of the items before the last one stay.
    refine ⟨Function.update place items.length i, fun k => ?_, ?_⟩
    · rcases eq_or_ne k items.length with rfl | hk
      · rw [Function.update_self]
        exact hi
      · rw [Function.update_of_ne hk]
        exact hplace k
    · have hsame : arrange (Function.update place items.length i) items = arrange place items :=
        arrange_congr fun k hk => Function.update_of_ne (Nat.ne_of_lt hk) i place
      rw [arrange_concat, hsame, harrange, Function.update_self, hback]

/-- Choices and orders of different items correspond one to one. -/
theorem bijOn_arrange {items : List α} (hnodup : items.Nodup) :
    Set.BijOn (fun c : Choices items.length => arrange c.place items) Set.univ {order | order.Perm items} := by
  refine ⟨?_, ?_, ?_⟩
  · intro c _
    exact arrange_perm c.place_le items
  · intro c _ d _ h
    funext k
    have hk := place_eq_of_arrange_eq c.place_le d.place_le hnodup h k k.isLt
    rw [c.place_of_lt k.isLt, d.place_of_lt k.isLt] at hk
    exact Fin.ext hk
  · intro order horder
    obtain ⟨place, hplace, harrange⟩ := exists_arrange_eq horder
    refine ⟨.ofPlaces place hplace, Set.mem_univ _, ?_⟩
    rw [← harrange]
    exact arrange_congr fun k hk => Choices.place_ofPlaces hplace hk

/-! ## Random numbers -/

/-- A queue is filled as the random numbers choose. -/
theorem shuffle_eq_arrange (random : Nat → UInt32) (items : List α) :
    shuffle random items = arrange (Choices.drawn random : Choices items.length).place items :=
  arrange_congr fun _ hk => (Choices.place_ofPlaces (placeOf_le random) hk).symm

/-- Random numbers can draw all places that there are, as long as there are no more of them than numbers. -/
theorem exists_placeOf_eq {place : Nat → Nat} (h : ∀ k, place k ≤ k) :
    ∃ random : Nat → UInt32, ∀ k < UInt32.size, placeOf random k = place k := by
  refine ⟨fun k => .ofNat (place (k + 1)), fun k hk => ?_⟩
  have hsize : UInt32.size = 4294967296 := rfl
  have hplace := h k
  cases k with
  | zero => exact (Nat.le_zero.1 hplace).symm
  | succ k =>
    rw [placeOf, UInt32.toNat_ofNat', Nat.mod_eq_of_lt (a := place (k + 1)) (by omega), Nat.mod_eq_of_lt (by omega)]

/-- Random numbers can give every order. -/
theorem exists_shuffle_eq {items order : List α} (hlen : items.length ≤ UInt32.size) (h : order.Perm items) :
    ∃ random, shuffle random items = order := by
  obtain ⟨place, hplace, harrange⟩ := exists_arrange_eq h
  obtain ⟨random, hrandom⟩ := exists_placeOf_eq hplace
  exact ⟨random, (arrange_congr fun k hk => hrandom k (by omega)).trans harrange⟩

end Shuffle

namespace Pool

open Shuffle

/-- A pool over a range that is wide enough starts with its pairs in any order, in three parts.
1. Whatever the random numbers are, the queue has every place at which a pair is put in. It ends up with all pairs of the
   range, in the order that belongs to what the numbers choose.
2. Choices and orders correspond one to one: each order of the pairs is that of exactly one way to choose their places.
3. Each order of the pairs is the one that some random numbers give. -/
theorem starts_in_any_order (protocol : Protocol) (range : PortRange) (hr : range.validate = .ok ()) :
    (∀ random, ∃ start, Pool.ofRange protocol range random = .ok start ∧
      fill? random 0 0 [] range.pairIndices = some start.free ∧ start.free.Perm range.pairIndices ∧
      start.free = arrange (Choices.drawn random : Choices range.pairIndices.length).place range.pairIndices) ∧
    Set.BijOn (fun c : Choices range.pairIndices.length => arrange c.place range.pairIndices) Set.univ
      {order | order.Perm range.pairIndices} ∧
    ∀ order, order.Perm range.pairIndices →
      ∃ random start, Pool.ofRange protocol range random = .ok start ∧ start.free = order := by
  have hstart := ofRange_eq_ok hr protocol
  refine ⟨fun random => ⟨_, hstart random, ?_, ?_, ?_⟩, bijOn_arrange range.nodup_pairIndices, fun order horder => ?_⟩
  · exact fill?_eq_some random range.pairIndices []
  · exact shuffle_perm random range.pairIndices
  · exact shuffle_eq_arrange random range.pairIndices
  · have hmax := range.max.toNat_lt
    have hsize : UInt32.size = 4294967296 := rfl
    obtain ⟨random, hrandom⟩ := exists_shuffle_eq (by rw [range.length_pairIndices]; omega) horder
    exact ⟨random, _, hstart random, hrandom⟩

/-- The pairs of the narrowest range can be free in their own order at first, although each new one is put before the others
when all random numbers are 0. -/
theorem starts_in_any_order_of_eighteen :
    PortRange.validate ⟨30000, 30036⟩ = .ok () ∧ (PortRange.pairIndices ⟨30000, 30036⟩).length = 18 ∧
      (∃ start, Pool.ofRange .udp ⟨30000, 30036⟩ (fun _ => 0) = .ok start ∧
        fill? (fun _ => 0) 0 0 [] (PortRange.pairIndices ⟨30000, 30036⟩) = some start.free ∧
        start.free = (PortRange.pairIndices ⟨30000, 30036⟩).reverse) ∧
      ∃ random start, Pool.ofRange .udp ⟨30000, 30036⟩ random = .ok start ∧
        start.free = PortRange.pairIndices ⟨30000, 30036⟩ := by
  obtain ⟨hfill, -, horder⟩ := starts_in_any_order .udp ⟨30000, 30036⟩ rfl
  obtain ⟨start, hs, hfree, -⟩ := hfill fun _ => 0
  refine ⟨rfl, rfl, ⟨start, hs, hfree, ?_⟩, horder _ (List.Perm.refl _)⟩
  obtain rfl := Except.ok.inj hs
  decide +kernel

end Pool

end MediaSession
