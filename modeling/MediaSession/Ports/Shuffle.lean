/-!
# Shuffled queues

A pool does not hand out its pairs in a predictable order. Its queue is filled one by one, each at a place that a random
number chooses among all places of the queue as it is by then.
-/

namespace MediaSession.Shuffle

variable {α : Type}

/-- Fills the queue, the item after `k` others at the place `place k`. -/
def arrangeFrom (place : Nat → Nat) : Nat → List α → List α → List α
  | _, queue, [] => queue
  | k, queue, x :: rest => arrangeFrom place (k + 1) (queue.insertIdx (place k) x) rest

/-- The queue filled from empty. -/
def arrange (place : Nat → Nat) (items : List α) : List α := arrangeFrom place 0 [] items

/-- The place that a sequence of random numbers chooses when there are `k` items in the queue: the only one when it is
empty, and otherwise the remainder of the next random number by the number of places. -/
def placeOf (random : Nat → UInt32) : Nat → Nat
  | 0 => 0
  | k + 1 => (random k).toNat % (k + 2)

/-- The queue that a sequence of random numbers gives. -/
def shuffle (random : Nat → UInt32) (items : List α) : List α := arrange (placeOf random) items

/-- A place is one of the places there are. -/
theorem placeOf_le (random : Nat → UInt32) (k : Nat) : placeOf random k ≤ k := by
  cases k with
  | zero => exact Nat.le_refl 0
  | succ k => exact Nat.le_of_lt_succ (Nat.mod_lt _ (by omega))

/-- Filling a queue at places that there are loses nothing and adds nothing. -/
theorem arrangeFrom_perm {place : Nat → Nat} (h : ∀ k, place k ≤ k) (items : List α) :
    ∀ queue : List α, (arrangeFrom place queue.length queue items).Perm (queue ++ items) := by
  induction items with
  | nil =>
    intro queue
    simp [arrangeFrom]
  | cons x rest ih =>
    intro queue
    have hk := h queue.length
    have hlen : (queue.insertIdx (place queue.length) x).length = queue.length + 1 := by
      rw [List.length_insertIdx, if_pos hk]
    rw [arrangeFrom, ← hlen]
    refine (ih _).trans ?_
    exact ((List.perm_insertIdx x queue hk).append_right rest).trans List.perm_middle.symm

/-- A shuffled queue holds the same items. -/
theorem shuffle_perm (random : Nat → UInt32) (items : List α) : (shuffle random items).Perm items :=
  arrangeFrom_perm (placeOf_le random) items []

end MediaSession.Shuffle
