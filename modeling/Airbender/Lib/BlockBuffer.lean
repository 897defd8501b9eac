import Mathlib.Algebra.GroupWithZero.Nat
import Mathlib.Data.List.Basic

/-!
# Block functions behind a buffer

A block function consumes words in blocks of a fixed size.  The buffer in front of it keeps
the last words back: a full block is processed only when one more word arrives, so that the
last block can be treated differently.  What was absorbed matters, and not in which pieces.
-/

namespace BlockBuffer

universe u v

/-- A state of the block function, and the words that it has not processed yet. -/
structure Buffered (State : Type u) (Word : Type v) (size : Nat) where
  state : State
  pending : List Word
  bound : pending.length ≤ size

variable {State : Type u} {Word : Type v} {size : Nat}

namespace Buffered

theorem ext_pending {left right : Buffered State Word size}
    (state : left.state = right.state) (pending : left.pending = right.pending) :
    left = right := by
  cases left
  cases right
  cases state
  cases pending
  rfl

/-- The buffer before the first word. -/
def empty (state : State) : Buffered State Word size where
  state := state
  pending := []
  bound := Nat.zero_le size

variable [NeZero size] (step : State → List Word → State)

/-- A word that finds the buffer full sends the block away first. -/
def push (buffer : Buffered State Word size) (word : Word) : Buffered State Word size :=
  if full : buffer.pending.length = size then
    { state := step buffer.state buffer.pending
      pending := [word]
      bound := Nat.pos_of_ne_zero (NeZero.ne size) }
  else
    { state := buffer.state
      pending := buffer.pending ++ [word]
      bound := by
        have bound := buffer.bound
        rw [List.length_append, List.length_singleton]
        omega }

def absorb (buffer : Buffered State Word size) (words : List Word) :
    Buffered State Word size :=
  words.foldl (push step) buffer

variable {step} {buffer : Buffered State Word size}

theorem push_of_full (full : buffer.pending.length = size) (word : Word) :
    (buffer.push step word).state = step buffer.state buffer.pending ∧
      (buffer.push step word).pending = [word] := by
  rw [push, dif_pos full]
  exact ⟨rfl, rfl⟩

theorem push_of_not_full (room : buffer.pending.length ≠ size) (word : Word) :
    (buffer.push step word).state = buffer.state ∧
      (buffer.push step word).pending = buffer.pending ++ [word] := by
  rw [push, dif_neg room]
  exact ⟨rfl, rfl⟩

@[simp]
theorem absorb_nil (buffer : Buffered State Word size) :
    buffer.absorb step [] = buffer := rfl

@[simp]
theorem absorb_cons (buffer : Buffered State Word size) (word : Word) (words : List Word) :
    buffer.absorb step (word :: words) = (buffer.push step word).absorb step words := rfl

/-- Absorbing in two pieces or in one. -/
theorem absorb_append (buffer : Buffered State Word size) (first second : List Word) :
    buffer.absorb step (first ++ second) =
      (buffer.absorb step first).absorb step second :=
  List.foldl_append

/-- A full buffer takes the next words as the processed one does. -/
theorem absorb_of_full_eq {words : List Word} (full : buffer.pending.length = size)
    (nonempty : words ≠ []) :
    buffer.absorb step words =
      (empty (step buffer.state buffer.pending)).absorb step words := by
  cases words with
  | nil => exact absurd rfl nonempty
  | cons word words =>
      let cleared : Buffered State Word size := empty (step buffer.state buffer.pending)
      have room : cleared.pending.length ≠ size := (NeZero.ne size).symm
      have sent := @push_of_full _ _ _ _ step _ full word
      have kept := @push_of_not_full _ _ _ _ step _ room word
      have same : buffer.push step word = cleared.push step word :=
        ext_pending (sent.1.trans kept.1.symm) (sent.2.trans kept.2.symm)
      rw [absorb_cons, absorb_cons, same]

/-! ## How many words are pending -/

theorem length_pending_push (buffer : Buffered State Word size) (word : Word) :
    (buffer.push step word).pending.length =
      if buffer.pending.length = size then 1 else buffer.pending.length + 1 := by
  split
  · rename_i full
    rw [(push_of_full full word).2, List.length_singleton]
  · rename_i room
    rw [(push_of_not_full room word).2, List.length_append, List.length_singleton]

theorem length_pending_push_mod (buffer : Buffered State Word size) (word : Word) :
    (buffer.push step word).pending.length % size = (buffer.pending.length + 1) % size := by
  rw [length_pending_push]
  split
  · rename_i full
    rw [full, Nat.add_mod_left]
  · rfl

theorem length_pending_push_pos (buffer : Buffered State Word size) (word : Word) :
    0 < (buffer.push step word).pending.length := by
  rw [length_pending_push]
  split <;> omega

theorem length_pending_absorb_mod (buffer : Buffered State Word size) (words : List Word) :
    (buffer.absorb step words).pending.length % size =
      (buffer.pending.length + words.length) % size := by
  induction words generalizing buffer with
  | nil => rfl
  | cons word words inductionHypothesis =>
      rw [absorb_cons, inductionHypothesis, Nat.add_mod, length_pending_push_mod, ← Nat.add_mod,
        List.length_cons, Nat.add_assoc, Nat.add_comm 1]

theorem length_pending_absorb_pos (buffer : Buffered State Word size) {words : List Word}
    (something : 0 < buffer.pending.length ∨ words ≠ []) :
    0 < (buffer.absorb step words).pending.length := by
  induction words generalizing buffer with
  | nil => exact something.resolve_right fun nonempty => nonempty rfl
  | cons word words inductionHypothesis =>
      exact inductionHypothesis (buffer.push step word)
        (Or.inl (length_pending_push_pos buffer word))

/-- Whole blocks leave the buffer full. -/
theorem full_absorb_of_dvd {words : List Word} (buffer : Buffered State Word size)
    (something : 0 < buffer.pending.length ∨ words ≠ [])
    (blocks : size ∣ buffer.pending.length + words.length) :
    (buffer.absorb step words).pending.length = size := by
  have bound := (buffer.absorb step words).bound
  have positive := @length_pending_absorb_pos _ _ _ _ step buffer _ something
  have aligned := @length_pending_absorb_mod _ _ _ _ step buffer words
  rw [Nat.mod_eq_zero_of_dvd blocks] at aligned
  exact Nat.le_antisymm bound (Nat.le_of_dvd positive (Nat.dvd_of_mod_eq_zero aligned))

/-! ## Block by block -/

/-- Words that fit into the buffer are only kept. -/
theorem absorb_of_fits {words : List Word} (buffer : Buffered State Word size)
    (fits : buffer.pending.length + words.length ≤ size) :
    (buffer.absorb step words).state = buffer.state ∧
      (buffer.absorb step words).pending = buffer.pending ++ words := by
  induction words generalizing buffer with
  | nil => exact ⟨rfl, (List.append_nil _).symm⟩
  | cons word words inductionHypothesis =>
      rw [List.length_cons] at fits
      have kept := @push_of_not_full _ _ _ _ step buffer (by omega) word
      have rest := inductionHypothesis (buffer.push step word) (by
        rw [kept.2, List.length_append, List.length_singleton]
        omega)
      rw [absorb_cons]
      refine ⟨rest.1.trans kept.1, rest.2.trans ?_⟩
      rw [kept.2, List.append_assoc, List.singleton_append]

end Buffered

end BlockBuffer
