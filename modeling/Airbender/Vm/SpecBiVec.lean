import Mathlib.Data.List.TakeDrop
import Mathlib.Data.Option.Basic

/-!
# Buffers of a fixed size

`SpecBiVec` keeps its elements in buffers of `I` elements each, which are never moved.  A range of
its elements is a slice of each buffer that it meets.
-/

namespace Airbender

structure SpecBiVec (α : Type) where
  current : Nat
  totalLen : Nat
  buffers : List (List α)

namespace SpecBiVec

variable {α : Type}

/-- `O` buffers, of which the first has room for `I` elements. -/
def new (I O : Nat) : Option (SpecBiVec α) := do
  guard (0 < O)
  guard (0 < I)
  guard (O * I ≤ 1 <<< 36)
  return { current := 0, totalLen := 0, buffers := List.replicate O [] }

/-- What `new` makes when its assertions hold. -/
def empty (O : Nat) : SpecBiVec α :=
  { current := 0, totalLen := 0, buffers := List.replicate O [] }

/-- `push_unchecked_impl`; without another buffer it is a panic. -/
def push (I : Nat) (self : SpecBiVec α) (value : α) : Option (SpecBiVec α) := do
  let dst ← self.buffers[self.current]?
  if dst.length = I then
    guard (self.current + 1 < self.buffers.length)
    return { current := self.current + 1, totalLen := self.totalLen + 1,
             buffers := self.buffers.set (self.current + 1) [value] }
  else
    return { self with totalLen := self.totalLen + 1,
                       buffers := self.buffers.set self.current (dst ++ [value]) }

/-- Elements pushed one after the other. -/
def pushAll (I : Nat) (self : SpecBiVec α) : List α → Option (SpecBiVec α)
  | [] => some self
  | value :: values => do
      let self ← self.push I value
      self.pushAll I values

/-- A part of a buffer; limits outside of it are a panic. -/
def slice (buffer : List α) (start stop : Nat) : Option (List α) := do
  guard (start ≤ stop ∧ stop ≤ buffer.length)
  return (buffer.take stop).drop start

/-- The loop over the buffers of a range, which ends inside of the buffer `lastOuter`. -/
def slices (buffers : List (List α)) (lastOuter lastInner : Nat) :
    List Nat → Nat → Option (List (List α))
  | [], _ => some []
  | i :: rest, innerOffset =>
      if i = lastOuter then
        if lastInner ≠ 0 then do
          let buffer ← buffers[i]?
          let part ← slice buffer innerOffset lastInner
          let parts ← slices buffers lastOuter lastInner rest innerOffset
          return part :: parts
        else
          slices buffers lastOuter lastInner rest innerOffset
      else do
        let buffer ← buffers[i]?
        let part ← slice buffer innerOffset buffer.length
        let parts ← slices buffers lastOuter lastInner rest 0
        return part :: parts

/-- `make_range_impl`. -/
def makeRange (I : Nat) (self : SpecBiVec α) (start stop : Nat) : Option (List (List α)) := do
  guard (stop ≤ self.totalLen)
  slices self.buffers (stop / I) (stop % I)
    (List.range' (start / I) (stop / I + 1 - start / I)) (start % I)

/-! ## The elements -/

/-- The elements, one buffer after the other. -/
structure Holds (I : Nat) (vec : SpecBiVec α) (elements : List α) : Prop where
  room : 0 < I
  total : vec.totalLen = elements.length
  buffer : ∀ i < vec.buffers.length, vec.buffers[i]? = some ((elements.drop (i * I)).take I)
  inside : vec.current < vec.buffers.length
  started : vec.current * I ≤ elements.length
  bound : elements.length ≤ vec.current * I + I

theorem holds_empty {I O : Nat} (buffers : 1 ≤ O) (room : 1 ≤ I) :
    Holds I (empty O : SpecBiVec α) [] := by
  have zero : 0 * I = 0 := Nat.zero_mul I
  refine ⟨room, rfl, ?_, ?_, Nat.le_of_eq zero, Nat.zero_le _⟩
  · intro i inside
    rw [empty, List.length_replicate] at inside
    rw [empty, List.getElem?_replicate_of_lt inside, List.drop_nil, List.take_nil]
  · rw [empty, List.length_replicate]
    exact buffers

theorem holds_new {I O : Nat} {vec : SpecBiVec α} (created : new I O = some vec) :
    Holds I vec [] := by
  rw [new] at created
  rcases Option.bind_eq_some_iff.mp created with ⟨_, buffers, afterBuffers⟩
  rcases Option.bind_eq_some_iff.mp afterBuffers with ⟨_, room, afterRoom⟩
  rcases Option.bind_eq_some_iff.mp afterRoom with ⟨_, _, same⟩
  cases same
  exact holds_empty ((Option.guard_eq_some' ()).mp buffers) ((Option.guard_eq_some' ()).mp room)

theorem mul_add_le_mul {i k I : Nat} (before : i < k) : i * I + I ≤ k * I := by
  rw [← Nat.succ_mul]
  exact Nat.mul_le_mul_right I before

/-- An element behind a buffer or before it does not change its part. -/
theorem part_append {i I : Nat} {elements : List α} (value : α)
    (apart : i * I + I ≤ elements.length ∨ elements.length < i * I) :
    ((elements ++ [value]).drop (i * I)).take I = (elements.drop (i * I)).take I := by
  rcases apart with before | behind
  · rw [List.drop_append_of_le_length (by omega),
      List.take_append_of_le_length (by rw [List.length_drop]; omega)]
  · have length : (elements ++ [value]).length ≤ i * I := by
      rw [List.length_append, List.length_singleton]
      exact behind
    rw [List.drop_eq_nil_of_le length, List.drop_eq_nil_of_le (Nat.le_of_lt behind)]

theorem Holds.push {I : Nat} {vec next : SpecBiVec α} {elements : List α} {value : α}
    (holds : Holds I vec elements) (pushed : vec.push I value = some next) :
    Holds I next (elements ++ [value]) := by
  have room := holds.room
  have started := holds.started
  have bound := holds.bound
  have length : (elements ++ [value]).length = elements.length + 1 := by
    rw [List.length_append, List.length_singleton]
  have total : vec.totalLen + 1 = (elements ++ [value]).length := by
    rw [length, holds.total]
  rw [SpecBiVec.push, holds.buffer _ holds.inside, Option.bind_eq_bind, Option.bind_some] at pushed
  have used : ((elements.drop (vec.current * I)).take I).length =
      elements.length - vec.current * I := by
    rw [List.length_take, List.length_drop]
    omega
  rw [used] at pushed
  by_cases full : elements.length - vec.current * I = I
  · rw [if_pos full] at pushed
    rcases Option.bind_eq_some_iff.mp pushed with ⟨_, another, same⟩
    have more := (Option.guard_eq_some' ()).mp another
    cases same
    have here : elements.length = (vec.current + 1) * I := by
      rw [Nat.succ_mul]
      omega
    refine ⟨room, total, ?_, ?_, ?_, ?_⟩
    · intro i below
      rw [List.length_set] at below
      by_cases new : i = vec.current + 1
      · rw [new, List.getElem?_set_self more, ← here,
          List.drop_append_of_le_length (Nat.le_refl _), List.drop_length, List.nil_append,
          List.take_of_length_le (by rw [List.length_singleton]; exact room)]
      · rw [List.getElem?_set_ne (fun same => new same.symm), holds.buffer i below, part_append]
        rcases Nat.lt_or_gt_of_ne new with before | behind
        · have product := mul_add_le_mul (I := I) before
          omega
        · have product := mul_add_le_mul (I := I) behind
          omega
    · rw [List.length_set]
      exact more
    · rw [length]
      change (vec.current + 1) * I ≤ _
      omega
    · rw [length]
      change _ ≤ (vec.current + 1) * I + I
      omega
  · rw [if_neg full] at pushed
    cases pushed
    refine ⟨room, total, ?_, ?_, ?_, ?_⟩
    · intro i below
      rw [List.length_set] at below
      by_cases here : i = vec.current
      · have short : (elements.drop (vec.current * I)).length < I := by
          rw [List.length_drop]
          omega
        rw [here, List.getElem?_set_self holds.inside, List.take_of_length_le (Nat.le_of_lt short),
          List.drop_append_of_le_length started, List.take_of_length_le]
        rw [List.length_append, List.length_singleton]
        exact short
      · rw [List.getElem?_set_ne (fun same => here same.symm), holds.buffer i below, part_append]
        rcases Nat.lt_or_gt_of_ne here with before | behind
        · have product := mul_add_le_mul (I := I) before
          omega
        · have product := mul_add_le_mul (I := I) behind
          omega
    · rw [List.length_set]
      exact holds.inside
    · rw [length]
      exact Nat.le_succ_of_le started
    · rw [length]
      change _ ≤ vec.current * I + I
      omega

theorem Holds.pushAll {I : Nat} {vec next : SpecBiVec α} {elements values : List α}
    (holds : Holds I vec elements) (pushed : vec.pushAll I values = some next) :
    Holds I next (elements ++ values) := by
  induction values generalizing vec elements with
  | nil =>
      cases pushed
      rw [List.append_nil]
      exact holds
  | cons value values inductionHypothesis =>
      rw [SpecBiVec.pushAll] at pushed
      rcases Option.bind_eq_some_iff.mp pushed with ⟨middle, first, rest⟩
      have all := inductionHypothesis (holds.push first) rest
      rwa [List.append_assoc, List.singleton_append] at all

/-! ## The slices of a range -/

theorem slice_eq {buffer : List α} {start stop : Nat} (ordered : start ≤ stop)
    (inside : stop ≤ buffer.length) :
    slice buffer start stop = some ((buffer.take stop).drop start) := by
  rw [slice, guard, if_pos ⟨ordered, inside⟩]
  rfl

/-- From a position on, the slices make up the rest of the range, and none of them is empty. -/
theorem Holds.slices {I : Nat} {vec : SpecBiVec α} {elements : List α}
    (holds : Holds I vec elements) {lastOuter lastInner : Nat} (inner : lastInner < I)
    (stop : lastOuter * I + lastInner ≤ elements.length) (count i innerOffset : Nat)
    (buffers : i + count = lastOuter) (offset : innerOffset < I)
    (ordered : i * I + innerOffset ≤ lastOuter * I + lastInner)
    (more : innerOffset = 0 ∨ i * I + innerOffset < lastOuter * I + lastInner) :
    ∃ parts, SpecBiVec.slices vec.buffers lastOuter lastInner (List.range' i (count + 1))
        innerOffset = some parts ∧
      (∀ part ∈ parts, part ≠ []) ∧
        parts.flatten =
          (elements.take (lastOuter * I + lastInner)).drop (i * I + innerOffset) := by
  have room := holds.room
  induction count generalizing i innerOffset with
  | zero =>
      have last : i = lastOuter := by omega
      rw [last] at ordered more ⊢
      by_cases none : lastInner = 0
      · have zero : innerOffset = 0 := by omega
        refine ⟨[], ?_, fun part member => absurd member List.not_mem_nil, ?_⟩
        · rw [List.range'_one, SpecBiVec.slices, if_pos rfl, if_neg (not_not_intro none)]
          rfl
        · rw [none, zero, List.drop_eq_nil_of_le (by rw [List.length_take]; omega)]
          rfl
      · have below : lastOuter < vec.buffers.length := by
          apply Nat.lt_of_le_of_lt _ holds.inside
          by_contra later
          have product := mul_add_le_mul (I := I) (Nat.not_le.mp later)
          have bound := holds.bound
          omega
        have length : lastInner ≤ ((elements.drop (lastOuter * I)).take I).length := by
          rw [List.length_take, List.length_drop]
          omega
        have part : (((elements.drop (lastOuter * I)).take I).take lastInner).drop innerOffset =
            (elements.take (lastOuter * I + lastInner)).drop (lastOuter * I + innerOffset) := by
          rw [List.take_take, Nat.min_eq_left (Nat.le_of_lt inner), List.take_drop, List.drop_drop]
        refine ⟨[(elements.take (lastOuter * I + lastInner)).drop (lastOuter * I + innerOffset)],
          ?_, ?_, List.flatten_singleton⟩
        · rw [List.range'_one, SpecBiVec.slices, if_pos rfl, if_pos none, holds.buffer _ below,
            Option.bind_eq_bind, Option.bind_some, slice_eq (by omega) length, part]
          rfl
        · intro part member
          rw [List.mem_singleton.mp member]
          apply List.ne_nil_of_length_pos
          rw [List.length_drop, List.length_take]
          omega
  | succ count inductionHypothesis =>
      have before : i < lastOuter := by omega
      have product := mul_add_le_mul (I := I) before
      have below : i < vec.buffers.length := by
        apply Nat.lt_of_le_of_lt _ holds.inside
        by_contra later
        have other := mul_add_le_mul (I := I) (Nat.not_le.mp later)
        have bound := holds.bound
        omega
      have next : (i + 1) * I = i * I + I := Nat.succ_mul i I
      have length : ((elements.drop (i * I)).take I).length = I := by
        rw [List.length_take, List.length_drop]
        omega
      rcases inductionHypothesis (i + 1) 0 (by omega) room (by omega) (Or.inl rfl) with
        ⟨parts, computed, nonEmpty, flatten⟩
      refine ⟨((elements.drop (i * I)).take I).drop innerOffset :: parts, ?_, ?_, ?_⟩
      · rw [List.range'_succ, SpecBiVec.slices, if_neg (Nat.ne_of_lt before), holds.buffer i below,
          Option.bind_eq_bind, Option.bind_some,
          slice_eq (by rw [length]; exact Nat.le_of_lt offset) (Nat.le_refl _), List.take_length,
          computed]
        rfl
      · refine List.forall_mem_cons.mpr ⟨?_, nonEmpty⟩
        apply List.ne_nil_of_length_pos
        rw [List.length_drop, length]
        omega
      · have split : (elements.take (lastOuter * I + lastInner)).drop (i * I) =
            (elements.drop (i * I)).take I ++
              (elements.take (lastOuter * I + lastInner)).drop (i * I + I) := by
          have first : ((elements.take (lastOuter * I + lastInner)).drop (i * I)).take I =
              (elements.drop (i * I)).take I := by
            rw [List.take_drop, List.take_take, Nat.min_eq_left (by omega), ← List.take_drop]
          rw [← first, ← List.drop_drop, List.take_append_drop]
        rw [List.flatten_cons, flatten, ← List.drop_drop (j := i * I), split,
          List.drop_append_of_le_length (by rw [length]; exact Nat.le_of_lt offset), next,
          Nat.add_zero]

/-- A range that is not empty is cut into slices that are not empty. -/
theorem Holds.makeRange {I : Nat} {vec : SpecBiVec α} {elements : List α}
    (holds : Holds I vec elements) {start stop : Nat} (some : start < stop)
    (inside : stop ≤ elements.length) :
    ∃ parts, vec.makeRange I start stop = Option.some parts ∧ (∀ part ∈ parts, part ≠ []) ∧
      parts.flatten = (elements.take stop).drop start := by
  have room := holds.room
  have total := holds.total
  have startDivision := Nat.div_add_mod' start I
  have stopDivision := Nat.div_add_mod' stop I
  have outer : start / I ≤ stop / I := Nat.div_le_div_right (Nat.le_of_lt some)
  have within : stop / I * I + stop % I ≤ elements.length := by omega
  rcases holds.slices (Nat.mod_lt stop room) within (stop / I - start / I) (start / I)
    (start % I) (by omega) (Nat.mod_lt start room) (by omega) (Or.inr (by omega)) with
    ⟨parts, computed, nonEmpty, flatten⟩
  have count : stop / I + 1 - start / I = stop / I - start / I + 1 := by omega
  refine ⟨parts, ?_, nonEmpty, ?_⟩
  · rw [SpecBiVec.makeRange, guard, if_pos (by omega), count, computed]
    rfl
  · rw [flatten, startDivision, stopDivision]

/-- An empty range has no slice, or an empty one. -/
theorem Holds.makeRange_empty {I : Nat} {vec : SpecBiVec α} {elements : List α}
    (holds : Holds I vec elements) {place : Nat} (inside : place ≤ elements.length) :
    ∃ parts, vec.makeRange I place place = some parts ∧ parts.flatten = [] := by
  have room := holds.room
  have total := holds.total
  have division := Nat.div_add_mod' place I
  have count : place / I + 1 - place / I = 1 := by omega
  have checked : place ≤ vec.totalLen := by omega
  rw [SpecBiVec.makeRange, guard, if_pos checked, count, List.range'_one]
  by_cases none : place % I = 0
  · refine ⟨[], ?_, List.flatten_nil⟩
    rw [none]
    simp only [SpecBiVec.slices, if_true, ne_eq, not_true_eq_false, if_false]
    rfl
  · have below : place / I < vec.buffers.length := by
      apply Nat.lt_of_le_of_lt _ holds.inside
      by_contra later
      have product := mul_add_le_mul (I := I) (Nat.not_le.mp later)
      have bound := holds.bound
      omega
    have length : place % I ≤ ((elements.drop (place / I * I)).take I).length := by
      have inner := Nat.mod_lt place room
      rw [List.length_take, List.length_drop]
      omega
    refine ⟨[[]], ?_, rfl⟩
    simp only [SpecBiVec.slices, if_true, if_pos none, holds.buffer _ below, Option.bind_eq_bind,
      Option.bind_some, slice_eq (Nat.le_refl _) length, Option.pure_def, List.drop_take_self]

/-! ## Pushing into the room of all buffers -/

/-- `len`. -/
def len (vec : SpecBiVec α) : Nat := vec.totalLen

theorem new_eq {I O : Nat} (buffers : 1 ≤ O) (room : 1 ≤ I) (small : O * I ≤ 1 <<< 36) :
    new I O = some (empty O : SpecBiVec α) := by
  have some : 0 < O := buffers
  have fits : 0 < I := room
  rw [new, guard, if_pos some, guard, if_pos fits, guard, if_pos small]
  rfl

/-- While not all buffers are full a push finds room, and the number of buffers stays. -/
theorem Holds.push_some {I : Nat} {vec : SpecBiVec α} {elements : List α}
    (holds : Holds I vec elements) (fits : elements.length < vec.buffers.length * I) (value : α) :
    ∃ next, vec.push I value = some next ∧ next.buffers.length = vec.buffers.length := by
  have started := holds.started
  have used : ((elements.drop (vec.current * I)).take I).length = I →
      vec.current * I + I ≤ elements.length := by
    rw [List.length_take, List.length_drop]
    have room := holds.room
    omega
  rw [SpecBiVec.push, holds.buffer _ holds.inside, Option.bind_eq_bind, Option.bind_some]
  by_cases full : ((elements.drop (vec.current * I)).take I).length = I
  · have another : vec.current + 1 < vec.buffers.length := by
      by_contra last
      have product := Nat.mul_le_mul_right I (Nat.not_lt.mp last)
      rw [Nat.succ_mul] at product
      have here := used full
      omega
    rw [if_pos full, guard, if_pos another]
    exact ⟨_, rfl, List.length_set⟩
  · rw [if_neg full]
    exact ⟨_, rfl, List.length_set⟩

theorem Holds.pushAll_some {I : Nat} {vec : SpecBiVec α} {elements values : List α}
    (holds : Holds I vec elements)
    (fits : elements.length + values.length ≤ vec.buffers.length * I) :
    ∃ next, vec.pushAll I values = some next := by
  induction values generalizing vec elements with
  | nil => exact ⟨vec, rfl⟩
  | cons value values inductionHypothesis =>
      rw [List.length_cons] at fits
      rcases holds.push_some (by omega) value with ⟨middle, first, count⟩
      have length : (elements ++ [value]).length = elements.length + 1 := by
        rw [List.length_append, List.length_singleton]
      rcases inductionHypothesis (holds.push first) (by rw [length, count]; omega) with
        ⟨next, rest⟩
      refine ⟨next, ?_⟩
      rw [SpecBiVec.pushAll, first]
      exact rest

/-- Up to the room of all buffers elements are pushed one after the other, and the slices of every
range are its elements in order. -/
theorem pushAll_makeRange {I O : Nat} (room : 1 ≤ I) (buffers : 1 ≤ O) {values : List α}
    (fits : values.length ≤ I * O) :
    (O * I ≤ 1 <<< 36 → new I O = some (empty O : SpecBiVec α)) ∧
      ∃ vec, (empty O).pushAll I values = some vec ∧ vec.len = values.length ∧
        ∀ a b, a ≤ b → b ≤ values.length →
          ∃ parts, vec.makeRange I a b = some parts ∧ parts.flatten = (values.take b).drop a := by
  have start : Holds I (empty O : SpecBiVec α) [] := holds_empty buffers room
  have length : (empty O : SpecBiVec α).buffers.length = O := List.length_replicate
  have enough : ([] : List α).length + values.length ≤ (empty O : SpecBiVec α).buffers.length * I := by
    rw [length, List.length_nil, Nat.zero_add, Nat.mul_comm]
    exact fits
  rcases start.pushAll_some enough with ⟨vec, pushed⟩
  have holds := start.pushAll pushed
  rw [List.nil_append] at holds
  refine ⟨new_eq buffers room, vec, pushed, holds.total, ?_⟩
  intro a b ordered inside
  by_cases none : a = b
  · rcases holds.makeRange_empty inside with ⟨parts, computed, flatten⟩
    rw [none]
    refine ⟨parts, computed, ?_⟩
    rw [flatten, List.drop_eq_nil_of_le]
    rw [List.length_take]
    exact Nat.min_le_left b values.length
  · rcases holds.makeRange (show a < b by omega) inside with ⟨parts, computed, _, flatten⟩
    exact ⟨parts, computed, flatten⟩

/-- Two buffers for two elements each, of which the second has one. -/
theorem pushAll_makeRange_three :
    (2 * 2 ≤ 1 <<< 36 → new 2 2 = some (empty 2 : SpecBiVec Nat)) ∧
      ∃ vec, (empty 2).pushAll 2 [5, 6, 7] = some vec ∧ vec.len = [5, 6, 7].length ∧
        ∀ a b, a ≤ b → b ≤ [5, 6, 7].length →
          ∃ parts, vec.makeRange 2 a b = some parts ∧
            parts.flatten = ([5, 6, 7].take b).drop a :=
  pushAll_makeRange (by decide) (by decide) (by decide)

end SpecBiVec

end Airbender
