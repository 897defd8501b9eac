import Mathlib.Logic.Function.Basic
import Mathlib.Algebra.Order.Group.Multiset
import Mathlib.Data.List.Nodup
import Mathlib.Data.List.Perm.Basic
import Mathlib.Order.Basic

/-!
# Memories checked by their accesses

A memory maps cells to contents.  An access names a cell, what it found there and
what it left.  This module contains the replay of a list of accesses, the balance
of what is found against what is left, and the ordering of accesses in time.
-/

namespace OfflineMemory

universe u v w

variable {Cell : Type u} {Content : Type v}

structure Access (Cell : Type u) (Content : Type v) where
  cell : Cell
  before : Content
  after : Content

/-! ## Replay -/

section Replay

variable [DecidableEq Cell]

/-- `Performs memory accesses memory'`: every access finds the current content of
its cell, and together they turn `memory` into `memory'`. -/
def Performs : (Cell → Content) → List (Access Cell Content) → (Cell → Content) → Prop
  | memory, [], memory' => memory' = memory
  | memory, access :: rest, memory' =>
      memory access.cell = access.before ∧
        Performs (Function.update memory access.cell access.after) rest memory'

theorem performs_nil_iff {memory memory' : Cell → Content} :
    Performs memory [] memory' ↔ memory' = memory := Iff.rfl

theorem Performs.refl (memory : Cell → Content) : Performs memory [] memory := rfl

theorem performs_cons_iff
    {memory memory' : Cell → Content} {access : Access Cell Content}
    {rest : List (Access Cell Content)} :
    Performs memory (access :: rest) memory' ↔
      memory access.cell = access.before ∧
        Performs (Function.update memory access.cell access.after) rest memory' := Iff.rfl

theorem performs_append_iff
    {memory memory' : Cell → Content} {first second : List (Access Cell Content)} :
    Performs memory (first ++ second) memory' ↔
      ∃ middle, Performs memory first middle ∧ Performs middle second memory' := by
  induction first generalizing memory with
  | nil =>
      constructor
      · intro performs
        exact ⟨memory, rfl, performs⟩
      · rintro ⟨middle, rfl, performs⟩
        exact performs
  | cons access rest inductionHypothesis =>
      simp only [List.cons_append, performs_cons_iff, inductionHypothesis]
      constructor
      · rintro ⟨found, middle, left, right⟩
        exact ⟨middle, ⟨found, left⟩, right⟩
      · rintro ⟨middle, ⟨found, left⟩, right⟩
        exact ⟨found, middle, left, right⟩

theorem Performs.append
    {memory middle memory' : Cell → Content} {first second : List (Access Cell Content)}
    (left : Performs memory first middle) (right : Performs middle second memory') :
    Performs memory (first ++ second) memory' :=
  performs_append_iff.mpr ⟨middle, left, right⟩

theorem Performs.singleton
    {memory : Cell → Content} {access : Access Cell Content}
    (found : memory access.cell = access.before) :
    Performs memory [access] (Function.update memory access.cell access.after) :=
  ⟨found, rfl⟩

/-- A cell no access names keeps its content. -/
theorem Performs.frame
    {memory memory' : Cell → Content} {accesses : List (Access Cell Content)}
    (performs : Performs memory accesses memory') {cell : Cell}
    (untouched : cell ∉ accesses.map Access.cell) :
    memory' cell = memory cell := by
  induction accesses generalizing memory with
  | nil => rw [performs_nil_iff.mp performs]
  | cons access rest inductionHypothesis =>
      simp only [List.map_cons, List.mem_cons, not_or] at untouched
      rw [inductionHypothesis performs.2 untouched.2, Function.update_of_ne untouched.1]

/-- What every access leaves alone is the same at the end. -/
theorem Performs.preserved
    {Value : Type w} (value : Content → Value)
    {memory memory' : Cell → Content} {accesses : List (Access Cell Content)}
    (performs : Performs memory accesses memory')
    (keeps : ∀ access ∈ accesses, value access.after = value access.before) (cell : Cell) :
    value (memory' cell) = value (memory cell) := by
  induction accesses generalizing memory with
  | nil => rw [performs_nil_iff.mp performs]
  | cons access rest inductionHypothesis =>
      rw [inductionHypothesis performs.2 fun other member =>
        keeps other (List.mem_cons_of_mem access member)]
      by_cases same : cell = access.cell
      · rw [same, Function.update_self, performs.1]
        exact keeps access List.mem_cons_self
      · rw [Function.update_of_ne same]

/-- An accessed cell holds at the end what its last access left. -/
theorem Performs.last_access
    {memory memory' : Cell → Content} {accesses : List (Access Cell Content)}
    (performs : Performs memory accesses memory') {cell : Cell}
    (touched : cell ∈ accesses.map Access.cell) :
    ∃ before access after, accesses = before ++ access :: after ∧ access.cell = cell ∧
      cell ∉ after.map Access.cell ∧ memory' cell = access.after := by
  induction accesses generalizing memory with
  | nil => exact absurd touched List.not_mem_nil
  | cons head rest inductionHypothesis =>
      by_cases again : cell ∈ rest.map Access.cell
      · rcases inductionHypothesis performs.2 again with
          ⟨before, access, after, split, here, untouched, content⟩
        exact ⟨head :: before, access, after, by rw [split, List.cons_append], here, untouched,
          content⟩
      · have here : head.cell = cell :=
          ((List.mem_cons.mp touched).resolve_right again).symm
        refine ⟨[], head, rest, rfl, here, again, ?_⟩
        rw [performs.2.frame again, ← here, Function.update_self]

/-- A cell accessed once holds at the end what that access left. -/
theorem Performs.after_of_nodup
    {memory memory' : Cell → Content} {accesses : List (Access Cell Content)}
    (performs : Performs memory accesses memory')
    (nodup : (accesses.map Access.cell).Nodup)
    {access : Access Cell Content} (member : access ∈ accesses) :
    memory' access.cell = access.after := by
  induction accesses generalizing memory with
  | nil => exact absurd member List.not_mem_nil
  | cons head rest inductionHypothesis =>
      rw [List.map_cons, List.nodup_cons] at nodup
      rcases List.mem_cons.mp member with rfl | inRest
      · rw [performs.2.frame nodup.1, Function.update_self]
      · exact inductionHypothesis performs.2 nodup.2 inRest

/-- A cell accessed once is found as it was at the start. -/
theorem Performs.before_of_nodup
    {memory memory' : Cell → Content} {accesses : List (Access Cell Content)}
    (performs : Performs memory accesses memory')
    (nodup : (accesses.map Access.cell).Nodup)
    {access : Access Cell Content} (member : access ∈ accesses) :
    memory access.cell = access.before := by
  induction accesses generalizing memory with
  | nil => exact absurd member List.not_mem_nil
  | cons head rest inductionHypothesis =>
      rw [List.map_cons, List.nodup_cons] at nodup
      rcases List.mem_cons.mp member with rfl | inRest
      · exact performs.1
      · have notHead : access.cell ≠ head.cell := by
          intro same
          exact nodup.1 (same ▸ List.mem_map_of_mem inRest)
        rw [← inductionHypothesis performs.2 nodup.2 inRest, Function.update_of_ne notHead]

end Replay

/-! ## Listed contents -/

section Listed

/-- The memory has `contents` at `cells` and is `base` everywhere else. -/
structure HoldsAt (base : Cell → Content) (cells : List Cell) (contents : List Content)
    (memory : Cell → Content) : Prop where
  contents : cells.map memory = contents
  frame : ∀ cell, cell ∉ cells → memory cell = base cell

theorem HoldsAt.refl (memory : Cell → Content) (cells : List Cell) :
    HoldsAt memory cells (cells.map memory) memory :=
  ⟨rfl, fun _ _ => rfl⟩

theorem HoldsAt.unique {base first second : Cell → Content} {cells : List Cell}
    {contents : List Content} (left : HoldsAt base cells contents first)
    (right : HoldsAt base cells contents second) : first = second := by
  funext cell
  by_cases listed : cell ∈ cells
  · exact List.map_inj_left.mp (left.contents.trans right.contents.symm) cell listed
  · rw [left.frame cell listed, right.frame cell listed]

variable [DecidableEq Cell]

/-- Accesses to distinct cells that hold what the accesses find can be performed. -/
theorem exists_performs {memory : Cell → Content} {accesses : List (Access Cell Content)}
    (nodup : (accesses.map Access.cell).Nodup)
    (found : ∀ access ∈ accesses, memory access.cell = access.before) :
    ∃ memory', Performs memory accesses memory' := by
  induction accesses generalizing memory with
  | nil => exact ⟨memory, .refl memory⟩
  | cons head rest inductionHypothesis =>
      rw [List.map_cons, List.nodup_cons] at nodup
      have foundLater : ∀ access ∈ rest,
          Function.update memory head.cell head.after access.cell = access.before := by
        intro access member
        have notHead : access.cell ≠ head.cell := by
          intro same
          exact nodup.1 (same ▸ List.mem_map_of_mem member)
        rw [Function.update_of_ne notHead]
        exact found access (List.mem_cons_of_mem head member)
      rcases inductionHypothesis nodup.2 foundLater with ⟨memory', performs⟩
      exact ⟨memory', found head List.mem_cons_self, performs⟩

/-- What accesses to distinct cells leave is all they change. -/
theorem Performs.holdsAt {memory memory' : Cell → Content}
    {accesses : List (Access Cell Content)} (performs : Performs memory accesses memory')
    (nodup : (accesses.map Access.cell).Nodup) :
    HoldsAt memory (accesses.map Access.cell) (accesses.map Access.after) memory' where
  contents := by
    rw [List.map_map]
    exact List.map_congr_left fun access member => performs.after_of_nodup nodup member
  frame := fun _ untouched => performs.frame untouched

/-- One access to every listed cell turns the listed contents into what the accesses leave. -/
theorem HoldsAt.performs {base memory : Cell → Content} {cells : List Cell}
    {contents : List Content} (holds : HoldsAt base cells contents memory) (nodup : cells.Nodup)
    {accesses : List (Access Cell Content)} (isCells : accesses.map Access.cell = cells)
    (isContents : accesses.map Access.before = contents) :
    ∃ memory', Performs memory accesses memory' ∧
      HoldsAt base cells (accesses.map Access.after) memory' := by
  subst isCells
  have found : ∀ access ∈ accesses, memory access.cell = access.before := by
    have same := holds.contents.trans isContents.symm
    rw [List.map_map] at same
    exact List.map_inj_left.mp same
  rcases exists_performs nodup found with ⟨memory', performs⟩
  have left := performs.holdsAt nodup
  refine ⟨memory', performs, left.contents, ?_⟩
  intro cell untouched
  rw [left.frame cell untouched, holds.frame cell untouched]

/-- Accesses to distinct cells turn a memory into the one that has what they leave. -/
theorem HoldsAt.performed {memory memory' : Cell → Content} {accesses : List (Access Cell Content)}
    (holds : HoldsAt memory (accesses.map Access.cell) (accesses.map Access.after) memory')
    (nodup : (accesses.map Access.cell).Nodup)
    (found : accesses.map Access.before = (accesses.map Access.cell).map memory) :
    Performs memory accesses memory' := by
  rcases (HoldsAt.refl memory _).performs nodup rfl found with ⟨other, performs, left⟩
  rwa [holds.unique left]

/-- Accesses to some of the listed cells, when the contents of the others stay. -/
theorem HoldsAt.performs_some {Slot : Type w} {cell : Slot → Cell} {before after : Slot → Content}
    {base memory : Cell → Content} {slots visited : List Slot}
    (holds : HoldsAt base (slots.map cell) (slots.map before) memory)
    (nodup : (slots.map cell).Nodup) (once : visited.Nodup)
    (listed : ∀ slot ∈ visited, slot ∈ slots)
    (kept : ∀ slot ∈ slots, slot ∉ visited → after slot = before slot) :
    ∃ memory', Performs memory (visited.map fun slot => ⟨cell slot, before slot, after slot⟩)
        memory' ∧
      HoldsAt base (slots.map cell) (slots.map after) memory' := by
  have injective := List.inj_on_of_nodup_map nodup
  have contents : ∀ slot ∈ slots, memory (cell slot) = before slot := by
    have same := holds.contents
    rw [List.map_map] at same
    exact List.map_inj_left.mp same
  have distinct : ((visited.map fun slot =>
      (⟨cell slot, before slot, after slot⟩ : Access Cell Content)).map Access.cell).Nodup := by
    rw [List.map_map]
    exact once.map_on fun slot member other otherMember same =>
      injective (listed slot member) (listed other otherMember) same
  have found : ∀ access ∈ visited.map fun slot =>
      (⟨cell slot, before slot, after slot⟩ : Access Cell Content),
      memory access.cell = access.before := by
    intro access member
    rcases List.mem_map.mp member with ⟨slot, visits, rfl⟩
    exact contents slot (listed slot visits)
  rcases exists_performs distinct found with ⟨memory', performs⟩
  refine ⟨memory', performs, ?_, ?_⟩
  · rw [List.map_map]
    apply List.map_congr_left
    intro slot member
    by_cases visits : slot ∈ visited
    · exact performs.after_of_nodup distinct (List.mem_map_of_mem visits)
    · have untouched : cell slot ∉ (visited.map fun slot =>
          (⟨cell slot, before slot, after slot⟩ : Access Cell Content)).map Access.cell := by
        intro touched
        rw [List.map_map] at touched
        rcases List.mem_map.mp touched with ⟨other, otherVisits, same⟩
        exact visits (injective (listed other otherVisits) member same ▸ otherVisits)
      rw [Function.comp_apply, performs.frame untouched, contents slot member,
        kept slot member visits]
  · intro other untouched
    rw [performs.frame ?_, holds.frame other untouched]
    intro touched
    rw [List.map_map] at touched
    rcases List.mem_map.mp touched with ⟨slot, visits, rfl⟩
    exact untouched (List.mem_map_of_mem (listed slot visits))

end Listed

/-! ## Balance -/

section Balance

/-- The tuples the accesses produce. -/
def writes (accesses : List (Access Cell Content)) : Multiset (Cell × Content) :=
  (accesses.map fun access => (access.cell, access.after) : List _)

/-- The tuples the accesses consume. -/
def reads (accesses : List (Access Cell Content)) : Multiset (Cell × Content) :=
  (accesses.map fun access => (access.cell, access.before) : List _)

/-- The contents of some cells, as tuples. -/
def boundary (memory : Cell → Content) (cells : List Cell) : Multiset (Cell × Content) :=
  (cells.map fun cell => (cell, memory cell) : List _)

theorem writes_cons (access : Access Cell Content) (rest : List (Access Cell Content)) :
    writes (access :: rest) = {(access.cell, access.after)} + writes rest := by
  simp only [writes, List.map_cons, ← Multiset.cons_coe, Multiset.singleton_add]

theorem reads_cons (access : Access Cell Content) (rest : List (Access Cell Content)) :
    reads (access :: rest) = {(access.cell, access.before)} + reads rest := by
  simp only [reads, List.map_cons, ← Multiset.cons_coe, Multiset.singleton_add]

variable [DecidableEq Cell]

/-- Writing one listed cell exchanges one tuple of the boundary. -/
theorem boundary_update
    (memory : Cell → Content) {cells : List Cell} (nodup : cells.Nodup)
    {cell : Cell} (listed : cell ∈ cells) (content : Content) :
    boundary memory cells + {(cell, content)} =
      boundary (Function.update memory cell content) cells + {(cell, memory cell)} := by
  induction cells with
  | nil => exact absurd listed List.not_mem_nil
  | cons head rest inductionHypothesis =>
      rw [List.nodup_cons] at nodup
      have boundary_cons (current : Cell → Content) :
          boundary current (head :: rest) = {(head, current head)} + boundary current rest := by
        simp only [boundary, List.map_cons, ← Multiset.cons_coe, Multiset.singleton_add]
      rw [boundary_cons, boundary_cons]
      rcases List.mem_cons.mp listed with same | inRest
      · subst same
        have restSame :
            boundary (Function.update memory cell content) rest = boundary memory rest := by
          refine congrArg _ (List.map_congr_left fun other member => ?_)
          have notCell : other ≠ cell := by
            rintro rfl
            exact nodup.1 member
          rw [Function.update_of_ne notCell]
        rw [restSame, Function.update_self]
        ac_rfl
      · have notHead : head ≠ cell := by
          rintro rfl
          exact nodup.1 inRest
        rw [Function.update_of_ne notHead, add_assoc, add_assoc,
          inductionHypothesis nodup.2 inRest]

/-- What was there at first and what is left by the accesses is what the accesses
find and what is there at the end. -/
theorem Performs.balance
    {memory memory' : Cell → Content} {accesses : List (Access Cell Content)}
    (performs : Performs memory accesses memory')
    {cells : List Cell} (nodup : cells.Nodup)
    (covered : ∀ access ∈ accesses, access.cell ∈ cells) :
    boundary memory cells + writes accesses = boundary memory' cells + reads accesses := by
  induction accesses generalizing memory with
  | nil => rw [performs_nil_iff.mp performs]; rfl
  | cons access rest inductionHypothesis =>
      have restBalance :=
        inductionHypothesis performs.2 fun other member =>
          covered other (List.mem_cons_of_mem access member)
      have exchange :=
        boundary_update memory nodup (covered access List.mem_cons_self) access.after
      rw [writes_cons, reads_cons, ← add_assoc, exchange, performs.1, add_right_comm,
        restBalance]
      ac_rfl

end Balance

/-! ## Time -/

section Time

variable {Time : Type w} [LinearOrder Time] (time : Content → Time)

/-- Every access leaves a later time than it finds. -/
def Advances (accesses : List (Access Cell Content)) : Prop :=
  ∀ access ∈ accesses, time access.before < time access.after

variable {time}

theorem Advances.append
    {first second : List (Access Cell Content)}
    (left : Advances time first) (right : Advances time second) :
    Advances time (first ++ second) := by
  intro access member
  rcases List.mem_append.mp member with inFirst | inSecond
  · exact left access inFirst
  · exact right access inSecond

variable [DecidableEq Cell]

/-- Along a run of advancing accesses a cell only gets later. -/
theorem Performs.time_lt
    {memory memory' : Cell → Content} {accesses : List (Access Cell Content)}
    (performs : Performs memory accesses memory') (advances : Advances time accesses)
    {access : Access Cell Content} (member : access ∈ accesses) :
    time (memory access.cell) < time access.after := by
  induction accesses generalizing memory with
  | nil => exact absurd member List.not_mem_nil
  | cons head rest inductionHypothesis =>
      rcases List.mem_cons.mp member with rfl | inRest
      · rw [performs.1]
        exact advances access List.mem_cons_self
      · have later :=
          inductionHypothesis performs.2
            (fun other member => advances other (List.mem_cons_of_mem head member)) inRest
        by_cases same : access.cell = head.cell
        · rw [same, Function.update_self] at later
          rw [same, performs.1]
          exact (advances head List.mem_cons_self).trans later
        · rwa [Function.update_of_ne same] at later

/-- No cell is accessed twice at one time. -/
theorem Performs.nodup_times
    {memory memory' : Cell → Content} {accesses : List (Access Cell Content)}
    (performs : Performs memory accesses memory') (advances : Advances time accesses) :
    (accesses.map fun access => (access.cell, time access.after)).Nodup := by
  induction accesses generalizing memory with
  | nil => exact List.nodup_nil
  | cons head rest inductionHypothesis =>
      have restAdvances : Advances time rest := fun other member =>
        advances other (List.mem_cons_of_mem head member)
      rw [List.map_cons, List.nodup_cons]
      refine ⟨?_, inductionHypothesis performs.2 restAdvances⟩
      intro repeated
      obtain ⟨other, member, sameKey⟩ := List.mem_map.mp repeated
      obtain ⟨sameCell, sameTime⟩ := Prod.mk.inj sameKey
      have later := performs.2.time_lt restAdvances member
      rw [sameCell, Function.update_self, sameTime] at later
      exact lt_irrefl _ later

/-- Accesses of distinct cells inside the window `[start, stop)` advance when every
cell is older than the window, and leave every cell older than its end. -/
theorem Performs.advances_of_window
    {memory memory' : Cell → Content} {accesses : List (Access Cell Content)}
    (performs : Performs memory accesses memory')
    (nodup : (accesses.map Access.cell).Nodup) {start stop : Time} (ordered : start ≤ stop)
    (older : ∀ cell, time (memory cell) < start)
    (window : ∀ access ∈ accesses, start ≤ time access.after ∧ time access.after < stop) :
    Advances time accesses ∧ ∀ cell, time (memory' cell) < stop := by
  constructor
  · intro access member
    rw [← performs.before_of_nodup nodup member]
    exact (older access.cell).trans_le (window access member).1
  · intro cell
    by_cases touched : cell ∈ accesses.map Access.cell
    · obtain ⟨access, member, rfl⟩ := List.mem_map.mp touched
      rw [performs.after_of_nodup nodup member]
      exact (window access member).2
    · rw [performs.frame touched]
      exact (older cell).trans_le ordered

end Time

/-! ## Accesses in the order of their times -/

section Order

variable {Time : Type w} [LinearOrder Time]

/-- The accesses leave times in the window `[start, stop)`, later and later ones in each cell. -/
structure Ordered (time : Content → Time) (start stop : Time)
    (accesses : List (Access Cell Content)) : Prop where
  later : accesses.Pairwise fun first second =>
    first.cell = second.cell → time first.after < time second.after
  window : ∀ access ∈ accesses, start ≤ time access.after ∧ time access.after < stop

variable {time : Content → Time} {start middle stop : Time}
  {accesses first second : List (Access Cell Content)}

theorem Ordered.nil (time : Content → Time) (start stop : Time) :
    Ordered time start stop ([] : List (Access Cell Content)) :=
  ⟨List.Pairwise.nil, fun _ member => absurd member List.not_mem_nil⟩

theorem Ordered.append (left : Ordered time start middle first)
    (right : Ordered time middle stop second) (startMiddle : start ≤ middle)
    (middleStop : middle ≤ stop) : Ordered time start stop (first ++ second) where
  later := by
    rw [List.pairwise_append]
    refine ⟨left.later, right.later, ?_⟩
    intro access inFirst other inSecond _
    exact (left.window access inFirst).2.trans_le (right.window other inSecond).1
  window := by
    intro access member
    rcases List.mem_append.mp member with inFirst | inSecond
    · exact ⟨(left.window access inFirst).1, (left.window access inFirst).2.trans_le middleStop⟩
    · exact ⟨startMiddle.trans (right.window access inSecond).1,
        (right.window access inSecond).2⟩

theorem Ordered.tail {head : Access Cell Content}
    (ordered : Ordered time start stop (head :: accesses)) : Ordered time start stop accesses where
  later := (List.pairwise_cons.mp ordered.later).2
  window := fun access member => ordered.window access (List.mem_cons_of_mem head member)

/-- Accesses of other cells may be in the same window. -/
theorem Ordered.append_of_disjoint (left : Ordered time start stop first)
    (right : Ordered time start stop second)
    (disjoint : ∀ access ∈ first, ∀ other ∈ second, access.cell ≠ other.cell) :
    Ordered time start stop (first ++ second) where
  later := by
    rw [List.pairwise_append]
    refine ⟨left.later, right.later, ?_⟩
    intro access inFirst other inSecond same
    exact absurd same (disjoint access inFirst other inSecond)
  window := by
    intro access member
    rcases List.mem_append.mp member with inFirst | inSecond
    · exact left.window access inFirst
    · exact right.window access inSecond

theorem Ordered.of_nodup (nodup : (accesses.map Access.cell).Nodup)
    (window : ∀ access ∈ accesses, start ≤ time access.after ∧ time access.after < stop) :
    Ordered time start stop accesses where
  later := by
    rw [List.nodup_iff_pairwise_ne, List.pairwise_map] at nodup
    exact nodup.imp fun distinct same => absurd same distinct
  window := window

variable [DecidableEq Cell] {memory memory' : Cell → Content}

/-- Accesses in the order of their times advance when every cell is older than the first. -/
theorem Performs.advances_of_ordered (performs : Performs memory accesses memory')
    (ordered : Ordered time start stop accesses)
    (older : ∀ access ∈ accesses, time (memory access.cell) < time access.after) :
    Advances time accesses := by
  induction accesses generalizing memory with
  | nil => exact fun _ member => absurd member List.not_mem_nil
  | cons head rest inductionHypothesis =>
      have headFirst := (List.pairwise_cons.mp ordered.later).1
      have olderRest : ∀ access ∈ rest,
          time (Function.update memory head.cell head.after access.cell) < time access.after := by
        intro access member
        by_cases same : access.cell = head.cell
        · rw [same, Function.update_self]
          exact headFirst access member same.symm
        · rw [Function.update_of_ne same]
          exact older access (List.mem_cons_of_mem head member)
      intro access member
      rcases List.mem_cons.mp member with rfl | inRest
      · rw [← performs.1]
        exact older access List.mem_cons_self
      · exact inductionHypothesis performs.2 ordered.tail olderRest access inRest

end Order

/-! ## What balance forces -/

section Soundness

variable {Time : Type w} [LinearOrder Time] {time : Content → Time} [DecidableEq Cell]

omit [DecidableEq Cell] in
theorem mem_writes {accesses : List (Access Cell Content)} {cell : Cell} {content : Content} :
    (cell, content) ∈ writes accesses ↔
      ∃ access ∈ accesses, access.cell = cell ∧ access.after = content := by
  rw [writes, Multiset.mem_coe, List.mem_map]
  simp only [Prod.mk.injEq]

omit [DecidableEq Cell] in
theorem mem_boundary {memory : Cell → Content} {cells : List Cell} {cell : Cell}
    {content : Content} :
    (cell, content) ∈ boundary memory cells ↔ cell ∈ cells ∧ memory cell = content := by
  rw [boundary, Multiset.mem_coe, List.mem_map]
  constructor
  · rintro ⟨other, listed, same⟩
    rcases Prod.mk.inj same with ⟨rfl, content⟩
    exact ⟨listed, content⟩
  · rintro ⟨listed, rfl⟩
    exact ⟨cell, listed, rfl⟩

omit [DecidableEq Cell] in
/-- The first access finds what its cell had at first: no access leaves so old a tuple. -/
theorem before_of_balance {memory memory' : Cell → Content} {cells : List Cell}
    {head : Access Cell Content} {rest : List (Access Cell Content)}
    (later : ∀ access ∈ rest, head.cell = access.cell → time head.after < time access.after)
    (advances : Advances time (head :: rest))
    (balance : boundary memory cells + writes (head :: rest) =
      boundary memory' cells + reads (head :: rest)) :
    head.cell ∈ cells ∧ memory head.cell = head.before := by
  have found : (head.cell, head.before) ∈ boundary memory' cells + reads (head :: rest) := by
    apply Multiset.mem_add.mpr
    exact Or.inr (Multiset.mem_coe.mpr List.mem_cons_self)
  rw [← balance] at found
  rcases Multiset.mem_add.mp found with atFirst | written
  · exact mem_boundary.mp atFirst
  · rcases mem_writes.mp written with ⟨access, member, same, left⟩
    have early := advances head List.mem_cons_self
    rw [← left] at early
    rcases List.mem_cons.mp member with rfl | inRest
    · exact absurd early (lt_irrefl _)
    · exact absurd early (lt_asymm (later access inRest same.symm))

/-- Advancing accesses whose tuples balance can be performed in the order of their times, and leave
the final contents: every access finds what the latest access of its cell left. -/
theorem performs_of_balance {memory final : Cell → Content} {cells : List Cell}
    (nodup : cells.Nodup) {accesses : List (Access Cell Content)}
    (later : accesses.Pairwise fun first second =>
      first.cell = second.cell → time first.after < time second.after)
    (advances : Advances time accesses)
    (balance : boundary memory cells + writes accesses = boundary final cells + reads accesses) :
    ∃ memory', Performs memory accesses memory' ∧ ∀ cell ∈ cells, memory' cell = final cell := by
  induction accesses generalizing memory with
  | nil =>
      have noTuples : writes ([] : List (Access Cell Content)) = 0 := rfl
      have noReads : reads ([] : List (Access Cell Content)) = 0 := rfl
      rw [noTuples, noReads, add_zero, add_zero] at balance
      refine ⟨memory, .refl memory, ?_⟩
      intro cell listed
      have found : (cell, memory cell) ∈ boundary memory cells := mem_boundary.mpr ⟨listed, rfl⟩
      rw [balance] at found
      exact (mem_boundary.mp found).2.symm
  | cons head rest inductionHypothesis =>
      rw [List.pairwise_cons] at later
      rcases before_of_balance later.1 advances balance with ⟨listed, found⟩
      have exchange := boundary_update memory nodup listed head.after
      let next := Function.update memory head.cell head.after
      have restBalance :
          boundary next cells + writes rest = boundary final cells + reads rest := by
        apply add_right_cancel (b := {(head.cell, head.before)})
        calc
          boundary next cells + writes rest + {(head.cell, head.before)} =
              boundary next cells + {(head.cell, memory head.cell)} + writes rest := by
            rw [found, add_right_comm]
          _ = boundary memory cells + writes (head :: rest) := by
            rw [← exchange, writes_cons, add_assoc]
          _ = boundary final cells + reads rest + {(head.cell, head.before)} := by
            rw [balance, reads_cons, add_assoc, add_comm (reads rest)]
      have restAdvances : Advances time rest := fun access member =>
        advances access (List.mem_cons_of_mem head member)
      rcases inductionHypothesis later.2 restAdvances restBalance with
        ⟨memory', performs, ends⟩
      exact ⟨memory', ⟨found, performs⟩, ends⟩

omit [DecidableEq Cell] in
/-- Accesses sorted by their times are later and later in each cell when no cell is left twice with
one time. -/
theorem later_of_sorted {accesses : List (Access Cell Content)}
    (distinct : (accesses.map fun access => (access.cell, time access.after)).Nodup)
    (sorted : accesses.Pairwise fun first second => time first.after ≤ time second.after) :
    accesses.Pairwise fun first second =>
      first.cell = second.cell → time first.after < time second.after := by
  rw [List.nodup_iff_pairwise_ne, List.pairwise_map] at distinct
  exact (sorted.and distinct).imp fun both same =>
    both.1.lt_of_ne fun equal => both.2 (Prod.ext same equal)

/-- The times of advancing accesses are all that has to be kept of their order: sorted by them, the
accesses lead from the same memory to the same memory. -/
theorem Performs.of_sorted {memory memory' : Cell → Content}
    {accesses order : List (Access Cell Content)} (performs : Performs memory accesses memory')
    (advances : Advances time accesses) (perm : order.Perm accesses)
    (sorted : order.Pairwise fun first second => time first.after ≤ time second.after) :
    Performs memory order memory' := by
  let cells := (accesses.map Access.cell).dedup
  have nodup : cells.Nodup := List.nodup_dedup _
  have covered : ∀ access ∈ accesses, access.cell ∈ cells := fun access member =>
    List.mem_dedup.mpr (List.mem_map_of_mem member)
  have sameWrites : writes order = writes accesses := Multiset.coe_eq_coe.mpr (perm.map _)
  have sameReads : reads order = reads accesses := Multiset.coe_eq_coe.mpr (perm.map _)
  have balance : boundary memory cells + writes order = boundary memory' cells + reads order := by
    rw [sameWrites, sameReads]
    exact performs.balance nodup covered
  have distinct : (order.map fun access => (access.cell, time access.after)).Nodup :=
    (perm.map _).nodup_iff.mpr (performs.nodup_times advances)
  have orderAdvances : Advances time order := fun access member =>
    advances access (perm.mem_iff.mp member)
  rcases performs_of_balance nodup (later_of_sorted distinct sorted) orderAdvances balance
    with ⟨last, ordered, ends⟩
  have same : last = memory' := by
    funext cell
    by_cases touched : cell ∈ accesses.map Access.cell
    · exact ends cell (List.mem_dedup.mpr touched)
    · have untouched : cell ∉ order.map Access.cell := fun member =>
        touched ((perm.map _).mem_iff.mp member)
      rw [ordered.frame untouched, performs.frame touched]
  rw [← same]
  exact ordered

end Soundness

end OfflineMemory
