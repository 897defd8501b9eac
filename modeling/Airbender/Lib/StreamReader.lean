import Mathlib.Data.Option.Basic
import Mathlib.Data.List.Basic

/-!
# Readers of a token stream

A reader takes tokens from the front of a list and may fail.  This module contains the reader
monad, its loops, and the rules for what a successful run says.
-/

namespace StreamReader

universe u

/-- A computation that takes tokens from a stream, or fails. -/
def Reader (Token α : Type u) : Type u := List Token → Option (α × List Token)

variable {Token α β σ ι : Type u}

namespace Reader

instance : Monad (Reader Token) where
  pure value := fun stream => some (value, stream)
  bind reader next := fun stream =>
    match reader stream with
    | none => none
    | some (value, rest) => next value rest

/-- The next token. -/
def token : Reader Token Token
  | [] => none
  | head :: rest => some (head, rest)

/-- The next `count` tokens. -/
def tokens (count : Nat) : Reader Token (List Token) := fun stream =>
  if count ≤ stream.length then some (stream.take count, stream.drop count) else none

/-- A condition without which the run fails. -/
def check (condition : Prop) [Decidable condition] : Reader Token PUnit := fun stream =>
  if condition then some (⟨⟩, stream) else none

/-- A value that may be missing. -/
def ofOption (value : Option α) : Reader Token α := fun stream =>
  value.map fun value => (value, stream)

/-- `count` passes of a loop body, numbered from `start`. -/
def loop (body : Nat → σ → Reader Token σ) (start : Nat) : Nat → σ → Reader Token σ
  | 0, state => pure state
  | count + 1, state => do
      let state ← body start state
      loop body (start + 1) count state

/-- One pass of a loop body for each item. -/
def each (body : ι → σ → Reader Token σ) : List ι → σ → Reader Token σ
  | [], state => pure state
  | item :: items, state => do
      let state ← body item state
      each body items state

/-! ## Successful runs -/

theorem pure_eq_some_iff {value result : α} {stream rest : List Token} :
    (pure value : Reader Token α) stream = some (result, rest) ↔
      result = value ∧ rest = stream := by
  constructor
  · intro run
    have pair : (value, stream) = (result, rest) := Option.some.inj run
    cases pair
    exact ⟨rfl, rfl⟩
  · rintro ⟨rfl, rfl⟩
    rfl

theorem bind_eq_some_iff {reader : Reader Token α} {next : α → Reader Token β} {result : β}
    {stream rest : List Token} :
    (reader >>= next) stream = some (result, rest) ↔
      ∃ value middle, reader stream = some (value, middle) ∧
        next value middle = some (result, rest) := by
  change (match reader stream with
    | none => none
    | some (value, rest) => next value rest) = some (result, rest) ↔ _
  cases reader stream with
  | none =>
      constructor
      · intro run
        exact absurd run (Option.some_ne_none _).symm
      · rintro ⟨_, _, run, _⟩
        exact absurd run (Option.some_ne_none _).symm
  | some pair =>
      obtain ⟨value, middle⟩ := pair
      constructor
      · intro run
        exact ⟨value, middle, rfl, run⟩
      · rintro ⟨value', middle', same, run⟩
        cases same
        exact run

theorem bind_of_run {reader : Reader Token α} {next : α → Reader Token β} {value : α}
    {stream middle : List Token} (run : reader stream = some (value, middle)) :
    (reader >>= next) stream = next value middle := by
  change (match reader stream with
    | none => none
    | some (value, rest) => next value rest) = _
  rw [run]

theorem token_eq_some_iff {head : Token} {stream rest : List Token} :
    token stream = some (head, rest) ↔ stream = head :: rest := by
  cases stream with
  | nil =>
      constructor
      · intro run
        exact absurd run (Option.some_ne_none _).symm
      · intro equality
        exact absurd equality (List.cons_ne_nil _ _).symm
  | cons first others =>
      constructor
      · intro run
        have pair : (first, others) = (head, rest) := Option.some.inj run
        cases pair
        rfl
      · intro equality
        cases equality
        rfl

theorem check_eq_some_iff {condition : Prop} [Decidable condition] {outcome : PUnit}
    {stream rest : List Token} :
    check condition stream = some (outcome, rest) ↔ condition ∧ rest = stream := by
  rw [check]
  split
  · rename_i holds
    constructor
    · intro run
      have pair := Option.some.inj run
      exact ⟨holds, (congrArg Prod.snd pair).symm⟩
    · rintro ⟨_, rfl⟩
      rfl
  · rename_i fails
    constructor
    · intro run
      exact absurd run (Option.some_ne_none _).symm
    · rintro ⟨holds, _⟩
      exact absurd holds fails

theorem ofOption_eq_some_iff {value : Option α} {result : α} {stream rest : List Token} :
    ofOption value stream = some (result, rest) ↔ value = some result ∧ rest = stream := by
  cases value with
  | none =>
      constructor
      · intro run
        exact absurd run (Option.some_ne_none _).symm
      · rintro ⟨missing, _⟩
        exact absurd missing (Option.some_ne_none _).symm
  | some value =>
      constructor
      · intro run
        have pair : (value, stream) = (result, rest) := Option.some.inj run
        cases pair
        exact ⟨rfl, rfl⟩
      · rintro ⟨same, rfl⟩
        cases same
        rfl

theorem tokens_eq_some_iff {count : Nat} {taken stream rest : List Token} :
    tokens count stream = some (taken, rest) ↔
      taken.length = count ∧ stream = taken ++ rest := by
  rw [tokens]
  split
  · rename_i enough
    constructor
    · intro run
      have pair : (stream.take count, stream.drop count) = (taken, rest) := Option.some.inj run
      cases pair
      refine ⟨?_, (List.take_append_drop count stream).symm⟩
      rw [List.length_take, Nat.min_eq_left enough]
    · rintro ⟨rfl, rfl⟩
      rw [List.take_left, List.drop_left]
  · rename_i short
    constructor
    · intro run
      exact absurd run (Option.some_ne_none _).symm
    · rintro ⟨rfl, rfl⟩
      rw [List.length_append] at short
      exact absurd (Nat.le_add_right _ _) short

theorem check_bind_eq_some_iff {condition : Prop} [Decidable condition]
    {next : PUnit → Reader Token β} {result : β} {stream rest : List Token} :
    (check condition >>= next) stream = some (result, rest) ↔
      condition ∧ next ⟨⟩ stream = some (result, rest) := by
  rw [bind_eq_some_iff]
  constructor
  · rintro ⟨_, middle, checked, run⟩
    obtain ⟨holds, rfl⟩ := check_eq_some_iff.mp checked
    exact ⟨holds, run⟩
  · rintro ⟨holds, run⟩
    exact ⟨⟨⟩, stream, check_eq_some_iff.mpr ⟨holds, rfl⟩, run⟩

theorem ofOption_bind_eq_some_iff {value : Option α} {next : α → Reader Token β} {result : β}
    {stream rest : List Token} :
    (ofOption value >>= next) stream = some (result, rest) ↔
      ∃ found, value = some found ∧ next found stream = some (result, rest) := by
  rw [bind_eq_some_iff]
  constructor
  · rintro ⟨found, middle, taken, run⟩
    obtain ⟨present, rfl⟩ := ofOption_eq_some_iff.mp taken
    exact ⟨found, present, run⟩
  · rintro ⟨found, present, run⟩
    exact ⟨found, stream, ofOption_eq_some_iff.mpr ⟨present, rfl⟩, run⟩

theorem token_bind_eq_some_iff {next : Token → Reader Token β} {result : β}
    {stream rest : List Token} :
    (token >>= next) stream = some (result, rest) ↔
      ∃ head middle, stream = head :: middle ∧ next head middle = some (result, rest) := by
  rw [bind_eq_some_iff]
  constructor
  · rintro ⟨head, middle, taken, run⟩
    exact ⟨head, middle, token_eq_some_iff.mp taken, run⟩
  · rintro ⟨head, middle, front, run⟩
    exact ⟨head, middle, token_eq_some_iff.mpr front, run⟩

/-! ## Loops -/

section Loops

variable {body : Nat → σ → Reader Token σ}

theorem loop_zero {start : Nat} {state result : σ} {stream rest : List Token} :
    loop body start 0 state stream = some (result, rest) ↔ result = state ∧ rest = stream :=
  pure_eq_some_iff

theorem loop_succ {start count : Nat} {state result : σ} {stream rest : List Token} :
    loop body start (count + 1) state stream = some (result, rest) ↔
      ∃ next middle, body start state stream = some (next, middle) ∧
        loop body (start + 1) count next middle = some (result, rest) :=
  bind_eq_some_iff

/-- What every pass preserves, the loop preserves. -/
theorem loop_invariant (invariant : Nat → σ → Prop)
    (step : ∀ index state stream next middle, invariant index state →
      body index state stream = some (next, middle) → invariant (index + 1) next)
    {start count : Nat} {state result : σ} {stream rest : List Token}
    (initially : invariant start state)
    (run : loop body start count state stream = some (result, rest)) :
    invariant (start + count) result := by
  induction count generalizing start state stream with
  | zero =>
      obtain ⟨rfl, -⟩ := loop_zero.mp run
      exact initially
  | succ count inductionHypothesis =>
      obtain ⟨next, middle, first, others⟩ := loop_succ.mp run
      have later := inductionHypothesis (step _ _ _ _ _ initially first) others
      rwa [Nat.add_right_comm start 1 count] at later

end Loops

section Each

variable {body : ι → σ → Reader Token σ}

theorem each_nil {state result : σ} {stream rest : List Token} :
    each body [] state stream = some (result, rest) ↔ result = state ∧ rest = stream :=
  pure_eq_some_iff

theorem each_cons {item : ι} {items : List ι} {state result : σ} {stream rest : List Token} :
    each body (item :: items) state stream = some (result, rest) ↔
      ∃ next middle, body item state stream = some (next, middle) ∧
        each body items next middle = some (result, rest) :=
  bind_eq_some_iff

theorem each_invariant (invariant : σ → Prop)
    (step : ∀ item state stream next middle, invariant state →
      body item state stream = some (next, middle) → invariant next)
    {items : List ι} {state result : σ} {stream rest : List Token}
    (initially : invariant state)
    (run : each body items state stream = some (result, rest)) : invariant result := by
  induction items generalizing state stream with
  | nil =>
      obtain ⟨rfl, -⟩ := each_nil.mp run
      exact initially
  | cons item items inductionHypothesis =>
      obtain ⟨next, middle, first, others⟩ := each_cons.mp run
      exact inductionHypothesis (step _ _ _ _ _ initially first) others

end Each

/-! ## Words that are read exactly -/

/-- Whatever comes after `words`, the reader stops right behind them with `value`. -/
def Returns (reader : Reader Token α) (words : List Token) (value : α) : Prop :=
  ∀ rest, reader (words ++ rest) = some (value, rest)

/-- Whatever comes after `words`, the reader succeeds exactly where `condition` holds, and then
stops right behind them with `value`. -/
def ReturnsIff (reader : Reader Token α) (words : List Token) (condition : Prop) (value : α) :
    Prop :=
  ∀ rest result, reader (words ++ rest) = some result ↔ condition ∧ result = (value, rest)

/-- The states of a loop with numbered passes: where it goes from each, one item after the
other. -/
def passed (next : Nat → ι → σ → σ) : Nat → List ι → σ → σ
  | _, [], state => state
  | index, item :: items, state => passed next (index + 1) items (next index item state)

/-- What each pass asks for, in the state that the passes before it reach. -/
def Allowed (allows : Nat → ι → σ → Prop) (next : Nat → ι → σ → σ) : Nat → List ι → σ → Prop
  | _, [], _ => True
  | index, item :: items, state =>
      allows index item state ∧ Allowed allows next (index + 1) items (next index item state)

/-- The last pass, in the state that the others reach. -/
theorem Allowed.last {allows : Nat → ι → σ → Prop} {next : Nat → ι → σ → σ} {index : Nat}
    {items : List ι} {item : ι} {state : σ}
    (allowed : Allowed allows next index (items ++ [item]) state) :
    allows (index + items.length) item (passed next index items state) := by
  induction items generalizing index state with
  | nil => exact allowed.1
  | cons first items inductionHypothesis =>
      have later := inductionHypothesis allowed.2
      rwa [Nat.add_right_comm index 1 items.length] at later

namespace ReturnsIff

variable {reader : Reader Token α} {words later : List Token} {condition after : Prop}
  {value : α} {result : β}

theorem of_returns (returns : Returns reader words value) :
    ReturnsIff reader words True value := by
  intro rest outcome
  rw [returns rest, Option.some_inj, true_and, eq_comm]

/-- Where the condition holds, the reader returns. -/
theorem returns (reads : ReturnsIff reader words condition value) (holds : condition) :
    Returns reader words value := fun rest => (reads rest (value, rest)).mpr ⟨holds, rfl⟩

/-- What a run says of the condition, the words that are left, and its value. -/
theorem of_run (reads : ReturnsIff reader words condition value) {outcome : α}
    {rest left : List Token} (run : reader (words ++ rest) = some (outcome, left)) :
    condition ∧ outcome = value ∧ left = rest := by
  obtain ⟨holds, pair⟩ := (reads rest _).mp run
  cases pair
  exact ⟨holds, rfl, rfl⟩

theorem congr {condition' : Prop} {value' : α} (reads : ReturnsIff reader words condition value)
    (same : condition ↔ condition') (values : condition → value = value') :
    ReturnsIff reader words condition' value' := by
  intro rest outcome
  rw [reads, same]
  constructor
  · rintro ⟨holds, rfl⟩
    rw [values (same.mpr holds)]
    exact ⟨holds, rfl⟩
  · rintro ⟨holds, rfl⟩
    rw [values (same.mpr holds)]
    exact ⟨holds, rfl⟩

theorem pure (value : α) : ReturnsIff (Pure.pure value : Reader Token α) [] True value :=
  of_returns fun _ => rfl

theorem bind {next : α → Reader Token β} (reads : ReturnsIff reader words condition value)
    (continues : condition → ReturnsIff (next value) later after result) :
    ReturnsIff (reader >>= next) (words ++ later) (condition ∧ after) result := by
  rintro rest ⟨outcome, left⟩
  rw [List.append_assoc, bind_eq_some_iff]
  constructor
  · rintro ⟨middle, remaining, run, run'⟩
    obtain ⟨holds, rfl, rfl⟩ := reads.of_run run
    obtain ⟨holds', rfl, rfl⟩ := (continues holds).of_run run'
    exact ⟨⟨holds, holds'⟩, rfl⟩
  · rintro ⟨⟨holds, holds'⟩, pair⟩
    cases pair
    exact ⟨value, later ++ rest, reads.returns holds _, (continues holds).returns holds' rest⟩

/-- A first step that reads nothing. -/
theorem nil_bind {next : α → Reader Token β} (reads : ReturnsIff reader [] condition value)
    (continues : condition → ReturnsIff (next value) later after result) :
    ReturnsIff (reader >>= next) later (condition ∧ after) result :=
  reads.bind continues

/-- What follows reads nothing. -/
theorem bind_nil {next : α → Reader Token β} (reads : ReturnsIff reader words condition value)
    (continues : condition → ReturnsIff (next value) [] after result) :
    ReturnsIff (reader >>= next) words (condition ∧ after) result := by
  have joined := reads.bind continues
  rwa [List.append_nil] at joined

/-- A last step that reads and asks for nothing. -/
theorem map (reads : ReturnsIff reader words condition value) (next : α → β) :
    ReturnsIff (reader >>= fun value => Pure.pure (next value)) words condition (next value) :=
  (reads.bind_nil fun _ => pure (next value)).congr (and_iff_left trivial) fun _ => rfl

theorem returns_bind {next : α → Reader Token β} (returns : Returns reader words value)
    (continues : ReturnsIff (next value) later after result) :
    ReturnsIff (reader >>= next) (words ++ later) after result :=
  ((of_returns returns).bind fun _ => continues).congr (iff_of_eq (true_and after)) fun _ => rfl

theorem token_bind {next : Token → Reader Token β} {head : Token}
    (continues : ReturnsIff (next head) words condition result) :
    ReturnsIff (token >>= next) (head :: words) condition result := by
  have first : Returns (token : Reader Token Token) [head] head := fun _ => rfl
  exact returns_bind first continues

theorem tokens_bind {taken : List Token} {count : Nat} {next : List Token → Reader Token β}
    (length : taken.length = count)
    (continues : ReturnsIff (next taken) words condition result) :
    ReturnsIff (tokens count >>= next) (taken ++ words) condition result := by
  have first : Returns (tokens count) taken taken := fun _ =>
    tokens_eq_some_iff.mpr ⟨length, rfl⟩
  exact returns_bind first continues

theorem check (condition : Prop) [Decidable condition] :
    ReturnsIff (Reader.check condition : Reader Token PUnit) [] condition ⟨⟩ := by
  rintro rest ⟨outcome, left⟩
  rw [List.nil_append, check_eq_some_iff]
  constructor
  · rintro ⟨holds, rfl⟩
    exact ⟨holds, rfl⟩
  · rintro ⟨holds, pair⟩
    cases pair
    exact ⟨holds, rfl⟩

theorem check_bind {condition : Prop} [Decidable condition] {next : PUnit → Reader Token β}
    (continues : condition → ReturnsIff (next ⟨⟩) words after result) :
    ReturnsIff (Reader.check condition >>= next) words (condition ∧ after) result :=
  (check condition).nil_bind continues

/-- A check that cannot fail. -/
theorem met_bind {condition : Prop} [Decidable condition] (met : condition)
    {next : PUnit → Reader Token β} (continues : ReturnsIff (next ⟨⟩) words after result) :
    ReturnsIff (Reader.check condition >>= next) words after result :=
  (check_bind fun _ => continues).congr (and_iff_right met) fun _ => rfl

theorem ofOption_bind {found : Option α} {next : α → Reader Token β} {after : α → Prop}
    (continues : ∀ value, found = some value → ReturnsIff (next value) words (after value) result) :
    ReturnsIff (ofOption found >>= next) words (∃ value, found = some value ∧ after value)
      result := by
  rintro rest ⟨outcome, left⟩
  rw [ofOption_bind_eq_some_iff]
  constructor
  · rintro ⟨value, isFound, run⟩
    obtain ⟨holds, rfl, rfl⟩ := (continues value isFound).of_run run
    exact ⟨⟨value, isFound, holds⟩, rfl⟩
  · rintro ⟨⟨value, isFound, holds⟩, pair⟩
    cases pair
    exact ⟨value, isFound, (continues value isFound).returns holds rest⟩

/-- Only a part of what follows asks for the value. -/
theorem ofOption_bind_and {found : Option α} {next : α → Reader Token β} {allows : α → Prop}
    (continues : ∀ value, found = some value →
      ReturnsIff (next value) words (allows value ∧ after) result) :
    ReturnsIff (ofOption found >>= next) words
      ((∃ value, found = some value ∧ allows value) ∧ after) result := by
  refine (ofOption_bind continues).congr ?_ fun _ => rfl
  simp only [← and_assoc, exists_and_right]

/-- A loop over as many passes as there are items reads their words one after the other. -/
theorem loop {item : Type u} {items : List item} {body : Nat → σ → Reader Token σ}
    {wordsOf : item → List Token} {allows : Nat → item → σ → Prop} {next : Nat → item → σ → σ}
    (step : ∀ index current state, current ∈ items →
      ReturnsIff (body index state) (wordsOf current) (allows index current state)
        (next index current state)) (start : Nat) (state : σ) :
    ReturnsIff (Reader.loop body start items.length state) (items.flatMap wordsOf)
      (Allowed allows next start items state) (passed next start items state) := by
  induction items generalizing start state with
  | nil => exact pure state
  | cons current items inductionHypothesis =>
      rw [List.flatMap_cons]
      refine bind (step start current state (List.mem_cons_self ..)) fun _ => ?_
      exact inductionHypothesis
        (fun index current state member => step index current state (List.mem_cons_of_mem _ member))
        (start + 1) _

/-- A loop over items that are written one after the other. -/
theorem each {item : Type u} {items : List item} {entry : item → ι}
    {body : ι → σ → Reader Token σ} {wordsOf : item → List Token}
    {allows : Nat → item → σ → Prop} {next : Nat → item → σ → σ} (invariant : σ → Prop)
    (step : ∀ index current state, current ∈ items → invariant state →
      ReturnsIff (body (entry current) state) (wordsOf current) (allows index current state)
        (next index current state))
    (preserved : ∀ index current state, current ∈ items → invariant state →
      allows index current state → invariant (next index current state))
    (start : Nat) {state : σ} (initially : invariant state) :
    ReturnsIff (Reader.each body (items.map entry) state) (items.flatMap wordsOf)
      (Allowed allows next start items state) (passed next start items state) := by
  induction items generalizing start state with
  | nil => exact pure state
  | cons current items inductionHypothesis =>
      rw [List.flatMap_cons]
      have member := List.mem_cons_self (a := current) (l := items)
      refine bind (step start current state member initially) fun allowed => ?_
      exact inductionHypothesis
        (fun index current state member =>
          step index current state (List.mem_cons_of_mem _ member))
        (fun index current state member =>
          preserved index current state (List.mem_cons_of_mem _ member))
        (start + 1) (preserved start current state member initially allowed)

end ReturnsIff

end Reader

end StreamReader
