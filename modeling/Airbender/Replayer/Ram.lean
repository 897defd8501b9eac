import Airbender.Vm.RamAccesses
import Airbender.Vm.Snapshotter

/-!
# The RAM of a replay

A replay has no memory: reads and writes take the next entry of the log, whatever
their address.  `none` stands for running past the end of the log.
-/

namespace Airbender

structure ReplayerRam (romBits : Nat) where
  ramLog : List (List LogEntry)

/-- A timestamp from its low and high word. -/
def joinTimestamp (low high : U32) : TimestampScalar :=
  low.setWidth 64 ||| (high.setWidth 64 <<< 32)

namespace ReplayerRam

variable {romBits : Nat}

/-- The log without a front slice that is used up. -/
def dropFront (next : List LogEntry) (rest : List (List LogEntry)) : ReplayerRam romBits where
  ramLog := if 0 < next.length then next :: rest else rest

def peekWord (ram : ReplayerRam romBits) : Option U32 :=
  match ram.ramLog with
  | ((value, _) :: _) :: _ => some value
  | _ => none

/-- `read_word`, and `write_word` too: the time and value found there by the run. -/
def readWord (ram : ReplayerRam romBits) :
    Option ((TimestampScalar × U32) × ReplayerRam romBits) :=
  match ram.ramLog with
  | ((value, (low, high)) :: next) :: rest =>
      some ((joinTimestamp low high, value), dropFront next rest)
  | _ => none

def skipIfReplaying (numSnapshots : Nat) (ram : ReplayerRam romBits) :
    Option (ReplayerRam romBits) :=
  match ram.ramLog with
  | src :: rest =>
      if numSnapshots ≤ src.length then some (dropFront (src.drop numSnapshots) rest) else none
  | [] => none

/-- Reads in a row. -/
def readWords (ram : ReplayerRam romBits) :
    Nat → Option (List (TimestampScalar × U32) × ReplayerRam romBits)
  | 0 => some ([], ram)
  | count + 1 => do
      let (word, ram) ← ram.readWord
      let (words, ram) ← ram.readWords count
      some (word :: words, ram)

/-- ROM words count as zero in a witness. -/
def maskReadForWitness (romBits : Nat) (address value : U32) : U32 :=
  if address.toNat < romBytes romBits then 0 else value

/-! ## Logs of one slice -/

/-- The log of these entries, without an empty slice. -/
def ofEntries (entries : List LogEntry) : ReplayerRam romBits :=
  dropFront entries []

/-- What remains to be read is `entries`. -/
def Holds (ram : ReplayerRam romBits) (entries : List LogEntry) : Prop :=
  ram = ofEntries entries ∨ (entries = [] ∧ ram = ⟨[[]]⟩)

theorem holds_ofEntries (entries : List LogEntry) :
    (ofEntries entries : ReplayerRam romBits).Holds entries := Or.inl rfl

theorem holds_singleton (entries : List LogEntry) :
    (⟨[entries]⟩ : ReplayerRam romBits).Holds entries := by
  cases entries with
  | nil => exact Or.inr ⟨rfl, rfl⟩
  | cons entry rest => exact Or.inl rfl

theorem Holds.eq_ofEntries {ram : ReplayerRam romBits} {entries : List LogEntry}
    (holds : ram.Holds entries) (nonempty : entries ≠ []) : ram = ofEntries entries := by
  rcases holds with same | ⟨empty, _⟩
  · exact same
  · exact absurd empty nonempty

/-- A log that holds nothing more is used up. -/
theorem Holds.flatten_eq {ram : ReplayerRam romBits} {entries : List LogEntry}
    (holds : ram.Holds entries) : ram.ramLog.flatten = entries := by
  rcases holds with rfl | ⟨rfl, rfl⟩
  · cases entries with
    | nil => rfl
    | cons entry rest => exact List.append_nil _
  · rfl

theorem joinTimestamp_split (timestamp : TimestampScalar) :
    joinTimestamp (timestamp.setWidth 32) ((timestamp >>> 32).setWidth 32) = timestamp := by
  apply BitVec.eq_of_getLsbD_eq
  intro i bound
  rw [joinTimestamp, BitVec.getLsbD_or, BitVec.getLsbD_shiftLeft]
  rcases Nat.lt_or_ge i 32 with low | high
  · simp [low, bound]
  · have shifted : 32 + (i - 32) = i := by
      omega
    have inWord : i - 32 < 32 := by
      omega
    simp [bound, Nat.not_lt.mpr high, shifted, inWord]
    intro
    omega

theorem dropFront_eq_ofEntries (entries : List LogEntry) :
    (dropFront entries [] : ReplayerRam romBits) = ofEntries entries := rfl

theorem ofEntries_cons (entry : LogEntry) (rest : List LogEntry) :
    (ofEntries (entry :: rest) : ReplayerRam romBits) = ⟨[entry :: rest]⟩ := rfl

/-- Reading the entry of an access gives back what the access found. -/
theorem readWord_event (access : RamAccess) (rest : List LogEntry) :
    (ofEntries (access.event.logEntry :: rest) : ReplayerRam romBits).readWord =
      some ((access.before.timestamp, access.before.value), ofEntries rest) := by
  rw [ofEntries_cons]
  simp only [readWord, RamAccess.event, SnapshotEvent.logEntry, joinTimestamp_split,
    dropFront_eq_ofEntries]

/-- Values without an access come back with time zero. -/
theorem readWord_arbitraryValue (value : U32) (rest : List LogEntry) :
    (ofEntries ((SnapshotEvent.arbitraryValue value).logEntry :: rest) :
        ReplayerRam romBits).readWord = some ((0, value), ofEntries rest) := rfl

theorem peekWord_event (access : RamAccess) (rest : List LogEntry) :
    (ofEntries (access.event.logEntry :: rest) : ReplayerRam romBits).peekWord =
      some access.before.value := rfl

theorem readWords_events (accesses : List RamAccess) (rest : List LogEntry) :
    (ofEntries ((accesses.map RamAccess.event).map SnapshotEvent.logEntry ++ rest) :
        ReplayerRam romBits).readWords accesses.length =
      some (accesses.map fun access => (access.before.timestamp, access.before.value),
        ofEntries rest) := by
  induction accesses with
  | nil => rfl
  | cons access others inductionHypothesis =>
      simp only [List.map_cons, List.cons_append, List.length_cons, readWords,
        readWord_event, inductionHypothesis, Option.bind_eq_bind, Option.bind_some]

theorem skipIfReplaying_append {entries rest : List LogEntry} (nonempty : entries ≠ []) :
    (ofEntries (entries ++ rest) : ReplayerRam romBits).skipIfReplaying entries.length =
      some (ofEntries rest) := by
  rcases List.exists_cons_of_ne_nil nonempty with ⟨entry, others, rfl⟩
  rw [List.cons_append, ofEntries_cons]
  have fits : (entry :: others).length ≤ (entry :: (others ++ rest)).length := by
    simp only [List.length_cons, List.length_append]
    omega
  have remaining : (entry :: (others ++ rest)).drop (entry :: others).length = rest := by
    rw [← List.cons_append]
    exact List.drop_left
  simp only [skipIfReplaying, if_pos fits, remaining, dropFront_eq_ofEntries]

end ReplayerRam

end Airbender
