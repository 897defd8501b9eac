import Airbender.Lib.OfflineMemory
import Airbender.Vm.Ram

/-!
# The accesses behind the RAM operations

Every RAM operation performs a list of accesses on the backing array and reports
exactly these accesses to the snapshotter.
-/

namespace Airbender

open OfflineMemory

/-- One access of a RAM word. -/
structure RamAccess where
  address : U32
  before : Register
  after : Register

namespace RamAccess

def toAccess (access : RamAccess) : Access Nat Register :=
  ⟨wordIdx access.address, access.before, access.after⟩

/-- What `append_memory_read` is told about the access. -/
def event (access : RamAccess) : SnapshotEvent :=
  .memoryRead access.address access.before.value access.before.timestamp access.after.timestamp

@[simp]
theorem toAccess_cell (access : RamAccess) :
    access.toAccess.cell = wordIdx access.address := rfl

@[simp]
theorem toAccess_before (access : RamAccess) : access.toAccess.before = access.before := rfl

@[simp]
theorem toAccess_after (access : RamAccess) : access.toAccess.after = access.after := rfl

end RamAccess

/-! ## Consecutive addresses -/

/-- A block aligned to its size lies inside the address space. -/
theorem toNat_of_aligned
    {address : U32} {size : Nat} (divides : size ∣ 2 ^ 32) (small : size < 2 ^ 32)
    (aligned : address % BitVec.ofNat 32 size = 0) :
    address.toNat % size = 0 ∧ address.toNat + size ≤ 2 ^ 32 := by
  have remainder : address.toNat % size = 0 := by
    have noRemainder := congrArg BitVec.toNat aligned
    rwa [BitVec.toNat_umod, BitVec.toNat_ofNat, Nat.mod_eq_of_lt small] at noRemainder
  refine ⟨remainder, ?_⟩
  obtain ⟨blocks, blocksEq⟩ := Nat.dvd_of_mod_eq_zero remainder
  obtain ⟨total, totalEq⟩ := divides
  have bound := address.isLt
  rw [blocksEq, totalEq] at bound ⊢
  have fewer : blocks + 1 ≤ total := Nat.lt_of_mul_lt_mul_left bound
  rw [← Nat.mul_succ]
  exact Nat.mul_le_mul_left size fewer

def wordAddresses (address : U32) (count : Nat) : List U32 :=
  (List.range count).map fun i => address + BitVec.ofNat 32 (4 * i)

theorem wordAddresses_succ (address : U32) (count : Nat) :
    wordAddresses address (count + 1) = address :: wordAddresses (address + 4) count := by
  simp only [wordAddresses, List.range_succ_eq_map, List.map_cons, List.map_map]
  refine List.cons_eq_cons.mpr ⟨by simp, List.map_congr_left fun i _ => ?_⟩
  have shifted : BitVec.ofNat 32 (4 * (i + 1)) = 4 + BitVec.ofNat 32 (4 * i) := by
    rw [Nat.mul_succ, Nat.add_comm, BitVec.ofNat_add]
    rfl
  simp only [Function.comp_apply, Nat.succ_eq_add_one, shifted, BitVec.add_assoc]

@[simp]
theorem length_wordAddresses (address : U32) (count : Nat) :
    (wordAddresses address count).length = count := by
  simp [wordAddresses]

/-- Inside the address space consecutive addresses name consecutive slots. -/
theorem wordIdx_wordAddresses
    {address : U32} {count : Nat} (aligned : address.toNat % 4 = 0)
    (fits : address.toNat + 4 * count ≤ 2 ^ 32) :
    (wordAddresses address count).map wordIdx = List.range' (wordIdx address) count := by
  rw [wordAddresses, List.map_map, List.range'_eq_map_range]
  refine List.map_congr_left fun i member => ?_
  have below := List.mem_range.mp member
  have wordSize : (4 : U32).toNat = 4 := rfl
  simp only [Function.comp_apply, wordIdx, BitVec.toNat_udiv, BitVec.toNat_add,
    BitVec.toNat_ofNat, wordSize]
  omega

theorem nodup_wordIdx
    {address : U32} {count : Nat} (aligned : address.toNat % 4 = 0)
    (fits : address.toNat + 4 * count ≤ 2 ^ 32) :
    ((wordAddresses address count).map wordIdx).Nodup := by
  rw [wordIdx_wordAddresses aligned fits]
  exact List.nodup_range'

theorem map_toAccess_cell (accesses : List RamAccess) :
    (accesses.map RamAccess.toAccess).map Access.cell =
      (accesses.map RamAccess.address).map wordIdx := by
  rw [List.map_map, List.map_map]
  rfl

namespace RamWithRomRegion

variable {romBits : Nat}

/-! ## Single words -/

theorem peekWord_eq_some_iff {ram : RamWithRomRegion romBits} {address word : U32} :
    ram.peekWord address = some word ↔
      wordIdx address < ram.len ∧ (ram.backing (wordIdx address)).value = word := by
  simp only [peekWord]
  split <;> simp_all

/-- A read finds the slot and leaves its value with a new time. -/
theorem readWord_eq_some_iff
    {ram ram' : RamWithRomRegion romBits} {address word : U32}
    {timestamp readTimestamp : TimestampScalar} :
    ram.readWord address timestamp = some ((readTimestamp, word), ram') ↔
      wordIdx address < ram.len ∧ ram.backing (wordIdx address) = ⟨readTimestamp, word⟩ ∧
        ram' = ram.setSlot (wordIdx address) ⟨timestamp ||| 1, word⟩ := by
  simp only [readWord]
  constructor
  · intro read
    split at read
    · next inRange =>
        simp only [Option.some.injEq, Prod.mk.injEq] at read
        obtain ⟨⟨rfl, rfl⟩, rfl⟩ := read
        exact ⟨inRange, rfl, rfl⟩
    · exact absurd read (by simp)
  · rintro ⟨inRange, found, rfl⟩
    simp [inRange, found]

/-- A write finds a slot above the ROM and replaces it. -/
theorem writeWord_eq_some_iff
    {ram ram' : RamWithRomRegion romBits} {address word oldValue : U32}
    {timestamp readTimestamp : TimestampScalar} :
    ram.writeWord address word timestamp = some ((readTimestamp, oldValue), ram') ↔
      wordIdx address < ram.len ∧ romWords romBits ≤ wordIdx address ∧
        ram.backing (wordIdx address) = ⟨readTimestamp, oldValue⟩ ∧
          ram' = ram.setSlot (wordIdx address) ⟨timestamp ||| 2, word⟩ := by
  simp only [writeWord]
  constructor
  · intro write
    split at write
    · next inRange =>
        split at write
        · exact absurd write (by simp)
        · next aboveRom =>
            simp only [Option.some.injEq, Prod.mk.injEq] at write
            obtain ⟨⟨rfl, rfl⟩, rfl⟩ := write
            exact ⟨inRange, Nat.le_of_not_lt aboveRom, rfl, rfl⟩
    · exact absurd write (by simp)
  · rintro ⟨inRange, aboveRom, found, rfl⟩
    simp [inRange, found, Nat.not_lt.mpr aboveRom]

/-! ## Runs of words -/

/-- The words at consecutive addresses, in range or not. -/
def wordsAt (ram : RamWithRomRegion romBits) (address : U32) (count : Nat) : List U32 :=
  (wordAddresses address count).map fun a => (ram.backing (wordIdx a)).value

theorem wordsAt_succ (ram : RamWithRomRegion romBits) (address : U32) (count : Nat) :
    ram.wordsAt address (count + 1) =
      (ram.backing (wordIdx address)).value :: ram.wordsAt (address + 4) count := by
  rw [wordsAt, wordAddresses_succ, List.map_cons, wordsAt]

theorem peekWords_eq_some
    {ram : RamWithRomRegion romBits} {address : U32} {count : Nat} {words : List U32}
    (peeked : ram.peekWords address count = some words) :
    words = ram.wordsAt address count := by
  induction count generalizing address words with
  | zero =>
      simp only [peekWords, Option.some.injEq] at peeked
      rw [← peeked]
      rfl
  | succ count inductionHypothesis =>
      simp only [peekWords, Option.bind_eq_bind, Option.bind_eq_some_iff,
        Option.some.injEq] at peeked
      obtain ⟨word, first, rest, others, rfl⟩ := peeked
      rw [wordsAt_succ, ← inductionHypothesis others, (peekWord_eq_some_iff.mp first).2]

/-- `read_words` reads the consecutive slots in order, each once, and keeps the
values. -/
theorem readWords_accesses
    {ram ram' : RamWithRomRegion romBits} {timestamp : TimestampScalar} {address : U32}
    {count : Nat} {words : List U32} {events : List SnapshotEvent}
    (odd : timestamp ||| 1 = timestamp)
    (read : ram.readWords timestamp address count = some (words, ram', events)) :
    ∃ accesses : List RamAccess,
      Performs ram.backing (accesses.map RamAccess.toAccess) ram'.backing ∧
        ram'.len = ram.len ∧
        events = accesses.map RamAccess.event ∧
        accesses.map RamAccess.address = wordAddresses address count ∧
        words = accesses.map (fun access => access.before.value) ∧
        ∀ access ∈ accesses,
          access.after = ⟨timestamp, access.before.value⟩ := by
  induction count generalizing ram address words events with
  | zero =>
      simp only [readWords, Option.some.injEq, Prod.mk.injEq] at read
      obtain ⟨rfl, rfl, rfl⟩ := read
      exact ⟨[], rfl, rfl, rfl, rfl, rfl, by simp⟩
  | succ count inductionHypothesis =>
      simp only [readWords, Option.bind_eq_bind, Option.bind_eq_some_iff,
        Option.some.injEq, Prod.mk.injEq, Prod.exists] at read
      obtain ⟨readTimestamp, word, middle, first, rest, ram'', others, remaining, rfl, rfl, rfl⟩ :=
        read
      obtain ⟨inRange, found, rfl⟩ := readWord_eq_some_iff.mp first
      obtain ⟨accesses, performs, len, rfl, addresses, rfl, afters⟩ :=
        inductionHypothesis remaining
      refine
        ⟨⟨address, ⟨readTimestamp, word⟩, ⟨timestamp, word⟩⟩ :: accesses,
          ⟨found, ?_⟩, len, rfl, ?_, rfl, ?_⟩
      · rw [odd] at performs
        exact performs
      · rw [wordAddresses_succ, List.map_cons, addresses]
      · intro access member
        rcases List.mem_cons.mp member with rfl | inRest
        · rfl
        · exact afters access inRest

theorem wordsAt_congr
    {ram ram' : RamWithRomRegion romBits}
    (sameValue : ∀ index, (ram'.backing index).value = (ram.backing index).value)
    (address : U32) (count : Nat) :
    ram'.wordsAt address count = ram.wordsAt address count :=
  List.map_congr_left fun _ _ => sameValue _

/-- Reading one word after the other returns the words as they were at the start. -/
theorem readWords_words
    {ram ram' : RamWithRomRegion romBits} {timestamp : TimestampScalar} {address : U32}
    {count : Nat} {words : List U32} {events : List SnapshotEvent}
    (read : ram.readWords timestamp address count = some (words, ram', events)) :
    words = ram.wordsAt address count := by
  induction count generalizing ram address words events with
  | zero =>
      simp only [readWords, Option.some.injEq, Prod.mk.injEq] at read
      rw [← read.1]
      rfl
  | succ count inductionHypothesis =>
      simp only [readWords, Option.bind_eq_bind, Option.bind_eq_some_iff,
        Option.some.injEq, Prod.mk.injEq, Prod.exists] at read
      obtain ⟨readTimestamp, word, middle, first, rest, ram'', others, remaining, rfl, rfl, rfl⟩ :=
        read
      obtain ⟨inRange, found, rfl⟩ := readWord_eq_some_iff.mp first
      have sameValue (index : Nat) :
          ((ram.setSlot (wordIdx address) ⟨timestamp ||| 1, word⟩).backing index).value =
            (ram.backing index).value := by
        by_cases same : index = wordIdx address
        · rw [same, setSlot_backing, Function.update_self, found]
        · rw [setSlot_backing, Function.update_of_ne same]
      rw [inductionHypothesis remaining, wordsAt_congr sameValue, wordsAt_succ, found]

/-- `write_back_words` replaces the consecutive slots in order, each once. -/
theorem writeBackWords_accesses
    {ram ram' : RamWithRomRegion romBits} {address : U32}
    {words : List (U32 × TimestampScalar)} {events : List SnapshotEvent}
    (even : ∀ pair ∈ words, pair.2 ||| 2 = pair.2)
    (write : ram.writeBackWords address words = some (ram', events)) :
    ∃ accesses : List RamAccess,
      Performs ram.backing (accesses.map RamAccess.toAccess) ram'.backing ∧
        ram'.len = ram.len ∧
        events = accesses.map RamAccess.event ∧
        accesses.map RamAccess.address = wordAddresses address words.length ∧
        accesses.map RamAccess.after = words.map (fun pair => ⟨pair.2, pair.1⟩) := by
  induction words generalizing ram address events with
  | nil =>
      simp only [writeBackWords, Option.some.injEq, Prod.mk.injEq] at write
      obtain ⟨rfl, rfl⟩ := write
      exact ⟨[], rfl, rfl, rfl, rfl, rfl⟩
  | cons pair rest inductionHypothesis =>
      obtain ⟨word, timestamp⟩ := pair
      simp only [writeBackWords, Option.bind_eq_bind, Option.bind_eq_some_iff,
        Option.some.injEq, Prod.mk.injEq, Prod.exists] at write
      obtain ⟨readTimestamp, oldValue, middle, first, ram'', others, remaining, rfl, rfl⟩ :=
        write
      obtain ⟨inRange, aboveRom, found, rfl⟩ := writeWord_eq_some_iff.mp first
      obtain ⟨accesses, performs, len, rfl, addresses, afters⟩ :=
        inductionHypothesis (fun other member => even other (List.mem_cons_of_mem _ member))
          remaining
      have same : timestamp ||| 2 = timestamp := even (word, timestamp) List.mem_cons_self
      refine
        ⟨⟨address, ⟨readTimestamp, oldValue⟩, ⟨timestamp, word⟩⟩ :: accesses,
          ⟨found, ?_⟩, len, rfl, ?_, ?_⟩
      · rw [same] at performs
        exact performs
      · rw [List.length_cons, wordAddresses_succ, List.map_cons, addresses]
      · rw [List.map_cons, List.map_cons, afters]

/-- After a run of writes the memory holds what they wrote. -/
theorem wordsAt_of_performs
    {ram ram' : RamWithRomRegion romBits} {accesses : List RamAccess} {address : U32}
    {count : Nat} (aligned : address.toNat % 4 = 0)
    (fits : address.toNat + 4 * count ≤ 2 ^ 32)
    (performs : Performs ram.backing (accesses.map RamAccess.toAccess) ram'.backing)
    (addresses : accesses.map RamAccess.address = wordAddresses address count) :
    ram'.wordsAt address count = accesses.map fun access => access.after.value := by
  have nodup : ((accesses.map RamAccess.toAccess).map Access.cell).Nodup := by
    rw [map_toAccess_cell, addresses]
    exact nodup_wordIdx aligned fits
  rw [wordsAt, ← addresses, List.map_map]
  refine List.map_congr_left fun access member => ?_
  have left := performs.after_of_nodup nodup (List.mem_map_of_mem member)
  exact congrArg Register.value left

end RamWithRomRegion

end Airbender
