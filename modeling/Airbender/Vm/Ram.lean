import Airbender.Vm.State

/-!
# RAM with a ROM region

The executor's memory: one timestamped word per address, of which the low part
is ROM.  `none` stands for a panic, or for an access past the end of the backing
array, which is undefined behaviour in the source.
-/

namespace Airbender

/-- What a handler reports to the snapshotter. -/
inductive SnapshotEvent where
  | memoryRead (address readValue : U32) (readTimestamp writeTimestamp : TimestampScalar)
  | arbitraryValue (value : U32)
deriving DecidableEq, Repr

/-- The RAM, with `ROM_BOUND_SECOND_WORD_BITS` as a parameter. -/
structure RamWithRomRegion (romBits : Nat) where
  backing : Nat → Register
  len : Nat

/-- The slot of a byte address. -/
def wordIdx (address : U32) : Nat :=
  (address / 4).toNat

def romBytes (romBits : Nat) : Nat := 1 <<< (16 + romBits)

def romWords (romBits : Nat) : Nat := romBytes romBits / 4

namespace RamWithRomRegion

variable {romBits : Nat}

/-- `from_rom_content`; the size must be a power of two above the ROM. -/
def fromRomContent (romBits : Nat) (content : List U32) (totalSizeBytes : Nat) :
    Option (RamWithRomRegion romBits) :=
  if totalSizeBytes = 2 ^ totalSizeBytes.log2 ∧ romBytes romBits < totalSizeBytes ∧
      content.length ≤ romWords romBits then
    some
      { backing := fun i => ⟨0, content.getD i 0⟩
        len := totalSizeBytes / 4 }
  else
    none

def setSlot (ram : RamWithRomRegion romBits) (index : Nat) (register : Register) :
    RamWithRomRegion romBits :=
  { ram with backing := Function.update ram.backing index register }

@[simp]
theorem setSlot_backing (ram : RamWithRomRegion romBits) (index : Nat) (register : Register) :
    (ram.setSlot index register).backing = Function.update ram.backing index register := rfl

@[simp]
theorem setSlot_len (ram : RamWithRomRegion romBits) (index : Nat) (register : Register) :
    (ram.setSlot index register).len = ram.len := rfl

def peekWord (ram : RamWithRomRegion romBits) (address : U32) : Option U32 :=
  let index := wordIdx address
  if index < ram.len then
    some (ram.backing index).value
  else
    none

/-- The previous timestamp and the word; the slot keeps the time of the access. -/
def readWord (ram : RamWithRomRegion romBits) (address : U32) (timestamp : TimestampScalar) :
    Option ((TimestampScalar × U32) × RamWithRomRegion romBits) :=
  let index := wordIdx address
  if index < ram.len then
    let slot := ram.backing index
    some ((slot.timestamp, slot.value),
      ram.setSlot index { slot with timestamp := timestamp ||| 1 })
  else
    none

/-- The previous timestamp and word; writing into the ROM range panics. -/
def writeWord (ram : RamWithRomRegion romBits) (address word : U32)
    (timestamp : TimestampScalar) :
    Option ((TimestampScalar × U32) × RamWithRomRegion romBits) :=
  let index := wordIdx address
  if index < ram.len then
    if index < romWords romBits then
      none
    else
      let slot := ram.backing index
      some ((slot.timestamp, slot.value),
        ram.setSlot index ⟨timestamp ||| 2, word⟩)
  else
    none

/-! ## Runs of words -/

/-- Consecutive words from `address` on, without an access. -/
def peekWords (ram : RamWithRomRegion romBits) : U32 → Nat → Option (List U32)
  | _, 0 => some []
  | address, count + 1 => do
      let word ← ram.peekWord address
      let rest ← ram.peekWords (address + 4) count
      some (word :: rest)

/-- `read_words`: consecutive reads at one timestamp, each reported. -/
def readWords (ram : RamWithRomRegion romBits) (timestamp : TimestampScalar) :
    U32 → Nat → Option (List U32 × RamWithRomRegion romBits × List SnapshotEvent)
  | _, 0 => some ([], ram, [])
  | address, count + 1 => do
      let ((readTimestamp, word), ram) ← ram.readWord address timestamp
      let (rest, ram, events) ← ram.readWords timestamp (address + 4) count
      some (word :: rest, ram, .memoryRead address word readTimestamp timestamp :: events)

/-- `write_back_words`: consecutive writes, each with its own timestamp. -/
def writeBackWords (ram : RamWithRomRegion romBits) :
    U32 → List (U32 × TimestampScalar) →
      Option (RamWithRomRegion romBits × List SnapshotEvent)
  | _, [] => some (ram, [])
  | address, (word, timestamp) :: rest => do
      let ((readTimestamp, oldValue), ram) ← ram.writeWord address word timestamp
      let (ram, events) ← ram.writeBackWords (address + 4) rest
      some (ram, .memoryRead address oldValue readTimestamp timestamp :: events)

end RamWithRomRegion

end Airbender
