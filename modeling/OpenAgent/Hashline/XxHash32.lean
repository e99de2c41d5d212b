import Mathlib.Data.BitVec
import Mathlib.Data.UInt

/-!
# XXH32 in scripts

`xxHash32Js` of `xxhash32.ts`.  A script has one kind of number, and its bit operators work on 32 bits: what
they return is signed, but for the shift `>>>`.  The hash that is written with them is XXH32.
-/

namespace OpenAgent.Hashline

section

variable (value : Int)

/-- The 32 bits that an operator sees of a number. -/
def word : BitVec 32 := BitVec.ofInt 32 value

def shiftLeft (bits : Nat) : Int := (word value <<< bits).toInt

/-- `>>>`. -/
def shiftRight (bits : Nat) : Int := (word value >>> bits).toNat

def bitOr (left right : Int) : Int := (word left ||| word right).toInt

def bitXor (left right : Int) : Int := (word left ^^^ word right).toInt

/-- `Math.imul`. -/
def imul (left right : Int) : Int := (word left * word right).toInt

def prime1 : Int := 0x9e3779b1
def prime2 : Int := 0x85ebca77
def prime3 : Int := 0xc2b2ae3d
def prime4 : Int := 0x27d4eb2f
def prime5 : Int := 0x165667b1

def rotateLeft32 (bits : Nat) : Int :=
  shiftRight (bitOr (shiftLeft value bits) (shiftRight value (32 - bits))) 0

end

/-- A byte; behind the end it is zero. -/
def byteAt (input : List UInt8) (offset : Nat) : Int := (input.getD offset 0).toNat

def readUint32LittleEndian (input : List UInt8) (offset : Nat) : Int :=
  shiftRight
    (bitOr (bitOr (bitOr (byteAt input offset) (shiftLeft (byteAt input (offset + 1)) 8))
      (shiftLeft (byteAt input (offset + 2)) 16)) (shiftLeft (byteAt input (offset + 3)) 24)) 0

def round32 (accumulator value : Int) : Int :=
  let added := shiftRight (accumulator + imul value prime2) 0
  shiftRight (imul (rotateLeft32 added 13) prime1) 0

/-- The four accumulators. -/
structure Accumulators (α : Type) where
  value1 : α
  value2 : α
  value3 : α
  value4 : α

/-- The loop over blocks of 16 bytes. -/
def roundsFrom (input : List UInt8) (offset : Nat)
    (values : Accumulators Int) : Accumulators Int × Nat :=
  if offset + 16 ≤ input.length then
    roundsFrom input (offset + 16)
      { value1 := round32 values.value1 (readUint32LittleEndian input offset)
        value2 := round32 values.value2 (readUint32LittleEndian input (offset + 4))
        value3 := round32 values.value3 (readUint32LittleEndian input (offset + 8))
        value4 := round32 values.value4 (readUint32LittleEndian input (offset + 12)) }
  else (values, offset)
termination_by input.length - offset

/-- The loop over what is left of four bytes. -/
def wordsFrom (input : List UInt8) (offset : Nat) (hash : Int) : Int × Nat :=
  if offset + 4 ≤ input.length then
    let added := shiftRight (hash + imul (readUint32LittleEndian input offset) prime3) 0
    wordsFrom input (offset + 4) (shiftRight (imul (rotateLeft32 added 17) prime4) 0)
  else (hash, offset)
termination_by input.length - offset

/-- The loop over the last bytes. -/
def bytesFrom (input : List UInt8) (offset : Nat) (hash : Int) : Int :=
  if offset < input.length then
    let added := shiftRight (hash + imul (byteAt input offset) prime5) 0
    bytesFrom input (offset + 1) (shiftRight (imul (rotateLeft32 added 11) prime1) 0)
  else hash
termination_by input.length - offset

/-- The hash of all blocks, and where they end. -/
def blocksHash (input : List UInt8) (seed : Int) : Int × Nat :=
  if 16 ≤ input.length then
    let (values, offset) := roundsFrom input 0
      { value1 := shiftRight (seed + prime1 + prime2) 0
        value2 := shiftRight (seed + prime2) 0
        value3 := shiftRight seed 0
        value4 := shiftRight (seed - prime1) 0 }
    let hash := shiftRight (rotateLeft32 values.value1 1 + rotateLeft32 values.value2 7) 0
    let hash := shiftRight (hash + rotateLeft32 values.value3 12) 0
    (shiftRight (hash + rotateLeft32 values.value4 18) 0, offset)
  else (shiftRight (seed + prime5) 0, 0)

def avalanche (hash : Int) : Int :=
  let hash := shiftRight (bitXor hash (shiftRight hash 15)) 0
  let hash := shiftRight (imul hash prime2) 0
  let hash := shiftRight (bitXor hash (shiftRight hash 13)) 0
  let hash := shiftRight (imul hash prime3) 0
  shiftRight (bitXor hash (shiftRight hash 16)) 0

def xxHash32Js (input : List UInt8) (seed : Int) : Int :=
  let (blocks, offset) := blocksHash input seed
  let (hash, offset) := wordsFrom input offset (shiftRight (blocks + input.length) 0)
  avalanche (bytesFrom input offset hash)

namespace Xxh32

/-! The algorithm itself, in arithmetic modulo `2 ^ 32`. -/

def lane (bytes : List UInt8) : BitVec 32 :=
  (bytes.getD 3 0).toBitVec ++ (bytes.getD 2 0).toBitVec ++ (bytes.getD 1 0).toBitVec ++
    (bytes.getD 0 0).toBitVec

def round (accumulator lane : BitVec 32) : BitVec 32 :=
  (accumulator + lane * 0x85ebca77#32).rotateLeft 13 * 0x9e3779b1#32

/-- The accumulators behind all whole stripes, and the bytes that are left. -/
def consume (values : Accumulators (BitVec 32))
    (bytes : List UInt8) : Accumulators (BitVec 32) × List UInt8 :=
  if 16 ≤ bytes.length then
    consume
      { value1 := round values.value1 (lane bytes)
        value2 := round values.value2 (lane (bytes.drop 4))
        value3 := round values.value3 (lane (bytes.drop 8))
        value4 := round values.value4 (lane (bytes.drop 12)) }
      (bytes.drop 16)
  else (values, bytes)
termination_by bytes.length

/-- The hash of the whole stripes, with the bytes that are left. -/
def wholeStripes (input : List UInt8) (seed : BitVec 32) : BitVec 32 × List UInt8 :=
  if 16 ≤ input.length then
    let (values, rest) := consume
      { value1 := seed + 0x9e3779b1#32 + 0x85ebca77#32
        value2 := seed + 0x85ebca77#32
        value3 := seed
        value4 := seed - 0x9e3779b1#32 } input
    (values.value1.rotateLeft 1 + values.value2.rotateLeft 7 + values.value3.rotateLeft 12 +
      values.value4.rotateLeft 18, rest)
  else (seed + 0x165667b1#32, input)

def finishWords (hash : BitVec 32) (bytes : List UInt8) : BitVec 32 × List UInt8 :=
  if 4 ≤ bytes.length then
    finishWords ((hash + lane bytes * 0xc2b2ae3d#32).rotateLeft 17 * 0x27d4eb2f#32)
      (bytes.drop 4)
  else (hash, bytes)
termination_by bytes.length

def finishByte (hash : BitVec 32) (byte : UInt8) : BitVec 32 :=
  (hash + byte.toBitVec.setWidth 32 * 0x165667b1#32).rotateLeft 11 * 0x9e3779b1#32

def finalMix (hash : BitVec 32) : BitVec 32 :=
  let hash := (hash ^^^ hash >>> 15) * 0x85ebca77#32
  let hash := (hash ^^^ hash >>> 13) * 0xc2b2ae3d#32
  hash ^^^ hash >>> 16

end Xxh32

open Xxh32

/-- XXH32. -/
def xxh32 (input : List UInt8) (seed : BitVec 32) : BitVec 32 :=
  let (hash, rest) := wholeStripes input seed
  let (hash, rest) := finishWords (hash + BitVec.ofNat 32 input.length) rest
  finalMix (rest.foldl finishByte hash)

@[simp] theorem word_shiftLeft : word (shiftLeft value bits) = word value <<< bits :=
  BitVec.ofInt_toInt

@[simp] theorem word_shiftRight : word (shiftRight value bits) = word value >>> bits := by
  rw [word, shiftRight, BitVec.ofInt_natCast, BitVec.ofNat_toNat, BitVec.setWidth_eq]

@[simp] theorem word_bitOr : word (bitOr left right) = word left ||| word right :=
  BitVec.ofInt_toInt

@[simp] theorem word_bitXor : word (bitXor left right) = word left ^^^ word right :=
  BitVec.ofInt_toInt

@[simp] theorem word_imul : word (imul left right) = word left * word right :=
  BitVec.ofInt_toInt

@[simp] theorem word_add : word (left + right) = word left + word right :=
  BitVec.ofInt_add left right

@[simp] theorem word_sub : word (left - right) = word left - word right := by
  rw [sub_eq_add_neg, BitVec.sub_eq_add_neg, word, BitVec.ofInt_add, BitVec.ofInt_neg]
  rfl

@[simp] theorem word_byteAt :
    word (byteAt input offset) = (input.getD offset 0).toBitVec.setWidth 32 := by
  rw [word, byteAt, BitVec.ofInt_natCast, ← UInt8.toNat_toBitVec, BitVec.ofNat_toNat]

@[simp] theorem word_rotateLeft32 {bits : Nat} (small : bits < 32) :
    word (rotateLeft32 value bits) = (word value).rotateLeft bits := by
  simp [rotateLeft32, BitVec.rotateLeft_def, Nat.mod_eq_of_lt small]

@[simp] theorem word_readUint32LittleEndian :
    word (readUint32LittleEndian input offset) = lane (input.drop offset) := by
  simp only [readUint32LittleEndian, lane, word_shiftRight, word_bitOr, word_shiftLeft, word_byteAt,
    BitVec.ushiftRight_zero, List.getD_eq_getElem?_getD, List.getElem?_drop, Nat.add_zero]
  ext position small
  simp
  grind

@[simp] theorem word_prime1 : word prime1 = 0x9e3779b1#32 := by decide
@[simp] theorem word_prime2 : word prime2 = 0x85ebca77#32 := by decide
@[simp] theorem word_prime3 : word prime3 = 0xc2b2ae3d#32 := by decide
@[simp] theorem word_prime4 : word prime4 = 0x27d4eb2f#32 := by decide
@[simp] theorem word_prime5 : word prime5 = 0x165667b1#32 := by decide

@[simp] theorem word_round32 :
    word (round32 accumulator value) = Xxh32.round (word accumulator) (word value) := by
  simp [round32, Xxh32.round]

def Accumulators.words (values : Accumulators Int) : Accumulators (BitVec 32) :=
  ⟨word values.value1, word values.value2, word values.value3, word values.value4⟩

section

variable (input : List UInt8)

theorem consume_roundsFrom (offset : Nat) (values : Accumulators Int) :
    consume values.words (input.drop offset) =
      ((roundsFrom input offset values).1.words, input.drop (roundsFrom input offset values).2) := by
  fun_induction roundsFrom input offset values with
  | case1 offset values fits ih =>
    rw [consume, if_pos (by rw [List.length_drop]; omega)]
    simpa [Accumulators.words] using ih
  | case2 offset values short => rw [consume, if_neg (by rw [List.length_drop]; omega)]

theorem finishWords_wordsFrom (hash : Int) :
    finishWords (word hash) (input.drop offset) =
      (word (wordsFrom input offset hash).1, input.drop (wordsFrom input offset hash).2) := by
  fun_induction wordsFrom input offset hash with
  | case1 offset hash fits added ih =>
    rw [finishWords, if_pos (by rw [List.length_drop]; omega)]
    simpa [added] using ih
  | case2 offset hash short => rw [finishWords, if_neg (by rw [List.length_drop]; omega)]

theorem foldl_finishByte (hash : Int) :
    (input.drop offset).foldl finishByte (word hash) = word (bytesFrom input offset hash) := by
  fun_induction bytesFrom input offset hash with
  | case1 offset hash inside added ih =>
    rw [List.drop_eq_getElem_cons inside, List.foldl_cons, ← ih]
    simp [finishByte, added, inside]
  | case2 offset hash outside => rw [List.drop_of_length_le (by omega), List.foldl_nil]

end

theorem wholeStripes_blocksHash :
    wholeStripes input (word seed) =
      (word (blocksHash input seed).1, input.drop (blocksHash input seed).2) := by
  rw [wholeStripes, blocksHash]
  split
  next several =>
    have blocks := consume_roundsFrom input 0
      { value1 := shiftRight (seed + prime1 + prime2) 0
        value2 := shiftRight (seed + prime2) 0
        value3 := shiftRight seed 0
        value4 := shiftRight (seed - prime1) 0 }
    simp only [Accumulators.words, word_shiftRight, word_add, word_sub, word_prime1, word_prime2,
      BitVec.ushiftRight_zero, List.drop_zero] at blocks
    rw [blocks]
    simp
  next few => simp

theorem word_avalanche (hash : Int) : word (avalanche hash) = finalMix (word hash) := by
  simp [avalanche, finalMix]

theorem avalanche_eq (hash : Int) : avalanche hash = (finalMix (word hash)).toNat := by
  have unsigned (value : Int) : shiftRight value 0 = (word (shiftRight value 0)).toNat := by
    rw [word_shiftRight, shiftRight]
  rw [← word_avalanche]
  exact unsigned _

/-- The hash that scripts compute is XXH32, whatever the bytes and the seed are. -/
theorem xxHash32Js_eq : xxHash32Js input seed = (xxh32 input (word seed)).toNat := by
  rw [xxHash32Js, xxh32, wholeStripes_blocksHash]
  generalize blocksHash input seed = blocks
  have started : word (shiftRight (blocks.1 + input.length) 0) =
      word blocks.1 + BitVec.ofNat 32 input.length := by
    rw [word_shiftRight, word_add]
    simp [word]
  dsimp only
  rw [← started, finishWords_wordsFrom, avalanche_eq]
  rw [foldl_finishByte]

end OpenAgent.Hashline
