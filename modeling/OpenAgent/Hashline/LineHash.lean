import OpenAgent.Library.WellFormedText
import OpenAgent.Hashline.XxHash32

/-!
# Line hashes

`hashXxh32` of `xxhash32.ts`, `constants.ts` and the hashing part of `hash-computation.ts`.
-/

namespace OpenAgent.Hashline

open Library

/-- What the runtime provides. -/
structure HashRuntime where
  /-- `Bun.hash.xxHash32`, when the program runs under Bun. -/
  bunXxHash32 : Option (Text → Nat → Nat)
  /-- The test `/[\p{L}\p{N}]/u`. -/
  significant : Text → Bool

section

variable (runtime : HashRuntime)

def hashXxh32 (input : Text) (seed : Nat) : Nat :=
  match runtime.bunXxHash32 with
  | some xxHash32 => xxHash32 input seed
  | none => (xxHash32Js (encodeText input) (shiftRight seed 0)).toNat

def nibbleStr : Text := text "ZPMQVRWSNKTXJBYH"

/-- The class `[ZPMQVRWSNKTXJBYH]`. -/
def isNibble (char : CodeUnit) : Bool :=
  nibbleStr.contains char

/-- `HASHLINE_DICT[index]`. -/
def hashlineDict (index : Nat) : Text :=
  [nibbleStr.getD (index / 16) 0, nibbleStr.getD (index % 16) 0]

section

variable (lineNumber : Nat)

def computeNormalizedLineHash (stripped : Text) : Text :=
  let seed := if runtime.significant stripped then 0 else lineNumber
  hashlineDict (hashXxh32 runtime stripped seed % 256)

/-- `content.replace(/\r/g, "")`. -/
def removeCarriageReturns (content : Text) : Text :=
  content.filter (· != 0xD)

def computeLineHash (content : Text) : Text :=
  computeNormalizedLineHash runtime lineNumber (trimEnd (removeCarriageReturns content))

def computeLegacyLineHash (content : Text) : Text :=
  computeNormalizedLineHash runtime lineNumber
    (removeWhitespace (removeCarriageReturns content))

end

/-- Where the runtime provides the hash, it is XXH32 of the UTF-8 bytes. -/
def HashRuntime.ProvidesXxh32 : Prop :=
  ∀ xxHash32, runtime.bunXxHash32 = some xxHash32 → ∀ input seed, seed < 2 ^ 32 →
    xxHash32 input seed = (xxh32 (encodeText input) (BitVec.ofNat 32 seed)).toNat

end

theorem hashXxh32_eq {runtime : HashRuntime} (provides : runtime.ProvidesXxh32) (input : Text)
    (bounded : seed < 2 ^ 32) :
    hashXxh32 runtime input seed = (xxh32 (encodeText input) (BitVec.ofNat 32 seed)).toNat := by
  rw [hashXxh32]
  split
  next xxHash32 isProvided => exact provides xxHash32 isProvided input seed bounded
  next =>
    rw [xxHash32Js_eq, word_shiftRight, BitVec.ushiftRight_zero, word, BitVec.ofInt_natCast,
      Int.toNat_natCast]

theorem computeNormalizedLineHash_eq {left right : HashRuntime} (leftProvides : left.ProvidesXxh32)
    (rightProvides : right.ProvidesXxh32) (sameTest : left.significant = right.significant)
    (bounded : lineNumber < 2 ^ 32) (stripped : Text) :
    computeNormalizedLineHash left lineNumber stripped =
      computeNormalizedLineHash right lineNumber stripped := by
  have seedBounded : (if right.significant stripped then 0 else lineNumber) < 2 ^ 32 := by
    split
    · decide
    · exact bounded
  simp only [computeNormalizedLineHash, sameTest, hashXxh32_eq leftProvides _ seedBounded,
    hashXxh32_eq rightProvides _ seedBounded]

/-- The hash that is written in script operators is XXH32, whatever the bytes and the seed
are; so the hashes of a line agree in all runtimes that have XXH32 or nothing. -/
theorem lineHashes_runtimeIndependent :
    (∀ input seed, xxHash32Js input seed = (xxh32 input (word seed)).toNat) ∧
      ∀ left right : HashRuntime, left.ProvidesXxh32 → right.ProvidesXxh32 →
        left.significant = right.significant → ∀ lineNumber content, lineNumber < 2 ^ 32 →
          computeLineHash left lineNumber content = computeLineHash right lineNumber content ∧
          computeLegacyLineHash left lineNumber content =
            computeLegacyLineHash right lineNumber content := by
  refine ⟨fun input seed => xxHash32Js_eq, ?_⟩
  intro left right leftProvides rightProvides sameTest lineNumber content bounded
  exact ⟨computeNormalizedLineHash_eq leftProvides rightProvides sameTest bounded _,
    computeNormalizedLineHash_eq leftProvides rightProvides sameTest bounded _⟩

/-- A runtime with the hash and one without it. -/
theorem lineHashes_runtimeIndependent_bun :
    let bun : HashRuntime :=
      { bunXxHash32 := some fun input seed =>
          (xxh32 (encodeText input) (BitVec.ofNat 32 seed)).toNat
        significant := fun line => line.any isDigit }
    computeLineHash bun 7 (text "\tx = 1;") =
      computeLineHash { bun with bunXxHash32 := none } 7 (text "\tx = 1;") := by
  intro bun
  have provided : bun.ProvidesXxh32 := by
    intro xxHash32 isProvided input seed bounded
    cases isProvided
    rfl
  have absent : HashRuntime.ProvidesXxh32 { bun with bunXxHash32 := none } := nofun
  exact (lineHashes_runtimeIndependent.2 bun { bun with bunXxHash32 := none } provided absent rfl
    7 (text "\tx = 1;") (by decide)).1

end OpenAgent.Hashline
