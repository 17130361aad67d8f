import Mathlib.Data.List.Basic
import Mathlib.Logic.Basic

/-!
# `porcupine/bitset.go`

A set of positions in 64-bit words.  An access outside the words is an index out of
range and gives `none`.
-/

namespace MultiRaft.Porcupine

structure Bitset where
  words : List (BitVec 64)
  deriving DecidableEq

/-- The number of words for so many bits. -/
def chunks (bits : Nat) : Nat := bits / 64 + if bits % 64 ≠ 0 then 1 else 0

def newBitset (bits : Nat) : Bitset := ⟨List.replicate (chunks bits) 0⟩

def bitsetIndex (pos : Nat) : Nat × Nat := (pos / 64, pos % 64)

namespace Bitset

def set (b : Bitset) (pos : Nat) : Option Bitset :=
  let (major, minor) := bitsetIndex pos
  b.words[major]?.map fun word => ⟨b.words.set major (word ||| 1#64 <<< minor)⟩

def clear (b : Bitset) (pos : Nat) : Option Bitset :=
  let (major, minor) := bitsetIndex pos
  b.words[major]?.map fun word => ⟨b.words.set major (word &&& ~~~(1#64 <<< minor))⟩

def popcnt (b : Bitset) : Nat := b.words.foldl (fun total v => total + v.cpop.toNat) 0

def hash (b : Bitset) : BitVec 64 := b.words.foldl (· ^^^ ·) (BitVec.ofNat 64 b.popcnt)

def equals (b b2 : Bitset) : Bool :=
  b.words.length == b2.words.length && (b.words.zip b2.words).all fun pair => pair.1 == pair.2

/-- The bit at a position; there is none behind the last word. -/
def bit (b : Bitset) (pos : Nat) : Bool := (b.words.getD (pos / 64) 0).getLsbD (pos % 64)

/-- The bitset for `bits` positions with exactly the positions of the list. -/
structure Holds (b : Bitset) (bits : Nat) (positions : List Nat) : Prop where
  size : b.words.length = chunks bits
  bit_iff : ∀ pos, b.bit pos = true ↔ pos ∈ positions

variable {b b2 : Bitset} {bits pos : Nat} {positions : List Nat}

theorem equals_iff : b.equals b2 = true ↔ b = b2 := by
  obtain ⟨words⟩ := b
  obtain ⟨words2⟩ := b2
  simp only [equals, Bool.and_eq_true, beq_iff_eq, List.all_eq_true, mk.injEq]
  constructor
  · rintro ⟨size, same⟩
    refine List.ext_getElem size fun i first second => ?_
    refine same (words[i], words2[i]) ?_
    rw [List.mem_iff_getElem]
    exact ⟨i, by rw [List.length_zip]; exact Nat.lt_min.mpr ⟨first, second⟩, by simp⟩
  · rintro rfl
    refine ⟨rfl, ?_⟩
    rintro ⟨one, two⟩ member
    obtain ⟨i, inside, eq⟩ := List.mem_iff_getElem.mp member
    rw [List.getElem_zip] at eq
    cases eq
    rfl

theorem div_lt_chunks (inside : pos < bits) : pos / 64 < chunks bits := by
  unfold chunks
  split <;> omega

theorem shifted_bit {minor i : Nat} (inside : i < 64) :
    (1#64 <<< minor).getLsbD i = decide (i = minor) := by
  rw [BitVec.getLsbD_shiftLeft, BitVec.getLsbD_one]
  by_cases same : i = minor
  · subst same
    simp [inside]
  · by_cases below : i < minor
    · simp [below, same]
    · have above : i - minor ≠ 0 := by omega
      simp [above, same]

theorem holds_new (bits : Nat) : (newBitset bits).Holds bits [] := by
  refine ⟨by simp [newBitset], fun pos => ?_⟩
  have word : (newBitset bits).words.getD (pos / 64) 0 = 0#64 := by
    simp only [newBitset, List.getD_eq_getElem?_getD, List.getElem?_replicate]
    split <;> rfl
  rw [bit, word]
  simp

/-- Writing one word changes the bits of that word only. -/
theorem bit_write {major : Nat} {word : BitVec 64} (inside : major < b.words.length) :
    bit ⟨b.words.set major word⟩ pos =
      if pos / 64 = major then word.getLsbD (pos % 64) else b.bit pos := by
  simp only [bit, List.getD_eq_getElem?_getD, List.getElem?_set]
  by_cases same : major = pos / 64
  · subst same
    simp [inside]
  · rw [if_neg same, if_neg (Ne.symm same)]

theorem Holds.set (holds : b.Holds bits positions) (inside : pos < bits) :
    ∃ next, b.set pos = some next ∧ next.Holds bits (pos :: positions) := by
  have major : pos / 64 < b.words.length := holds.size ▸ div_lt_chunks inside
  refine ⟨⟨b.words.set (pos / 64) (b.words[pos / 64] ||| 1#64 <<< (pos % 64))⟩, ?_, ?_, ?_⟩
  · simp [Bitset.set, bitsetIndex, List.getElem?_eq_getElem major]
  · rw [List.length_set]
    exact holds.size
  · intro other
    rw [bit_write major, List.mem_cons, ← holds.bit_iff other]
    split
    · rename_i same
      rw [BitVec.getLsbD_or, shifted_bit (Nat.mod_lt _ (by decide)), Bool.or_eq_true,
        decide_eq_true_eq]
      have old : b.bit other = b.words[pos / 64].getLsbD (other % 64) := by
        simp [bit, same, List.getElem?_eq_getElem major]
      rw [old]
      constructor
      · rintro (before | new)
        · exact .inr before
        · exact .inl (by omega)
      · rintro (rfl | before)
        · exact .inr rfl
        · exact .inl before
    · rename_i apart
      refine ⟨.inr, fun either => either.resolve_left ?_⟩
      rintro rfl
      exact apart rfl

theorem Holds.clear (holds : b.Holds bits (pos :: positions)) (inside : pos < bits)
    (fresh : pos ∉ positions) :
    ∃ next, b.clear pos = some next ∧ next.Holds bits positions := by
  have major : pos / 64 < b.words.length := holds.size ▸ div_lt_chunks inside
  refine ⟨⟨b.words.set (pos / 64) (b.words[pos / 64] &&& ~~~(1#64 <<< (pos % 64)))⟩, ?_, ?_, ?_⟩
  · simp [Bitset.clear, bitsetIndex, List.getElem?_eq_getElem major]
  · rw [List.length_set]
    exact holds.size
  · intro other
    have known := holds.bit_iff other
    rw [List.mem_cons] at known
    have minor : other % 64 < 64 := Nat.mod_lt _ (by decide)
    rw [bit_write major]
    split
    · rename_i same
      have old : b.bit other = b.words[pos / 64].getLsbD (other % 64) := by
        simp [bit, same, List.getElem?_eq_getElem major]
      rw [BitVec.getLsbD_and, BitVec.getLsbD_not, shifted_bit minor, ← old]
      simp only [minor, decide_true, Bool.true_and, Bool.and_eq_true, Bool.not_eq_true',
        decide_eq_false_iff_not, known]
      constructor
      · rintro ⟨rfl | member, apart⟩
        · exact absurd rfl apart
        · exact member
      · intro member
        refine ⟨.inr member, fun even => fresh ?_⟩
        have : other = pos := by omega
        exact this ▸ member
    · rename_i apart
      rw [known]
      refine ⟨fun either => either.resolve_left ?_, .inr⟩
      rintro rfl
      exact apart rfl

theorem Holds.congr (holds : b.Holds bits positions) {positions2 : List Nat}
    (same : ∀ pos, pos ∈ positions ↔ pos ∈ positions2) : b.Holds bits positions2 :=
  ⟨holds.size, fun pos => (holds.bit_iff pos).trans (same pos)⟩

/-- Two bitsets with the same positions are equal, whatever order they were set in. -/
theorem Holds.ext (one : b.Holds bits positions) {positions2 : List Nat}
    (two : b2.Holds bits positions2) : b = b2 ↔ ∀ pos, pos ∈ positions ↔ pos ∈ positions2 := by
  constructor
  · rintro rfl pos
    rw [← one.bit_iff, ← two.bit_iff]
  · intro same
    obtain ⟨words⟩ := b
    obtain ⟨words2⟩ := b2
    refine congrArg Bitset.mk (List.ext_getElem (one.size.trans two.size.symm) fun i first second => ?_)
    refine BitVec.eq_of_getLsbD_eq fun j inside => ?_
    have alike : bit ⟨words⟩ (64 * i + j) = bit ⟨words2⟩ (64 * i + j) := by
      rw [Bool.eq_iff_iff, one.bit_iff, two.bit_iff]
      exact same _
    have major : (64 * i + j) / 64 = i := by omega
    have minor : (64 * i + j) % 64 = j := by omega
    simpa [bit, major, minor, List.getElem?_eq_getElem, first, second] using alike

end Bitset

end MultiRaft.Porcupine
