import WirenBoard.Core.Digits
import WirenBoard.Models.DirOrder.Dirhash

/-!
# The blocks of different names differ

A word of a block is the expansion of four signed digits in base 256: the bytes that fall
into the word, preceded by the remaining length as often as bytes are missing. The words
therefore determine the digits. Names of one length then have the same bytes, and of two
names with different lengths the longer one has a byte where the shorter one has its
remaining length, which is a control character.
-/

namespace WirenBoard.DirOrder

/-- Digit `i` of word `j` in chunk `k`. -/
def wordDigit (c : List Byte) (k j i : Nat) : Int :=
  let R := c.length - 32 * k
  let t := min 4 (min R 32 - 4 * j)
  if t + i < 4 then R else (c.getD (32 * k + 4 * j + (t + i - 4)) 0#8).toInt

private theorem ofInt_eq_iff (x y : Int) :
    BitVec.ofInt 32 x = BitVec.ofInt 32 y ↔ (256 : Int) ^ 4 ∣ x - y := by
  rw [← BitVec.toNat_inj, BitVec.toNat_ofInt, BitVec.toNat_ofInt]
  omega

/-- The length padding is the remaining length written four times. -/
private theorem expand_const (R : Int) : expand 256 (fun _ => R) 4 = R * 0x01010101 := by
  simp only [expand]
  ring

/-- A word is the expansion of its four digits. -/
theorem blockWord_eq_expand (c : List Byte) (k j : Nat) :
    blockWord c k j = BitVec.ofInt 32 (expand 256 (wordDigit c k j) 4) := by
  simp only [blockWord]
  generalize hR : c.length - 32 * k = R
  generalize ht : min 4 (min R 32 - 4 * j) = t
  let f : Nat → Int := fun i =>
    if i < 4 then R else (c.getD (32 * k + 4 * j + (i - 4)) 0#8).toInt
  have hpadded : expand 256 f (4 + t) = R * 0x01010101 * 256 ^ t +
      ∑ i ∈ Finset.range t, (c.getD (32 * k + 4 * j + i) 0#8).toInt * 256 ^ (t - 1 - i) := by
    rw [expand_add, expand_congr (g := fun _ => (R : Int)) (fun i hi => if_pos hi), expand_const,
      expand_eq_sum]
    simp [f]
  have hdigits : (fun i => f (t + i)) = wordDigit c k j := by
    funext i
    simp only [f, wordDigit, hR, ht]
  rw [← hpadded, Nat.add_comm, expand_add, hdigits, ofInt_eq_iff]
  simp

/-- Where a digit is the remaining length, less than a whole chunk remains. -/
theorem wordDigit_bounds (c : List Byte) (k : Nat) {j : Nat} (hj : j < 8) (i : Nat) :
    -128 ≤ wordDigit c k j i ∧ wordDigit c k j i < -128 + 256 := by
  unfold wordDigit
  dsimp only
  split
  · omega
  · generalize c.getD _ 0#8 = x
    have hlt := x.toInt_lt
    have hle := x.le_toInt
    omega

/-- Equal words have equal digits. -/
theorem wordDigit_eq {c c' : List Byte} {k j : Nat} (hj : j < 8)
    (h : blockWord c k j = blockWord c' k j) : ∀ i < 4, wordDigit c k j i = wordDigit c' k j i := by
  rw [blockWord_eq_expand, blockWord_eq_expand, ofInt_eq_iff] at h
  exact digits_eq_of_dvd_sub (fun i _ => wordDigit_bounds c k hj i)
    (fun i _ => wordDigit_bounds c' k hj i) h

/-- The number of the digit that is the byte at position `p` of a name. -/
private def digitIndex (length p : Nat) : Nat :=
  4 + p % 4 - min 4 (min (length - 32 * (p / 32)) 32 - 4 * (p % 32 / 4))

private theorem digitIndex_lt {length p : Nat} (hp : p < length) : digitIndex length p < 4 := by
  unfold digitIndex
  omega

/-- Every byte of a name is a digit of its word. -/
theorem wordDigit_byte (c : List Byte) (p : Nat) :
    wordDigit c (p / 32) (p % 32 / 4) (digitIndex c.length p) = (c.getD p 0#8).toInt := by
  unfold wordDigit digitIndex
  dsimp only
  rw [if_neg (by omega)]
  congr 2
  omega

/-- Behind the last byte of a name whose last chunk is not full comes the length that
remained in that chunk, where a longer name has one of its bytes. -/
theorem wordDigit_last {c c' : List Byte} {k : Nat} (hc : 32 * k < c.length)
    (hlt : c.length < c'.length) (hc' : c'.length ≤ 32 * k + 32) :
    let R := c.length - 32 * k
    wordDigit c k (R / 4) (3 - R % 4) = R ∧
      ∃ p < c'.length, wordDigit c' k (R / 4) (3 - R % 4) = (c'.getD p 0#8).toInt := by
  intro R
  refine ⟨?_, ?_⟩
  · unfold wordDigit
    dsimp only
    rw [if_pos (by omega)]
  · unfold wordDigit
    dsimp only
    rw [if_neg (by omega)]
    exact ⟨_, by omega, rfl⟩

/-- A byte that is no control character is no length below 32. -/
private theorem toInt_ne_of_le {b : Byte} (hb : 0x20#8 ≤ b) {n : Nat} (hn : n < 32) :
    b.toInt ≠ n := by
  have hle : 32 ≤ b.toNat := hb
  rw [BitVec.toInt_eq_toNat_cond]
  split <;> omega

section Names

variable {c c' : List Byte}

/-- Names of one length with the same words have the same bytes. -/
theorem eq_of_blockWord_eq (hlen : c.length = c'.length)
    (h : ∀ k < (c.length + 31) / 32, ∀ j < 8, blockWord c k j = blockWord c' k j) : c = c' := by
  apply List.ext_getElem hlen
  intro p hp hp'
  have hword := h (p / 32) (by omega) (p % 32 / 4) (by omega)
  have hdigit := wordDigit_eq (by omega) hword _ (digitIndex_lt hp)
  rw [wordDigit_byte, hlen, wordDigit_byte, List.getD_eq_getElem _ _ hp,
    List.getD_eq_getElem _ _ hp'] at hdigit
  exact BitVec.toInt_inj.mp hdigit

/-- A longer name with as many chunks and no control character has another word. -/
theorem blockWord_ne_of_length_lt (hc : 0 < c.length) (hlt : c.length < c'.length)
    (hchunks : (c.length + 31) / 32 = (c'.length + 31) / 32) (hbytes : ∀ b ∈ c', 0x20#8 ≤ b) :
    ¬∀ k < (c.length + 31) / 32, ∀ j < 8, blockWord c k j = blockWord c' k j := by
  intro h
  obtain ⟨hlast, p, hp, hbyte⟩ := wordDigit_last
    (k := (c.length + 31) / 32 - 1) (by omega) hlt (by omega)
  have hword := h ((c.length + 31) / 32 - 1) (by omega)
    ((c.length - 32 * ((c.length + 31) / 32 - 1)) / 4) (by omega)
  have hdigit := wordDigit_eq (by omega) hword
    (3 - (c.length - 32 * ((c.length + 31) / 32 - 1)) % 4) (by omega)
  rw [hlast, hbyte] at hdigit
  refine toInt_ne_of_le (hbytes _ ?_) ?_ hdigit.symm
  · rw [List.getD_eq_getElem _ _ hp]
    exact List.getElem_mem hp
  · omega

end Names

/-- Names without control characters that differ give different blocks to the
compression, under every seed and whatever follows their terminators. -/
theorem dirhash_blocks_ne {c c' : Name} (hc : ∀ b ∈ c.bytes, 0x20#8 ≤ b)
    (hc' : ∀ b ∈ c'.bytes, 0x20#8 ≤ b) (hne : c ≠ c') (seed seed' : Chain)
    (after after' : List Byte) :
    (dirhash seed (c.bytes ++ 0#8 :: after)).blocks ≠
      (dirhash seed' (c'.bytes ++ 0#8 :: after')).blocks := by
  rw [dirhash_name, dirhash_name]
  intro h
  dsimp only at h
  have hchunks : (c.bytes.length + 31) / 32 = (c'.bytes.length + 31) / 32 := by
    simpa using congrArg List.length h
  have hwords : ∀ k < (c.bytes.length + 31) / 32, ∀ j < 8,
      blockWord c.bytes k j = blockWord c'.bytes k j := by
    rw [← hchunks] at h
    intro k hk j hj
    have hblock := List.map_inj_left.mp h k (List.mem_range.mpr hk)
    exact List.map_inj_left.mp hblock j (List.mem_range.mpr hj)
  rcases Nat.lt_trichotomy c.bytes.length c'.bytes.length with hlt | heq | hgt
  · exact blockWord_ne_of_length_lt c.length_pos hlt hchunks hc' hwords
  · have hbytes := eq_of_blockWord_eq heq hwords
    cases c
    cases c'
    exact hne (by simpa using hbytes)
  · refine blockWord_ne_of_length_lt c'.length_pos hgt hchunks.symm hc ?_
    rw [← hchunks]
    exact fun k hk j hj => (hwords k hk j hj).symm

/-- The name that has a letter `n` times. -/
def repeatedName (n : Nat) (hpos : 0 < n) (hlen : n ≤ 255) : Name :=
  ⟨List.replicate n 0x61#8, fun _ h => (List.eq_of_mem_replicate h).symm ▸ by decide,
    by rwa [List.length_replicate], by rwa [List.length_replicate]⟩

/-- Names of 31, 33 and 34 letters, which end on both sides of a chunk's boundary and twice in
one chunk. -/
theorem dirhash_blocks_ne_chunks :
    (dirhash md4Init (List.replicate 31 0x61#8 ++ 0#8 :: [])).blocks ≠
        (dirhash md4Init (List.replicate 33 0x61#8 ++ 0#8 :: [])).blocks ∧
      (dirhash md4Init (List.replicate 33 0x61#8 ++ 0#8 :: [])).blocks ≠
        (dirhash md4Init (List.replicate 34 0x61#8 ++ 0#8 :: [])).blocks := by
  have hbytes : ∀ n, ∀ b ∈ List.replicate n 0x61#8, 0x20#8 ≤ b := by
    intro n b hb
    rw [List.eq_of_mem_replicate hb]
    decide
  refine ⟨?_, ?_⟩
  · exact @dirhash_blocks_ne (repeatedName 31 (by decide) (by decide))
      (repeatedName 33 (by decide) (by decide)) (hbytes 31) (hbytes 33) (by decide)
      md4Init md4Init [] []
  · exact @dirhash_blocks_ne (repeatedName 33 (by decide) (by decide))
      (repeatedName 34 (by decide) (by decide)) (hbytes 33) (hbytes 34) (by decide)
      md4Init md4Init [] []

end WirenBoard.DirOrder
