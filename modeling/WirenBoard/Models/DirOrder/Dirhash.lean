import WirenBoard.Models.DirOrder.HashBuf
import Mathlib.Data.List.GetD

/-!
# The directory hash of a name

`dirhash` is the source's chunk loop over a NUL-terminated name, with every
array handed to the compression and every byte fetched by `str2hashbuf` kept
beside the result. `ext4Hash` is the block-wise definition of the half-MD4
directory hash: it speaks about the name's bytes alone, and uses neither the
source's pointer nor its shrinking length.
-/

namespace WirenBoard.DirOrder

/-- A directory entry name: one to 255 bytes, none of them NUL. -/
structure Name where
  /-- The bytes before the terminator. -/
  bytes : List Byte
  /-- No byte ends the name early. -/
  nul_free : ∀ b ∈ bytes, b ≠ 0#8
  /-- The name is not empty. -/
  length_pos : 1 ≤ bytes.length
  /-- The name fits the array of a directory entry. -/
  length_le : bytes.length ≤ 255
  deriving DecidableEq

/-- `strlen`: the bytes before the first NUL. -/
def strlen (s : List Byte) : Nat := (s.takeWhile (· ≠ 0#8)).length

/-- The variables of the chunk loop, with the accesses made so far. -/
structure HashRun where
  /-- The chaining words. -/
  buf : Chain
  /-- The input array, which every call of `str2hashbuf` overwrites. -/
  inp : Nat → Word
  /-- The input arrays handed to `half_md4_transform`, in order. -/
  blocks : List (List Word)
  /-- Positions of the name fetched by `str2hashbuf`, in order. -/
  reads : List Nat

/-- The `while (len > 0)` loop; `fuel` bounds the iterations and the caller
supplies more than the loop uses. -/
def hashLoop (name : List Byte) : Nat → Int → Nat → HashRun → HashRun
  | 0, _, _, r => r
  | fuel + 1, len, p, r =>
    if 0 < len then
      let s := str2hashbuf (fun i => name.getD (p + i) 0#8) len.toNat r.inp 8
      hashLoop name fuel (len - 32) (p + 32)
        { buf := halfMd4Transform r.buf s.out
          inp := s.out
          blocks := r.blocks ++ [(List.range 8).map s.out]
          reads := r.reads ++ s.reads.map (p + ·) }
    else r

/-- The four MD4 initial constants. -/
def md4Init : Chain := ⟨0x67452301#32, 0xefcdab89#32, 0x98badcfe#32, 0x10325476#32⟩

/-- What `dirhash` computes, with its blocks and fetched positions. -/
structure DirHash where
  /-- `*major`. -/
  major : Word
  /-- `*minor`. -/
  minor : Word
  /-- The input arrays handed to `half_md4_transform`. -/
  blocks : List (List Word)
  /-- Positions of the name fetched outside `strlen`. -/
  reads : List Nat
  deriving DecidableEq

/-- `dirhash(name, major, minor)` under the global `seed`. -/
def dirhash (seed : Chain) (name : List Byte) : DirHash :=
  let len := strlen name
  let buf := if seed.a ≠ 0#32 ∨ seed.b ≠ 0#32 ∨ seed.c ≠ 0#32 ∨ seed.d ≠ 0#32
    then seed else md4Init
  let r := hashLoop name len len 0 ⟨buf, fun _ => 0#32, [], []⟩
  let major := r.buf.b &&& ~~~1#32
  let major := if major = 0x7fffffff#32 <<< 1 then (0x7fffffff#32 - 1#32) <<< 1 else major
  ⟨major, r.buf.c, r.blocks, r.reads⟩

/-! ## The block-wise definition -/

/-- Word `j` of chunk `k`: `t` of the chunk's bytes fall in the word's four
positions and follow the remaining length written four times. -/
def blockWord (c : List Byte) (k j : Nat) : Word :=
  let R := c.length - 32 * k
  let P : Int := R * 0x01010101
  let t := min 4 (min R 32 - 4 * j)
  BitVec.ofInt 32 (P * 256 ^ t +
    ∑ i ∈ Finset.range t, (c.getD (32 * k + 4 * j + i) 0#8).toInt * 256 ^ (t - 1 - i))

/-- The chain after all chunks: each adds the compression of its words. -/
def ext4Chain (seed : Chain) (c : List Byte) : Chain :=
  (List.range ((c.length + 31) / 32)).foldl (fun h k => h.add (halfMd4 h (blockWord c k)))
    (if seed = ⟨0#32, 0#32, 0#32, 0#32⟩ then md4Init else seed)

/-- Bit 0 is cleared, and the end-of-directory value is moved out of the way. -/
def majorOf (w : Word) : Word :=
  let even := BitVec.ofNat 32 (w.toNat - w.toNat % 2)
  if even = 0xfffffffe#32 then 0xfffffffc#32 else even

/-- The half-MD4 directory hash of a name: its major and minor words. -/
def ext4Hash (seed : Chain) (c : List Byte) : Word × Word :=
  (majorOf (ext4Chain seed c).b, (ext4Chain seed c).c)

/-! ## Agreement -/

/-- The terminator ends a NUL-free prefix, whatever follows it. -/
theorem strlen_append_nul {c : List Byte} (h : ∀ b ∈ c, b ≠ 0#8) (after : List Byte) :
    strlen (c ++ 0#8 :: after) = c.length := by
  unfold strlen
  rw [List.takeWhile_append_of_pos (by simpa using h)]
  simp

/-- One call packs chunk `k` into its block words. -/
theorem str2hashbuf_chunk (c after : List Byte) (k : Nat) (out : Nat → Word)
    (hk : 32 * k < c.length) (hlen : c.length ≤ 255) :
    let s := str2hashbuf (fun i => (c ++ 0#8 :: after).getD (32 * k + i) 0#8)
      (c.length - 32 * k) out 8
    (∀ j, j < 8 → s.out j = blockWord c k j) ∧
      s.reads = List.range (min (c.length - 32 * k) 32) := by
  obtain ⟨hr, _, ho⟩ := str2hashbuf_spec (fun i => (c ++ 0#8 :: after).getD (32 * k + i) 0#8)
    (c.length - 32 * k) out 8
  refine ⟨?_, hr⟩
  intro j hj
  rw [ho]
  simp only [hj, ite_true]
  rw [lengthPad_eq (by omega), packed_eq, blockWord]
  simp only [fetched]
  congr 2
  apply Finset.sum_congr rfl
  intro i hi
  have hi' : 32 * k + (4 * j + i) < c.length := by
    have := Finset.mem_range.mp hi
    omega
  rw [List.getD_append _ _ _ _ hi', Nat.add_assoc]

/-- The compression reads only its eight input words. -/
theorem halfMd4Transform_congr (h : Chain) {w w' : Nat → Word} (he : ∀ j, j < 8 → w j = w' j) :
    halfMd4Transform h w = halfMd4Transform h w' := by
  simp only [halfMd4Transform, he 0 (by omega), he 1 (by omega), he 2 (by omega),
    he 3 (by omega), he 4 (by omega), he 5 (by omega), he 6 (by omega), he 7 (by omega)]

private theorem range'_chunk (p n : Nat) :
    (List.range (min n 32)).map (p + ·) ++ List.range' (p + 32) (n - 32) = List.range' p n := by
  rw [← List.range'_eq_map_range]
  by_cases hn : n ≤ 32
  · rw [Nat.min_eq_left hn, Nat.sub_eq_zero_of_le hn, List.range'_zero, List.append_nil]
  · rw [Nat.min_eq_right (by omega), List.range'_append_1]
    congr 1
    omega

/-- From chunk `k` on, the loop folds the block-wise compression over the
remaining `d` chunks and fetches the remaining bytes once each, in order. -/
theorem hashLoop_eq {c : List Byte} (after : List Byte) (hlen : c.length ≤ 255) (d : Nat) :
    ∀ (fuel k : Nat) (r : HashRun), d ≤ fuel → k + d = (c.length + 31) / 32 →
    let s := hashLoop (c ++ 0#8 :: after) fuel (c.length - (32 * k : Nat)) (32 * k) r
    s.buf = (List.range' k d).foldl (fun h k => h.add (halfMd4 h (blockWord c k))) r.buf ∧
      s.blocks = r.blocks ++ (List.range' k d).map (fun k => (List.range 8).map (blockWord c k)) ∧
      s.reads = r.reads ++ List.range' (32 * k) (c.length - 32 * k) := by
  induction d with
  | zero =>
    intro fuel k r _ hk
    have hdone : ¬(0 : Int) < c.length - (32 * k : Nat) := by omega
    have hnone : c.length - 32 * k = 0 := by omega
    cases fuel <;> simp only [hashLoop, hdone, ite_false, hnone] <;> simp
  | succ d ih =>
    intro fuel k r hfuel hk
    obtain ⟨fuel, rfl⟩ : ∃ f, fuel = f + 1 := ⟨fuel - 1, by omega⟩
    have hmore : (0 : Int) < c.length - (32 * k : Nat) := by omega
    have hnat : ((c.length : Int) - (32 * k : Nat)).toNat = c.length - 32 * k := by omega
    have hnext : (c.length : Int) - (32 * k : Nat) - 32 = c.length - (32 * (k + 1) : Nat) := by
      omega
    obtain ⟨hwords, hreads⟩ := str2hashbuf_chunk c after k r.inp (by omega) hlen
    simp only [hashLoop, hmore, ite_true, hnat, hnext]
    rw [show 32 * k + 32 = 32 * (k + 1) by ring]
    obtain ⟨hb, hbl, hrd⟩ := ih fuel (k + 1) _ (by omega) (by omega)
    refine ⟨?_, ?_, ?_⟩
    · rw [hb, halfMd4Transform_congr r.buf hwords, halfMd4Transform_eq, List.range'_succ,
        List.foldl_cons]
    · rw [hbl, List.range'_succ, List.map_cons, List.append_assoc, List.singleton_append]
      congr 2
      apply List.map_congr_left
      intro j hj
      exact hwords j (List.mem_range.mp hj)
    · rw [hrd, hreads, List.append_assoc, ← range'_chunk (32 * k) (c.length - 32 * k)]
      congr 3

private theorem seed_test (seed : Chain) :
    (if seed.a ≠ 0#32 ∨ seed.b ≠ 0#32 ∨ seed.c ≠ 0#32 ∨ seed.d ≠ 0#32 then seed else md4Init) =
      if seed = ⟨0#32, 0#32, 0#32, 0#32⟩ then md4Init else seed := by
  obtain ⟨a, b, c, d⟩ := seed
  simp only [Chain.mk.injEq]
  by_cases h : a = 0#32 ∧ b = 0#32 ∧ c = 0#32 ∧ d = 0#32
  · obtain ⟨rfl, rfl, rfl, rfl⟩ := h
    rfl
  · rw [if_neg h, if_pos]
    tauto

private theorem major_test (w : Word) :
    (if w &&& ~~~1#32 = 0x7fffffff#32 <<< 1 then (0x7fffffff#32 - 1#32) <<< 1
      else w &&& ~~~1#32) = majorOf w := by
  have heven : w &&& ~~~1#32 = BitVec.ofNat 32 (w.toNat - w.toNat % 2) := by
    have hshift : w &&& ~~~1#32 = (w >>> 1) <<< 1 := by
      ext i hi
      rcases i with _ | i
      · simp
      · simp [-BitVec.reduceNot, Nat.add_comm 1 i, BitVec.getLsbD_eq_getElem hi]
    rw [hshift]
    apply BitVec.eq_of_toNat_eq
    have hlt := w.isLt
    simp only [BitVec.toNat_shiftLeft, BitVec.toNat_ushiftRight, BitVec.toNat_ofNat,
      Nat.shiftLeft_eq, Nat.shiftRight_eq_div_pow, pow_one]
    omega
  rw [majorOf, heven]
  rfl

/-- Hashing a terminated name gives its directory hash, hands exactly its block
words to the compression, and fetches each of its bytes once and nothing else. -/
theorem dirhash_name (seed : Chain) (c : Name) (after : List Byte) :
    dirhash seed (c.bytes ++ 0#8 :: after) =
      { major := (ext4Hash seed c.bytes).1
        minor := (ext4Hash seed c.bytes).2
        blocks := (List.range ((c.bytes.length + 31) / 32)).map
          fun k => (List.range 8).map (blockWord c.bytes k)
        reads := List.range c.bytes.length } := by
  have hpos := c.length_pos
  obtain ⟨hb, hbl, hrd⟩ := hashLoop_eq after c.length_le ((c.bytes.length + 31) / 32)
    c.bytes.length 0
    ⟨if seed = ⟨0#32, 0#32, 0#32, 0#32⟩ then md4Init else seed, fun _ => 0#32, [], []⟩
    (by omega) (by omega)
  simp only [Nat.mul_zero, Nat.cast_zero, Int.sub_zero, Nat.sub_zero, List.nil_append,
    ← List.range_eq_range'] at hb hbl hrd
  simp only [dirhash, strlen_append_nul c.nul_free, seed_test, major_test, hb, hbl, hrd]
  rfl

/-- For every seed and every name, whatever bytes follow its terminator, the
source's pointer loop computes the block-wise directory hash, and outside
`strlen` it fetches no byte behind the name's last one. -/
theorem dirhash_eq_ext4Hash (seed : Chain) (c : Name) (after : List Byte) :
    let r := dirhash seed (c.bytes ++ 0#8 :: after)
    (r.major, r.minor) = ext4Hash seed c.bytes ∧ ∀ i ∈ r.reads, i < c.bytes.length := by
  intro r
  have hr : r = _ := dirhash_name seed c after
  rw [hr]
  exact ⟨rfl, fun i hi => List.mem_range.mp hi⟩

end WirenBoard.DirOrder
