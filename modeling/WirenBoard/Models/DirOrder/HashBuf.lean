import WirenBoard.Core.Digits
import WirenBoard.Models.DirOrder.HalfMd4
import Mathlib.Algebra.BigOperators.Fin

/-!
# Packing a name chunk into hash words

`str2hashbuf` walks the message with a shrinking count of output words. The
state of its loops keeps every local variable of the source together with the
message positions fetched and the array positions stored, so that the accesses
are facts about the run and not about the result. The loop invariant identifies
each stored word with the signed base-256 value of the bytes below it, preceded
by the length padding.
-/

namespace WirenBoard.DirOrder

/-- The variables of `str2hashbuf` while it runs, with its memory accesses. -/
structure HashBuf where
  /-- The word being packed. -/
  val : Word
  /-- The remaining output words; the source lets it reach `-1` and below. -/
  num : Int
  /-- How far the output pointer has moved. -/
  buf : Nat
  /-- The output array. -/
  out : Nat → Word
  /-- Output positions stored to, in order. -/
  stored : List Nat
  /-- Message positions fetched, in order. -/
  reads : List Nat

/-- `*buf++ = v`. -/
def HashBuf.put (s : HashBuf) (v : Word) : HashBuf :=
  { s with buf := s.buf + 1, out := Function.update s.out s.buf v, stored := s.stored ++ [s.buf] }

/-- The padding word: the low length byte in all four positions when it fits one. -/
def lengthPad (len : Nat) : Word :=
  let pad : Word := BitVec.ofNat 32 len ||| (BitVec.ofNat 32 len <<< 8)
  pad ||| (pad <<< 16)

/-- One iteration of the `for` loop: fetch, accumulate, and store every fourth time. -/
def packStep (msg : Nat → Byte) (pad : Word) (s : HashBuf) (i : Nat) : HashBuf :=
  let s := { s with val := (msg i).signExtend 32 + (s.val <<< 8), reads := s.reads ++ [i] }
  if i % 4 = 3 then { s.put s.val with val := pad, num := s.num - 1 } else s

/-- One iteration of the `while` loop, entered with `num` already tested. -/
def padStep (pad : Word) (s : HashBuf) : HashBuf := { s.put pad with num := s.num - 1 }

/-- `str2hashbuf(msg, len, buf, num)` for nonnegative `len` and `num`. -/
def str2hashbuf (msg : Nat → Byte) (len : Nat) (out : Nat → Word) (num : Nat) : HashBuf :=
  let pad := lengthPad len
  let len := if len > num * 4 then num * 4 else len
  let s := (List.range len).foldl (packStep msg pad) ⟨pad, num, 0, out, [], []⟩
  let s := { s with num := s.num - 1 }
  let s := if 0 ≤ s.num then s.put s.val else s
  (List.range s.num.toNat).foldl (fun s _ => padStep pad s) s

/-! ## The packed value -/

/-- `t` message bytes starting at `base`, packed after the padding word. -/
def packed (msg : Nat → Byte) (pad : Word) (base : Nat) : Nat → Word
  | 0 => pad
  | t + 1 => (msg (base + t)).signExtend 32 + (packed msg pad base t <<< 8)

private theorem signExtend_byte (b : Byte) : b.signExtend 32 = BitVec.ofInt 32 b.toInt := by
  apply BitVec.eq_of_toInt_eq
  rw [BitVec.toInt_signExtend_of_le (by decide), BitVec.toInt_ofInt]
  have hlt := b.toInt_lt
  have hle := b.le_toInt
  rw [Int.bmod_eq_of_le] <;> omega

private theorem shiftLeft_eight (x : Word) : x <<< 8 = x * 256#32 := by
  rw [BitVec.shiftLeft_eq_mul_twoPow]
  rfl

/-- Packing is a signed base-256 expansion above the padding, modulo `2^32`. -/
theorem packed_eq (msg : Nat → Byte) (P : Int) (base t : Nat) :
    packed msg (BitVec.ofInt 32 P) base t =
      BitVec.ofInt 32 (P * 256 ^ t +
        ∑ i ∈ Finset.range t, (msg (base + i)).toInt * 256 ^ (t - 1 - i)) := by
  rw [← expand_eq_sum 256 fun i => (msg (base + i)).toInt]
  induction t with
  | zero => simp [packed, expand]
  | succ t ih =>
    rw [packed, ih, expand, shiftLeft_eight, signExtend_byte,
      show (256#32 : Word) = BitVec.ofInt 32 256 from rfl, ← BitVec.ofInt_mul, ← BitVec.ofInt_add]
    congr 1
    ring

/-- Packing depends only on the bytes it fetches. -/
theorem packed_congr {msg msg' : Nat → Byte} {pad : Word} {base t : Nat}
    (h : ∀ i, i < t → msg (base + i) = msg' (base + i)) :
    packed msg pad base t = packed msg' pad base t := by
  induction t with
  | zero => rfl
  | succ t ih =>
    rw [packed, packed, h t (Nat.lt_succ_self t), ih fun i hi => h i (by omega)]

/-- A length that fits one byte fills all four bytes of the padding word. -/
theorem lengthPad_eq {len : Nat} (h : len < 256) :
    lengthPad len = BitVec.ofInt 32 (len * 0x01010101) := by
  have hall : ∀ n : Fin 256, lengthPad n.val = BitVec.ofInt 32 (n.val * 0x01010101) := by
    decide +kernel
  exact hall ⟨len, h⟩

/-! ## The loop invariant -/

/-- After `i` fetched bytes: `i / 4` whole words are stored, and `i % 4` bytes
are pending in `val`. -/
structure PackInv (msg : Nat → Byte) (pad : Word) (out : Nat → Word) (num i : Nat)
    (s : HashBuf) : Prop where
  /-- The pending bytes sit above the padding. -/
  val : s.val = packed msg pad (4 * (i / 4)) (i % 4)
  /-- The count fell once per stored word. -/
  num : s.num = num - (i / 4 : Nat)
  /-- The pointer stands behind the stored words. -/
  buf : s.buf = i / 4
  /-- Stored words hold four bytes each; the rest of the array is untouched. -/
  out : s.out = fun j => if j < i / 4 then packed msg pad (4 * j) 4 else out j
  /-- Words were stored from left to right. -/
  stored : s.stored = List.range (i / 4)
  /-- Bytes were fetched from left to right. -/
  reads : s.reads = List.range i

private theorem update_eq_ite (out : Nat → Word) (f : Nat → Word) (n : Nat) :
    Function.update (fun j => if j < n then f j else out j) n (f n) =
      fun j => if j < n + 1 then f j else out j := by
  funext j
  rcases Nat.lt_trichotomy j n with h | rfl | h
  · rw [Function.update_of_ne (Nat.ne_of_lt h), if_pos h, if_pos (by omega)]
  · rw [Function.update_self, if_pos (Nat.lt_succ_self j)]
  · rw [Function.update_of_ne (Nat.ne_of_gt h), if_neg (by omega), if_neg (by omega)]

/-- One iteration of the packing loop keeps the invariant. -/
theorem PackInv.packStep {msg : Nat → Byte} {pad : Word} {out : Nat → Word} {num i : Nat}
    {s : HashBuf} (h : PackInv msg pad out num i s) :
    PackInv msg pad out num (i + 1) (packStep msg pad s i) := by
  have hsplit : 4 * (i / 4) + i % 4 = i := Nat.div_add_mod i 4
  have hval : (msg i).signExtend 32 + (s.val <<< 8) =
      packed msg pad (4 * (i / 4)) (i % 4 + 1) := by
    rw [packed, hsplit, h.val]
  unfold DirOrder.packStep
  by_cases hi : i % 4 = 3
  · have hdiv : (i + 1) / 4 = i / 4 + 1 := by omega
    have hmod : (i + 1) % 4 = 0 := by omega
    rw [hi] at hval
    simp only [hi, ite_true, HashBuf.put, hval]
    refine ⟨?_, ?_, ?_, ?_, ?_, ?_⟩
    · rw [hmod, packed]
    · rw [h.num, hdiv]
      push_cast
      ring
    · rw [h.buf, hdiv]
    · rw [h.out, h.buf, hdiv]
      exact update_eq_ite out (fun j => packed msg pad (4 * j) 4) (i / 4)
    · rw [h.stored, h.buf, hdiv, List.range_succ]
    · rw [h.reads, List.range_succ]
  · have hdiv : (i + 1) / 4 = i / 4 := by omega
    have hmod : (i + 1) % 4 = i % 4 + 1 := by omega
    simp only [hi, ite_false, hval]
    refine ⟨?_, ?_, ?_, ?_, ?_, ?_⟩
    · rw [hdiv, hmod]
    · rw [h.num, hdiv]
    · rw [h.buf, hdiv]
    · rw [h.out, hdiv]
    · rw [h.stored, hdiv]
    · rw [h.reads, List.range_succ]

/-- The whole `for` loop establishes the invariant at its bound. -/
theorem PackInv.foldl (msg : Nat → Byte) (pad : Word) (out : Nat → Word) (num len : Nat) :
    PackInv msg pad out num len
      ((List.range len).foldl (DirOrder.packStep msg pad) ⟨pad, num, 0, out, [], []⟩) := by
  induction len with
  | zero => exact ⟨rfl, by simp, rfl, by simp, rfl, rfl⟩
  | succ len ih =>
    rw [List.range_succ, List.foldl_append]
    exact ih.packStep

/-- Padding appends the padding word at the next positions and nothing else. -/
theorem foldl_padStep (pad : Word) (n : Nat) (s : HashBuf) :
    let r := (List.range n).foldl (fun s _ => padStep pad s) s
    r.stored = s.stored ++ List.range' s.buf n ∧ r.reads = s.reads ∧ r.buf = s.buf + n ∧
      r.out = fun j => if s.buf ≤ j ∧ j < s.buf + n then pad else s.out j := by
  induction n with
  | zero =>
    refine ⟨by simp, rfl, rfl, ?_⟩
    funext j
    rw [if_neg (by omega)]
    rfl
  | succ n ih =>
    obtain ⟨hs, hr, hb, ho⟩ := ih
    simp only [List.range_succ, List.foldl_append, List.foldl_cons, List.foldl_nil]
    generalize (List.range n).foldl (fun s _ => padStep pad s) s = r at hs hr hb ho
    refine ⟨?_, hr, ?_, ?_⟩
    · simp only [padStep, HashBuf.put, hs, hb, List.append_assoc, List.range'_1_concat]
    · simp only [padStep, HashBuf.put, hb, Nat.add_assoc]
    · funext j
      simp only [padStep, HashBuf.put, hb, ho, Function.update_apply]
      split_ifs <;> first | rfl | omega

/-! ## What a call stores and fetches -/

/-- The message bytes a call fetches: the message, cut at the array's capacity. -/
def fetched (len num : Nat) : Nat := min len (4 * num)

private theorem range_append_range' {k num : Nat} (h : k < num) :
    List.range (k + 1) ++ List.range' (k + 1) (num - 1 - k) = List.range num := by
  have happend := List.range'_append_1 (s := 0) (m := k + 1) (n := num - 1 - k)
  rw [Nat.zero_add] at happend
  rw [List.range_eq_range', List.range_eq_range', happend]
  congr 1
  omega

/-- A call fetches exactly the leading bytes, stores exactly the array's words
once each from left to right, and each word packs the bytes of its position. -/
theorem str2hashbuf_spec (msg : Nat → Byte) (len : Nat) (out : Nat → Word) (num : Nat) :
    let s := str2hashbuf msg len out num
    s.reads = List.range (fetched len num) ∧ s.stored = List.range num ∧
      s.out = fun j => if j < num then
        packed msg (lengthPad len) (4 * j) (min 4 (fetched len num - 4 * j)) else out j := by
  have hlen : (if len > num * 4 then num * 4 else len) = fetched len num := by
    unfold fetched
    split <;> omega
  have hbound : fetched len num ≤ 4 * num := Nat.min_le_right _ _
  have hinv := PackInv.foldl msg (lengthPad len) out num (fetched len num)
  simp only [str2hashbuf, hlen]
  generalize (List.range (fetched len num)).foldl (packStep msg (lengthPad len))
    ⟨lengthPad len, num, 0, out, [], []⟩ = s at hinv
  generalize fetched len num = m at *
  by_cases hfull : m / 4 < num
  · have hnum : (0 : Int) ≤ s.num - 1 := by rw [hinv.num]; omega
    have htail : (s.num - 1).toNat = num - 1 - m / 4 := by rw [hinv.num]; omega
    simp only [hnum, ite_true, HashBuf.put, htail]
    obtain ⟨hs, hr, _, ho⟩ := foldl_padStep (lengthPad len) (num - 1 - m / 4)
      { s with num := s.num - 1, buf := s.buf + 1, out := Function.update s.out s.buf s.val,
               stored := s.stored ++ [s.buf] }
    dsimp only at hs hr ho
    refine ⟨hr.trans hinv.reads, ?_, ?_⟩
    · rw [hs, hinv.stored, hinv.buf, ← List.range_succ, range_append_range' hfull]
    · rw [ho, hinv.buf, hinv.out, hinv.val]
      funext j
      rcases Nat.lt_trichotomy j (m / 4) with h | rfl | h
      · rw [if_neg (by omega), Function.update_of_ne (by omega), if_pos h,
          if_pos (by omega), show min 4 (m - 4 * j) = 4 by omega]
      · rw [if_neg (by omega), Function.update_self, if_pos hfull,
          show min 4 (m - 4 * (m / 4)) = m % 4 by omega]
      · by_cases hj : j < num
        · rw [if_pos (by omega), if_pos hj, show min 4 (m - 4 * j) = 0 by omega, packed]
        · rw [if_neg (by omega), Function.update_of_ne (by omega), if_neg (by omega),
            if_neg hj]
  · have hall : m / 4 = num := by omega
    have hnum : ¬(0 : Int) ≤ s.num - 1 := by rw [hinv.num]; omega
    have htail : (s.num - 1).toNat = 0 := by omega
    simp only [hnum, ite_false, htail, List.range_zero, List.foldl_nil]
    refine ⟨hinv.reads, by rw [hinv.stored, hall], ?_⟩
    rw [hinv.out, hall]
    funext j
    by_cases hj : j < num
    · rw [if_pos hj, if_pos hj, show min 4 (m - 4 * j) = 4 by omega]
    · rw [if_neg hj, if_neg hj]

/-- For every length and every capacity a call fetches exactly the leading bytes that fit,
stores each word of the array once and no other word, and the words do not depend on any
byte behind the fetched ones. -/
theorem str2hashbuf_within_buffers {msg msg' : Nat → Byte} {len num : Nat} (out out' : Nat → Word)
    (hmsg : ∀ i < min len (4 * num), msg i = msg' i) :
    let s := str2hashbuf msg len out num
    s.reads = List.range (min len (4 * num)) ∧ s.stored = List.range num ∧
      (∀ j, num ≤ j → s.out j = out j) ∧
      ∀ j < num, s.out j = (str2hashbuf msg' len out' num).out j := by
  obtain ⟨hreads, hstored, hout⟩ := str2hashbuf_spec msg len out num
  obtain ⟨_, _, hout'⟩ := str2hashbuf_spec msg' len out' num
  refine ⟨hreads, hstored, ?_, ?_⟩
  · intro j hj
    rw [hout]
    exact if_neg (by omega)
  · intro j hj
    rw [hout, hout']
    dsimp only
    rw [if_pos hj, if_pos hj]
    apply packed_congr
    intro i hi
    apply hmsg
    unfold fetched at hi
    omega

/-- Three bytes in an array of eight words. -/
theorem str2hashbuf_within_buffers_three :
    (str2hashbuf (fun _ => 0x61#8) 3 (fun _ => 0#32) 8).reads = [0, 1, 2] ∧
      (str2hashbuf (fun _ => 0x61#8) 3 (fun _ => 0#32) 8).out 7 =
        (str2hashbuf (fun i => if i < 3 then 0x61#8 else 0x62#8) 3 (fun _ => 1#32) 8).out 7 := by
  have hmsg : ∀ i < min 3 (4 * 8), (0x61#8 : Byte) = if i < 3 then 0x61#8 else 0x62#8 := by
    intro i hi
    rw [if_pos (by omega)]
  obtain ⟨hreads, _, _, hwords⟩ := str2hashbuf_within_buffers (fun _ => 0#32) (fun _ => 1#32) hmsg
  exact ⟨hreads, hwords 7 (by omega)⟩

end WirenBoard.DirOrder
