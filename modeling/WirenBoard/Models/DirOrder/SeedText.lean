import WirenBoard.Models.DirOrder.Seed

/-!
# What the scan makes of a text

From the text of a UUID the scan takes exactly the bytes that it writes, wherever the
hyphens stand, and the four seed words are their little-endian values: the seed and the
sixteen bytes determine each other. On any text the scan stores at most sixteen bytes. It
stays inside the value unless a single digit at its end is taken for a cell of two
characters, and then steps over the terminator.
-/

namespace WirenBoard.DirOrder

/-! ## The text of a UUID -/

private theorem hexDigit_ne_x {c : Byte} (h : (hexDigit c).isSome) : c ≠ ch 'x' ∧ c ≠ ch 'X' := by
  revert h
  exact forall_byte (p := fun c => (hexDigit c).isSome → c ≠ ch 'x' ∧ c ≠ ch 'X')
    (by decide +kernel) c

/-- Two digits are converted to their value. -/
theorem scanHex2_pair {h l : Byte} {x y : Nat} (hx : hexDigit h = some x) (hy : hexDigit l = some y)
    (m : List Byte) : scanHex2 (h :: l :: m) = some (BitVec.ofNat 32 (16 * x + y)) := by
  obtain ⟨hspace, hplus, hminus, _⟩ := hexDigit_class h (by rw [hx]; rfl)
  obtain ⟨hx', hX'⟩ := hexDigit_ne_x (c := l) (by rw [hy]; rfl)
  simp [scanHex2, hspace, hplus, hminus, hexPair, hx, hx', hX', hy]

/-- A full array ends the scan. -/
theorem scanSeed_full {r : SeedScan} (hn : 16 ≤ r.b.length) (m : List Byte) (s : Nat) :
    scanSeed m s r = { r with derefs := r.derefs ++ [s] } := by
  cases m with
  | nil => rfl
  | cons c m => exact scanSeed_stop (Or.inr hn)

/-- The scan of a text with the missing bytes takes exactly these, whatever follows it. -/
theorem scanSeed_uuid {t b : List Byte} (h : UuidText t b) (m : List Byte) (s : Nat) (r : SeedScan)
    (hn : r.b.length + b.length = 16) :
    (scanSeed (t ++ m) s r).b = r.b ++ b ∧ (scanSeed (t ++ m) s r).refused = r.refused := by
  induction h generalizing s r with
  | nil =>
    rw [scanSeed_full (by simpa using hn.ge)]
    exact ⟨by simp, rfl⟩
  | @hyphen t b _ ih =>
    rcases Nat.lt_or_ge r.b.length 16 with hmore | hfull
    · rw [List.cons_append, scanSeed_hyphen (by omega)]
      exact ih (s + 1) { r with derefs := r.derefs ++ [s] } hn
    · have hb : b = [] := List.eq_nil_of_length_eq_zero (by omega)
      rw [scanSeed_full hfull, hb]
      exact ⟨by simp, rfl⟩
  | @byte h l x y t b hx hy _ ih =>
    obtain ⟨_, _, hminus, hnul⟩ := hexDigit_class h (by rw [hx]; rfl)
    rw [List.length_cons] at hn
    have hgo : ¬(h = 0#8 ∨ 16 ≤ r.b.length) := by
      rintro (h | h)
      · exact hnul h
      · omega
    have hbyte : (BitVec.ofNat 32 (16 * x + y)).setWidth 8 = BitVec.ofNat 8 (16 * x + y) :=
      BitVec.setWidth_ofNat_of_le (by omega) _
    rw [List.cons_append, List.cons_append, scanSeed_cell hgo hminus (scanHex2_pair hx hy _),
      List.tail_cons, hbyte]
    obtain ⟨hb, hrefused⟩ := ih (s + 2)
      { r with
        b := r.b ++ [BitVec.ofNat 8 (16 * x + y)], derefs := r.derefs ++ [s],
        scans := r.scans ++ [s] } (by simp only [List.length_append, List.length_singleton]; omega)
    exact ⟨by rw [hb, List.append_assoc, List.singleton_append], hrefused⟩

/-! ## The seed and its bytes -/

/-- `seed[i]`. -/
def Chain.word (s : Chain) : Nat → Word
  | 0 => s.a
  | 1 => s.b
  | 2 => s.c
  | _ => s.d

/-- The sixteen bytes of the seed array, each word written little-endian. -/
def Chain.bytes (s : Chain) : List Byte :=
  (List.range 16).map fun k => (s.word (k / 4) >>> (8 * (k % 4))).setWidth 8

private theorem or_shift {n k : Nat} (x : Nat) (h : x < 2 ^ k) :
    x ||| n <<< k = x + 2 ^ k * n := by
  rw [Nat.or_comm, ← Nat.shiftLeft_add_eq_or_of_lt h, Nat.shiftLeft_eq, Nat.add_comm, Nat.mul_comm]

private theorem toNat_shift (x : Byte) {k : Nat} (h : k ≤ 24) :
    (x.setWidth 32 <<< k).toNat = x.toNat <<< k := by
  have hlt : x.toNat * 2 ^ k < 2 ^ 32 :=
    Nat.mul_lt_mul_of_lt_of_le (d := 2 ^ 24) x.isLt (Nat.pow_le_pow_right (by omega) h) (by omega)
  rw [BitVec.toNat_shiftLeft, BitVec.toNat_setWidth_of_le (by omega), Nat.shiftLeft_eq,
    Nat.mod_eq_of_lt hlt]

/-- The mixed shifts assemble the little-endian value of the four bytes. -/
theorem seedWord_toNat (b : List Byte) (i : Nat) :
    (seedWord b i).toNat = (b.getD (4 * i) 0#8).toNat + 2 ^ 8 * (b.getD (4 * i + 1) 0#8).toNat +
      2 ^ 16 * (b.getD (4 * i + 2) 0#8).toNat + 2 ^ 24 * (b.getD (4 * i + 3) 0#8).toNat := by
  have h0 := (b.getD (4 * i) 0#8).isLt
  have h1 := (b.getD (4 * i + 1) 0#8).isLt
  have h2 := (b.getD (4 * i + 2) 0#8).isLt
  rw [seedWord, BitVec.toNat_or, BitVec.toNat_or, BitVec.toNat_or,
    BitVec.toNat_setWidth_of_le (by omega), toNat_shift _ (by omega), toNat_shift _ (by omega),
    toNat_shift _ (by omega), or_shift _ h0, or_shift (k := 16) _ (by omega),
    or_shift (k := 24) _ (by omega)]

/-- Serialising a seed word gives back its bytes. -/
theorem seedWord_byte (b : List Byte) (i : Nat) {k : Nat} (hk : k < 4) :
    (seedWord b i >>> (8 * k)).setWidth 8 = b.getD (4 * i + k) 0#8 := by
  have h0 := (b.getD (4 * i) 0#8).isLt
  have h1 := (b.getD (4 * i + 1) 0#8).isLt
  have h2 := (b.getD (4 * i + 2) 0#8).isLt
  have h3 := (b.getD (4 * i + 3) 0#8).isLt
  apply BitVec.eq_of_toNat_eq
  rw [BitVec.toNat_setWidth, BitVec.toNat_ushiftRight, seedWord_toNat, Nat.shiftRight_eq_div_pow]
  have hcase : k = 0 ∨ k = 1 ∨ k = 2 ∨ k = 3 := by omega
  rcases hcase with rfl | rfl | rfl | rfl
  · rw [Nat.add_zero (4 * i)]
    omega
  all_goals omega

/-- The words that `load_seed` assembles from the bytes. -/
def seedOf (b : List Byte) : Chain := ⟨seedWord b 0, seedWord b 1, seedWord b 2, seedWord b 3⟩

private theorem seedOf_word (b : List Byte) {i : Nat} (hi : i < 4) :
    (seedOf b).word i = seedWord b i := by
  have hcase : i = 0 ∨ i = 1 ∨ i = 2 ∨ i = 3 := by omega
  rcases hcase with rfl | rfl | rfl | rfl <;> rfl

/-- The seed of sixteen bytes is written as these bytes. -/
theorem seedOf_bytes {b : List Byte} (hb : b.length = 16) : (seedOf b).bytes = b := by
  apply List.ext_getElem
  · rw [Chain.bytes, List.length_map, List.length_range, hb]
  intro k _ hk
  have hword : k / 4 < 4 := by omega
  have hpos : 4 * (k / 4) + k % 4 = k := Nat.div_add_mod k 4
  simp only [Chain.bytes, List.getElem_map, List.getElem_range]
  rw [seedOf_word b hword, seedWord_byte b _ (Nat.mod_lt k (by omega)), hpos,
    ← List.getElem_eq_getD]

/-- Sixteen bytes are determined by their seed. -/
theorem seedOf_inj {b b' : List Byte} (hb : b.length = 16) (hb' : b'.length = 16) :
    seedOf b = seedOf b' ↔ b = b' := by
  constructor
  · intro h
    rw [← seedOf_bytes hb, h, seedOf_bytes hb']
  · rintro rfl
    rfl

/-- A text of sixteen bytes is accepted, and its bytes become the seed. -/
theorem loadSeed_of_uuid {env : Env} {v : EnvValue} {b : List Byte} (henv : env.hashSeed = some v)
    (htext : UuidText v.value b) (hb : b.length = 16) (g : Globals) :
    (loadSeed env g).haveSeed = true ∧ (loadSeed env g).seed = seedOf b := by
  obtain ⟨hscan, hrefused⟩ := scanSeed_uuid htext (0#8 :: v.after) 0 ⟨[], false, [], []⟩
    (by simpa using hb)
  have hne : v.value ≠ [] := by
    intro h
    rw [h] at htext
    cases htext
    simp at hb
  rw [List.nil_append, ← EnvValue.mem] at hscan
  rw [← EnvValue.mem] at hrefused
  simp only [loadSeed, henv, hne, hscan, hrefused, hb, ite_false, ne_eq, not_true_eq_false,
    Bool.false_eq_true, or_false]
  exact ⟨trivial, rfl⟩

/-- Loading undoes the formatting of a UUID: the words are the little-endian values of its
bytes, writing them little-endian gives the bytes back, and two texts load the same seed
exactly when they denote the same bytes. -/
theorem loadSeed_undoes_format {env : Env} {v : EnvValue} {b : List Byte}
    (henv : env.hashSeed = some v) (htext : UuidText v.value b) (hb : b.length = 16) (g : Globals) :
    (loadSeed env g).haveSeed = true ∧
      (∀ i < 4, ((loadSeed env g).seed.word i).toNat =
        (b.getD (4 * i) 0#8).toNat + 2 ^ 8 * (b.getD (4 * i + 1) 0#8).toNat +
          2 ^ 16 * (b.getD (4 * i + 2) 0#8).toNat + 2 ^ 24 * (b.getD (4 * i + 3) 0#8).toNat) ∧
      (loadSeed env g).seed.bytes = b ∧
      ∀ (env' : Env) (v' : EnvValue) (b' : List Byte) (g' : Globals), env'.hashSeed = some v' →
        UuidText v'.value b' → b'.length = 16 →
        ((loadSeed env g).seed = (loadSeed env' g').seed ↔ b = b') := by
  obtain ⟨hhave, hseed⟩ := loadSeed_of_uuid henv htext hb g
  refine ⟨hhave, ?_, ?_, ?_⟩
  · intro i hi
    rw [hseed, seedOf_word b hi, seedWord_toNat]
  · rw [hseed, seedOf_bytes hb]
  · intro env' v' b' g' henv' htext' hb'
    rw [hseed, (loadSeed_of_uuid henv' htext' hb' g').2, seedOf_inj hb hb']

private theorem hyphenated_text (n : Nat) :
    UuidText (List.replicate n [ch 'f', ch 'E', ch '-']).flatten (List.replicate n 0xfe#8) := by
  induction n with
  | zero => exact UuidText.nil
  | succ n ih => exact UuidText.byte (x := 15) (y := 14) rfl rfl (UuidText.hyphen ih)

/-- Digits of both cases and a hyphen around every byte. -/
theorem loadSeed_undoes_format_hyphens :
    ∃ v : EnvValue, v.value = ch '-' :: (List.replicate 16 [ch 'f', ch 'E', ch '-']).flatten ∧
      (loadSeed ⟨some v, none, none⟩ Globals.initial).haveSeed = true ∧
      (loadSeed ⟨some v, none, none⟩ Globals.initial).seed.bytes = List.replicate 16 0xfe#8 := by
  let v : EnvValue := ⟨ch '-' :: (List.replicate 16 [ch 'f', ch 'E', ch '-']).flatten,
    by decide, []⟩
  obtain ⟨hhave, _, hbytes, _⟩ := @loadSeed_undoes_format ⟨some v, none, none⟩
    v _ rfl (UuidText.hyphen (hyphenated_text 16)) (List.length_replicate ..) Globals.initial
  exact ⟨v, rfl, hhave, hbytes⟩

/-! ## The scan and the end of the value -/

/-- Values at which a scan that still takes `n` bytes steps over the terminator: fewer than
`n` cells of two characters, hyphens between them, and one digit at the end. -/
inductive Overruns : Nat → List Byte → Prop where
  /-- The second character of the cell would be the terminator. -/
  | digit {n : Nat} {c : Byte} : (hexDigit c).isSome → Overruns (n + 1) [c]
  /-- A skipped hyphen. -/
  | hyphen {n : Nat} {m : List Byte} : Overruns n m → Overruns n (ch '-' :: m)
  /-- A cell that lies inside the value. -/
  | cell {n : Nat} {c d : Byte} {m : List Byte} : c ≠ ch '-' → HexField (c :: d :: m) →
      Overruns n m → Overruns (n + 1) (c :: d :: m)

private theorem not_overruns_zero (m : List Byte) : ¬Overruns 0 m := by
  intro h
  generalize hn : 0 = n at h
  induction h with
  | digit => exact absurd hn (Nat.succ_ne_zero _).symm
  | hyphen _ ih => exact ih hn
  | cell => exact absurd hn (Nat.succ_ne_zero _).symm

private theorem overruns_succ_iff {n : Nat} {c : Byte} {m : List Byte} :
    Overruns (n + 1) (c :: m) ↔ (c = ch '-' ∧ Overruns (n + 1) m) ∨
      (c ≠ ch '-' ∧ HexField (c :: m) ∧ (m = [] ∨ Overruns n m.tail)) := by
  constructor
  · intro h
    cases h with
    | digit hc =>
      exact Or.inr ⟨(hexDigit_class c hc).2.2.1, HexField.digit hc (by simp), Or.inl rfl⟩
    | hyphen h => exact Or.inl ⟨rfl, h⟩
    | cell hc hf h => exact Or.inr ⟨hc, hf, Or.inr h⟩
  · rintro (⟨rfl, h⟩ | ⟨hc, hf, h⟩)
    · exact Overruns.hyphen h
    · cases m with
      | nil =>
        cases hf with
        | space _ hf => cases hf
        | digit hd _ => exact Overruns.digit hd
      | cons d m =>
        rcases h with h | h
        · cases h
        · exact Overruns.cell hc hf h

/-- The conversion does not look behind the terminator. -/
theorem scanHex2_terminator (m after : List Byte) : scanHex2 (m ++ 0#8 :: after) = scanHex2 m := by
  have hspace : isSpace 0#8 = false := by decide
  have hdigit : hexDigit 0#8 = none := by decide
  induction m with
  | nil =>
    simp [scanHex2, hexPair, hspace, hdigit, show 0#8 ≠ ch '+' by decide,
      show 0#8 ≠ ch '-' by decide]
  | cons c m ih =>
    have hhead : (m ++ 0#8 :: after).head?.bind hexDigit = m.head?.bind hexDigit := by
      cases m with
      | nil => simp [hdigit]
      | cons d m => rfl
    have hx : ((m ++ 0#8 :: after).head? = some (ch 'x') ∨
        (m ++ 0#8 :: after).head? = some (ch 'X')) ↔
        (m.head? = some (ch 'x') ∨ m.head? = some (ch 'X')) := by
      cases m with
      | nil => simp [show 0#8 ≠ ch 'x' by decide, show 0#8 ≠ ch 'X' by decide]
      | cons d m => rfl
    simp only [List.cons_append, scanHex2, ih, hhead, hexPair, hx]

/-- The loop test is made at the position where the scan starts. -/
theorem scanSeed_derefs (m : List Byte) (s : Nat) (r : SeedScan) :
    ∃ l, (scanSeed m s r).derefs = r.derefs ++ s :: l := by
  induction m, s, r using scanSeed_induction with
  | nil s r => exact ⟨[], rfl⟩
  | stop c m s r h => exact ⟨[], by rw [scanSeed_stop h]⟩
  | hyphen m s r h ih =>
    obtain ⟨l, hl⟩ := ih
    exact ⟨(s + 1) :: l, by rw [scanSeed_hyphen h, hl, List.append_assoc, List.singleton_append]⟩
  | refused c m s r hgo hc hv => exact ⟨[], by rw [scanSeed_refused hgo hc hv]⟩
  | cell c m s r v hgo hc hv ih =>
    obtain ⟨l, hl⟩ := ih
    exact ⟨(s + 2) :: l, by
      rw [scanSeed_cell hgo hc hv, hl, List.append_assoc, List.singleton_append]⟩

/-- No byte is stored behind the end of the array. -/
theorem scanSeed_length (m : List Byte) (s : Nat) (r : SeedScan) (hn : r.b.length ≤ 16) :
    (scanSeed m s r).b.length ≤ 16 := by
  induction m, s, r using scanSeed_induction with
  | nil s r => exact hn
  | stop c m s r h => rwa [scanSeed_stop h]
  | hyphen m s r h ih =>
    rw [scanSeed_hyphen h]
    exact ih hn
  | refused c m s r hgo hc hv => rwa [scanSeed_refused hgo hc hv]
  | cell c m s r v hgo hc hv ih =>
    rw [scanSeed_cell hgo hc hv]
    apply ih
    simp only [List.length_append, List.length_singleton]
    omega

/-- Every access so far lies at or before `e`. -/
def SeedScan.Within (r : SeedScan) (e : Nat) : Prop := ∀ p ∈ r.derefs ++ r.scans, p ≤ e

private theorem within_deref {r : SeedScan} {e s : Nat} (h : r.Within e) (hs : s ≤ e) :
    SeedScan.Within { r with derefs := r.derefs ++ [s] } e := by
  intro p hp
  simp only [List.mem_append, List.mem_singleton] at hp
  rcases hp with (hp | rfl) | hp
  · exact h p (List.mem_append_left _ hp)
  · exact hs
  · exact h p (List.mem_append_right _ hp)

private theorem within_scan {r : SeedScan} {e s : Nat} (h : r.Within e) (hs : s ≤ e) :
    SeedScan.Within { r with scans := r.scans ++ [s] } e := by
  intro p hp
  simp only [List.mem_append, List.mem_singleton] at hp
  rcases hp with hp | hp | rfl
  · exact h p (List.mem_append_left _ hp)
  · exact h p (List.mem_append_right _ hp)
  · exact hs

private theorem not_within_of_lt {m : List Byte} {s e : Nat} {r : SeedScan} (h : e < s) :
    ¬(scanSeed m s r).Within e := by
  intro hin
  obtain ⟨l, hl⟩ := scanSeed_derefs m s r
  have hle := hin s (by simp [hl])
  omega

/-- From any point of the scan, the terminator is stepped over exactly in the texts of
`Overruns`. -/
theorem scanSeed_within_iff (m after : List Byte) (hm : ∀ c ∈ m, c ≠ 0#8) (s : Nat) (r : SeedScan)
    (hn : r.b.length ≤ 16) (hr : r.Within (s + m.length)) :
    (scanSeed (m ++ 0#8 :: after) s r).Within (s + m.length) ↔ ¬Overruns (16 - r.b.length) m := by
  induction hlen : m.length using Nat.strongRecOn generalizing m s r with
  | _ len ih =>
    subst hlen
    have hderef := within_deref hr (Nat.le_add_right s m.length)
    rcases Nat.eq_or_lt_of_le hn with hfull | hmore
    · rw [scanSeed_full hfull.ge, hfull]
      exact ⟨fun _ => not_overruns_zero m, fun _ => hderef⟩
    obtain ⟨n, hmiss⟩ : ∃ n, 16 - r.b.length = n + 1 := ⟨15 - r.b.length, by omega⟩
    rw [hmiss]
    cases m with
    | nil =>
      rw [List.nil_append, scanSeed_stop (Or.inl rfl)]
      refine ⟨fun _ h => ?_, fun _ => hderef⟩
      cases h
    | cons c m =>
      rw [overruns_succ_iff, List.cons_append]
      have hgo : ¬(c = 0#8 ∨ 16 ≤ r.b.length) := by
        rintro (h | h)
        · exact hm c (List.mem_cons_self ..) h
        · omega
      by_cases hhyphen : c = ch '-'
      · subst hhyphen
        have hend : s + (ch '-' :: m).length = s + 1 + m.length := by
          rw [List.length_cons]
          omega
        rw [hend] at hderef ⊢
        rw [scanSeed_hyphen (by omega), ih m.length (by simp) m
          (fun c hc => hm c (List.mem_cons_of_mem _ hc)) (s + 1)
          { r with derefs := r.derefs ++ [s] } hn hderef rfl]
        simp [hmiss]
      have hscan := within_scan hderef (Nat.le_add_right s (c :: m).length)
      have hv' : scanHex2 (c :: (m ++ 0#8 :: after)) = scanHex2 (c :: m) :=
        scanHex2_terminator (c :: m) after
      rw [← scanHex2_isSome_iff]
      cases hv : scanHex2 (c :: m) with
      | none =>
        rw [scanSeed_refused hgo hhyphen (hv'.trans hv)]
        refine ⟨fun _ h => ?_, fun _ => hscan⟩
        rcases h with ⟨h, _⟩ | ⟨_, h, _⟩
        · exact hhyphen h
        · exact Bool.noConfusion h
      | some v =>
        rw [scanSeed_cell hgo hhyphen (hv'.trans hv)]
        cases m with
        | nil =>
          have hpast : s + [c].length < s + 2 := by
            rw [List.length_singleton]
            omega
          exact iff_of_false (not_within_of_lt hpast)
            (not_not_intro (Or.inr ⟨hhyphen, rfl, Or.inl rfl⟩))
        | cons d m =>
          have hend : s + (c :: d :: m).length = s + 2 + m.length := by
            simp only [List.length_cons]
            omega
          have hshort : m.length < (c :: d :: m).length := by
            simp only [List.length_cons]
            omega
          rw [hend] at hscan ⊢
          rw [List.cons_append, List.tail_cons, ih m.length hshort m
            (fun c hc => hm c (List.mem_cons_of_mem _ (List.mem_cons_of_mem _ hc))) (s + 2)
            { r with
              b := r.b ++ [v.setWidth 8], derefs := r.derefs ++ [s], scans := r.scans ++ [s] }
            (by simp only [List.length_append, List.length_singleton]; omega) hscan rfl,
            List.length_append, List.length_singleton, show 16 - (r.b.length + 1) = n by omega]
          simp [hhyphen]

/-- The scan stays inside the value and the array exactly when the value does not end in a
single digit where a cell of two characters is expected. -/
theorem scanSeed_inside_iff (v : EnvValue) :
    ((∀ p ∈ (scanSeed v.mem 0 ⟨[], false, [], []⟩).derefs ++
        (scanSeed v.mem 0 ⟨[], false, [], []⟩).scans, p ≤ v.value.length) ∧
      (scanSeed v.mem 0 ⟨[], false, [], []⟩).b.length ≤ 16) ↔ ¬Overruns 16 v.value := by
  have hscan := scanSeed_within_iff v.value v.after v.nul_free 0 ⟨[], false, [], []⟩
    (Nat.zero_le 16) (by intro p hp; cases hp)
  rw [Nat.zero_add, List.length_nil, Nat.sub_zero] at hscan
  rw [← hscan, and_iff_left (scanSeed_length _ _ _ (by decide))]
  rfl

/-- A value of one digit makes the loop test the byte behind the terminator. -/
theorem scanSeed_steps_over_terminator :
    ∃ v : EnvValue, v.value = [ch 'a'] ∧ 2 ∈ (scanSeed v.mem 0 ⟨[], false, [], []⟩).derefs ∧
      ¬((∀ p ∈ (scanSeed v.mem 0 ⟨[], false, [], []⟩).derefs ++
          (scanSeed v.mem 0 ⟨[], false, [], []⟩).scans, p ≤ v.value.length) ∧
        (scanSeed v.mem 0 ⟨[], false, [], []⟩).b.length ≤ 16) := by
  refine ⟨⟨[ch 'a'], by decide, []⟩, rfl, by decide, ?_⟩
  rintro ⟨h, _⟩
  exact absurd (h 2 (by decide)) (by decide)

end WirenBoard.DirOrder
