import WirenBoard.Models.DirOrder.HalfMd4
import Mathlib.Data.List.Basic
import Mathlib.Tactic.Tauto

/-!
# Loading the seed from the environment

`loadSeed` is the source's hand-written scan of `EXT4_DIR_HASH_SEED`. A value is
the bytes before its terminator; the scan can step over the terminator, so the
bytes behind it belong to the input. Reads behind the modelled memory see NUL.
The scan's state keeps the positions it dereferences and the positions it passes
to `sscanf`. `Cells` describes the texts the scan takes for a seed by a grammar
of its own, and `UuidText` the texts that write sixteen bytes as a UUID does.
-/

namespace WirenBoard.DirOrder

/-- The byte of an ASCII character. -/
def ch (c : Char) : Byte := BitVec.ofNat 8 c.toNat

/-- `isspace` of the C locale. -/
def isSpace (c : Byte) : Bool := c = ch ' ' || (0x09#8 ≤ c && c ≤ 0x0d#8)

/-- The value of a hexadecimal digit of either letter case. -/
def hexDigit (c : Byte) : Option Nat :=
  if ch '0' ≤ c ∧ c ≤ ch '9' then some (c.toNat - 48)
  else if ch 'a' ≤ c ∧ c ≤ ch 'f' then some (c.toNat - 87)
  else if ch 'A' ≤ c ∧ c ≤ ch 'F' then some (c.toNat - 55)
  else none

/-- One or two digits. The characters `0x` are a prefix of a longer number and no
number themselves, so they do not match. -/
def hexPair (c : Byte) (m : List Byte) : Option Word :=
  (hexDigit c).bind fun x =>
    if c = ch '0' ∧ (m.head? = some (ch 'x') ∨ m.head? = some (ch 'X')) then none
    else match m.head?.bind hexDigit with
      | some y => some (BitVec.ofNat 32 (16 * x + y))
      | none => some (BitVec.ofNat 32 x)

/-- `sscanf(s, "%2x", &v)` on the memory at `s`: white space is skipped, then at
most two characters are converted, a sign being one of them. -/
def scanHex2 : List Byte → Option Word
  | [] => none
  | c :: m =>
    if isSpace c then scanHex2 m
    else if c = ch '+' then (m.head?.bind hexDigit).map fun x => BitVec.ofNat 32 x
    else if c = ch '-' then (m.head?.bind hexDigit).map fun x => -BitVec.ofNat 32 x
    else hexPair c m

/-- `atoi`: white space, a sign and decimal digits, saturating as `strtol` does. -/
def atoi (s : List Byte) : Word :=
  let s := s.dropWhile isSpace
  let neg := s.head? = some (ch '-')
  let s := if neg ∨ s.head? = some (ch '+') then s.tail else s
  let digits := s.takeWhile fun c => ch '0' ≤ c && c ≤ ch '9'
  let n : Int := digits.foldl (fun n c => 10 * n + (c.toNat - 48 : Nat)) 0
  BitVec.ofInt 32 (max (-2 ^ 63) (min (2 ^ 63 - 1) (if neg then -n else n)))

/-! ## The globals -/

/-- The static variables that `load_seed` writes. -/
structure Globals where
  /-- Whether a seed was loaded. -/
  haveSeed : Bool
  /-- The seed words. -/
  seed : Chain
  /-- `unsigned block_size`. -/
  blockSize : Word
  /-- `int csum`, tested against zero only. -/
  csum : Word
  deriving DecidableEq, Repr

/-- The initial values of the static variables. -/
def Globals.initial : Globals := ⟨false, ⟨0#32, 0#32, 0#32, 0#32⟩, 4096#32, 1#32⟩

/-- The value of an environment variable in memory. -/
structure EnvValue where
  /-- The bytes before the terminator. -/
  value : List Byte
  /-- No byte ends the value early. -/
  nul_free : ∀ b ∈ value, b ≠ 0#8
  /-- What stands in memory behind the terminator. -/
  after : List Byte

/-- The memory from the first byte of a value on. -/
def EnvValue.mem (v : EnvValue) : List Byte := v.value ++ 0#8 :: v.after

/-- What `getenv` returns for the three variables. -/
structure Env where
  /-- `EXT4_DIR_HASH_SEED`. -/
  hashSeed : Option EnvValue
  /-- `EXT4_DIR_BLOCK_SIZE`. -/
  blockSize : Option EnvValue
  /-- `EXT4_DIR_CSUM`. -/
  csum : Option EnvValue

/-! ## The scan -/

/-- The scan's variables and accesses. -/
structure SeedScan where
  /-- The bytes stored to `b[0], b[1], ...`; `n` is their number. -/
  b : List Byte
  /-- Whether `sscanf` refused a field, which makes `load_seed` return at once. -/
  refused : Bool
  /-- Positions dereferenced by the loop. -/
  derefs : List Nat
  /-- Positions passed to `sscanf`. -/
  scans : List Nat
  deriving DecidableEq

/-- The `for` loop on the memory at `s`. The increment of the loop and the one in
its body together step over two characters for a converted field. -/
def scanSeed : List Byte → Nat → SeedScan → SeedScan
  | [], s, r => { r with derefs := r.derefs ++ [s] }
  | c :: m, s, r =>
    let r := { r with derefs := r.derefs ++ [s] }
    if c = 0#8 ∨ 16 ≤ r.b.length then r
    else if c = ch '-' then scanSeed m (s + 1) r
    else
      let r := { r with scans := r.scans ++ [s] }
      match scanHex2 (c :: m), m with
      | none, _ => { r with refused := true }
      | some v, [] => scanSeed [] (s + 2) { r with b := r.b ++ [v.setWidth 8] }
      | some v, _ :: m => scanSeed m (s + 2) { r with b := r.b ++ [v.setWidth 8] }

/-- `b[4i] | b[4i+1] << 8 | b[4i+2] << 16 | (uint32_t)b[4i+3] << 24`. -/
def seedWord (b : List Byte) (i : Nat) : Word :=
  (b.getD (4 * i) 0#8).setWidth 32 ||| ((b.getD (4 * i + 1) 0#8).setWidth 32 <<< 8) |||
    ((b.getD (4 * i + 2) 0#8).setWidth 32 <<< 16) ||| ((b.getD (4 * i + 3) 0#8).setWidth 32 <<< 24)

/-- A numeric variable replaces the current setting only when it is set and not empty. -/
def numericOr (v : Option EnvValue) (current : Word) : Word :=
  match v with
  | none => current
  | some v => if v.value = [] then current else atoi v.value

/-- `load_seed` on the current globals. -/
def loadSeed (env : Env) (g : Globals) : Globals :=
  match env.hashSeed with
  | none => g
  | some s =>
    if s.value = [] then g
    else
      let r := scanSeed s.mem 0 ⟨[], false, [], []⟩
      if r.refused ∨ r.b.length ≠ 16 then g
      else
        { haveSeed := true
          seed := ⟨seedWord r.b 0, seedWord r.b 1, seedWord r.b 2, seedWord r.b 3⟩
          blockSize := numericOr env.blockSize g.blockSize
          csum := numericOr env.csum g.csum }

/-! ## The texts the scan accepts -/

/-- A field that `%2x` converts. -/
inductive HexField : List Byte → Prop where
  /-- Leading white space of any length. -/
  | space {c : Byte} {m : List Byte} : isSpace c = true → HexField m → HexField (c :: m)
  /-- A sign and one digit. -/
  | signed {c d : Byte} {m : List Byte} : c = ch '+' ∨ c = ch '-' → (hexDigit d).isSome →
      HexField (c :: d :: m)
  /-- One digit, alone or with a second one behind it. -/
  | digit {c : Byte} {m : List Byte} : (hexDigit c).isSome →
      ¬(c = ch '0' ∧ (m.head? = some (ch 'x') ∨ m.head? = some (ch 'X'))) → HexField (c :: m)

/-- Memory that starts with `n` cells of two characters, hyphens standing
anywhere before a cell. The second character of a cell may be anything. -/
inductive Cells : Nat → List Byte → Prop where
  /-- Nothing behind the last cell is looked at. -/
  | done {m : List Byte} : Cells 0 m
  /-- A skipped hyphen. -/
  | hyphen {n : Nat} {m : List Byte} : Cells n m → Cells n (ch '-' :: m)
  /-- A cell: a convertible field starts here, and two characters are skipped. -/
  | cell {n : Nat} {c : Byte} {m : List Byte} : c ≠ 0#8 → c ≠ ch '-' → HexField (c :: m) →
      Cells n m.tail → Cells (n + 1) (c :: m)

/-- A text that writes `b` as two hexadecimal digits a byte, hyphens standing
before, between or after bytes. -/
inductive UuidText : List Byte → List Byte → Prop where
  /-- No byte is left. -/
  | nil : UuidText [] []
  /-- A hyphen. -/
  | hyphen {t b : List Byte} : UuidText t b → UuidText (ch '-' :: t) b
  /-- One byte. -/
  | byte {h l : Byte} {x y : Nat} {t b : List Byte} : hexDigit h = some x → hexDigit l = some y →
      UuidText t b → UuidText (h :: l :: t) (BitVec.ofNat 8 (16 * x + y) :: b)

/-- The text of a 16-byte UUID. -/
def IsUuid (v : List Byte) : Prop := ∃ b, b.length = 16 ∧ UuidText v b

/-! ## The scan and the grammar agree -/

/-- What is checked for 256 numbers holds of every byte. -/
theorem forall_byte {p : Byte → Prop} (h : ∀ n : Fin 256, p (BitVec.ofFin n)) (c : Byte) :
    p c := h c.toFin

/-- A digit is no white space, no sign and no terminator. -/
theorem hexDigit_class (c : Byte) (h : (hexDigit c).isSome) :
    isSpace c = false ∧ c ≠ ch '+' ∧ c ≠ ch '-' ∧ c ≠ 0#8 := by
  revert h
  exact forall_byte (p := fun c => (hexDigit c).isSome →
    isSpace c = false ∧ c ≠ ch '+' ∧ c ≠ ch '-' ∧ c ≠ 0#8) (by decide +kernel) c

private theorem hexField_sign_iff {c : Byte} {m : List Byte} (hspace : ¬isSpace c = true)
    (hsign : c = ch '+' ∨ c = ch '-') :
    HexField (c :: m) ↔ (m.head?.bind hexDigit).isSome := by
  constructor
  · intro h
    cases h with
    | space h _ => exact absurd h hspace
    | signed _ hd => exact hd
    | digit hc _ =>
      have hclass := hexDigit_class c hc
      exact absurd hsign (by tauto)
  · intro h
    cases m with
    | nil => simp at h
    | cons d m => exact HexField.signed hsign h

private theorem hexField_digit_iff {c : Byte} {m : List Byte} (hspace : ¬isSpace c = true)
    (hsign : ¬(c = ch '+' ∨ c = ch '-')) :
    HexField (c :: m) ↔ (hexDigit c).isSome ∧
      ¬(c = ch '0' ∧ (m.head? = some (ch 'x') ∨ m.head? = some (ch 'X'))) := by
  constructor
  · intro h
    cases h with
    | space h _ => exact absurd h hspace
    | signed h _ => exact absurd h hsign
    | digit hc hx => exact ⟨hc, hx⟩
  · rintro ⟨hc, hx⟩
    exact HexField.digit hc hx

/-- The conversion succeeds exactly on the fields of the grammar. -/
theorem scanHex2_isSome_iff (m : List Byte) : (scanHex2 m).isSome ↔ HexField m := by
  induction m with
  | nil =>
    constructor
    · intro h
      simp [scanHex2] at h
    · intro h
      cases h
  | cons c m ih =>
    rw [scanHex2]
    by_cases hspace : isSpace c = true
    · rw [if_pos hspace, ih]
      constructor
      · exact HexField.space hspace
      · intro h
        cases h with
        | space _ h => exact h
        | signed hc _ => rcases hc with rfl | rfl <;> exact absurd hspace (by decide)
        | digit hc _ => exact absurd hspace (by simp [(hexDigit_class c hc).1])
    · rw [if_neg hspace]
      by_cases hsign : c = ch '+' ∨ c = ch '-'
      · have hdigit := hexField_sign_iff (m := m) hspace hsign
        rcases hsign with rfl | rfl
        · rw [if_pos rfl, Option.isSome_map, hdigit]
        · rw [if_neg (by decide), if_pos rfl, Option.isSome_map, hdigit]
      · obtain ⟨hplus, hminus⟩ := not_or.mp hsign
        rw [if_neg hplus, if_neg hminus]
        rw [hexField_digit_iff hspace hsign, hexPair]
        cases hexDigit c with
        | none => simp
        | some x =>
          by_cases hx : c = ch '0' ∧ (m.head? = some (ch 'x') ∨ m.head? = some (ch 'X'))
          · simp [hx]
          · rw [Option.bind_some, if_neg hx]
            refine ⟨fun _ => ⟨rfl, hx⟩, fun _ => ?_⟩
            split <;> rfl

/-- The scan neither met a refused field nor ran out of fields. -/
def SeedScan.Accepted (r : SeedScan) : Prop := r.refused = false ∧ r.b.length = 16

/-- The loop stops at the terminator or with sixteen bytes. -/
theorem scanSeed_stop {c : Byte} {m : List Byte} {s : Nat} {r : SeedScan}
    (h : c = 0#8 ∨ 16 ≤ r.b.length) :
    scanSeed (c :: m) s r = { r with derefs := r.derefs ++ [s] } := by
  simp only [scanSeed, h, ite_true]

/-- The loop steps over a hyphen. -/
theorem scanSeed_hyphen {m : List Byte} {s : Nat} {r : SeedScan}
    (h : ¬16 ≤ r.b.length) :
    scanSeed (ch '-' :: m) s r = scanSeed m (s + 1) { r with derefs := r.derefs ++ [s] } := by
  rw [scanSeed]
  simp only [h, or_false, show ¬ch '-' = 0#8 by decide, ite_false, ite_true]

/-- The loop gives up where `sscanf` converts nothing. -/
theorem scanSeed_refused {c : Byte} {m : List Byte} {s : Nat} {r : SeedScan}
    (h : ¬(c = 0#8 ∨ 16 ≤ r.b.length)) (hc : c ≠ ch '-') (hv : scanHex2 (c :: m) = none) :
    scanSeed (c :: m) s r =
      { r with refused := true, derefs := r.derefs ++ [s], scans := r.scans ++ [s] } := by
  simp only [scanSeed, h, ite_false, hc, hv]

/-- The loop stores what `sscanf` converts and steps over two characters. -/
theorem scanSeed_cell {c : Byte} {m : List Byte} {s : Nat} {r : SeedScan} {v : Word}
    (h : ¬(c = 0#8 ∨ 16 ≤ r.b.length)) (hc : c ≠ ch '-') (hv : scanHex2 (c :: m) = some v) :
    scanSeed (c :: m) s r = scanSeed m.tail (s + 2) { r with
      b := r.b ++ [v.setWidth 8], derefs := r.derefs ++ [s], scans := r.scans ++ [s] } := by
  cases m <;> simp only [scanSeed, h, ite_false, hc, hv, List.tail_nil, List.tail_cons]

/-- Induction along the scan: one case for each way an iteration can go. -/
theorem scanSeed_induction {P : List Byte → Nat → SeedScan → Prop}
    (nil : ∀ s r, P [] s r)
    (stop : ∀ c m s r, c = 0#8 ∨ 16 ≤ r.b.length → P (c :: m) s r)
    (hyphen : ∀ m s r, ¬16 ≤ r.b.length → P m (s + 1) { r with derefs := r.derefs ++ [s] } →
      P (ch '-' :: m) s r)
    (refused : ∀ c m s r, ¬(c = 0#8 ∨ 16 ≤ r.b.length) → c ≠ ch '-' →
      scanHex2 (c :: m) = none → P (c :: m) s r)
    (cell : ∀ c m s r v, ¬(c = 0#8 ∨ 16 ≤ r.b.length) → c ≠ ch '-' →
      scanHex2 (c :: m) = some v →
      P m.tail (s + 2) { r with
        b := r.b ++ [v.setWidth 8], derefs := r.derefs ++ [s], scans := r.scans ++ [s] } →
      P (c :: m) s r)
    (m : List Byte) (s : Nat) (r : SeedScan) : P m s r := by
  induction hlen : m.length using Nat.strongRecOn generalizing m s r with
  | _ len ih =>
    subst hlen
    cases m with
    | nil => exact nil s r
    | cons c m =>
      by_cases hstop : c = 0#8 ∨ 16 ≤ r.b.length
      · exact stop c m s r hstop
      by_cases hhyphen : c = ch '-'
      · subst hhyphen
        exact hyphen m s r (fun h => hstop (Or.inr h)) (ih m.length (by simp) m _ _ rfl)
      cases hv : scanHex2 (c :: m) with
      | none => exact refused c m s r hstop hhyphen hv
      | some v =>
        have htail : m.tail.length < (c :: m).length := by
          rw [List.length_tail, List.length_cons]
          omega
        exact cell c m s r v hstop hhyphen hv (ih _ htail m.tail _ _ rfl)

private theorem cells_succ_iff {n : Nat} {c : Byte} {m : List Byte} :
    Cells (n + 1) (c :: m) ↔ (c = ch '-' ∧ Cells (n + 1) m) ∨
      (c ≠ 0#8 ∧ c ≠ ch '-' ∧ HexField (c :: m) ∧ Cells n m.tail) := by
  constructor
  · intro h
    cases h with
    | hyphen h => exact Or.inl ⟨rfl, h⟩
    | cell h0 hh hf h => exact Or.inr ⟨h0, hh, hf, h⟩
  · rintro (⟨rfl, h⟩ | ⟨h0, hh, hf, h⟩)
    · exact Cells.hyphen h
    · exact Cells.cell h0 hh hf h

private theorem accepted_of_end {m : List Byte} {s : Nat} {r : SeedScan} (hr : r.refused = false)
    (hn : r.b.length ≤ 16) (heq : scanSeed m s r = { r with derefs := r.derefs ++ [s] })
    (hend : (∀ n, ¬Cells (n + 1) m) ∨ 16 ≤ r.b.length) :
    (scanSeed m s r).Accepted ↔ Cells (16 - r.b.length) m := by
  rw [heq]
  rcases Nat.eq_or_lt_of_le hn with hfull | hmore
  · rw [hfull]
    exact ⟨fun _ => Cells.done, fun _ => ⟨hr, hfull⟩⟩
  · have hcells := hend.resolve_right (by omega) (15 - r.b.length)
    rw [show 15 - r.b.length + 1 = 16 - r.b.length by omega] at hcells
    exact ⟨fun h => absurd h.2 (Nat.ne_of_lt hmore), fun h => absurd h hcells⟩

/-- From any point of the scan, acceptance is a question of the missing cells. -/
theorem scanSeed_accepted_iff (m : List Byte) (s : Nat) (r : SeedScan)
    (hr : r.refused = false) (hn : r.b.length ≤ 16) :
    (scanSeed m s r).Accepted ↔ Cells (16 - r.b.length) m := by
  induction m, s, r using scanSeed_induction with
  | nil s r =>
    refine accepted_of_end hr hn rfl (Or.inl fun n h => ?_)
    cases h
  | stop c m s r h =>
    refine accepted_of_end hr hn (scanSeed_stop h) (h.imp ?_ id)
    rintro rfl n hcells
    rcases cells_succ_iff.mp hcells with ⟨h, _⟩ | ⟨h, _⟩
    · exact absurd h (by decide)
    · exact h rfl
  | hyphen m s r h ih =>
    obtain ⟨n, hmiss⟩ : ∃ n, 16 - r.b.length = n + 1 := ⟨15 - r.b.length, by omega⟩
    have hrest : (scanSeed m (s + 1) { r with derefs := r.derefs ++ [s] }).Accepted ↔
        Cells (16 - r.b.length) m := ih hr hn
    rw [scanSeed_hyphen h, hrest, hmiss, cells_succ_iff]
    simp
  | refused c m s r hgo hc hv =>
    obtain ⟨n, hmiss⟩ : ∃ n, 16 - r.b.length = n + 1 := ⟨15 - r.b.length, by omega⟩
    rw [scanSeed_refused hgo hc hv, hmiss, cells_succ_iff, ← scanHex2_isSome_iff, hv]
    constructor
    · rintro ⟨h, _⟩
      exact Bool.noConfusion h
    · rintro (⟨h, _⟩ | ⟨_, _, h, _⟩)
      · exact absurd h hc
      · exact absurd h (by decide)
  | cell c m s r v hgo hc hv ih =>
    obtain ⟨hnul, hmore⟩ := not_or.mp hgo
    obtain ⟨n, hmiss⟩ : ∃ n, 16 - r.b.length = n + 1 := ⟨15 - r.b.length, by omega⟩
    have hrest : (scanSeed m.tail (s + 2) { r with
        b := r.b ++ [v.setWidth 8], derefs := r.derefs ++ [s],
        scans := r.scans ++ [s] }).Accepted ↔ Cells (16 - (r.b ++ [v.setWidth 8]).length) m.tail :=
      ih hr (by simp only [List.length_append, List.length_singleton]; omega)
    rw [scanSeed_cell hgo hc hv, hrest, hmiss, cells_succ_iff, ← scanHex2_isSome_iff, hv]
    simp only [List.length_append, List.length_singleton, hc, hnul, false_and, ne_eq,
      not_false_eq_true, Option.isSome_some, true_and, false_or]
    rw [show 16 - (r.b.length + 1) = n by omega]

/-- A seed is loaded exactly from a nonempty value that starts with sixteen cells. -/
theorem loadSeed_haveSeed_iff (env : Env) (v : EnvValue) (henv : env.hashSeed = some v) :
    (loadSeed env Globals.initial).haveSeed = true ↔ Cells 16 v.mem := by
  have hscan := scanSeed_accepted_iff v.mem 0 ⟨[], false, [], []⟩ rfl (by simp)
  simp only [SeedScan.Accepted, List.length_nil, Nat.sub_zero] at hscan
  rw [← hscan, loadSeed, henv]
  by_cases hempty : v.value = []
  · have hstop : (scanSeed v.mem 0 ⟨[], false, [], []⟩).b = [] := by
      rw [EnvValue.mem, hempty, List.nil_append, scanSeed_stop (Or.inl rfl)]
    simp [hempty, hstop, Globals.initial]
  · simp only [hempty, ite_false]
    split
    · rename_i h
      simp only [Globals.initial, Bool.false_eq_true, false_iff]
      rintro ⟨h1, h2⟩
      simp [h1, h2] at h
    · rename_i h
      simp only [true_iff]
      simpa [not_or] using h

/-- Refusing the value leaves all four variables alone. -/
theorem loadSeed_eq_of_not_haveSeed {env : Env} {g : Globals}
    (h : (loadSeed env g).haveSeed = false) : loadSeed env g = g := by
  revert h
  unfold loadSeed
  cases env.hashSeed with
  | none => exact fun _ => rfl
  | some v =>
    dsimp only
    split
    · exact fun _ => rfl
    · split
      · exact fun _ => rfl
      · exact fun h => Bool.noConfusion h

end WirenBoard.DirOrder
