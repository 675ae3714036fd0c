import Mathlib.Data.BitVec

/-!
# The half-MD4 compression of `ext4_dir_order.c`

`halfMd4Transform` is the source's 24 unrolled macro steps over four chaining
words and eight input words. `halfMd4` is the same compression driven by three
tables of word indices and shifts. Both are computed modulo `2^32`, and the
unrolled form adds the table form to the chaining words.
-/

namespace WirenBoard.DirOrder

/-- The source's `uint32_t`. -/
abbrev Word := BitVec 32

/-- The source's `char`, read as `signed char` only inside `str2hashbuf`. -/
abbrev Byte := BitVec 8

/-- The four chaining words `buf[0..3]`, also the shape of the loaded seed. -/
structure Chain where
  /-- `buf[0]`. -/
  a : Word
  /-- `buf[1]`, the word that becomes the major hash. -/
  b : Word
  /-- `buf[2]`, the word that becomes the minor hash. -/
  c : Word
  /-- `buf[3]`. -/
  d : Word
  deriving DecidableEq, Repr

/-- Word-wise addition modulo `2^32`. -/
def Chain.add (x y : Chain) : Chain := ⟨x.a + y.a, x.b + y.b, x.c + y.c, x.d + y.d⟩

/-! ## The macros -/

/-- `ROL32`: the two shifts of the macro joined by `|`. -/
def rol32 (x : Word) (s : Nat) : Word := (x <<< s) ||| (x >>> (32 - s))

/-- The selection function of the first round. -/
def F (x y z : Word) : Word := z ^^^ (x &&& (y ^^^ z))

/-- The majority function of the second round. -/
def G (x y z : Word) : Word := (x &&& y) + ((x ^^^ y) &&& z)

/-- The parity function of the third round. -/
def H (x y z : Word) : Word := x ^^^ y ^^^ z

/-- `ROUND(f, a, b, c, d, x, s)`: the new value of the updated register `a`. -/
def round (f : Word → Word → Word → Word) (a b c d x : Word) (s : Nat) : Word :=
  rol32 (a + (f b c d + x)) s

/-- The second round's constant, in the source's octal. -/
def K2 : Word := 0o13240474631#32

/-- The third round's constant, in the source's octal. -/
def K3 : Word := 0o15666365641#32

/-! ## The unrolled transform -/

/-- `half_md4_transform`: the source's three groups of eight steps, then the
four additions into the chaining words. -/
def halfMd4Transform (buf : Chain) (inp : Nat → Word) : Chain :=
  let a := buf.a
  let b := buf.b
  let c := buf.c
  let d := buf.d
  let a := round F a b c d (inp 0) 3
  let d := round F d a b c (inp 1) 7
  let c := round F c d a b (inp 2) 11
  let b := round F b c d a (inp 3) 19
  let a := round F a b c d (inp 4) 3
  let d := round F d a b c (inp 5) 7
  let c := round F c d a b (inp 6) 11
  let b := round F b c d a (inp 7) 19
  let a := round G a b c d (inp 1 + K2) 3
  let d := round G d a b c (inp 3 + K2) 5
  let c := round G c d a b (inp 5 + K2) 9
  let b := round G b c d a (inp 7 + K2) 13
  let a := round G a b c d (inp 0 + K2) 3
  let d := round G d a b c (inp 2 + K2) 5
  let c := round G c d a b (inp 4 + K2) 9
  let b := round G b c d a (inp 6 + K2) 13
  let a := round H a b c d (inp 3 + K3) 3
  let d := round H d a b c (inp 7 + K3) 9
  let c := round H c d a b (inp 2 + K3) 11
  let b := round H b c d a (inp 6 + K3) 15
  let a := round H a b c d (inp 1 + K3) 3
  let d := round H d a b c (inp 5 + K3) 9
  let c := round H c d a b (inp 0 + K3) 11
  let b := round H b c d a (inp 4 + K3) 15
  ⟨buf.a + a, buf.b + b, buf.c + c, buf.d + d⟩

/-! ## The table-driven form -/

/-- One step of the table form: the first register is replaced, and the four
registers are rotated so that the next step replaces the former last one. -/
def tableStep (f : Word → Word → Word → Word) (k : Word) (w : Nat → Word)
    (h : Chain) (step : Nat × Nat) : Chain :=
  ⟨h.d, rol32 (h.a + (f h.b h.c h.d + (w step.1 + k))) step.2, h.b, h.c⟩

/-- One round: its function, its constant, the order of its words and its shifts. -/
def tableRound (f : Word → Word → Word → Word) (k : Word) (words shifts : List Nat)
    (w : Nat → Word) (h : Chain) : Chain :=
  (words.zip (shifts ++ shifts)).foldl (tableStep f k w) h

/-- The compression as three table-driven rounds. -/
def halfMd4 (h : Chain) (w : Nat → Word) : Chain :=
  tableRound H K3 [3, 7, 2, 6, 1, 5, 0, 4] [3, 9, 11, 15] w
    (tableRound G K2 [1, 3, 5, 7, 0, 2, 4, 6] [3, 5, 9, 13] w
      (tableRound F 0#32 [0, 1, 2, 3, 4, 5, 6, 7] [3, 7, 11, 19] w h))

private theorem tableStep_eq_round (f : Word → Word → Word → Word) (k : Word) (w : Nat → Word)
    (a b c d : Word) (i s : Nat) :
    tableStep f k w ⟨a, b, c, d⟩ (i, s) = ⟨d, round f a b c d (w i + k) s, b, c⟩ := rfl

/-- The unrolled steps add exactly the table-driven compression to the chain. -/
theorem halfMd4Transform_eq (h : Chain) (w : Nat → Word) :
    halfMd4Transform h w = h.add (halfMd4 h w) := by
  obtain ⟨a, b, c, d⟩ := h
  simp only [halfMd4, tableRound, List.cons_append, List.nil_append, List.zip_cons_cons,
    List.zip_nil_left, List.foldl_cons, List.foldl_nil, tableStep_eq_round, BitVec.add_zero]
  rfl

end WirenBoard.DirOrder
