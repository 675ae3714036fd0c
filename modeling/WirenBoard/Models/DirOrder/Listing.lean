import WirenBoard.Core.Sort
import WirenBoard.Models.DirOrder.Dirhash
import WirenBoard.Models.DirOrder.Seed

/-!
# Building the sorted listing of a directory

`getListing` reads the real stream to its end, hashes each entry, decides from
the summed record lengths whether `.` and `..` are ranked before the rest, and
sorts. The allocator, `qsort` and the real stream belong to the C library: the
allocator is any that refuses requests above the largest object size, `qsort` is
any sorter for `cmpEntry`, and a real stream returns its pending entries and then
NULL, setting `errno` when the end is a failure.
-/

namespace WirenBoard.DirOrder

/-- A directory entry. On the targets `struct dirent` and `struct dirent64` have
this one layout, so that both real functions return it. -/
structure Dirent where
  /-- `d_ino`. -/
  ino : BitVec 64
  /-- `d_off`. -/
  off : BitVec 64
  /-- `d_reclen`. -/
  reclen : BitVec 16
  /-- `d_type`. -/
  type : BitVec 8
  /-- The name in `d_name`. -/
  name : Name
  /-- The rest of `d_name` behind the terminator. -/
  slack : List Byte
  deriving DecidableEq

/-- The character array `d_name`. -/
def Dirent.dName (d : Dirent) : List Byte := d.name.bytes ++ 0#8 :: d.slack

/-- `struct entry`. -/
structure Entry where
  /-- The major hash. -/
  major : Word
  /-- The minor hash. -/
  minor : Word
  /-- The rank of `.` and `..` in an indexed directory. -/
  dot : Int
  /-- The copied directory entry. -/
  u : Dirent
  deriving DecidableEq

/-- `cmp_entry`: larger rank first, then smaller major, then smaller minor hash. -/
def cmpEntry (x y : Entry) : Int :=
  if x.dot ≠ y.dot then if x.dot > y.dot then -1 else 1
  else if x.major ≠ y.major then if x.major < y.major then -1 else 1
  else if x.minor ≠ y.minor then if x.minor < y.minor then -1 else 1
  else 0

/-- `errno`, as far as a call leaves it changed. -/
abbrev Errno := Option Nat

/-- `ENOMEM`. -/
def enomem : Nat := 12

/-- The allocator during one call. -/
structure Heap where
  /-- Whether `calloc(1, sizeof(struct listing))` succeeds. -/
  calloc : Bool
  /-- Whether `realloc` to this many bytes succeeds. -/
  realloc : Nat → Bool
  /-- No object is larger than the largest pointer difference. -/
  bounded : ∀ size, realloc size = true → size < 2 ^ 63

/-- `sizeof(struct entry)` on the targets. -/
def sizeofEntry : Nat := 296

/-- The `size_t` request for one more entry than `n`. -/
def entryRequest (n : Nat) : Nat := (n + 1) * sizeofEntry % 2 ^ 64

/-- A directory stream of the C library. -/
structure RealStream where
  /-- The directory's entries in the filesystem's order. -/
  entries : List Dirent
  /-- What the stream has still to return. -/
  pending : List Dirent
  /-- How the stream ends: normally, or with this `errno`. -/
  err : Errno
  /-- What the real `closedir` returns for it. -/
  ret : Int
  deriving DecidableEq

/-- `real_readdir` and `real_readdir64`, which agree on one layout. -/
def RealStream.readdir (s : RealStream) : Option Dirent × Errno × RealStream :=
  match s.pending with
  | [] => (none, s.err, s)
  | d :: pending => (some d, none, { s with pending })

/-- `struct listing`; `n` is the number of entries. -/
structure Listing where
  /-- The stream's address. -/
  dir : Nat
  /-- Which function built it. -/
  is64 : Bool
  /-- The position of the next entry to return. -/
  pos : Nat
  /-- The sorted entries. -/
  e : List Entry

/-- A fresh entry before any rank is given. -/
def newEntry (seed : Chain) (d : Dirent) : Entry :=
  let r := dirhash seed d.dName
  ⟨r.major, r.minor, 0, d⟩

/-- The reading loop over the real stream's pending entries. It stops at NULL or
when an entry cannot be stored, and then that entry is lost. -/
def readEntries (heap : Heap) (seed : Chain) (err : Errno) :
    List Dirent → List Entry → List Entry × List Dirent × Errno
  | [], es => (es, [], err)
  | d :: pending, es =>
    if heap.realloc (entryRequest es.length) then
      readEntries heap seed err pending (es ++ [newEntry seed d])
    else (es, pending, some enomem)

/-- `(8 + strlen(name) + 3) & ~3U` in `size_t`. -/
def recordLength (name : List Byte) : BitVec 64 :=
  BitVec.ofNat 64 (8 + strlen name + 3) &&& 0xfffffffc#64

/-- `total` after its loop. -/
def totalLength (es : List Entry) : BitVec 64 :=
  es.foldl (fun total e => total + recordLength e.u.dName) 0#64

/-- `!strcmp(a, b)`. -/
def strEq (a b : List Byte) : Bool := a.takeWhile (· ≠ 0#8) = b.takeWhile (· ≠ 0#8)

/-- The rank of a name in an indexed directory. -/
def dotRank (name : List Byte) : Int :=
  if strEq name [ch '.', 0#8] then 2 else if strEq name [ch '.', ch '.', 0#8] then 1 else 0

/-- `total > block_size - (csum ? 12 : 0)`, with the subtraction in `unsigned`. -/
def indexed (g : Globals) (es : List Entry) : Bool :=
  totalLength es > (g.blockSize - if g.csum ≠ 0#32 then 12#32 else 0#32).setWidth 64

/-- The ranks are written only when the directory does not fit one block. -/
def rankEntries (g : Globals) (es : List Entry) : List Entry :=
  if indexed g es then es.map fun e => { e with dot := dotRank e.u.dName } else es

/-- The part of `get_listing` behind its search: the listing, if its block could be
allocated, the stream it leaves and the `errno` it leaves. -/
def buildListing (heap : Heap) (g : Globals) (qsort : Sorter cmpEntry) (dir : Nat) (is64 : Bool)
    (s : RealStream) : Option Listing × RealStream × Errno :=
  if heap.calloc then
    let (es, pending, err) := readEntries heap g.seed s.err s.pending []
    (some ⟨dir, is64, 0, qsort.sort (rankEntries g es)⟩, { s with pending }, err)
  else (none, s, some enomem)

/-- The search of `get_listing`. -/
def findListing (listings : List Listing) (dir : Nat) : Option Listing :=
  listings.find? fun l => l.dir = dir

/-- `get_listing`: the listing found or built, the list of listings with a new one
in front, the stream and the `errno` it leaves. -/
def getListing (heap : Heap) (g : Globals) (qsort : Sorter cmpEntry) (dir : Nat) (is64 : Bool)
    (s : RealStream) (listings : List Listing) :
    Option Listing × List Listing × RealStream × Errno :=
  match findListing listings dir with
  | some l => (some l, listings, s, none)
  | none =>
    match buildListing heap g qsort dir is64 s with
    | (some l, s, err) => (some l, l :: listings, s, err)
    | (none, s, err) => (none, listings, s, err)

/-! ## The comparator -/

/-- The comparator does not put `x` behind `y`. -/
theorem cmpEntry_nonpos_iff (x y : Entry) :
    cmpEntry x y ≤ 0 ↔ y.dot < x.dot ∨ x.dot = y.dot ∧
      (x.major < y.major ∨ x.major = y.major ∧ x.minor ≤ y.minor) := by
  unfold cmpEntry
  split_ifs <;> simp_all <;> bv_omega

/-- The comparator ties entries exactly when all three keys agree. -/
theorem cmpEntry_eq_zero_iff (x y : Entry) :
    cmpEntry x y = 0 ↔ x.dot = y.dot ∧ x.major = y.major ∧ x.minor = y.minor := by
  unfold cmpEntry
  split_ifs <;> simp_all

/-- Entries that compare below each other tie. -/
theorem cmpEntry_eq_zero_of_le {x y : Entry} (hxy : cmpEntry x y ≤ 0) (hyx : cmpEntry y x ≤ 0) :
    cmpEntry x y = 0 := by
  rw [cmpEntry_eq_zero_iff]
  simp only [cmpEntry_nonpos_iff, BitVec.lt_def, BitVec.le_def, ← BitVec.toNat_inj] at *
  omega

/-- The comparator is transitive. -/
theorem cmpEntry_trans (x y z : Entry) (hxy : cmpEntry x y ≤ 0) (hyz : cmpEntry y z ≤ 0) :
    cmpEntry x z ≤ 0 := by
  simp only [cmpEntry_nonpos_iff, BitVec.lt_def, BitVec.le_def, ← BitVec.toNat_inj] at *
  omega

/-- The comparator compares any two entries. -/
theorem cmpEntry_total (x y : Entry) : cmpEntry x y ≤ 0 ∨ cmpEntry y x ≤ 0 := by
  simp only [cmpEntry_nonpos_iff, BitVec.lt_def, BitVec.le_def, ← BitVec.toNat_inj]
  omega

/-- The merge sort of the C library, which keeps tied entries in input order. -/
def glibcQsort : StableSorter cmpEntry := mergeSorter cmpEntry_trans cmpEntry_total

end WirenBoard.DirOrder
