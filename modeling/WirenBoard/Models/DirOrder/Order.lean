import WirenBoard.Models.DirOrder.Listing
import Mathlib.Algebra.Order.BigOperators.Group.List

/-!
# The order of a listing

With every allocation succeeding, the built listing is the sorted image of the
directory under one key per entry: a rank, which only an indexed directory gives
to `.` and `..`, and the two hash words. The summed record lengths are compared
with the block in exact arithmetic, because an array of that many entries fits
the address space.
-/

namespace WirenBoard.DirOrder

/-! ## Reading the whole stream -/

/-- Every request of a call that stores `n` entries succeeds. -/
def Heap.Succeeds (heap : Heap) (n : Nat) : Prop :=
  heap.calloc = true ∧ ∀ k, k < n → heap.realloc (entryRequest k) = true

/-- An array that was allocated entry by entry fits the address space. -/
theorem Heap.Succeeds.fits {heap : Heap} {n : Nat} (h : heap.Succeeds n) :
    n * sizeofEntry < 2 ^ 63 := by
  induction n with
  | zero => simp
  | succ n ih =>
    have hprev : n * sizeofEntry < 2 ^ 63 := ih ⟨h.1, fun k hk => h.2 k (by omega)⟩
    have hreq := heap.bounded _ (h.2 n (Nat.lt_succ_self n))
    have hsize : sizeofEntry < 2 ^ 63 := by decide
    have hlt : (n + 1) * sizeofEntry < 2 ^ 64 := by
      rw [Nat.succ_mul]
      omega
    rw [entryRequest, Nat.mod_eq_of_lt hlt] at hreq
    exact hreq

/-- With every request granted the loop stores each pending entry, in order. -/
theorem readEntries_eq {heap : Heap} (seed : Chain) (err : Errno) (ds : List Dirent) :
    ∀ es : List Entry, (∀ k, k < es.length + ds.length → heap.realloc (entryRequest k) = true) →
      readEntries heap seed err ds es = (es ++ ds.map (newEntry seed), [], err) := by
  induction ds with
  | nil =>
    intro es _
    rw [readEntries, List.map_nil, List.append_nil]
  | cons d ds ih =>
    intro es h
    rw [readEntries, if_pos (h es.length (by simp)), ih]
    · rw [List.map_cons, List.append_assoc, List.singleton_append]
    · intro k hk
      apply h k
      simpa [Nat.add_assoc, Nat.add_comm 1] using hk

/-! ## The block test in exact arithmetic -/

/-- The record length of an entry: eight bytes and the name, rounded up to four. -/
def recordBytes (d : Dirent) : Nat := (8 + d.name.bytes.length + 3) / 4 * 4

/-- The summed record lengths of a directory. -/
def directoryBytes (ds : List Dirent) : Nat := (ds.map recordBytes).sum

/-- The directory fits one block, less the checksum tail. -/
def OneBlock (g : Globals) (ds : List Dirent) : Prop :=
  directoryBytes ds ≤ g.blockSize.toNat - if g.csum ≠ 0#32 then 12 else 0

instance (g : Globals) (ds : List Dirent) : Decidable (OneBlock g ds) :=
  inferInstanceAs (Decidable (_ ≤ _))

private theorem recordBytes_le (d : Dirent) : recordBytes d ≤ sizeofEntry := by
  have := d.name.length_le
  unfold recordBytes sizeofEntry
  omega

private theorem directoryBytes_le (ds : List Dirent) :
    directoryBytes ds ≤ ds.length * sizeofEntry := by
  have h := List.sum_le_card_nsmul (ds.map recordBytes) sizeofEntry
    (by simpa using fun d _ => recordBytes_le d)
  simpa [directoryBytes] using h

/-- The masked `size_t` expression rounds the record length up. -/
theorem recordLength_eq (d : Dirent) : recordLength d.dName = BitVec.ofNat 64 (recordBytes d) := by
  have hall : ∀ n : Fin 256, BitVec.ofNat 64 (8 + n.val + 3) &&& 0xfffffffc#64 =
      BitVec.ofNat 64 ((8 + n.val + 3) / 4 * 4) := by decide +kernel
  rw [recordLength, Dirent.dName, strlen_append_nul d.name.nul_free, recordBytes]
  exact hall ⟨d.name.bytes.length, Nat.lt_succ_of_le d.name.length_le⟩

/-- The sum of record lengths is computed modulo the width of the counter. -/
theorem foldl_recordLength (seed : Chain) (ds : List Dirent) (acc : BitVec 64) :
    (ds.map (newEntry seed)).foldl (fun total e => total + recordLength e.u.dName) acc =
      acc + BitVec.ofNat 64 (directoryBytes ds) := by
  induction ds generalizing acc with
  | nil => simp [directoryBytes]
  | cons d ds ih =>
    rw [List.map_cons, List.foldl_cons, ih, show (newEntry seed d).u = d from rfl,
      recordLength_eq, BitVec.add_assoc, ← BitVec.ofNat_add]
    simp [directoryBytes]

/-- The source's unsigned comparison decides whether the directory fits one block. -/
theorem indexed_eq {g : Globals} (hblock : 1024 ≤ g.blockSize.toNat) {ds : List Dirent}
    (hfit : ds.length * sizeofEntry < 2 ^ 63) (seed : Chain) :
    indexed g (ds.map (newEntry seed)) = decide (¬OneBlock g ds) := by
  have hsum := directoryBytes_le ds
  have htotal : (totalLength (ds.map (newEntry seed))).toNat = directoryBytes ds := by
    rw [totalLength, foldl_recordLength, BitVec.zero_add, BitVec.toNat_ofNat,
      Nat.mod_eq_of_lt (by omega)]
  have hroom : ((g.blockSize - if g.csum ≠ 0#32 then 12#32 else 0#32).setWidth 64).toNat =
      g.blockSize.toNat - if g.csum ≠ 0#32 then 12 else 0 := by
    have hlt := g.blockSize.isLt
    split <;> simp only [BitVec.toNat_setWidth, BitVec.toNat_sub, BitVec.toNat_ofNat] <;> omega
  have hiff : totalLength (ds.map (newEntry seed)) >
      (g.blockSize - if g.csum ≠ 0#32 then 12#32 else 0#32).setWidth 64 ↔ ¬OneBlock g ds := by
    rw [gt_iff_lt, BitVec.lt_def, hroom, htotal, OneBlock, not_le]
  exact decide_eq_decide.mpr hiff

/-! ## The key of an entry -/

/-- The name `.`. -/
def isDot (d : Dirent) : Bool := d.name.bytes = [ch '.']

/-- The name `..`. -/
def isDotDot (d : Dirent) : Bool := d.name.bytes = [ch '.', ch '.']

/-- The rank the listing of a directory gives to an entry. -/
def rank (g : Globals) (ds : List Dirent) (d : Dirent) : Int :=
  if indexed g (ds.map (newEntry g.seed)) then
    if isDot d then 2 else if isDotDot d then 1 else 0
  else 0

/-- The entry stored for `d` in the listing of the directory `ds`. -/
def rankedEntry (g : Globals) (ds : List Dirent) (d : Dirent) : Entry :=
  { newEntry g.seed d with dot := rank g ds d }

private theorem dotRank_dName (d : Dirent) :
    dotRank d.dName = if isDot d then 2 else if isDotDot d then 1 else 0 := by
  have hname : d.dName.takeWhile (· ≠ 0#8) = d.name.bytes := by
    rw [Dirent.dName, List.takeWhile_append_of_pos (by simpa using d.name.nul_free)]
    simp
  have hdot : [ch '.', 0#8].takeWhile (· ≠ 0#8) = [ch '.'] := by decide
  have hdotdot : [ch '.', ch '.', 0#8].takeWhile (· ≠ 0#8) = [ch '.', ch '.'] := by decide
  simp only [dotRank, strEq, hname, hdot, hdotdot, isDot, isDotDot]
  rfl

/-- All entries are stored with their keys. -/
theorem rankEntries_eq (g : Globals) (ds : List Dirent) :
    rankEntries g (ds.map (newEntry g.seed)) = ds.map (rankedEntry g ds) := by
  rw [rankEntries]
  cases h : indexed g (ds.map (newEntry g.seed)) with
  | false =>
    rw [if_neg Bool.false_ne_true]
    apply List.map_congr_left
    intro d _
    simp only [rankedEntry, rank, h, Bool.false_eq_true, ite_false]
    rfl
  | true =>
    rw [if_pos rfl, List.map_map]
    apply List.map_congr_left
    intro d _
    simp only [rankedEntry, rank, h, ite_true, Function.comp_apply]
    rw [show (newEntry g.seed d).u = d from rfl, dotRank_dName]

/-- The directory's entries in the order of its listing. -/
def sortedListing (g : Globals) (qsort : Sorter cmpEntry) (ds : List Dirent) : List Dirent :=
  (qsort.sort (ds.map (rankedEntry g ds))).map Entry.u

/-- A new listing holds exactly the sorted listing of the entries that were stored. -/
theorem buildListing_of_read {heap : Heap} (g : Globals) (qsort : Sorter cmpEntry) (dir : Nat)
    (is64 : Bool) {s : RealStream} (hcalloc : heap.calloc = true) {ds rest : List Dirent}
    {err : Errno}
    (hread : readEntries heap g.seed s.err s.pending [] = (ds.map (newEntry g.seed), rest, err)) :
    buildListing heap g qsort dir is64 s =
      (some ⟨dir, is64, 0, qsort.sort (ds.map (rankedEntry g ds))⟩,
        { s with pending := rest }, err) := by
  rw [buildListing, if_pos hcalloc, hread]
  simp only [rankEntries_eq]

/-- With every request granted these are the stream's pending entries. -/
theorem buildListing_eq {heap : Heap} (g : Globals) (qsort : Sorter cmpEntry) (dir : Nat)
    (is64 : Bool) {s : RealStream} (halloc : heap.Succeeds s.pending.length) :
    buildListing heap g qsort dir is64 s =
      (some ⟨dir, is64, 0, qsort.sort (s.pending.map (rankedEntry g s.pending))⟩,
        { s with pending := [] }, s.err) :=
  buildListing_of_read g qsort dir is64 halloc.1
    (readEntries_eq _ _ _ [] (by simpa using halloc.2))

section Sorted

variable (g : Globals) (qsort : Sorter cmpEntry) (ds : List Dirent)

/-- No entry is lost, duplicated or altered. -/
theorem sortedListing_perm : (sortedListing g qsort ds).Perm ds := by
  have h := (qsort.perm (ds.map (rankedEntry g ds))).map Entry.u
  rwa [List.map_map, show Entry.u ∘ rankedEntry g ds = id from rfl, List.map_id] at h

/-- The listing is sorted by the keys of its own directory. -/
theorem sortedListing_pairwise : (sortedListing g qsort ds).Pairwise fun x y =>
    cmpEntry (rankedEntry g ds x) (rankedEntry g ds y) ≤ 0 := by
  have hkey : ∀ e ∈ qsort.sort (ds.map (rankedEntry g ds)), rankedEntry g ds e.u = e := by
    intro e he
    obtain ⟨d, _, rfl⟩ := List.mem_map.mp ((qsort.perm _).mem_iff.mp he)
    rfl
  rw [sortedListing, List.pairwise_map]
  apply (qsort.sorted _).imp_of_mem
  intro x y hx hy hxy
  rwa [hkey x hx, hkey y hy]

end Sorted

/-- The lexicographic order of (major, minor). -/
def HashLe (seed : Chain) (x y : Dirent) : Prop :=
  let hx := dirhash seed x.dName
  let hy := dirhash seed y.dName
  hx.major < hy.major ∨ hx.major = hy.major ∧ hx.minor ≤ hy.minor

private theorem hashLe_of_cmpEntry {g : Globals} {ds : List Dirent} {x y : Dirent}
    (hrank : rank g ds x = rank g ds y)
    (h : cmpEntry (rankedEntry g ds x) (rankedEntry g ds y) ≤ 0) : HashLe g.seed x y := by
  rw [cmpEntry_nonpos_iff] at h
  rcases h with h | ⟨_, h⟩
  · exact absurd h (by simp only [rankedEntry, hrank, lt_irrefl, not_false_eq_true])
  · exact h

/-! ## The two regimes -/

/-- A predicate that holds of one name only selects at most one entry, so that the
selection does not depend on the arrangement. -/
theorem filter_eq_of_perm {p : Dirent → Bool} {ds ds' : List Dirent} (hp : ds'.Perm ds)
    (hnames : (ds.map Dirent.name).Nodup)
    (hone : ∀ x y, p x = true → p y = true → x.name = y.name) : ds'.filter p = ds.filter p := by
  have hperm := hp.filter p
  have hnodup : ((ds.filter p).map Dirent.name).Nodup :=
    hnames.sublist ((List.filter_sublist).map Dirent.name)
  have hmem : ∀ d ∈ ds.filter p, p d = true := fun d hd => (List.mem_filter.mp hd).2
  cases hsel : ds.filter p with
  | nil => rwa [hsel, List.perm_nil] at hperm
  | cons x xs =>
    cases xs with
    | nil => rwa [hsel, List.perm_singleton] at hperm
    | cons y ys =>
      rw [hsel] at hnodup hmem
      have hxy := hone x y (hmem x (by simp)) (hmem y (by simp))
      simp [hxy] at hnodup

private theorem name_eq_of_bytes {x y : Dirent} {b : List Byte} (hx : x.name.bytes = b)
    (hy : y.name.bytes = b) : x.name = y.name := by
  cases hn : x.name
  cases hm : y.name
  simp_all

private theorem rank_mono {g : Globals} {ds : List Dirent} {x y : Dirent}
    (h : cmpEntry (rankedEntry g ds x) (rankedEntry g ds y) ≤ 0) : rank g ds y ≤ rank g ds x := by
  rw [cmpEntry_nonpos_iff] at h
  rcases h with h | ⟨h, _⟩
  · exact h.le
  · exact h.ge

private theorem not_isDot_of_isDotDot {d : Dirent} (h : isDotDot d = true) : isDot d = false := by
  simp only [isDotDot, isDot, decide_eq_true_eq, decide_eq_false_iff_not] at h ⊢
  rw [h]
  decide

section Regimes

variable {g : Globals} {qsort : Sorter cmpEntry} {ds : List Dirent}

/-- A directory that is not indexed is listed by its hashes alone. -/
theorem sortedListing_of_not_indexed (h : indexed g (ds.map (newEntry g.seed)) = false) :
    (sortedListing g qsort ds).Pairwise (HashLe g.seed) := by
  apply (sortedListing_pairwise g qsort ds).imp
  intro x y hxy
  apply hashLe_of_cmpEntry _ hxy
  simp only [rank, h, Bool.false_eq_true, ite_false]

private theorem rank_of_indexed (h : indexed g (ds.map (newEntry g.seed)) = true) (d : Dirent) :
    rank g ds d = if isDot d then 2 else if isDotDot d then 1 else 0 := by
  simp only [rank, h, ite_true]

private theorem isDot_leads (h : indexed g (ds.map (newEntry g.seed)) = true) {out : List Dirent}
    (hsorted : out.Pairwise fun x y => cmpEntry (rankedEntry g ds x) (rankedEntry g ds y) ≤ 0) :
    out.Pairwise fun x y => isDot y = true → isDot x = true := by
  apply hsorted.imp
  intro x y hxy hy
  have hle := rank_mono hxy
  rw [rank_of_indexed h, rank_of_indexed h, hy] at hle
  by_contra hx
  rw [Bool.not_eq_true] at hx
  cases hxd : isDotDot x <;> simp [hx, hxd] at hle

private theorem isDotDot_leads (h : indexed g (ds.map (newEntry g.seed)) = true)
    {out : List Dirent}
    (hsorted : out.Pairwise fun x y => cmpEntry (rankedEntry g ds x) (rankedEntry g ds y) ≤ 0) :
    (out.filter fun d => !isDot d).Pairwise fun x y => isDotDot y = true → isDotDot x = true := by
  apply (hsorted.filter _).imp_of_mem
  intro x y hx hy hxy hyd
  have hxn : isDot x = false := by simpa using (List.mem_filter.mp hx).2
  have hyn : isDot y = false := by simpa using (List.mem_filter.mp hy).2
  have hle := rank_mono hxy
  rw [rank_of_indexed h, rank_of_indexed h, hyd, hxn, hyn] at hle
  by_contra hx'
  rw [Bool.not_eq_true] at hx'
  rw [hx'] at hle
  simp at hle

/-- In an indexed directory `.` and `..` lead, and the others follow by their hashes. -/
theorem sortedListing_of_indexed (h : indexed g (ds.map (newEntry g.seed)) = true)
    (hnames : (ds.map Dirent.name).Nodup) :
    ∃ rest, sortedListing g qsort ds = ds.filter isDot ++ ds.filter isDotDot ++ rest ∧
      (∀ d ∈ rest, isDot d = false ∧ isDotDot d = false) ∧ rest.Pairwise (HashLe g.seed) := by
  have hperm := sortedListing_perm g qsort ds
  have hsorted := sortedListing_pairwise g qsort ds
  generalize sortedListing g qsort ds = out at hperm hsorted
  have hdot := isDot_leads h hsorted
  have hdotdot := isDotDot_leads h hsorted
  have hmiddle : (out.filter fun d => !isDot d).filter isDotDot = out.filter isDotDot := by
    rw [List.filter_filter]
    apply List.filter_congr
    intro d _
    cases hd : isDotDot d with
    | false => simp
    | true => simp [not_isDot_of_isDotDot hd]
  refine ⟨(out.filter fun d => !isDot d).filter fun d => !isDotDot d, ?_, ?_, ?_⟩
  · have hfirst : out.filter isDot = ds.filter isDot := filter_eq_of_perm hperm hnames
      fun x y hx hy => name_eq_of_bytes (of_decide_eq_true hx) (of_decide_eq_true hy)
    have hsecond : out.filter isDotDot = ds.filter isDotDot := filter_eq_of_perm hperm hnames
      fun x y hx hy => name_eq_of_bytes (of_decide_eq_true hx) (of_decide_eq_true hy)
    rw [← hfirst, ← hsecond, ← hmiddle, List.append_assoc, ← eq_filter_append_filter hdotdot]
    exact eq_filter_append_filter hdot
  · intro d hd
    obtain ⟨hd', hdd⟩ := List.mem_filter.mp hd
    exact ⟨by simpa using (List.mem_filter.mp hd').2, by simpa using hdd⟩
  · apply ((hsorted.filter _).filter _).imp_of_mem
    intro x y hx hy hxy
    have hflag : ∀ d ∈ (out.filter fun d => !isDot d).filter (fun d => !isDotDot d),
        rank g ds d = 0 := by
      intro d hd
      obtain ⟨hd', hdd⟩ := List.mem_filter.mp hd
      have hdn := (List.mem_filter.mp hd').2
      rw [Bool.not_eq_true'] at hdd hdn
      rw [rank_of_indexed h, hdd, hdn]
      rfl
    exact hashLe_of_cmpEntry ((hflag x hx).trans (hflag y hy).symm) hxy

end Regimes

/-- For every directory of uniquely named entries, in whatever order the real
functions return them, a new listing holds exactly these entries: by their hashes
alone when the directory fits one block, and otherwise with `.` first, `..` second
and the others behind them by their hashes. -/
theorem getListing_order {g : Globals} (hblock : 1024 ≤ g.blockSize.toNat) {heap : Heap}
    (qsort : Sorter cmpEntry) (dir : Nat) (is64 : Bool) {listings : List Listing}
    (hnew : findListing listings dir = none) {ds : List Dirent}
    (hnames : (ds.map Dirent.name).Nodup) (halloc : heap.Succeeds ds.length)
    (err : Errno) (ret : Int) :
    ∃ l, getListing heap g qsort dir is64 ⟨ds, ds, err, ret⟩ listings =
        (some l, l :: listings, ⟨ds, [], err, ret⟩, err) ∧
      l.dir = dir ∧ l.pos = 0 ∧ (l.e.map Entry.u).Perm ds ∧
      (OneBlock g ds → (l.e.map Entry.u).Pairwise (HashLe g.seed)) ∧
      (¬OneBlock g ds → ∃ rest,
        l.e.map Entry.u = ds.filter isDot ++ ds.filter isDotDot ++ rest ∧
        (∀ d ∈ rest, isDot d = false ∧ isDotDot d = false) ∧ rest.Pairwise (HashLe g.seed)) := by
  have hindexed := indexed_eq hblock halloc.fits g.seed
  refine ⟨⟨dir, is64, 0, qsort.sort (ds.map (rankedEntry g ds))⟩, ?_, rfl, rfl,
    sortedListing_perm g qsort ds, ?_, ?_⟩
  · rw [getListing, hnew, buildListing_eq g qsort dir is64 halloc]
  · intro hone
    apply sortedListing_of_not_indexed
    rw [hindexed, decide_eq_false_iff_not, not_not]
    exact hone
  · intro hmany
    exact sortedListing_of_indexed (by rw [hindexed]; exact decide_eq_true hmany) hnames

/-- An allocator that refuses only what no allocator can grant. -/
def Heap.granting : Heap := ⟨true, fun size => size < 2 ^ 63, fun _ h => of_decide_eq_true h⟩

/-- Such an allocator has the memory for every array that fits the address space. -/
theorem Heap.granting_succeeds {n : Nat} (h : n * sizeofEntry < 2 ^ 63) :
    Heap.granting.Succeeds n := by
  refine ⟨rfl, fun k hk => ?_⟩
  have hle : (k + 1) * sizeofEntry ≤ n * sizeofEntry := Nat.mul_le_mul_right _ hk
  apply decide_eq_true
  rw [entryRequest, Nat.mod_eq_of_lt (by omega)]
  omega

/-- A regular file of this name. -/
def Dirent.ofName (name : Name) : Dirent := ⟨1#64, 0#64, 24#16, 8#8, name, []⟩

/-- A directory that holds one file. -/
def oneFile : List Dirent :=
  [.ofName ⟨[ch 'a'], by decide, by decide, by decide⟩,
   .ofName ⟨[ch '.', ch '.'], by decide, by decide, by decide⟩,
   .ofName ⟨[ch '.'], by decide, by decide, by decide⟩]

/-- A directory that fits one block. -/
theorem getListing_order_oneFile :
    (∃ l, getListing Heap.granting Globals.initial glibcQsort.toSorter 1 true
        ⟨oneFile, oneFile, none, 0⟩ [] = (some l, [l], ⟨oneFile, [], none, 0⟩, none) ∧
      (l.e.map Entry.u).Perm oneFile ∧
      (l.e.map Entry.u).Pairwise (HashLe Globals.initial.seed)) := by
  obtain ⟨l, hl, _, _, hperm, hone, _⟩ := getListing_order (g := Globals.initial) (by decide)
    glibcQsort.toSorter 1 true (show findListing [] 1 = none from rfl)
    (show (oneFile.map Dirent.name).Nodup by decide)
    (Heap.granting_succeeds (by decide)) none 0
  exact ⟨l, hl, hperm, hone (by decide)⟩

end WirenBoard.DirOrder
