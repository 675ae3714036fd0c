import WirenBoard.Models.DirOrder.Replies

/-!
# Entries that the comparator does not separate

The key of an entry does not depend on the arrangement of its directory, because
the summed record lengths do not. Two arrangements of one directory are therefore
listed alike when the keys separate its entries, and a tied pair is listed in the
filesystem's order. Ties exist under every seed: a full chunk has no room for the
length, so that its last bytes can spell out the padding of a shorter name.
-/

namespace WirenBoard.DirOrder

/-! ## Rearranged directories -/

section Arrangements

variable {g : Globals} {ds ds' : List Dirent}

private theorem directoryBytes_perm (h : ds.Perm ds') : directoryBytes ds = directoryBytes ds' :=
  (h.map recordBytes).sum_eq

/-- Whether a directory is indexed does not depend on its arrangement. -/
theorem indexed_perm (seed : Chain) (h : ds.Perm ds') :
    indexed g (ds.map (newEntry seed)) = indexed g (ds'.map (newEntry seed)) := by
  simp only [indexed, totalLength, foldl_recordLength, directoryBytes_perm h]

/-- The stored keys do not depend on the arrangement. -/
theorem rankedEntry_perm (h : ds.Perm ds') : rankedEntry g ds = rankedEntry g ds' := by
  funext d
  simp only [rankedEntry, rank, indexed_perm g.seed h]

/-- No two entries of the directory have the same rank and the same hash. -/
def Separated (g : Globals) (ds : List Dirent) : Prop :=
  ∀ x ∈ ds, ∀ y ∈ ds, rank g ds x = rank g ds y →
    (dirhash g.seed x.dName).major = (dirhash g.seed y.dName).major →
    (dirhash g.seed x.dName).minor = (dirhash g.seed y.dName).minor → x = y

instance (g : Globals) (ds : List Dirent) : Decidable (Separated g ds) :=
  inferInstanceAs (Decidable (∀ x ∈ ds, ∀ y ∈ ds, _ → _ → _ → _))

private theorem cmpEntry_rankedEntry_eq_zero_iff (x y : Dirent) :
    cmpEntry (rankedEntry g ds x) (rankedEntry g ds y) = 0 ↔ rank g ds x = rank g ds y ∧
      (dirhash g.seed x.dName).major = (dirhash g.seed y.dName).major ∧
      (dirhash g.seed x.dName).minor = (dirhash g.seed y.dName).minor :=
  cmpEntry_eq_zero_iff _ _

/-- Separated entries are listed alike from every arrangement. -/
theorem sortedListing_perm_eq (qsort : Sorter cmpEntry) (hsep : Separated g ds)
    (h : ds.Perm ds') : sortedListing g qsort ds = sortedListing g qsort ds' := by
  rw [sortedListing, sortedListing, ← rankedEntry_perm h]
  congr 1
  apply qsort.sort_eq_of_perm (h.map _)
  intro e he e' he' hle hge
  obtain ⟨x, hx, rfl⟩ := List.mem_map.mp he
  obtain ⟨y, hy, rfl⟩ := List.mem_map.mp he'
  obtain ⟨hrank, hmajor, hminor⟩ := (cmpEntry_rankedEntry_eq_zero_iff x y).mp
    (cmpEntry_eq_zero_of_le hle hge)
  rw [hsep x hx y hy hrank hmajor hminor]

/-- A tied pair in front is listed in the order in which it came. -/
theorem sortedListing_swap_ne (qsort : StableSorter cmpEntry) {x y : Dirent}
    (hnames : ((x :: y :: ds).map Dirent.name).Nodup)
    (htie : cmpEntry (rankedEntry g (x :: y :: ds) x) (rankedEntry g (x :: y :: ds) y) = 0) :
    (sortedListing g qsort.toSorter (x :: y :: ds)).map Dirent.name ≠
      (sortedListing g qsort.toSorter (y :: x :: ds)).map Dirent.name := by
  rw [sortedListing, sortedListing, ← rankedEntry_perm (List.Perm.swap y x ds), List.map_map,
    List.map_map]
  have hback : cmpEntry (rankedEntry g (x :: y :: ds) y) (rankedEntry g (x :: y :: ds) x) = 0 := by
    rw [cmpEntry_eq_zero_iff] at htie ⊢
    exact ⟨htie.1.symm, htie.2.1.symm, htie.2.2.symm⟩
  apply qsort.map_sort_swap_ne (Dirent.name ∘ Entry.u) htie hback
  rw [← List.map_cons, ← List.map_cons, List.map_map]
  exact hnames

end Arrangements

/-! ## What a program sees -/

/-- The names a program sees that opens a directory in a fresh process and asks for
entries until NULL. -/
def listedNames (env : Env) (qsort : Sorter cmpEntry) (t dir : Nat) (is64 : Bool) (heap : Heap)
    (err : Errno) (ret : Int) (ds : List Dirent) : Option (List (Option Name)) :=
  (run (System.step env qsort) System.initial
    (session t dir ds err ret (List.replicate (ds.length + 1) (.readdir is64 heap)))).map
      fun p => (returned p.2).map (Option.map Dirent.name)

section Listed

variable {env : Env} {heap : Heap} {ds : List Dirent}

/-- The program sees the names of the sorted listing and then NULL. -/
theorem listedNames_eq (hseed : (loadSeed env Globals.initial).haveSeed = true)
    (qsort : Sorter cmpEntry) (t dir : Nat) (is64 : Bool) (err : Errno) (ret : Int)
    (halloc : heap.Succeeds ds.length) :
    listedNames env qsort t dir is64 heap err ret ds =
      some (((sortedListing (loadSeed env Globals.initial) qsort ds).map Dirent.name).map some ++
        [none]) := by
  have hgrant : Granted (session t dir ds err ret
      (List.replicate (ds.length + 1) (.readdir is64 heap))) := by
    apply granted_session
    intro is64' heap' hmem
    obtain ⟨-, rfl⟩ : is64' = is64 ∧ heap' = heap := by
      simpa using List.eq_of_mem_replicate hmem
    exact halloc
  obtain ⟨sys, rs, _, hrun, _, _, hreturned⟩ :=
    run_session hseed (run_nil (System.step env qsort) System.initial) rfl rfl hgrant
  have hlength := (sortedListing_perm (loadSeed env Globals.initial) qsort ds).length_eq
  generalize sortedListing (loadSeed env Globals.initial) qsort ds = out at hreturned hlength ⊢
  rw [listedNames, hrun, Option.map_some, hreturned,
    show (List.replicate (ds.length + 1) (Call.readdir is64 heap)).countP Call.reads =
      ds.length + 1 by simp [List.countP_replicate, Call.reads], ← hlength]
  congr 1
  apply List.ext_getElem?
  intro k
  rcases Nat.lt_trichotomy k out.length with hk | rfl | hk
  · simp [hk, Nat.lt_succ_of_lt hk]
  · simp
  · rw [List.getElem?_eq_none (by simp; omega), List.getElem?_eq_none (by simp; omega)]

/-- The names a program sees do not depend on the arrangement in which the filesystem
lists the directory exactly when no two of its entries have the same rank and hash. -/
theorem listedNames_independent_iff (hseed : (loadSeed env Globals.initial).haveSeed = true)
    (qsort : StableSorter cmpEntry) (t dir : Nat) (is64 : Bool) (err : Errno) (ret : Int)
    (hnames : (ds.map Dirent.name).Nodup) (halloc : heap.Succeeds ds.length) :
    (∀ ds₁ ds₂ : List Dirent, ds₁.Perm ds → ds₂.Perm ds →
      listedNames env qsort.toSorter t dir is64 heap err ret ds₁ =
        listedNames env qsort.toSorter t dir is64 heap err ret ds₂) ↔
      Separated (loadSeed env Globals.initial) ds := by
  constructor
  · intro hall x hx y hy hrank hmajor hminor
    by_contra hne
    have hmem : y ∈ ds.erase x := (List.mem_erase_of_ne (Ne.symm hne)).mpr hy
    have hperm : ds.Perm (x :: y :: (ds.erase x).erase y) :=
      (List.perm_cons_erase hx).trans ((List.perm_cons_erase hmem).cons x)
    have hswap := hperm.trans (List.Perm.swap y x _)
    have hlisted := hall _ _ hperm.symm hswap.symm
    rw [listedNames_eq hseed _ t dir is64 err ret (hperm.length_eq ▸ halloc),
      listedNames_eq hseed _ t dir is64 err ret (hswap.length_eq ▸ halloc)] at hlisted
    refine sortedListing_swap_ne qsort ((hperm.map Dirent.name).nodup_iff.mp hnames) ?_
      (List.map_injective_iff.mpr (Option.some_injective _)
        (List.append_cancel_right (Option.some.inj hlisted)))
    rw [← rankedEntry_perm hperm]
    exact (cmpEntry_rankedEntry_eq_zero_iff x y).mpr ⟨hrank, hmajor, hminor⟩
  · intro hsep ds₁ ds₂ h₁ h₂
    rw [listedNames_eq hseed _ t dir is64 err ret (h₁.length_eq ▸ halloc),
      listedNames_eq hseed _ t dir is64 err ret (h₂.length_eq ▸ halloc),
      ← sortedListing_perm_eq _ hsep h₁.symm, ← sortedListing_perm_eq _ hsep h₂.symm]

end Listed

/-- A directory whose hashes differ is listed alike from both ends. -/
theorem listedNames_independent_iff_oneFile :
    listedNames seededEnv glibcQsort.toSorter 0 7 true Heap.granting none 0 oneFile =
      listedNames seededEnv glibcQsort.toSorter 0 7 true Heap.granting none 0 oneFile.reverse :=
  (listedNames_independent_iff seededEnv_haveSeed glibcQsort 0 7 true none 0 (by decide)
    (Heap.granting_succeeds (by decide))).mpr (by decide +kernel) oneFile oneFile.reverse
    (List.Perm.refl _) (List.reverse_perm _)

/-! ## A tie under every seed -/

/-- A name of 28 bytes. -/
def shortName : Name := ⟨List.replicate 28 (ch 'a'), by decide, by decide, by decide⟩

/-- The same name with its own padding written out. -/
def paddedName : Name :=
  ⟨List.replicate 28 (ch 'a') ++ List.replicate 4 0x1c#8, by decide, by decide, by decide⟩

/-- Both names are one chunk of the same eight words. -/
theorem blockWord_shortName : ∀ j < 8,
    blockWord shortName.bytes 0 j = blockWord paddedName.bytes 0 j := by decide +kernel

/-- The two names have one hash under every seed. -/
theorem ext4Hash_shortName (seed : Chain) :
    ext4Hash seed shortName.bytes = ext4Hash seed paddedName.bytes := by
  have hchain : ext4Chain seed shortName.bytes = ext4Chain seed paddedName.bytes := by
    simp only [ext4Chain, show (shortName.bytes.length + 31) / 32 = 1 from rfl,
      show (paddedName.bytes.length + 31) / 32 = 1 from rfl, List.range_one, List.foldl_cons,
      List.foldl_nil, ← halfMd4Transform_eq, halfMd4Transform_congr _ blockWord_shortName]
  rw [ext4Hash, ext4Hash, hchain]

/-- The two files are seen in the order in which the filesystem lists them. -/
theorem listedNames_depends_on_arrangement :
    listedNames seededEnv glibcQsort.toSorter 0 7 true Heap.granting none 0
        [.ofName shortName, .ofName paddedName] ≠
      listedNames seededEnv glibcQsort.toSorter 0 7 true Heap.granting none 0
        [.ofName paddedName, .ofName shortName] := by
  have halloc : Heap.granting.Succeeds 2 := Heap.granting_succeeds (by decide)
  rw [listedNames_eq seededEnv_haveSeed _ 0 7 true none 0 halloc,
    listedNames_eq seededEnv_haveSeed _ 0 7 true none 0 halloc]
  intro h
  have htie : cmpEntry (rankedEntry (loadSeed seededEnv Globals.initial)
      [.ofName shortName, .ofName paddedName] (.ofName shortName))
      (rankedEntry (loadSeed seededEnv Globals.initial)
        [.ofName shortName, .ofName paddedName] (.ofName paddedName)) = 0 := by
    rw [cmpEntry_rankedEntry_eq_zero_iff]
    simp only [Dirent.dName, Dirent.ofName, dirhash_name, ext4Hash_shortName, and_true]
    rfl
  exact sortedListing_swap_ne glibcQsort (by decide) htie
    (List.map_injective_iff.mpr (Option.some_injective _)
      (List.append_cancel_right (Option.some.inj h)))

end WirenBoard.DirOrder
