import WirenBoard.Models.DirOrder.Replies

/-!
# Failures while a directory is read

The first call reads the whole directory, so that a failure of the real stream or of the
allocator falls into a call that still returns an entry, unless nothing was stored. The
caller observed here clears `errno` before each call and reads until NULL. It sees the
failure exactly when no entry was stored before it, or when no seed is loaded and the
calls go to the real function.
-/

namespace WirenBoard.DirOrder

/-- A caller that sets `errno` to 0 before each call and reads until NULL, making at most the
given calls: the entries returned, and `errno` at the NULL. -/
def readUntilNull (env : Env) (qsort : Sorter cmpEntry) (dir : Nat) :
    List (Bool × Heap) → Shim → RealStream → Option (List Dirent × Nat)
  | [], _, _ => none
  | (is64, heap) :: calls, sh, s =>
    match sh.readdir env qsort heap dir is64 s with
    | (none, _, _, err) => some ([], err.getD 0)
    | (some d, sh, s, _) =>
      (readUntilNull env qsort dir calls sh s).map fun o => (d :: o.1, o.2)

/-- A failure while the directory is read, after the listed entries were read. -/
inductive ReadingFails (seeded : Bool) (heap : Heap) (s : RealStream) : List Dirent → Prop where
  /-- The real stream delivers its entries and then returns NULL with `errno` set. -/
  | stream {e : Nat} : s.err = some e → e ≠ 0 →
      (seeded = true → heap.Succeeds s.pending.length) → ReadingFails seeded heap s s.pending
  /-- `realloc` fails while entries remain. -/
  | memory {stored : List Dirent} {d : Dirent} {rest : List Dirent} : seeded = true →
      s.pending = stored ++ d :: rest → heap.Succeeds stored.length →
      heap.realloc (entryRequest stored.length) = false → ReadingFails seeded heap s stored

/-- A refused request ends the loop behind the entries already stored. -/
theorem readEntries_refused {heap : Heap} (seed : Chain) (err : Errno) (ds : List Dirent)
    (d : Dirent) (rest : List Dirent) :
    ∀ es : List Entry, (∀ k, k < es.length + ds.length → heap.realloc (entryRequest k) = true) →
      heap.realloc (entryRequest (es.length + ds.length)) = false →
      readEntries heap seed err (ds ++ d :: rest) es =
        (es ++ ds.map (newEntry seed), rest, some enomem) := by
  induction ds with
  | nil =>
    intro es _ hrefused
    rw [List.length_nil, Nat.add_zero] at hrefused
    rw [List.nil_append, readEntries, if_neg (by simp [hrefused]), List.map_nil, List.append_nil]
  | cons d' ds ih =>
    intro es h hrefused
    have hlen : (es ++ [newEntry seed d']).length + ds.length = es.length + (d' :: ds).length := by
      rw [List.length_append, List.length_singleton, List.length_cons]
      omega
    rw [List.cons_append, readEntries, if_pos (h es.length (by simp)), ih]
    · rw [List.map_cons, List.append_assoc, List.singleton_append]
    · rwa [hlen]
    · rwa [hlen]

/-- In a failing read the loop stores the listed entries and leaves a nonzero `errno`. -/
theorem ReadingFails.readEntries {heap : Heap} {s : RealStream} {stored : List Dirent}
    (h : ReadingFails true heap s stored) (seed : Chain) :
    heap.Succeeds stored.length ∧ ∃ rest e, e ≠ 0 ∧
      readEntries heap seed s.err s.pending [] =
        (stored.map (newEntry seed), rest, some e) := by
  cases h with
  | stream herr he halloc =>
    refine ⟨halloc rfl, [], _, he, ?_⟩
    rw [readEntries_eq _ _ _ [] (by simpa using (halloc rfl).2), herr, List.nil_append]
  | @memory _ d rest _ hpending halloc hrefused =>
    refine ⟨halloc, rest, enomem, by decide, ?_⟩
    rw [hpending, readEntries_refused _ _ _ _ _ [] (by simpa using halloc.2)
      (by simpa using hrefused), List.nil_append]

section Reading

variable {env : Env} {qsort : Sorter cmpEntry} {dir : Nat}

/-- A stream whose listing is cached is served to the end of it, and the end is normal. -/
theorem readUntilNull_served (sh : Shim) {first : Bool} {ds : List Dirent} {k : Nat}
    (honce : sh.once = true) (hseed : sh.globals.haveSeed = true)
    (hfind : findListing sh.listings dir = some (servedListing sh.globals qsort dir first ds k))
    (calls : List (Bool × Heap)) (hcalls : ds.length - k < calls.length) (s : RealStream) :
    readUntilNull env qsort dir calls sh s =
      some ((sortedListing sh.globals qsort ds).drop k, 0) := by
  induction calls generalizing sh k s with
  | nil => exact absurd hcalls (Nat.not_lt_zero _)
  | cons call calls ih =>
    obtain ⟨is64, heap⟩ := call
    obtain ⟨ls, hnext, hfind', _, _⟩ := nextEntry_served heap is64 s hfind
    have hinit : sh.init env = sh := Shim.init_of_once honce
    have hread : sh.readdir env qsort heap dir is64 s =
        ((sortedListing sh.globals qsort ds)[k]?, { sh with listings := ls }, s, none) := by
      have h : nextEntry heap (sh.init env).globals qsort dir is64 s sh.listings =
          ((sortedListing sh.globals qsort ds)[k]?, ls, s, none) := hinit.symm ▸ hnext
      rw [Shim.readdir_eq (hinit.symm ▸ hseed) h, hinit]
    rw [readUntilNull, hread]
    cases hentry : (sortedListing sh.globals qsort ds)[k]? with
    | none => simp [List.drop_eq_nil_of_le (List.getElem?_eq_none_iff.mp hentry)]
    | some d =>
      obtain ⟨hk, hd⟩ := List.getElem?_eq_some_iff.mp hentry
      have hmore : ds.length - (k + 1) < calls.length := by
        rw [(sortedListing_perm _ _ _).length_eq] at hk
        rw [List.length_cons] at hcalls
        omega
      have hrest : readUntilNull env qsort dir calls { sh with listings := ls } s =
          some ((sortedListing sh.globals qsort ds).drop (k + 1), 0) :=
        ih { sh with listings := ls } honce hseed hfind' hmore s
      simp only [hrest, Option.map_some, List.drop_eq_getElem_cons hk, hd]

/-- The first call stores the entries that could be read; only a listing without entries
lets the caller see how the reading ended. -/
theorem readUntilNull_of_read {sh : Shim} {is64 : Bool} {heap : Heap} {s : RealStream}
    (hseed : (sh.init env).globals.haveSeed = true) (hfind : findListing sh.listings dir = none)
    (hcalloc : heap.calloc = true) {ds rest : List Dirent} {err : Errno}
    (hread : readEntries heap (sh.init env).globals.seed s.err s.pending [] =
      (ds.map (newEntry (sh.init env).globals.seed), rest, err))
    {calls : List (Bool × Heap)} (hcalls : ds.length ≤ calls.length) :
    readUntilNull env qsort dir ((is64, heap) :: calls) sh s =
      some (sortedListing (sh.init env).globals qsort ds, if ds = [] then err.getD 0 else 0) := by
  obtain ⟨ls, hnext, hfind', _, _⟩ := nextEntry_of_read qsort is64 hfind hcalloc hread
  rw [readUntilNull, Shim.readdir_eq hseed hnext]
  have hperm := sortedListing_perm (sh.init env).globals qsort ds
  cases hsorted : sortedListing (sh.init env).globals qsort ds with
  | nil =>
    rw [hsorted] at hperm
    simp [hperm.nil_eq.symm]
  | cons d sorted =>
    have hne : ds ≠ [] := by
      intro h
      rw [hsorted, h] at hperm
      exact absurd hperm.eq_nil (List.cons_ne_nil _ _)
    have hmore : ds.length - 1 < calls.length := by
      have hpos := List.length_pos_iff.mpr hne
      omega
    have hrest : readUntilNull env qsort dir calls { sh.init env with listings := ls }
        { s with pending := rest } =
        some ((sortedListing (sh.init env).globals qsort ds).drop 1, 0) :=
      readUntilNull_served { sh.init env with listings := ls } (Shim.init_once env sh) hseed hfind'
        calls hmore _
    simp only [List.getElem?_cons_zero, hrest, hsorted, List.drop_succ_cons, List.drop_zero,
      Option.map_some, hne, ite_false]

/-- With every request granted this is the whole directory. -/
theorem readUntilNull_granted {sh : Shim} {is64 : Bool} {heap : Heap} {s : RealStream}
    (hseed : (sh.init env).globals.haveSeed = true) (hfind : findListing sh.listings dir = none)
    (halloc : heap.Succeeds s.pending.length) {calls : List (Bool × Heap)}
    (hcalls : s.pending.length ≤ calls.length) :
    readUntilNull env qsort dir ((is64, heap) :: calls) sh s =
      some (sortedListing (sh.init env).globals qsort s.pending,
        if s.pending = [] then s.err.getD 0 else 0) :=
  readUntilNull_of_read hseed hfind halloc.1 (readEntries_eq _ _ _ [] (by simpa using halloc.2))
    hcalls

/-- Without a seed the caller reads the real stream. -/
theorem readUntilNull_unseeded {sh : Shim} (hseed : (sh.init env).globals.haveSeed = false)
    (calls : List (Bool × Heap)) (s : RealStream) (hcalls : s.pending.length < calls.length) :
    readUntilNull env qsort dir calls sh s = some (s.pending, s.err.getD 0) := by
  induction calls generalizing sh s with
  | nil => exact absurd hcalls (Nat.not_lt_zero _)
  | cons call calls ih =>
    obtain ⟨is64, heap⟩ := call
    have hread : sh.readdir env qsort heap dir is64 s =
        (s.readdir.1, sh.init env, s.readdir.2.2, s.readdir.2.1) := by
      simp only [Shim.readdir, hseed, Bool.false_eq_true, ite_false]
    rw [readUntilNull, hread]
    cases hpending : s.pending with
    | nil => simp [RealStream.readdir, hpending]
    | cons d pending =>
      have hmore : pending.length < calls.length := by
        rw [hpending, List.length_cons, List.length_cons] at hcalls
        omega
      have hrest : readUntilNull env qsort dir calls (sh.init env) { s with pending } =
          some (pending, s.err.getD 0) :=
        ih (by rw [Shim.init_of_once (Shim.init_once env sh), hseed]) { s with pending } hmore
      simp only [RealStream.readdir, hpending, hrest, Option.map_some]

end Reading

/-! ## The state in which a stream is opened -/

/-- What every run keeps, whatever the allocator and the streams do. -/
structure ListingInv (env : Env) (sys : System) : Prop where
  /-- The globals are those that `load_seed` leaves, now or at the first call. -/
  globals : (sys.shim.init env).globals = loadSeed env Globals.initial
  /-- No address has two listings. -/
  nodup : (sys.shim.listings.map Listing.dir).Nodup
  /-- A listing belongs to an open stream. -/
  opened : ∀ dir, (∀ s, sys.streams dir ≠ .opened s) → findListing sys.shim.listings dir = none

/-- The process starts with the invariant. -/
theorem listingInv_initial (env : Env) : ListingInv env System.initial :=
  ⟨rfl, List.nodup_nil, fun _ _ => rfl⟩

/-- An event keeps the invariant when it keeps it at its own address and adds no listing
to the others. -/
theorem ListingInv.extend {env : Env} {sys sys' : System} (hinv : ListingInv env sys) (dir : Nat)
    (hglobals : (sys'.shim.init env).globals = (sys.shim.init env).globals)
    (hnodup : (sys'.shim.listings.map Listing.dir).Nodup)
    (hframe : ∀ dir', dir' ≠ dir → sys'.streams dir' = sys.streams dir' ∧
      (dir' ∈ sys'.shim.listings.map Listing.dir → dir' ∈ sys.shim.listings.map Listing.dir))
    (hown : (∀ s, sys'.streams dir ≠ .opened s) → findListing sys'.shim.listings dir = none) :
    ListingInv env sys' := by
  refine ⟨hglobals.trans hinv.globals, hnodup, ?_⟩
  intro dir' h
  by_cases hd : dir' = dir
  · subst hd
    exact hown h
  · obtain ⟨hstream, hadd⟩ := hframe dir' hd
    rw [hstream] at h
    rw [findListing_eq_none_iff]
    exact fun hmem => findListing_eq_none_iff.mp (hinv.opened dir' h) (hadd hmem)

/-- A call adds at most a listing of its own address, and only where there was none. -/
theorem nextEntry_dirs (heap : Heap) (g : Globals) (qsort : Sorter cmpEntry) (dir : Nat)
    (is64 : Bool) (s : RealStream) (ls : List Listing) :
    (nextEntry heap g qsort dir is64 s ls).2.1.map Listing.dir = ls.map Listing.dir ∨
      findListing ls dir = none ∧
        (nextEntry heap g qsort dir is64 s ls).2.1.map Listing.dir = dir :: ls.map Listing.dir := by
  have htake : ∀ l ls, (takeEntry dir l ls).2.map Listing.dir = ls.map Listing.dir := by
    intro l ls
    unfold takeEntry
    split
    · exact map_dir_advance ls dir
    · rfl
  rw [nextEntry, getListing]
  cases hfind : findListing ls dir with
  | some l => exact Or.inl (htake l ls)
  | none =>
    by_cases hcalloc : heap.calloc = true
    · simp only [buildListing, hcalloc, ite_true]
      exact Or.inr ⟨trivial, htake _ _⟩
    · simp only [buildListing, hcalloc, ite_false, Bool.false_eq_true]
      exact Or.inl trivial

/-- So does `readdir`, which runs `init` before. -/
theorem Shim.readdir_dirs (env : Env) (qsort : Sorter cmpEntry) (heap : Heap) (dir : Nat)
    (is64 : Bool) (sh : Shim) (s : RealStream) :
    (sh.readdir env qsort heap dir is64 s).2.1.once = true ∧
      (sh.readdir env qsort heap dir is64 s).2.1.globals = (sh.init env).globals ∧
      ((sh.readdir env qsort heap dir is64 s).2.1.listings.map Listing.dir =
          sh.listings.map Listing.dir ∨
        findListing sh.listings dir = none ∧
          (sh.readdir env qsort heap dir is64 s).2.1.listings.map Listing.dir =
            dir :: sh.listings.map Listing.dir) := by
  by_cases hseed : (sh.init env).globals.haveSeed = true
  · have hdirs := nextEntry_dirs heap (sh.init env).globals qsort dir is64 s sh.listings
    rw [Shim.readdir_eq hseed rfl]
    exact ⟨Shim.init_once env sh, rfl, hdirs⟩
  · simp only [Shim.readdir, hseed, Bool.false_eq_true, ite_false]
    exact ⟨Shim.init_once env sh, trivial, Or.inl (by rw [Shim.init_listings])⟩

section Preservation

variable {env : Env} {qsort : Sorter cmpEntry} {sys sys' : System} {r : Reply}

/-- A new stream has no listing yet. -/
theorem ListingInv.opendir (hinv : ListingInv env sys) {t dir : Nat} {ds : List Dirent}
    {err : Errno} {ret : Int}
    (h : sys.step env qsort (.opendir t dir ds err ret) = some (sys', r)) :
    ListingInv env sys' := by
  simp only [System.step] at h
  split at h <;> cases h
  refine hinv.extend dir rfl hinv.nodup (fun dir' hd => ⟨Function.update_of_ne hd .., id⟩) ?_
  exact fun h => absurd (Function.update_self ..) (h _)

/-- A call on an open stream may add its listing. -/
theorem ListingInv.readdir (hinv : ListingInv env sys) {t dir : Nat} {is64 : Bool} {heap : Heap}
    (h : sys.step env qsort (.readdir t dir is64 heap) = some (sys', r)) :
    ListingInv env sys' := by
  simp only [System.step] at h
  split at h <;> cases h
  rename_i s _ hopened
  obtain ⟨honce, hglobals, hdirs⟩ := Shim.readdir_dirs env qsort heap dir is64 sys.shim s
  refine hinv.extend dir ?_ ?_ (fun dir' hd => ⟨Function.update_of_ne hd .., ?_⟩) ?_
  · rw [Shim.init_of_once honce, hglobals]
  · rcases hdirs with hsame | ⟨hnone, hnew⟩
    · rw [hsame]
      exact hinv.nodup
    · rw [hnew, List.nodup_cons]
      exact ⟨findListing_eq_none_iff.mp hnone, hinv.nodup⟩
  · rcases hdirs with hsame | ⟨_, hnew⟩
    · rw [hsame]
      exact id
    · rw [hnew]
      exact fun hmem => (List.mem_cons.mp hmem).resolve_left hd
  · exact fun h => absurd (Function.update_self ..) (h _)

/-- Dropping the listing makes the address one without a listing. -/
theorem ListingInv.unlink (hinv : ListingInv env sys) {t dir : Nat}
    (h : sys.step env qsort (.unlink t dir) = some (sys', r)) : ListingInv env sys' := by
  simp only [System.step] at h
  split at h <;> cases h
  have hsub := (List.eraseP_sublist (p := fun l : Listing => l.dir = dir)
    (l := sys.shim.listings)).map Listing.dir
  refine hinv.extend dir ?_ ?_ (fun dir' hd => ⟨Function.update_of_ne hd .., ?_⟩) (fun _ => ?_)
  · rw [Shim.init_of_once (by simp [Shim.unlink])]
    rfl
  · simp only [Shim.unlink, Shim.init_listings]
    exact hinv.nodup.sublist hsub
  · simp only [Shim.unlink, Shim.init_listings]
    exact fun hmem => hsub.subset hmem
  · simp only [Shim.unlink, Shim.init_listings]
    rw [findListing_eraseP hinv.nodup, if_pos rfl]

/-- The real `closedir` finds no listing. -/
theorem ListingInv.close (hinv : ListingInv env sys) {t dir : Nat}
    (h : sys.step env qsort (.close t dir) = some (sys', r)) : ListingInv env sys' := by
  simp only [System.step] at h
  split at h
  · rename_i _ hclosing
    split at h <;> cases h
    refine hinv.extend dir rfl hinv.nodup (fun dir' hd => ⟨Function.update_of_ne hd .., id⟩) ?_
    exact fun _ => hinv.opened dir (by simp [hclosing])
  · cases h

/-- The shim does not see a `rewinddir`. -/
theorem ListingInv.rewinddir (hinv : ListingInv env sys) {t dir : Nat}
    (h : sys.step env qsort (.rewinddir t dir) = some (sys', r)) : ListingInv env sys' := by
  simp only [System.step] at h
  split at h <;> cases h
  refine hinv.extend dir rfl hinv.nodup (fun dir' hd => ⟨Function.update_of_ne hd .., id⟩) ?_
  exact fun h => absurd (Function.update_self ..) (h _)

/-- Every event keeps the invariant. -/
theorem ListingInv.step {e : Event} (hinv : ListingInv env sys)
    (h : sys.step env qsort e = some (sys', r)) : ListingInv env sys' := by
  cases e with
  | opendir t dir ds err ret => exact hinv.opendir h
  | readdir t dir is64 heap => exact hinv.readdir h
  | unlink t dir => exact hinv.unlink h
  | close t dir => exact hinv.close h
  | rewinddir t dir => exact hinv.rewinddir h

end Preservation

/-- The invariant holds after every run. -/
theorem listingInv_run {env : Env} {qsort : Sorter cmpEntry} {events : List Event} {sys : System}
    {rs : List Reply} (h : run (System.step env qsort) System.initial events = some (sys, rs)) :
    ListingInv env sys :=
  run_invariant (P := fun _ sys => ListingInv env sys) (listingInv_initial env)
    (fun hinv hstep => hinv.step hstep) h

/-! ## Whether the caller sees the failure -/

/-- At a free address of any reachable state a stream is opened and read until NULL. The
caller of a failing read observes something else than the caller of a stream that has
exactly the entries read before the failure and ends normally if and only if there are no
such entries or no seed is loaded. -/
theorem failure_observed_iff (env : Env) (qsort : Sorter cmpEntry) {events : List Event}
    {sys : System} {rs : List Reply}
    (hrun : run (System.step env qsort) System.initial events = some (sys, rs)) {dir : Nat}
    (hfree : sys.streams dir = .free) {s : RealStream} {is64 : Bool} {heap : Heap}
    {calls : List (Bool × Heap)} (hcalls : s.pending.length ≤ calls.length) {stored : List Dirent}
    (hfail : ReadingFails (loadSeed env Globals.initial).haveSeed heap s stored) :
    ∃ observed normal,
      readUntilNull env qsort dir ((is64, heap) :: calls) sys.shim s = some observed ∧
      readUntilNull env qsort dir ((is64, heap) :: calls) sys.shim
        { s with entries := stored, pending := stored, err := none } = some normal ∧
      (observed ≠ normal ↔ stored = [] ∨ (loadSeed env Globals.initial).haveSeed = false) := by
  have hinv := listingInv_run hrun
  have hnone := hinv.opened dir (by simp [hfree])
  rw [← hinv.globals] at hfail ⊢
  cases hseed : (sys.shim.init env).globals.haveSeed with
  | false =>
    rw [hseed] at hfail
    cases hfail with
    | stream herr he _ =>
      refine ⟨_, _, readUntilNull_unseeded hseed _ _ (Nat.lt_succ_of_le hcalls),
        readUntilNull_unseeded hseed _ _ (Nat.lt_succ_of_le hcalls), ?_⟩
      simp [herr, he]
    | memory h => cases h
  | true =>
    rw [hseed] at hfail
    obtain ⟨halloc, rest, e, he, hread⟩ := hfail.readEntries (sys.shim.init env).globals.seed
    have hstored : stored.length ≤ calls.length := by
      cases hfail with
      | stream => exact hcalls
      | memory _ hpending =>
        rw [hpending, List.length_append] at hcalls
        omega
    refine ⟨_, _, readUntilNull_of_read hseed hnone halloc.1 hread hstored,
      readUntilNull_granted hseed hnone halloc hstored, ?_⟩
    by_cases h : stored = []
    · simp [h, he]
    · simp [h]

/-- A stream that fails with `EIO`: at once, which is observed, and behind three entries, which
is not. -/
theorem failure_observed_iff_eio :
    (∃ observed normal,
      readUntilNull seededEnv glibcQsort.toSorter 7 [(false, Heap.granting)] Shim.initial
        ⟨[], [], some 5, 0⟩ = some observed ∧
      readUntilNull seededEnv glibcQsort.toSorter 7 [(false, Heap.granting)] Shim.initial
        ⟨[], [], none, 0⟩ = some normal ∧ observed ≠ normal) ∧
    ∃ observed normal,
      readUntilNull seededEnv glibcQsort.toSorter 7
        ((false, Heap.granting) :: List.replicate 3 (true, Heap.granting)) Shim.initial
        ⟨oneFile, oneFile, some 5, 0⟩ = some observed ∧
      readUntilNull seededEnv glibcQsort.toSorter 7
        ((false, Heap.granting) :: List.replicate 3 (true, Heap.granting)) Shim.initial
        ⟨oneFile, oneFile, none, 0⟩ = some normal ∧ observed = normal := by
  have hfails : ∀ ds : List Dirent, ds.length ≤ 3 →
      ReadingFails (loadSeed seededEnv Globals.initial).haveSeed Heap.granting
        ⟨ds, ds, some 5, 0⟩ ds := by
    intro ds hds
    have hrequest : ds.length * sizeofEntry < 2 ^ 63 := by
      unfold sizeofEntry
      omega
    exact .stream rfl (by simp) fun _ => Heap.granting_succeeds hrequest
  refine ⟨?_, ?_⟩
  · obtain ⟨observed, normal, hobserved, hnormal, hiff⟩ := @failure_observed_iff seededEnv
      glibcQsort.toSorter [] System.initial [] (run_nil _ _) 7 rfl ⟨[], [], some 5, 0⟩ false
      Heap.granting [] (Nat.le_refl 0) [] (hfails [] (Nat.zero_le 3))
    exact ⟨observed, normal, hobserved, hnormal, hiff.mpr (.inl rfl)⟩
  · obtain ⟨observed, normal, hobserved, hnormal, hiff⟩ := @failure_observed_iff seededEnv
      glibcQsort.toSorter [] System.initial [] (run_nil _ _) 7 rfl ⟨oneFile, oneFile, some 5, 0⟩
      false Heap.granting (List.replicate 3 (true, Heap.granting)) (Nat.le_refl 3) oneFile
      (hfails oneFile (Nat.le_refl 3))
    refine ⟨observed, normal, hobserved, hnormal, not_not.mp fun hne => ?_⟩
    rcases hiff.mp hne with hnil | hseed
    · cases hnil
    · exact absurd (seededEnv_haveSeed.symm.trans hseed) (by decide)

/-- A stream that delivers three entries and then fails with `EIO` looks like one that ends. -/
theorem failure_hidden_behind_entries :
    ReadingFails true Heap.granting ⟨oneFile, oneFile, some 5, 0⟩ oneFile ∧ ∃ observed,
      readUntilNull seededEnv glibcQsort.toSorter 7 (List.replicate 4 (false, Heap.granting))
        Shim.initial ⟨oneFile, oneFile, some 5, 0⟩ = some observed ∧
      readUntilNull seededEnv glibcQsort.toSorter 7 (List.replicate 4 (false, Heap.granting))
        Shim.initial ⟨oneFile, oneFile, none, 0⟩ = some observed := by
  have halloc : Heap.granting.Succeeds oneFile.length := Heap.granting_succeeds (by decide)
  have hseed : (Shim.initial.init seededEnv).globals.haveSeed = true := by
    rw [Shim.init, if_neg (by decide)]
    exact seededEnv_haveSeed
  have hread : ∀ err, readUntilNull seededEnv glibcQsort.toSorter 7
      (List.replicate 4 (false, Heap.granting)) Shim.initial ⟨oneFile, oneFile, err, 0⟩ = some
        (sortedListing (Shim.initial.init seededEnv).globals glibcQsort.toSorter oneFile, 0) := by
    intro err
    rw [List.replicate_succ, readUntilNull_granted (s := ⟨oneFile, oneFile, err, 0⟩) hseed rfl
      halloc, if_neg (by simp [oneFile])]
    exact Nat.le_refl 3
  exact ⟨ReadingFails.stream rfl (by decide) (fun _ => halloc), _, hread _, hread _⟩

end WirenBoard.DirOrder
