import WirenBoard.Core.Run
import WirenBoard.Models.DirOrder.Order

/-!
# The shim as a machine shared by threads

The state is the shim's globals and list of listings, the C library's streams by
address, and for every thread whether it stands inside `closedir` between the
section that drops the listing and the call of the real function. Each section
under the mutex is one event. The guards say what callers and the C library
promise: an address is handed out only when no stream lives there, streams are not
used once their `closedir` began, a thread finishes `closedir` before its next
call. One call of `next_entry` is described by what it does to the listing of its
own address and to those of the others.
-/

namespace WirenBoard.DirOrder

/-! ## The intercepted functions -/

/-- The shim's static variables. -/
structure Shim where
  /-- Whether `pthread_once` has run `init`. -/
  once : Bool
  /-- The variables of `load_seed`. -/
  globals : Globals
  /-- The cached listings, newest first. -/
  listings : List Listing

/-- The static variables at process start. -/
def Shim.initial : Shim := ⟨false, Globals.initial, []⟩

/-- `pthread_once(&once, init)`; `init` also looks up the real functions. -/
def Shim.init (env : Env) (sh : Shim) : Shim :=
  if sh.once then sh else { sh with once := true, globals := loadSeed env sh.globals }

/-- `l->pos++` on the listing that the search returns. -/
def advance (dir : Nat) : List Listing → List Listing
  | [] => []
  | l :: ls => if l.dir = dir then { l with pos := l.pos + 1 } :: ls else l :: advance dir ls

/-- The tail of `next_entry` on the listing that `get_listing` returned. -/
def takeEntry (dir : Nat) (l : Listing) (listings : List Listing) : Option Dirent × List Listing :=
  match l.e[l.pos]? with
  | some e => (some e.u, advance dir listings)
  | none => (none, listings)

/-- `next_entry`: the entry returned, the listings, the stream and the `errno` left. -/
def nextEntry (heap : Heap) (g : Globals) (qsort : Sorter cmpEntry) (dir : Nat) (is64 : Bool)
    (s : RealStream) (listings : List Listing) :
    Option Dirent × List Listing × RealStream × Errno :=
  match getListing heap g qsort dir is64 s listings with
  | (none, listings, s, err) => (none, listings, s, err)
  | (some l, listings, s, err) =>
    let (d, listings) := takeEntry dir l listings
    (d, listings, s, err)

/-- `readdir` and `readdir64`, which differ in `is64` only. -/
def Shim.readdir (env : Env) (qsort : Sorter cmpEntry) (heap : Heap) (dir : Nat) (is64 : Bool)
    (sh : Shim) (s : RealStream) : Option Dirent × Shim × RealStream × Errno :=
  let sh := sh.init env
  if sh.globals.haveSeed then
    let (d, listings, s, err) := nextEntry heap sh.globals qsort dir is64 s sh.listings
    (d, { sh with listings }, s, err)
  else
    let (d, err, s) := s.readdir
    (d, sh, s, err)

/-- The section of `closedir` under the mutex: the first listing of the stream is
unlinked and freed. -/
def Shim.unlink (env : Env) (dir : Nat) (sh : Shim) : Shim :=
  let sh := sh.init env
  { sh with listings := sh.listings.eraseP fun l => l.dir = dir }

/-! ## The system -/

/-- What the C library has at an address. -/
inductive Slot where
  /-- No stream; the address may be handed out. -/
  | free
  /-- An open stream. -/
  | opened (s : RealStream)
  /-- A stream whose `closedir` has dropped the listing and not yet been closed. -/
  | closing (s : RealStream)

/-- One atomic action of a thread. -/
inductive Event where
  /-- `opendir` returns the address of a new stream over these entries. -/
  | opendir (thread dir : Nat) (ds : List Dirent) (err : Errno) (ret : Int)
  /-- `readdir` or `readdir64`. -/
  | readdir (thread dir : Nat) (is64 : Bool) (heap : Heap)
  /-- The section of `closedir` under the mutex. -/
  | unlink (thread dir : Nat)
  /-- The call of the real `closedir`. -/
  | close (thread dir : Nat)
  /-- `rewinddir`, which the shim does not intercept. -/
  | rewinddir (thread dir : Nat)

/-- What a call returns. -/
inductive Reply where
  /-- Nothing that concerns entries. -/
  | done
  /-- The entry or NULL, and the `errno` left. -/
  | entry (d : Option Dirent) (err : Errno)
  /-- The return value of `closedir`. -/
  | ret (r : Int)

/-- The process. -/
structure System where
  /-- The shim. -/
  shim : Shim
  /-- The C library's streams by address. -/
  streams : Nat → Slot
  /-- The stream a thread is closing between the two halves of `closedir`. -/
  closing : Nat → Option Nat

/-- The process before its first call. -/
def System.initial : System := ⟨Shim.initial, fun _ => .free, fun _ => none⟩

/-- One event, if the promises of callers and library allow it. -/
def System.step (env : Env) (qsort : Sorter cmpEntry) (sys : System) :
    Event → Option (System × Reply)
  | .opendir t dir ds err ret =>
    match sys.closing t, sys.streams dir with
    | none, .free =>
      some ({ sys with streams := Function.update sys.streams dir (.opened ⟨ds, ds, err, ret⟩) },
        .done)
    | _, _ => none
  | .readdir t dir is64 heap =>
    match sys.closing t, sys.streams dir with
    | none, .opened s =>
      let (d, shim, s, err) := sys.shim.readdir env qsort heap dir is64 s
      some ({ sys with shim, streams := Function.update sys.streams dir (.opened s) },
        .entry d err)
    | _, _ => none
  | .unlink t dir =>
    match sys.closing t, sys.streams dir with
    | none, .opened s =>
      some ({ shim := sys.shim.unlink env dir
              streams := Function.update sys.streams dir (.closing s)
              closing := Function.update sys.closing t (some dir) }, .done)
    | _, _ => none
  | .close t dir =>
    match sys.closing t, sys.streams dir with
    | some dir', .closing s =>
      if dir' = dir then
        some ({ sys with
          streams := Function.update sys.streams dir .free
          closing := Function.update sys.closing t none }, .ret s.ret)
      else none
    | _, _ => none
  | .rewinddir t dir =>
    match sys.closing t, sys.streams dir with
    | none, .opened s =>
      some ({ sys with
        streams := Function.update sys.streams dir (.opened { s with pending := s.entries }) },
        .done)
    | _, _ => none

/-! ## The list of listings -/

/-- Moving a listing on is seen at its own address only. -/
theorem findListing_advance (ls : List Listing) (dir dir' : Nat) :
    findListing (advance dir ls) dir' =
      if dir' = dir then (findListing ls dir).map fun l => { l with pos := l.pos + 1 }
      else findListing ls dir' := by
  induction ls with
  | nil => simp [findListing, advance]
  | cons l ls ih =>
    simp only [findListing] at ih
    by_cases hl : l.dir = dir
    · by_cases hd : dir' = dir
      · subst hd
        simp [findListing, advance, hl]
      · have hne : ¬dir = dir' := fun h => hd h.symm
        simp [findListing, advance, hl, hd, hne]
    · by_cases hd : dir' = dir
      · subst hd
        simpa [findListing, advance, hl] using ih
      · by_cases hl' : l.dir = dir'
        · simp [findListing, advance, hd, hl']
        · simpa [findListing, advance, hl, hd, hl'] using ih

/-- Moving a listing on leaves the addresses. -/
theorem map_dir_advance (ls : List Listing) (dir : Nat) :
    (advance dir ls).map Listing.dir = ls.map Listing.dir := by
  induction ls with
  | nil => rfl
  | cons l ls ih =>
    rw [advance]
    split
    · rfl
    · rw [List.map_cons, List.map_cons, ih]

/-- The search finds nothing exactly where no listing has the address. -/
theorem findListing_eq_none_iff {ls : List Listing} {dir : Nat} :
    findListing ls dir = none ↔ dir ∉ ls.map Listing.dir := by
  simp [findListing]

/-- The search finds the newest listing of an address. -/
theorem findListing_cons_self (l : Listing) (ls : List Listing) :
    findListing (l :: ls) l.dir = some l := by
  simp [findListing]

/-- The search passes over listings of other addresses. -/
theorem findListing_cons_ne {l : Listing} {dir : Nat} (h : dir ≠ l.dir) (ls : List Listing) :
    findListing (l :: ls) dir = findListing ls dir := by
  simp [findListing, h.symm]

/-- With one listing per address the search returns it. -/
theorem findListing_of_mem {ls : List Listing} (hn : (ls.map Listing.dir).Nodup) {l : Listing}
    (hmem : l ∈ ls) : findListing ls l.dir = some l := by
  induction ls with
  | nil => cases hmem
  | cons l' ls ih =>
    rw [List.map_cons, List.nodup_cons] at hn
    rcases List.mem_cons.mp hmem with rfl | hmem
    · exact findListing_cons_self l ls
    · have hne : l.dir ≠ l'.dir := by
        intro h
        exact hn.1 (h ▸ List.mem_map_of_mem hmem)
      rw [findListing_cons_ne hne, ih hn.2 hmem]

/-- With one listing per address, unlinking removes the stream's own and no other. -/
theorem findListing_eraseP {ls : List Listing} (hn : (ls.map Listing.dir).Nodup) (dir dir' : Nat) :
    findListing (ls.eraseP fun l => l.dir = dir) dir' =
      if dir' = dir then none else findListing ls dir' := by
  induction ls with
  | nil => simp [findListing]
  | cons l ls ih =>
    rw [List.map_cons, List.nodup_cons] at hn
    by_cases hl : l.dir = dir
    · rw [List.eraseP_cons_of_pos (by simpa using hl)]
      by_cases hd : dir' = dir
      · rw [if_pos hd, hd, ← hl]
        exact findListing_eq_none_iff.mpr hn.1
      · rw [if_neg hd, findListing_cons_ne (by rw [hl]; exact hd)]
    · rw [List.eraseP_cons_of_neg (by simpa using hl)]
      by_cases hl' : dir' = l.dir
      · subst hl'
        rw [findListing_cons_self, if_neg hl, findListing_cons_self]
      · rw [findListing_cons_ne hl', findListing_cons_ne hl', ih hn.2]

/-! ## One call of `next_entry` -/

section NextEntry

variable {heap : Heap} {g : Globals} {qsort : Sorter cmpEntry} {dir : Nat} {is64 : Bool}
  {s : RealStream} {ls : List Listing}

/-- The listing of a directory after `k` entries were asked for. -/
def servedListing (g : Globals) (qsort : Sorter cmpEntry) (dir : Nat) (is64 : Bool)
    (ds : List Dirent) (k : Nat) : Listing :=
  ⟨dir, is64, min k ds.length, qsort.sort (ds.map (rankedEntry g ds))⟩

/-- The sorted array has one entry for each of the directory. -/
theorem length_sort_ranked (g : Globals) (qsort : Sorter cmpEntry) (ds : List Dirent) :
    (qsort.sort (ds.map (rankedEntry g ds))).length = ds.length := by
  rw [(qsort.perm _).length_eq, List.length_map]

private theorem getElem?_served (g : Globals) (qsort : Sorter cmpEntry) (ds : List Dirent)
    (k : Nat) :
    (qsort.sort (ds.map (rankedEntry g ds)))[min k ds.length]? =
      (qsort.sort (ds.map (rankedEntry g ds)))[k]? := by
  rcases Nat.lt_or_ge k ds.length with h | h
  · rw [Nat.min_eq_left h.le]
  · rw [Nat.min_eq_right h, List.getElem?_eq_none (length_sort_ranked g qsort ds).le,
      List.getElem?_eq_none ((length_sort_ranked g qsort ds).le.trans h)]

/-- Taking an entry from the listing at position `k` returns entry `k` of the sorted
listing and moves the position on; other addresses are untouched. -/
theorem takeEntry_served {ds : List Dirent} {k : Nat} {first : Bool}
    (hfind : findListing ls dir = some (servedListing g qsort dir first ds k)) :
    ∃ ls', takeEntry dir (servedListing g qsort dir first ds k) ls =
        ((sortedListing g qsort ds)[k]?, ls') ∧
      findListing ls' dir = some (servedListing g qsort dir first ds (k + 1)) ∧
      (∀ dir', dir' ≠ dir → findListing ls' dir' = findListing ls dir') ∧
      ls'.map Listing.dir = ls.map Listing.dir := by
  simp only [takeEntry, sortedListing, List.getElem?_map]
  rw [show (servedListing g qsort dir first ds k).e[(servedListing g qsort dir first ds k).pos]? =
      (qsort.sort (ds.map (rankedEntry g ds)))[k]? from getElem?_served g qsort ds k]
  cases he : (qsort.sort (ds.map (rankedEntry g ds)))[k]? with
  | some e =>
    have hk : k < ds.length := by
      rw [← length_sort_ranked g qsort ds]
      exact (List.getElem?_eq_some_iff.mp he).1
    refine ⟨advance dir ls, rfl, ?_, ?_, map_dir_advance ls dir⟩
    · rw [findListing_advance, if_pos rfl, hfind]
      simp only [servedListing, Option.map_some, Option.some.injEq, Listing.mk.injEq, true_and,
        and_true]
      omega
    · intro dir' hd
      rw [findListing_advance, if_neg hd]
  | none =>
    have hk : ds.length ≤ k := by
      rw [← length_sort_ranked g qsort ds]
      exact List.getElem?_eq_none_iff.mp he
    refine ⟨ls, rfl, ?_, fun _ _ => rfl, rfl⟩
    rw [hfind]
    simp only [servedListing, Option.some.injEq, Listing.mk.injEq, true_and, and_true]
    omega

/-- A call that finds its listing leaves the real stream alone. -/
theorem nextEntry_served (heap : Heap) (is64 : Bool) (s : RealStream) {ds : List Dirent} {k : Nat}
    {first : Bool} (hfind : findListing ls dir = some (servedListing g qsort dir first ds k)) :
    ∃ ls', nextEntry heap g qsort dir is64 s ls = ((sortedListing g qsort ds)[k]?, ls', s, none) ∧
      findListing ls' dir = some (servedListing g qsort dir first ds (k + 1)) ∧
      (∀ dir', dir' ≠ dir → findListing ls' dir' = findListing ls dir') ∧
      ls'.map Listing.dir = ls.map Listing.dir := by
  obtain ⟨ls', htake, hrest⟩ := takeEntry_served hfind
  refine ⟨ls', ?_, hrest⟩
  simp only [nextEntry, getListing, hfind, htake]

/-- The first call of a stream builds the listing of the entries it could store and returns
the first of them. -/
theorem nextEntry_of_read (qsort : Sorter cmpEntry) (is64 : Bool)
    (hfind : findListing ls dir = none) (hcalloc : heap.calloc = true) {ds rest : List Dirent}
    {err : Errno}
    (hread : readEntries heap g.seed s.err s.pending [] = (ds.map (newEntry g.seed), rest, err)) :
    ∃ ls', nextEntry heap g qsort dir is64 s ls =
        ((sortedListing g qsort ds)[0]?, ls', { s with pending := rest }, err) ∧
      findListing ls' dir = some (servedListing g qsort dir is64 ds 1) ∧
      (∀ dir', dir' ≠ dir → findListing ls' dir' = findListing ls dir') ∧
      ls'.map Listing.dir = dir :: ls.map Listing.dir := by
  have hbuilt : getListing heap g qsort dir is64 s ls =
      (some (servedListing g qsort dir is64 ds 0),
        servedListing g qsort dir is64 ds 0 :: ls, { s with pending := rest }, err) := by
    rw [getListing, hfind, buildListing_of_read g qsort dir is64 hcalloc hread]
    simp only [servedListing, Nat.zero_min]
  obtain ⟨ls', htake, hfind', hother, hdirs⟩ :=
    takeEntry_served (findListing_cons_self (servedListing g qsort dir is64 ds 0) ls)
  refine ⟨ls', ?_, hfind', ?_, hdirs⟩
  · rw [nextEntry, hbuilt]
    simp only [show (servedListing g qsort dir is64 ds 0).dir = dir from rfl] at htake
    simp only [htake]
  · intro dir' hd
    rw [hother dir' hd]
    exact findListing_cons_ne hd ls

/-- With every request granted the listing is that of all pending entries. -/
theorem nextEntry_first (g : Globals) (qsort : Sorter cmpEntry) (is64 : Bool)
    (hfind : findListing ls dir = none) (halloc : heap.Succeeds s.pending.length) :
    ∃ ls', nextEntry heap g qsort dir is64 s ls =
        ((sortedListing g qsort s.pending)[0]?, ls', { s with pending := [] }, s.err) ∧
      findListing ls' dir = some (servedListing g qsort dir is64 s.pending 1) ∧
      (∀ dir', dir' ≠ dir → findListing ls' dir' = findListing ls dir') ∧
      ls'.map Listing.dir = dir :: ls.map Listing.dir :=
  nextEntry_of_read qsort is64 hfind halloc.1 (readEntries_eq _ _ _ [] (by simpa using halloc.2))

end NextEntry

end WirenBoard.DirOrder
