import WirenBoard.Models.DirOrder.Failures

/-!
# What one stream sees of the others

All streams of a process share one list of listings, one set of globals and one mutex. The
calls on one address are nevertheless answered as if no other address existed: the events of
that address, taken out of any run, are a run of their own with the same replies. This holds
for every interleaving of threads and whatever the allocator and the real streams do. For a
single address this leaves the order of its own calls, and there a stream returns at most the
sorted listing of what it could store, each entry once.
-/

namespace WirenBoard.DirOrder

/-! ## What a call reads and writes -/

section Calls

variable {env : Env} {qsort : Sorter cmpEntry} {heap : Heap} {g : Globals} {dir : Nat}
  {is64 : Bool} {s : RealStream} {ls ls' : List Listing}

private theorem findListing_takeEntry_ne {dir' : Nat} (h : dir' ≠ dir) (l : Listing)
    (ls : List Listing) : findListing (takeEntry dir l ls).2 dir' = findListing ls dir' := by
  unfold takeEntry
  split
  · rw [findListing_advance, if_neg h]
  · rfl

/-- A call leaves the listings of other addresses alone. -/
theorem findListing_nextEntry_ne {dir' : Nat} (h : dir' ≠ dir) :
    findListing (nextEntry heap g qsort dir is64 s ls).2.1 dir' = findListing ls dir' := by
  rw [nextEntry, getListing]
  cases findListing ls dir with
  | some l => exact findListing_takeEntry_ne h l ls
  | none =>
    by_cases hcalloc : heap.calloc = true
    · simp only [buildListing, hcalloc, ite_true]
      rw [findListing_takeEntry_ne h]
      exact findListing_cons_ne h ls
    · simp only [buildListing, hcalloc, ite_false, Bool.false_eq_true]

private theorem takeEntry_congr (l : Listing) (h : findListing ls dir = findListing ls' dir) :
    (takeEntry dir l ls).1 = (takeEntry dir l ls').1 ∧
      findListing (takeEntry dir l ls).2 dir = findListing (takeEntry dir l ls').2 dir := by
  unfold takeEntry
  split
  · refine ⟨rfl, ?_⟩
    rw [findListing_advance, findListing_advance, if_pos rfl, if_pos rfl, h]
  · exact ⟨rfl, h⟩

/-- A call reads no listing but that of its own address. -/
theorem nextEntry_congr (h : findListing ls dir = findListing ls' dir) :
    (nextEntry heap g qsort dir is64 s ls).1 = (nextEntry heap g qsort dir is64 s ls').1 ∧
      (nextEntry heap g qsort dir is64 s ls).2.2 = (nextEntry heap g qsort dir is64 s ls').2.2 ∧
      findListing (nextEntry heap g qsort dir is64 s ls).2.1 dir =
        findListing (nextEntry heap g qsort dir is64 s ls').2.1 dir := by
  rw [nextEntry, nextEntry, getListing, getListing, ← h]
  cases hfind : findListing ls dir with
  | some l =>
    obtain ⟨hentry, hlisting⟩ := takeEntry_congr l h
    exact ⟨hentry, rfl, hlisting⟩
  | none =>
    by_cases hcalloc : heap.calloc = true
    · simp only [buildListing, hcalloc, ite_true]
      generalize hl : (⟨dir, is64, 0, _⟩ : Listing) = l
      have hdir : l.dir = dir := by rw [← hl]
      obtain ⟨hentry, hlisting⟩ := takeEntry_congr l
        (show findListing (l :: ls) dir = findListing (l :: ls') dir by
          rw [← hdir, findListing_cons_self, findListing_cons_self])
      exact ⟨hentry, trivial, hlisting⟩
    · simp only [buildListing, hcalloc, ite_false, Bool.false_eq_true]
      exact ⟨trivial, trivial, h⟩

/-- So does `readdir`, besides the globals that `init` leaves. -/
theorem Shim.readdir_congr {sh sh' : Shim}
    (hglobals : (sh.init env).globals = (sh'.init env).globals)
    (hfind : findListing sh.listings dir = findListing sh'.listings dir) :
    (sh.readdir env qsort heap dir is64 s).1 = (sh'.readdir env qsort heap dir is64 s).1 ∧
      (sh.readdir env qsort heap dir is64 s).2.2 = (sh'.readdir env qsort heap dir is64 s).2.2 ∧
      findListing (sh.readdir env qsort heap dir is64 s).2.1.listings dir =
        findListing (sh'.readdir env qsort heap dir is64 s).2.1.listings dir := by
  by_cases hseed : (sh.init env).globals.haveSeed = true
  · rw [Shim.readdir_eq hseed rfl, Shim.readdir_eq (hglobals ▸ hseed) rfl, ← hglobals]
    exact nextEntry_congr hfind
  · simp only [Shim.readdir, ← hglobals, hseed, Bool.false_eq_true, ite_false,
      Shim.init_listings]
    exact ⟨trivial, trivial, hfind⟩

private theorem Shim.findListing_readdir_ne {sh : Shim} {dir' : Nat} (h : dir' ≠ dir) :
    findListing (sh.readdir env qsort heap dir is64 s).2.1.listings dir' =
      findListing sh.listings dir' := by
  by_cases hseed : (sh.init env).globals.haveSeed = true
  · rw [Shim.readdir_eq hseed rfl]
    exact findListing_nextEntry_ne h
  · simp only [Shim.readdir, hseed, Bool.false_eq_true, ite_false, Shim.init_listings]

end Calls

/-! ## The events, with their guards -/

section Events

variable {env : Env} {qsort : Sorter cmpEntry} {sys sys' : System} {r : Reply} {t dir : Nat}

private theorem step_opendir_iff {ds : List Dirent} {err : Errno} {ret : Int} :
    sys.step env qsort (.opendir t dir ds err ret) = some (sys', r) ↔
      sys.closing t = none ∧ sys.streams dir = .free ∧ r = .done ∧
        sys' = { sys with
          streams := Function.update sys.streams dir (.opened ⟨ds, ds, err, ret⟩) } := by
  cases ht : sys.closing t <;> cases hs : sys.streams dir <;>
    simp [System.step, ht, hs, eq_comm, and_comm]

private theorem step_readdir_iff {is64 : Bool} {heap : Heap} :
    sys.step env qsort (.readdir t dir is64 heap) = some (sys', r) ↔
      sys.closing t = none ∧ ∃ s, sys.streams dir = .opened s ∧
        r = .entry (sys.shim.readdir env qsort heap dir is64 s).1
          (sys.shim.readdir env qsort heap dir is64 s).2.2.2 ∧
        sys' = { sys with
          shim := (sys.shim.readdir env qsort heap dir is64 s).2.1
          streams := Function.update sys.streams dir
            (.opened (sys.shim.readdir env qsort heap dir is64 s).2.2.1) } := by
  cases ht : sys.closing t <;> cases hs : sys.streams dir <;>
    simp [System.step, ht, hs, eq_comm, and_comm]

/-- A call on an open stream is enabled and leaves it open. -/
theorem step_readdir_enabled {s : RealStream} (ht : sys.closing t = none)
    (hs : sys.streams dir = .opened s) (is64 : Bool) (heap : Heap) :
    ∃ sys' r s', sys.step env qsort (.readdir t dir is64 heap) = some (sys', r) ∧
      sys'.streams dir = .opened s' :=
  ⟨_, _, _, step_readdir_iff.mpr ⟨ht, s, hs, rfl, rfl⟩, Function.update_self ..⟩

private theorem step_unlink_iff :
    sys.step env qsort (.unlink t dir) = some (sys', r) ↔
      sys.closing t = none ∧ ∃ s, sys.streams dir = .opened s ∧ r = .done ∧
        sys' = { shim := sys.shim.unlink env dir
                 streams := Function.update sys.streams dir (.closing s)
                 closing := Function.update sys.closing t (some dir) } := by
  cases ht : sys.closing t <;> cases hs : sys.streams dir <;>
    simp [System.step, ht, hs, eq_comm, and_comm]

private theorem step_close_iff :
    sys.step env qsort (.close t dir) = some (sys', r) ↔
      sys.closing t = some dir ∧ ∃ s, sys.streams dir = .closing s ∧ r = .ret s.ret ∧
        sys' = { sys with
          streams := Function.update sys.streams dir .free
          closing := Function.update sys.closing t none } := by
  cases ht : sys.closing t with
  | none => simp [System.step, ht]
  | some dir' =>
    by_cases hd : dir' = dir
    · cases hs : sys.streams dir <;> simp [System.step, ht, hs, hd, eq_comm, and_comm]
    · cases hs : sys.streams dir <;> simp [System.step, ht, hs, hd]

private theorem step_rewinddir_iff :
    sys.step env qsort (.rewinddir t dir) = some (sys', r) ↔
      sys.closing t = none ∧ ∃ s, sys.streams dir = .opened s ∧ r = .done ∧
        sys' = { sys with
          streams := Function.update sys.streams dir
            (.opened { s with pending := s.entries }) } := by
  cases ht : sys.closing t <;> cases hs : sys.streams dir <;>
    simp [System.step, ht, hs, eq_comm, and_comm]

private theorem findListing_unlink {sh : Shim} (hn : (sh.listings.map Listing.dir).Nodup)
    (dir dir' : Nat) :
    findListing (sh.unlink env dir).listings dir' =
      if dir' = dir then none else findListing sh.listings dir' := by
  simp only [Shim.unlink, Shim.init_listings]
  exact findListing_eraseP hn dir dir'

/-- An event changes neither the stream nor the listing of another address. -/
theorem step_frame {e : Event} (hinv : ListingInv env sys) (hdir : dir ≠ e.dir)
    (hstep : sys.step env qsort e = some (sys', r)) :
    sys'.streams dir = sys.streams dir ∧
      findListing sys'.shim.listings dir = findListing sys.shim.listings dir := by
  cases e with
  | opendir t dir' ds err ret =>
    obtain ⟨_, _, rfl, rfl⟩ := step_opendir_iff.mp hstep
    exact ⟨Function.update_of_ne hdir .., rfl⟩
  | readdir t dir' is64 heap =>
    obtain ⟨_, s, _, rfl, rfl⟩ := step_readdir_iff.mp hstep
    exact ⟨Function.update_of_ne hdir .., Shim.findListing_readdir_ne hdir⟩
  | unlink t dir' =>
    obtain ⟨_, s, _, rfl, rfl⟩ := step_unlink_iff.mp hstep
    refine ⟨Function.update_of_ne hdir .., ?_⟩
    rw [findListing_unlink hinv.nodup, if_neg (show dir ≠ dir' from hdir)]
  | close t dir' =>
    obtain ⟨_, s, _, rfl, rfl⟩ := step_close_iff.mp hstep
    exact ⟨Function.update_of_ne hdir .., rfl⟩
  | rewinddir t dir' =>
    obtain ⟨_, s, _, rfl, rfl⟩ := step_rewinddir_iff.mp hstep
    exact ⟨Function.update_of_ne hdir .., rfl⟩

end Events

/-! ## One address alone -/

/-- The process `alone` shows at the address what `sys` shows there, and no thread of it is
closing another stream. -/
structure AloneAt (env : Env) (dir : Nat) (sys alone : System) : Prop where
  /-- The first process was reached. -/
  reached : ListingInv env sys
  /-- So was the second. -/
  reachedAlone : ListingInv env alone
  /-- The same stream. -/
  stream : sys.streams dir = alone.streams dir
  /-- The same listing. -/
  listing : findListing sys.shim.listings dir = findListing alone.shim.listings dir
  /-- The threads closing the stream at the address. -/
  closing : ∀ t, alone.closing t = if sys.closing t = some dir then some dir else none

section Alone

variable {env : Env} {qsort : Sorter cmpEntry} {dir : Nat} {sys alone sys' : System} {r : Reply}

private theorem aloneAt_initial (env : Env) (dir : Nat) :
    AloneAt env dir System.initial System.initial :=
  ⟨listingInv_initial env, listingInv_initial env, rfl, rfl, fun _ => rfl⟩

private theorem AloneAt.idle (h : AloneAt env dir sys alone) {t : Nat} (ht : sys.closing t = none) :
    alone.closing t = none := by
  rw [h.closing, ht, if_neg (by simp)]

/-- A thread that enters or leaves `closedir` does so on both sides. -/
theorem AloneAt.closing_update (h : AloneAt env dir sys alone) (t : Nat) {c c' : Option Nat}
    (hc : c' = if c = some dir then some dir else none) (t' : Nat) :
    Function.update alone.closing t c' t' =
      if Function.update sys.closing t c t' = some dir then some dir else none := by
  by_cases ht : t' = t
  · rw [ht, Function.update_self, Function.update_self, hc]
  · rw [Function.update_of_ne ht, Function.update_of_ne ht, h.closing]

/-- An event of the address is answered alike. -/
theorem AloneAt.own {e : Event} (hdir : e.dir = dir) (h : AloneAt env dir sys alone)
    (hstep : sys.step env qsort e = some (sys', r)) :
    ∃ alone', alone.step env qsort e = some (alone', r) ∧ AloneAt env dir sys' alone' := by
  have hglobals : (sys.shim.init env).globals = (alone.shim.init env).globals :=
    h.reached.globals.trans h.reachedAlone.globals.symm
  have hkeep : ∀ {alone'}, alone.step env qsort e = some (alone', r) →
      sys'.streams dir = alone'.streams dir →
      findListing sys'.shim.listings dir = findListing alone'.shim.listings dir →
      (∀ t, alone'.closing t = if sys'.closing t = some dir then some dir else none) →
      ∃ alone', alone.step env qsort e = some (alone', r) ∧ AloneAt env dir sys' alone' :=
    fun halone hs hl hc =>
      ⟨_, halone, h.reached.step hstep, h.reachedAlone.step halone, hs, hl, hc⟩
  cases e with
  | opendir t dir' ds err ret =>
    obtain rfl : dir' = dir := hdir
    obtain ⟨ht, hfree, rfl, rfl⟩ := step_opendir_iff.mp hstep
    exact hkeep (step_opendir_iff.mpr ⟨h.idle ht, h.stream ▸ hfree, rfl, rfl⟩)
      (by simp only [Function.update_self]) h.listing h.closing
  | readdir t dir' is64 heap =>
    obtain rfl : dir' = dir := hdir
    obtain ⟨ht, s, hs, rfl, rfl⟩ := step_readdir_iff.mp hstep
    obtain ⟨hentry, hrest, hfind⟩ := @Shim.readdir_congr env qsort heap dir' is64 s
      sys.shim alone.shim hglobals h.listing
    refine hkeep (step_readdir_iff.mpr ⟨h.idle ht, s, h.stream ▸ hs, ?_, rfl⟩) ?_ hfind h.closing
    · rw [hentry, hrest]
    · simp only [Function.update_self, hrest]
  | unlink t dir' =>
    obtain rfl : dir' = dir := hdir
    obtain ⟨ht, s, hs, rfl, rfl⟩ := step_unlink_iff.mp hstep
    refine hkeep (step_unlink_iff.mpr ⟨h.idle ht, s, h.stream ▸ hs, rfl, rfl⟩)
      (by simp only [Function.update_self]) ?_
      (h.closing_update t (if_pos rfl).symm)
    rw [findListing_unlink h.reached.nodup, findListing_unlink h.reachedAlone.nodup, if_pos rfl,
      if_pos rfl]
  | close t dir' =>
    obtain rfl : dir' = dir := hdir
    obtain ⟨ht, s, hs, rfl, rfl⟩ := step_close_iff.mp hstep
    have ht' : alone.closing t = some dir' := by rw [h.closing, ht, if_pos rfl]
    exact hkeep (step_close_iff.mpr ⟨ht', s, h.stream ▸ hs, rfl, rfl⟩)
      (by simp only [Function.update_self]) h.listing (h.closing_update t (if_neg (by simp)).symm)
  | rewinddir t dir' =>
    obtain rfl : dir' = dir := hdir
    obtain ⟨ht, s, hs, rfl, rfl⟩ := step_rewinddir_iff.mp hstep
    exact hkeep (step_rewinddir_iff.mpr ⟨h.idle ht, s, h.stream ▸ hs, rfl, rfl⟩)
      (by simp only [Function.update_self]) h.listing h.closing

/-- An event of another address is not seen. -/
theorem AloneAt.other {e : Event} (hdir : e.dir ≠ dir) (h : AloneAt env dir sys alone)
    (hstep : sys.step env qsort e = some (sys', r)) : AloneAt env dir sys' alone := by
  obtain ⟨hstream, hlisting⟩ := step_frame h.reached hdir.symm hstep
  refine ⟨h.reached.step hstep, h.reachedAlone, hstream.trans h.stream,
    hlisting.trans h.listing, ?_⟩
  have hdrop : ∀ {dir'}, dir' ≠ dir → none = if some dir' = some dir then some dir else none :=
    fun hne => (if_neg fun heq => hne (Option.some.inj heq)).symm
  cases e with
  | opendir t dir' ds err ret =>
    obtain ⟨_, _, rfl, rfl⟩ := step_opendir_iff.mp hstep
    exact h.closing
  | readdir t dir' is64 heap =>
    obtain ⟨_, s, _, rfl, rfl⟩ := step_readdir_iff.mp hstep
    exact h.closing
  | unlink t dir' =>
    obtain ⟨ht, s, _, rfl, rfl⟩ := step_unlink_iff.mp hstep
    have hne : dir' ≠ dir := hdir
    intro t'
    rw [← h.closing_update t (hdrop hne), ← h.idle ht, Function.update_eq_self]
  | close t dir' =>
    obtain ⟨ht, s, _, rfl, rfl⟩ := step_close_iff.mp hstep
    have ht' : alone.closing t = none := by
      rw [h.closing, ht]
      exact (hdrop hdir).symm
    intro t'
    rw [← h.closing_update t (if_neg (by simp)).symm, ← ht', Function.update_eq_self]
  | rewinddir t dir' =>
    obtain ⟨_, s, _, rfl, rfl⟩ := step_rewinddir_iff.mp hstep
    exact h.closing

end Alone

/-- The events of an address. -/
def Event.concerns (dir : Nat) (e : Event) : Bool := e.dir = dir

/-- In every run of the process, whatever the threads, the allocator and the real streams do,
the events of one address are a run of their own from the start, with the same replies. -/
theorem stream_isolated (env : Env) (qsort : Sorter cmpEntry) (dir : Nat) {events : List Event}
    {sys : System} {rs : List Reply}
    (hrun : run (System.step env qsort) System.initial events = some (sys, rs)) :
    ∃ alone, run (System.step env qsort) System.initial (events.filter (Event.concerns dir)) =
      some (alone, repliesOf (Event.concerns dir) events rs) := by
  obtain ⟨alone, halone, _⟩ := run_filter (R := AloneAt env dir) (Event.concerns dir)
    (fun hp h hstep => h.own (of_decide_eq_true hp) hstep)
    (fun hp h hstep => h.other (of_decide_eq_false hp) hstep)
    (aloneAt_initial env dir) hrun
  exact ⟨alone, halone⟩

/-- Two threads, two streams and an address handed out twice: the calls at that address with the
replies they had beside the other stream. -/
theorem stream_isolated_reused :
    ∃ sys rs alone,
      run (System.step seededEnv glibcQsort.toSorter) System.initial reusedAddress =
        some (sys, rs) ∧
      run (System.step seededEnv glibcQsort.toSorter) System.initial
          [.opendir 0 7 oneFile none 0, .readdir 0 7 true Heap.granting, .unlink 0 7, .close 0 7,
            .opendir 1 7 twoFiles none 0, .readdir 1 7 true Heap.granting,
            .readdir 0 7 false Heap.granting] =
        some (alone, repliesOf (Event.concerns 7) reusedAddress rs) := by
  obtain ⟨sys, rs, hrun⟩ := run_reusedAddress
  obtain ⟨alone, halone⟩ := stream_isolated seededEnv glibcQsort.toSorter 7 hrun
  exact ⟨sys, rs, alone, hrun, halone⟩

/-! ## What a stream returns under any allocator -/

/-- The loop stores a first part of the pending entries, whatever the allocator does. -/
theorem readEntries_stores (heap : Heap) (seed : Chain) (err : Errno) (pending : List Dirent) :
    ∀ es : List Entry, ∃ stored rest err', stored <+: pending ∧
      readEntries heap seed err pending es = (es ++ stored.map (newEntry seed), rest, err') := by
  induction pending with
  | nil => exact fun es => ⟨[], [], err, List.prefix_rfl, by simp [readEntries]⟩
  | cons d pending ih =>
    intro es
    rw [readEntries]
    split
    · obtain ⟨stored, rest, err', hprefix, hread⟩ := ih (es ++ [newEntry seed d])
      refine ⟨d :: stored, rest, err', (List.cons_prefix_cons.mpr ⟨rfl, hprefix⟩), ?_⟩
      rw [hread, List.map_cons, List.append_assoc, List.singleton_append]
    · exact ⟨[], pending, some enomem, List.nil_prefix, by simp⟩

/-- What one event adds to the entries returned since the last `opendir` at an address. -/
def handedStep (dir : Nat) (ds : List Dirent) : Event × Reply → List Dirent
  | (.opendir _ dir' _ _ _, _) => if dir' = dir then [] else ds
  | (.readdir _ dir' _ _, .entry d _) => if dir' = dir then ds ++ d.toList else ds
  | _ => ds

/-- The entries returned at an address since its last `opendir`. -/
def handed (dir : Nat) (history : List (Event × Reply)) : List Dirent :=
  history.foldl (handedStep dir) []

private theorem handed_append_singleton (dir : Nat) (history : List (Event × Reply))
    (x : Event × Reply) :
    handed dir (history ++ [x]) = handedStep dir (handed dir history) x := by
  rw [handed, List.foldl_append]
  rfl

private theorem handedStep_of_ne {dir : Nat} {e : Event} (h : dir ≠ e.dir) (r : Reply)
    (ds : List Dirent) : handedStep dir ds (e, r) = ds := by
  cases e with
  | opendir t dir' ds' err ret => exact if_neg h.symm
  | readdir t dir' is64 heap =>
    cases r with
    | entry d err => exact if_neg h.symm
    | done => rfl
    | ret _ => rfl
  | unlink t dir' => rfl
  | close t dir' => rfl
  | rewinddir t dir' => rfl

/-- What an open stream has returned, and what it will return from. -/
structure Handing (g : Globals) (qsort : Sorter cmpEntry) (sys : System) (dir : Nat)
    (s : RealStream) (ds : List Dirent) : Prop where
  /-- Before there is a listing nothing was read or returned. -/
  unread : findListing sys.shim.listings dir = none → s.pending = s.entries ∧ ds = []
  /-- The listing is that of a first part of the directory, and was returned so far. -/
  served : ∀ l, findListing sys.shim.listings dir = some l →
    ∃ is64 stored k, stored <+: s.entries ∧ l = servedListing g qsort dir is64 stored k ∧
      ds = (sortedListing g qsort stored).take k

section Handing

variable {env : Env} {qsort : Sorter cmpEntry} {g : Globals} {sys sys' : System} {dir : Nat}
  {s : RealStream} {ds : List Dirent} {history : List (Event × Reply)} {e : Event} {r : Reply}

/-- One call of `next_entry` returns the next entry of the listing it finds or builds. -/
theorem Handing.nextEntry (h : Handing g qsort sys dir s ds) (heap : Heap) (is64 : Bool) :
    ∃ d ls s' err, nextEntry heap g qsort dir is64 s sys.shim.listings = (d, ls, s', err) ∧
      s'.entries = s.entries ∧ ∀ closing,
        Handing g qsort ⟨⟨true, g, ls⟩, Function.update sys.streams dir (.opened s'), closing⟩
          dir s' (ds ++ d.toList) := by
  cases hfind : findListing sys.shim.listings dir with
  | some l =>
    obtain ⟨first, stored, k, hprefix, rfl, rfl⟩ := h.served l hfind
    obtain ⟨ls, hnext, hfind', _, _⟩ := nextEntry_served heap is64 s hfind
    refine ⟨_, ls, s, none, hnext, rfl, fun _ => ⟨?_, ?_⟩⟩
    · exact fun hnone => absurd (hnone.symm.trans hfind') (by simp)
    · intro l hl
      obtain rfl := Option.some.inj (hfind'.symm.trans hl)
      exact ⟨first, stored, k + 1, hprefix, rfl, List.take_add_one.symm⟩
  | none =>
    obtain ⟨hpending, rfl⟩ := h.unread hfind
    by_cases hcalloc : heap.calloc = true
    · obtain ⟨stored, rest, err, hprefix, hread⟩ :=
        readEntries_stores heap g.seed s.err s.pending []
      obtain ⟨ls, hnext, hfind', _, _⟩ := nextEntry_of_read qsort is64 hfind hcalloc hread
      refine ⟨_, ls, _, err, hnext, rfl, fun _ => ⟨?_, ?_⟩⟩
      · exact fun hnone => absurd (hnone.symm.trans hfind') (by simp)
      · intro l hl
        obtain rfl := Option.some.inj (hfind'.symm.trans hl)
        exact ⟨is64, stored, 1, hpending ▸ hprefix, rfl, (List.take_add_one (i := 0)).symm⟩
    · refine ⟨none, sys.shim.listings, s, some enomem, ?_, rfl, fun _ => ⟨?_, ?_⟩⟩
      · simp [DirOrder.nextEntry, getListing, hfind, buildListing, hcalloc]
      · exact fun _ => ⟨hpending, rfl⟩
      · exact fun l hl => absurd (hl.symm.trans hfind) (by simp)

/-- Every open stream has returned a part of its listing. -/
def HandingInv (env : Env) (qsort : Sorter cmpEntry) (dir : Nat) (history : List (Event × Reply))
    (sys : System) : Prop :=
  ListingInv env sys ∧ ∀ s, sys.streams dir = .opened s →
    Handing (loadSeed env Globals.initial) qsort sys dir s (handed dir history)

/-- Every event keeps the invariant, whatever the allocator and the real streams do. -/
theorem HandingInv.step (hseed : (loadSeed env Globals.initial).haveSeed = true)
    (h : HandingInv env qsort dir history sys) (hstep : sys.step env qsort e = some (sys', r)) :
    HandingInv env qsort dir (history ++ [(e, r)]) sys' := by
  obtain ⟨hinv, hall⟩ := h
  refine ⟨hinv.step hstep, ?_⟩
  rw [handed_append_singleton]
  by_cases hdir : dir = e.dir
  · cases e with
    | opendir t dir' ds' err ret =>
      obtain rfl : dir = dir' := hdir
      obtain ⟨_, hfree, rfl, rfl⟩ := step_opendir_iff.mp hstep
      have hnone := hinv.opened dir (by simp [hfree])
      intro s hs
      obtain rfl : ⟨ds', ds', err, ret⟩ = s := by simpa using hs
      refine ⟨fun _ => ⟨rfl, by simp [handedStep]⟩, ?_⟩
      exact fun l hl => absurd (hl.symm.trans hnone) (by simp)
    | readdir t dir' is64 heap =>
      obtain rfl : dir = dir' := hdir
      obtain ⟨_, s, hs, rfl, rfl⟩ := step_readdir_iff.mp hstep
      obtain ⟨d, ls, s', err, hnext, _, hhanding⟩ := (hall s hs).nextEntry heap is64
      rw [← hinv.globals] at hseed hnext
      have hread := Shim.readdir_eq hseed hnext
      intro s'' hs''
      obtain rfl : s' = s'' := by simpa [hread] using hs''
      have hgoal := hhanding sys.closing
      simp only [hread, handedStep, ite_true]
      exact ⟨hgoal.unread, hgoal.served⟩
    | unlink t dir' =>
      obtain rfl : dir = dir' := hdir
      obtain ⟨_, s, _, rfl, rfl⟩ := step_unlink_iff.mp hstep
      exact fun s' hs' => absurd hs' (by simp)
    | close t dir' =>
      obtain rfl : dir = dir' := hdir
      obtain ⟨_, s, _, rfl, rfl⟩ := step_close_iff.mp hstep
      exact fun s' hs' => absurd hs' (by simp)
    | rewinddir t dir' =>
      obtain rfl : dir = dir' := hdir
      obtain ⟨_, s, hs, rfl, rfl⟩ := step_rewinddir_iff.mp hstep
      intro s' hs'
      obtain rfl : { s with pending := s.entries } = s' := by simpa using hs'
      exact ⟨fun hnone => ⟨rfl, ((hall s hs).unread hnone).2⟩, (hall s hs).served⟩
  · obtain ⟨hstream, hlisting⟩ := step_frame hinv hdir hstep
    intro s hs
    rw [handedStep_of_ne hdir]
    obtain ⟨hunread, hserved⟩ := hall s (hstream.symm.trans hs)
    exact ⟨hlisting ▸ hunread, hlisting ▸ hserved⟩

end Handing

/-- Whatever the allocator refuses, the real streams fail at and the threads do, an open stream
has returned since its `opendir` a first part of the sorted listing of a first part of its own
directory, and hence nothing twice and nothing that is not in the directory. -/
theorem handed_prefix_of_sorted (env : Env) (qsort : Sorter cmpEntry)
    (hseed : (loadSeed env Globals.initial).haveSeed = true) {events : List Event} {sys : System}
    {rs : List Reply}
    (hrun : run (System.step env qsort) System.initial events = some (sys, rs)) {dir : Nat}
    {s : RealStream} (hopened : sys.streams dir = .opened s) :
    ∃ stored, stored <+: s.entries ∧
      handed dir (events.zip rs) <+: sortedListing (loadSeed env Globals.initial) qsort stored ∧
      (handed dir (events.zip rs)).Subperm s.entries := by
  have hinit : HandingInv env qsort dir [] System.initial :=
    ⟨listingInv_initial env, fun s hs => by cases hs⟩
  obtain ⟨_, hall⟩ := run_history (P := HandingInv env qsort dir) hinit
    (fun h hstep => h.step hseed hstep) hrun
  have hhanding := hall s hopened
  have hsubperm : ∀ {stored}, stored <+: s.entries →
      handed dir (events.zip rs) <+: sortedListing (loadSeed env Globals.initial) qsort stored →
      (handed dir (events.zip rs)).Subperm s.entries := by
    intro stored hstored hhanded
    exact hhanded.sublist.subperm.trans
      ((sortedListing_perm _ qsort stored).subperm.trans hstored.sublist.subperm)
  cases hfind : findListing sys.shim.listings dir with
  | none =>
    have hnil := (hhanding.unread hfind).2
    have hprefix : handed dir (events.zip rs) <+:
        sortedListing (loadSeed env Globals.initial) qsort [] := by
      rw [hnil]
      exact List.nil_prefix
    exact ⟨[], List.nil_prefix, hprefix, hsubperm List.nil_prefix hprefix⟩
  | some l =>
    obtain ⟨is64, stored, k, hstored, _, hhanded⟩ := hhanding.served l hfind
    have hprefix : handed dir (events.zip rs) <+:
        sortedListing (loadSeed env Globals.initial) qsort stored := by
      rw [hhanded]
      exact List.take_prefix k _
    exact ⟨stored, hstored, hprefix, hsubperm hstored hprefix⟩

/-- An allocator that grants one entry. -/
def Heap.single : Heap :=
  ⟨true, fun size => size ≤ sizeofEntry, fun size h => by
    have := of_decide_eq_true h
    unfold sizeofEntry at this
    omega⟩

/-- A directory of three entries whose first call has memory for one. -/
theorem handed_prefix_of_sorted_single :
    ∃ sys rs s, run (System.step seededEnv glibcQsort.toSorter) System.initial
        [.opendir 0 7 oneFile none 0, .readdir 0 7 true Heap.single] = some (sys, rs) ∧
      sys.streams 7 = .opened s ∧ ∃ stored, stored <+: s.entries ∧
        handed 7 (([.opendir 0 7 oneFile none 0, .readdir 0 7 true Heap.single] : List Event).zip
          rs) <+: sortedListing (loadSeed seededEnv Globals.initial) glibcQsort.toSorter stored ∧
        (handed 7 (([.opendir 0 7 oneFile none 0, .readdir 0 7 true Heap.single] :
          List Event).zip rs)).Subperm s.entries := by
  obtain ⟨sys, r, s, hstep, hopened⟩ := @step_readdir_enabled seededEnv
    glibcQsort.toSorter { System.initial with
      streams := Function.update (fun _ => .free) 7 (.opened ⟨oneFile, oneFile, none, 0⟩) }
    0 7 ⟨oneFile, oneFile, none, 0⟩ rfl rfl true Heap.single
  have hrun : run (System.step seededEnv glibcQsort.toSorter) System.initial
      [.opendir 0 7 oneFile none 0, .readdir 0 7 true Heap.single] = some (sys, [.done, r]) :=
    run_cons_iff.mpr ⟨_, _, _, rfl, run_cons_iff.mpr ⟨_, _, _, hstep, rfl, rfl⟩, rfl⟩
  have hhanded := handed_prefix_of_sorted seededEnv glibcQsort.toSorter seededEnv_haveSeed hrun
    hopened
  exact ⟨sys, [.done, r], s, hrun, hopened, hhanded⟩

end WirenBoard.DirOrder
