import WirenBoard.Models.DirOrder.Serving

/-!
# What the calls on a stream return

The invariant fixes every reply of every run: the calls on a stream walk through
the sorted listing of its own directory, whatever the other threads and streams
do. A session is one stream opened in any reachable state and used by its owner
alone; it never gets stuck, and its replies count calls and nothing else, so that
a `rewinddir` restarts the shim's stream only where nothing was read before it.
-/

namespace WirenBoard.DirOrder

/-! ## Sessions -/

/-- A call on one open stream. -/
inductive Call where
  /-- `readdir` or `readdir64`. -/
  | readdir (is64 : Bool) (heap : Heap)
  /-- `rewinddir`. -/
  | rewinddir

/-- The event of a call. -/
def Call.event (t dir : Nat) : Call → Event
  | .readdir is64 heap => .readdir t dir is64 heap
  | .rewinddir => .rewinddir t dir

/-- Whether the call asks for an entry. -/
def Call.reads : Call → Bool
  | .readdir _ _ => true
  | .rewinddir => false

/-- A stream is opened and used. -/
def session (t dir : Nat) (ds : List Dirent) (err : Errno) (ret : Int) (calls : List Call) :
    List Event :=
  .opendir t dir ds err ret :: calls.map (Call.event t dir)

/-- The entries that calls returned, NULL being `none`. -/
def returned (rs : List Reply) : List (Option Dirent) :=
  rs.filterMap fun r => match r with
    | .entry d _ => some d
    | _ => none

private theorem returned_append (rs rs' : List Reply) :
    returned (rs ++ rs') = returned rs ++ returned rs' := List.filterMap_append

private theorem countP_isRead_event (t dir : Nat) (calls : List Call) :
    (calls.map (Call.event t dir)).countP (isRead dir) = calls.countP Call.reads := by
  rw [List.countP_map]
  congr 1
  funext c
  cases c <;> simp [Call.event, isRead, Call.reads]

private theorem session_append_singleton (t dir : Nat) (ds : List Dirent) (err : Errno) (ret : Int)
    (calls : List Call) (c : Call) :
    session t dir ds err ret (calls ++ [c]) =
      session t dir ds err ret calls ++ [c.event t dir] := by
  simp [session]

private theorem opendir_not_mem_calls {t dir t' dir' : Nat} {calls : List Call}
    {ds : List Dirent} {err : Errno} {ret : Int} :
    Event.opendir t' dir' ds err ret ∉ calls.map (Call.event t dir) := by
  intro hmem
  obtain ⟨c, _, hc⟩ := List.mem_map.mp hmem
  cases c <;> cases hc

/-- In a session on a fresh process only the calls' own memory matters. -/
theorem granted_session {t dir : Nat} {ds : List Dirent} {err : Errno} {ret : Int}
    {calls : List Call}
    (h : ∀ is64 heap, Call.readdir is64 heap ∈ calls → heap.Succeeds ds.length) :
    Granted (session t dir ds err ret calls) := by
  intro t₁ dir₁ is64 heap hread t₂ ds₂ err₂ ret₂ hopen
  obtain rfl : ds₂ = ds := by
    rcases List.mem_cons.mp hopen with heq | hmem
    · cases heq
      rfl
    · exact absurd hmem opendir_not_mem_calls
  rcases List.mem_cons.mp hread with heq | hmem
  · cases heq
  · obtain ⟨c, hc, heq⟩ := List.mem_map.mp hmem
    cases c with
    | readdir is64' heap' =>
      obtain ⟨-, -, rfl, rfl⟩ : t = t₁ ∧ dir = dir₁ ∧ is64' = is64 ∧ heap' = heap := by
        simpa [Call.event] using heq
      exact h is64' heap' hc
    | rewinddir => cases heq

section Sessions

variable {env : Env} {qsort : Sorter cmpEntry} {t dir : Nat} {ds : List Dirent} {err : Errno}
  {ret : Int} {before : List Event} {sys₀ : System} {rs₀ : List Reply}

private theorem run_session_snoc {sys sys' : System} {rs : List Reply} {r : Reply} {c : Call}
    {calls : List Call}
    (hrun : run (System.step env qsort) sys₀ (session t dir ds err ret calls) = some (sys, rs))
    (hstep : System.step env qsort sys (c.event t dir) = some (sys', r)) :
    run (System.step env qsort) sys₀ (session t dir ds err ret (calls ++ [c])) =
      some (sys', rs ++ [r]) := by
  rw [session_append_singleton]
  exact run_append_iff.mpr
    ⟨sys, rs, [r], hrun, run_cons_iff.mpr ⟨sys', r, [], hstep, rfl, rfl⟩, rfl⟩

/-- A session never gets stuck, and its calls return the entries of the sorted
listing one after another. -/
theorem run_session (hseed : (loadSeed env Globals.initial).haveSeed = true)
    (hbefore : run (System.step env qsort) System.initial before = some (sys₀, rs₀))
    (hthread : sys₀.closing t = none) (hfree : sys₀.streams dir = .free) {calls : List Call}
    (hgrant : Granted (before ++ session t dir ds err ret calls)) :
    ∃ sys rs s, run (System.step env qsort) sys₀ (session t dir ds err ret calls) =
        some (sys, rs) ∧
      sys.closing t = none ∧ sys.streams dir = .opened s ∧
      returned rs = (List.range (calls.countP Call.reads)).map fun k =>
        (sortedListing (loadSeed env Globals.initial) qsort ds)[k]? := by
  induction calls using List.reverseRecOn with
  | nil =>
    refine ⟨{ sys₀ with streams := Function.update sys₀.streams dir (.opened ⟨ds, ds, err, ret⟩) },
      [.done], ⟨ds, ds, err, ret⟩, ?_, hthread, Function.update_self .., rfl⟩
    simp only [session, List.map_nil, run, System.step, hthread, hfree, Option.map_some]
  | append_singleton calls c ih =>
    rw [session_append_singleton, ← List.append_assoc] at hgrant
    obtain ⟨sys, rs, s, hrun, hclosing, hopened, hreturned⟩ := ih hgrant.left
    have hfull : run (System.step env qsort) System.initial
        (before ++ session t dir ds err ret calls) = some (sys, rs₀ ++ rs) :=
      run_append_iff.mpr ⟨sys₀, rs₀, rs, hbefore, hrun, rfl⟩
    have hinv := streamInv_run hseed hgrant.left hfull
    cases c with
    | readdir is64 heap =>
      obtain ⟨d, shim, s', err', hread⟩ : ∃ d shim s' err',
          sys.shim.readdir env qsort heap dir is64 s = (d, shim, s', err') := ⟨_, _, _, _, rfl⟩
      have hstep : System.step env qsort sys (.readdir t dir is64 heap) =
          some ({ sys with shim, streams := Function.update sys.streams dir (.opened s') },
            .entry d err') := by
        simp only [System.step, hclosing, hopened, hread]
      obtain ⟨-, ds', k, err'', hview, hreply⟩ := hinv.readdir hseed hgrant hstep
      obtain ⟨rfl, rfl⟩ : ds' = ds ∧ k = calls.countP Call.reads := by
        have h := view_opendir_append hview fun _ _ _ _ => opendir_not_mem_calls
        rw [countP_isRead_event] at h
        simpa using h
      refine ⟨_, _, s', run_session_snoc hrun hstep, hclosing, Function.update_self .., ?_⟩
      rw [returned_append, hreturned, hreply, List.countP_append,
        show [Call.readdir is64 heap].countP Call.reads = 1 from rfl, List.range_succ,
        List.map_append]
      rfl
    | rewinddir =>
      have hstep : System.step env qsort sys (.rewinddir t dir) =
          some ({ sys with streams :=
            Function.update sys.streams dir (.opened { s with pending := s.entries }) },
            .done) := by
        simp only [System.step, hclosing, hopened]
      refine ⟨_, _, { s with pending := s.entries }, run_session_snoc hrun hstep, hclosing,
        Function.update_self .., ?_⟩
      rw [returned_append, hreturned, List.countP_append]
      simp [returned, Call.reads]

/-- The calls behind the first ones of a session go on where those stopped. -/
theorem returned_drop_session (hseed : (loadSeed env Globals.initial).haveSeed = true)
    (hbefore : run (System.step env qsort) System.initial before = some (sys₀, rs₀))
    (hthread : sys₀.closing t = none) (hfree : sys₀.streams dir = .free) {calls after : List Call}
    (hgrant : Granted (before ++ session t dir ds err ret (calls ++ after))) :
    ∃ sys rs, run (System.step env qsort) sys₀ (session t dir ds err ret (calls ++ after)) =
        some (sys, rs) ∧
      returned (rs.drop (calls.length + 1)) = (List.range (after.countP Call.reads)).map fun k =>
        (sortedListing (loadSeed env Globals.initial) qsort ds)[calls.countP Call.reads + k]? := by
  obtain ⟨sys, rs, _, hrun, _, _, hall⟩ := run_session hseed hbefore hthread hfree hgrant
  have hsplit : session t dir ds err ret (calls ++ after) =
      session t dir ds err ret calls ++ after.map (Call.event t dir) := by simp [session]
  rw [hsplit, ← List.append_assoc] at hgrant
  obtain ⟨sys₁, rs₁, _, hrun₁, _, _, hfirst⟩ :=
    run_session hseed hbefore hthread hfree hgrant.left
  refine ⟨sys, rs, hrun, ?_⟩
  rw [hsplit] at hrun
  obtain ⟨sys₂, rs₂, rs₃, hrun₂, _, rfl⟩ := run_append_iff.mp hrun
  obtain ⟨-, rfl⟩ : sys₂ = sys₁ ∧ rs₂ = rs₁ := by
    rw [hrun₁] at hrun₂
    simpa using hrun₂.symm
  have hlength : rs₂.length = calls.length + 1 := by
    rw [length_of_run hrun₂]
    simp [session]
  rw [List.drop_left' hlength]
  rw [returned_append, hfirst, List.countP_append, List.range_add, List.map_append,
    List.map_map] at hall
  exact List.append_cancel_left hall

end Sessions

/-! ## Every run -/

/-- Every listing belongs to an open stream and is the one its history calls for. -/
theorem StreamInv.eq_served {env : Env} {qsort : Sorter cmpEntry} {events : List Event}
    {sys : System} (hinv : StreamInv env qsort events sys) {l : Listing}
    (hmem : l ∈ sys.shim.listings) :
    ∃ ds k is64, view l.dir events = some (ds, k) ∧
      l = servedListing (loadSeed env Globals.initial) qsort l.dir is64 ds k := by
  have hfind : findListing sys.shim.listings l.dir = some l :=
    findListing_of_mem hinv.nodup hmem
  cases hview : view l.dir events with
  | none =>
    rw [(hinv.shut l.dir hview).1] at hfind
    cases hfind
  | some v =>
    obtain ⟨ds, k⟩ := v
    have hserving := hinv.serving l.dir ds k hview
    rcases Nat.eq_zero_or_pos k with rfl | hpos
    · rw [hserving.fresh rfl] at hfind
      cases hfind
    · obtain ⟨is64, hcached⟩ := hserving.cached hpos
      rw [hfind] at hcached
      exact ⟨ds, k, is64, rfl, Option.some.inj hcached⟩

/-- In every run, whatever the threads, the interleaving and the reuse of addresses,
a call on a stream returns the entry of that stream's own sorted listing that its
number since the `opendir` selects, and NULL past the end. No address ever has two
listings, and every listing is that of the stream now open at its address. -/
theorem readdir_returns_own_listing (env : Env) (qsort : Sorter cmpEntry)
    (hseed : (loadSeed env Globals.initial).haveSeed = true) (events : List Event)
    (hgrant : Granted events) (sys : System) (rs : List Reply)
    (hrun : run (System.step env qsort) System.initial events = some (sys, rs)) :
    (∀ before t dir ds err ret mid t' is64 heap after,
      events = (before ++ Event.opendir t dir ds err ret :: mid) ++
        Event.readdir t' dir is64 heap :: after →
      (∀ t' ds' err' ret', Event.opendir t' dir ds' err' ret' ∉ mid) →
      ∃ err', rs[before.length + 1 + mid.length]? =
        some (.entry (sortedListing (loadSeed env Globals.initial) qsort ds)[mid.countP
          (isRead dir)]? err')) ∧
      (sys.shim.listings.map Listing.dir).Nodup ∧
      ∀ l ∈ sys.shim.listings, ∃ s before t err ret mid,
        sys.streams l.dir = .opened s ∧
        events = before ++ Event.opendir t l.dir s.entries err ret :: mid ∧
        (∀ t' ds' err' ret', Event.opendir t' l.dir ds' err' ret' ∉ mid) ∧
        (∀ t', Event.unlink t' l.dir ∉ mid) ∧
        l.e.map Entry.u = sortedListing (loadSeed env Globals.initial) qsort s.entries ∧
        l.pos = min (mid.countP (isRead l.dir)) l.e.length := by
  refine ⟨?_, (streamInv_run hseed hgrant hrun).nodup, ?_⟩
  · intro before t dir ds err ret mid t' is64 heap after hevents hno
    subst hevents
    obtain ⟨u, rs₁, v, r, hu, hstep, hreply⟩ := run_reply hrun
    have hprefix : Granted ((before ++ Event.opendir t dir ds err ret :: mid) ++
        [.readdir t' dir is64 heap]) := by
      rw [List.append_cons] at hgrant
      exact hgrant.left
    have hinv := streamInv_run hseed hprefix.left hu
    obtain ⟨-, ds', k, err', hview, rfl⟩ := hinv.readdir hseed hprefix hstep
    obtain ⟨rfl, rfl⟩ : ds' = ds ∧ k = mid.countP (isRead dir) := by
      simpa using view_opendir_append hview hno
    refine ⟨err', ?_⟩
    rw [← hreply, List.length_append, List.length_cons]
    congr 1
    omega
  · intro l hmem
    have hinv := streamInv_run hseed hgrant hrun
    obtain ⟨ds, k, is64, hview, hl⟩ := hinv.eq_served hmem
    obtain ⟨s, hs, rfl, _⟩ := (hinv.serving l.dir ds k hview).stream
    obtain ⟨before, t, err, ret, mid, hevents, hno, hnu, rfl⟩ := exists_of_view hview
    refine ⟨s, before, t, err, ret, mid, hs, hevents, hno, hnu, ?_, ?_⟩
    · rw [hl]
      rfl
    · rw [hl]
      simp only [servedListing, length_sort_ranked]

/-- A seed of equal digits, the other variables unset. -/
def seededEnv : Env := ⟨some ⟨List.replicate 32 (ch 'a'), by decide, []⟩, none, none⟩

/-- The seed is accepted. -/
theorem seededEnv_haveSeed : (loadSeed seededEnv Globals.initial).haveSeed = true := by
  decide +kernel

private theorem granted_oneFile (t dir : Nat) (calls : List Call)
    (h : ∀ is64 heap, Call.readdir is64 heap ∈ calls → heap = Heap.granting) :
    Granted (session t dir oneFile none 0 calls) := by
  apply granted_session
  intro is64 heap hmem
  rw [h is64 heap hmem]
  exact Heap.granting_succeeds (by decide)

private theorem granted_of_granting {events : List Event}
    (hheap : ∀ t dir is64 heap, Event.readdir t dir is64 heap ∈ events → heap = Heap.granting)
    (hlen : ∀ t dir ds err ret, Event.opendir t dir ds err ret ∈ events → ds.length ≤ 255) :
    Granted events := by
  intro t dir is64 heap hread t' ds err ret hopen
  have hrequest : ds.length * sizeofEntry < 2 ^ 63 := by
    have := hlen t' dir ds err ret hopen
    unfold sizeofEntry
    omega
  rw [hheap t dir is64 heap hread]
  exact Heap.granting_succeeds hrequest

/-- A directory that holds two files. -/
def twoFiles : List Dirent := .ofName ⟨[ch 'b'], by decide, by decide, by decide⟩ :: oneFile

/-- One thread lists a directory at address 7, another one an empty directory at address 8;
address 7 is closed, handed out again for a larger directory and read by both threads. -/
def reusedAddress : List Event :=
  [.opendir 0 7 oneFile none 0, .opendir 1 8 (oneFile.drop 1) none 3,
   .readdir 0 7 true Heap.granting, .readdir 1 8 false Heap.granting, .unlink 0 7, .close 0 7,
   .opendir 1 7 twoFiles none 0, .readdir 1 7 true Heap.granting,
   .readdir 0 7 false Heap.granting]

private theorem granted_reusedAddress : Granted reusedAddress := by
  apply granted_of_granting
  · intro t dir is64 heap h
    simp only [reusedAddress, List.mem_cons, Event.readdir.injEq, reduceCtorEq, false_or, or_false,
      List.not_mem_nil] at h
    rcases h with ⟨-, -, -, rfl⟩ | ⟨-, -, -, rfl⟩ | ⟨-, -, -, rfl⟩ | ⟨-, -, -, rfl⟩ <;> rfl
  · intro t dir ds err ret h
    simp only [reusedAddress, List.mem_cons, Event.opendir.injEq, reduceCtorEq, false_or, or_false,
      List.not_mem_nil] at h
    rcases h with ⟨-, -, rfl, -⟩ | ⟨-, -, rfl, -⟩ | ⟨-, -, rfl, -⟩ <;> decide

/-- No event of it is disabled. -/
theorem run_reusedAddress :
    ∃ sys rs, run (System.step seededEnv glibcQsort.toSorter) System.initial reusedAddress =
      some (sys, rs) := by
  have hsome : (run (System.step seededEnv glibcQsort.toSorter) System.initial
      reusedAddress).isSome = true := by decide +kernel
  obtain ⟨⟨sys, rs⟩, hrun⟩ := Option.isSome_iff_exists.mp hsome
  exact ⟨sys, rs, hrun⟩

/-- Each of the two streams open at a time returns its own first entry, and the address handed
out again returns the second entry of its new directory at the second call. -/
theorem readdir_returns_own_listing_reused :
    ∃ sys rs, run (System.step seededEnv glibcQsort.toSorter) System.initial reusedAddress =
        some (sys, rs) ∧
      (∃ err, rs[2]? = some (.entry (sortedListing (loadSeed seededEnv Globals.initial)
        glibcQsort.toSorter oneFile)[0]? err)) ∧
      (∃ err, rs[3]? = some (.entry (sortedListing (loadSeed seededEnv Globals.initial)
        glibcQsort.toSorter (oneFile.drop 1))[0]? err)) ∧
      ∃ err, rs[8]? = some (.entry (sortedListing (loadSeed seededEnv Globals.initial)
        glibcQsort.toSorter twoFiles)[1]? err) := by
  obtain ⟨sys, rs, hrun⟩ := run_reusedAddress
  obtain ⟨hreplies, -⟩ := readdir_returns_own_listing seededEnv glibcQsort.toSorter
    seededEnv_haveSeed reusedAddress granted_reusedAddress sys rs hrun
  refine ⟨sys, rs, hrun, ?_, ?_, ?_⟩
  · exact hreplies [] 0 7 oneFile none 0 [.opendir 1 8 (oneFile.drop 1) none 3] 0 true
      Heap.granting _ rfl (by simp)
  · exact hreplies (reusedAddress.take 1) 1 8 (oneFile.drop 1) none 3
      [.readdir 0 7 true Heap.granting] 1 false Heap.granting _ rfl (by simp)
  · exact hreplies (reusedAddress.take 6) 1 7 twoFiles none 0 [.readdir 1 7 true Heap.granting] 0
      false Heap.granting [] rfl (by simp)

/-! ## Rewinding -/

/-- Reading a list without duplicates from position `p` shows what reading it from the
start shows only where nothing is skipped, asked for or there. -/
private theorem getElem?_shift_iff {α : Type} {l : List α} (hn : l.Nodup) (p m : Nat) :
    ((List.range m).map fun k => l[p + k]?) = ((List.range m).map fun k => l[k]?) ↔
      p = 0 ∨ m = 0 ∨ l = [] := by
  constructor
  · intro h
    rcases Nat.eq_zero_or_pos m with hm | hm
    · exact .inr (.inl hm)
    · rcases List.eq_nil_or_concat l with hl | ⟨_, _, hl⟩
      · exact .inr (.inr hl)
      · have hpos : 0 < l.length := by simp [hl]
        have hzero := List.map_inj_left.mp h 0 (List.mem_range.mpr hm)
        exact .inl ((List.getElem?_inj hpos hn).mp hzero.symm).symm
  · rintro (rfl | rfl | rfl)
    · simp only [Nat.zero_add]
    · rfl
    · simp only [List.getElem?_nil]

/-- After the last `rewinddir` of a session the calls return the sorted listing from
its first entry exactly when no call before it had asked for an entry, no call
follows, or the directory is empty: the shim's position is not reset. -/
theorem rewinddir_restarts_iff (env : Env) (qsort : Sorter cmpEntry)
    (hseed : (loadSeed env Globals.initial).haveSeed = true) {before : List Event} {sys₀ : System}
    {rs₀ : List Reply}
    (hbefore : run (System.step env qsort) System.initial before = some (sys₀, rs₀))
    {t dir : Nat} (hthread : sys₀.closing t = none) (hfree : sys₀.streams dir = .free)
    {ds : List Dirent} (hnames : (ds.map Dirent.name).Nodup) (err : Errno) (ret : Int)
    (calls after : List Call) (hafter : ∀ c ∈ after, c.reads = true)
    (hgrant : Granted (before ++ session t dir ds err ret (calls ++ .rewinddir :: after))) :
    ∃ sys rs, run (System.step env qsort) sys₀
        (session t dir ds err ret (calls ++ .rewinddir :: after)) = some (sys, rs) ∧
      (returned (rs.drop (calls.length + 2)) = ((List.range after.length).map fun k =>
          (sortedListing (loadSeed env Globals.initial) qsort ds)[k]?) ↔
        (∀ c ∈ calls, c.reads = false) ∨ after = [] ∨ ds = []) := by
  have hcons : calls ++ Call.rewinddir :: after = (calls ++ [.rewinddir]) ++ after := by simp
  rw [hcons] at hgrant ⊢
  obtain ⟨sys, rs, hrun, hreturned⟩ := returned_drop_session hseed hbefore hthread hfree hgrant
  refine ⟨sys, rs, hrun, ?_⟩
  have hperm := sortedListing_perm (loadSeed env Globals.initial) qsort ds
  have hnodup : (sortedListing (loadSeed env Globals.initial) qsort ds).Nodup :=
    hperm.nodup_iff.mpr (List.Nodup.of_map _ hnames)
  have hcount : (calls ++ [Call.rewinddir]).countP Call.reads = calls.countP Call.reads := by
    rw [List.countP_append]
    rfl
  rw [List.length_append, List.length_singleton, hcount, List.countP_eq_length.mpr hafter]
    at hreturned
  rw [hreturned, getElem?_shift_iff hnodup, List.countP_eq_zero, List.length_eq_zero_iff,
    ← List.length_eq_zero_iff (l := sortedListing _ _ _), hperm.length_eq, List.length_eq_zero_iff]
  simp only [Bool.not_eq_true]

/-- A stream rewound before its first call starts at the first entry. -/
theorem rewinddir_restarts_iff_unread :
    ∃ sys rs, run (System.step seededEnv glibcQsort.toSorter) System.initial
        (session 0 7 oneFile none 0 [.rewinddir, .readdir true Heap.granting]) = some (sys, rs) ∧
      returned (rs.drop 2) = [(sortedListing (loadSeed seededEnv Globals.initial)
        glibcQsort.toSorter oneFile)[0]?] := by
  obtain ⟨sys, rs, hrun, hiff⟩ := rewinddir_restarts_iff seededEnv glibcQsort.toSorter
    seededEnv_haveSeed (run_nil _ System.initial) (show System.initial.closing 0 = none from rfl)
    (show System.initial.streams 7 = .free from rfl)
    (show (oneFile.map Dirent.name).Nodup by decide) none 0 [] [.readdir true Heap.granting]
    (by simp [Call.reads]) (granted_oneFile 0 7 _ (by simp))
  exact ⟨sys, rs, hrun, hiff.mpr (.inl (by simp))⟩

/-- A stream rewound after its first call goes on with the second entry. -/
theorem rewinddir_does_not_restart :
    ∃ sys rs, run (System.step seededEnv glibcQsort.toSorter) System.initial
        (session 0 7 oneFile none 0
          [.readdir true Heap.granting, .rewinddir, .readdir true Heap.granting]) =
        some (sys, rs) ∧
      returned (rs.drop 3) ≠ [(sortedListing (loadSeed seededEnv Globals.initial)
        glibcQsort.toSorter oneFile)[0]?] := by
  have hgrant := granted_oneFile 0 7 ([.readdir true Heap.granting, .rewinddir] ++
    [.readdir true Heap.granting]) (by simp)
  obtain ⟨sys, rs, hrun, hreturned⟩ := returned_drop_session seededEnv_haveSeed
    (run_nil (System.step seededEnv glibcQsort.toSorter) System.initial) rfl rfl hgrant
  refine ⟨sys, rs, hrun, ?_⟩
  have hperm := sortedListing_perm (loadSeed seededEnv Globals.initial) glibcQsort.toSorter oneFile
  have hnodup := hperm.nodup_iff.mpr (by decide)
  have hpos : 0 < (sortedListing (loadSeed seededEnv Globals.initial) glibcQsort.toSorter
      oneFile).length := by
    rw [hperm.length_eq]
    decide
  rw [show [Call.readdir true Heap.granting, .rewinddir].length + 1 = 3 from rfl] at hreturned
  rw [hreturned]
  intro h
  have hzero : 0 = 1 := (List.getElem?_inj hpos hnodup).mp (List.cons.inj h).1.symm
  exact absurd hzero (by decide)

end WirenBoard.DirOrder
