import WirenBoard.Models.DirOrder.Streams

/-!
# The invariant of the streams and their listings

The invariant relates the state of the process to the history of its events: an
address without an open stream has no listing, and an open stream has none before
its first call and afterwards the sorted listing of its own directory, at the
number of entries asked for since its `opendir`. Every event keeps it, whichever
thread makes it and whatever the address showed before, and it fixes every reply.
Rewinding is part of the machine and does not appear in the invariant: the shim
does not see it.
-/

namespace WirenBoard.DirOrder

/-! ## The history of an address -/

/-- What one event does to an address: the directory shown there and the number of
entries asked for since its `opendir`, or nothing when no stream is open. -/
def viewStep (dir : Nat) (v : Option (List Dirent × Nat)) : Event → Option (List Dirent × Nat)
  | .opendir _ dir' ds _ _ => if dir' = dir then some (ds, 0) else v
  | .readdir _ dir' _ _ => if dir' = dir then v.map fun p => (p.1, p.2 + 1) else v
  | .unlink _ dir' => if dir' = dir then none else v
  | .close _ _ => v
  | .rewinddir _ _ => v

/-- The view of an address after a history. -/
def view (dir : Nat) (events : List Event) : Option (List Dirent × Nat) :=
  events.foldl (viewStep dir) none

private theorem view_append_singleton (dir : Nat) (events : List Event) (e : Event) :
    view dir (events ++ [e]) = viewStep dir (view dir events) e := by
  rw [view, List.foldl_append]
  rfl

/-- A call that asks for an entry of the stream at `dir`. -/
def isRead (dir : Nat) : Event → Bool
  | .readdir _ dir' _ _ => dir' = dir
  | _ => false

private theorem not_mem_append_singleton {mid : List Event} {e e' : Event} (h : e' ∉ mid)
    (hne : e' ≠ e) : e' ∉ mid ++ [e] := by
  intro hmem
  rcases List.mem_append.mp hmem with hmem | hmem
  · exact h hmem
  · exact hne (List.mem_singleton.mp hmem)

/-- The stream shown at an address was opened there and neither replaced nor unlinked
since; its calls are counted. -/
theorem exists_of_view {dir : Nat} {events : List Event} {ds : List Dirent} {k : Nat}
    (h : view dir events = some (ds, k)) :
    ∃ before t err ret mid, events = before ++ Event.opendir t dir ds err ret :: mid ∧
      (∀ t' ds' err' ret', Event.opendir t' dir ds' err' ret' ∉ mid) ∧
      (∀ t', Event.unlink t' dir ∉ mid) ∧ k = mid.countP (isRead dir) := by
  induction events using List.reverseRecOn generalizing k with
  | nil => simp [view] at h
  | append_singleton events e ih =>
    have hold : ∀ {j}, view dir events = some (ds, j) →
        (∀ t' ds' err' ret', e ≠ .opendir t' dir ds' err' ret') → (∀ t', e ≠ .unlink t' dir) →
        k = j + [e].countP (isRead dir) →
        ∃ before t err ret mid, events ++ [e] = before ++ Event.opendir t dir ds err ret :: mid ∧
          (∀ t' ds' err' ret', Event.opendir t' dir ds' err' ret' ∉ mid) ∧
          (∀ t', Event.unlink t' dir ∉ mid) ∧ k = mid.countP (isRead dir) := by
      intro j hj hopen hunlink hk
      obtain ⟨before, t, err, ret, mid, rfl, hno, hnu, rfl⟩ := ih hj
      refine ⟨before, t, err, ret, mid ++ [e], by simp, ?_, ?_, by rw [hk, List.countP_append]⟩
      · exact fun t' ds' err' ret' =>
          not_mem_append_singleton (hno t' ds' err' ret') (hopen t' ds' err' ret').symm
      · exact fun t' => not_mem_append_singleton (hnu t') (hunlink t').symm
    rw [view_append_singleton] at h
    cases e with
    | opendir t dir' ds' err ret =>
      simp only [viewStep] at h
      split at h
      · rename_i hd
        subst hd
        obtain ⟨rfl, rfl⟩ : ds' = ds ∧ 0 = k := by simpa using h
        exact ⟨events, t, err, ret, [], rfl, by simp, by simp, rfl⟩
      · rename_i hd
        exact hold h (by simp [hd]) (by simp) (by simp [isRead])
    | readdir t dir' is64 heap =>
      simp only [viewStep] at h
      split at h
      · rename_i hd
        obtain ⟨⟨ds', j⟩, hj, heq⟩ := Option.map_eq_some_iff.mp h
        obtain ⟨rfl, rfl⟩ : ds' = ds ∧ j + 1 = k := by simpa using heq
        exact hold hj (by simp) (by simp) (by simp [isRead, hd])
      · rename_i hd
        exact hold h (by simp) (by simp) (by simp [isRead, hd])
    | unlink t dir' =>
      simp only [viewStep] at h
      split at h
      · exact absurd h (by simp)
      · rename_i hd
        exact hold h (by simp) (by simp [hd]) (by simp [isRead])
    | close t dir' => exact hold h (by simp) (by simp) (by simp [isRead])
    | rewinddir t dir' => exact hold h (by simp) (by simp) (by simp [isRead])

/-- Without a new `opendir`, the entries asked for are counted. -/
theorem view_opendir_append {t dir : Nat} {ds : List Dirent} {err : Errno} {ret : Int}
    {before mid : List Event} {v : List Dirent × Nat}
    (hview : view dir (before ++ .opendir t dir ds err ret :: mid) = some v)
    (hno : ∀ t' ds' err' ret', Event.opendir t' dir ds' err' ret' ∉ mid) :
    v = (ds, mid.countP (isRead dir)) := by
  induction mid using List.reverseRecOn generalizing v with
  | nil =>
    rw [view_append_singleton, viewStep, if_pos rfl] at hview
    exact (Option.some.inj hview).symm
  | append_singleton mid e ih =>
    rw [← List.cons_append, ← List.append_assoc, view_append_singleton] at hview
    have hno' : ∀ t' ds' err' ret', Event.opendir t' dir ds' err' ret' ∉ mid :=
      fun t' ds' err' ret' h => hno t' ds' err' ret' (List.mem_append_left _ h)
    rw [List.countP_append, List.countP_singleton]
    cases e with
    | opendir t' dir' ds' err' ret' =>
      have hne : dir' ≠ dir := fun h => hno t' ds' err' ret' (by simp [h])
      rw [viewStep, if_neg hne] at hview
      exact ih hview hno'
    | readdir t' dir' is64 heap =>
      rw [viewStep] at hview
      by_cases hd : dir' = dir
      · rw [if_pos hd] at hview
        obtain ⟨p, hp, rfl⟩ := Option.map_eq_some_iff.mp hview
        rw [ih hp hno']
        simp [isRead, hd]
      · rw [if_neg hd] at hview
        rw [ih hview hno']
        simp [isRead, hd]
    | unlink t' dir' =>
      rw [viewStep] at hview
      split at hview
      · exact absurd hview (by simp)
      · exact ih hview hno'
    | close t' dir' => exact ih hview hno'
    | rewinddir t' dir' => exact ih hview hno'

/-! ## The invariant -/

/-- Every call has the memory to store the directories opened at its address. -/
def Granted (events : List Event) : Prop :=
  ∀ t dir is64 heap, Event.readdir t dir is64 heap ∈ events →
    ∀ t' ds err ret, Event.opendir t' dir ds err ret ∈ events → heap.Succeeds ds.length

/-- What an open stream and its listing look like after `k` calls. -/
structure Serving (g : Globals) (qsort : Sorter cmpEntry) (sys : System) (dir : Nat)
    (ds : List Dirent) (k : Nat) : Prop where
  /-- The real stream is open over the directory; nothing was read before the first call. -/
  stream : ∃ s, sys.streams dir = .opened s ∧ s.entries = ds ∧ (k = 0 → s.pending = ds)
  /-- Before the first call there is no listing. -/
  fresh : k = 0 → findListing sys.shim.listings dir = none
  /-- Afterwards it is the directory's own, at the number of calls. -/
  cached : 0 < k → ∃ is64,
    findListing sys.shim.listings dir = some (servedListing g qsort dir is64 ds k)

/-- The state after a history of events. -/
structure StreamInv (env : Env) (qsort : Sorter cmpEntry) (events : List Event) (sys : System) :
    Prop where
  /-- The globals are those that `load_seed` leaves, now or at the first call. -/
  globals : (sys.shim.init env).globals = loadSeed env Globals.initial
  /-- No address has two listings. -/
  nodup : (sys.shim.listings.map Listing.dir).Nodup
  /-- An address without an open stream has no listing. -/
  shut : ∀ dir, view dir events = none →
    findListing sys.shim.listings dir = none ∧ ∀ s, sys.streams dir ≠ .opened s
  /-- An address with an open stream serves that stream's directory. -/
  serving : ∀ dir ds k, view dir events = some (ds, k) →
    Serving (loadSeed env Globals.initial) qsort sys dir ds k

/-- The address an event is about. -/
def Event.dir : Event → Nat
  | .opendir _ dir _ _ _ => dir
  | .readdir _ dir _ _ => dir
  | .unlink _ dir => dir
  | .close _ dir => dir
  | .rewinddir _ dir => dir

private theorem viewStep_of_ne {dir : Nat} {e : Event} (h : dir ≠ e.dir)
    (v : Option (List Dirent × Nat)) : viewStep dir v e = v := by
  cases e <;> simp only [viewStep, Event.dir] at h ⊢ <;> rw [if_neg (Ne.symm h)]

/-- `init` makes no listing. -/
@[simp] theorem Shim.init_listings (env : Env) (sh : Shim) :
    (sh.init env).listings = sh.listings := by
  unfold Shim.init
  split <;> rfl

/-- `init` has run afterwards. -/
@[simp] theorem Shim.init_once (env : Env) (sh : Shim) : (sh.init env).once = true := by
  unfold Shim.init
  split
  · assumption
  · rfl

/-- `init` runs once. -/
theorem Shim.init_of_once {env : Env} {sh : Shim} (h : sh.once = true) : sh.init env = sh := by
  rw [Shim.init, if_pos h]

section Preservation

variable {env : Env} {qsort : Sorter cmpEntry} {events : List Event} {sys sys' : System}

/-- Serving depends on what the address shows only. -/
theorem Serving.congr {g : Globals} {dir : Nat} {ds : List Dirent} {k : Nat}
    (h : Serving g qsort sys dir ds k) (hstream : sys'.streams dir = sys.streams dir)
    (hfind : findListing sys'.shim.listings dir = findListing sys.shim.listings dir) :
    Serving g qsort sys' dir ds k := by
  refine ⟨?_, ?_, ?_⟩
  · rw [hstream]
    exact h.stream
  · rw [hfind]
    exact h.fresh
  · rw [hfind]
    exact h.cached

/-- An event keeps the invariant when it keeps it at its own address and does not
touch the others. -/
theorem StreamInv.extend {e : Event} (hinv : StreamInv env qsort events sys)
    (hglobals : (sys'.shim.init env).globals = (sys.shim.init env).globals)
    (hnodup : (sys'.shim.listings.map Listing.dir).Nodup)
    (hframe : ∀ dir, dir ≠ e.dir → sys'.streams dir = sys.streams dir ∧
      findListing sys'.shim.listings dir = findListing sys.shim.listings dir)
    (hshut : viewStep e.dir (view e.dir events) e = none →
      findListing sys'.shim.listings e.dir = none ∧ ∀ s, sys'.streams e.dir ≠ .opened s)
    (hserving : ∀ ds k, viewStep e.dir (view e.dir events) e = some (ds, k) →
      Serving (loadSeed env Globals.initial) qsort sys' e.dir ds k) :
    StreamInv env qsort (events ++ [e]) sys' := by
  refine ⟨hglobals.trans hinv.globals, hnodup, ?_, ?_⟩
  · intro dir hview
    rw [view_append_singleton] at hview
    by_cases hd : dir = e.dir
    · subst hd
      exact hshut hview
    · rw [viewStep_of_ne hd] at hview
      rw [(hframe dir hd).1, (hframe dir hd).2]
      exact hinv.shut dir hview
  · intro dir ds k hview
    rw [view_append_singleton] at hview
    by_cases hd : dir = e.dir
    · subst hd
      exact hserving ds k hview
    · rw [viewStep_of_ne hd] at hview
      exact (hinv.serving dir ds k hview).congr (hframe dir hd).1 (hframe dir hd).2

/-- An open stream shows its directory. -/
theorem StreamInv.view_of_opened (hinv : StreamInv env qsort events sys) {dir : Nat}
    {s : RealStream} (h : sys.streams dir = .opened s) :
    ∃ k, view dir events = some (s.entries, k) := by
  cases hview : view dir events with
  | none => exact absurd h ((hinv.shut dir hview).2 s)
  | some v =>
    obtain ⟨ds, k⟩ := v
    obtain ⟨s', hs', rfl, _⟩ := (hinv.serving dir ds k hview).stream
    rw [h] at hs'
    cases hs'
    exact ⟨k, rfl⟩

/-- An address without an open stream shows nothing. -/
theorem StreamInv.view_eq_none (hinv : StreamInv env qsort events sys) {dir : Nat}
    (h : ∀ s, sys.streams dir ≠ .opened s) : view dir events = none := by
  cases hview : view dir events with
  | none => rfl
  | some v =>
    obtain ⟨ds, k⟩ := v
    obtain ⟨s, hs, _⟩ := (hinv.serving dir ds k hview).stream
    exact absurd hs (h s)

private theorem update_frame (f : Nat → Slot) (dir : Nat) (v : Slot) {dir' : Nat} (h : dir' ≠ dir) :
    Function.update f dir v dir' = f dir' := Function.update_of_ne h v f

/-- A new stream serves its directory from the start. -/
theorem StreamInv.opendir (hinv : StreamInv env qsort events sys) {t dir : Nat}
    {ds : List Dirent} {err : Errno} {ret : Int} {r : Reply}
    (h : sys.step env qsort (.opendir t dir ds err ret) = some (sys', r)) :
    StreamInv env qsort (events ++ [.opendir t dir ds err ret]) sys' := by
  simp only [System.step] at h
  split at h <;> cases h
  rename_i _ hfree
  have hview : view dir events = none := hinv.view_eq_none (by simp [hfree])
  refine hinv.extend rfl hinv.nodup ?_ ?_ ?_
  · exact fun dir' hd => ⟨update_frame _ _ _ hd, rfl⟩
  · simp [viewStep, Event.dir]
  · intro ds' k hk
    obtain ⟨rfl, rfl⟩ : ds = ds' ∧ 0 = k := by simpa [viewStep, Event.dir] using hk
    exact ⟨⟨⟨ds, ds, err, ret⟩, Function.update_self .., rfl, fun _ => rfl⟩,
      fun _ => (hinv.shut dir hview).1, fun hpos => absurd hpos (Nat.lt_irrefl 0)⟩

/-- Dropping the listing leaves an address that shows nothing. -/
theorem StreamInv.unlink (hinv : StreamInv env qsort events sys) {t dir : Nat} {r : Reply}
    (h : sys.step env qsort (.unlink t dir) = some (sys', r)) :
    StreamInv env qsort (events ++ [.unlink t dir]) sys' := by
  simp only [System.step] at h
  split at h <;> cases h
  have hfind := findListing_eraseP hinv.nodup dir
  refine hinv.extend ?_ ?_ ?_ ?_ ?_
  · rw [Shim.init_of_once (by simp [Shim.unlink])]
    rfl
  · simp only [Shim.unlink, Shim.init_listings]
    exact hinv.nodup.sublist ((List.eraseP_sublist).map Listing.dir)
  · intro dir' hd
    refine ⟨update_frame _ _ _ hd, ?_⟩
    simp only [Shim.unlink, Shim.init_listings]
    rw [hfind, if_neg (show dir' ≠ dir from hd)]
  · intro _
    refine ⟨?_, by simp [Event.dir]⟩
    simp only [Shim.unlink, Shim.init_listings, Event.dir]
    rw [hfind, if_pos rfl]
  · simp [viewStep, Event.dir]

/-- The real `closedir` changes nothing that is shown. -/
theorem StreamInv.close (hinv : StreamInv env qsort events sys) {t dir : Nat} {r : Reply}
    (h : sys.step env qsort (.close t dir) = some (sys', r)) :
    StreamInv env qsort (events ++ [.close t dir]) sys' := by
  simp only [System.step] at h
  split at h
  · rename_i _ hclosing
    split at h <;> cases h
    have hview : view dir events = none := hinv.view_eq_none (by simp [hclosing])
    refine hinv.extend rfl hinv.nodup ?_ ?_ ?_
    · exact fun dir' hd => ⟨update_frame _ _ _ hd, rfl⟩
    · exact fun _ => ⟨(hinv.shut dir hview).1, by simp [Event.dir]⟩
    · simp [viewStep, Event.dir, hview]
  · cases h

/-- The shim does not see a `rewinddir`. -/
theorem StreamInv.rewinddir (hinv : StreamInv env qsort events sys) {t dir : Nat} {r : Reply}
    (h : sys.step env qsort (.rewinddir t dir) = some (sys', r)) :
    StreamInv env qsort (events ++ [.rewinddir t dir]) sys' := by
  simp only [System.step] at h
  split at h <;> cases h
  rename_i s _ hopened
  obtain ⟨k, hview⟩ := hinv.view_of_opened hopened
  have hserving := hinv.serving dir s.entries k hview
  refine hinv.extend rfl hinv.nodup ?_ ?_ ?_
  · exact fun dir' hd => ⟨update_frame _ _ _ hd, rfl⟩
  · simp [viewStep, Event.dir, hview]
  · intro ds k' hk
    obtain ⟨rfl, rfl⟩ : s.entries = ds ∧ k = k' := by simpa [viewStep, Event.dir, hview] using hk
    exact ⟨⟨{ s with pending := s.entries }, Function.update_self .., rfl, fun _ => rfl⟩,
      hserving.fresh, hserving.cached⟩

/-- With a seed loaded the call is `next_entry`. -/
theorem Shim.readdir_eq {sh : Shim} {heap : Heap} {dir : Nat} {is64 : Bool} {s s' : RealStream}
    {d : Option Dirent} {ls : List Listing} {err : Errno}
    (hseed : (sh.init env).globals.haveSeed = true)
    (hnext : nextEntry heap (sh.init env).globals qsort dir is64 s sh.listings = (d, ls, s', err)) :
    sh.readdir env qsort heap dir is64 s = (d, { sh.init env with listings := ls }, s', err) := by
  simp only [Shim.readdir, hseed, ite_true, Shim.init_listings, hnext]

/-- On a served stream `next_entry` returns entry `k` and serves `k + 1`. -/
theorem Serving.nextEntry {g : Globals} {heap : Heap} {dir k : Nat} {s : RealStream}
    (h : Serving g qsort sys dir s.entries k) (is64 : Bool) (hopened : sys.streams dir = .opened s)
    (halloc : heap.Succeeds s.entries.length)
    (hnodup : (sys.shim.listings.map Listing.dir).Nodup) :
    ∃ first ls s' err, nextEntry heap g qsort dir is64 s sys.shim.listings =
        ((sortedListing g qsort s.entries)[k]?, ls, s', err) ∧
      s'.entries = s.entries ∧
      findListing ls dir = some (servedListing g qsort dir first s.entries (k + 1)) ∧
      (∀ dir', dir' ≠ dir → findListing ls dir' = findListing sys.shim.listings dir') ∧
      (ls.map Listing.dir).Nodup := by
  obtain ⟨s₀, hs₀, _, hpending⟩ := h.stream
  rw [hopened] at hs₀
  cases hs₀
  rcases Nat.eq_zero_or_pos k with rfl | hpos
  · have hall : s.pending = s.entries := hpending rfl
    have hnone := h.fresh rfl
    obtain ⟨ls, hnext, hfind, hother, hdirs⟩ :=
      nextEntry_first g qsort is64 hnone (hall ▸ halloc)
    rw [hall] at hnext hfind
    refine ⟨is64, ls, _, _, hnext, rfl, hfind, hother, ?_⟩
    rw [hdirs, List.nodup_cons]
    exact ⟨findListing_eq_none_iff.mp hnone, hnodup⟩
  · obtain ⟨first, hcached⟩ := h.cached hpos
    obtain ⟨ls, hnext, hfind, hother, hdirs⟩ :=
      nextEntry_served heap is64 s hcached
    exact ⟨first, ls, s, none, hnext, rfl, hfind, hother, hdirs ▸ hnodup⟩

/-- A call returns the entry that its number selects in the sorted listing of the
stream's own directory, and keeps the invariant. -/
theorem StreamInv.readdir (hinv : StreamInv env qsort events sys)
    (hseed : (loadSeed env Globals.initial).haveSeed = true) {t dir : Nat} {is64 : Bool}
    {heap : Heap} {r : Reply} (hgrant : Granted (events ++ [.readdir t dir is64 heap]))
    (h : sys.step env qsort (.readdir t dir is64 heap) = some (sys', r)) :
    StreamInv env qsort (events ++ [.readdir t dir is64 heap]) sys' ∧
      ∃ ds k err, view dir events = some (ds, k) ∧
        r = .entry (sortedListing (loadSeed env Globals.initial) qsort ds)[k]? err := by
  simp only [System.step] at h
  split at h
  · rename_i s _ hopened
    obtain ⟨k, hview⟩ := hinv.view_of_opened hopened
    obtain ⟨before, t', err', ret', mid, hevents, _⟩ := exists_of_view hview
    have halloc : heap.Succeeds s.entries.length :=
      hgrant t dir is64 heap (by simp) t' s.entries err' ret' (by simp [hevents])
    obtain ⟨first, ls, s', err, hnext, hentries, hfind, hother, hnodup⟩ :=
      (hinv.serving dir s.entries k hview).nextEntry is64 hopened halloc hinv.nodup
    rw [← hinv.globals] at hnext
    rw [Shim.readdir_eq (by rw [hinv.globals]; exact hseed) hnext] at h
    cases h
    refine ⟨hinv.extend ?_ hnodup ?_ ?_ ?_, s.entries, k, err, hview, by rw [hinv.globals]⟩
    · rw [Shim.init_of_once (by simp)]
    · exact fun dir' hd => ⟨update_frame _ _ _ hd, hother dir' hd⟩
    · simp [viewStep, Event.dir, hview]
    · intro ds k' hk
      obtain ⟨rfl, rfl⟩ : s.entries = ds ∧ k + 1 = k' := by
        simpa [viewStep, Event.dir, hview] using hk
      exact ⟨⟨s', Function.update_self .., hentries, fun h0 => absurd h0 (Nat.succ_ne_zero k)⟩,
        fun h0 => absurd h0 (Nat.succ_ne_zero k), fun _ => ⟨first, hfind⟩⟩
  · cases h

/-- Every event keeps the invariant. -/
theorem StreamInv.step (hinv : StreamInv env qsort events sys)
    (hseed : (loadSeed env Globals.initial).haveSeed = true) {e : Event} {r : Reply}
    (hgrant : Granted (events ++ [e])) (h : sys.step env qsort e = some (sys', r)) :
    StreamInv env qsort (events ++ [e]) sys' := by
  cases e with
  | opendir t dir ds err ret => exact hinv.opendir h
  | readdir t dir is64 heap => exact (hinv.readdir hseed hgrant h).1
  | unlink t dir => exact hinv.unlink h
  | close t dir => exact hinv.close h
  | rewinddir t dir => exact hinv.rewinddir h

end Preservation

private theorem streamInv_initial (env : Env) (qsort : Sorter cmpEntry) :
    StreamInv env qsort [] System.initial := by
  refine ⟨rfl, List.nodup_nil, ?_, ?_⟩
  · exact fun dir _ => ⟨rfl, fun s h => by cases h⟩
  · intro dir ds k h
    simp [view] at h

/-- The first events of a granted history are granted. -/
theorem Granted.left {events events' : List Event} (h : Granted (events ++ events')) :
    Granted events := by
  intro t dir is64 heap hr t' ds err ret ho
  exact h t dir is64 heap (List.mem_append_left _ hr) t' ds err ret (List.mem_append_left _ ho)

/-- The invariant holds after every run. -/
theorem streamInv_run {env : Env} {qsort : Sorter cmpEntry}
    (hseed : (loadSeed env Globals.initial).haveSeed = true) {events : List Event} {sys : System}
    {rs : List Reply} (hgrant : Granted events)
    (h : run (System.step env qsort) System.initial events = some (sys, rs)) :
    StreamInv env qsort events sys := by
  have hP := run_invariant (P := fun h u => Granted h → StreamInv env qsort h u)
    (fun _ => streamInv_initial env qsort)
    (fun hu hstep hg => (hu hg.left).step hseed hg hstep) h
  exact hP hgrant

end WirenBoard.DirOrder
