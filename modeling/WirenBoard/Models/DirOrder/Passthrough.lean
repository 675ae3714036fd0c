import WirenBoard.Models.DirOrder.Streams

/-!
# The shim without a seed

The C library alone is a machine of its own, over the same streams and threads and
without the shim. Refused values leave the shim a copy of it: along the projection
that forgets the shim both machines have the same runs. The values refused are
those that do not start with sixteen cells, and a UUID is not the only text that
does: nothing behind the last cell is looked at, and a cell need not be two digits.
-/

namespace WirenBoard.DirOrder

/-! ## The real functions -/

/-- The C library's part of the process. -/
structure Library where
  /-- The streams by address. -/
  streams : Nat → Slot
  /-- The stream a thread is closing. -/
  closing : Nat → Option Nat

/-- The library before the first call. -/
def Library.initial : Library := ⟨fun _ => .free, fun _ => none⟩

/-- The same events on the real functions. The section of `closedir` under the shim's
mutex is not part of them, and only marks that the call has begun. -/
def Library.step (lib : Library) : Event → Option (Library × Reply)
  | .opendir t dir ds err ret =>
    match lib.closing t, lib.streams dir with
    | none, .free =>
      some ({ lib with streams := Function.update lib.streams dir (.opened ⟨ds, ds, err, ret⟩) },
        .done)
    | _, _ => none
  | .readdir t dir _ _ =>
    match lib.closing t, lib.streams dir with
    | none, .opened s =>
      let (d, err, s) := s.readdir
      some ({ lib with streams := Function.update lib.streams dir (.opened s) }, .entry d err)
    | _, _ => none
  | .unlink t dir =>
    match lib.closing t, lib.streams dir with
    | none, .opened s =>
      some ({ streams := Function.update lib.streams dir (.closing s)
              closing := Function.update lib.closing t (some dir) }, .done)
    | _, _ => none
  | .close t dir =>
    match lib.closing t, lib.streams dir with
    | some dir', .closing s =>
      if dir' = dir then
        some ({ streams := Function.update lib.streams dir .free
                closing := Function.update lib.closing t none }, .ret s.ret)
      else none
    | _, _ => none
  | .rewinddir t dir =>
    match lib.closing t, lib.streams dir with
    | none, .opened s =>
      some ({ lib with
        streams := Function.update lib.streams dir (.opened { s with pending := s.entries }) },
        .done)
    | _, _ => none

/-- The process without the shim's variables. -/
def System.library (sys : System) : Library := ⟨sys.streams, sys.closing⟩

/-! ## Both machines -/

/-- The shim has no seed, now and at its first call, and caches nothing. -/
structure Unseeded (env : Env) (sys : System) : Prop where
  /-- The variables are the initial ones. -/
  globals : sys.shim.globals = Globals.initial
  /-- `load_seed` keeps them. -/
  refused : loadSeed env Globals.initial = Globals.initial
  /-- Nothing is cached. -/
  listings : sys.shim.listings = []

section Passthrough

variable {env : Env} {qsort : Sorter cmpEntry} {sys : System}

private theorem Unseeded.init_globals (h : Unseeded env sys) :
    (sys.shim.init env).globals = Globals.initial := by
  rw [Shim.init]
  split
  · exact h.globals
  · exact (congrArg (loadSeed env) h.globals).trans h.refused

/-- Without a seed there is no listing. -/
theorem Unseeded.init_listings (h : Unseeded env sys) : (sys.shim.init env).listings = [] := by
  rw [Shim.init]
  split
  · exact h.listings
  · exact h.listings

/-- Without a seed a call is the real one. -/
theorem Unseeded.readdir (h : Unseeded env sys) (heap : Heap) (dir : Nat) (is64 : Bool)
    (s : RealStream) :
    sys.shim.readdir env qsort heap dir is64 s =
      (s.readdir.1, sys.shim.init env, s.readdir.2.2, s.readdir.2.1) := by
  have hseed : (sys.shim.init env).globals.haveSeed = false := by
    rw [h.init_globals]
    rfl
  simp only [Shim.readdir, hseed, Bool.false_eq_true, ite_false]

/-- Without a seed the shim replies as the library does. -/
theorem Unseeded.step_eq (h : Unseeded env sys) (e : Event) :
    sys.library.step e = (sys.step env qsort e).map (Prod.map System.library id) := by
  cases e with
  | opendir t dir ds err ret =>
    simp only [Library.step, System.step, System.library]
    cases sys.closing t <;> cases sys.streams dir <;> rfl
  | readdir t dir is64 heap =>
    simp only [Library.step, System.step, System.library, h.readdir]
    cases sys.closing t <;> cases sys.streams dir <;> rfl
  | unlink t dir =>
    simp only [Library.step, System.step, System.library]
    cases sys.closing t <;> cases sys.streams dir <;> rfl
  | close t dir =>
    simp only [Library.step, System.step, System.library]
    cases sys.closing t with
    | none => rfl
    | some dir' =>
      cases sys.streams dir with
      | free => rfl
      | opened s => rfl
      | closing s =>
        dsimp only
        split <;> rfl
  | rewinddir t dir =>
    simp only [Library.step, System.step, System.library]
    cases sys.closing t <;> cases sys.streams dir <;> rfl

/-- Without a seed every event leaves the shim without one. -/
theorem Unseeded.step (h : Unseeded env sys) {e : Event} {sys' : System} {r : Reply}
    (hstep : sys.step env qsort e = some (sys', r)) : Unseeded env sys' := by
  cases e with
  | opendir t dir ds err ret =>
    simp only [System.step] at hstep
    split at hstep <;> cases hstep
    exact ⟨h.globals, h.refused, h.listings⟩
  | readdir t dir is64 heap =>
    simp only [System.step, h.readdir] at hstep
    split at hstep <;> cases hstep
    exact ⟨h.init_globals, h.refused, h.init_listings⟩
  | unlink t dir =>
    simp only [System.step] at hstep
    split at hstep <;> cases hstep
    refine ⟨h.init_globals, h.refused, ?_⟩
    simp only [Shim.unlink, h.init_listings, List.eraseP_nil]
  | close t dir =>
    simp only [System.step] at hstep
    split at hstep
    · split at hstep <;> cases hstep
      exact ⟨h.globals, h.refused, h.listings⟩
    · cases hstep
  | rewinddir t dir =>
    simp only [System.step] at hstep
    split at hstep <;> cases hstep
    exact ⟨h.globals, h.refused, h.listings⟩

end Passthrough

/-- The shim changes nothing: `load_seed` keeps the initial values, every sequence of
events runs as on the library alone, with the same replies, and nothing is ever cached. -/
structure Inert (env : Env) : Prop where
  /-- All four variables keep their initial values. -/
  globals : loadSeed env Globals.initial = Globals.initial
  /-- The replies and streams are those of the real functions. -/
  replies : ∀ (qsort : Sorter cmpEntry) (events : List Event),
    (run (System.step env qsort) System.initial events).map (Prod.map System.library id) =
      run Library.step Library.initial events
  /-- The list of listings stays empty. -/
  listings : ∀ (qsort : Sorter cmpEntry) (events : List Event) (sys : System) (rs : List Reply),
    run (System.step env qsort) System.initial events = some (sys, rs) → sys.shim.listings = []

/-- A refused value makes the shim inert. -/
theorem inert_of_refused {env : Env} (h : loadSeed env Globals.initial = Globals.initial) :
    Inert env := by
  have hinit : Unseeded env System.initial := ⟨rfl, h, rfl⟩
  refine ⟨h, ?_, ?_⟩
  · intro qsort events
    exact (run_map (P := Unseeded env) (fun hs => hs.step_eq _) (fun hs => hs.step) events
      hinit).symm
  · intro qsort events sys rs hrun
    exact (run_invariant (P := fun _ => Unseeded env) hinit (fun hs hstep => hs.step hstep)
      hrun).listings

/-- Every byte of a UUID text is a hyphen or a hexadecimal digit. -/
theorem UuidText.mem {t b : List Byte} (h : UuidText t b) :
    ∀ c ∈ t, c = ch '-' ∨ (hexDigit c).isSome := by
  induction h with
  | nil => simp
  | hyphen _ ih =>
    intro c hc
    rcases List.mem_cons.mp hc with rfl | hc
    · exact .inl rfl
    · exact ih c hc
  | byte hx hy _ ih =>
    intro c hc
    rcases List.mem_cons.mp hc with rfl | hc
    · exact .inr (by rw [hx]; rfl)
    · rcases List.mem_cons.mp hc with rfl | hc
      · exact .inr (by rw [hy]; rfl)
      · exact ih c hc

/-- A value that is not the text of a UUID leaves the shim inert exactly when it does
not start with sixteen cells. -/
theorem inert_of_not_uuid_iff {env : Env} {v : EnvValue} (henv : env.hashSeed = some v) :
    (¬IsUuid v.value → Inert env) ↔ IsUuid v.value ∨ ¬Cells 16 v.mem := by
  have hload := loadSeed_haveSeed_iff env v henv
  have hinert : Inert env ↔ ¬Cells 16 v.mem := by
    rw [← hload, Bool.not_eq_true]
    constructor
    · intro h
      rw [h.globals]
      rfl
    · exact fun h => inert_of_refused (loadSeed_eq_of_not_haveSeed h)
  rw [hinert, or_iff_not_imp_left]

/-- A text that is no number is refused. -/
theorem inert_of_not_uuid_iff_letter :
    Inert ⟨some ⟨[ch 'z'], by decide, []⟩, none, none⟩ := by
  have hiff := @inert_of_not_uuid_iff ⟨some ⟨[ch 'z'], by decide, []⟩, none, none⟩ _ rfl
  refine hiff.mpr (.inr ?_) ?_
  · rw [← loadSeed_haveSeed_iff ⟨some ⟨[ch 'z'], by decide, []⟩, none, none⟩ _ rfl]
    decide
  · rintro ⟨b, _, h⟩
    have hletter := h.mem (ch 'z') (by decide)
    exact absurd hletter (by decide)

/-- A value of one digit and one space a byte, which is no UUID, loads a seed. -/
theorem inert_fails_on_spaced_digits :
    ∃ v : EnvValue, v.value = (List.replicate 16 [ch 'a', ch ' ']).flatten ∧
      ¬IsUuid v.value ∧ ¬Inert ⟨some v, none, none⟩ := by
  refine ⟨⟨(List.replicate 16 [ch 'a', ch ' ']).flatten, by decide, []⟩, rfl, ?_, ?_⟩
  · rintro ⟨b, _, h⟩
    have hspace := h.mem (ch ' ') (by decide)
    exact absurd hspace (by decide)
  · intro h
    have hload := congrArg Globals.haveSeed h.globals
    exact absurd hload (by decide +kernel)

end WirenBoard.DirOrder
