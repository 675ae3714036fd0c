import WirenBoard.Models.Devenv.Checks

/-!
# Testing sets

`WBDEV_TESTING_SETS` names testing sets separated by commas. Each of them should become
one apt line for both consumers, and a name that is malformed or has no suite should stop
the command. The loop reads the first line of the value only, and an interactive command
puts its shell in front of the `sh` that writes the list. No set is dropped exactly when
neither of the two matters.
-/

namespace WirenBoard.Devenv

open Shell

/-- Every name in the value is well formed, and its suite is there. -/
def AllFound (c : Config) (m : Machine) : Prop := ∀ name ∈ setNames c.testingSets, SetFound m name

instance (c : Config) (m : Machine) : Decidable (AllFound c m) :=
  inferInstanceAs (Decidable (∀ _ ∈ _, _))

/-- The rootfs can be entered, and `sh` can write its lists. -/
structure Machine.ChrootWorks (m : Machine) : Prop where
  /-- `setup_chroot` succeeds. -/
  ready : m.chrootReady = true
  /-- `sh -c` succeeds. -/
  sh : ∀ text file, m.rootfs (echoArgv text file) = true

/-- The list in the rootfs is written with these lines; without any it is left alone. -/
def ListHas (lines : List Text) (w : World) (r : Result Vars World) : Prop :=
  r.ending = .status true ∧
    r.world.files testingSetsList = if lines = [] then w.files testingSetsList else some lines

/-- No testing set is dropped or altered. -/
structure SetsKept (c : Config) (m : Machine) : Prop where
  /-- One line is printed for each name. -/
  printed : AllFound c m → ∀ v w,
    (getTestingSetsRepoSpecs c m false v w).out =
      ((setNames c.testingSets).map testingLine).map String.ofList ∧
    (getTestingSetsRepoSpecs c m false v w).ending = .status true
  /-- `sbuild`, which is run if there is a package to build, gets one option for each line,
  behind those of the suites. -/
  sbuild : AllFound c m → ∀ arch args v w,
    ∃ runs, (sbuildBuildpackage c m arch args true v w).world.runs = w.runs ++ runs ∧
      RunsWith arch (c.sbuildArgs
        (repoSources c m ++ (setNames c.testingSets).map testingLine) args) runs ∧
      (runs = [] ↔ ¬HasPackages m)
  /-- The part for the testing sets writes the lines to the list. -/
  list : AllFound c m → m.ChrootWorks → ∀ v w,
    ListHas ((setNames c.testingSets).map testingLine) w (writeTestingSets c m true v w)
  /-- So does the whole function when the part before it succeeds. -/
  rootfs : AllFound c m → m.ChrootWorks → ∀ v w,
    (writeRepoSource c m true v w).ending = .status true →
    ListHas ((setNames c.testingSets).map testingLine) w (writeRootfsAptSources c m true v w)
  /-- Any other value stops the command: nothing is run and nothing goes on. -/
  stops : ¬AllFound c m → ∀ v w,
    (getTestingSetsRepoSpecs c m false v w).ending = .exited false ∧
    (∀ arch args, (sbuildBuildpackage c m arch args true v w).world.runs = w.runs ∧
      (sbuildBuildpackage c m arch args true v w).ending = .exited false) ∧
    (writeRootfsAptSources c m true v w).ending = .exited false

section Consumers

variable {c : Config} {m : Machine}

/-- The first line has all names of a value whose sets are all there. -/
theorem AllFound.firstLine (h : AllFound c m) : firstLine c.testingSets = c.testingSets :=
  firstLine_eq (newline_not_mem_of_found h)

private theorem AllFound.firstLineFound (h : AllFound c m) : FirstLineFound c m := by
  unfold FirstLineFound
  rw [h.firstLine]
  exact h

/-- The function prints the lines and succeeds, or exits. -/
theorem getTestingSetsRepoSpecs_result (v : Vars) (w : World) :
    (FirstLineFound c m → (getTestingSetsRepoSpecs c m false v w).out =
        ((setNames (firstLine c.testingSets)).map testingLine).map String.ofList ∧
      (getTestingSetsRepoSpecs c m false v w).ending = .status true) ∧
      (¬FirstLineFound c m → (getTestingSetsRepoSpecs c m false v w).ending = .exited false) := by
  obtain ⟨v', houtcome⟩ := writes_getTestingSetsRepoSpecs c m w v
  have hout := congrArg Outcome.out houtcome
  have hending := congrArg Outcome.ending houtcome
  simp only [Result.outcome] at hout hending
  constructor
  · intro hfound
    rw [if_pos hfound] at hending
    rw [testingOut_eq hfound] at hout
    exact ⟨hout, hending⟩
  · intro hfound
    rw [if_neg hfound] at hending
    exact hending

/-- Without a name the list is left alone by every command. -/
theorem writeTestingSets_empty (hfound : FirstLineFound c m)
    (hnames : setNames (firstLine c.testingSets) = []) (v : Vars) (w : World) :
    ListHas [] w (writeTestingSets c m true v w) := by
  obtain ⟨v', hempty, _⟩ := outcome_writeTestingSets c m hfound v w
  have houtcome := hempty hnames
  exact ⟨congrArg Outcome.ending houtcome,
    congrArg (fun o => o.world.files testingSetsList) houtcome⟩

/-- Outside an interactive command the list gets the lines. -/
theorem writeTestingSets_list (hchroot : m.ChrootWorks) (hshell : c.interactive = false)
    (hfound : FirstLineFound c m) (v : Vars) (w : World) :
    ListHas ((setNames (firstLine c.testingSets)).map testingLine) w
      (writeTestingSets c m true v w) := by
  obtain ⟨v', _, hsome⟩ := outcome_writeTestingSets c m hfound v w
  by_cases hnames : setNames (firstLine c.testingSets) = []
  · rw [hnames]
    exact writeTestingSets_empty hfound hnames v w
  · obtain ⟨w', ok, hchr, _, hready⟩ := outcome_chr c m
      (echoArgv (List.intercalate ['\n'] ((setNames (firstLine c.testingSets)).map testingLine))
        testingSetsList) v' (w.askAll (c.testingAsked m))
    obtain ⟨hok, hworld⟩ := hready hchroot.ready
    rw [c.words_shellCmd_false hshell, List.nil_append, hchroot.sh] at hok
    rw [hok, c.words_shellCmd_false hshell, List.nil_append, if_pos rfl,
      exec_echoArgv _ (quote_not_mem_testingText hfound) (by decide),
      splitOn_testingText hfound hnames] at hworld
    have houtcome := (hsome hnames).trans hchr
    rw [hok, hworld, finish_ok] at houtcome
    refine ⟨congrArg Outcome.ending houtcome, ?_⟩
    rw [if_neg (fun hnil => hnames (List.map_eq_nil_iff.mp hnil))]
    have hfiles := congrArg (fun o => o.world.files testingSetsList) houtcome
    simp only [Result.outcome, Function.update_self] at hfiles
    exact hfiles

/-- The list gets the lines of a value whose sets are all there, unless an interactive command
would have to write it. -/
theorem AllFound.list (h : AllFound c m) (hchroot : m.ChrootWorks)
    (hshell : c.interactive = false ∨ setNames c.testingSets = []) (v : Vars) (w : World) :
    ListHas ((setNames c.testingSets).map testingLine) w (writeTestingSets c m true v w) := by
  rcases hshell with hshell | hnames
  · have hlines := writeTestingSets_list hchroot hshell h.firstLineFound v w
    rw [h.firstLine] at hlines
    exact hlines
  · rw [hnames]
    refine writeTestingSets_empty h.firstLineFound ?_ v w
    rw [h.firstLine]
    exact hnames

/-- In an interactive command nothing is written to the list. -/
theorem writeTestingSets_interactive (hshell : c.interactive = true) (hfound : FirstLineFound c m)
    (v : Vars) (w : World) :
    (writeTestingSets c m true v w).world.files = w.files := by
  obtain ⟨v', hempty, hsome⟩ := outcome_writeTestingSets c m hfound v w
  by_cases hnames : setNames (firstLine c.testingSets) = []
  · exact congrArg (fun o => o.world.files) (hempty hnames)
  · obtain ⟨w', ok, hchr, heffect, _⟩ := outcome_chr c m _ v' (w.askAll (c.testingAsked m))
    have hfiles := congrArg (fun o => o.world.files) ((hsome hnames).trans hchr)
    refine hfiles.trans ?_
    rcases heffect with rfl | rfl
    · rfl
    · rw [c.words_shellCmd_true hshell]
      rfl

/-- What the second part does to the list, the whole function does. -/
theorem writeRootfsAptSources_list {lines : List Text}
    (hsets : ∀ v w, ListHas lines w (writeTestingSets c m true v w)) (v : Vars) (w : World)
    (hsource : (writeRepoSource c m true v w).ending = .status true) :
    ListHas lines w (writeRootfsAptSources c m true v w) := by
  obtain ⟨v', w', ok, houtcome, _, hfiles, _, _, hnext⟩ := outcome_writeRootfsAptSources c m v w
  have hending : finish true ok = .status true :=
    (congrArg Outcome.ending houtcome).symm.trans hsource
  cases ok with
  | false => cases hending
  | true =>
    obtain ⟨hstatus, hlist⟩ := hsets v' w'
    have heq := hnext rfl
    refine ⟨(congrArg Outcome.ending heq).trans hstatus, ?_⟩
    rw [← hfiles]
    exact (congrArg (fun o => o.world.files testingSetsList) heq).trans hlist

/-- A value that is not found stops both consumers. -/
theorem stops_of_not_firstLineFound (hfound : ¬FirstLineFound c m) (v : Vars) (w : World) :
    (getTestingSetsRepoSpecs c m false v w).ending = .exited false ∧
    (∀ arch args, (sbuildBuildpackage c m arch args true v w).world.runs = w.runs ∧
      (sbuildBuildpackage c m arch args true v w).ending = .exited false) ∧
    (writeRootfsAptSources c m true v w).ending = .exited false := by
  refine ⟨(getTestingSetsRepoSpecs_result v w).2 hfound, ?_, ?_⟩
  · intro arch args
    obtain ⟨v', houtcome⟩ := outcome_sbuild_stop c m arch hfound args v w
    exact ⟨congrArg (fun o => o.world.runs) houtcome, congrArg Outcome.ending houtcome⟩
  · obtain ⟨v', w', ok, _, _, _, _, hstop, hnext⟩ := outcome_writeRootfsAptSources c m v w
    cases ok with
    | false => exact hstop rfl
    | true =>
      obtain ⟨v₂, hend⟩ := outcome_writeTestingSets_stop c m hfound v' w'
      exact congrArg Outcome.ending ((hnext rfl).trans hend)

/-- A value with a newline whose first line is found drops the rest of it. -/
theorem not_setsKept_of_newline (hmem : '\n' ∈ c.testingSets) (hfound : FirstLineFound c m) :
    ¬SetsKept c m := by
  intro h
  have hall : ¬AllFound c m := fun hall => newline_not_mem_of_found hall hmem
  have hstop := (h.stops hall .unset .fresh).1
  have hgoes := ((getTestingSetsRepoSpecs_result .unset .fresh).1 hfound).2
  rw [hgoes] at hstop
  cases hstop

/-- An interactive command drops the sets from the list. -/
theorem not_setsKept_of_interactive (hshell : c.interactive = true)
    (hnames : setNames c.testingSets ≠ []) (hall : AllFound c m) (hchroot : m.ChrootWorks) :
    ¬SetsKept c m := by
  intro h
  have hlist := (h.list hall hchroot .unset .fresh).2
  rw [writeTestingSets_interactive hshell hall.firstLineFound,
    if_neg (fun hnil => hnames (List.map_eq_nil_iff.mp hnil))] at hlist
  cases hlist

end Consumers

/-- No testing set is dropped if and only if the value is a single line or its first line
stops the command, and the command is not interactive or there is no list to write. -/
theorem setsKept_iff (c : Config) (m : Machine) :
    SetsKept c m ↔ ('\n' ∉ c.testingSets ∨ ¬FirstLineFound c m) ∧
      (c.interactive = false ∨ setNames c.testingSets = [] ∨ ¬AllFound c m ∨ ¬m.ChrootWorks) := by
  constructor
  · intro h
    constructor
    · by_contra hcond
      rw [not_or, not_not, not_not] at hcond
      exact not_setsKept_of_newline hcond.1 hcond.2 h
    · by_contra hcond
      rw [not_or, not_or, not_or, not_not, not_not, Bool.not_eq_false] at hcond
      obtain ⟨hshell, hnames, hall, hchroot⟩ := hcond
      exact not_setsKept_of_interactive hshell hnames hall hchroot h
  · rintro ⟨hnewline, hshell⟩
    have hlist : AllFound c m → m.ChrootWorks → ∀ v w,
        ListHas ((setNames c.testingSets).map testingLine) w (writeTestingSets c m true v w) := by
      intro hall hchroot
      rcases hshell with hshell | hnames | hno | hno
      · exact hall.list hchroot (Or.inl hshell)
      · exact hall.list hchroot (Or.inr hnames)
      · exact absurd hall hno
      · exact absurd hchroot hno
    refine ⟨?_, ?_, hlist, ?_, ?_⟩
    · intro hall v w
      have hresult := (getTestingSetsRepoSpecs_result v w).1 hall.firstLineFound
      rw [hall.firstLine] at hresult
      exact hresult
    · intro hall arch args v w
      obtain ⟨runs, v', out, ending, houtcome, hwith, hruns⟩ :=
        outcome_sbuild c m arch hall.firstLineFound args v w
      rw [hall.firstLine] at hwith
      exact ⟨runs, congrArg (fun o => o.world.runs) houtcome, hwith, hruns⟩
    · intro hall hchroot
      exact writeRootfsAptSources_list (hlist hall hchroot)
    · intro hall
      apply stops_of_not_firstLineFound
      rcases hnewline with hnewline | hno
      · intro hfound
        unfold FirstLineFound at hfound
        rw [firstLine_eq hnewline] at hfound
        exact hall hfound
      · exact hno

/-- A value of two lines. -/
def twoLines : Config := { plainConfig with testingSets := "foo\nbar".toList }

/-- `wbdev chroot` without arguments. -/
def plainChroot : Config := { plainConfig with testingSets := "foo".toList, interactive := true }

/-- A server that has every suite, and a rootfs in which `sh` can be run. -/
def fullServer : Machine :=
  ⟨fun _ => ⟨0, 200⟩, true, fun argv => argv.head? = some "sh".toList,
    ["Architecture: any".toList], "amd64".toList, fun _ => true⟩

/-- The second line of a value is dropped, and `wbdev chroot` without arguments does not
write the list. -/
theorem testing_sets_dropped :
    ¬SetsKept twoLines fullServer ∧ ¬SetsKept plainChroot fullServer := by
  refine ⟨?_, ?_⟩
  · exact not_setsKept_of_newline (by decide) (by decide)
  · exact not_setsKept_of_interactive rfl (by decide) (by decide) ⟨rfl, fun _ _ => rfl⟩

end WirenBoard.Devenv
