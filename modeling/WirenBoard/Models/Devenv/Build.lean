import WirenBoard.Models.Devenv.Suites

/-!
# Building packages and preparing the rootfs

`sbuildBuildpackage` collects the extra repositories of a build and runs `sbuild` once for
the packages of all architectures and once for the others. `writeRootfsAptSources` writes
the repositories into lists in the rootfs. Both use the substitutions of the suites; in
the first function those of the unstable and the stable suite stand in declarations of
local variables, which succeed whatever the substitution does.
-/

namespace WirenBoard.Devenv

open Shell

open Rootfs (orDefault words joinWords)

/-! ## Writing lists in the rootfs -/

/-- The apostrophe. -/
def quote : Char := Char.ofNat 39

/-- The text and the file of the script `echo '...' > file`. -/
def redirection (script : Text) : Option (Text × Text) :=
  match script.splitOn quote with
  | [command, text, rest] =>
    if command = "echo ".toList ∧ rest.take 3 = " > ".toList then some (text, rest.drop 3) else none
  | _ => none

/-- What a program does to the lists in the rootfs when it succeeds: `sh -c` with a
redirection writes one, other programs write none. -/
def World.exec (w : World) (argv : List Text) : World :=
  match argv with
  | [program, option, script] =>
    if program = "sh".toList ∧ option = "-c".toList then
      match redirection script with
      | some (text, file) =>
        { w with files := Function.update w.files file (some (text.splitOn '\n')) }
      | none => w
    else w
  | _ => w

/-- `sh -c "echo '$text' > $file"`. -/
def echoArgv (text file : Text) : List Text :=
  ["sh".toList, "-c".toList, "echo ".toList ++ quote :: (text ++ quote :: (" > ".toList ++ file))]

/-- `ROOTFS_WB_REPO_LIST`. -/
def repoList : Text := "/etc/apt/sources.list.d/wirenboard.list".toList

/-- `ROOTFS_TESTING_SETS_LIST`. -/
def testingSetsList : Text := "/etc/apt/sources.list.d/wirenboard-testing-sets.list".toList

section Functions

variable (c : Config) (m : Machine)

/-- `shell_cmd`. -/
def Config.shellCmd : Text := if c.interactive then "/bin/bash -l".toList else []

/-- `chr`: the words of `shell_cmd` come before the arguments. -/
def chr (argv : List Text) : Sh Vars World :=
  script [
    call m.chrootReady,
    simple fun v w =>
      let argv := words c.shellCmd ++ argv
      (v, if m.rootfs argv then w.exec argv else w, m.rootfs argv)]

/-- `chr sh -c "echo '$text' > $file"`. -/
def chrEcho (text file : Text) : Sh Vars World := chr c m (echoArgv text file)

/-- The part of `write_rootfs_apt_sources` for the repository of the target. -/
def writeRepoSource : Sh Vars World :=
  script [
    ifThenElse (test fun _ => c.useUnstable ≠ [])
      (assignFrom (getUnstableRepoSpec c m) fun t v => { v with repoSpec := t })
      (assignFrom (getStableRepoSpec c m) fun t v => { v with repoSpec := t }),
    ifThen (test fun v => v.repoSpec ≠ [])
      (caseOf (fun v => v.repoSpec) fun spec => chrEcho c m spec repoList)]

/-- The part of `write_rootfs_apt_sources` for the testing sets. -/
def writeTestingSets : Sh Vars World :=
  script [
    assignFrom (getTestingSetsRepoSpecs c m) fun t v => { v with testingSetsSpecs := t },
    ifThen (test fun v => v.testingSetsSpecs ≠ [])
      (caseOf (fun v => v.testingSetsSpecs) fun specs => chrEcho c m specs testingSetsList)]

/-- `write_rootfs_apt_sources`. -/
def writeRootfsAptSources : Sh Vars World := seq (writeRepoSource c m) (writeTestingSets c m)

/-! ## Running `sbuild` -/

/-- `--extra-repository="$line"`. -/
def extraRepository (line : Text) : Text := "--extra-repository=".toList ++ line

/-- `has_arch_all`. -/
def hasArchAll : Bool := m.control.any (· = "Architecture: all".toList)

/-- `has_arch_any`. -/
def hasArchAny : Bool :=
  m.control.any fun line =>
    "Architecture:".toList.isPrefixOf line && line ≠ "Architecture: all".toList

/-- The first arguments. -/
def Config.firstArgs : List Text :=
  ["-c".toList, c.release ++ "-amd64-sbuild".toList, "--bd-uninstallable-explainer=apt".toList]

/-- The arguments behind the extra repositories. -/
def Config.lastArgs (args : List Text) : List Text :=
  ["--no-apt-upgrade".toList, "--no-apt-distupgrade".toList, "-d".toList, c.release,
    "--no-clean-source".toList] ++ args

/-- The unstable suite among the arguments. -/
def addUnstable : Sh Vars World :=
  ifThen (test fun _ => c.useUnstable ≠ []) (script [
    localFrom (getUnstableRepoSpec c m) fun t v => { v with unstableRepoSpec := t },
    ifThen (test fun v => v.unstableRepoSpec ≠ [])
      (assign true fun v _ =>
        { v with sbuildArgs := v.sbuildArgs ++ [extraRepository v.unstableRepoSpec] })])

/-- The stable suite among the arguments. -/
def addStable : Sh Vars World :=
  script [
    localFrom (getStableRepoSpec c m) fun t v => { v with stableRepoSpec := t },
    ifThen (test fun v => v.stableRepoSpec ≠ [])
      (assign true fun v _ =>
        { v with sbuildArgs := v.sbuildArgs ++ [extraRepository v.stableRepoSpec] })]

/-- The testing sets among the arguments, one for each line of the text. -/
def addTestingSets : Sh Vars World :=
  script [
    assignFrom (getTestingSetsRepoSpecs c m) fun t v => { v with testingSetsSpecs := t },
    ifThen (test fun v => v.testingSetsSpecs ≠ [])
      (assign true fun v _ =>
        { v with sbuildArgs :=
            v.sbuildArgs ++ (v.testingSetsSpecs.splitOn '\n').map extraRepository })]

/-- `DEB_BUILD_PROFILES="${build_profiles[*]}" sbuild ... "${SBUILD_ARGS[@]}"`. -/
def sbuild (flags : List Text) : Sh Vars World :=
  simple fun v w =>
    (v, { w with runs := w.runs ++ [⟨joinWords v.buildProfiles, flags ++ v.sbuildArgs⟩] },
      m.sbuild (flags ++ v.sbuildArgs))

/-- The options of the build of packages of all architectures. -/
def allFlags : List Text := ["--arch-all".toList, "--no-arch-any".toList]

/-- The options of the build of the other packages. -/
def anyFlags (arch : Text) : List Text :=
  ["--no-arch-all".toList, "--arch-any".toList, "--host=".toList ++ arch]

/-- The build of packages of all architectures. -/
def buildArchAll : Sh Vars World :=
  ifThenElse (call (hasArchAll m))
    (script [echo "Build packages for Architecture: all", sbuild m allFlags])
    (echo "No Architecture: all packages in this source")

/-- The build of the other packages. -/
def buildArchAny (arch : Text) : Sh Vars World :=
  ifThenElse (call (hasArchAny m))
    (script [
      echo "Build packages for binary architectures",
      ifThen (test fun _ => arch ≠ m.architecture)
        (assign true fun v _ =>
          { v with buildProfiles := v.buildProfiles ++ ["cross".toList] }),
      sbuild m (anyFlags arch)])
    (echo "No binary architecture packages in this source")

/-- `sbuild_buildpackage` with the architecture and the other arguments. -/
def sbuildBuildpackage (arch : Text) (args : List Text) : Sh Vars World :=
  script [
    assign true fun v _ =>
      { v with
        buildProfiles := (words c.buildProfiles).filter (· ≠ "cross".toList)
        sbuildArgs := c.firstArgs },
    addUnstable c m,
    addStable c m,
    addTestingSets c m,
    assign true fun v _ => { v with sbuildArgs := v.sbuildArgs ++ c.lastArgs args },
    buildArchAll m,
    buildArchAny m arch]

end Functions

/-! ## The arguments that are collected -/

section Arguments

variable (c : Config) (m : Machine)

/-- The URLs asked for before the testing sets. -/
def Config.repoAsked : List Text :=
  (if c.useUnstable ≠ [] then c.unstableAsked else []) ++ c.stableAsked

/-- The sources of the target that exist: the unstable suite, if requested, and the stable. -/
def repoSources : List Text :=
  (if c.useUnstable ≠ [] then unstableSource c m else []) ++ stableSource c m

private theorem stableSource_cases :
    stableSource c m = [] ∨ ∃ line, stableSource c m = [line] ∧ line ≠ [] := by
  unfold stableSource
  split
  · exact Or.inr ⟨devToolsLine, rfl, by decide⟩
  · split
    · exact Or.inr ⟨c.stableLine, rfl, c.stableLine_ne_nil⟩
    · exact Or.inl rfl

private theorem unstableSource_cases :
    unstableSource c m = [] ∨ ∃ line, unstableSource c m = [line] ∧ line ≠ [] := by
  unfold unstableSource
  split
  · exact Or.inl rfl
  · split
    · exact Or.inr ⟨c.unstableLine, rfl, c.unstableLine_ne_nil⟩
    · exact Or.inl rfl

/-- The unstable suite is added if it is there, whatever its check says. -/
theorem outcome_addUnstable (v : Vars) (w : World) :
    ∃ v', (addUnstable c m true v w).outcome =
        ⟨v', w.askAll (if c.useUnstable ≠ [] then c.unstableAsked else []), [], .status true⟩ ∧
      v'.sbuildArgs = v.sbuildArgs ++
        (if c.useUnstable ≠ [] then unstableSource c m else []).map extraRepository ∧
      v'.buildProfiles = v.buildProfiles := by
  by_cases hflag : c.useUnstable = []
  · exact ⟨v, by simp [addUnstable, hflag]⟩
  · obtain ⟨out, hwrites, htext⟩ := writes_getUnstableRepoSpec c m w
    have hlocal := hwrites.localFrom (specEnding_ne_down m _)
      (fun t v => { v with unstableRepoSpec := t }) true v
    rw [htext] at hlocal
    rcases unstableSource_cases c m with hnone | ⟨line, hline, hne⟩
    · rw [hnone, List.flatten_nil] at hlocal
      exact ⟨_, by simp [addUnstable, hflag, hlocal]; rfl, by simp [hflag, hnone]⟩
    · rw [hline, List.flatten_singleton] at hlocal
      exact ⟨_, by simp [addUnstable, hflag, hlocal, hne]; rfl, by simp [hflag, hline]⟩

/-- The stable suite is added if it is there, whatever its check says. -/
theorem outcome_addStable (v : Vars) (w : World) :
    ∃ v', (addStable c m true v w).outcome = ⟨v', w.askAll c.stableAsked, [], .status true⟩ ∧
      v'.sbuildArgs = v.sbuildArgs ++ (stableSource c m).map extraRepository ∧
      v'.buildProfiles = v.buildProfiles := by
  obtain ⟨out, hwrites, htext⟩ := writes_getStableRepoSpec c m w
  have hlocal := hwrites.localFrom (specEnding_ne_down m _)
    (fun t v => { v with stableRepoSpec := t }) true v
  rw [htext] at hlocal
  rcases stableSource_cases c m with hnone | ⟨line, hline, hne⟩
  · rw [hnone, List.flatten_nil] at hlocal
    exact ⟨_, by simp [addStable, hlocal]; rfl, by simp [hnone]⟩
  · rw [hline, List.flatten_singleton] at hlocal
    exact ⟨_, by simp [addStable, hlocal, hne]; rfl, by simp [hline]⟩

/-- The text that a consumer of the testing sets gets, and how it goes on. -/
theorem outcome_assign_testing (f : Text → Vars → Vars) (v : Vars) (w : World) :
    (FirstLineFound c m →
      (assignFrom (getTestingSetsRepoSpecs c m) f true v w).outcome =
        ⟨f (List.intercalate ['\n'] ((setNames (firstLine c.testingSets)).map testingLine)) v,
          w.askAll (c.testingAsked m), [], .status true⟩) ∧
      (¬FirstLineFound c m → ∃ v',
        (assignFrom (getTestingSetsRepoSpecs c m) f true v w).outcome =
          ⟨v', w.askAll (c.testingAsked m), [], .exited false⟩) := by
  have hwrites := writes_getTestingSetsRepoSpecs c m w
  constructor
  · intro hfound
    rw [if_pos hfound] at hwrites
    rw [hwrites.assignFrom (by simp) f true v, captured_testingOut hfound]
    rfl
  · intro hfound
    rw [if_neg hfound] at hwrites
    exact ⟨_, hwrites.assignFrom (by simp) f true v⟩

/-- Testing sets that are all there are added in order. -/
theorem outcome_addTestingSets (hfound : FirstLineFound c m) (v : Vars) (w : World) :
    ∃ v', (addTestingSets c m true v w).outcome =
        ⟨v', w.askAll (c.testingAsked m), [], .status true⟩ ∧
      v'.sbuildArgs = v.sbuildArgs ++
        ((setNames (firstLine c.testingSets)).map testingLine).map extraRepository ∧
      v'.buildProfiles = v.buildProfiles := by
  have hassign := (outcome_assign_testing c m (fun t v => { v with testingSetsSpecs := t }) v w).1
    hfound
  by_cases hnames : setNames (firstLine c.testingSets) = []
  · rw [hnames] at hassign ⊢
    exact ⟨_, by simp [addTestingSets, hassign]; rfl, by simp⟩
  · have htext := testingText_eq_nil_iff.not.mpr hnames
    have hsplit := splitOn_testingText hfound hnames
    generalize List.intercalate ['\n'] ((setNames (firstLine c.testingSets)).map testingLine) =
      text at hassign htext hsplit
    exact ⟨_, by simp [addTestingSets, hassign, htext]; rfl, by simp [hsplit]⟩

/-- Any other list of testing sets ends the command. -/
theorem outcome_addTestingSets_stop (hfound : ¬FirstLineFound c m) (v : Vars) (w : World) :
    ∃ v', (addTestingSets c m true v w).outcome =
      ⟨v', w.askAll (c.testingAsked m), [], .exited false⟩ := by
  obtain ⟨v', hassign⟩ :=
    (outcome_assign_testing c m (fun t v => { v with testingSetsSpecs := t }) v w).2 hfound
  exact ⟨v', by simp [addTestingSets, hassign]⟩

end Arguments

/-! ## The runs -/

/-- The world after these runs. -/
def World.addRuns (w : World) (runs : List SbuildRun) : World := { w with runs := w.runs ++ runs }

/-- `SBUILD_ARGS` with these extra repositories. -/
def Config.sbuildArgs (c : Config) (sources args : List Text) : List Text :=
  c.firstArgs ++ sources.map extraRepository ++ c.lastArgs args

/-- The runs of `sbuild` get the collected arguments behind their options. -/
def RunsWith (arch : Text) (args : List Text) (runs : List SbuildRun) : Prop :=
  ∀ run ∈ runs, run.args = allFlags ++ args ∨ run.args = anyFlags arch ++ args

section Runs

variable (c : Config) (m : Machine) (arch : Text)

/-- There is a package to build. -/
def HasPackages : Prop := hasArchAll m = true ∨ hasArchAny m = true

/-- Runs of `sbuild` are noted one after another. -/
theorem World.addRuns_addRuns (w : World) (runs runs' : List SbuildRun) :
    (w.addRuns runs).addRuns runs' = w.addRuns (runs ++ runs') := by
  simp [World.addRuns]

/-- The build of packages of all architectures goes on unless `sbuild` failed. -/
theorem outcome_buildArchAll (v : Vars) (w : World) :
    ∃ runs out ending, (buildArchAll m true v w).outcome = ⟨v, w.addRuns runs, out, ending⟩ ∧
      RunsWith arch v.sbuildArgs runs ∧ (runs = [] ↔ hasArchAll m = false) ∧
      (ending = .status true ∨ ending = .exited false ∧ runs ≠ []) := by
  by_cases hall : hasArchAll m = true
  · refine ⟨[⟨joinWords v.buildProfiles, allFlags ++ v.sbuildArgs⟩],
      ["Build packages for Architecture: all"], finish true (m.sbuild (allFlags ++ v.sbuildArgs)),
      ?_, by simp [RunsWith], by simp [hall], ?_⟩
    · simp [buildArchAll, hall, sbuild, World.addRuns]
    · cases m.sbuild (allFlags ++ v.sbuildArgs) with
      | true => exact Or.inl rfl
      | false => exact Or.inr ⟨rfl, by simp⟩
  · exact ⟨[], ["No Architecture: all packages in this source"], .status true,
      by simp [buildArchAll, hall, World.addRuns], by simp [RunsWith], by simp [hall], Or.inl rfl⟩

/-- The build of the other packages. -/
theorem outcome_buildArchAny (v : Vars) (w : World) :
    ∃ runs v' out ending, (buildArchAny m arch true v w).outcome =
        ⟨v', w.addRuns runs, out, ending⟩ ∧
      RunsWith arch v.sbuildArgs runs ∧ (runs = [] ↔ hasArchAny m = false) := by
  by_cases hany : hasArchAny m = true
  · by_cases hcross : arch = m.architecture
    · exact ⟨[⟨joinWords v.buildProfiles, anyFlags arch ++ v.sbuildArgs⟩], v, _, _,
        by simp [buildArchAny, hany, hcross, sbuild, World.addRuns]; exact ⟨rfl, rfl⟩,
        by simp [RunsWith], by simp [hany]⟩
    · exact ⟨[⟨joinWords (v.buildProfiles ++ ["cross".toList]), anyFlags arch ++ v.sbuildArgs⟩],
        _, _, _,
        by simp [buildArchAny, hany, hcross, sbuild, World.addRuns]; exact ⟨rfl, rfl, rfl⟩,
        by simp [RunsWith], by simp [hany]⟩
  · exact ⟨[], v, _, _, by simp [buildArchAny, hany, World.addRuns]; exact ⟨rfl, rfl⟩,
      by simp [RunsWith], by simp [hany]⟩

/-- The two builds run `sbuild` with the arguments collected, if there is anything to build. -/
theorem outcome_builds (v : Vars) (w : World) :
    ∃ runs v' out ending, (script [buildArchAll m, buildArchAny m arch] true v w).outcome =
        ⟨v', w.addRuns runs, out, ending⟩ ∧
      RunsWith arch v.sbuildArgs runs ∧ (runs = [] ↔ ¬HasPackages m) := by
  obtain ⟨runs, out, ending, houtcome, hwith, hruns, hending⟩ := outcome_buildArchAll m arch v w
  unfold HasPackages
  rcases hending with rfl | ⟨rfl, hne⟩
  · obtain ⟨runs', v', out', ending', houtcome', hwith', hruns'⟩ :=
      outcome_buildArchAny m arch v (w.addRuns runs)
    refine ⟨runs ++ runs', v', out ++ out', ending', ?_, ?_, ?_⟩
    · rw [outcome_script_cons, houtcome, Outcome.next_status, outcome_script_one, houtcome',
        Outcome.after_mk, World.addRuns_addRuns]
    · intro run hmem
      rcases List.mem_append.mp hmem with hmem | hmem
      · exact hwith run hmem
      · exact hwith' run hmem
    · rw [List.append_eq_nil_iff, hruns, hruns']
      simp
  · refine ⟨runs, v, out, .exited false, ?_, hwith, ?_⟩
    · rw [outcome_script_cons, houtcome, Outcome.next_exited]
    · simp [hruns] at hne
      simp [hruns, hne]

/-- Requests are noted one after another. -/
theorem World.askAll_askAll (w : World) (urls urls' : List Text) :
    (w.askAll urls).askAll urls' = w.askAll (urls ++ urls') := by
  simp [World.askAll]

/-- The collection of the suites, with the checks masked, comes to the testing sets. -/
theorem outcome_collect (args : List Text) (v : Vars) (w : World) :
    ∃ v', v'.sbuildArgs = c.firstArgs ++ (repoSources c m).map extraRepository ∧
      (sbuildBuildpackage c m arch args true v w).outcome =
        (addTestingSets c m true v' (w.askAll c.repoAsked)).outcome.next fun _ v w =>
          (script [
            assign true fun v _ => { v with sbuildArgs := v.sbuildArgs ++ c.lastArgs args },
            buildArchAll m, buildArchAny m arch] true v w).outcome := by
  obtain ⟨v₁, hunstable, hargs₁, _⟩ := outcome_addUnstable c m
    { v with
      buildProfiles := (words c.buildProfiles).filter (· ≠ "cross".toList)
      sbuildArgs := c.firstArgs } w
  obtain ⟨v₂, hstable, hargs₂, _⟩ := outcome_addStable c m v₁
    (w.askAll (if c.useUnstable ≠ [] then c.unstableAsked else []))
  refine ⟨v₂, ?_, ?_⟩
  · rw [hargs₂, hargs₁, repoSources, List.map_append, List.append_assoc]
  · rw [sbuildBuildpackage, outcome_script_cons, outcome_assign, finish_ok, Outcome.next_status,
      Outcome.after_nil, outcome_script_cons, hunstable, Outcome.next_status, Outcome.after_nil,
      outcome_script_cons, hstable, Outcome.next_status, Outcome.after_nil, outcome_script_cons,
      World.askAll_askAll]
    rfl

/-- A testing set that is malformed, missing or whose check fails ends the command before
any run. -/
theorem outcome_sbuild_stop (hfound : ¬FirstLineFound c m) (args : List Text) (v : Vars)
    (w : World) :
    ∃ v', (sbuildBuildpackage c m arch args true v w).outcome =
      ⟨v', w.askAll (c.repoAsked ++ c.testingAsked m), [], .exited false⟩ := by
  obtain ⟨v₁, _, hcollect⟩ := outcome_collect c m arch args v w
  obtain ⟨v₂, hstop⟩ := outcome_addTestingSets_stop c m hfound v₁ (w.askAll c.repoAsked)
  exact ⟨v₂, by rw [hcollect, hstop, Outcome.next_exited, World.askAll_askAll]⟩

/-- Otherwise every run gets the sources that exist and the testing sets. -/
theorem outcome_sbuild (hfound : FirstLineFound c m) (args : List Text) (v : Vars) (w : World) :
    ∃ runs v' out ending, (sbuildBuildpackage c m arch args true v w).outcome =
        ⟨v', (w.askAll (c.repoAsked ++ c.testingAsked m)).addRuns runs, out, ending⟩ ∧
      RunsWith arch (c.sbuildArgs
        (repoSources c m ++ (setNames (firstLine c.testingSets)).map testingLine) args) runs ∧
      (runs = [] ↔ ¬HasPackages m) := by
  obtain ⟨v₁, hargs₁, hcollect⟩ := outcome_collect c m arch args v w
  obtain ⟨v₂, hsets, hargs₂, _⟩ := outcome_addTestingSets c m hfound v₁ (w.askAll c.repoAsked)
  obtain ⟨runs, v', out, ending, hbuilds, hwith, hruns⟩ := outcome_builds m arch
    { v₂ with sbuildArgs := v₂.sbuildArgs ++ c.lastArgs args }
    (w.askAll (c.repoAsked ++ c.testingAsked m))
  refine ⟨runs, v', out, ending, ?_, ?_, hruns⟩
  · rw [hcollect, hsets, Outcome.next_status, Outcome.after_nil, outcome_script_cons,
      outcome_assign, finish_ok, Outcome.next_status, Outcome.after_nil, World.askAll_askAll,
      hbuilds]
  · have hargs : v₂.sbuildArgs ++ c.lastArgs args = c.sbuildArgs
        (repoSources c m ++ (setNames (firstLine c.testingSets)).map testingLine) args := by
      rw [hargs₂, hargs₁, Config.sbuildArgs, List.map_append, List.append_assoc,
        List.append_assoc, List.append_assoc, List.append_assoc]
    rw [← hargs]
    exact hwith

end Runs

/-! ## The lists in the rootfs -/

/-- A command in the root filesystem asks the server for nothing. -/
@[simp] theorem World.exec_asked (w : World) (argv : List Text) :
    (w.exec argv).asked = w.asked := by
  unfold World.exec
  repeat' split <;> try rfl

/-- The pieces of the script between apostrophes, when the file has none. -/
theorem splitOn_echo (text : Text) {file : Text} (hfile : quote ∉ file) :
    ("echo ".toList ++ quote :: (text ++ quote :: (" > ".toList ++ file))).splitOn quote =
      "echo ".toList :: (text.splitOn quote ++ [" > ".toList ++ file]) := by
  have hrest : quote ∉ " > ".toList ++ file := by
    rw [List.mem_append, not_or]
    exact ⟨by decide, hfile⟩
  rw [List.splitOn_append_cons_self_of_not_mem (by decide), List.splitOn_append_cons_self,
    List.splitOn_eq_singleton hrest]

/-- A text without apostrophes is written to the file line by line. -/
theorem exec_echoArgv (w : World) {text file : Text} (htext : quote ∉ text) (hfile : quote ∉ file) :
    w.exec (echoArgv text file) =
      { w with files := Function.update w.files file (some (text.splitOn '\n')) } := by
  have hredirection :
      redirection ("echo ".toList ++ quote :: (text ++ quote :: (" > ".toList ++ file))) =
        some (text, file) := by
    rw [redirection, splitOn_echo text hfile, List.splitOn_eq_singleton htext]
    simp
  rw [echoArgv, World.exec]
  simp only [and_self, if_true, hredirection]

/-- Whatever the text is, no other file is written. -/
theorem exec_echoArgv_other (w : World) (text : Text) {file other : Text} (hfile : quote ∉ file)
    (hne : other ≠ file) : (w.exec (echoArgv text file)).files other = w.files other := by
  by_cases htext : quote ∈ text
  · have hredirection : redirection
        ("echo ".toList ++ quote :: (text ++ quote :: (" > ".toList ++ file))) = none := by
      obtain ⟨before, after, rfl⟩ := List.append_of_mem htext
      rw [redirection, splitOn_echo _ hfile, List.splitOn_append_cons_self]
      obtain ⟨t, ts, hbefore⟩ := List.exists_cons_of_ne_nil (List.splitOn_ne_nil quote before)
      obtain ⟨t', ts', hafter⟩ := List.exists_cons_of_ne_nil (List.splitOn_ne_nil quote after)
      rw [hbefore, hafter]
      cases ts <;> cases ts' <;> simp
    rw [echoArgv, World.exec]
    simp only [and_self, if_true, hredirection]
  · rw [exec_echoArgv w htext hfile]
    exact Function.update_of_ne hne _ _

/-- A command with arguments has no shell in front. -/
theorem Config.words_shellCmd_false (c : Config) (h : c.interactive = false) :
    words c.shellCmd = [] := by
  simp [Config.shellCmd, h, words]

/-- An interactive command has `bash` in front. -/
theorem Config.words_shellCmd_true (c : Config) (h : c.interactive = true) :
    words c.shellCmd = ["/bin/bash".toList, "-l".toList] := by
  rw [Config.shellCmd, if_pos h]
  decide

section Lists

variable (c : Config) (m : Machine)

/-- A command in the rootfs has its effect or none, and the script goes on unless it failed. -/
theorem outcome_chr (argv : List Text) (v : Vars) (w : World) :
    ∃ w' ok, (chr c m argv true v w).outcome = ⟨v, w', [], finish true ok⟩ ∧
      (w' = w ∨ w' = w.exec (words c.shellCmd ++ argv)) ∧
      (m.chrootReady = true → ok = m.rootfs (words c.shellCmd ++ argv) ∧
        w' = if ok then w.exec (words c.shellCmd ++ argv) else w) := by
  cases hready : m.chrootReady with
  | false => exact ⟨w, false, by simp [chr, hready], Or.inl rfl, by simp⟩
  | true =>
    refine ⟨_, m.rootfs (words c.shellCmd ++ argv), by simp [chr, hready], ?_,
      fun _ => ⟨rfl, rfl⟩⟩
    split
    · exact Or.inr rfl
    · exact Or.inl rfl

/-- A command in the rootfs asks for nothing. -/
theorem chr_asked {argv : List Text} {w w' : World}
    (h : w' = w ∨ w' = w.exec (words c.shellCmd ++ argv)) : w'.asked = w.asked := by
  rcases h with rfl | rfl
  · rfl
  · exact World.exec_asked w _

/-- The URLs asked for the repository of the target. -/
def Config.sourceAsked : List Text := if c.useUnstable ≠ [] then c.unstableAsked else c.stableAsked

private theorem outcome_assign_source (v : Vars) (w : World) :
    ∃ v', (ifThenElse (test fun _ => c.useUnstable ≠ [])
      (assignFrom (getUnstableRepoSpec c m) fun t v => { v with repoSpec := t })
      (assignFrom (getStableRepoSpec c m) fun t v => { v with repoSpec := t }) true v w).outcome =
        ⟨v', w.askAll c.sourceAsked, [], specEnding m c.sourceAsked⟩ := by
  have hsub : ∀ urls, (specEnding m urls).ofSubshell true = specEnding m urls := by
    intro urls
    unfold specEnding
    split <;> rfl
  unfold Config.sourceAsked
  by_cases hflag : c.useUnstable = []
  · obtain ⟨out, hwrites, _⟩ := writes_getStableRepoSpec c m w
    have hassign := hwrites.assignFrom (specEnding_ne_down m _)
      (fun t v => { v with repoSpec := t }) true v
    rw [hsub] at hassign
    exact ⟨_, by simp [hflag, hassign]; rfl⟩
  · obtain ⟨out, hwrites, _⟩ := writes_getUnstableRepoSpec c m w
    have hassign := hwrites.assignFrom (specEnding_ne_down m _)
      (fun t v => { v with repoSpec := t }) true v
    rw [hsub] at hassign
    exact ⟨_, by simp [hflag, hassign]; rfl⟩

/-- A command that writes the list of the target leaves that of the testing sets alone. -/
theorem chr_testingSetsList {text : Text} {w w' : World}
    (h : w' = w ∨ w' = w.exec (words c.shellCmd ++ echoArgv text repoList)) :
    w'.files testingSetsList = w.files testingSetsList := by
  rcases h with rfl | rfl
  · rfl
  · cases hshell : c.interactive with
    | false =>
      rw [c.words_shellCmd_false hshell, List.nil_append]
      exact exec_echoArgv_other w text (by decide) (by decide)
    | true =>
      rw [c.words_shellCmd_true hshell]
      rfl

/-- The part for the repository of the target ends the command when its check fails, and
leaves the list of the testing sets alone. -/
theorem outcome_writeRepoSource (v : Vars) (w : World) :
    ∃ v' w' ok, (writeRepoSource c m true v w).outcome = ⟨v', w', [], finish true ok⟩ ∧
      w'.asked = w.asked ++ c.sourceAsked ∧
      w'.files testingSetsList = w.files testingSetsList ∧
      (SomeFails m c.sourceAsked → ok = false) := by
  obtain ⟨v₁, hassign⟩ := outcome_assign_source c m v w
  rw [writeRepoSource, outcome_script_cons, hassign, specEnding]
  by_cases hfails : SomeFails m c.sourceAsked
  · exact ⟨v₁, w.askAll c.sourceAsked, false, by simp [hfails], rfl, rfl, fun _ => rfl⟩
  · simp only [hfails, if_false, Outcome.next_status, Outcome.after_nil, outcome_script_one,
      outcome_ifThen, outcome_test, finish_off, false_imp_iff, and_true]
    by_cases hspec : v₁.repoSpec = []
    · exact ⟨v₁, w.askAll c.sourceAsked, true, by simp [hspec], rfl, rfl⟩
    · obtain ⟨w', ok, hchr, heffect, _⟩ := outcome_chr c m (echoArgv v₁.repoSpec repoList) v₁
        (w.askAll c.sourceAsked)
      have hfiles := chr_testingSetsList c heffect
      exact ⟨v₁, w', ok, by simp [hspec, chrEcho, hchr], chr_asked c heffect, hfiles⟩

/-- The whole function is its second part behind the first, unless that fails. -/
theorem outcome_writeRootfsAptSources (v : Vars) (w : World) :
    ∃ v' w' ok, (writeRepoSource c m true v w).outcome = ⟨v', w', [], finish true ok⟩ ∧
      w'.asked = w.asked ++ c.sourceAsked ∧
      w'.files testingSetsList = w.files testingSetsList ∧
      (SomeFails m c.sourceAsked → ok = false) ∧
      (ok = false → (writeRootfsAptSources c m true v w).ending = .exited false) ∧
      (ok = true → (writeRootfsAptSources c m true v w).outcome =
        (writeTestingSets c m true v' w').outcome) := by
  obtain ⟨v', w', ok, hsource, hasked, hfiles, hfails⟩ := outcome_writeRepoSource c m v w
  have hseq : (writeRootfsAptSources c m true v w).outcome =
      (Outcome.mk v' w' [] (finish true ok)).next fun _ v w =>
        (writeTestingSets c m true v w).outcome := by
    rw [writeRootfsAptSources, outcome_seq, hsource]
  refine ⟨v', w', ok, hsource, hasked, hfiles, hfails, ?_, ?_⟩
  · rintro rfl
    exact congrArg Outcome.ending hseq
  · rintro rfl
    rw [hseq, finish_ok, Outcome.next_status, Outcome.after_nil]

/-- The text for the suites found holds no quote. -/
theorem quote_not_mem_testingText {m : Machine} {names : List Text}
    (h : ∀ name ∈ names, SetFound m name) :
    quote ∉ List.intercalate ['\n'] (names.map testingLine) := by
  have hline : ∀ name ∈ names, quote ∉ testingLine name := by
    intro name hmem
    unfold testingLine testingSuite
    simp only [List.mem_append, not_or]
    exact ⟨⟨by decide, by decide, not_mem_of_validName (h name hmem).1 (by decide)⟩, by decide⟩
  clear h
  induction names with
  | nil => simp
  | cons name names ih =>
    obtain ⟨hhead, htail⟩ := List.forall_mem_cons.mp hline
    cases names with
    | nil => simpa using hhead
    | cons name' names =>
      rw [List.map_cons, List.map_cons, List.intercalate_cons_cons, List.mem_append,
        List.mem_append, not_or, not_or]
      exact ⟨⟨hhead, by decide⟩, ih htail⟩

/-- Testing sets that are malformed, missing or whose check fails end the command. -/
theorem outcome_writeTestingSets_stop (hfound : ¬FirstLineFound c m) (v : Vars) (w : World) :
    ∃ v', (writeTestingSets c m true v w).outcome =
      ⟨v', w.askAll (c.testingAsked m), [], .exited false⟩ := by
  obtain ⟨v', hassign⟩ :=
    (outcome_assign_testing c m (fun t v => { v with testingSetsSpecs := t }) v w).2 hfound
  exact ⟨v', by simp [writeTestingSets, hassign]⟩

/-- Otherwise the lines are handed to `sh` in the rootfs, if there are any. -/
theorem outcome_writeTestingSets (hfound : FirstLineFound c m) (v : Vars) (w : World) :
    ∃ v', (setNames (firstLine c.testingSets) = [] → (writeTestingSets c m true v w).outcome =
        ⟨v', w.askAll (c.testingAsked m), [], .status true⟩) ∧
      (setNames (firstLine c.testingSets) ≠ [] → (writeTestingSets c m true v w).outcome =
        (chrEcho c m
          (List.intercalate ['\n'] ((setNames (firstLine c.testingSets)).map testingLine))
          testingSetsList true v' (w.askAll (c.testingAsked m))).outcome) := by
  have hassign := (outcome_assign_testing c m (fun t v => { v with testingSetsSpecs := t }) v w).1
    hfound
  have htext := @testingText_eq_nil_iff (setNames (firstLine c.testingSets))
  generalize List.intercalate ['\n'] ((setNames (firstLine c.testingSets)).map testingLine) =
    text at hassign htext ⊢
  refine ⟨{ v with testingSetsSpecs := text }, ?_, ?_⟩
  · intro hnames
    simp [writeTestingSets, hassign, htext.mpr hnames]
  · intro hnames
    simp [writeTestingSets, hassign, htext.not.mpr hnames]

end Lists

end WirenBoard.Devenv
