import WirenBoard.Models.Devenv.Build
import WirenBoard.Models.Devenv.Launch

/-!
# What a command of `wbdev` builds

`entrypoint.sh` runs in the container. It takes its settings from the variables that the
host has passed, with a default for each, and then runs one command. Two of the commands
build packages with `sbuild`. What they build is computed here from the variables of the
host: nothing in the container or in between adds, drops or changes a build, except that a
failed one is the last.
-/

namespace WirenBoard.Devenv

open Shell

open Rootfs (orDefault words joinWords)

/-! ## Settings -/

/-- `WBDEV_BUILD_METHOD`. -/
inductive BuildMethod where
  /-- In a clean environment of the build machine. -/
  | sbuild
  /-- In the emulated rootfs. -/
  | qemuchroot
  deriving DecidableEq

/-- What is built for. -/
structure Target where
  /-- `WBDEV_TARGET_BOARD`. -/
  board : Text
  /-- `WBDEV_TARGET_ARCH`. -/
  arch : Text
  /-- `WBDEV_TARGET_RELEASE`. -/
  release : Text
  /-- `ROOTFS_PKG_CONFIG_PATH`, where it is set. -/
  pkgConfigPath : Option Text

/-- The values of `WBDEV_TARGET` that name a target. -/
def namedTarget (name : Text) : Option Target :=
  if name = "trixie-armhf".toList ∨ name = "current-armhf".toList then
    some ⟨"wb6".toList, "armhf".toList, "trixie".toList,
      some "/rootfs/trixie-armhf/usr/lib/arm-linux-gnueabihf/pkgconfig".toList⟩
  else if name = "trixie-arm64".toList ∨ name = "current-arm64".toList ∨ name = "wb8".toList then
    some ⟨"wb8".toList, "arm64".toList, "trixie".toList,
      some "/rootfs/trixie-arm64/usr/lib/aarch64-linux-gnu/pkgconfig".toList⟩
  else if name = "trixie-host".toList ∨ name = "trixie-amd64".toList ∨
      name = "current-host".toList ∨ name = "current-amd64".toList then
    some ⟨"host".toList, "amd64".toList, "trixie".toList, none⟩
  else none

section Settings

variable (env : Text → Option Text)

/-- `${n:-default}`. -/
def setting (n default : String) : Text := orDefault (textOf env n.toList) default.toList

/-- Any other method than the two stands for `sbuild`. -/
def buildMethod : BuildMethod :=
  if setting env "WBDEV_BUILD_METHOD" "" = "qemuchroot".toList then .qemuchroot else .sbuild

/-- A named target goes before the single variables. -/
def target : Target :=
  (namedTarget (setting env "WBDEV_TARGET" "")).getD
    ⟨setting env "WBDEV_TARGET_BOARD" "wb6", setting env "WBDEV_TARGET_ARCH" "armhf",
      setting env "WBDEV_TARGET_RELEASE" "trixie", none⟩

/-- `[ "$WBDEV_INSTALL_DEPS" = "yes" ]`. -/
def installDeps : Bool := setting env "WBDEV_INSTALL_DEPS" "no" = "yes".toList

/-- The variables that choose the repositories. -/
def config (interactive : Bool) : Config where
  board := (target env).board
  release := (target env).release
  repoRelease := setting env "WBDEV_TARGET_REPO_RELEASE" "stable"
  repoPrefix := setting env "WBDEV_TARGET_REPO_PREFIX" ""
  useUnstable := setting env "WBDEV_USE_UNSTABLE_DEPS" ""
  testingSets := setting env "WBDEV_TESTING_SETS" ""
  buildProfiles := setting env "DEB_BUILD_PROFILES" ""
  interactive := interactive

end Settings

/-! ## Commands -/

/-- The commands. -/
inductive Command where
  /-- A program or a shell of the developer in the container. -/
  | user
  /-- A native build of packages. -/
  | ndeb
  /-- A build with a cross compiler in the container. -/
  | gdeb
  /-- `make` in the container. -/
  | hmake
  /-- A program or a shell in the container. -/
  | root
  /-- A program or a shell of the developer in the rootfs. -/
  | chuser
  /-- `make` in the rootfs. -/
  | make
  /-- A compilation database. -/
  | compiledb
  /-- A build of packages for the target. -/
  | cdeb
  /-- A program or a shell in the rootfs. -/
  | chroot
  deriving DecidableEq

/-- The names of the commands. -/
def commandNames : List (Text × Command) := [
  ("user".toList, .user), ("ndeb".toList, .ndeb), ("gdeb".toList, .gdeb),
  ("hmake".toList, .hmake), ("root".toList, .root), ("chuser".toList, .chuser),
  ("make".toList, .make), ("compiledb".toList, .compiledb), ("cdeb".toList, .cdeb),
  ("chroot".toList, .chroot)]

/-- The command and its arguments; without arguments it is `user`. -/
def readCommand : List Text → Option Command × List Text
  | [] => (some .user, [])
  | name :: args => (commandNames.lookup name, args)

/-- Whether `shell_cmd` is a shell. -/
def Command.interactive (cmd : Command) (args : List Text) : Bool :=
  cmd ∈ [.user, .chuser, .root, .chroot] && args = []

/-- What the other programs do. -/
structure Programs where
  /-- Whether the script comes to its command. -/
  prepared : Bool
  /-- Whether a program with these arguments succeeds in the container. -/
  root : List Text → Bool
  /-- The same for the developer. -/
  devsudo : List Text → Bool
  /-- The same for the developer in the rootfs. -/
  chu : List Text → Bool
  /-- Whether a file is there. -/
  isFile : Text → Bool

section Commands

variable (g : Globbing) (env : Text → Option Text) (m : Machine) (p : Programs)

/-- `print_target_info`. -/
def printTargetInfo : Sh Vars World :=
  script [
    print fun _ => "Build target: ".toList ++ (target env).release ++ '-' :: (target env).arch ++
      " (board ".toList ++ (target env).board ++ [')'],
    echo "You can change it by setting WBDEV_TARGET variable (e.g. 'trixie-armhf'/'trixie-arm64')"]

/-- `$shell_cmd "$@"`, which is nothing when there are no words. -/
def shellOr (c : Config) (args : List Text) : Sh Vars World :=
  if words c.shellCmd ++ args = [] then call true else call (p.root (words c.shellCmd ++ args))

/-- `chu`: the words of `shell_cmd` come before the arguments. -/
def chu (c : Config) (argv : List Text) : Sh Vars World :=
  script [call m.chrootReady, call (p.chu (words c.shellCmd ++ argv))]

/-- `chr apt-get update` and `chr mk-build-deps`, with the options for `apt-get`. -/
def chrBuildDeps (c : Config) (apt : String) : Sh Vars World :=
  script [
    chr c m ["apt-get".toList, "update".toList],
    chr c m ["mk-build-deps".toList, "-ir".toList, "-t".toList, apt.toList]]

/-- `ROOTFS`. -/
def rootfs : Text := "/rootfs/".toList ++ (target env).release ++ '-' :: (target env).arch

/-- `target_triple`. -/
def targetTriple : Text :=
  if (target env).arch = "armhf".toList then "arm-linux-gnueabihf".toList
  else if (target env).arch = "arm64".toList then "aarch64-linux-gnu".toList
  else []

/-- `compile_commands.json`. -/
def compileCommands : Text := "compile_commands.json".toList

/-- `add_target_to_compiledb`. -/
def addTargetToCompiledb : Sh Vars World :=
  ifThen (test fun _ => targetTriple env ≠ [] && p.isFile compileCommands) (script [
    print fun _ => "Adding --target=".toList ++ targetTriple env ++ " --sysroot=".toList ++
      rootfs env ++ " to ".toList ++ compileCommands,
    pipe (call (p.root ["jq".toList, "--arg".toList, "target".toList,
        "--target=".toList ++ targetTriple env, "--arg".toList, "sysroot".toList,
        "--sysroot=".toList ++ rootfs env, compileCommands]))
      fun _ => call (p.root ["sponge".toList, compileCommands])])

/-- The options of `dpkg-buildpackage` that leave the package unsigned. -/
def unsigned : List Text := ["-us".toList, "-uc".toList]

/-- `sbuild_buildpackage` with its arguments; without any, `$1` is unset and ends the script. -/
def sbuildArguments : List Text → Sh Vars World
  | [] => exit false
  | arch :: args => sbuildBuildpackage (config env false) m arch args

/-- `ndeb`. -/
def ndeb (args : List Text) : Sh Vars World :=
  match buildMethod env with
  | .sbuild => script [
      echo "WARNING: wbdev ndeb with sbuild is deprecated.",
      echo "  To build arch-all package for Wiren Board, use wbdev cdeb instead.",
      echo "  To build for dev machine, use wbdev cdeb with WBDEV_TARGET=trixie-host.",
      echo "",
      sbuildArguments env m ("amd64".toList :: args)]
  | .qemuchroot => script [
      ifThen (test fun _ => installDeps env) (script [
        orElse (call (p.root ["apt-get".toList, "update".toList]))
          (call (p.root ["apt-get".toList, "update".toList])),
        call (p.root ["mk-build-deps".toList, "-ir".toList, "-t".toList,
          "apt-get --force-yes -y".toList])]),
      call (p.devsudo ("dpkg-buildpackage".toList :: unsigned ++ args))]

/-- `gdeb`. -/
def gdeb (args : List Text) : Sh Vars World :=
  seq (printTargetInfo env)
    (if (target env).arch = "armhf".toList then
      call (p.devsudo (["CC=arm-linux-gnueabihf-gcc".toList, "dpkg-buildpackage".toList,
        "-b".toList, "-aarmhf".toList] ++ unsigned ++ args))
    else if (target env).arch = "arm64".toList then
      call (p.devsudo (["CC=aarch64-linux-gnu-gcc".toList, "dpkg-buildpackage".toList,
        "-b".toList, "-aarm64".toList] ++ unsigned ++ args))
    else script [
      print fun _ => "Unsupported target arch: ".toList ++ (target env).arch,
      exit false])

/-- `compiledb`. -/
def compiledb (args : List Text) : Sh Vars World :=
  let c := config env false
  script [
    printTargetInfo env,
    writeRootfsAptSources c m,
    chrBuildDeps m c "apt-get --force-yes -y -o Dpkg::Options::=--force-confdef",
    ifThenElse (test fun _ => p.isFile "CMakeLists.txt".toList)
      (script [
        chu m p c ["mkdir".toList, "-p".toList, "build".toList],
        call ((target env).pkgConfigPath.isSome && p.root ["cmake".toList,
          "-DCMAKE_EXPORT_COMPILE_COMMANDS=ON".toList, "..".toList]),
        call (p.root ["mv".toList, "build/compile_commands.json".toList, compileCommands])])
      (ifThen (test fun _ => p.isFile "Makefile".toList)
        (pipe (chu m p c ["make".toList, "-Bnwk".toList])
          fun _ => call (p.root ["compiledb".toList, "-o".toList, compileCommands]))),
    addTargetToCompiledb env p,
    shellOr p c args]

/-- `cdeb`; the architecture is not quoted in the call. -/
def cdeb (args : List Text) : Sh Vars World :=
  seq (printTargetInfo env)
    (match buildMethod env with
    | .sbuild => sbuildArguments env m (g.unquoted (target env).arch ++ args)
    | .qemuchroot => script [
        ifThen (test fun _ => installDeps env) (script [
          writeRootfsAptSources (config env false) m,
          chrBuildDeps m (config env false) "apt-get --force-yes -y"]),
        chu m p (config env false)
          ("ccache-setup".toList :: "dpkg-buildpackage".toList :: unsigned ++ args)])

/-- The branches of the last `case`. -/
def runCommand (cmd : Command) (args : List Text) : Sh Vars World :=
  let c := config env (cmd.interactive args)
  match cmd with
  | .user =>
    if c.interactive then
      call (p.root ["su".toList, "-".toList, setting env "DEV_USER" "user"])
    else call (p.devsudo args)
  | .ndeb => ndeb env m p args
  | .gdeb => gdeb env p args
  | .hmake => script [
      ifThen (test fun _ => installDeps env) (script [
        call (p.root ["apt-get".toList, "update".toList]),
        call (p.root ["mk-build-deps".toList, "-ir".toList, "-t".toList,
          "apt-get --force-yes -y".toList])]),
      call (p.devsudo ("make".toList :: args))]
  | .root => shellOr p c args
  | .chuser => script [printTargetInfo env, chu m p c args]
  | .make => script [
      printTargetInfo env,
      ifThen (test fun _ => installDeps env) (chrBuildDeps m c "apt-get --force-yes -y"),
      chu m p c ("make".toList :: args)]
  | .compiledb => compiledb env m p args
  | .cdeb => cdeb g env m p args
  | .chroot => script [
      printTargetInfo env,
      writeRootfsAptSources c m,
      chr c m args]

/-- `entrypoint.sh`; an unknown command ends it with a failure. -/
def entrypoint (args : List Text) : Sh Vars World :=
  seq (call p.prepared)
    (match readCommand args with
    | (some cmd, args) => runCommand g env m p cmd args
    | (none, _) => exit false)

end Commands

/-! ## Builds -/

/-- The runs of `sbuild` for an architecture: one for the packages of all architectures and
one for the others, where there are such packages. Only the second one is a cross build. -/
def runsFor (m : Machine) (arch : Text) (profiles sbuildArgs : List Text) : List SbuildRun :=
  (if hasArchAll m then [⟨joinWords profiles, allFlags ++ sbuildArgs⟩] else []) ++
    if hasArchAny m then
      [⟨joinWords (profiles ++ if arch = m.architecture then [] else ["cross".toList]),
        anyFlags arch ++ sbuildArgs⟩]
    else []

/-- The runs of `sbuild_buildpackage`. -/
def buildRuns (c : Config) (m : Machine) (arch : Text) (args : List Text) : List SbuildRun :=
  runsFor m arch ((words c.buildProfiles).filter (· ≠ "cross".toList))
    (c.sbuildArgs (repoSources c m ++ (setNames (firstLine c.testingSets)).map testingLine) args)

/-- The runs that the arguments of `sbuild_buildpackage` ask for. -/
def argumentRuns (env : Text → Option Text) (m : Machine) : List Text → List SbuildRun
  | [] => []
  | arch :: args => buildRuns (config env false) m arch args

/-- The runs that a command asks for, from the variables alone. -/
def plannedRuns (g : Globbing) (env : Text → Option Text) (m : Machine) (args : List Text) :
    List SbuildRun :=
  match buildMethod env, readCommand args with
  | .sbuild, (some .ndeb, args) => argumentRuns env m ("amd64".toList :: args)
  | .sbuild, (some .cdeb, args) => argumentRuns env m (g.unquoted (target env).arch ++ args)
  | _, _ => []

/-- From here the script makes the first of these runs, and all of them when it succeeds. -/
def MakesAt (c : Sh Vars World) (v : Vars) (w : World) (before runs : List SbuildRun) : Prop :=
  ∃ made, (c true v w).world.runs = before ++ made ∧ made <+: runs ∧
    ((c true v w).ending = .status true → made = runs)

/-- The script makes the first of these runs, and all of them when it succeeds. -/
def Makes (c : Sh Vars World) (runs : List SbuildRun) : Prop :=
  ∀ v w, MakesAt c v w w.runs runs

/-- What a script makes can be read off its outcome. -/
theorem MakesAt.of_outcome {c c' : Sh Vars World} {v v' : Vars} {w w' : World}
    {before runs : List SbuildRun} (h : MakesAt c' v' w' before runs)
    (houtcome : (c true v w).outcome = (c' true v' w').outcome) : MakesAt c v w before runs := by
  obtain ⟨made, hmade, hprefix, hall⟩ := h
  exact ⟨made, (congrArg (fun o => o.world.runs) houtcome).trans hmade, hprefix,
    fun h => hall ((congrArg Outcome.ending houtcome).symm.trans h)⟩

section Collected

variable (c : Config) (m : Machine) (arch : Text)

/-- With all testing sets found, the builds start with the profiles but for `cross` and with
the collected arguments. -/
theorem outcome_collected (hfound : FirstLineFound c m) (args : List Text) (v : Vars) (w : World) :
    ∃ v', v'.buildProfiles = (words c.buildProfiles).filter (· ≠ "cross".toList) ∧
      v'.sbuildArgs = c.sbuildArgs
        (repoSources c m ++ (setNames (firstLine c.testingSets)).map testingLine) args ∧
      (sbuildBuildpackage c m arch args true v w).outcome =
        (script [buildArchAll m, buildArchAny m arch] true v'
          (w.askAll (c.repoAsked ++ c.testingAsked m))).outcome := by
  obtain ⟨v₁, hunstable, hargs₁, hprofiles₁⟩ := outcome_addUnstable c m
    { v with
      buildProfiles := (words c.buildProfiles).filter (· ≠ "cross".toList)
      sbuildArgs := c.firstArgs } w
  obtain ⟨v₂, hstable, hargs₂, hprofiles₂⟩ := outcome_addStable c m v₁
    (w.askAll (if c.useUnstable ≠ [] then c.unstableAsked else []))
  obtain ⟨v₃, hsets, hargs₃, hprofiles₃⟩ := outcome_addTestingSets c m hfound v₂
    ((w.askAll (if c.useUnstable ≠ [] then c.unstableAsked else [])).askAll c.stableAsked)
  refine ⟨{ v₃ with sbuildArgs := v₃.sbuildArgs ++ c.lastArgs args }, ?_, ?_, ?_⟩
  · rw [hprofiles₃, hprofiles₂, hprofiles₁]
  · simp [hargs₃, hargs₂, hargs₁, Config.sbuildArgs, repoSources]
  · rw [sbuildBuildpackage, outcome_script_cons, outcome_assign, finish_ok, Outcome.next_status,
      Outcome.after_nil, outcome_script_cons, hunstable, Outcome.next_status, Outcome.after_nil,
      outcome_script_cons, hstable, Outcome.next_status, Outcome.after_nil, outcome_script_cons,
      hsets, Outcome.next_status, Outcome.after_nil, outcome_script_cons, outcome_assign,
      finish_ok, Outcome.next_status, Outcome.after_nil, World.askAll_askAll,
      World.askAll_askAll, Config.repoAsked, List.append_assoc]

/-- The first build makes its run where there is something to build. -/
theorem buildArchAll_runs (v : Vars) (w : World) :
    ∃ out ok, (buildArchAll m true v w).outcome =
      ⟨v, w.addRuns (if hasArchAll m then [⟨joinWords v.buildProfiles,
        allFlags ++ v.sbuildArgs⟩] else []), out, finish true ok⟩ := by
  cases hall : hasArchAll m with
  | true =>
    exact ⟨_, m.sbuild (allFlags ++ v.sbuildArgs),
      by simp [buildArchAll, hall, sbuild, World.addRuns]; rfl⟩
  | false => exact ⟨_, true, by simp [buildArchAll, hall, World.addRuns]; rfl⟩

/-- The second build makes its run where there is something to build. -/
theorem buildArchAny_runs (v : Vars) (w : World) :
    ∃ v' out ending, (buildArchAny m arch true v w).outcome =
      ⟨v', w.addRuns (if hasArchAny m then [⟨joinWords (v.buildProfiles ++
        if arch = m.architecture then [] else ["cross".toList]), anyFlags arch ++ v.sbuildArgs⟩]
        else []), out, ending⟩ := by
  cases hany : hasArchAny m with
  | true =>
    by_cases harch : arch = m.architecture
    · exact ⟨_, _, _,
        by simp [buildArchAny, hany, harch, sbuild, World.addRuns]; exact ⟨rfl, rfl, rfl⟩⟩
    · exact ⟨_, _, _,
        by simp [buildArchAny, hany, harch, sbuild, World.addRuns]; exact ⟨rfl, rfl, rfl⟩⟩
  | false => exact ⟨_, _, _, by simp [buildArchAny, hany, World.addRuns]; exact ⟨rfl, rfl, rfl⟩⟩

/-- The second build follows the first one unless that failed. -/
theorem builds_make (v : Vars) (w : World) :
    MakesAt (script [buildArchAll m, buildArchAny m arch]) v w w.runs
      (runsFor m arch v.buildProfiles v.sbuildArgs) := by
  obtain ⟨out, ok, hall⟩ := buildArchAll_runs m v w
  have houtcome : (script [buildArchAll m, buildArchAny m arch] true v w).outcome = _ :=
    (outcome_script_cons ..).trans (congrArg (Outcome.next · _) hall)
  cases ok with
  | true =>
    obtain ⟨v', out', ending, hany⟩ := buildArchAny_runs m arch v
      (w.addRuns (if hasArchAll m then [⟨joinWords v.buildProfiles, allFlags ++ v.sbuildArgs⟩]
        else []))
    rw [finish_ok, Outcome.next_status, outcome_script_one, hany, World.addRuns_addRuns]
      at houtcome
    exact ⟨_, congrArg (fun o => o.world.runs) houtcome, List.prefix_refl _, fun _ => rfl⟩
  | false =>
    rw [finish_failed, Outcome.next_exited] at houtcome
    refine ⟨_, congrArg (fun o => o.world.runs) houtcome, List.prefix_append _ _, fun h => ?_⟩
    exact absurd ((congrArg Outcome.ending houtcome).symm.trans h) (by simp)

/-- `sbuild_buildpackage` makes the runs for its architecture. -/
theorem sbuildBuildpackage_makes (args : List Text) :
    Makes (sbuildBuildpackage c m arch args) (buildRuns c m arch args) := by
  intro v w
  by_cases hfound : FirstLineFound c m
  · obtain ⟨v', hprofiles, hargs, houtcome⟩ := outcome_collected c m arch hfound args v w
    have hbuilds := builds_make m arch v' (w.askAll (c.repoAsked ++ c.testingAsked m))
    rw [hprofiles, hargs] at hbuilds
    exact hbuilds.of_outcome houtcome
  · obtain ⟨v', houtcome⟩ := outcome_sbuild_stop c m arch hfound args v w
    refine ⟨[], ?_, List.nil_prefix, fun h => ?_⟩
    · exact (congrArg (fun o => o.world.runs) houtcome).trans (List.append_nil _).symm
    · exact absurd ((congrArg Outcome.ending houtcome).symm.trans h) (by simp)

end Collected

/-! ## Everything else -/

/-- These runs have been made. -/
def Made (runs : List SbuildRun) (w : World) : Prop := w.runs = runs

/-- The script runs no `sbuild`. -/
def Quiet (c : Sh Vars World) : Prop := ∀ runs, Keeps (Made runs) (Made runs) c

/-- A quiet script makes nothing. -/
theorem Quiet.makes {c : Sh Vars World} (hc : Quiet c) : Makes c [] := by
  intro v w
  obtain ⟨_, hworld, _⟩ := hc w.runs true v w rfl rfl
  exact ⟨[], hworld.trans (List.append_nil _).symm, List.nil_prefix, fun _ => rfl⟩

/-- A quiet script before another makes no difference. -/
theorem Makes.after {a b : Sh Vars World} {runs : List SbuildRun} (ha : Quiet a)
    (hb : Makes b runs) : Makes (seq a b) runs := by
  intro v w
  obtain ⟨_, hworld, _⟩ := ha w.runs true v w rfl rfl
  have hruns : (a true v w).world.runs = w.runs := hworld
  unfold MakesAt
  rw [seq, Result.thenRun]
  cases hend : (a true v w).ending with
  | status ok =>
    have hmakes := hb (a true v w).vars (a true v w).world
    rw [hruns] at hmakes
    exact hmakes
  | exited ok => exact ⟨[], by simp [hruns], List.nil_prefix, by simp [hend]⟩
  | down => exact ⟨[], by simp [hruns], List.nil_prefix, by simp [hend]⟩

section Quiet

variable {a : Sh Vars World} (c : Config) (m : Machine)

private theorem quiet_simple {f : Vars → World → Vars × World × Bool}
    (hf : ∀ v w, (f v w).2.1.runs = w.runs) : Quiet (simple f) := by
  intro runs errexit
  refine Spec.simple fun v w hmade _ => ?_
  have hruns : Made runs (f v w).2.1 := (hf v w).trans hmade
  exact ⟨hruns, fun _ _ => hruns, fun _ => hruns⟩

private theorem quiet_echo (line : String) : Quiet (echo line) := fun _ _ => Spec.echo

private theorem quiet_pipe {b : List String → Sh Vars World} (ha : Quiet a)
    (hb : ∀ out, Quiet (b out)) :
    Quiet (pipe a b) := fun runs errexit =>
  Spec.pipe (ha runs errexit) (fun out => hb out runs errexit) fun _ hmade _ => hmade

private theorem quiet_platformHasSuite (repoPrefix suite platform : Text) :
    Quiet (platformHasSuite m repoPrefix suite platform) := by
  intro runs
  have hfound : Keeps (Made runs) (Made runs) (ifThenElse
      (andThen (test fun v : Vars => 200 ≤ v.httpCode) (test fun v => v.httpCode < 400))
      (call true) die) := .ifThenElse (.andThen (.test _) (.test _)) (.call _) (.exit _)
  exact .script ⟨quiet_simple (fun _ _ => rfl) runs, .assign _ _, .ifThen (.test _) (.exit _),
    .ifThenElse (.test _) (.call _) hfound⟩

private theorem quiet_getStableRepoSpec : Quiet (getStableRepoSpec c m) := by
  intro runs
  have hsuite (repoPrefix suite platform : Text) :=
    quiet_platformHasSuite m repoPrefix suite platform runs
  exact .script ⟨.assign _ _, .ifThenElse (.test _) (.assign _ _)
    (.ifThenElse (hsuite _ _ _) (.assign _ _) (.call _)), .print _⟩

private theorem quiet_getUnstableRepoSpec : Quiet (getUnstableRepoSpec c m) := by
  intro runs
  have hsuite (repoPrefix suite platform : Text) :=
    quiet_platformHasSuite m repoPrefix suite platform runs
  exact .script ⟨.assign _ _,
    .ifThen (.test _) (.ifThenElse (hsuite _ _ _) (.assign _ _) (.call _)), .print _⟩

private theorem quiet_getTestingSetsRepoSpecs : Quiet (getTestingSetsRepoSpecs c m) := by
  intro runs
  have hsuite (repoPrefix suite platform : Text) :=
    quiet_platformHasSuite m repoPrefix suite platform runs
  refine .map (fun name => .ifThen (.test _) ?_) _
  exact .script ⟨.ifThen (.test _) (.exit _), .ifThen (.neg (hsuite _ _ _)) (.exit _), .print _⟩

private theorem World.exec_runs (w : World) (argv : List Text) : (w.exec argv).runs = w.runs := by
  unfold World.exec
  repeat' split <;> try rfl

private theorem quiet_chr (argv : List Text) : Quiet (chr c m argv) := by
  intro runs
  refine .script ⟨.call _, quiet_simple (fun v w => ?_) runs⟩
  dsimp only
  split
  · exact w.exec_runs _
  · rfl

private theorem quiet_writeRootfsAptSources : Quiet (writeRootfsAptSources c m) := by
  intro runs
  have hunstable := Keeps.assignFrom (quiet_getUnstableRepoSpec c m runs)
  have hstable := Keeps.assignFrom (quiet_getStableRepoSpec c m runs)
  have htesting := Keeps.assignFrom (quiet_getTestingSetsRepoSpecs c m runs)
  have hwrite {line : Vars → Text} {argv : Text → List Text} :
      Keeps (Made runs) (Made runs) (caseOf line fun t => chr c m (argv t)) :=
    .caseOf fun _ => quiet_chr c m _ runs
  exact .seq
    (.script ⟨.ifThenElse (.test _) (hunstable _) (hstable _), .ifThen (.test _) hwrite⟩)
    (.script ⟨htesting _, .ifThen (.test _) hwrite⟩)

variable (g : Globbing) (env : Text → Option Text) (p : Programs) (args : List Text)

private theorem quiet_printTargetInfo : Quiet (printTargetInfo env) := fun runs =>
  .script ⟨.print _, quiet_echo _ runs⟩

private theorem quiet_shellOr : Quiet (shellOr p c args) := by
  intro runs
  unfold shellOr
  split
  · exact .call _
  · exact .call _

private theorem quiet_chu (argv : List Text) : Quiet (chu m p c argv) := fun _ =>
  .script ⟨.call _, .call _⟩

private theorem quiet_chrBuildDeps (apt : String) : Quiet (chrBuildDeps m c apt) := fun runs =>
  .script ⟨quiet_chr c m _ runs, quiet_chr c m _ runs⟩

private theorem quiet_addTargetToCompiledb : Quiet (addTargetToCompiledb env p) := by
  intro runs
  refine .ifThen (.test _) (.script ⟨.print _, ?_⟩)
  exact quiet_pipe (fun _ => .call _) (fun _ _ => .call _) runs

private theorem quiet_gdeb : Quiet (gdeb env p args) := by
  intro runs
  refine .seq (quiet_printTargetInfo env runs) ?_
  split_ifs
  · exact .call _
  · exact .call _
  · exact .script ⟨.print _, .exit _⟩

private theorem quiet_compiledb : Quiet (compiledb env m p args) := by
  intro runs
  have hchu (argv : List Text) := quiet_chu (config env false) m p argv
  have hcmake : Keeps (Made runs) (Made runs) (script [
      chu m p (config env false) ["mkdir".toList, "-p".toList, "build".toList],
      call ((target env).pkgConfigPath.isSome && p.root ["cmake".toList,
        "-DCMAKE_EXPORT_COMPILE_COMMANDS=ON".toList, "..".toList]),
      call (p.root ["mv".toList, "build/compile_commands.json".toList, compileCommands])]) :=
    .script ⟨hchu _ runs, .call _, .call _⟩
  have hmake : Keeps (Made runs) (Made runs) (pipe
      (chu m p (config env false) ["make".toList, "-Bnwk".toList])
      fun _ => call (p.root ["compiledb".toList, "-o".toList, compileCommands])) :=
    quiet_pipe (hchu _) (fun _ _ => .call _) runs
  exact .script ⟨quiet_printTargetInfo env runs, quiet_writeRootfsAptSources _ m runs,
    quiet_chrBuildDeps _ m _ runs, .ifThenElse (.test _) hcmake (.ifThen (.test _) hmake),
    quiet_addTargetToCompiledb env p runs, quiet_shellOr _ p args runs⟩

end Quiet

/-! ## What a command builds -/

section Builds

variable (g : Globbing) (env : Text → Option Text) (m : Machine) (p : Programs) (args : List Text)

private theorem sbuildArguments_makes :
    Makes (sbuildArguments env m args) (argumentRuns env m args) := by
  cases args with
  | nil => exact Quiet.makes fun _ => .exit _
  | cons arch args => exact sbuildBuildpackage_makes _ m arch args

private theorem ndeb_makes : Makes (ndeb env m p args)
    (match buildMethod env with
    | .sbuild => argumentRuns env m ("amd64".toList :: args)
    | .qemuchroot => []) := by
  unfold ndeb
  cases buildMethod env with
  | sbuild =>
    have hsbuild := sbuildArguments_makes env m ("amd64".toList :: args)
    exact (((hsbuild.after (quiet_echo _)).after (quiet_echo _)).after (quiet_echo _)).after
      (quiet_echo _)
  | qemuchroot =>
    refine Quiet.makes fun _ => .script ⟨.ifThen (.test _) ?_, .call _⟩
    exact .script ⟨.orElse (.call _) (.call _), .call _⟩

private theorem cdeb_makes : Makes (cdeb g env m p args)
    (match buildMethod env with
    | .sbuild => argumentRuns env m (g.unquoted (target env).arch ++ args)
    | .qemuchroot => []) := by
  refine Makes.after (quiet_printTargetInfo env) ?_
  cases buildMethod env with
  | sbuild => exact sbuildArguments_makes env m _
  | qemuchroot =>
    refine Quiet.makes fun runs => .script ⟨.ifThen (.test _) ?_, quiet_chu _ m p _ runs⟩
    exact .script ⟨quiet_writeRootfsAptSources _ m runs, quiet_chrBuildDeps _ m _ runs⟩

/-- Every other command builds nothing with `sbuild`. -/
theorem quiet_runCommand {cmd : Command} (hndeb : cmd ≠ .ndeb) (hcdeb : cmd ≠ .cdeb) :
    Quiet (runCommand g env m p cmd args) := by
  intro runs
  cases cmd with
  | user =>
    unfold runCommand
    dsimp only
    split
    · exact .call _
    · exact .call _
  | ndeb => exact absurd rfl hndeb
  | gdeb => exact quiet_gdeb env p args runs
  | hmake => exact .script ⟨.ifThen (.test _) (.script ⟨.call _, .call _⟩), .call _⟩
  | root => exact quiet_shellOr _ p args runs
  | chuser => exact .script ⟨quiet_printTargetInfo env runs, quiet_chu _ m p _ runs⟩
  | make =>
    exact .script ⟨quiet_printTargetInfo env runs,
      .ifThen (.test _) (quiet_chrBuildDeps _ m _ runs), quiet_chu _ m p _ runs⟩
  | compiledb => exact quiet_compiledb m env p args runs
  | cdeb => exact absurd rfl hcdeb
  | chroot =>
    exact .script ⟨quiet_printTargetInfo env runs, quiet_writeRootfsAptSources _ m runs,
      quiet_chr _ m _ runs⟩

/-- The script makes the runs that its variables and arguments ask for. -/
theorem entrypoint_makes :
    Makes (entrypoint g env m p args) (plannedRuns g env m args) := by
  refine Makes.after (fun _ => .call _) ?_
  unfold plannedRuns
  rcases readCommand args with ⟨_ | cmd, args⟩
  · cases buildMethod env <;> exact Quiet.makes fun _ => .exit _
  · by_cases hndeb : cmd = .ndeb
    · subst hndeb
      have hmakes := ndeb_makes env m p args
      cases hmethod : buildMethod env <;> rw [hmethod] at hmakes <;> exact hmakes
    · by_cases hcdeb : cmd = .cdeb
      · subst hcdeb
        have hmakes := cdeb_makes g env m p args
        cases hmethod : buildMethod env <;> rw [hmethod] at hmakes <;> exact hmakes
      · have hquiet := (quiet_runCommand g env m p args hndeb hcdeb).makes
        cases buildMethod env <;> cases cmd <;> first | contradiction | exact hquiet

end Builds

/-! ## From the host to the builds -/

/-- `wbdev` with its arguments, once it comes to `docker`. Without a container there is no
result. -/
def wbdev (docker : Docker) (g inside : Globbing) (h : Host) (m : Machine) (p : Programs)
    (args : List Text) : Option (Result Vars World) :=
  (launch h).bind fun l => (docker.run l.exports (dockerArgs g h l args)).map fun c =>
    entrypoint inside c.env m p c.args true .unset .fresh

/-- The variables that the settings of a build are taken from. -/
def settingNames : List String := [
  "WBDEV_BUILD_METHOD", "WBDEV_TARGET", "WBDEV_TARGET_BOARD", "WBDEV_TARGET_ARCH",
  "WBDEV_TARGET_RELEASE", "WBDEV_TARGET_REPO_RELEASE", "WBDEV_TARGET_REPO_PREFIX",
  "WBDEV_USE_UNSTABLE_DEPS", "WBDEV_TESTING_SETS", "DEB_BUILD_PROFILES"]

section Settings

variable {env env' : Text → Option Text}

/-- The runs depend on these variables only. -/
theorem plannedRuns_congr (h : ∀ n ∈ settingNames, textOf env n.toList = textOf env' n.toList)
    (g : Globbing) (m : Machine) (args : List Text) :
    plannedRuns g env m args = plannedRuns g env' m args := by
  have hsetting : ∀ n ∈ settingNames, ∀ default, setting env n default = setting env' n default :=
    fun n hn default => by rw [setting, h n hn, setting]
  have hmethod : buildMethod env = buildMethod env' := by
    rw [buildMethod, hsetting _ (by simp [settingNames]), buildMethod]
  have htarget : target env = target env' := by
    unfold target
    rw [hsetting "WBDEV_TARGET" (by simp [settingNames]),
      hsetting "WBDEV_TARGET_BOARD" (by simp [settingNames]),
      hsetting "WBDEV_TARGET_ARCH" (by simp [settingNames]),
      hsetting "WBDEV_TARGET_RELEASE" (by simp [settingNames])]
  have hconfig : config env false = config env' false := by
    unfold config
    rw [htarget, hsetting "WBDEV_TARGET_REPO_RELEASE" (by simp [settingNames]),
      hsetting "WBDEV_TARGET_REPO_PREFIX" (by simp [settingNames]),
      hsetting "WBDEV_USE_UNSTABLE_DEPS" (by simp [settingNames]),
      hsetting "WBDEV_TESTING_SETS" (by simp [settingNames]),
      hsetting "DEB_BUILD_PROFILES" (by simp [settingNames])]
  have hruns (args : List Text) : argumentRuns env m args = argumentRuns env' m args := by
    cases args with
    | nil => rfl
    | cons arch args => rw [argumentRuns, hconfig, argumentRuns]
  unfold plannedRuns
  rw [hmethod, htarget]
  simp only [hruns]

end Settings

/-- In the container the settings are those of the host. -/
theorem Docker.Starts.settings {docker : Docker} {h : Host} {l : Launch} {args : List Text}
    {c : Container} (hstarts : docker.Starts l.exports (h.runLine l args) c)
    (hdocker : docker.Documented) (hl : launch h = some l)
    (himage : ∀ n, Named n → docker.imageEnv (h.text "WBDEV_IMAGE") n = none) :
    ∀ n ∈ settingNames, textOf c.env n.toList = textOf h.exports.value n.toList := by
  have hnamed {n : Text} (hn : Named n) (hccache : n ≠ ccache.dir.toList)
      (hgocache : n ≠ gocache.dir.toList) : textOf c.env n = textOf h.exports.value n := by
    rw [textOf, hstarts.named_value hdocker hn (himage n hn),
      launch_value hl hn.not_touched hccache hgocache, textOf]
  simp only [settingNames, List.forall_mem_cons]
  exact ⟨hnamed (by decide) (by decide) (by decide), hnamed (by decide) (by decide) (by decide),
    hnamed (by decide) (by decide) (by decide), hnamed (by decide) (by decide) (by decide),
    hnamed (by decide) (by decide) (by decide), hnamed (by decide) (by decide) (by decide),
    hnamed (by decide) (by decide) (by decide), hnamed (by decide) (by decide) (by decide),
    hnamed (by decide) (by decide) (by decide), hstarts.profiles hdocker hl, by simp⟩

/-- A server with every suite, and a source with packages of both kinds. -/
def bothKinds : Machine :=
  ⟨fun _ => ⟨0, 200⟩, true, fun _ => true,
    ["Architecture: all".toList, "Architecture: any".toList], "amd64".toList, fun _ => true⟩

/-- Programs that succeed. -/
def Programs.working : Programs :=
  ⟨true, fun _ => true, fun _ => true, fun _ => true, fun _ => true⟩

/-- The sample with `cdeb`. -/
def Result.sample : Result Vars World :=
  (wbdev .plain .none .none .sample bothKinds .working ["cdeb".toList]).get (by decide +kernel)

private theorem result_sample :
    wbdev .plain .none .none .sample bothKinds .working ["cdeb".toList] = some Result.sample :=
  (Option.some_get _).symm

end WirenBoard.Devenv
