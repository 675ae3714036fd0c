import WirenBoard.Models.Devenv.Build

/-!
# Failed checks

A failed check should stop the command that makes it. In `writeRootfsAptSources` it always
does. In `sbuildBuildpackage` the checks of the stable and of the unstable suite are made
in declarations of local variables, so that a failure leaves the suite out and the build
goes on. The command stops on a failed check exactly when no such check is made, when the
testing sets stop it, or when there is nothing to build.
-/

namespace WirenBoard.Devenv

open Shell

/-- The sources that a build wants and that exist, in order. -/
def wantedSources (c : Config) (m : Machine) : List Text :=
  repoSources c m ++ (setNames c.testingSets).map testingLine

/-- A failed check stops the command, and without one a build gets the wanted sources. -/
structure ChecksStop (c : Config) (m : Machine) : Prop where
  /-- With a failed check `sbuild` is not run. -/
  sbuild : ∀ arch args v files,
    SomeFails m (sbuildBuildpackage c m arch args true v ⟨[], [], files⟩).world.asked →
    (sbuildBuildpackage c m arch args true v ⟨[], [], files⟩).world.runs = []
  /-- With a failed check nothing runs that follows `write_rootfs_apt_sources`. -/
  rootfs : ∀ v files,
    SomeFails m (writeRootfsAptSources c m true v ⟨[], [], files⟩).world.asked →
    ∀ next, seq (writeRootfsAptSources c m) next true v ⟨[], [], files⟩ =
      writeRootfsAptSources c m true v ⟨[], [], files⟩
  /-- Without a failed check and without a missing testing set every run of `sbuild` gets
  one option for each source. -/
  sources : ∀ arch args v files,
    ¬SomeFails m (sbuildBuildpackage c m arch args true v ⟨[], [], files⟩).world.asked →
    (∀ name ∈ setNames c.testingSets, SetFound m name) →
    RunsWith arch (c.sbuildArgs (wantedSources c m) args)
      (sbuildBuildpackage c m arch args true v ⟨[], [], files⟩).world.runs

section Checks

variable (c : Config) (m : Machine)

/-- What the lists of a build are asked for and run, by its testing sets. -/
theorem sbuild_world (arch : Text) (args : List Text) (v : Vars)
    (files : Text → Option (List Text)) :
    (sbuildBuildpackage c m arch args true v ⟨[], [], files⟩).world.asked =
        c.repoAsked ++ c.testingAsked m ∧
      (¬FirstLineFound c m →
        (sbuildBuildpackage c m arch args true v ⟨[], [], files⟩).world.runs = []) ∧
      (FirstLineFound c m →
        RunsWith arch (c.sbuildArgs
          (repoSources c m ++ (setNames (firstLine c.testingSets)).map testingLine) args)
          (sbuildBuildpackage c m arch args true v ⟨[], [], files⟩).world.runs ∧
        ((sbuildBuildpackage c m arch args true v ⟨[], [], files⟩).world.runs = [] ↔
          ¬HasPackages m)) := by
  by_cases hfound : FirstLineFound c m
  · obtain ⟨runs, v', out, ending, houtcome, hwith, hruns⟩ :=
      outcome_sbuild c m arch hfound args v ⟨[], [], files⟩
    have hworld := congrArg Outcome.world houtcome
    simp only [Result.outcome, World.addRuns, World.askAll, List.nil_append] at hworld
    rw [hworld]
    exact ⟨rfl, fun h => absurd hfound h, fun _ => ⟨hwith, hruns⟩⟩
  · obtain ⟨v', houtcome⟩ := outcome_sbuild_stop c m arch hfound args v ⟨[], [], files⟩
    have hworld := congrArg Outcome.world houtcome
    simp only [Result.outcome, World.askAll, List.nil_append] at hworld
    rw [hworld]
    exact ⟨rfl, fun _ => rfl, fun h => absurd h hfound⟩

private theorem someFails_append {urls urls' : List Text} :
    SomeFails m (urls ++ urls') ↔ SomeFails m urls ∨ SomeFails m urls' := by
  unfold SomeFails
  constructor
  · rintro ⟨url, hmem, hfailed⟩
    rcases List.mem_append.mp hmem with hmem | hmem
    · exact Or.inl ⟨url, hmem, hfailed⟩
    · exact Or.inr ⟨url, hmem, hfailed⟩
  · rintro (⟨url, hmem, hfailed⟩ | ⟨url, hmem, hfailed⟩)
    · exact ⟨url, List.mem_append_left _ hmem, hfailed⟩
    · exact ⟨url, List.mem_append_right _ hmem, hfailed⟩

private theorem writeTestingSets_asked (hfound : FirstLineFound c m) (v : Vars) (w : World) :
    (writeTestingSets c m true v w).outcome.world.asked = w.asked ++ c.testingAsked m := by
  obtain ⟨v', hempty, hsome⟩ := outcome_writeTestingSets c m hfound v w
  by_cases hnames : setNames (firstLine c.testingSets) = []
  · rw [hempty hnames]
    rfl
  · obtain ⟨w', ok, hchr, heffect, _⟩ := outcome_chr c m _ v' (w.askAll (c.testingAsked m))
    rw [hsome hnames, chrEcho, hchr]
    exact chr_asked c heffect

/-- A failed check ends `write_rootfs_apt_sources` with an exit. -/
theorem writeRootfsAptSources_exits (v : Vars) (files : Text → Option (List Text))
    (h : SomeFails m (writeRootfsAptSources c m true v ⟨[], [], files⟩).world.asked) :
    (writeRootfsAptSources c m true v ⟨[], [], files⟩).ending = .exited false := by
  obtain ⟨v₁, w₁, ok, _, hasked, _, hfails, hstop, hnext⟩ :=
    outcome_writeRootfsAptSources c m v ⟨[], [], files⟩
  cases ok with
  | false => exact hstop rfl
  | true =>
    have hseq := hnext rfl
    by_cases hfound : FirstLineFound c m
    · have hworld : (writeRootfsAptSources c m true v ⟨[], [], files⟩).world.asked =
          c.sourceAsked ++ c.testingAsked m := by
        have heq := congrArg (fun o => o.world.asked) hseq
        rw [writeTestingSets_asked c m hfound, hasked] at heq
        exact heq
      rw [hworld, someFails_append] at h
      rcases h with h | h
      · exact absurd (hfails h) (by decide)
      · exact absurd h (not_someFails_testingAsked hfound)
    · obtain ⟨v₂, hend⟩ := outcome_writeTestingSets_stop c m hfound v₁ w₁
      exact congrArg Outcome.ending (hseq.trans hend)

end Checks

/-- The checks stop the command if and only if no check of the stable or of the requested
unstable suite fails, or the testing sets stop it, or there is nothing to build. -/
theorem checksStop_iff (c : Config) (m : Machine) :
    ChecksStop c m ↔ ¬SomeFails m c.repoAsked ∨ ¬FirstLineFound c m ∨ ¬HasPackages m := by
  constructor
  · intro h
    by_contra hcond
    rw [not_or, not_or, not_not, not_not, not_not] at hcond
    obtain ⟨hfails, hfound, hpackages⟩ := hcond
    obtain ⟨hasked, _, hruns⟩ := sbuild_world c m [] [] .unset fun _ => none
    have hnone := h.sbuild [] [] .unset (fun _ => none)
      (by rw [hasked]; exact (someFails_append m).mpr (Or.inl hfails))
    exact ((hruns hfound).2.mp hnone) hpackages
  · intro hcond
    refine ⟨?_, ?_, ?_⟩
    · intro arch args v files hfails
      obtain ⟨hasked, hstop, hruns⟩ := sbuild_world c m arch args v files
      by_cases hfound : FirstLineFound c m
      · rw [hasked, someFails_append] at hfails
        have hrepo := hfails.resolve_right (not_someFails_testingAsked hfound)
        exact (hruns hfound).2.mpr (by tauto)
      · exact hstop hfound
    · intro v files hfails next
      exact seq_of_exited (writeRootfsAptSources_exits c m v files hfails) next
    · intro arch args v files _ hsets
      have hline := firstLine_eq (newline_not_mem_of_found hsets)
      have hfound : FirstLineFound c m := by
        unfold FirstLineFound
        rw [hline]
        exact hsets
      have hwith := ((sbuild_world c m arch args v files).2.2 hfound).1
      rw [hline] at hwith
      exact hwith

/-- A board with no unstable suite, no testing set and the stable release. -/
def plainConfig : Config :=
  ⟨"wb6".toList, "trixie".toList, "stable".toList, [], [], [], [], false⟩

/-- A server that answers every request with 500, and a source with one binary package. -/
def brokenServer : Machine :=
  ⟨fun _ => ⟨0, 500⟩, true, fun _ => true, ["Architecture: any".toList], "amd64".toList,
    fun _ => true⟩

/-- The failed check of the stable suite does not keep `sbuild` from running. -/
theorem sbuild_runs_after_failed_check :
    SomeFails brokenServer (sbuildBuildpackage plainConfig brokenServer "armhf".toList [] true
      .unset .fresh).world.asked ∧
    (sbuildBuildpackage plainConfig brokenServer "armhf".toList [] true .unset .fresh).world.runs ≠
      [] := by
  obtain ⟨hasked, _, hruns⟩ := sbuild_world plainConfig brokenServer "armhf".toList [] .unset
    fun _ => none
  rw [← World.fresh] at hasked hruns
  rw [hasked]
  refine ⟨?_, ?_⟩
  · exact (someFails_append _).mpr (Or.inl ⟨plainConfig.stableUrl, by decide, rfl⟩)
  · have hfound : FirstLineFound plainConfig brokenServer := by decide
    rw [Ne, (hruns hfound).2, not_not]
    exact Or.inr (by decide)

end WirenBoard.Devenv
