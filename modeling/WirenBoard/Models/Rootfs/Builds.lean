import WirenBoard.Models.Rootfs.Cache
import WirenBoard.Models.Rootfs.Script

/-!
# What every build leaves behind

Two things are followed through the script, whatever its commands do. The mounts and the
disabled services of the tree are undone on every exit once the tree was prepared. And a
build that reports success has removed its temporary apt files and written the version and
the device tree of its board, whether or not the base tree came from a tarball.
-/

namespace WirenBoard.Rootfs

open Shell

/-! ## Commands that change only the tree -/

/-- An assertion that commands on the tree keep. -/
def Stable (A : Host → Prop) : Prop := ∀ h f, A h → A { h with tree := h.tree.map f }

section Keeps

variable {set : Setting} {inv : Invocation} {i : Input} {J : (Text → Option Tarball) → Prop}
  {A : Host → Prop}

/-- A command on the tree. -/
theorem onTree_keeps (hA : Stable A) (site : Site) (f : Tree → Tree) :
    Keeps (fun h => J h.tarballs) A (onTree i site f) :=
  Keeps.act fun h hAh hJ => ⟨hJ, hA h _ hAh⟩

/-- `chr_apt_install`. -/
theorem chrAptInstall_keeps (hA : Stable A) (line : Nat) :
    Keeps (fun h => J h.tarballs) A (chrAptInstall i line) :=
  .orElse (onTree_keeps hA _ _) (onTree_keeps hA _ _)

/-- `services_disable`. -/
theorem servicesDisable_keeps (hA : Stable A) :
    Keeps (fun h => J h.tarballs) A (servicesDisable i) :=
  .seq (onTree_keeps hA _ _) (.call _)

/-- Lines 118 to 121. -/
theorem checkRepos_keeps : Keeps (fun h => J h.tarballs) A (checkRepos set inv) := by
  unfold checkRepos
  split
  · exact .assign _ _
  · exact .exit _

/-- `setup_additional_repos`. -/
theorem setupRepos_keeps (hA : Stable A) (repos : List Text) :
    Keeps (fun h => J h.tarballs) A (setupRepos set inv i repos) := by
  apply Keeps.caseOf
  intro entries
  cases entries with
  | none => exact .exit _
  | some entries => exact .seq (onTree_keeps hA _ _) (.assign _ _)

/-- `install_contactless_repo`. -/
theorem installContactlessRepo_keeps (hA : Stable A) :
    Keeps (fun h => J h.tarballs) A (installContactlessRepo set inv i) := by
  have htree (site : Site) (f : Tree → Tree) :
      Keeps (fun h => J h.tarballs) A (onTree i site f) := onTree_keeps hA site f
  have hinstall : Keeps (fun h => J h.tarballs) A (chrAptInstall i 199) :=
    chrAptInstall_keeps hA 199
  exact .script ⟨htree _ _, htree _ _, htree _ _, htree _ _, htree _ _, htree _ _, htree _ _,
    htree _ _, htree _ _, hinstall, htree _ _, htree _ _⟩

/-- `board_override_repos`. -/
theorem boardOverrideRepos_keeps (hA : Stable A) :
    Keeps (fun h => J h.tarballs) A (boardOverrideRepos inv i) := by
  unfold boardOverrideRepos
  split
  · exact .call _
  · exact .seq (onTree_keeps hA _ _) (onTree_keeps hA _ _)

private theorem boardInstall_keeps (hA : Stable A) :
    Keeps (fun h => J h.tarballs) A (boardInstall inv i) := by
  apply Keeps.map
  rintro ⟨step, n⟩
  cases step <;> exact onTree_keeps hA _ _

private theorem runAdditionalScript_keeps (hA : Stable A) :
    Keeps (fun h => J h.tarballs) A (runAdditionalScript i) := by
  unfold runAdditionalScript
  split
  · exact .call _
  · exact .script ⟨onTree_keeps hA _ _, onTree_keeps hA _ _, onTree_keeps hA _ _⟩

private theorem clearMachineId_keeps (hA : Stable A) :
    Keeps (fun h => J h.tarballs) A (clearMachineId i) := by
  refine .ifThen (.call _) ?_
  exact .script ⟨onTree_keeps hA _ _, onTree_keeps hA _ _, onTree_keeps hA _ _⟩

private theorem installPackages_keeps (hA : Stable A) :
    Keeps (fun h => J h.tarballs) A (installPackages inv i) := by
  have htree (site : Site) (f : Tree → Tree) :
      Keeps (fun h => J h.tarballs) A (onTree i site f) := onTree_keeps hA site f
  have hinstall (line : Nat) : Keeps (fun h => J h.tarballs) A (chrAptInstall i line) :=
    chrAptInstall_keeps hA line
  exact .script ⟨htree _ _, hinstall _, htree _ _, htree _ _, htree _ _, htree _ _,
    .andThen (.call _) (hinstall _), boardInstall_keeps hA, .ifThen (.call _) (htree _ _)⟩

private theorem removeTemporary_keeps (hA : Stable A) :
    Keeps (fun h => J h.tarballs) A (removeTemporary i) := by
  have htree (site : Site) (f : Tree → Tree) :
      Keeps (fun h => J h.tarballs) A (onTree i site f) := onTree_keeps hA site f
  exact .script ⟨htree _ _, htree _ _, htree _ _, htree _ _, .orElse (htree _ _) (.call _),
    htree _ _, htree _ _, htree _ _⟩

private theorem sealTree_keeps (hA : Stable A) :
    Keeps (fun h => J h.tarballs) A (sealTree i) := by
  have htree (site : Site) (f : Tree → Tree) :
      Keeps (fun h => J h.tarballs) A (onTree i site f) := onTree_keeps hA site f
  exact .script ⟨.ifThen (.neg (.call _)) (htree _ _), runAdditionalScript_keeps hA,
    .ifThen (.call _) (htree _ _), htree _ _, htree _ _, htree _ _, clearMachineId_keeps hA,
    .exit _⟩

/-- Packing the tree keeps what every tarball that it makes on the way keeps. -/
theorem makeTarball_rule {I A : Host → Prop} {path : Text}
    (hpack : ∀ h f, A h → I h → (i.tornTarball = some f ∨ f = fun t => ⟨t, true⟩) →
      I (h.pack path f) ∧ A (h.pack path f)) : Keeps I A (makeTarball i path) := by
  refine .seq (.act fun h hA hI => ?_) (.act fun h hA hI => ?_)
  · cases htorn : i.tornTarball with
    | some torn => exact hpack h torn hA hI (.inl htorn)
    | none => exact ⟨hI, hA⟩
  · split
    · exact hpack h _ hA hI (.inr rfl)
    · exact ⟨hI, hA⟩

/-- Lines 332 to 427 change only the tree. -/
theorem finishTree_keeps (hA : Stable A) :
    Keeps (fun h => J h.tarballs) A (finishTree inv i) :=
  .script ⟨installPackages_keeps hA, removeTemporary_keeps hA, sealTree_keeps hA⟩

end Keeps

/-! ## The prepared tree -/

/-- The mounts of a prepared tree. -/
def chrootPoints (i : Input) : List Point :=
  (if i.ptmx = .node then [.devPtmx] else []) ++ [.devPts, .sys, .proc]

/-- The tree exists with these mounts and no trap is set. -/
structure Mounting (points : List Point) (h : Host) : Prop where
  /-- The trap. -/
  trap : h.trap = false
  /-- The mounts. -/
  mounts : h.mounts = points
  /-- The tree. -/
  tree : h.tree.isSome = true

/-- The tree is prepared and the trap is set. -/
structure Chrooted (i : Input) (h : Host) : Prop where
  /-- The trap. -/
  trap : h.trap = true
  /-- The mounts. -/
  mounts : h.mounts = chrootPoints i
  /-- The tree. -/
  tree : h.tree.isSome = true

/-- Where the trap is set the tree is prepared. -/
def Ended (i : Input) (h : Host) : Prop := h.trap = true → Chrooted i h

section Chroot

variable {set : Setting} {inv : Invocation} {i : Input} {J : (Text → Option Tarball) → Prop}
  {points : List Point}

private theorem stable_mounting : Stable (Mounting points) :=
  fun h _ hA => ⟨hA.trap, hA.mounts, by simpa using hA.tree⟩

/-- Changing files of the tree leaves the mounts and the trap. -/
theorem stable_chrooted : Stable (Chrooted i) :=
  fun h _ hA => ⟨hA.trap, hA.mounts, by simpa using hA.tree⟩

/-- While the mounts are made the trap is not set. -/
theorem Mounting.ended {h : Host} (hA : Mounting points h) : Ended i h :=
  fun htrap => absurd (hA.trap.symm.trans htrap) (by simp)

/-- Under `set -e` the command leads from `A` to `B`; the trap is set at an exit only on a
prepared tree. -/
abbrev Leads (J : (Text → Option Tarball) → Prop) (i : Input) (A : Host → Prop)
    (c : Sh RepoVars Host) (B : Host → Prop) : Prop :=
  Spec (fun h => J h.tarballs) (fun _ => Ended i) true (fun _ => A) c fun _ _ => B

private theorem mounting_leads {c : Sh RepoVars Host}
    (hc : Keeps (fun h => J h.tarballs) (Mounting points) c) :
    Leads J i (Mounting points) c (Mounting points) :=
  hc.exits (fun _ _ hA => hA.ended) true

/-- A command that keeps the mounts of a chroot leads from them to them. -/
theorem chrooted_leads {c : Sh RepoVars Host}
    (hc : Keeps (fun h => J h.tarballs) (Chrooted i) c) : Leads J i (Chrooted i) c (Chrooted i) :=
  hc.exits (B := fun _ => Ended i) (fun _ _ hA _ => hA) true

private theorem mount_leads (line : Nat) (p : Point) :
    Leads J i (Mounting points) (mount i line p) (Mounting (p :: points)) := by
  apply Spec.simple
  intro _ h hA hJ
  cases hok : i.ok (.env line) with
  | true =>
    refine ⟨hJ, by simp, fun _ => ⟨hA.trap, ?_, hA.tree⟩⟩
    simp only [ite_true, hA.mounts]
  | false =>
    refine ⟨hJ, fun _ _ => ?_, fun h => absurd (h rfl) (by simp)⟩
    exact hA.ended

/-- The three cases of `dev/ptmx`. -/
theorem ptmx_leads :
    Leads J i (Mounting [.devPts, .sys, .proc])
      (ifThen (call (i.ptmx ≠ .link))
        (ifThenElse (call (i.ptmx = .node)) (mount i 39 .devPtmx) (external i (.env 41))))
      (Mounting (chrootPoints i)) := by
  have hcond (b : Bool) : Spec (fun h => J h.tarballs) (fun _ => Ended i) false
      (fun _ => Mounting [.devPts, .sys, .proc]) (call b : Sh RepoVars Host)
      fun ok _ h => Mounting [.devPts, .sys, .proc] h ∧ ok = b :=
    Spec.simple fun _ _ hA hJ => ⟨hJ, by simp, fun _ => ⟨hA, rfl⟩⟩
  refine (hcond _).ifThenElse ((fun v h hA => ?_)) fun v h hA => ?_
  · refine (hcond _).ifThenElse (fun v h hA => ?_) (fun v h hA => ?_) v h hA.1
    · have hnode : i.ptmx = .node := of_decide_eq_true hA.2.symm
      have hpoints : chrootPoints i = [.devPtmx, .devPts, .sys, .proc] := by
        simp [chrootPoints, hnode]
      rw [hpoints]
      exact mount_leads 39 .devPtmx v h hA.1
    · have hnode : ¬i.ptmx = .node := of_decide_eq_false hA.2.symm
      have hpoints : chrootPoints i = [.devPts, .sys, .proc] := by simp [chrootPoints, hnode]
      rw [hpoints]
      exact mounting_leads (onTree_keeps stable_mounting _ _) v h hA.1
  · have hlink : i.ptmx = .link := by simpa using hA.2
    have hpoints : chrootPoints i = [.devPts, .sys, .proc] := by simp [chrootPoints, hlink]
    rw [hpoints]
    exact mounting_leads (.call _) v h hA.1

/-- `prepare_chroot` mounts what the trap unmounts, and sets the trap last. -/
theorem prepareChroot_leads : Leads J i (Mounting []) (prepareChroot i) (Chrooted i) := by
  have htree {points : List Point} (site : Site) (f : Tree → Tree) :
      Leads J i (Mounting points) (onTree i site f) (Mounting points) :=
    mounting_leads (onTree_keeps stable_mounting site f)
  refine Spec.seq (htree _ _) fun _ => ?_
  refine Spec.seq (mount_leads 32 .proc) fun _ => ?_
  refine Spec.seq (mount_leads 33 .sys) fun _ => ?_
  refine Spec.seq (mount_leads 34 .devPts) fun _ => ?_
  refine Spec.seq (htree _ _) fun _ => ?_
  refine Spec.seq (htree _ _) fun _ => ?_
  refine Spec.seq ptmx_leads fun _ => ?_
  refine Spec.seq (htree _ _) fun _ => ?_
  refine Spec.seq (htree _ _) fun _ => ?_
  exact Spec.simple fun _ h hA hJ =>
    ⟨hJ, by simp, fun _ => ⟨rfl, hA.mounts, hA.tree⟩⟩

/-- Neither mounts nor a trap. -/
structure Vacant (h : Host) : Prop where
  /-- The trap. -/
  trap : h.trap = false
  /-- The mounts. -/
  mounts : h.mounts = []

/-- Before the mounts are made the trap is not set. -/
theorem Vacant.ended {h : Host} (hA : Vacant h) : Ended i h :=
  fun htrap => absurd (hA.trap.symm.trans htrap) (by simp)

private theorem mkdir_leads (line : Nat) :
    Leads J i Vacant (act (i.ok (.main line)) fun h =>
      if i.ok (.main line) then { h with tree := some fun _ => none } else h) (Mounting []) := by
  apply Spec.simple
  intro _ h hA hJ
  cases hok : i.ok (.main line) with
  | true => exact ⟨hJ, by simp, fun _ => ⟨hA.trap, hA.mounts, rfl⟩⟩
  | false =>
    refine ⟨hJ, fun _ _ => ?_, fun h => absurd (h rfl) (by simp)⟩
    exact hA.ended

/-- Where a tarball is there, it is unpacked into a new tree that is then prepared. -/
theorem useTarball_leads (base : Tarball) :
    Leads J i (Mounting []) (useTarball set inv i base) (Chrooted i) := by
  have hrm : Leads J i (Mounting []) (act (i.ok (.main 212)) fun h =>
      { h with tree := if i.ok (.main 212) then none else h.tree.map (i.torn (.main 212)) })
      Vacant := by
    apply Spec.simple
    intro _ h hA hJ
    have hvacant : Vacant { h with
        tree := if i.ok (.main 212) then none else h.tree.map (i.torn (.main 212)) } :=
      ⟨hA.trap, hA.mounts⟩
    exact ⟨hJ, fun _ _ => hvacant.ended, fun _ => hvacant⟩
  have htree (site : Site) (f : Tree → Tree) :
      Leads J i (Chrooted i) (onTree i site f) (Chrooted i) :=
    chrooted_leads (onTree_keeps stable_chrooted site f)
  refine Spec.seq hrm fun _ => ?_
  have hunpack : Keeps (fun h => J h.tarballs) (Mounting []) (unpack i base) :=
    Keeps.act fun h hA hJ => ⟨hJ, stable_mounting h _ hA⟩
  refine Spec.seq (mkdir_leads 213) fun _ => ?_
  refine Spec.seq (mounting_leads hunpack) fun _ => ?_
  refine Spec.seq prepareChroot_leads fun _ => ?_
  refine Spec.seq (chrooted_leads (servicesDisable_keeps stable_chrooted)) fun _ => ?_
  refine Spec.seq (chrooted_leads (.ifThen (.call _) (setupRepos_keeps stable_chrooted _)))
    fun _ => ?_
  exact Spec.seq (htree _ _) fun _ => htree _ _

private theorem buildBase_leads (path : Text)
    (hmake : Keeps (fun h => J h.tarballs) (Chrooted i) (makeTarball i path)) :
    Leads J i (Mounting []) (buildBase set inv i path) (Chrooted i) := by
  have hbefore (site : Site) (f : Tree → Tree) :
      Leads J i (Mounting []) (onTree i site f) (Mounting []) :=
    mounting_leads (onTree_keeps stable_mounting site f)
  have hafter (site : Site) (f : Tree → Tree) :
      Leads J i (Chrooted i) (onTree i site f) (Chrooted i) :=
    chrooted_leads (onTree_keeps stable_chrooted site f)
  have hqemu : Leads J i (Mounting []) (ifThen (call inv.env.wbCopyQemu)
      (orElse (external i (.main 242)) (external i (.retry 242)))) (Mounting []) :=
    mounting_leads (.ifThen (.call _)
      (.orElse (onTree_keeps stable_mounting _ _) (onTree_keeps stable_mounting _ _)))
  have hinstall (line : Nat) : Leads J i (Chrooted i) (chrAptInstall i line) (Chrooted i) :=
    chrooted_leads (chrAptInstall_keeps stable_chrooted line)
  refine Spec.seq (hbefore _ _) fun _ => ?_
  refine Spec.seq hqemu fun _ => ?_
  refine Spec.seq (hbefore _ _) fun _ => ?_
  refine Spec.seq (hbefore _ _) fun _ => ?_
  refine Spec.seq (hbefore _ _) fun _ => ?_
  refine Spec.seq (hbefore _ _) fun _ => ?_
  refine Spec.seq (hbefore _ _) fun _ => ?_
  refine Spec.seq prepareChroot_leads fun _ => ?_
  refine Spec.seq (chrooted_leads (servicesDisable_keeps stable_chrooted)) fun _ => ?_
  refine Spec.seq (hafter _ _) fun _ => ?_
  refine Spec.seq (hafter _ _) fun _ => ?_
  refine Spec.seq (chrooted_leads (installContactlessRepo_keeps stable_chrooted)) fun _ => ?_
  refine Spec.seq (hafter _ _) fun _ => ?_
  refine Spec.seq (chrooted_leads (boardOverrideRepos_keeps stable_chrooted)) fun _ => ?_
  refine Spec.seq (chrooted_leads (setupRepos_keeps stable_chrooted _)) fun _ => ?_
  refine Spec.seq (hafter _ _) fun _ => ?_
  refine Spec.seq (hinstall 314) fun _ => ?_
  refine Spec.seq (hafter _ _) fun _ => ?_
  refine Spec.seq (hafter _ _) fun _ => ?_
  refine Spec.seq (hafter _ _) fun _ => ?_
  refine Spec.seq (hafter _ _) fun _ => ?_
  refine Spec.seq (hinstall 324) fun _ => ?_
  exact chrooted_leads hmake

private theorem base_leads {path : Text}
    (hmake : Keeps (fun h => J h.tarballs) (Chrooted i) (makeTarball i path)) :
    Leads J i (Mounting []) (base set inv i path) (Chrooted i) := by
  intro vars h hA hJ
  rw [base]
  cases h.tarballs path with
  | some tarball => exact useTarball_leads tarball vars h hA hJ
  | none => exact buildBase_leads path hmake vars h hA hJ

/-- Up to where both ways meet, the tree is prepared or the trap is not set. -/
theorem toBase_leads
    (hmake : ∀ path, rootfsBaseTarball inv set.workDir set.sha set.present = some path →
      Keeps (fun h => J h.tarballs) (Chrooted i) (makeTarball i path)) :
    Leads J i Vacant (toBase set inv i) (Chrooted i) := by
  have hguard : Leads J i Vacant
      (andThen (simple fun vars h => (vars, h, h.tree.isSome)) (exit false)) Vacant := by
    refine Spec.andThen (R := fun _ _ => Vacant) ?_ ?_ fun _ _ h => h
    · exact Spec.simple fun _ _ hA hJ => ⟨hJ, by simp, fun _ => hA⟩
    · exact Spec.exit fun _ _ hA _ => hA.ended
  refine Spec.seq hguard fun _ => ?_
  refine Spec.seq (mkdir_leads 76) fun _ => ?_
  refine Spec.seq (mounting_leads checkRepos_keeps) fun _ => ?_
  unfold script
  split
  · rename_i path hpath
    exact base_leads (hmake path hpath)
  · exact Spec.exit fun _ _ hA _ => hA.ended

/-- Packing the tree leaves it prepared. -/
theorem makeTarball_keeps (path : Text) :
    Keeps (fun _ => True) (Chrooted i) (makeTarball i path) :=
  makeTarball_rule fun _ _ hA _ _ => ⟨trivial, hA.trap, hA.mounts, hA.tree⟩

/-- The whole script without its trap. -/
theorem body_leads
    (hmake : ∀ path, rootfsBaseTarball inv set.workDir set.sha set.present = some path →
      Keeps (fun h => J h.tarballs) (Chrooted i) (makeTarball i path)) :
    Leads J i Vacant (seq (toBase set inv i) (finishTree inv i)) (Ended i) := by
  refine Spec.seq (toBase_leads hmake) fun _ => ?_
  exact Spec.post (chrooted_leads (finishTree_keeps stable_chrooted)) fun _ _ _ _ _ hA _ => hA

end Chroot

/-! ## What is known of the files -/

/-- Files with what they hold, or that they do not exist. -/
abbrev Known := List (File × Option (List Text))

/-- The tree agrees with what is known. -/
def Agrees (k : Known) (t : Tree) : Prop := ∀ p ∈ k, t p.1 = p.2

/-- The tree exists and agrees with what is known. -/
def Knows (k : Known) (h : Host) : Prop := ∃ t, h.tree = some t ∧ Agrees k t

/-- What is known once a file was written or removed. -/
def Known.learn (k : Known) (file : File) (content : Option (List Text)) : Known :=
  (file, content) :: k.filter fun p => p.1 ≠ file

/-- The command at a site leaves these files alone, also when it fails. -/
def DiscreetAt (i : Input) (site : Site) (files : List File) : Prop :=
  ∀ t, ∀ file ∈ files, i.effect site t file = t file ∧ i.torn site t file = t file

/-- Commands from outside the script leave these files alone, also when they fail. -/
def Discreet (i : Input) (files : List File) : Prop := ∀ site, DiscreetAt i site files

section Knows

variable {i : Input} {J : (Text → Option Tarball) → Prop} {k k' : Known} {files : List File}

/-- A tree agrees with what was learnt of a file once the file has the content. -/
theorem Agrees.update {t : Tree} (h : Agrees k t) (file : File) (content : Option (List Text)) :
    Agrees (k.learn file content) (Function.update t file content) := by
  intro p hp
  rcases List.mem_cons.mp hp with rfl | hp
  · exact Function.update_self ..
  · obtain ⟨hmem, hne⟩ := List.mem_filter.mp hp
    rw [Function.update_of_ne (by simpa using hne)]
    exact h p hmem

/-- A tree agrees with less. -/
theorem Agrees.subset {t : Tree} (h : Agrees k t) (hk : k' ⊆ k) : Agrees k' t :=
  fun p hp => h p (hk hp)

/-- A command on the tree that succeeds turns what is known before into what is known
after. -/
theorem onTree_knows {site : Site} {f : Tree → Tree}
    (hf : ∀ t, Agrees k t → Agrees k' (f t)) :
    Spec (fun h => J h.tarballs) (fun _ _ => True) true (fun _ => Knows k) (onTree i site f)
      fun _ _ => Knows k' := by
  apply Spec.simple
  rintro _ h ⟨t, ht, hagrees⟩ hJ
  refine ⟨hJ, fun _ _ => trivial, fun hok => ?_⟩
  simp only [show i.ok site = true from hok rfl, ht, ite_true, Option.map_some]
  exact ⟨f t, rfl, hf t hagrees⟩

private theorem write_knows (site : Site) (file : File) (lines : List Text) :
    Spec (fun h => J h.tarballs) (fun _ _ => True) true (fun _ => Knows k) (write i site file lines)
      fun _ _ => Knows (k.learn file (some lines)) :=
  onTree_knows fun _ h => h.update file _

/-- What is known of files that others leave alone stays known. -/
theorem external_keeps {site : Site} (hdiscreet : DiscreetAt i site files)
    (hk : ∀ p ∈ k, p.1 ∈ files) :
    Keeps (fun h => J h.tarballs) (Knows k) (external i site) := by
  apply Keeps.act
  rintro h ⟨t, ht, hagrees⟩ hJ
  refine ⟨hJ, ?_⟩
  simp only [ht, Option.map_some]
  refine ⟨_, rfl, fun p hp => ?_⟩
  rw [← hagrees p hp]
  split
  · exact (hdiscreet t p.1 (hk p hp)).1
  · exact (hdiscreet t p.1 (hk p hp)).2

/-- The same for a command with a second attempt. -/
theorem chrAptInstall_knows {line : Nat} (hdiscreet : DiscreetAt i (.main line) files)
    (hretry : DiscreetAt i (.retry line) files) (hk : ∀ p ∈ k, p.1 ∈ files) :
    Keeps (fun h => J h.tarballs) (Knows k) (chrAptInstall i line) :=
  .orElse (external_keeps hdiscreet hk) (external_keeps hretry hk)

end Knows

/-! ## The trap -/

/-- The commands of the trap succeed. -/
structure CleanupSucceeds (i : Input) : Prop where
  /-- The `umount` of a device node. -/
  ptmx : i.ptmx = .node → i.ok (.env 15) = true
  /-- The other commands. -/
  rest : ∀ line ∈ [16, 17, 18, 20, 8], i.ok (.env line) = true

/-- Nothing is mounted, services may start, and no name server is left. -/
structure CleanedUp (h : Host) : Prop where
  /-- The mounts. -/
  mounts : h.mounts = []
  /-- The files. -/
  files : Knows [(.policyRcD, none), (.resolvConf, some [[]])] h

/-- The mounts that the trap has still to undo, and what is known of the files. -/
structure Undoing (points : List Point) (k : Known) (h : Host) : Prop where
  /-- The mounts. -/
  mounts : h.mounts = points
  /-- The files. -/
  files : Knows k h

section Trap

variable {i : Input} {J : (Text → Option Tarball) → Prop} {points : List Point} {k : Known}
  {X : Bool → Host → Prop} {errexit : Bool}

private theorem umount_undoes {line : Nat} (p : Point)
    (hfail : i.ok (.env line) = true ∨ ∀ h, X false h) :
    Spec (fun h => J h.tarballs) X true (fun _ => Undoing points k) (umount i line p)
      fun _ _ => Undoing (points.erase p) k := by
  apply Spec.simple
  intro _ h hA hJ
  cases hok : i.ok (.env line) with
  | true => exact ⟨hJ, by simp, fun _ => ⟨by simp [hA.mounts], hA.files⟩⟩
  | false =>
    refine ⟨hJ, fun _ _ => ?_, fun h => absurd (h rfl) (by simp)⟩
    exact hfail.resolve_left (by simp [hok]) _

private theorem onTree_undoes {site : Site} {f : Tree → Tree} {k' : Known}
    (hfail : i.ok site = true ∨ ∀ h, X false h) (hf : ∀ t, Agrees k t → Agrees k' (f t)) :
    Spec (fun h => J h.tarballs) X true (fun _ => Undoing points k) (onTree i site f)
      fun _ _ => Undoing points k' := by
  apply Spec.simple
  intro _ h hA hJ
  obtain ⟨t, ht, hagrees⟩ := hA.files
  refine ⟨hJ, fun _ hok => ?_, fun hok => ⟨hA.mounts, ?_⟩⟩
  · exact hfail.resolve_left (by simp [show i.ok site = false from hok]) _
  · simp only [show i.ok site = true from hok rfl, ht, ite_true, Option.map_some]
    exact ⟨f t, rfl, hf t hagrees⟩

/-- The first command of the trap. -/
theorem umountPtmx_undoes (hfail : CleanupSucceeds i ∨ ∀ h, X false h) :
    Spec (fun h => J h.tarballs) X true (fun _ => Undoing (chrootPoints i) k)
      (orElse (call (i.ptmx ≠ .node)) (umount i 15 .devPtmx))
      fun _ _ => Undoing [.devPts, .sys, .proc] k := by
  refine Spec.orElse (R := fun ok _ h => Undoing (chrootPoints i) k h ∧
    ok = decide (i.ptmx ≠ .node)) ?_ ?_ ?_
  · exact Spec.simple fun _ _ hA hJ => ⟨hJ, by simp, fun _ => ⟨hA, rfl⟩⟩
  · intro vars h hA hJ
    have hnode : i.ptmx = .node := by simpa using hA.2
    have hpoints : chrootPoints i = [.devPtmx, .devPts, .sys, .proc] := by
      simp [chrootPoints, hnode]
    exact umount_undoes .devPtmx (hfail.imp_left fun hclean => hclean.ptmx hnode) vars h
      (hpoints ▸ hA.1) hJ
  · intro vars h hA
    have hnode : ¬i.ptmx = .node := by simpa using hA.2
    have hpoints : chrootPoints i = [.devPts, .sys, .proc] := by simp [chrootPoints, hnode]
    exact hpoints ▸ hA.1

/-- The trap undoes what `prepare_chroot` and `services_disable` did. -/
theorem cleanupChroot_undoes (hfail : CleanupSucceeds i ∨ ∀ h, X false h) :
    Spec (fun h => J h.tarballs) X true (fun _ => Undoing (chrootPoints i) k) (cleanupChroot i)
      fun _ _ => Undoing [] ((k.learn .resolvConf (some [[]])).learn .policyRcD none) := by
  have hrest {line : Nat} (hline : line ∈ [16, 17, 18, 20, 8]) :
      i.ok (.env line) = true ∨ ∀ h, X false h :=
    hfail.imp_left fun hclean => hclean.rest line hline
  refine Spec.seq (umountPtmx_undoes hfail) fun _ => ?_
  refine Spec.seq (umount_undoes .devPts (hrest (by simp))) fun _ => ?_
  refine Spec.seq (umount_undoes .proc (hrest (by simp))) fun _ => ?_
  refine Spec.seq (umount_undoes .sys (hrest (by simp))) fun _ => ?_
  refine Spec.seq (onTree_undoes (hrest (by simp)) fun _ h => h.update _ _) fun _ => ?_
  exact onTree_undoes (hrest (by simp)) fun _ h => h.update _ _

end Trap

/-- A rule for the whole script from one for what comes before the trap and one for the trap;
the trap has nothing to do where it is not set. -/
theorem createRootfs_meets {set : Setting} {inv : Invocation} {i : Input}
    {J : (Text → Option Tarball) → Prop} {A X : Bool → Host → Prop}
    (hbody : Spec (fun h => J h.tarballs) A true (fun _ => Vacant)
      (seq (toBase set inv i) (finishTree inv i)) fun ok _ => A ok)
    (htrap : ∀ ok, Spec (fun h => J h.tarballs) X true (fun _ h => A ok h ∧ h.trap = true)
      (cleanupChroot i) fun _ _ => X ok)
    (hnone : ∀ ok h, A ok h → h.trap = false → X ok h) (h : Host) (hJ : J h.tarballs) :
    (createRootfs set inv i h).Meets (fun h => J h.tarballs) X fun _ _ _ => True :=
  Spec.trapped hbody htrap hnone inv.env.repoVars { h with mounts := [], trap := false }
    ⟨rfl, rfl⟩ hJ

/-- However a build ends, once its tree was prepared for commands to run in it, the exit
unmounts everything, lets services start again and leaves no name server, as long as the
commands of the trap succeed. -/
theorem cleaned_up_on_exit (set : Setting) (inv : Invocation) {i : Input}
    (hclean : CleanupSucceeds i) (h : Host) {ok : Bool}
    (hexit : (createRootfs set inv i h).ending = .exited ok)
    (htrap : (createRootfs set inv i h).world.trap = true) :
    CleanedUp (createRootfs set inv i h).world := by
  have hmeets : (createRootfs set inv i h).Meets (fun _ => True)
      (fun _ h => h.trap = true → CleanedUp h) fun _ _ _ => True := by
    refine createRootfs_meets (J := fun _ => True) (A := fun _ => Ended i)
      (body_leads (J := fun _ => True) fun path _ => makeTarball_keeps path)
      (fun _ => ?_) ?_ h trivial
    · have hspec := cleanupChroot_undoes (J := fun _ => True) (k := [])
        (X := fun _ h => h.trap = true → CleanedUp h) (.inl hclean)
      refine Spec.post (fun vars h hA => hspec vars h ?_) fun _ _ _ _ _ hA _ =>
        ⟨hA.mounts, hA.files⟩
      obtain ⟨t, ht⟩ := Option.isSome_iff_exists.mp (hA.1 hA.2).tree
      exact ⟨(hA.1 hA.2).mounts, t, ht, by simp [Agrees]⟩
    · exact fun _ h _ hnone htrap => absurd (hnone.symm.trans htrap) (by simp)
  have hend := hmeets.ending
  rw [hexit] at hend
  exact hend htrap

/-- The digits that begin the hashes of the lines of the samples. -/
def sampleSha (t : Text) : Text :=
  if t = "armhf http://deb.wirenboard.com/wb6/trixie ".toList then "a564198d".toList
  else if t = "arm64 http://deb.wirenboard.com/wb8/trixie ".toList then "029e6395".toList
  else if t = "armhf http://deb.wirenboard.com/wb7/bullseye ".toList then "a788f478".toList
  else wb5Sha t

/-- A setting in which no repository can be fetched. -/
def Setting.local : Setting where
  workDir := "output".toList
  sha := sampleSha
  present := fun _ => false
  releaseItem := fun _ _ => []

/-- Commands that all succeed, except for one. -/
def Input.failingAt (site : Option Site) : Input where
  ok := fun s => some s ≠ site
  effect := fun _ => id
  torn := fun _ => id
  tornTarball := none
  ptmx := .link
  resolvConf := []
  hostname := []
  hostnameMatches := fun _ => false
  date := "202401010000".toList
  mosquittoPid := false
  wbTempRepo := true
  additionalScript := none
  customTag := []
  wbUtilsRecent := true

/-- A host without tarballs. -/
def Host.empty : Host := ⟨none, [], fun _ => none, false⟩

/-- A first build of board 55 that cannot set the password. -/
theorem cleaned_up_on_exit_failing :
    CleanedUp (createRootfs .local ⟨.b55, [], plainEnv⟩ (.failingAt (some (.main 281)))
      .empty).world :=
  cleaned_up_on_exit .local ⟨.b55, [], plainEnv⟩ ⟨by decide, by decide⟩ .empty
    (show _ = Ending.exited false by decide +kernel) (by decide +kernel)

/-! ## A build that reports success -/

/-- The device tree that `board_install` sets. -/
def Board.fdt (b : Board) : String :=
  (b.install.findSome? fun step => match step with
    | .setFdt name => some name
    | _ => none).getD ""

/-- What is known after a step of `board_install`. -/
def Known.afterStep (k : Known) : BoardStep → Known
  | .setFdt name => k.learn .uEnv (some (uEnvLines name))
  | _ => k

/-- Every board sets its device tree once. -/
theorem afterStep_install (b : Board) (k : Known) :
    b.install.foldl Known.afterStep k = k.learn .uEnv (some (uEnvLines b.fdt)) := by
  cases b <;> rfl

section Success

variable {set : Setting} {inv : Invocation} {i : Input} {J : (Text → Option Tarball) → Prop}
  {k : Known} {files : List File}

/-- What is learnt of a listed file is about listed files. -/
theorem mem_of_learn {file : File} {content : Option (List Text)} (hfile : file ∈ files)
    (hk : ∀ p ∈ k, p.1 ∈ files) : ∀ p ∈ k.learn file content, p.1 ∈ files := by
  intro p hp
  rcases List.mem_cons.mp hp with rfl | hp
  · exact hfile
  · exact hk p (List.mem_of_mem_filter hp)

/-- A write to a file of which nothing is known. -/
theorem Agrees.update_other {t : Tree} (h : Agrees k t) {file : File}
    (hfile : ∀ p ∈ k, p.1 ≠ file) (content : Option (List Text)) :
    Agrees k (Function.update t file content) := by
  intro p hp
  rw [Function.update_of_ne (hfile p hp)]
  exact h p hp

private theorem boardInstall_knows (hdiscreet : Discreet i files) (huEnv : File.uEnv ∈ files)
    (hk : ∀ p ∈ k, p.1 ∈ files) :
    Spec (fun h => J h.tarballs) (fun _ _ => True) true (fun _ => Knows k) (boardInstall inv i)
      fun _ _ => Knows (k.learn .uEnv (some (uEnvLines inv.board.fdt))) := by
  have hsteps : ∀ (steps : List BoardStep) (n : Nat) (k : Known), (∀ p ∈ k, p.1 ∈ files) →
      Spec (fun h => J h.tarballs) (fun _ _ => True) true (fun _ => Knows k)
        (script ((steps.zipIdx n).map fun p => boardStep i p.1 (p.2 + 2)))
        fun _ _ => Knows (steps.foldl Known.afterStep k) := by
    intro steps
    induction steps with
    | nil => exact fun _ k _ => (Keeps.call true).spec true
    | cons step steps ih =>
      intro n k hk
      have hstep : Spec (fun h => J h.tarballs) (fun _ _ => True) true (fun _ => Knows k)
          (boardStep i step (n + 2)) fun _ _ => Knows (k.afterStep step) := by
        cases step with
        | setFdt name => exact write_knows _ _ _
        | _ => exact (external_keeps (hdiscreet _) hk).spec true
      have hk' : ∀ p ∈ k.afterStep step, p.1 ∈ files := by
        cases step with
        | setFdt name => exact mem_of_learn huEnv hk
        | _ => exact hk
      rw [List.zipIdx_cons, List.map_cons, List.foldl_cons]
      cases hrest : (steps.zipIdx (n + 1)).map fun p => boardStep i p.1 (p.2 + 2) with
      | nil =>
        have hnil : steps = [] := by simpa using hrest
        subst hnil
        exact hstep
      | cons c cs =>
        rw [script, ← hrest]
        exact Spec.seq hstep fun _ => ih (n + 1) _ hk'
  have h := hsteps inv.board.install 0 k hk
  rw [afterStep_install] at h
  exact h

/-- The files of the finished tree. -/
def finishedFiles (inv : Invocation) (i : Input) : Known :=
  [(.aptPinTmp, none), (.aptListTmp, none), (.addRepoPin, none), (.addRepo, none),
    (.uEnv, some (uEnvLines inv.board.fdt)), (.wbFwVersion, some [i.date])]

/-- The files that the script needs to be left alone. -/
def ownFiles : List File := [.aptPinTmp, .aptListTmp, .addRepoPin, .addRepo, .uEnv, .wbFwVersion]

/-- A command on the tree does not end the script with success. -/
theorem onTree_noSuccess (site : Site) (f : Tree → Tree) : NoSuccess (onTree i site f) :=
  .simple _

/-- Nor does installing packages. -/
theorem chrAptInstall_noSuccess (line : Nat) : NoSuccess (chrAptInstall i line) :=
  .orElse (.simple _) (.simple _)

private theorem boardInstall_noSuccess : NoSuccess (boardInstall inv i) := by
  apply NoSuccess.map
  rintro ⟨step, n⟩
  cases step <;> exact .simple _

private theorem runAdditionalScript_noSuccess : NoSuccess (runAdditionalScript i) := by
  unfold runAdditionalScript
  split
  · exact .simple _
  · exact .script ⟨.simple _, .simple _, .simple _⟩

private theorem clearMachineId_noSuccess : NoSuccess (clearMachineId i) :=
  .ifThen (.simple _) (.script ⟨.simple _, .simple _, .simple _⟩)

/-- Commands on files of which nothing is known. -/
theorem other_knows {site : Site} {file : File} {f : Tree → Option (List Text)}
    (hfile : ∀ p ∈ k, p.1 ≠ file) :
    Spec (fun h => J h.tarballs) (fun _ _ => True) true (fun _ => Knows k)
      (onTree i site fun t => Function.update t file (f t)) fun _ _ => Knows k :=
  onTree_knows fun _ h => h.update_other hfile _

private theorem runAdditionalScript_knows (hdiscreet : Discreet i files) (hk : ∀ p ∈ k, p.1 ∈ files)
    (hother : ∀ p ∈ k, p.1 ≠ .additional) :
    Spec (fun h => J h.tarballs) (fun _ _ => True) true (fun _ => Knows k)
      (runAdditionalScript i) fun _ _ => Knows k := by
  unfold runAdditionalScript
  split
  · exact (Keeps.call true).spec true
  · refine Spec.seq (other_knows hother) fun _ => ?_
    refine Spec.seq ((external_keeps (hdiscreet _) hk).spec true) fun _ => ?_
    exact other_knows hother

private theorem clearMachineId_knows (hmachine : ∀ p ∈ k, p.1 ≠ .machineId)
    (hdbus : ∀ p ∈ k, p.1 ≠ .dbusMachineId) :
    Spec (fun h => J h.tarballs) (fun _ _ => True) true (fun _ => Knows k) (clearMachineId i)
      fun _ _ => Knows k := by
  refine Spec.ifThenElse ((Keeps.call _).spec false) ?_ ((Keeps.call true).spec true)
  refine Spec.seq (other_knows hmachine) fun _ => ?_
  exact Spec.seq (other_knows hdbus) fun _ => other_knows hmachine

/-- The command leads from what is known to what is known, and does not end the shell with
success unless `G` holds. -/
abbrev Learns (J : (Text → Option Tarball) → Prop) (G : Host → Prop) (k : Known)
    (c : Sh RepoVars Host) (k' : Known) : Prop :=
  Spec (fun h => J h.tarballs) (fun ok h => ok = true → G h) true (fun _ => Knows k) c
    fun _ _ => Knows k'

private theorem learns_of_keeps {G : Host → Prop} {c : Sh RepoVars Host} (hc : NoSuccess c)
    (h : Keeps (fun h => J h.tarballs) (Knows k) c) : Learns J G k c k :=
  hc.spec (h.spec true) G

private theorem put_learns {G : Host → Prop} (site : Site) (file : File)
    (content : Option (List Text)) :
    Learns J G k (onTree i site fun t => Function.update t file content)
      (k.learn file content) :=
  (onTree_noSuccess site _).spec (onTree_knows fun _ h => h.update file content) G

private theorem other_learns {G : Host → Prop} {site : Site} {file : File}
    {f : Tree → Option (List Text)} (hfile : ∀ p ∈ k, p.1 ≠ file) :
    Learns J G k (onTree i site fun t => Function.update t file (f t)) k :=
  (onTree_noSuccess site _).spec (other_knows hfile) G

private theorem external_learns {G : Host → Prop} (hdiscreet : Discreet i files)
    (hk : ∀ p ∈ k, p.1 ∈ files) (site : Site) : Learns J G k (external i site) k :=
  learns_of_keeps (onTree_noSuccess site _) (external_keeps (hdiscreet site) hk)

/-- The files of a tree with its packages. -/
def installedFiles (inv : Invocation) (i : Input) : Known :=
  [(.uEnv, some (uEnvLines inv.board.fdt)), (.wbFwVersion, some [i.date])]

private theorem installPackages_learns {G : Host → Prop} (hdiscreet : Discreet i ownFiles) :
    Learns J G [] (installPackages inv i) (installedFiles inv i) := by
  have hapt {k : Known} (hk : ∀ p ∈ k, p.1 ∈ ownFiles) (line : Nat) :
      Keeps (fun h => J h.tarballs) (Knows k) (chrAptInstall i line) :=
    chrAptInstall_knows (hdiscreet _) (hdiscreet _) hk
  have hnone : ∀ p ∈ ([] : Known), p.1 ∈ ownFiles := by simp
  have hversion : ∀ p ∈ ([(.wbFwVersion, some [i.date])] : Known), p.1 ∈ ownFiles := by
    simp [ownFiles]
  have hboard : ∀ p ∈ installedFiles inv i, p.1 ∈ ownFiles := by simp [installedFiles, ownFiles]
  refine Spec.seq (external_learns hdiscreet hnone _) fun _ => ?_
  refine Spec.seq (learns_of_keeps (chrAptInstall_noSuccess _) (hapt hnone _)) fun _ => ?_
  refine Spec.seq (external_learns hdiscreet hnone _) fun _ => ?_
  refine Spec.seq (external_learns hdiscreet hnone _) fun _ => ?_
  refine Spec.seq (external_learns hdiscreet hnone _) fun _ => ?_
  refine Spec.seq (R := fun _ _ => Knows [(.wbFwVersion, some [i.date])]) (put_learns _ _ _)
    fun _ => ?_
  refine Spec.seq (learns_of_keeps (.andThen (.simple _) (chrAptInstall_noSuccess _))
    (.andThen (.call _) (hapt hversion _))) fun _ => ?_
  refine Spec.seq (boardInstall_noSuccess.spec
    (boardInstall_knows hdiscreet (by decide) hversion) G) fun _ => ?_
  exact learns_of_keeps (.ifThen (.simple _) (onTree_noSuccess _ _))
    (.ifThen (.call _) (external_keeps (hdiscreet _) hboard))

private theorem removeTemporary_learns {G : Host → Prop} (hdiscreet : Discreet i ownFiles) :
    Learns J G (installedFiles inv i) (removeTemporary i) (finishedFiles inv i) := by
  have hremoved : ∀ p ∈ ((.addRepoPin, none) :: (.addRepo, none) :: installedFiles inv i : Known),
      p.1 ∈ ownFiles := by simp [installedFiles, ownFiles]
  have hother {file : File} (hfile : file ∉ ownFiles) :
      ∀ p ∈ ((.addRepoPin, none) :: (.addRepo, none) :: installedFiles inv i : Known),
        p.1 ≠ file := fun p hp heq => hfile (heq ▸ hremoved p hp)
  refine Spec.seq (R := fun _ _ => Knows ((.addRepo, none) :: installedFiles inv i))
    (put_learns _ _ _) fun _ => ?_
  refine Spec.seq
    (R := fun _ _ => Knows ((.addRepoPin, none) :: (.addRepo, none) :: installedFiles inv i))
    (put_learns _ _ _) fun _ => ?_
  refine Spec.seq (other_learns (hother (by decide))) fun _ => ?_
  refine Spec.seq (other_learns (hother (by decide))) fun _ => ?_
  refine Spec.seq (learns_of_keeps (.orElse (onTree_noSuccess _ _) (.simple _))
    (.orElse (external_keeps (hdiscreet _) hremoved) (.call _))) fun _ => ?_
  refine Spec.seq (other_learns (hother (by decide))) fun _ => ?_
  refine Spec.seq (R := fun _ _ => Knows ((.aptListTmp, none) :: (.addRepoPin, none) ::
    (.addRepo, none) :: installedFiles inv i)) (put_learns _ _ _) fun _ => ?_
  exact put_learns _ _ _

/-- The shell ends with success only on a finished tree. -/
theorem sealTree_success (hdiscreet : Discreet i ownFiles) :
    Spec (fun h => J h.tarballs) (fun ok h => ok = true → Knows (finishedFiles inv i) h) true
      (fun _ => Knows (finishedFiles inv i)) (sealTree i) fun _ _ _ => False := by
  have hk : ∀ p ∈ finishedFiles inv i, p.1 ∈ ownFiles := by simp [finishedFiles, ownFiles]
  have hother {file : File} (hfile : file ∉ ownFiles) : ∀ p ∈ finishedFiles inv i, p.1 ≠ file :=
    fun p hp heq => hfile (heq ▸ hk p hp)
  refine Spec.seq (learns_of_keeps (.ifThen (.neg (.simple _)) (onTree_noSuccess _ _))
    (.ifThen (.neg (.call _)) (external_keeps (hdiscreet _) hk))) fun _ => ?_
  refine Spec.seq (runAdditionalScript_noSuccess.spec
    (runAdditionalScript_knows hdiscreet hk (hother (by decide))) _) fun _ => ?_
  refine Spec.seq (NoSuccess.spec (.ifThen (.simple _) (onTree_noSuccess _ _))
    (Spec.ifThenElse ((Keeps.call _).spec false) (other_knows (hother (by decide)))
      ((Keeps.call true).spec true)) _) fun _ => ?_
  refine Spec.seq (external_learns hdiscreet hk _) fun _ => ?_
  refine Spec.seq (external_learns hdiscreet hk _) fun _ => ?_
  refine Spec.seq (external_learns hdiscreet hk _) fun _ => ?_
  refine Spec.seq (clearMachineId_noSuccess.spec
    (clearMachineId_knows (hother (by decide)) (hother (by decide))) _) fun _ => ?_
  exact Spec.exit fun _ _ hknows _ _ => hknows

/-- Lines 332 to 427 end with success only on a finished tree. -/
theorem finishTree_success (hdiscreet : Discreet i ownFiles) :
    Spec (fun h => J h.tarballs) (fun ok h => ok = true → Knows (finishedFiles inv i) h) true
      (fun _ => Knows []) (finishTree inv i) fun _ _ _ => False := by
  refine Spec.seq (installPackages_learns hdiscreet) fun _ => ?_
  refine Spec.seq (removeTemporary_learns hdiscreet) fun _ => ?_
  exact sealTree_success hdiscreet

/-- `prepare_chroot` does not end the script with success. -/
theorem prepareChroot_noSuccess : NoSuccess (prepareChroot i) := by
  have htree (site : Site) (f : Tree → Tree) : NoSuccess (onTree i site f) :=
    onTree_noSuccess site f
  have hptmx : NoSuccess (ifThen (call (i.ptmx ≠ .link))
      (ifThenElse (call (i.ptmx = .node)) (mount i 39 .devPtmx) (external i (.env 41)))) :=
    .ifThen (.simple _) (.ifThenElse (.simple _) (.simple _) (htree _ _))
  exact .script ⟨htree _ _, .simple _, .simple _, .simple _, htree _ _, htree _ _, hptmx,
    htree _ _, htree _ _, .simple _⟩

/-- `services_disable` does not end the script with success. -/
theorem servicesDisable_noSuccess : NoSuccess (servicesDisable i) :=
  .seq (onTree_noSuccess _ _) (.simple _)

private theorem checkRepos_noSuccess : NoSuccess (checkRepos set inv) := by
  unfold checkRepos
  split
  · exact .simple _
  · exact .exit

private theorem setupRepos_noSuccess (repos : List Text) :
    NoSuccess (setupRepos set inv i repos) := by
  apply NoSuccess.caseOf
  intro entries
  cases entries with
  | none => exact .exit
  | some entries => exact .seq (.simple _) (.simple _)

private theorem useTarball_noSuccess (base : Tarball) :
    NoSuccess (useTarball set inv i base) := by
  have htree (site : Site) (f : Tree → Tree) : NoSuccess (onTree i site f) :=
    onTree_noSuccess site f
  have hrepos : NoSuccess (ifThen (call (inv.args ≠ []))
      (setupRepos set inv i (words (addRepos inv)))) :=
    .ifThen (.simple _) (setupRepos_noSuccess _)
  exact .script ⟨.simple _, .simple _, .simple _, prepareChroot_noSuccess,
    servicesDisable_noSuccess, hrepos, htree _ _, htree _ _⟩

private theorem installContactlessRepo_noSuccess :
    NoSuccess (installContactlessRepo set inv i) := by
  have htree (site : Site) (f : Tree → Tree) : NoSuccess (onTree i site f) :=
    onTree_noSuccess site f
  exact .script ⟨htree _ _, htree _ _, htree _ _, htree _ _, htree _ _, htree _ _, htree _ _,
    htree _ _, htree _ _, chrAptInstall_noSuccess _, htree _ _, htree _ _⟩

private theorem boardOverrideRepos_noSuccess : NoSuccess (boardOverrideRepos inv i) := by
  unfold boardOverrideRepos
  split
  · exact .simple _
  · exact .seq (.simple _) (.simple _)

private theorem buildBase_noSuccess (path : Text) : NoSuccess (buildBase set inv i path) := by
  have htree (site : Site) (f : Tree → Tree) : NoSuccess (onTree i site f) :=
    onTree_noSuccess site f
  have hqemu : NoSuccess (ifThen (call inv.env.wbCopyQemu)
      (orElse (external i (.main 242)) (external i (.retry 242)))) :=
    .ifThen (.simple _) (.orElse (htree _ _) (htree _ _))
  have hinstall (line : Nat) : NoSuccess (chrAptInstall i line) := chrAptInstall_noSuccess line
  have hpack : NoSuccess (makeTarball i path) := .seq (.simple _) (.simple _)
  exact .script ⟨htree _ _, hqemu, htree _ _, htree _ _, htree _ _, htree _ _, htree _ _,
    prepareChroot_noSuccess, servicesDisable_noSuccess, htree _ _, htree _ _,
    installContactlessRepo_noSuccess, htree _ _, boardOverrideRepos_noSuccess,
    setupRepos_noSuccess _, htree _ _, hinstall _, htree _ _, htree _ _, htree _ _, htree _ _,
    hinstall _, hpack⟩

/-- Up to where both ways meet, the script does not end with success. -/
theorem toBase_noSuccess : NoSuccess (toBase set inv i) := by
  refine .script ⟨.andThen (.simple _) .exit, .simple _, checkRepos_noSuccess, ?_⟩
  split
  · intro errexit vars h
    rw [base]
    cases h.tarballs _ with
    | some tarball => exact useTarball_noSuccess tarball errexit vars h
    | none => exact buildBase_noSuccess _ errexit vars h
  · exact .exit

/-- The script ends with success only on a finished tree that is still prepared. -/
theorem body_success (hdiscreet : Discreet i ownFiles) :
    Spec (fun _ => True) (fun ok h => ok = true → Chrooted i h ∧ Knows (finishedFiles inv i) h)
      true (fun _ => Vacant) (seq (toBase set inv i) (finishTree inv i))
      fun ok _ h => ok = true → Chrooted i h ∧ Knows (finishedFiles inv i) h := by
  have hleads : Leads (fun _ => True) i Vacant (toBase set inv i) (Chrooted i) :=
    toBase_leads fun path _ => makeTarball_keeps path
  have hbase := hleads.exits (Y := fun _ _ => True) fun _ _ _ => trivial
  refine Spec.seq (toBase_noSuccess.spec hbase _) fun _ => ?_
  have hkeeps : Keeps (fun _ => True) (Chrooted i) (finishTree inv i) :=
    finishTree_keeps (J := fun _ => True) stable_chrooted
  have hfinish := (hkeeps.success true).and (finishTree_success (J := fun _ => True) hdiscreet)
  refine Spec.post (Q := fun _ _ _ => False) (fun vars h hA hJ => ?_) fun _ _ _ _ _ h => h.elim
  obtain ⟨t, ht⟩ := Option.isSome_iff_exists.mp hA.tree
  have hmeets := hfinish.exits (Y := fun ok h => ok = true → Chrooted i h ∧
    Knows (finishedFiles inv i) h) (fun _ _ hX hok => ⟨hX.1 hok, hX.2 hok⟩)
  exact (hmeets.post fun _ _ _ _ _ h => h.2) vars h ⟨hA, t, ht, by simp [Agrees]⟩ hJ

end Success

/-- The trap does not end the script with success. -/
theorem cleanupChroot_noSuccess (i : Input) : NoSuccess (cleanupChroot i) :=
  .script ⟨.orElse (.simple _) (.simple _), .simple _, .simple _, .simple _,
    onTree_noSuccess _ _, onTree_noSuccess _ _⟩

/-- The trap leaves a finished tree finished. -/
theorem cleanupChroot_finished (inv : Invocation) (i : Input) :
    Spec (fun _ => True) (fun ok h => ok = true → CleanedUp h ∧ Knows (finishedFiles inv i) h)
      true (fun _ h => Chrooted i h ∧ Knows (finishedFiles inv i) h) (cleanupChroot i)
      fun _ _ h => CleanedUp h ∧ Knows (finishedFiles inv i) h := by
  have hspec := cleanupChroot_undoes (J := fun _ => True) (i := i) (k := finishedFiles inv i)
    (X := fun ok h => ok = true → CleanedUp h ∧ Knows (finishedFiles inv i) h)
    (.inr fun _ h => absurd h (by simp))
  refine Spec.post (fun vars h hA => hspec vars h ⟨hA.1.mounts, hA.2⟩) fun _ _ _ _ _ hA => ?_
  obtain ⟨t, ht, hagrees⟩ := hA.files
  refine ⟨⟨hA.mounts, t, ht, hagrees.subset ?_⟩, t, ht, hagrees.subset ?_⟩
  · simp [Known.learn]
  · simp [Known.learn, finishedFiles]

/-- The whole script exits with success only on a finished tree. -/
theorem createRootfs_success (set : Setting) (inv : Invocation) {i : Input}
    (hdiscreet : Discreet i ownFiles) (h : Host) :
    (createRootfs set inv i h).Meets (fun _ => True)
      (fun ok h => ok = true → CleanedUp h ∧ Knows (finishedFiles inv i) h)
      fun _ _ _ => True := by
  refine createRootfs_meets (J := fun _ => True) (body_success hdiscreet) (fun ok => ?_) ?_ h
    trivial
  · cases ok with
    | false =>
      exact ((cleanupChroot_noSuccess i).spec Spec.top _).post
        fun _ _ _ _ _ _ h => absurd h (by simp)
    | true =>
      refine Spec.post (fun vars h hA => cleanupChroot_finished inv i vars h (hA.1 rfl)) ?_
      exact fun _ _ _ _ _ hA _ => hA
  · intro ok h hA hnone hok
    exact absurd ((hA hok).1.trap.symm.trans hnone) (by simp)

/-- A build that reports success, from a tarball or not, has undone its mounts and let
services start again, holds none of the lists and pins that only the build needs, and has
the version and the device tree of its board, as long as no command from outside the script
touches these files. -/
theorem finished_on_success (set : Setting) (inv : Invocation) {i : Input}
    (hdiscreet : Discreet i ownFiles) (h : Host)
    (hexit : (createRootfs set inv i h).ending = .exited true) :
    CleanedUp (createRootfs set inv i h).world ∧
      Knows (finishedFiles inv i) (createRootfs set inv i h).world := by
  have hend := (createRootfs_success set inv hdiscreet h).ending
  rw [hexit] at hend
  exact hend rfl

/-- A first build of board 55. -/
theorem finished_on_success_55 :
    CleanedUp (createRootfs .local ⟨.b55, [], plainEnv⟩ (.failingAt none) .empty).world ∧
      Knows (finishedFiles ⟨.b55, [], plainEnv⟩ (.failingAt none))
        (createRootfs .local ⟨.b55, [], plainEnv⟩ (.failingAt none) .empty).world :=
  finished_on_success .local ⟨.b55, [], plainEnv⟩ (fun _ _ _ _ => ⟨rfl, rfl⟩) .empty
    (by decide +kernel)

end WirenBoard.Rootfs
