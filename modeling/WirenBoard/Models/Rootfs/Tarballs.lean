import WirenBoard.Models.Rootfs.Builds

/-!
# The base tarballs over many builds

A build finds the tarballs that earlier builds left, whether these came to their end or were
cut short, also while they packed a tarball. As long as the invocations that share a name build
the same base tree, every tarball that can be unpacked holds the apt files of the invocation it
was made for, and so both ways to the base tree end with the apt files that the invocation
asks for.
-/

namespace WirenBoard.Rootfs

open Shell

/-- The apt files of the base tree. -/
def aptFiles : List File :=
  [.addRepoPin, .addRepo, .overrideList, .aptPinTmp, .aptListTmp, .sourcesList]

/-- The apt files that only the script writes. -/
def scriptFiles : List File := [.addRepoPin, .addRepo, .overrideList, .aptPinTmp, .aptListTmp]

/-- What the branch that builds the base tree writes to them. -/
def baseFiles (set : Setting) (b : BuildInputs) : Known :=
  [(.addRepoPin, b.additional.map fun entries => [] :: entries.flatMap (pinLines set)),
    (.addRepo, b.additional.map fun entries => [] :: entries.map aptLine),
    (.overrideList, b.overrideList.map fun line => [line]),
    (.aptPinTmp, some b.wbInstallPins),
    (.aptListTmp, some [b.wbInstallList]),
    (.sourcesList, some b.sourcesList)]

/-! ## Commands that leave the apt files alone -/

/-- The lines where `debootstrap` runs. -/
def Site.bootstraps : Site → Bool
  | .main 232 => true
  | .main 275 => true
  | _ => false

/-- Commands from outside the script leave the apt files alone, but that `debootstrap` may write
a `sources.list` of its own. -/
structure AptDiscreet (i : Input) : Prop where
  /-- The other commands. -/
  others : ∀ site, site.bootstraps = false → DiscreetAt i site aptFiles
  /-- `debootstrap`. -/
  bootstrap : ∀ site, site.bootstraps = true → DiscreetAt i site scriptFiles

section Outside

variable {inv : Invocation} {i : Input} {J : (Text → Option Tarball) → Prop} {k : Known}
  {files : List File}

/-- The other apt files are left alone everywhere. -/
theorem AptDiscreet.anywhere (h : AptDiscreet i) (site : Site) : DiscreetAt i site scriptFiles := by
  cases hsite : site.bootstraps with
  | true => exact h.bootstrap site hsite
  | false =>
    intro t file hfile
    have hsubset : scriptFiles ⊆ aptFiles := by decide
    exact h.others site hsite t file (hsubset hfile)

/-- A command on another file, which may also fail. -/
theorem outside_keeps {site : Site} (hdiscreet : DiscreetAt i site files)
    (hk : ∀ p ∈ k, p.1 ∈ files) {file : File} (hfile : file ∉ files)
    (content : Option (List Text)) :
    Keeps (fun h => J h.tarballs) (Knows k)
      (onTree i site fun t => Function.update t file content) := by
  apply Keeps.act
  rintro h ⟨t, ht, hagrees⟩ hJ
  refine ⟨hJ, ?_⟩
  simp only [ht, Option.map_some]
  refine ⟨_, rfl, ?_⟩
  split
  · exact hagrees.update_other (fun p hp (heq : p.1 = file) => hfile (heq ▸ hk p hp)) content
  · exact fun p hp => ((hdiscreet t p.1 (hk p hp)).2).trans (hagrees p hp)

private theorem mount_knows (line : Nat) (p : Point) :
    Keeps (fun h => J h.tarballs) (Knows k) (mount i line p) := by
  apply Keeps.act
  intro h hknows hJ
  split
  · exact ⟨hJ, hknows⟩
  · exact ⟨hJ, hknows⟩

private theorem prepareChroot_knows (hdiscreet : ∀ line, DiscreetAt i (.env line) files)
    (hk : ∀ p ∈ k, p.1 ∈ files) (hfile : File.resolvConf ∉ files) :
    Keeps (fun h => J h.tarballs) (Knows k) (prepareChroot i) := by
  have hext (line : Nat) : Keeps (fun h => J h.tarballs) (Knows k) (external i (.env line)) :=
    external_keeps (hdiscreet line) hk
  have hmount (line : Nat) (p : Point) : Keeps (fun h => J h.tarballs) (Knows k)
      (mount i line p) := mount_knows line p
  have hresolv (line : Nat) (content : Option (List Text)) :
      Keeps (fun h => J h.tarballs) (Knows k)
        (onTree i (.env line) fun t => Function.update t .resolvConf content) :=
    outside_keeps (hdiscreet line) hk hfile content
  have hptmx : Keeps (fun h => J h.tarballs) (Knows k) (ifThen (call (i.ptmx ≠ .link))
      (ifThenElse (call (i.ptmx = .node)) (mount i 39 .devPtmx) (external i (.env 41)))) :=
    .ifThen (.call _) (.ifThenElse (.call _) (hmount _ _) (hext _))
  exact .script ⟨hext _, hmount _ _, hmount _ _, hmount _ _, hext _, hext _, hptmx, hresolv _ _,
    hresolv _ _, .act fun _ hknows hJ => ⟨hJ, hknows⟩⟩

private theorem servicesDisable_knows (hdiscreet : ∀ line, DiscreetAt i (.env line) files)
    (hk : ∀ p ∈ k, p.1 ∈ files) (hfile : File.policyRcD ∉ files) :
    Keeps (fun h => J h.tarballs) (Knows k) (servicesDisable i) :=
  .seq (outside_keeps (hdiscreet 3) hk hfile _) (.call _)

private theorem onTree_noAssign (site : Site) (f : Tree → Tree) : NoAssign (onTree i site f) :=
  .act _ _

private theorem chrAptInstall_noAssign (line : Nat) : NoAssign (chrAptInstall i line) :=
  .orElse (.act _ _) (.act _ _)

private theorem prepareChroot_noAssign : NoAssign (prepareChroot i) := by
  have hptmx : NoAssign (ifThen (call (i.ptmx ≠ .link))
      (ifThenElse (call (i.ptmx = .node)) (mount i 39 .devPtmx) (external i (.env 41)))) :=
    .ifThen (.call _) (.ifThenElse (.call _) (.act _ _) (.act _ _))
  exact .script ⟨.act _ _, .act _ _, .act _ _, .act _ _, .act _ _, .act _ _, hptmx, .act _ _,
    .act _ _, .act _ _⟩

private theorem servicesDisable_noAssign : NoAssign (servicesDisable i) :=
  .seq (.act _ _) (.call _)

end Outside

/-! ## The branch that builds the base tree -/

/-- The command leads from what is known to what is known, with the variables as the check of
the additional repositories left them. -/
abbrev Arranges (J : (Text → Option Tarball) → Prop) (set : Setting) (inv : Invocation) (k : Known)
    (c : Sh RepoVars Host) (k' : Known) : Prop :=
  Spec (fun h => J h.tarballs) (fun _ _ => True) true
    (fun vars h => checkedVars inv set.present = some vars ∧ Knows k h) c
    fun _ vars h => checkedVars inv set.present = some vars ∧ Knows k' h

section Base

variable {set : Setting} {inv : Invocation} {i : Input} {J : (Text → Option Tarball) → Prop}
  {k : Known}

private theorem arranges_of_keeps {c : Sh RepoVars Host} (hc : NoAssign c)
    (h : Keeps (fun h => J h.tarballs) (Knows k) c) : Arranges J set inv k c k :=
  hc.spec _ (h.spec true)

private theorem put_arranges (site : Site) (file : File) (content : Option (List Text)) :
    Arranges J set inv k (onTree i site fun t => Function.update t file content)
      (k.learn file content) :=
  (onTree_noAssign site _).spec _ (onTree_knows fun _ h => h.update file content)

private theorem learn_learn (file : File) (a b : Option (List Text)) :
    (k.learn file a).learn file b = k.learn file b := by
  simp [Known.learn, List.filter_filter]

/-- The list of the Wiren Board repository is written twice. -/
theorem installContactlessRepo_arranges (hdiscreet : AptDiscreet i)
    (hk : ∀ p ∈ k, p.1 ∈ aptFiles) :
    Arranges J set inv k (installContactlessRepo set inv i)
      (k.learn .aptListTmp (some [(buildInputs inv set.present).wbInstallList])) := by
  have hmem (content : Option (List Text)) :
      ∀ p ∈ k.learn .aptListTmp content, p.1 ∈ aptFiles := mem_of_learn (by decide) hk
  have hext (content : Option (List Text)) {site : Site} (hsite : site.bootstraps = false) :
      Arranges J set inv (k.learn .aptListTmp content) (external i site)
        (k.learn .aptListTmp content) :=
    arranges_of_keeps (onTree_noAssign _ _)
      (external_keeps (hdiscreet.others site hsite) (hmem content))
  have hout {file : File} (hfile : file ∉ aptFiles) (content : Option (List Text)) {site : Site}
      (hsite : site.bootstraps = false) (new : Option (List Text)) :
      Arranges J set inv (k.learn .aptListTmp content)
        (onTree i site fun t => Function.update t file new) (k.learn .aptListTmp content) :=
    arranges_of_keeps (onTree_noAssign _ _)
      (outside_keeps (hdiscreet.others site hsite) (hmem content) hfile new)
  refine Spec.seq (put_arranges _ _ _) fun _ => ?_
  refine Spec.seq (hext none rfl) fun _ => ?_
  refine Spec.seq (hout (by decide) none rfl _) fun _ => ?_
  refine Spec.seq (hext none rfl) fun _ => ?_
  refine Spec.seq (hout (by decide) none rfl _) fun _ => ?_
  refine Spec.seq (hext none rfl) fun _ => ?_
  refine Spec.seq (hext none rfl) fun _ => ?_
  refine Spec.seq (put_arranges _ _ _) fun _ => ?_
  rw [learn_learn]
  refine Spec.seq (hext _ rfl) fun _ => ?_
  refine Spec.seq (arranges_of_keeps (chrAptInstall_noAssign _) (chrAptInstall_knows
    (hdiscreet.others _ rfl) (hdiscreet.others _ rfl) (hmem _))) fun _ => ?_
  refine Spec.seq (put_arranges _ _ _) fun _ => ?_
  rw [learn_learn]
  exact hout (by decide) _ rfl _

/-- The list of an overriding board. -/
theorem boardOverrideRepos_arranges (hdiscreet : AptDiscreet i)
    (hk : ∀ p ∈ k, p.1 ∈ aptFiles) (hnone : k.learn .overrideList none ⊆ k) :
    Arranges J set inv k (boardOverrideRepos inv i)
      (k.learn .overrideList ((overrideList inv).map fun line => [line])) := by
  unfold boardOverrideRepos
  cases overrideList inv with
  | none =>
    have hcall : Arranges J set inv k (call true) k := arranges_of_keeps (.call true) (.call true)
    refine hcall.post fun _ _ _ _ _ h => ⟨h.1, ?_⟩
    obtain ⟨t, ht, hagrees⟩ := h.2
    exact ⟨t, ht, hagrees.subset hnone⟩
  | some line =>
    refine Spec.seq (put_arranges _ _ _) fun _ => ?_
    exact arranges_of_keeps (onTree_noAssign _ _)
      (external_keeps (hdiscreet.others _ rfl) (mem_of_learn (by decide) hk))

/-- The files of the additional repositories. -/
theorem setupRepos_arranges :
    Spec (fun h => J h.tarballs) (fun _ _ => True) true
      (fun vars h => checkedVars inv set.present = some vars ∧ Knows k h)
      (setupRepos set inv i (argWords inv))
      fun _ _ => Knows ((k.learn .addRepo ((additionalRepos inv set.present).map
          fun entries => [] :: entries.map aptLine)).learn .addRepoPin
        ((additionalRepos inv set.present).map
          fun entries => [] :: entries.flatMap (pinLines set))) := by
  apply Spec.caseOf
  intro entries
  cases entries with
  | none => exact Spec.exit fun _ _ _ _ => trivial
  | some entries =>
    refine Spec.seq (fun vars h hA hJ => ?_) fun _ => (Keeps.assign _ _).spec true
    have hentries : additionalRepos inv set.present = some entries := by
      simp [additionalRepos, hA.1.1, hA.2]
    rw [hentries]
    exact onTree_knows (fun _ h => (h.update _ _).update _ _) vars h hA.1.2 hJ

/-- What is known of a new tree. -/
def newFiles : Known := scriptFiles.map fun file => (file, none)

private theorem mem_baseFiles (b : BuildInputs) : ∀ p ∈ baseFiles set b, p.1 ∈ aptFiles := by
  simp [baseFiles, aptFiles]

/-- From line 311 on the apt files are as they will be packed. -/
private theorem packing_keeps (hdiscreet : AptDiscreet i) (path : Text)
    (hmake : Keeps (fun h => J h.tarballs) (Knows (baseFiles set (buildInputs inv set.present)))
      (makeTarball i path)) :
    Keeps (fun h => J h.tarballs) (Knows (baseFiles set (buildInputs inv set.present)))
      (script [
        external i (.main 311),
        chrAptInstall i 314,
        write i (.main 315) .localeGen ["en_GB.UTF-8 UTF-8".toList, "en_US.UTF-8 UTF-8".toList,
          "ru_RU.UTF-8 UTF-8".toList],
        external i (.main 318),
        external i (.main 319),
        external i (.main 322),
        chrAptInstall i 324,
        makeTarball i path]) := by
  have hbase : ∀ p ∈ baseFiles set (buildInputs inv set.present), p.1 ∈ aptFiles :=
    mem_baseFiles _
  have hext {site : Site} (hsite : site.bootstraps = false) : Keeps (fun h => J h.tarballs)
      (Knows (baseFiles set (buildInputs inv set.present))) (external i site) :=
    external_keeps (hdiscreet.others site hsite) hbase
  have hinstall {line : Nat} (hline : (Site.main line).bootstraps = false) :
      Keeps (fun h => J h.tarballs) (Knows (baseFiles set (buildInputs inv set.present)))
        (chrAptInstall i line) :=
    chrAptInstall_knows (hdiscreet.others _ hline) (hdiscreet.others _ rfl) hbase
  have hlocale : Keeps (fun h => J h.tarballs)
      (Knows (baseFiles set (buildInputs inv set.present)))
      (write i (.main 315) .localeGen ["en_GB.UTF-8 UTF-8".toList, "en_US.UTF-8 UTF-8".toList,
        "ru_RU.UTF-8 UTF-8".toList]) :=
    outside_keeps (hdiscreet.others _ rfl) hbase (by decide) _
  exact .script ⟨hext rfl, hinstall rfl, hlocale, hext rfl, hext rfl, hext rfl, hinstall rfl, hmake⟩

/-- From line 283 on the script writes its apt files, and then packs the tree. -/
private theorem afterDebootstrap_arranges (hdiscreet : AptDiscreet i) (path : Text)
    (hmake : Keeps (fun h => J h.tarballs) (Knows (baseFiles set (buildInputs inv set.present)))
      (makeTarball i path)) :
    Spec (fun h => J h.tarballs) (fun _ _ => True) true
      (fun vars h => checkedVars inv set.present = some vars ∧ Knows newFiles h)
      (script [
        write i (.main 283) .sourcesList (sourcesList inv),
        installContactlessRepo set inv i,
        write i (.main 294) .aptPinTmp (wbInstallPins inv),
        boardOverrideRepos inv i,
        setupRepos set inv i (argWords inv),
        external i (.main 311),
        chrAptInstall i 314,
        write i (.main 315) .localeGen ["en_GB.UTF-8 UTF-8".toList, "en_US.UTF-8 UTF-8".toList,
          "ru_RU.UTF-8 UTF-8".toList],
        external i (.main 318),
        external i (.main 319),
        external i (.main 322),
        chrAptInstall i 324,
        makeTarball i path])
      fun _ _ => Knows (baseFiles set (buildInputs inv set.present)) := by
  have hsources : ∀ p ∈ newFiles.learn .sourcesList (some (sourcesList inv)), p.1 ∈ aptFiles := by
    simp [newFiles, scriptFiles, aptFiles, Known.learn]
  refine Spec.seq (put_arranges _ _ _) fun _ => ?_
  refine Spec.seq (installContactlessRepo_arranges hdiscreet hsources) fun _ => ?_
  refine Spec.seq (put_arranges _ _ _) fun _ => ?_
  refine Spec.seq (boardOverrideRepos_arranges hdiscreet
    (mem_of_learn (by decide) (mem_of_learn (by decide) hsources)) ?_) fun _ => ?_
  · simp [newFiles, scriptFiles, Known.learn]
  refine Spec.seq setupRepos_arranges fun _ => ?_
  exact (packing_keeps hdiscreet path hmake).spec true

/-- The branch that builds the base tree writes all its apt files before it packs it. -/
theorem buildBase_arranges (hdiscreet : AptDiscreet i) (path : Text)
    (hmake : Keeps (fun h => J h.tarballs) (Knows (baseFiles set (buildInputs inv set.present)))
      (makeTarball i path)) :
    Spec (fun h => J h.tarballs) (fun _ _ => True) true
      (fun vars h => checkedVars inv set.present = some vars ∧ Knows newFiles h)
      (buildBase set inv i path)
      fun _ _ => Knows (baseFiles set (buildInputs inv set.present)) := by
  have hnew : ∀ p ∈ newFiles, p.1 ∈ scriptFiles := by simp [newFiles]
  have hext (site : Site) : Arranges J set inv newFiles (external i site) newFiles :=
    arranges_of_keeps (onTree_noAssign _ _) (external_keeps (hdiscreet.anywhere site) hnew)
  have hout {file : File} (hfile : file ∉ scriptFiles) (site : Site)
      (content : Option (List Text)) : Arranges J set inv newFiles
        (onTree i site fun t => Function.update t file content) newFiles :=
    arranges_of_keeps (onTree_noAssign _ _)
      (outside_keeps (hdiscreet.anywhere site) hnew hfile content)
  have hqemu : Arranges J set inv newFiles (ifThen (call inv.env.wbCopyQemu)
      (orElse (external i (.main 242)) (external i (.retry 242)))) newFiles :=
    arranges_of_keeps (.ifThen (.call _) (.orElse (.act _ _) (.act _ _)))
      (.ifThen (.call _) (.orElse (external_keeps (hdiscreet.anywhere _) hnew)
        (external_keeps (hdiscreet.anywhere _) hnew)))
  have hprepare : Arranges J set inv newFiles (prepareChroot i) newFiles :=
    arranges_of_keeps prepareChroot_noAssign
      (prepareChroot_knows (fun _ => hdiscreet.anywhere _) hnew (by decide))
  have hdisable : Arranges J set inv newFiles (servicesDisable i) newFiles :=
    arranges_of_keeps servicesDisable_noAssign
      (servicesDisable_knows (fun _ => hdiscreet.anywhere _) hnew (by decide))
  -- up to line 281 only `debootstrap` can write an apt file, which line 283 replaces
  refine Spec.seq (hext _) fun _ => ?_
  refine Spec.seq hqemu fun _ => ?_
  refine Spec.seq (hout (by decide) _ _) fun _ => ?_
  refine Spec.seq (hext _) fun _ => ?_
  refine Spec.seq (hext _) fun _ => ?_
  refine Spec.seq (hout (by decide) _ _) fun _ => ?_
  refine Spec.seq (hext _) fun _ => ?_
  refine Spec.seq hprepare fun _ => ?_
  refine Spec.seq hdisable fun _ => ?_
  exact Spec.seq (hext _) fun _ => afterDebootstrap_arranges hdiscreet path hmake

/-- A new tree has none of the files. -/
theorem mkdir_arranges (F : RepoVars → Prop) (line : Nat) :
    Spec (fun h => J h.tarballs) (fun _ _ => True) true (fun vars _ => F vars)
      (act (i.ok (.main line)) fun h =>
        if i.ok (.main line) then { h with tree := some fun _ => none } else h)
      fun _ vars h => F vars ∧ Knows newFiles h := by
  apply Spec.simple
  intro vars h hF hJ
  cases hok : i.ok (.main line) with
  | true => exact ⟨hJ, by simp, fun _ => ⟨hF, _, rfl, by simp [Agrees, newFiles]⟩⟩
  | false => exact ⟨hJ, fun _ _ => trivial, fun h => absurd (h rfl) (by simp)⟩

/-- The check of the additional repositories sets the variables. -/
theorem checkRepos_arranges :
    Spec (fun h => J h.tarballs) (fun _ _ => True) true (fun _ h => True ∧ Knows k h)
      (checkRepos set inv) fun _ vars h => checkedVars inv set.present = some vars ∧ Knows k h := by
  unfold checkRepos
  cases checkedVars inv set.present with
  | none => exact Spec.exit fun _ _ _ _ => trivial
  | some vars => exact Spec.simple fun _ _ hA hJ => ⟨hJ, by simp, fun _ => ⟨rfl, hA.2⟩⟩

/-- Arguments name the additional repositories that the check has seen. -/
theorem words_addRepos_of_args (hargs : inv.args ≠ []) : words (addRepos inv) = argWords inv := by
  rw [addRepos, if_neg hargs, words_joinWords, argWords]

/-- Where arguments name additional repositories, their files are written again. -/
theorem setupAgain_arranges :
    Spec (fun h => J h.tarballs) (fun _ _ => True) true
      (fun vars h => checkedVars inv set.present = some vars ∧
        Knows (baseFiles set (buildInputs inv set.present)) h)
      (ifThen (call (inv.args ≠ [])) (setupRepos set inv i (words (addRepos inv))))
      fun _ _ => Knows (baseFiles set (buildInputs inv set.present)) := by
  refine Spec.ifThenElse (R := fun ok vars h => (checkedVars inv set.present = some vars ∧
    Knows (baseFiles set (buildInputs inv set.present)) h) ∧ ok = decide (inv.args ≠ [])) ?_ ?_ ?_
  · exact Spec.simple fun _ _ hA hJ => ⟨hJ, by simp, fun _ => ⟨hA, rfl⟩⟩
  · intro vars h hA hJ
    rw [words_addRepos_of_args (of_decide_eq_true hA.2.symm)]
    exact setupRepos_arranges vars h hA.1 hJ
  · exact fun vars h hA hJ => (Keeps.call true).spec true vars h hA.1.2 hJ

/-- A tarball is unpacked, or the script ends. -/
private theorem unpack_knows {k' : Known} {tarball : Tarball}
    (htarball : tarball.readable = true → Agrees k' tarball.tree) :
    Spec (fun h => J h.tarballs) (fun _ _ => True) true (fun _ => Knows k) (unpack i tarball)
      fun _ _ => Knows k' := by
  apply Spec.simple
  rintro _ h ⟨t, ht, _⟩ hJ
  refine ⟨hJ, fun _ _ => trivial, fun hok => ?_⟩
  have hunpacked : (i.ok (.main 214) && tarball.readable) = true := hok rfl
  obtain ⟨_, hreadable⟩ := (Bool.and_eq_true_iff ..).mp hunpacked
  simp only [hunpacked, ht, ite_true, Option.map_some]
  exact ⟨tarball.tree, rfl, htarball hreadable⟩

/-- The branch that uses a tarball sets up the additional repositories again where arguments
name them, and leaves the other apt files as they are. -/
theorem useTarball_arranges (hdiscreet : AptDiscreet i) {tarball : Tarball}
    (htarball : tarball.readable = true →
      Agrees (baseFiles set (buildInputs inv set.present)) tarball.tree) :
    Spec (fun h => J h.tarballs) (fun _ _ => True) true
      (fun vars _ => checkedVars inv set.present = some vars) (useTarball set inv i tarball)
      fun _ _ => Knows (baseFiles set (buildInputs inv set.present)) := by
  have hbase : ∀ p ∈ baseFiles set (buildInputs inv set.present), p.1 ∈ aptFiles :=
    mem_baseFiles _
  refine Spec.seq (R := fun _ vars _ => checkedVars inv set.present = some vars) ?_ fun _ => ?_
  · exact Spec.simple fun _ _ hA hJ => ⟨hJ, fun _ _ => trivial, fun _ => hA⟩
  refine Spec.seq (mkdir_arranges _ 213) fun _ => ?_
  refine Spec.seq (NoAssign.spec (.act _ _) _ (unpack_knows htarball)) fun _ => ?_
  refine Spec.seq (arranges_of_keeps prepareChroot_noAssign
    (prepareChroot_knows (fun _ => hdiscreet.others _ rfl) hbase (by decide))) fun _ => ?_
  refine Spec.seq (arranges_of_keeps servicesDisable_noAssign
    (servicesDisable_knows (fun _ => hdiscreet.others _ rfl) hbase (by decide))) fun _ => ?_
  refine Spec.seq setupAgain_arranges fun _ => ?_
  refine Spec.seq ((external_keeps (hdiscreet.others _ rfl) hbase).spec true) fun _ => ?_
  exact (external_keeps (hdiscreet.others _ rfl) hbase).spec true

end Base

/-! ## Over many builds -/

/-- Every tarball that can be unpacked holds the apt files of an invocation with its name. -/
def Faithful (set : Setting) (U : Invocation → Prop) (tarballs : Text → Option Tarball) : Prop :=
  ∀ path tarball, tarballs path = some tarball → tarball.readable = true → ∃ inv, U inv ∧
    rootfsBaseTarball inv set.workDir set.sha set.present = some path ∧
    Agrees (baseFiles set (buildInputs inv set.present)) tarball.tree

/-- Invocations that share a name of a tarball have the same settings, and the hash tells the
texts apart that they hash. -/
structure Compatible (set : Setting) (U : Invocation → Prop) : Prop where
  /-- The hash has eight digits. -/
  length : ∀ t, (set.sha t).length = 8
  /-- No two texts have the same hash. -/
  collision : ∀ i j, U i → U j → set.sha (hashText i) = set.sha (hashText j) →
    hashText i = hashText j
  /-- The settings that the name leaves out. -/
  settings : ∀ i j path, U i → U j →
    rootfsBaseTarball i set.workDir set.sha set.present = some path →
    rootfsBaseTarball j set.workDir set.sha set.present = some path → SameSettings i j

/-- The other programs leave the apt files to the script, and a tarball that can be unpacked
although `tar` is not through holds the apt files of the tree. -/
structure Orderly (i : Input) : Prop where
  /-- The apt files. -/
  discreet : AptDiscreet i
  /-- The tarball. -/
  tarball : ∀ torn, i.tornTarball = some torn → ∀ t, (torn t).readable = true →
    ∀ file ∈ aptFiles, (torn t).tree file = t file

/-- The tarballs that builds leave one after the other, each complete or cut short, from none on;
a tarball may be removed between builds. -/
inductive Left (set : Setting) (U : Invocation → Prop) : (Text → Option Tarball) → Prop where
  | none : Left set U fun _ => none
  | remove {tarballs : Text → Option Tarball} (path : Text) (h : Left set U tarballs) :
    Left set U (Function.update tarballs path none)
  | build {h w : Host} {inv : Invocation} {i : Input} (hleft : Left set U h.tarballs)
    (hinv : U inv) (hi : Orderly i)
    (hw : w ∈ (createRootfs set inv i h).world :: (createRootfs set inv i h).visited) :
    Left set U w.tarballs

section Many

variable {set : Setting} {U : Invocation → Prop} {inv : Invocation} {i : Input}

/-- Invocations that share a name build the same base tree. -/
theorem Compatible.buildInputs_eq (h : Compatible set U) {j : Invocation} (hinv : U inv)
    (hj : U j) {path : Text}
    (hpath : rootfsBaseTarball inv set.workDir set.sha set.present = some path)
    (hpath' : rootfsBaseTarball j set.workDir set.sha set.present = some path) :
    buildInputs inv set.present = buildInputs j set.present := by
  have hname := sameName_of_tarball_eq h.length (h.collision inv j hinv hj) hpath hpath'
  obtain ⟨vars, hvars, _⟩ := Option.map_eq_some_iff.mp hpath
  obtain ⟨vars', hvars', _⟩ := Option.map_eq_some_iff.mp hpath'
  exact buildInputs_eq_of_sameSettings hname hvars hvars'
    (h.settings inv j path hinv hj hpath hpath')

/-- Packing a base tree under the name of its invocation. -/
theorem makeTarball_faithful (hinv : U inv) (hi : Orderly i) {path : Text}
    (hpath : rootfsBaseTarball inv set.workDir set.sha set.present = some path) :
    Keeps (fun h => Faithful set U h.tarballs)
      (Knows (baseFiles set (buildInputs inv set.present))) (makeTarball i path) := by
  apply makeTarball_rule
  rintro h f ⟨t, ht, hagrees⟩ hJ hf
  refine ⟨fun path' tarball htarball hreadable => ?_, t, ht, hagrees⟩
  by_cases hp : path' = path
  · subst hp
    obtain rfl : f t = tarball := by simpa [Host.pack, ht] using htarball
    refine ⟨inv, hinv, hpath, ?_⟩
    rcases hf with htorn | rfl
    · intro p hp
      rw [hi.tarball f htorn t hreadable p.1 (mem_baseFiles _ p hp)]
      exact hagrees p hp
    · exact hagrees
  · exact hJ path' tarball (by simpa [Host.pack, Function.update_of_ne hp] using htarball) hreadable

/-- Both ways to the base tree end with the apt files that the invocation asks for. -/
theorem toBase_arranges (hcompatible : Compatible set U) (hinv : U inv) (hi : Orderly i) :
    Spec (fun h => Faithful set U h.tarballs) (fun _ _ => True) true (fun _ _ => True)
      (toBase set inv i) fun _ _ => Knows (baseFiles set (buildInputs inv set.present)) := by
  refine Spec.seq (R := fun _ _ _ => True) ?_ fun _ => ?_
  · refine Spec.andThen (R := fun _ _ _ => True) ?_ ?_ fun _ _ h => h
    · exact Spec.simple fun _ _ _ hJ => ⟨hJ, fun _ _ => trivial, fun _ => trivial⟩
    · exact Spec.exit fun _ _ _ _ => trivial
  refine Spec.seq (mkdir_arranges (fun _ => True) 76) fun _ => ?_
  refine Spec.seq checkRepos_arranges fun _ => ?_
  unfold script
  cases hpath : rootfsBaseTarball inv set.workDir set.sha set.present with
  | none => exact Spec.exit fun _ _ _ _ => trivial
  | some path =>
    intro vars h hA hJ
    simp only [base]
    cases htarball : h.tarballs path with
    | none =>
      exact buildBase_arranges hi.discreet path (makeTarball_faithful hinv hi hpath) vars h hA hJ
    | some tarball =>
      refine useTarball_arranges hi.discreet (fun hreadable => ?_) vars h hA.1 hJ
      obtain ⟨inv', hinv', hpath', hagrees⟩ := hJ path tarball htarball hreadable
      rwa [hcompatible.buildInputs_eq hinv' hinv hpath' hpath] at hagrees

private theorem umount_tarballs {J : (Text → Option Tarball) → Prop} (line : Nat) (p : Point) :
    Keeps (fun h => J h.tarballs) (fun _ => True) (umount i line p) := by
  apply Keeps.act
  intro h _ hJ
  split
  · exact ⟨hJ, trivial⟩
  · exact ⟨hJ, trivial⟩

/-- The trap leaves the tarballs alone. -/
theorem cleanupChroot_keeps {J : (Text → Option Tarball) → Prop} :
    Keeps (fun h => J h.tarballs) (fun _ => True) (cleanupChroot i) := by
  have humount (line : Nat) (p : Point) :
      Keeps (fun h => J h.tarballs) (fun _ => True) (umount i line p) := umount_tarballs line p
  have htree (site : Site) (f : Tree → Tree) :
      Keeps (fun h => J h.tarballs) (fun _ => True) (onTree i site f) :=
    onTree_keeps (fun _ _ _ => trivial) site f
  exact .script ⟨.orElse (.call _) (humount _ _), humount _ _, humount _ _, humount _ _,
    htree _ _, htree _ _⟩

/-- One build, wherever it is cut short, keeps the tarballs faithful. -/
theorem createRootfs_faithful (hcompatible : Compatible set U) (hinv : U inv) (hi : Orderly i)
    {h w : Host} (hfaithful : Faithful set U h.tarballs)
    (hw : w ∈ (createRootfs set inv i h).world :: (createRootfs set inv i h).visited) :
    Faithful set U w.tarballs := by
  have hmeets : (createRootfs set inv i h).Meets (fun h => Faithful set U h.tarballs)
      (fun _ _ => True) fun _ _ _ => True := by
    refine createRootfs_meets (A := fun _ _ => True) ?_ (fun _ => ?_) (fun _ _ _ _ => trivial) h
      hfaithful
    · refine Spec.seq (fun vars h _ => toBase_arranges hcompatible hinv hi vars h trivial)
        fun _ vars h _ => ?_
      exact (finishTree_keeps (A := fun _ => True) fun _ _ _ => trivial).spec true vars h trivial
    · exact fun vars h _ => cleanupChroot_keeps.spec true vars h trivial
  rcases List.mem_cons.mp hw with rfl | hw
  · exact hmeets.world
  · exact hmeets.visited w hw

/-- Whatever builds have left is faithful. -/
theorem Left.faithful (hcompatible : Compatible set U) {tarballs : Text → Option Tarball}
    (h : Left set U tarballs) : Faithful set U tarballs := by
  induction h with
  | none => exact fun _ _ h => absurd h (by simp)
  | remove path _ ih =>
    intro path' tarball htarball
    by_cases hp : path' = path
    · simp [hp] at htarball
    · exact ih path' tarball (by simpa [Function.update_of_ne hp] using htarball)
  | build _ hinv hi hw ih => exact createRootfs_faithful hcompatible hinv hi ih hw

end Many

/-- After any sequence of builds, complete or cut short, a build that comes to the base tree has
there the apt files that its invocation asks for, whether it built
the tree or took it from a tarball. -/
theorem base_apt_files {set : Setting} {U : Invocation → Prop} (hcompatible : Compatible set U)
    {h : Host} (hleft : Left set U h.tarballs) {inv : Invocation} (hinv : U inv) {i : Input}
    (hi : Orderly i) (vars : RepoVars) {ok : Bool}
    (hend : (toBase set inv i true vars h).ending = .status ok) :
    Knows (baseFiles set (buildInputs inv set.present)) (toBase set inv i true vars h).world := by
  have hmeets := toBase_arranges hcompatible hinv hi vars h trivial (hleft.faithful hcompatible)
  have hpost := hmeets.ending
  rw [hend] at hpost
  exact hpost

/-- Builds of the boards 55 and 58 without additional repositories. -/
def Of55or58 (inv : Invocation) : Prop :=
  inv = ⟨.b55, [], plainEnv⟩ ∨ inv = ⟨.b58, [], plainEnv⟩

private theorem length_sampleSha (t : Text) : (sampleSha t).length = 8 := by
  unfold sampleSha
  split_ifs <;> rfl

private theorem compatible_of55or58 : Compatible .local Of55or58 := by
  refine ⟨length_sampleSha, ?_, ?_⟩
  · rintro i j (rfl | rfl) (rfl | rfl) _ <;> rfl
  · rintro i j path (rfl | rfl) (rfl | rfl) _ _ <;>
      exact ⟨rfl, rfl, rfl, fun _ => rfl, ⟨Iff.rfl, .nil .., .nil ..⟩, rfl, rfl, rfl⟩

/-- A host with another output directory and the same tarballs. -/
def Host.next (h : Host) : Host := { Host.empty with tarballs := h.tarballs }

/-- A complete build. -/
private theorem Left.complete {set : Setting} {U : Invocation → Prop} {h : Host}
    {inv : Invocation} {i : Input} (hleft : Left set U h.tarballs) (hinv : U inv)
    (hi : Orderly i) : Left set U (createRootfs set inv i h).world.next.tarballs :=
  .build (w := (createRootfs set inv i h).world) hleft hinv hi (List.mem_cons_self ..)

/-- A tree with the list of `debootstrap`. -/
def bootstrapped (t : Tree) : Tree :=
  Function.update t .sourcesList (some ["deb http://deb.debian.org bookworm main".toList])

/-- Commands that succeed, a `debootstrap` that writes a list, and a tarball that cannot be
unpacked before it is complete. -/
def Input.bootstrapping : Input :=
  { Input.failingAt none with
    effect := fun site t => if site.bootstraps = true then bootstrapped t else t
    tornTarball := some fun t => ⟨t, false⟩ }

private theorem discreet_bootstrapping : AptDiscreet .bootstrapping := by
  refine ⟨fun site hsite t file _ => ⟨?_, rfl⟩, fun site hsite t file hfile => ⟨?_, rfl⟩⟩
  · change (if site.bootstraps = true then bootstrapped t else t) file = t file
    rw [if_neg (by rw [hsite]; decide)]
  · have hne : file ≠ .sourcesList := fun h => absurd (h ▸ hfile) (by decide)
    change (if site.bootstraps = true then bootstrapped t else t) file = t file
    rw [if_pos hsite]
    exact Function.update_of_ne hne ..

/-- The sample is orderly. -/
theorem orderly_bootstrapping : Orderly .bootstrapping := by
  refine ⟨discreet_bootstrapping, fun torn h t hreadable => ?_⟩
  obtain rfl := Option.some.inj h
  cases hreadable

/-- The host on which board 55 was built. -/
def Host.built55 : Host :=
  (createRootfs .local ⟨.b55, [], plainEnv⟩ .bootstrapping .empty).world.next

/-- Board 58 takes its base tree from the tarball of board 55. -/
theorem base_apt_files_58 :
    (rootfsBaseTarball ⟨.b58, [], plainEnv⟩ "output".toList sampleSha
        fun _ => false).any (fun path => (Host.built55.tarballs path).isSome) = true ∧
      Knows (baseFiles .local (buildInputs ⟨.b58, [], plainEnv⟩ fun _ => false))
        (toBase .local ⟨.b58, [], plainEnv⟩ .bootstrapping true plainEnv.repoVars
          .built55).world := by
  refine ⟨by decide +kernel, ?_⟩
  have hleft : Left .local Of55or58 Host.built55.tarballs :=
    .complete (h := .empty) .none (.inl rfl) orderly_bootstrapping
  exact base_apt_files compatible_of55or58 hleft (.inr rfl) orderly_bootstrapping
    plainEnv.repoVars (show _ = Ending.status true by decide +kernel)

end WirenBoard.Rootfs
