import Mathlib.Data.Bool.AllAny
import WirenBoard.Models.Rootfs.Tarballs

/-!
# The trees of the development image

`do_build` of `devenv/build.sh` makes a tree, removes the base tarballs of its release and
platform, and installs the build tools into the tree with `prep.sh`. Its pattern covers every
name that `create_rootfs.sh` can have given the tarball, so the next build starts without
one, and its base tree is its own, whatever else the two builds have in common.
-/

namespace WirenBoard.Rootfs

open Shell

/-! ## The scripts -/

/-- A word that can stand unquoted and inside the name of a file. -/
def NameWord (t : Text) : Prop := Plain t ∧ '/' ∉ t

instance (t : Text) : Decidable (NameWord t) := inferInstanceAs (Decidable (_ ∧ _))

/-- The arguments of `do_build`, which the script leaves unquoted. -/
structure Build where
  /-- `RELEASE`. -/
  release : Text
  /-- `ARCH`. -/
  arch : Text
  /-- `BOARD`. -/
  board : Board
  /-- `PLATFORM`. -/
  platform : Text
  /-- `WB_RELEASE`. -/
  wbRelease : Text
  /-- The arguments from the sixth on. -/
  additionalRepos : List Text
  /-- The release is a word. -/
  release_word : NameWord release
  /-- The architecture is a word. -/
  arch_word : NameWord arch
  /-- The platform is a word. -/
  platform_word : NameWord platform
  /-- The release of the Wiren Board repository is a word. -/
  wbRelease_word : NameWord wbRelease
  /-- The repositories are no patterns. -/
  repos_plain : ∀ repo ∈ additionalRepos, ∀ c ∈ repo, c ∉ patternChars

/-- The machine on which the image is made. -/
structure Machine where
  /-- The trees by their paths. -/
  trees : Text → Option Tree
  /-- What is mounted in them. -/
  mounts : Text → List Point
  /-- The base tarballs by their names. -/
  tarballs : Text → Option Tarball

section DoBuild

variable (set : Setting) (env : Env) (b : Build)

/-- `ROOTFS`. -/
def Build.rootfs : Text := "/rootfs/".toList ++ b.release ++ ['-'] ++ b.arch

/-- The call of `create_rootfs.sh`, in an environment that holds the arguments too. -/
def Build.invocation : Invocation where
  board := b.board
  args := words (joinWords b.additionalRepos)
  env := { env with
    debianRelease := b.release
    wbRelease := orDefault b.wbRelease "stable".toList
    wbCopyQemu := true
    release := b.release }

/-- The machine as `create_rootfs.sh` sees it, in a mount namespace of its own. -/
def Build.host (m : Machine) : Host := ⟨m.trees b.rootfs, [], m.tarballs, false⟩

/-- One tree of the machine. -/
def Machine.at (m : Machine) (rootfs : Text) : Host :=
  ⟨m.trees rootfs, m.mounts rootfs, m.tarballs, false⟩

/-- The machine behind a script that has run on one tree. -/
def Machine.left (m : Machine) (rootfs : Text) (h : Host) : Machine where
  trees := Function.update m.trees rootfs h.tree
  mounts := m.mounts
  tarballs := h.tarballs

/-- What the pattern of `rm` starts with. -/
def Build.stem : Text :=
  "/root/output/rootfs_base_".toList ++ orDefault b.wbRelease "stable".toList ++ ['_'] ++ b.platform

/-- Whether the pattern of `rm` matches, of which only the `*` is not literal. -/
def Build.purges (path : Text) : Bool :=
  match path.dropPrefix? b.stem with
  | none => false
  | some rest =>
    match rest.dropSuffix? ".tar.gz".toList with
    | none => false
    | some middle => '/' ∉ middle

/-- `rm -f` of the base tarballs. -/
def Build.purge (m : Machine) : Machine :=
  { m with tarballs := fun path => if b.purges path then none else m.tarballs path }

/-- `prep.sh`; a command is named by its line in it. -/
def prepBody (j : Input) : Sh RepoVars Host :=
  script [
    prepareChroot j,
    servicesDisable j,
    external j (.main 12),
    external j (.main 14),
    external j (.main 16),
    chrAptInstall j 24,
    external j (.main 26),
    external j (.main 28),
    external j (.main 29),
    external j (.main 30)]

/-- `prep.sh` with its trap, under `set -e`. -/
def prep (j : Input) (h : Host) : Result RepoVars Host :=
  trapped Host.trap (cleanupChroot j) (prepBody j) true ⟨[], [], []⟩ h

/-- `do_build`: `create_rootfs.sh` runs on the input `i`, `prep.sh` on `j`. -/
def doBuild (i j : Input) : Sh Unit Machine :=
  script [
    simple fun v m =>
      let r := createRootfs set (b.invocation env) i (b.host m)
      (v, m.left b.rootfs r.world, r.ending = .exited true),
    act true b.purge,
    simple fun v m =>
      let r := prep j (m.at b.rootfs)
      (v, { m.left b.rootfs r.world with
        mounts := Function.update m.mounts b.rootfs r.world.mounts }, r.ending = .exited true)]

end DoBuild

/-! ## The pattern -/

/-- The scripts lie in `/root`, and a hash is of digits. -/
structure InDevenv (set : Setting) : Prop where
  /-- The place of the tarballs. -/
  workDir : set.workDir = "/root/output".toList
  /-- The hash. -/
  sha : ∀ t, '/' ∉ set.sha t

/-- `PLATFORM` is that of the board. -/
def Build.Named (b : Build) : Prop := b.board.soc.repoPlatform = some b.platform

section Pattern

variable {set : Setting} {env : Env} {b : Build}

private theorem purges_of_eq {path : Text} (middle : Text)
    (hpath : path = b.stem ++ (middle ++ ".tar.gz".toList)) (hslash : '/' ∉ middle) :
    b.purges path = true := by
  have hprefix : path.dropPrefix? b.stem = some (middle ++ ".tar.gz".toList) := by
    rw [hpath]
    exact List.dropPrefix?_append_of_beq _ BEq.rfl
  have hsuffix : (middle ++ ".tar.gz".toList).dropSuffix? ".tar.gz".toList = some middle :=
    List.dropSuffix?_eq_some_iff.mpr ⟨_, rfl, BEq.rfl⟩
  rw [Build.purges, hprefix]
  dsimp only
  rw [hsuffix]
  exact decide_eq_true hslash

private theorem underscoreFirst_append {t : Text} (h : '/' ∉ t) (rest : Text) :
    underscoreFirst (t ++ '/' :: rest) = t ++ '_' :: rest := by
  induction t with
  | nil => simp [underscoreFirst]
  | cons c t ih =>
    have hc : c ≠ '/' := fun hc => h (hc ▸ List.mem_cons_self ..)
    have ht : '/' ∉ t := fun ht => h (List.mem_cons_of_mem c ht)
    simp [underscoreFirst, hc, ih ht]

/-- One word stays as it is. -/
private theorem joinWords_words {t : Text} (hplain : Plain t) : joinWords (words t) = t := by
  by_cases h : t = []
  · subst h
    rfl
  · rw [words_plain h hplain]
    simp [joinWords]

private theorem debianRelease_word : NameWord (debianRelease (b.invocation env)) := by
  unfold debianRelease orDefault
  split
  · decide +kernel
  · exact b.release_word

private theorem wbTargetForFilename_invocation (hb : b.Named) (henv : env.wbTarget = []) :
    wbTargetForFilename (b.invocation env) =
      b.platform ++ '_' :: debianRelease (b.invocation env) := by
  have hplatform : repoPlatform (b.invocation env) = b.platform := by
    have hboard : (b.invocation env).board.soc.repoPlatform = some b.platform := hb
    rw [repoPlatform, hboard, Option.getD_some]
  have htarget : wbTarget (b.invocation env) =
      b.platform ++ '/' :: debianRelease (b.invocation env) := by
    have hunset : (b.invocation env).env.wbTarget = [] := henv
    rw [wbTarget, orDefault, if_pos hunset, hplatform, List.append_assoc, List.singleton_append]
  have hslash : Plain "/".toList := by decide
  have hplain : Plain (b.platform ++ '/' :: debianRelease (b.invocation env)) :=
    b.platform_word.1.append (hslash.append debianRelease_word.1)
  rw [wbTargetForFilename, htarget, joinWords_words hplain]
  exact underscoreFirst_append b.platform_word.2 _

/-- The pattern matches every name that the build can have given the tarball. -/
theorem purges_of_tarball (hset : InDevenv set) (hb : b.Named) (henv : env.wbTarget = [])
    {path : Text} (hpath : rootfsBaseTarball (b.invocation env) set.workDir set.sha set.present =
      some path) : b.purges path = true := by
  obtain ⟨vars, _, rfl⟩ := Option.map_eq_some_iff.mp hpath
  have hrelease : wbRelease (b.invocation env) = orDefault b.wbRelease "stable".toList :=
    orDefault_orDefault _ _
  have hslash : '/' ∉ debianRelease (b.invocation env) := debianRelease_word.2
  apply purges_of_eq ('_' :: debianRelease (b.invocation env) ++ ['_'] ++
    debianRelease (b.invocation env) ++ "_r".toList ++ set.sha (hashText (b.invocation env)))
  · have hstem : "/root/output/rootfs_base_".toList =
        "/root/output".toList ++ "/rootfs_base_".toList := by decide +kernel
    have hassoc (workDir base release platform debian r sha gz : Text) :
        workDir ++ base ++ (release ++ ['_'] ++ (platform ++ '_' :: debian) ++ ['_'] ++ debian ++
          r ++ sha) ++ gz = workDir ++ base ++ release ++ ['_'] ++ platform ++
          ('_' :: debian ++ ['_'] ++ debian ++ r ++ sha ++ gz) := by simp
    rw [rootfsBaseSuffix, wbTargetForFilename_invocation hb henv, hrelease, hset.workDir, hassoc]
    unfold Build.stem
    rw [hstem]
  · simp only [List.mem_append, List.mem_cons, hslash, hset.sha]
    decide +kernel

end Pattern

/-! ## What `prep.sh` leaves -/

section Prep

variable {j : Input} {J : (Text → Option Tarball) → Prop}

private theorem prepBody_noSuccess : NoSuccess (prepBody j) := by
  have hext (site : Site) : NoSuccess (external j site) := onTree_noSuccess site _
  exact .script ⟨prepareChroot_noSuccess, servicesDisable_noSuccess, hext _, hext _, hext _,
    chrAptInstall_noSuccess _, hext _, hext _, hext _, hext _⟩

/-- `prep.sh` prepares the tree. -/
theorem prepBody_leads : Leads J j (Mounting []) (prepBody j) (Chrooted j) := by
  have hafter (site : Site) (f : Tree → Tree) :
      Leads J j (Chrooted j) (onTree j site f) (Chrooted j) :=
    chrooted_leads (onTree_keeps stable_chrooted site f)
  refine Spec.seq prepareChroot_leads fun _ => ?_
  refine Spec.seq (chrooted_leads (servicesDisable_keeps stable_chrooted)) fun _ => ?_
  refine Spec.seq (hafter _ _) fun _ => ?_
  refine Spec.seq (hafter _ _) fun _ => ?_
  refine Spec.seq (hafter _ _) fun _ => ?_
  refine Spec.seq (chrooted_leads (chrAptInstall_keeps stable_chrooted 24)) fun _ => ?_
  refine Spec.seq (hafter _ _) fun _ => ?_
  refine Spec.seq (hafter _ _) fun _ => ?_
  exact Spec.seq (hafter _ _) fun _ => hafter _ _

/-- The trap of a script that succeeds leaves the tree cleaned up, or the script fails. -/
theorem cleanupChroot_success (ok : Bool) :
    Spec (fun h => J h.tarballs) (fun ok h => ok = true → CleanedUp h) true
      (fun _ h => (ok = true → Chrooted j h) ∧ h.trap = true) (cleanupChroot j)
      fun _ _ h => ok = true → CleanedUp h := by
  cases ok with
  | false =>
    have hkeeps := (cleanupChroot_keeps (J := J) (i := j)).exits
      (B := fun _ _ => True) (fun _ _ _ => trivial) true
    refine Spec.post (fun vars h _ => (cleanupChroot_noSuccess j).spec hkeeps _ vars h trivial) ?_
    exact fun _ _ _ _ _ _ h => absurd h (by simp)
  | true =>
    have hundoes := cleanupChroot_undoes (J := J) (i := j) (k := [])
      (X := fun ok h => ok = true → CleanedUp h) (.inr fun _ h => absurd h (by simp))
    refine Spec.post (fun vars h hA => hundoes vars h ?_) fun _ _ _ _ _ hA _ =>
      ⟨hA.mounts, hA.files⟩
    obtain ⟨t, ht⟩ := Option.isSome_iff_exists.mp (hA.1 rfl).tree
    exact ⟨(hA.1 rfl).mounts, t, ht, by simp [Agrees]⟩

/-- A success of `prep.sh` leaves the tree cleaned up, and the tarballs as they were. -/
theorem prep_success {h : Host} (hstart : Mounting [] h) (hJ : J h.tarballs)
    (hend : (prep j h).ending = .exited true) :
    CleanedUp (prep j h).world ∧ J (prep j h).world.tarballs := by
  have hbody : Spec (fun h => J h.tarballs) (fun ok h => ok = true → Chrooted j h) true
      (fun _ => Mounting []) (prepBody j) fun ok _ h => ok = true → Chrooted j h := by
    refine Spec.post (prepBody_noSuccess.spec (prepBody_leads.exits fun _ _ _ => trivial) _) ?_
    exact fun _ _ _ _ _ hA _ => hA
  have hmeets := Spec.trapped (Q := fun _ _ _ => True) hbody cleanupChroot_success
    (fun ok h hA hnone hok => absurd ((hA hok).trap.symm.trans hnone) (by simp))
    ⟨[], [], []⟩ h hstart hJ
  have hpost := hmeets.ending
  rw [show (trapped Host.trap (cleanupChroot j) (prepBody j) true ⟨[], [], []⟩ h).ending =
    .exited true from hend] at hpost
  exact ⟨hpost rfl, hmeets.world⟩

end Prep

/-! ## Builds one after the other -/

/-- The only tarball is that of the invocation. -/
def Own (set : Setting) (inv : Invocation) (tarballs : Text → Option Tarball) : Prop :=
  ∀ path, (tarballs path).isSome = true →
    rootfsBaseTarball inv set.workDir set.sha set.present = some path

section Own

variable {set : Setting} {inv : Invocation} {i : Input}

private theorem makeTarball_own {path : Text}
    (hpath : rootfsBaseTarball inv set.workDir set.sha set.present = some path) :
    Keeps (fun h => Own set inv h.tarballs) (Chrooted i) (makeTarball i path) := by
  apply makeTarball_rule
  intro h f hA hown _
  refine ⟨fun path' hsome => ?_, hA.trap, hA.mounts, hA.tree⟩
  by_cases heq : path' = path
  · exact heq ▸ hpath
  · refine hown path' ?_
    simpa only [Host.pack, Function.update_of_ne heq] using hsome

/-- A build that finds no tarball leaves at most its own. -/
theorem createRootfs_own {h : Host} (hown : Own set inv h.tarballs) :
    Own set inv (createRootfs set inv i h).world.tarballs := by
  have hmeets : (createRootfs set inv i h).Meets (fun h => Own set inv h.tarballs)
      (fun _ _ => True) fun _ _ _ => True := by
    refine createRootfs_meets (A := fun _ => Ended i) (body_leads fun path hpath =>
      makeTarball_own hpath) (fun _ => ?_) (fun _ _ _ _ => trivial) h hown
    exact fun vars h _ => cleanupChroot_keeps.spec true vars h trivial
  exact hmeets.world

/-- A build that reports success leaves its tree cleaned up. -/
theorem createRootfs_cleaned {h : Host} (hend : (createRootfs set inv i h).ending = .exited true) :
    CleanedUp (createRootfs set inv i h).world := by
  have hbody : Spec (fun _ => True) (fun ok h => ok = true → Chrooted i h) true (fun _ => Vacant)
      (seq (toBase set inv i) (finishTree inv i)) fun ok _ h => ok = true → Chrooted i h := by
    have hbase : Leads (fun _ => True) i Vacant (toBase set inv i) (Chrooted i) :=
      toBase_leads fun path _ => makeTarball_keeps path
    refine Spec.seq (toBase_noSuccess.spec (hbase.exits fun _ _ _ => trivial) _) fun _ => ?_
    have hkeeps : Keeps (fun _ => True) (Chrooted i) (finishTree inv i) :=
      finishTree_keeps (J := fun _ => True) stable_chrooted
    exact Spec.post (hkeeps.success true) fun _ _ _ _ _ hA _ => hA
  have hmeets := createRootfs_meets (J := fun _ => True)
    (X := fun ok h => ok = true → CleanedUp h) hbody
    (cleanupChroot_success (J := fun _ => True))
    (fun ok h hA hnone hok => absurd ((hA hok).trap.symm.trans hnone) (by simp)) h trivial
  have hpost := hmeets.ending
  rw [hend] at hpost
  exact hpost rfl

end Own

section Machines

variable {set : Setting} {env : Env} {b : Build} {i j : Input} {m : Machine}

/-- What a `do_build` that reports success has done. -/
structure Made (set : Setting) (env : Env) (b : Build) (i : Input) (m m' : Machine) : Prop where
  /-- The tarballs are those that the pattern does not match. -/
  tarballs : m'.tarballs = fun path => if b.purges path then none else
    (createRootfs set (b.invocation env) i (b.host m)).world.tarballs path
  /-- The mounts of the other trees are as before. -/
  others : ∀ rootfs, rootfs ≠ b.rootfs → m'.mounts rootfs = m.mounts rootfs
  /-- The tree is cleaned up. -/
  cleaned : CleanedUp (m'.at b.rootfs)

/-- The machine between the two scripts. -/
structure Purged (set : Setting) (env : Env) (b : Build) (i : Input) (m m' : Machine) : Prop where
  /-- The tarballs. -/
  tarballs : m'.tarballs = fun path => if b.purges path then none else
    (createRootfs set (b.invocation env) i (b.host m)).world.tarballs path
  /-- The mounts. -/
  mounts : m'.mounts = m.mounts
  /-- The tree. -/
  tree : (m'.trees b.rootfs).isSome = true

/-- `prep.sh` behind `create_rootfs.sh` and `rm`. -/
theorem Purged.made {m' : Machine} (h : Purged set env b i m m') (hmounts : m.mounts b.rootfs = [])
    (hend : (prep j (m'.at b.rootfs)).ending = .exited true) :
    Made set env b i m { m'.left b.rootfs (prep j (m'.at b.rootfs)).world with
      mounts := Function.update m'.mounts b.rootfs (prep j (m'.at b.rootfs)).world.mounts } := by
  have hstart : Mounting [] (m'.at b.rootfs) :=
    ⟨rfl, (congrFun h.mounts b.rootfs).trans hmounts, h.tree⟩
  obtain ⟨hcleaned, htarballs⟩ :=
    prep_success (J := fun tarballs => tarballs = m'.tarballs) hstart rfl hend
  refine ⟨htarballs.trans h.tarballs, fun rootfs hne => ?_, ?_, ?_⟩
  · dsimp only
    rw [Function.update_of_ne hne, h.mounts]
  · dsimp only [Machine.at]
    rw [Function.update_self]
    exact hcleaned.mounts
  · obtain ⟨t, ht, hagrees⟩ := hcleaned.files
    exact ⟨t, (Function.update_self ..).trans ht, hagrees⟩

private theorem made_of_success (hmounts : m.mounts b.rootfs = []) {ok : Bool}
    (hend : (doBuild set env b i j true () m).ending = .status ok) :
    Made set env b i m (doBuild set env b i j true () m).world := by
  have hspec : Spec (fun _ => True) (fun _ _ => True) true (fun _ m' => m' = m)
      (doBuild set env b i j) fun _ _ m' => Made set env b i m m' := by
    refine Spec.seq (R := fun _ _ m' =>
      CleanedUp (createRootfs set (b.invocation env) i (b.host m)).world ∧ m' =
        m.left b.rootfs (createRootfs set (b.invocation env) i (b.host m)).world) ?_ fun _ => ?_
    · apply Spec.simple
      rintro _ _ rfl _
      refine ⟨trivial, fun _ _ => trivial, fun hok => ⟨?_, rfl⟩⟩
      exact createRootfs_cleaned (of_decide_eq_true (hok rfl))
    refine Spec.seq (R := fun _ _ => Purged set env b i m) ?_ fun _ => ?_
    · apply Spec.simple
      rintro _ _ ⟨hcleaned, rfl⟩ _
      refine ⟨trivial, by simp, fun _ => ⟨rfl, rfl, ?_⟩⟩
      obtain ⟨t, ht, _⟩ := hcleaned.files
      simp [Build.purge, Machine.left, ht]
    apply Spec.simple
    rintro _ m' hpurged _
    exact ⟨trivial, fun _ _ => trivial, fun hok =>
      hpurged.made hmounts (of_decide_eq_true (hok rfl))⟩
  have hmeets := hspec () m rfl trivial
  have hpost := hmeets.ending
  rw [hend] at hpost
  exact hpost

/-- The machines that `do_build`s leave one after the other, each with success; what the
repositories serve may change between them. -/
inductive Prepared : Machine → Prop where
  | start {m : Machine} (hmounts : ∀ rootfs, m.mounts rootfs = [])
    (htarballs : m.tarballs = fun _ => none) : Prepared m
  | build {set : Setting} {env : Env} {m : Machine} {b : Build} {i j : Input} {ok : Bool}
    (hprepared : Prepared m) (hset : InDevenv set) (henv : env.wbTarget = []) (hb : b.Named)
    (hend : (doBuild set env b i j true () m).ending = .status ok) :
    Prepared (doBuild set env b i j true () m).world

/-- Behind a success on a machine without tarballs none is left. -/
theorem Made.tarballs_none {m' : Machine} (h : Made set env b i m m') (hset : InDevenv set)
    (henv : env.wbTarget = []) (hb : b.Named) (hnone : m.tarballs = fun _ => none) :
    m'.tarballs = fun _ => none := by
  have hown : Own set (b.invocation env)
      (createRootfs set (b.invocation env) i (b.host m)).world.tarballs := by
    apply createRootfs_own
    intro path hsome
    rw [show (b.host m).tarballs = m.tarballs from rfl, hnone] at hsome
    exact absurd hsome (by simp)
  rw [h.tarballs]
  funext path
  split
  · rfl
  · rename_i hpurges
    refine Option.not_isSome_iff_eq_none.mp fun hsome => hpurges ?_
    exact purges_of_tarball hset hb henv (hown path hsome)

/-- A prepared image has no mounts and no tarballs. -/
theorem Prepared.bare (h : Prepared m) :
    (∀ rootfs, m.mounts rootfs = []) ∧ m.tarballs = fun _ => none := by
  induction h with
  | start hmounts htarballs => exact ⟨hmounts, htarballs⟩
  | @build set env m b i j ok _ hset henv hb hend ih =>
    have hmade := made_of_success (ih.1 b.rootfs) hend
    refine ⟨fun rootfs => ?_, hmade.tarballs_none hset henv hb ih.2⟩
    by_cases heq : rootfs = b.rootfs
    · exact heq ▸ hmade.cleaned.mounts
    · exact (hmade.others rootfs heq).trans (ih.1 rootfs)

end Machines

/-! ## The base tree without a tarball -/

section Fresh

variable {set : Setting} {inv : Invocation} {i : Input}

private theorem makeTarball_knows {k : Known} (path : Text) :
    Keeps (fun _ => True) (Knows k) (makeTarball i path) :=
  makeTarball_rule fun _ _ hknows _ _ => ⟨trivial, hknows⟩

/-- Without a tarball the base tree is built, with the apt files of the invocation. -/
theorem toBase_builds (hdiscreet : AptDiscreet i) :
    Spec (fun _ => True) (fun _ _ => True) true (fun _ h => h.tarballs = fun _ => none)
      (toBase set inv i) fun _ _ => Knows (baseFiles set (buildInputs inv set.present)) := by
  refine Spec.seq (R := fun _ _ h => True ∧ h.tarballs = fun _ => none) ?_ fun _ => ?_
  · refine Spec.andThen (R := fun _ _ h => True ∧ h.tarballs = fun _ => none) ?_ ?_ fun _ _ h => h
    · exact Spec.simple fun _ _ hA _ => ⟨trivial, by simp, fun _ => ⟨trivial, hA⟩⟩
    · exact Spec.exit fun _ _ _ _ => trivial
  refine Spec.seq (Spec.carry (mkdir_arranges (J := fun t => t = fun _ => none)
    (fun _ => True) 76)) fun _ => ?_
  refine Spec.seq (Spec.carry (checkRepos_arranges (J := fun t => t = fun _ => none))) fun _ => ?_
  unfold script
  cases rootfsBaseTarball inv set.workDir set.sha set.present with
  | none => exact Spec.exit fun _ _ _ _ => trivial
  | some path =>
    rintro vars h ⟨hA, hnone⟩ _
    simp only [base, hnone]
    exact buildBase_arranges (J := fun _ => True) hdiscreet path (makeTarball_knows path) vars h hA
      trivial

end Fresh

/-- Whatever trees the image was given before, a further `do_build` finds no base tarball, and
its base tree has the apt files that its own arguments ask for. When it reports success, its
tree is cleaned up and again no tarball is left. -/
theorem devenv_trees_independent {set : Setting} (hset : InDevenv set) {env : Env}
    (henv : env.wbTarget = []) {m : Machine} (hm : Prepared m) {b : Build} (hb : b.Named)
    {i j : Input} (hdiscreet : AptDiscreet i) :
    m.tarballs = (fun _ => none) ∧
      (∀ vars ok, (toBase set (b.invocation env) i true vars (b.host m)).ending = .status ok →
        Knows (baseFiles set (buildInputs (b.invocation env) set.present))
          (toBase set (b.invocation env) i true vars (b.host m)).world) ∧
      ∀ ok, (doBuild set env b i j true () m).ending = .status ok →
        CleanedUp ((doBuild set env b i j true () m).world.at b.rootfs) ∧
          (doBuild set env b i j true () m).world.tarballs = fun _ => none := by
  obtain ⟨hmounts, hnone⟩ := hm.bare
  refine ⟨hnone, fun vars ok hend => ?_, fun ok hend => ?_⟩
  · have hmeets : (toBase set (b.invocation env) i true vars (b.host m)).Meets (fun _ => True)
        (fun _ _ => True)
        fun _ _ => Knows (baseFiles set (buildInputs (b.invocation env) set.present)) :=
      toBase_builds hdiscreet vars (b.host m) hnone trivial
    have hpost := hmeets.ending
    rw [hend] at hpost
    exact hpost
  · have hmade := made_of_success (hmounts b.rootfs) hend
    exact ⟨hmade.cleaned, hmade.tarballs_none hset henv hb hnone⟩

/-- The first tree of the image. -/
def Build.wb6 : Build where
  release := "trixie".toList
  arch := "armhf".toList
  board := .b6x
  platform := "wb6".toList
  wbRelease := "testing".toList
  additionalRepos := []
  release_word := by decide
  arch_word := by decide
  platform_word := by decide
  wbRelease_word := by decide
  repos_plain := by simp

/-- The second one. -/
def Build.wb8 : Build where
  release := "trixie".toList
  arch := "arm64".toList
  board := .b8x
  platform := "wb8".toList
  wbRelease := "testing".toList
  additionalRepos := []
  release_word := by decide
  arch_word := by decide
  platform_word := by decide
  wbRelease_word := by decide
  repos_plain := by simp

/-- The setting of the image. -/
def Setting.devenv : Setting := { Setting.local with workDir := "/root/output".toList }

/-- A machine without trees. -/
def Machine.empty : Machine := ⟨fun _ => none, fun _ => [], fun _ => none⟩

/-- The machine with the first tree. -/
def Machine.wb6 : Machine :=
  (doBuild .devenv plainEnv .wb6 .bootstrapping .bootstrapping true () .empty).world

private theorem slash_sampleSha (t : Text) : '/' ∉ sampleSha t := by
  unfold sampleSha wb5Sha
  split_ifs <;> decide +kernel

/-- The second build behind the first one. -/
theorem devenv_trees_independent_wb8 :
    Machine.wb6.tarballs = (fun _ => none) ∧
      CleanedUp ((doBuild .devenv plainEnv .wb8 .bootstrapping .bootstrapping true ()
        .wb6).world.at Build.wb8.rootfs) := by
  have hset : InDevenv .devenv := ⟨rfl, slash_sampleSha⟩
  have hend : (doBuild .devenv plainEnv .wb6 .bootstrapping .bootstrapping true ()
      .empty).ending = .status true := by decide +kernel
  have henv : plainEnv.wbTarget = [] := rfl
  have hstart : Prepared .empty := .start (fun _ => rfl) rfl
  have hprepared : Prepared .wb6 :=
    .build hstart hset henv (show Build.wb6.Named from rfl) hend
  have h := devenv_trees_independent (j := .bootstrapping) hset henv hprepared
    (show Build.wb8.Named from rfl) orderly_bootstrapping.discreet
  exact ⟨h.1, (h.2.2 true (by decide +kernel)).1⟩

end WirenBoard.Rootfs
