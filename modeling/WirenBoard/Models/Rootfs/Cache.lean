import WirenBoard.Models.Rootfs.Base

/-!
# What the name of the base tarball covers

Two invocations that compute one name have one architecture, because the hash
covers it, and agree on three texts that are written one after the other without
marking their ends. Whether they build the same base tree is then decided by the
places where these texts end and by settings that the name leaves out: the mirror,
the copying of qemu, the repositories of an overriding board, and the defaults and
inherited values that additional repositories fall back on.
-/

namespace WirenBoard.Rootfs

open Shell (Text)

section Names

variable {workDir : Text} {sha : Text → Text} {present : Text → Bool} {i j : Invocation}

/-- Every architecture is written with five letters. -/
theorem length_arch (inv : Invocation) : (arch inv).length = 5 := by
  unfold arch
  cases inv.board.soc <;> rfl

/-- What two invocations with one name have in common. -/
structure SameName (i j : Invocation) : Prop where
  /-- The hashed texts. -/
  hash : hashText i = hashText j
  /-- The texts in front of the hash. -/
  label : wbRelease i ++ ['_'] ++ wbTargetForFilename i ++ ['_'] ++ debianRelease i =
    wbRelease j ++ ['_'] ++ wbTargetForFilename j ++ ['_'] ++ debianRelease j

/-- The hash has a fixed length, so that one name has one hash and one label. -/
theorem sameName_of_tarball_eq (hlen : ∀ t, (sha t).length = 8)
    (hcollision : sha (hashText i) = sha (hashText j) → hashText i = hashText j) {path : Text}
    (hi : rootfsBaseTarball i workDir sha present = some path)
    (hj : rootfsBaseTarball j workDir sha present = some path) : SameName i j := by
  obtain ⟨_, _, hpi⟩ := Option.map_eq_some_iff.mp hi
  obtain ⟨_, _, hpj⟩ := Option.map_eq_some_iff.mp hj
  have hsuffix : rootfsBaseSuffix i sha = rootfsBaseSuffix j sha :=
    List.append_cancel_left (List.append_cancel_right (hpi.trans hpj.symm))
  have hlength : (sha (hashText i)).length = (sha (hashText j)).length := by rw [hlen, hlen]
  exact ⟨hcollision (List.append_inj_right' hsuffix hlength),
    List.append_cancel_right (List.append_inj_left' hsuffix hlength)⟩

/-- The hash covers the architecture. -/
theorem SameName.arch_eq (h : SameName i j) : arch i = arch j := by
  have hhash := h.hash
  simp only [hashText, List.append_assoc] at hhash
  exact List.append_inj_left hhash (by rw [length_arch, length_arch])

/-- The hash covers the URL of the repository up to where it ends. -/
theorem SameName.fullRepoUrl_eq (h : SameName i j)
    (hlength : (fullRepoUrl i).length = (fullRepoUrl j).length) :
    fullRepoUrl i = fullRepoUrl j := by
  have hhash := h.hash
  simp only [hashText, h.arch_eq, List.append_assoc, List.append_cancel_left_eq] at hhash
  exact List.append_inj_left hhash hlength

/-- The hash then covers the additional repositories. -/
theorem SameName.addRepos_eq (h : SameName i j)
    (hlength : (fullRepoUrl i).length = (fullRepoUrl j).length) : addRepos i = addRepos j := by
  have hhash := h.hash
  rw [hashText, hashText, h.arch_eq, h.fullRepoUrl_eq hlength] at hhash
  exact List.append_cancel_left hhash

/-- The label covers the release of the repository up to where it ends. -/
theorem SameName.wbRelease_eq (h : SameName i j)
    (hlength : (wbRelease i).length = (wbRelease j).length) : wbRelease i = wbRelease j := by
  have hlabel := h.label
  simp only [List.append_assoc] at hlabel
  exact List.append_inj_left hlabel hlength

/-- The label covers the Debian release from where it starts. -/
theorem SameName.debianRelease_eq (h : SameName i j)
    (hlength : (debianRelease i).length = (debianRelease j).length) :
    debianRelease i = debianRelease j :=
  List.append_inj_right' h.label hlength

end Names

/-! ## The additional repositories -/

section Additional

variable {present : Text → Bool} {i j : Invocation} {vars vars' : RepoVars}

/-- Additional repositories named by arguments are those that the check has seen. -/
theorem words_addRepos {inv : Invocation} (h : argWords inv ≠ []) :
    words (addRepos inv) = argWords inv := by
  have hargs : inv.args ≠ [] := by
    intro hargs
    exact h (by rw [argWords, hargs]; rfl)
  rw [addRepos, if_neg hargs, words_joinWords, argWords]

/-- The check that such repositories have passed. -/
theorem checkedVars_eq {inv : Invocation} (h : argWords inv ≠ []) :
    checkedVars inv present =
      checkAdditionalRepos (repoDefaults inv) present inv.env.repoVars (argWords inv) := by
  have hne : addRepos inv ≠ [] := by
    intro hnil
    exact h (by rw [← words_addRepos h, hnil]; rfl)
  rw [checkedVars, if_neg hne, words_addRepos h]

/-- What the base tree depends on for the additional repositories of its invocation. -/
structure SameRepos (i j : Invocation) : Prop where
  /-- Both name some by arguments, or neither does. -/
  named : argWords i = [] ↔ argWords j = []
  /-- The releases fall back on the same values. -/
  release : SameFallback 0 (argWords i) i.env.repoVars.release (repoDefaults i).release
    j.env.repoVars.release (repoDefaults j).release
  /-- The components fall back on the same values. -/
  component : SameFallback 1 (argWords i) i.env.repoVars.component (repoDefaults i).component
    j.env.repoVars.component (repoDefaults j).component

/-- Named repositories are set up alike exactly when they fall back on the same values. -/
theorem setup_eq_iff (hws : argWords i = argWords j) (hne : argWords i ≠ [])
    (hi : checkedVars i present = some vars) (hj : checkedVars j present = some vars') :
    setupAdditionalRepos (repoDefaults i) vars (argWords i) =
        setupAdditionalRepos (repoDefaults j) vars' (argWords j) ↔
      SameFallback 0 (argWords i) i.env.repoVars.release (repoDefaults i).release
          j.env.repoVars.release (repoDefaults j).release ∧
        SameFallback 1 (argWords i) i.env.repoVars.component (repoDefaults i).component
          j.env.repoVars.component (repoDefaults j).component := by
  rw [checkedVars_eq hne] at hi
  rw [checkedVars_eq (hws ▸ hne), ← hws] at hj
  obtain ⟨hrelease, hcomponent, hurls⟩ := checkAdditionalRepos_eq_some hi
  obtain ⟨hrelease', hcomponent', _⟩ := checkAdditionalRepos_eq_some hj
  rw [← hws, setupAdditionalRepos_eq_iff hurls, hrelease, hrelease', hcomponent, hcomponent',
    fallbacks_foldl_eq_iff, fallbacks_foldl_eq_iff]

/-- Checked invocations with one list of additional repositories set up the same ones
exactly when these fall back on the same values. -/
theorem additionalRepos_eq_iff (hrepos : addRepos i = addRepos j)
    (hi : checkedVars i present = some vars) (hj : checkedVars j present = some vars') :
    additionalRepos i present = additionalRepos j present ↔ SameRepos i j := by
  simp only [additionalRepos, hi, hj, Option.bind_some]
  by_cases hnone : argWords i = []
  · rw [hnone, show setupAdditionalRepos (repoDefaults i) vars [] = some [] from rfl, eq_comm,
      setupAdditionalRepos_eq_nil_iff]
    constructor
    · intro hj'
      exact ⟨by rw [hnone, hj'], hnone ▸ .nil .., hnone ▸ .nil ..⟩
    · exact fun h => h.named.mp hnone
  · have hws : argWords j ≠ [] → argWords i = argWords j := by
      intro hj'
      rw [← words_addRepos hnone, ← words_addRepos hj', hrepos]
    constructor
    · intro h
      have hj' : argWords j ≠ [] := by
        rw [ne_eq, ← setupAdditionalRepos_eq_nil_iff, ← h, setupAdditionalRepos_eq_nil_iff]
        exact hnone
      obtain ⟨hrelease, hcomponent⟩ := (setup_eq_iff (hws hj') hnone hi hj).mp h
      exact ⟨by simp [hnone, hj'], hrelease, hcomponent⟩
    · intro h
      have hj' : argWords j ≠ [] := fun hj' => hnone (h.named.mpr hj')
      exact (setup_eq_iff (hws hj') hnone hi hj).mpr ⟨h.release, h.component⟩

end Additional

section Cache

variable {present : Text → Bool} {i j : Invocation} {vars vars' : RepoVars}

/-- The settings that the name leaves out, and the ends of the texts in it. -/
structure SameSettings (i j : Invocation) : Prop where
  /-- The Debian mirror. -/
  mirror : debianMirror i = debianMirror j
  /-- Whether qemu is copied. -/
  copyQemu : i.env.wbCopyQemu = j.env.wbCopyQemu
  /-- Whether the board overrides the repositories. -/
  overrides : i.board.overridesRepos = j.board.overridesRepos
  /-- The release an overriding board takes from the environment. -/
  release : i.board.overridesRepos = true → i.env.release = j.env.release
  /-- The fallbacks of the additional repositories. -/
  additional : SameRepos i j
  /-- The Debian releases are equally long. -/
  debianLength : (debianRelease i).length = (debianRelease j).length
  /-- The releases of the repository are equally long. -/
  wbLength : (wbRelease i).length = (wbRelease j).length
  /-- The URLs of the repository are equally long. -/
  urlLength : (fullRepoUrl i).length = (fullRepoUrl j).length

/-- With one name and the same settings the base tree is built from the same inputs. -/
theorem buildInputs_eq_of_sameSettings (hname : SameName i j)
    (hi : checkedVars i present = some vars) (hj : checkedVars j present = some vars')
    (h : SameSettings i j) : buildInputs i present = buildInputs j present := by
  have hdebian := hname.debianRelease_eq h.debianLength
  have hrepo : repo i = repo j := by rw [repo, repo, h.mirror]
  have hsecurity : repoSecurity i = repoSecurity j := by rw [repoSecurity, repoSecurity, h.mirror]
  have hkeys : aptKeys i = aptKeys j := by rw [aptKeys, aptKeys, h.overrides]
  have hoverride : overrideList i = overrideList j := by
    rw [overrideList, overrideList, ← h.overrides]
    split
    · rename_i hs
      rw [h.release hs]
    · rfl
  have hadditional :=
    (additionalRepos_eq_iff (hname.addRepos_eq h.urlLength) hi hj).mpr h.additional
  simp only [buildInputs, sourcesList, wbInstallPins, hname.arch_eq, hdebian, hrepo, hsecurity,
    h.copyQemu, hname.fullRepoUrl_eq h.urlLength, hname.wbRelease_eq h.wbLength, hkeys, hoverride,
    hadditional]

private theorem sameSettings_of_buildInputs_eq (hname : SameName i j)
    (hi : checkedVars i present = some vars) (hj : checkedVars j present = some vars')
    (h : buildInputs i present = buildInputs j present) : SameSettings i j := by
  have hwb : wbRelease i = wbRelease j := by
    have hpins := congrArg BuildInputs.wbInstallPins h
    simp only [buildInputs, wbInstallPins, List.cons_append, List.cons.injEq, true_and] at hpins
    exact List.append_cancel_left hpins.1
  have hurl : fullRepoUrl i = fullRepoUrl j := by
    have hline := congrArg BuildInputs.wbInstallList h
    simp only [buildInputs, hwb] at hline
    exact List.append_cancel_left (List.append_cancel_right
      (List.append_cancel_right (List.append_cancel_right hline)))
  have hdebian : debianRelease i = debianRelease j := congrArg BuildInputs.debianRelease h
  have hoverrides : i.board.overridesRepos = j.board.overridesRepos := by
    have hsome := congrArg (fun b => b.overrideList.isSome) h
    simp only [buildInputs, overrideList] at hsome
    cases hi : i.board.overridesRepos <;> cases hj : j.board.overridesRepos <;>
      simp [hi, hj] at hsome ⊢
  have hadditional : SameRepos i j :=
    (additionalRepos_eq_iff (hname.addRepos_eq (by rw [hurl])) hi hj).mp
      (congrArg BuildInputs.additional h)
  refine ⟨List.append_cancel_right (congrArg BuildInputs.repo h), congrArg BuildInputs.copyQemu h,
    hoverrides, ?_, hadditional, by rw [hdebian], by rw [hwb], by rw [hurl]⟩
  intro hs
  have hlist := congrArg BuildInputs.overrideList h
  simp only [buildInputs, overrideList, hs, ← hoverrides, ite_true, Option.some.injEq] at hlist
  exact List.append_cancel_left (List.append_cancel_right hlist)

/-- Two invocations with one base tarball build the same base tree exactly when they
have the same mirror, the same copying of qemu, the same overriding of repositories and
the same fallbacks of additional repositories, and the texts written one after the
other in the name end at the same places. -/
theorem base_tarball_shared_iff (workDir : Text) (sha : Text → Text) (present : Text → Bool)
    (hlen : ∀ t, (sha t).length = 8)
    (hcollision : sha (hashText i) = sha (hashText j) → hashText i = hashText j) {path : Text}
    (hi : rootfsBaseTarball i workDir sha present = some path)
    (hj : rootfsBaseTarball j workDir sha present = some path) :
    buildInputs i present = buildInputs j present ↔ SameSettings i j := by
  have hname := sameName_of_tarball_eq hlen hcollision hi hj
  obtain ⟨vars, hvars, _⟩ := Option.map_eq_some_iff.mp hi
  obtain ⟨vars', hvars', _⟩ := Option.map_eq_some_iff.mp hj
  constructor
  · exact sameSettings_of_buildInputs_eq hname hvars hvars'
  · exact buildInputs_eq_of_sameSettings hname hvars hvars'

end Cache

/-! ## Concrete invocations -/

/-- The environment of a plain call. -/
def plainEnv : Env :=
  { debianRelease := [], debianMirror := [], wbRepo := [], wbRepoPrefix := [], wbRelease := []
    wbTarget := [], wbCopyQemu := false, addRepoRelease := [], addRepoComponent := []
    addRepos := [], repoPlatform := [], release := [], repoVars := ⟨[], [], []⟩ }

/-- The digits that begin the hash of `armel http://deb.wirenboard.com/wb5/bullseye `. -/
def wb5Sha (_ : Text) : Text := "d2c08ff5".toList

/-- A repository with a release and a component, and one that leaves the component open. -/
def addedRepos : List Text := ["http://a@testing:main".toList, "http://b@unstable:".toList]

/-- An environment that names other defaults for additional repositories: the release is one
that `addedRepos` never falls back on, the component is the usual one. -/
def defaultsEnv : Env :=
  { plainEnv with addRepoRelease := "stable".toList, addRepoComponent := "main".toList }

/-- The digits that begin the hash with `addedRepos` behind the text of `wb5Sha`. -/
def wb5ReposSha (_ : Text) : Text := "139af138".toList

/-- The boards 55 and 58 share a tarball and a base tree, also with additional repositories and
other defaults for these. -/
theorem base_tarball_shared_iff_55_58 :
    buildInputs ⟨.b55, addedRepos, plainEnv⟩ (fun _ => true) =
      buildInputs ⟨.b58, addedRepos, defaultsEnv⟩ fun _ => true := by
  have hrelease : SameFallback 0 (argWords ⟨.b55, addedRepos, plainEnv⟩) [] "bullseye".toList
      [] "stable".toList := ⟨by decide, by decide⟩
  have hcomponent : SameFallback 1 (argWords ⟨.b55, addedRepos, plainEnv⟩) [] "main".toList
      [] "main".toList := ⟨fun _ => rfl, fun _ _ => rfl⟩
  refine (base_tarball_shared_iff (i := ⟨.b55, addedRepos, plainEnv⟩)
    (j := ⟨.b58, addedRepos, defaultsEnv⟩) "output".toList wb5ReposSha (fun _ => true)
    (fun _ => rfl) (fun _ => rfl) rfl rfl).mpr ?_
  exact ⟨rfl, rfl, rfl, fun _ => rfl, ⟨Iff.rfl, hrelease, hcomponent⟩, rfl, rfl, rfl⟩

/-- The boards 55 and 55-S share a tarball, and only the base tree of 55-S has the
repository and the key of its override. -/
theorem base_tarball_shared_by_override :
    rootfsBaseTarball ⟨.b55, [], plainEnv⟩ "output".toList wb5Sha (fun _ => true) =
        rootfsBaseTarball ⟨.b55S, [], plainEnv⟩ "output".toList wb5Sha (fun _ => true) ∧
      (rootfsBaseTarball ⟨.b55, [], plainEnv⟩ "output".toList wb5Sha fun _ => true).isSome ∧
      buildInputs ⟨.b55, [], plainEnv⟩ (fun _ => true) ≠
        buildInputs ⟨.b55S, [], plainEnv⟩ fun _ => true := by
  refine ⟨rfl, rfl, ?_⟩
  intro h
  exact absurd (congrArg BuildInputs.overrideList h) (by decide)

end WirenBoard.Rootfs
