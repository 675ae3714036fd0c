import WirenBoard.Models.Update.Create

/-!
# The two forms of the root filesystem

For a tree with the two mandatory files the image is decided by the release file,
the two optional files that are unpacked, and the kernel and boot DTB in use. The
forms differ in the latter: a tarball without an optional member stops the script,
and the bootlet's files of a tarball are never unpacked, so that the defaults stand
in for them. Where a run makes no image on its own, because a file is missing or a
program refuses what it is given, that difference does not show.
-/

namespace WirenBoard.Update

open Shell (Text substitute)

section Forms

variable {Blob : Type} (tools : Tools Blob) (arch : Arch) (defaults : Defaults Blob)

/-- What both forms take from the tree. -/
structure Given (Blob : Type) where
  /-- `VERSION`. -/
  version : Text
  /-- `FIRMWARE_COMPATIBLE`. -/
  firmwareCompatible : Text
  /-- What `wb-release` sets. -/
  release : Release
  /-- The install script. -/
  install : Blob

/-- The values that are pasted for a `compatible`. -/
def Given.values (g : Given Blob) (compatible : Text) : Values :=
  ⟨compatible, g.version, g.firmwareCompatible, g.release⟩

/-- What a tree gives, with the contents of `wb-fw-version` and of the release file. -/
def given (tree : Tree Blob) (version : Blob) (release : Release) : Given Blob where
  version := substitute (tools.cat version)
  firmwareCompatible := getFirmwareCompatible tools tree
  release := release
  install := (tree installPath).getD defaults.installScript

/-- `compatible` for a boot DTB. -/
def compatibleOf (dtb : Blob) : Text := dtbGetCompatible tools (defaults.targetDtb.getD dtb)

/-- A kernel and a boot DTB make an image: both exist, the DTB in charge has a `compatible`,
and `j2` and `mkimage` take what they are given. -/
structure Makes (g : Given Blob) (kernel dtb : Option Blob) (its : Its Blob) : Prop where
  /-- The kernel. -/
  kernel : kernel = some its.kernel
  /-- The boot DTB. -/
  dtb : dtb = some its.dtb
  /-- The install script. -/
  install : its.install = g.install
  /-- The `compatible`. -/
  compatible : compatibleOf tools defaults its.dtb ≠ []
  /-- `vars.json`. -/
  values : tools.j2 (g.values (compatibleOf tools defaults its.dtb)) = some its.toValues
  /-- The image tree source. -/
  readable : tools.mkimage its = true

/-- A kernel and a boot DTB that make an image. -/
def Complete (g : Given Blob) (kernel dtb : Option Blob) : Prop :=
  ∃ its, Makes tools defaults g kernel dtb its

variable {tools} {arch} {defaults}

/-! ## The stages of the script -/

private theorem bind_eq_ok_iff {α β : Type} {x : Except Failure α} {f : α → Except Failure β}
    {b : β} : x >>= f = .ok b ↔ ∃ a, x = .ok a ∧ f a = .ok b := by
  cases x with
  | error e => simp [bind, Except.bind]
  | ok a => simp [bind, Except.bind]

private theorem toOption_eq_iff {α : Type} {x y : Except Failure α} :
    x.toOption = y.toOption ↔ ∀ a, x = .ok a ↔ y = .ok a := by
  have hok (z : Except Failure α) (a : α) : z = .ok a ↔ z.toOption = some a := by
    cases z <;> simp [Except.toOption]
  simp only [hok]
  exact ⟨fun h a => h ▸ Iff.rfl, fun h => Option.ext h⟩

private theorem getVersion_eq_ok_iff {rootfs : Tree Blob} {version : Text} :
    getVersion tools rootfs = .ok version ↔
      ∃ file, rootfs versionPath = some file ∧ substitute (tools.cat file) = version := by
  unfold getVersion
  cases rootfs versionPath <;> simp

private theorem getRelease_eq_ok_iff {rootfs : Tree Blob} {release : Release} :
    getRelease tools rootfs = .ok release ↔
      (rootfs releasePath).bind tools.source = some release := by
  unfold getRelease
  cases (rootfs releasePath).bind tools.source <;> simp

private theorem getCompatible_eq_ok_iff {dtb : Option Blob} {compatible : Text} :
    getCompatible tools defaults dtb = .ok compatible ↔
      ∃ file, defaults.targetDtb.or dtb = some file ∧
        dtbGetCompatible tools file = compatible ∧ compatible ≠ [] := by
  unfold getCompatible
  cases defaults.targetDtb.or dtb with
  | none => simp
  | some file =>
    by_cases hne : dtbGetCompatible tools file ≠ []
    · dsimp only
      rw [if_pos hne]
      simp only [Except.ok.injEq, Option.some.injEq, exists_eq_left']
      exact ⟨fun h => ⟨h, h ▸ hne⟩, And.left⟩
    · dsimp only
      rw [if_neg hne]
      simp only [reduceCtorEq, Option.some.injEq, exists_eq_left', false_iff]
      rintro ⟨rfl, h⟩
      exact hne h

private theorem render_eq_ok_iff {values values' : Values} :
    render tools values = .ok values' ↔ tools.j2 values = some values' := by
  unfold render
  cases tools.j2 values <;> simp

private theorem incbin_eq_ok_iff {file : Option Blob} {content : Blob} :
    incbin file = .ok content ↔ file = some content := by
  cases file <;> simp [incbin]

private theorem makeImage_eq_ok_iff {its its' : Its Blob} :
    makeImage tools its = .ok its' ↔ its = its' ∧ tools.mkimage its = true := by
  unfold makeImage
  split
  · rename_i h
    simp [h]
  · rename_i h
    simp [h]

/-- A prepared tree becomes an image exactly when it has the mandatory files, the release file
can be sourced, and the kernel and boot DTB in use make that image. -/
theorem buildIts_eq_ok_iff {rootfs : Tree Blob} {its : Its Blob} :
    buildIts tools arch defaults rootfs = .ok its ↔
      ∃ version release, rootfs versionPath = some version ∧
        (rootfs releasePath).bind tools.source = some release ∧
        Makes tools defaults (given tools defaults rootfs version release)
          (zimage arch defaults rootfs) (bootDtb defaults rootfs) its := by
  simp only [buildIts, bind_eq_ok_iff, getVersion_eq_ok_iff, getRelease_eq_ok_iff,
    getCompatible_eq_ok_iff, render_eq_ok_iff, incbin_eq_ok_iff, makeImage_eq_ok_iff]
  constructor
  · rintro ⟨_, ⟨version, hversion, rfl⟩, release, hrelease, _, ⟨file, htarget, rfl, hne⟩, values,
      hvalues, kernel, hkernel, dtb, hdtb, rfl, hreadable⟩
    rw [hdtb] at htarget
    obtain rfl : defaults.targetDtb.getD dtb = file := by
      cases htarget' : defaults.targetDtb <;> simpa [htarget'] using htarget
    exact ⟨version, release, hversion, hrelease, hkernel, hdtb, rfl, hne, hvalues, hreadable⟩
  · rintro ⟨version, release, hversion, hrelease, hmakes⟩
    have htarget : defaults.targetDtb.or (bootDtb defaults rootfs) =
        some (defaults.targetDtb.getD its.dtb) := by
      rw [hmakes.dtb]
      cases defaults.targetDtb <;> rfl
    have hits : Its.mk its.toValues its.kernel its.dtb
        ((rootfs installPath).getD defaults.installScript) = its := by
      rw [show (rootfs installPath).getD defaults.installScript = its.install from
        hmakes.install.symm]
    exact ⟨_, ⟨version, hversion, rfl⟩, release, hrelease, _, ⟨_, htarget, rfl, hmakes.compatible⟩,
      _, hmakes.values, _, hmakes.kernel, _, hmakes.dtb, hits, hits ▸ hmakes.readable⟩

/-- What a directory becomes. -/
theorem createUpdate_directory_eq_ok_iff {tree : Tree Blob} {its : Its Blob} :
    createUpdate tools arch defaults .directory tree = .ok its ↔
      ∃ version release, tree versionPath = some version ∧
        (tree releasePath).bind tools.source = some release ∧
        Makes tools defaults (given tools defaults tree version release)
          (zimage arch defaults tree) (bootDtb defaults tree) its :=
  buildIts_eq_ok_iff

/-! ## Images from pairs of boot files -/

section Pairs

variable {g : Given Blob} {k b k' b' : Option Blob}

/-- Two pairs of boot files make the same image exactly when they agree or neither makes
one. -/
theorem makes_iff_makes_iff :
    (∀ its, Makes tools defaults g k b its ↔ Makes tools defaults g k' b' its) ↔
      (Complete tools defaults g k b ∨ Complete tools defaults g k' b' → k = k' ∧ b = b') := by
  constructor
  · rintro h (⟨its, hits⟩ | ⟨its, hits⟩)
    · have hits' := (h its).mp hits
      exact ⟨hits.kernel.trans hits'.kernel.symm, hits.dtb.trans hits'.dtb.symm⟩
    · have hits' := (h its).mpr hits
      exact ⟨hits'.kernel.trans hits.kernel.symm, hits'.dtb.trans hits.dtb.symm⟩
  · intro h its
    constructor
    · intro hits
      obtain ⟨rfl, rfl⟩ := h (.inl ⟨its, hits⟩)
      exact hits
    · intro hits
      obtain ⟨rfl, rfl⟩ := h (.inr ⟨its, hits⟩)
      exact hits

end Pairs

/-! ## Tarballs -/

/-- The tree that a tarball is unpacked to. -/
def unpacked (tree : Tree Blob) : Tree Blob :=
  fun path => if path ∈ members then tree path else none

private theorem unpacked_of_mem (tree : Tree Blob) {path : String} (h : path ∈ members) :
    unpacked tree path = tree path := if_pos h

private theorem unpacked_of_not_mem (tree : Tree Blob) {path : String} (h : path ∉ members) :
    unpacked tree path = none := if_neg h

/-- The kernel of a tarball is never unpacked. -/
theorem zimage_unpacked (tree : Tree Blob) : zimage arch defaults (unpacked tree) =
    defaults.zimage := by
  have h : kernelPath arch ∉ members := by cases arch <;> decide
  rw [zimage, unpacked_of_not_mem tree h, Option.none_or]

/-- The boot DTB of a tarball is never unpacked. -/
theorem bootDtb_unpacked (tree : Tree Blob) : bootDtb defaults (unpacked tree) =
    defaults.bootDtb := by
  rw [bootDtb, unpacked_of_not_mem tree (by decide), Option.none_or]

/-- The members of a tarball are the tree's own. -/
theorem given_unpacked (tree : Tree Blob) (v : Blob) (release : Release) :
    given tools defaults (unpacked tree) v release = given tools defaults tree v release := by
  have hcompatible : unpacked tree firmwareCompatiblePath = tree firmwareCompatiblePath :=
    unpacked_of_mem tree (by simp [members])
  have hinstall : unpacked tree installPath = tree installPath :=
    unpacked_of_mem tree (by simp [members])
  rw [given, given, getFirmwareCompatible, getFirmwareCompatible, hcompatible, hinstall]

/-- A tarball with both mandatory files becomes an image exactly when it has both optional
members, and the defaults make that image with them. -/
theorem createUpdate_tarball_eq_ok_iff {tree : Tree Blob} {v r : Blob}
    (hv : tree versionPath = some v) (hr : tree releasePath = some r) {its : Its Blob} :
    createUpdate tools arch defaults .tarball tree = .ok its ↔
      ((tree firmwareCompatiblePath).isSome ∧ (tree installPath).isSome) ∧
        ∃ release, tools.source r = some release ∧
          Makes tools defaults (given tools defaults tree v release) defaults.zimage
            defaults.bootDtb its := by
  have hall : (members.all fun path => (tree path).isSome) = true ↔
      (tree firmwareCompatiblePath).isSome ∧ (tree installPath).isSome := by
    simp [members, hv, hr]
  have hv' : unpacked tree versionPath = some v :=
    (unpacked_of_mem tree (by simp [members])).trans hv
  have hr' : unpacked tree releasePath = some r :=
    (unpacked_of_mem tree (by simp [members])).trans hr
  have hbuild : buildIts tools arch defaults (unpacked tree) = .ok its ↔ _ := buildIts_eq_ok_iff
  simp only [given_unpacked, zimage_unpacked, bootDtb_unpacked, hv', hr', Option.some.injEq,
    Option.bind_some, exists_and_left, exists_eq_left'] at hbuild
  rw [createUpdate, prepareRootfs]
  by_cases h : (tree firmwareCompatiblePath).isSome ∧ (tree installPath).isSome
  · rw [if_pos (hall.mpr h)]
    exact hbuild.trans ⟨fun hmakes => ⟨h, hmakes⟩, And.right⟩
  · rw [if_neg (fun hmem => h (hall.mp hmem))]
    exact ⟨fun hfail => (nomatch hfail), fun hmem => absurd hmem.1 h⟩

end Forms

/-! ## Concrete files -/

/-- A text file or a device tree blob with its first `compatible` string. -/
inductive File where
  /-- A text. -/
  | text (lines : List Text)
  /-- A device tree blob. -/
  | dtb (compatible : Text)
  deriving DecidableEq

/-- The value that the last line `key=value` assigns. -/
def assigned (key : Text) (lines : List Text) : Text :=
  ((lines.filter fun line => (key ++ ['=']).isPrefixOf line).getLast?.map fun line =>
    line.drop (key.length + 1)).getD []

/-- The programs on texts and device tree blobs. -/
def fileTools : Tools File where
  cat
    | .text lines => lines
    | .dtb _ => []
  source
    | .text lines => some
      ⟨assigned "RELEASE_NAME".toList lines, assigned "SUITE".toList lines,
        assigned "TARGET".toList lines, assigned "REPO_PREFIX".toList lines⟩
    | .dtb _ => none
  fdtget
    | .text _ => []
    | .dtb compatible => [compatible]
  j2 values := if values.Plain then some values else none
  j2_plain _ hplain := if_pos hplain
  mkimage _ := true

/-- A default kernel and boot DTB, no target DTB. -/
def sampleDefaults : Defaults File :=
  ⟨some (.text [['k']]), some (.dtb ['w', 'b', '7']), none, .text [['i']]⟩

/-- A tree with the two mandatory files, where they are not among the given ones. -/
def sampleTree (files : List (String × File)) : Tree File := fun path =>
  (files ++ [(versionPath, File.text [['1']]),
    (releasePath, File.text ["SUITE=stable".toList])]).lookup path

end WirenBoard.Update
