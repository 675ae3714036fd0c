import WirenBoard.Core.Subst

/-!
# Creating an update image

`create_update.sh` takes the root filesystem as a directory or as a tarball. The
directory is read in place; from a tarball four named members are unpacked, and a
member that is missing stops the script. The rest of the script looks for optional
files in whatever tree that branch prepared. Contents of files are opaque: reading
lines, sourcing a release file and `fdtget` are functions of them. The values are pasted
as they are into `vars.json`, which `j2` may refuse, and the source that it makes is read
by `mkimage`, which may refuse it too. Paths are left out: they resolve, and hold no
character that means more than itself in these two files.
-/

namespace WirenBoard.Update

open Shell (Text substitute)

/-- What `wb-release` sets. -/
structure Release where
  /-- `RELEASE_NAME`. -/
  name : Text
  /-- `SUITE`. -/
  suite : Text
  /-- `TARGET`. -/
  target : Text
  /-- `REPO_PREFIX`. -/
  repoPrefix : Text
  deriving DecidableEq

/-- The values that are pasted into `vars.json`, and those that the image tree source gets
from there. -/
structure Values where
  /-- `compatible`. -/
  compatible : Text
  /-- `firmware-version`. -/
  firmwareVersion : Text
  /-- `firmware-compatible`. -/
  firmwareCompatible : Text
  /-- The `release-*` values. -/
  release : Release
  deriving DecidableEq

/-- The texts of the values. -/
def Values.texts (v : Values) : List Text :=
  [v.compatible, v.firmwareVersion, v.firmwareCompatible, v.release.name, v.release.suite,
    v.release.target, v.release.repoPrefix]

/-- A character that stands for itself in a JSON string. -/
def jsonPlain (c : Char) : Bool := c ≠ '"' && c ≠ '\\' && 32 ≤ c.toNat

/-- No text has a quote, a backslash or a control character. -/
def Values.Plain (v : Values) : Prop := ∀ t ∈ v.texts, ∀ c ∈ t, jsonPlain c = true

instance : DecidablePred Values.Plain := fun v =>
  decidable_of_iff ((v.texts.all fun t => t.all jsonPlain) = true)
    (by simp only [Values.Plain, List.all_eq_true])

/-- The image tree source, with the contents of the files that it includes. -/
structure Its (Blob : Type) extends Values where
  /-- The kernel image. -/
  kernel : Blob
  /-- The DTB image. -/
  dtb : Blob
  /-- The install script. -/
  install : Blob
  deriving DecidableEq

/-- The programs that the script calls. -/
structure Tools (Blob : Type) where
  /-- The lines that `cat` prints. -/
  cat : Blob → List Text
  /-- Sourcing a release file, which can fail. -/
  source : Blob → Option Release
  /-- The lines that `fdtget - / compatible` prints; none when it fails. -/
  fdtget : Blob → List Text
  /-- `j2 --format=json` on `vars.json` with these values: what it puts into the source, if
  it can read the file. -/
  j2 : Values → Option Values
  /-- `j2` passes on what stands for itself. -/
  j2_plain : ∀ v : Values, v.Plain → j2 v = some v
  /-- Whether `mkimage` can read the source. -/
  mkimage : Its Blob → Bool

/-- The supported values of `ARCH`. -/
inductive Arch where
  /-- `armhf`. -/
  | armhf
  /-- `armel`. -/
  | armel
  /-- `arm64`. -/
  | arm64
  deriving DecidableEq

/-- `KERNEL_IMAGE_NAME`. -/
def Arch.kernelImageName : Arch → String
  | .arm64 => "Image.gz"
  | .armhf => "zImage"
  | .armel => "zImage"

/-- The files given on the command line, and the script's own install script. The paths
resolve; a file is none where its path leads to nothing. -/
structure Defaults (Blob : Type) where
  /-- `DEFAULT_ZIMAGE`. -/
  zimage : Option Blob
  /-- `DEFAULT_BOOT_DTB`. -/
  bootDtb : Option Blob
  /-- `TARGET_DTB`. -/
  targetDtb : Option Blob
  /-- `$SCRIPT_DIR/install_update.sh`. -/
  installScript : Blob

/-- The regular files of a tree by their paths. -/
abbrev Tree (Blob : Type) := String → Option Blob

/-- The two forms of the first argument. -/
inductive Form where
  /-- A directory. -/
  | directory
  /-- A tar archive with members `./path`. -/
  | tarball
  deriving DecidableEq

/-- What stops the script. -/
inductive Failure where
  /-- A member is missing in the tarball. -/
  | tar
  /-- Unable to get firmware version. -/
  | version
  /-- Unable to get release information. -/
  | release
  /-- The boot DTB cannot be opened. -/
  | open
  /-- Unable to get 'compatible' DTB param. -/
  | compatible
  /-- `vars.json` cannot be read. -/
  | j2
  /-- The image cannot be made. -/
  | mkimage
  deriving DecidableEq

/-! ## The script -/

/-- `etc/wb-fw-version`. -/
def versionPath : String := "etc/wb-fw-version"

/-- `usr/lib/wb-release`. -/
def releasePath : String := "usr/lib/wb-release"

/-- `var/lib/wb-image-update/firmware-compatible`. -/
def firmwareCompatiblePath : String := "var/lib/wb-image-update/firmware-compatible"

/-- `var/lib/wb-image-update/install_update.sh`. -/
def installPath : String := "var/lib/wb-image-update/install_update.sh"

/-- `var/lib/wb-image-update/$KERNEL_IMAGE_NAME`. -/
def kernelPath (arch : Arch) : String := "var/lib/wb-image-update/" ++ arch.kernelImageName

/-- `var/lib/wb-image-update/boot.dtb`. -/
def bootDtbPath : String := "var/lib/wb-image-update/boot.dtb"

/-- The members unpacked from a tarball. -/
def members : List String := [versionPath, releasePath, firmwareCompatiblePath, installPath]

section Script

variable {Blob : Type} (tools : Tools Blob) (arch : Arch) (defaults : Defaults Blob)

/-- Lines 48 to 67: the tree that the rest of the script looks into. -/
def prepareRootfs (form : Form) (tree : Tree Blob) : Except Failure (Tree Blob) :=
  match form with
  | .directory => .ok tree
  | .tarball =>
    if members.all fun path => (tree path).isSome then
      .ok fun path => if path ∈ members then tree path else none
    else .error .tar

/-- Line 69. -/
def getVersion (rootfs : Tree Blob) : Except Failure Text :=
  match rootfs versionPath with
  | some file => .ok (substitute (tools.cat file))
  | none => .error .version

/-- Line 70. -/
def getRelease (rootfs : Tree Blob) : Except Failure Release :=
  match (rootfs releasePath).bind tools.source with
  | some release => .ok release
  | none => .error .release

/-- Lines 81 to 88. -/
def getFirmwareCompatible (rootfs : Tree Blob) : Text :=
  match rootfs firmwareCompatiblePath with
  | some file => substitute (tools.cat file)
  | none => "unknown".toList

/-- `dtb_get_compatible`. -/
def dtbGetCompatible (dtb : Blob) : Text :=
  substitute ((tools.fdtget dtb).map fun line => line.takeWhile (· ≠ ' '))

/-- Lines 120 to 128: the target DTB decides if it exists, else the boot DTB. -/
def getCompatible (bootDtb : Option Blob) : Except Failure Text :=
  match defaults.targetDtb.or bootDtb with
  | none => .error .open
  | some dtb =>
    let compatible := dtbGetCompatible tools dtb
    if compatible ≠ [] then .ok compatible else .error .compatible

/-- Lines 102 to 109: the bootlet's kernel of the tree, else the default one. -/
def zimage (rootfs : Tree Blob) : Option Blob := (rootfs (kernelPath arch)).or defaults.zimage

/-- Lines 111 to 118: the bootlet's DTB of the tree, else the default one. -/
def bootDtb (rootfs : Tree Blob) : Option Blob := (rootfs bootDtbPath).or defaults.bootDtb

/-- A file that the image includes. -/
def incbin (file : Option Blob) : Except Failure Blob :=
  match file with
  | some content => .ok content
  | none => .error .mkimage

/-- Line 149. -/
def render (values : Values) : Except Failure Values :=
  match tools.j2 values with
  | some values => .ok values
  | none => .error .j2

/-- Lines 153 to 161. -/
def makeImage (its : Its Blob) : Except Failure (Its Blob) :=
  if tools.mkimage its then .ok its else .error .mkimage

/-- Lines 69 to 161 on the prepared tree. -/
def buildIts (rootfs : Tree Blob) : Except Failure (Its Blob) := do
  let version ← getVersion tools rootfs
  let release ← getRelease tools rootfs
  let installScript := (rootfs installPath).getD defaults.installScript
  let firmwareCompatible := getFirmwareCompatible tools rootfs
  let compatible ← getCompatible tools defaults (bootDtb defaults rootfs)
  let values ← render tools ⟨compatible, version, firmwareCompatible, release⟩
  let kernel ← incbin (zimage arch defaults rootfs)
  let dtb ← incbin (bootDtb defaults rootfs)
  makeImage tools ⟨values, kernel, dtb, installScript⟩

/-- The whole script. -/
def createUpdate (form : Form) (tree : Tree Blob) : Except Failure (Its Blob) := do
  let rootfs ← prepareRootfs form tree
  buildIts tools arch defaults rootfs

end Script

end WirenBoard.Update
