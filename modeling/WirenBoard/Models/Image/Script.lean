import WirenBoard.Core.Subst
import WirenBoard.Models.Rootfs.Base
import WirenBoard.Models.Update.Create

/-!
# The script that creates the images of a board

`create_images.sh` as a shell script over a directory of kernels and DTBs that it fills
by downloading what is missing, and over the images it has made. A download that fails has
already created its file; in `get_dtb`, which runs in a command substitution, it does not
stop the script. The name of a DTB is empty or names a file; the path of an empty name is
the directory of the flavour, which exists only where a DTB with a name was looked for.
`create_image.sh` removes from the tree only files that nothing reads later, so the tree
does not change. Names are taken as one word where `create_update.sh` leaves them unquoted,
and messages are left out.
-/

namespace WirenBoard.Image

open Shell

open Rootfs (Board Soc orDefault words joinWords)

open Update (Its Release Tools)

/-! ## What the board files set -/

/-- `KERNEL_FLAVOUR`. -/
def kernelFlavour : Soc → Text
  | .imx23 => "wb2".toList
  | .imx28 => "wb2".toList
  | .imx6ul => "wb6".toList
  | .sun50iH616 => "wb8".toList
  | .sun8iR40 => "wb7".toList

/-- `IMAGE_TYPE`. -/
def imageType : Soc → Text
  | .imx23 => "mx23".toList
  | .imx28 => "mx28".toList
  | .imx6ul => "mx6ul".toList
  | .sun50iH616 => "sun50i_h616".toList
  | .sun8iR40 => "sun8i_r40".toList

/-- `U_BOOT`. -/
def uBoot : Soc → Text
  | .imx23 => "UNSUPPORTED".toList
  | .imx28 => "contrib/u-boot/u-boot.wb5.sd".toList
  | .imx6ul => "contrib/u-boot/u-boot.wb6.imx".toList
  | .sun50iH616 => "contrib/u-boot/u-boot.wb8.bin".toList
  | .sun8iR40 => "contrib/u-boot/u-boot.wb7.bin".toList

/-- `U_BOOT_ROOTFS`, where the file sets it. -/
def uBootRootfs : Soc → Option Text
  | .imx23 => none
  | .imx28 => none
  | .imx6ul => some "usr/lib/u-boot/mx6ul_wirenboard6/u-boot-with-spl.imx".toList
  | .sun50iH616 => some "usr/lib/u-boot/sun50i_wirenboard8/u-boot-sunxi-with-spl.bin".toList
  | .sun8iR40 => some "usr/lib/u-boot/sun8i_wirenboard7/u-boot-sunxi-with-spl.bin".toList

/-- `FIT_IMAGE_DTB`, where the file sets it. -/
def fitImageDtb : Soc → Option Text
  | .imx6ul => some "imx6ul-wirenboard6x-init.dtb".toList
  | _ => none

/-- `BOARD_SUPPORTS_IMG`, where the file sets it. -/
def boardSupportsImg : Soc → Option Text
  | .sun50iH616 => none
  | _ => some "y".toList

/-- `BOARD_BOOTLET_ON_S3`, where the file sets it. -/
def boardBootletOnS3 : Soc → Option Text
  | .imx6ul => some "y".toList
  | .sun8iR40 => some "y".toList
  | _ => none

/-- `BOARD_BOOTLET_IN_ROOTFS`, where the file sets it. -/
def boardBootletInRootfs : Soc → Option Text
  | .imx23 => none
  | .imx28 => none
  | _ => some "y".toList

/-- `ARCH`, as `create_update.sh` sees it. -/
def updateArch : Soc → Update.Arch
  | .imx23 => .armel
  | .imx28 => .armel
  | .imx6ul => .armhf
  | .sun50iH616 => .arm64
  | .sun8iR40 => .armhf

/-- `BOARD`: the name of the board's file. -/
def boardName : Board → Text
  | .usbgadget2 => "2-usbgadget".toList
  | .b28 => "28".toList
  | .b32 => "32".toList
  | .b4 => "4".toList
  | .b5 => "5".toList
  | .b55S => "55-S".toList
  | .b55ZERO => "55-ZERO".toList
  | .b55 => "55".toList
  | .b55P => "55P".toList
  | .b58S => "58-S".toList
  | .b58ZERO => "58-ZERO".toList
  | .b58 => "58".toList
  | .usbgadget6 => "6-usbgadget".toList
  | .b60 => "60".toList
  | .b67 => "67".toList
  | .b6x => "6x".toList
  | .usbgadget7 => "7-usbgadget".toList
  | .b7x => "7x".toList
  | .b8x => "8x".toList
  | .acE1 => "AC-E1".toList
  | .cqc10 => "CQC10".toList
  | .mka3 => "MKA3".toList
  | .mka31 => "MKA31".toList
  | .netmon => "NETMON".toList

/-! ## The input of a run -/

/-- The environment variables that a run can depend on. -/
structure Env where
  /-- `FIT_IMAGE_DTB`. -/
  fitImageDtb : Text
  /-- `U_BOOT_ROOTFS`. -/
  uBootRootfs : Text
  /-- `BOARD_SUPPORTS_IMG`. -/
  boardSupportsImg : Text
  /-- `BOARD_BOOTLET_ON_S3`. -/
  boardBootletOnS3 : Text
  /-- `BOARD_BOOTLET_IN_ROOTFS`. -/
  boardBootletInRootfs : Text
  /-- `FIT_CUSTOM_PREFIX`. -/
  fitCustomPrefix : Text
  /-- `MAKE_IMG`. -/
  makeImg : Text
  /-- `OUT_DIR`. -/
  outDir : Text

/-- What runs have in common. -/
structure Setting (Blob : Type) where
  /-- The programs that read files. -/
  tools : Tools Blob
  /-- `VERSION_CODENAME` from sourcing `os-release`, which can fail. -/
  osRelease : Blob → Option Text
  /-- `TOP_DIR`. -/
  topDir : Text
  /-- `IMAGES_DIR`. -/
  imagesDir : Text
  /-- `install_update.sh`. -/
  installScript : Blob

/-- One invocation. -/
structure Request (Blob : Type) where
  /-- The first argument. -/
  board : Board
  /-- The second argument; empty when it is not given. -/
  version : Text
  /-- The environment. -/
  env : Env
  /-- `ROOTFS`. -/
  rootfs : Text
  /-- The directory at `ROOTFS`, if it exists. -/
  tree : Option (Update.Tree Blob)

/-- The commands with an outcome of their own. -/
inductive Site where
  /-- `mkdir` of the output directory. -/
  | mkdirOut
  /-- `create_image.sh`. -/
  | createImage
  /-- `zip`. -/
  | zip
  /-- `mkdir` for the kernel. -/
  | mkdirZimage
  /-- The commands of `create_update.sh` that pack and make the image. -/
  | createUpdate
  deriving DecidableEq

/-- What a run reads besides. -/
structure Input (Blob : Type) where
  /-- The outcome of each command. -/
  ok : Site → Bool
  /-- The files on `fw-releases.wirenboard.com` below `utils/build-image`. -/
  server : Text → Option Blob
  /-- What a failing download leaves in a file. -/
  torn : Text → Blob
  /-- `DATASIZE`: the size of the tree in megabytes. -/
  dataSize : Nat
  /-- The arithmetic of the shell, signed with 64 bits, does not overflow. -/
  dataSize_lt : (dataSize + 120) * (1024 * 1024) < 0x8000000000000000

/-- A line for `sfdisk`. -/
structure Partition where
  /-- The first sector. -/
  start : Nat
  /-- The number of sectors. -/
  size : Nat
  /-- The type. -/
  fstype : Nat
  deriving DecidableEq

/-- A card image. -/
structure Img where
  /-- `IMG_NAME`. -/
  name : Text
  /-- `U_BOOT_PATH`. -/
  uBootPath : Text
  /-- `DATASIZE`. -/
  dataSize : Nat
  /-- `TOTAL_SECTORS`. -/
  totalSectors : Nat
  /-- The partitions. -/
  partitions : List Partition
  deriving DecidableEq

/-- The state that outlives a run. -/
structure Host (Blob : Type) where
  /-- The files below `contrib/usbupdate`. -/
  store : Text → Option Blob
  /-- Whether the directory `dtbs/$KERNEL_FLAVOUR` is there, for each flavour. -/
  dirs : Text → Bool
  /-- The card images, in the order of their making. -/
  imgs : List Img
  /-- The updates with their names, in the order of their making. -/
  updates : List (Text × Its Blob)

/-- The variables that are set from the store. -/
structure Vars where
  /-- `ZIMAGE`, below the store. -/
  zimage : Text
  /-- `TARGET_DTB`, below the store. -/
  targetDtb : Text
  /-- `BOOT_DTB`, below the store. -/
  bootDtb : Text
  deriving DecidableEq

/-! ## Variables -/

/-- `sed -n 's/^fdt_file=\/boot\/dtbs\///p'`. -/
def fdtFile (lines : List Text) : List Text :=
  lines.filterMap fun line => line.dropPrefix? "fdt_file=/boot/dtbs/".toList

/-- The variables that are set from the tree. -/
structure Header where
  /-- What `wb-release` sets. -/
  release : Release
  /-- `VERSION_CODENAME`. -/
  codename : Text
  /-- `VERSION`. -/
  version : Text
  /-- `TARGET_DTB_NAME`. -/
  targetDtbName : Text

section Variables

variable {Blob : Type} (set : Setting Blob) (req : Request Blob)

/-- `usr/lib/os-release`. -/
def osReleasePath : String := "usr/lib/os-release"

/-- `boot/uEnv.txt`. -/
def uEnvPath : String := "boot/uEnv.txt"

/-- Lines 15 to 35 and 58 to 61; none where the script stops. -/
def header : Option Header := do
  let tree ← req.tree
  let release ← (tree Update.releasePath).bind set.tools.source
  let codename ← (tree osReleasePath).bind set.osRelease
  let version ← tree Update.versionPath
  let uEnv ← tree uEnvPath
  return {
    release := release
    codename := codename
    version := if req.version ≠ [] then req.version else substitute (set.tools.cat version)
    targetDtbName := substitute (fdtFile (set.tools.cat uEnv)) }

/-- `FIT_IMAGE_DTB`, inherited where the board does not set it. -/
def fitDtb : Text := (fitImageDtb req.board.soc).getD req.env.fitImageDtb

/-- `BOOT_DTB_NAME`. -/
def bootDtbName (h : Header) : Text := if fitDtb req ≠ [] then fitDtb req else h.targetDtbName

/-- Whether `BOARD_BOOTLET_ON_S3` is `y`. -/
def onS3 : Bool :=
  (boardBootletOnS3 req.board.soc).getD req.env.boardBootletOnS3 = "y".toList

/-- Whether `BOARD_BOOTLET_IN_ROOTFS` is `y`. -/
def inRootfs : Bool :=
  (boardBootletInRootfs req.board.soc).getD req.env.boardBootletInRootfs = "y".toList

/-- `sed -e 's/\W/+/g' -e 's/_/+/g'` on the words of a text. -/
def plusses (t : Text) : Text := (joinWords (words t)).map fun c => if c.isAlphanum then c else '+'

/-- `FIT_RELEASE_NAME`. -/
def fitReleaseName (r : Release) : Text := if r.suite = "stable".toList then r.name else r.suite

/-- `FULL_VERSION`. -/
def fullVersion (h : Header) : Text :=
  let v := h.version ++ ['_'] ++ fitReleaseName h.release ++ ['_'] ++ h.codename
  let v := if h.release.repoPrefix ≠ [] then v ++ ['_'] ++ plusses h.release.repoPrefix else v
  if req.env.fitCustomPrefix ≠ [] then req.env.fitCustomPrefix ++ ['_'] ++ v else v

/-- `OUT_DIR`. -/
def outDir (h : Header) : Text := orDefault req.env.outDir (set.imagesDir ++ ['/'] ++ h.version)

/-- `IMG_NAME`. -/
def imgName (h : Header) : Text :=
  outDir set req h ++ ['/'] ++ fullVersion req h ++ "_emmc_wb".toList ++ boardName req.board ++
    ".img".toList

/-- `WEBUPD_NAME`. -/
def webupdName (h : Header) : Text :=
  outDir set req h ++ ['/'] ++ fullVersion req h ++ "_wb".toList ++ boardName req.board ++
    ".fit".toList

/-- `U_BOOT_PATH`: the loader of the tree, if there is one, else the default one. -/
def uBootPath : Text :=
  let name := (uBootRootfs req.board.soc).getD req.env.uBootRootfs
  if name ≠ [] ∧ (req.tree.bind fun tree => tree (String.ofList name)).isSome then
    req.rootfs ++ ['/'] ++ name
  else set.topDir ++ ['/'] ++ uBoot req.board.soc

/-- `zImage.$KERNEL_FLAVOUR`. -/
def zimageFile : Text := "zImage.".toList ++ kernelFlavour req.board.soc

/-- `dtbs/$KERNEL_FLAVOUR/$DTB_NAME`. -/
def dtbFile (name : Text) : Text :=
  "dtbs/".toList ++ kernelFlavour req.board.soc ++ ['/'] ++ name

end Variables

/-! ## The card image -/

/-- `MB`. -/
def mb : Nat := 1024 * 1024

/-- `SECTOR_SIZE`. -/
def sectorSize : Nat := 512

/-- `PART_START_$SOC_TYPE`, where it is set. -/
def partStart (socType : Text) : Option Nat :=
  if socType = "mx23".toList then some (4 * mb / sectorSize)
  else if socType = "mx28".toList ∨ socType = "mx6ul".toList ∨ socType = "sun8i_r40".toList then
    some (1 * mb / sectorSize)
  else none

/-- `TOTAL_SECTORS`. -/
def totalSectors (dataSize : Nat) : Nat := (dataSize + 120) * mb / sectorSize

/-- `wb_partition` on `PART_START`: the line and the start of the next partition. Without a
size it takes the rest; an extended partition moves the start by its table only. -/
def wbPartition (total start : Nat) (size : Option Nat) (fstype : Nat) : Partition × Nat :=
  let size := match size with
    | none => total - start
    | some size => size * mb / sectorSize
  (⟨start, size, fstype⟩, if fstype = 5 then start + 2048 else start + size)

/-- The lines of calls of `wb_partition` one after the other. -/
def wbPartitions (total : Nat) : Nat → List (Option Nat × Nat) → List Partition
  | _, [] => []
  | start, (size, fstype) :: calls =>
    let p := wbPartition total start size fstype
    p.1 :: wbPartitions total p.2 calls

/-- The two partitions of a card. -/
def cardPartitions (dataSize start : Nat) : List Partition :=
  wbPartitions (totalSectors dataSize) start [(some 16, 53), (none, 83)]

/-! ## Commands -/

section Commands

variable {Blob : Type} (set : Setting Blob) (req : Request Blob) (i : Input Blob)

/-- `create_image.sh`; it stops on a type without a start. -/
def createImage (h : Header) : Sh Vars (Host Blob) :=
  match partStart (imageType req.board.soc) with
  | none => call false
  | some start => act (i.ok .createImage) fun w =>
      if i.ok .createImage then
        { w with imgs := w.imgs ++ [⟨imgName set req h, uBootPath set req, i.dataSize,
            totalSectors i.dataSize, cardPartitions i.dataSize start⟩] }
      else w

/-- Lines 81 to 96. -/
def makeImg (h : Header) : Sh Vars (Host Blob) :=
  ifThen (call (req.env.makeImg ≠ [] &&
      (boardSupportsImg req.board.soc).getD req.env.boardSupportsImg = "y".toList))
    (script [createImage set req i h, call (i.ok .zip)])

/-- A host behind the download of a file. Where the name of a DTB is empty, `wget` is told to
write to a directory, and fails. -/
def Host.downloaded (h : Host Blob) (file : Text) : Host Blob :=
  if file = dtbFile req [] then h else
    { h with store := Function.update h.store file (some ((i.server file).getD (i.torn file))) }

/-- `wget -O file`. -/
def fetch (file : Text) : Sh Vars (Host Blob) :=
  act ((i.server file).isSome && file ≠ dtbFile req []) fun h => h.downloaded req i file

/-- Whether there is nothing at the path of a file. -/
def Host.absent (h : Host Blob) (file : Text) : Bool :=
  if file = dtbFile req [] then !h.dirs (kernelFlavour req.board.soc) else (h.store file).isNone

/-- `[[ ! -e file ]]`. -/
def missing (file : Text) : Sh Vars (Host Blob) := simple fun v h => (v, h, h.absent req file)

/-- `mkdir -p "$(dirname ...)"` for a DTB. -/
def mkdirDtb (name : Text) : Sh Vars (Host Blob) :=
  act true fun h => if name = [] then h else
    { h with dirs := Function.update h.dirs (kernelFlavour req.board.soc) true }

/-- Lines 98 to 113. -/
def getZimage : Sh Vars (Host Blob) :=
  script [
    call (i.ok .mkdirZimage),
    assign true fun v _ => { v with zimage := zimageFile req },
    ifThen (andThen (missing req (zimageFile req)) (call (onS3 req)))
      (fetch req i (zimageFile req)),
    ifThen (andThen (missing req (zimageFile req)) (call (!inRootfs req))) (exit false)]

/-- `get_dtb`, in a command substitution. -/
def getDtb (name : Text) : Sh Vars (Host Blob) :=
  script [
    mkdirDtb req name,
    ifThen (andThen (missing req (dtbFile req name)) (call (onS3 req)))
      (fetch req i (dtbFile req name)),
    ifThen (andThen (missing req (dtbFile req name)) (call (!inRootfs req))) (exit false),
    print fun _ => dtbFile req name]

/-- The files that `create_update.sh` is given. -/
def updateDefaults (v : Vars) (store : Text → Option Blob) : Update.Defaults Blob where
  zimage := store v.zimage
  bootDtb := store v.bootDtb
  targetDtb := store v.targetDtb
  installScript := set.installScript

/-- Whether the target DTB is a directory. -/
def Host.targetIsDir (h : Host Blob) (v : Vars) : Bool :=
  v.targetDtb = dtbFile req [] && h.dirs (kernelFlavour req.board.soc)

/-- Line 150: `create_update.sh`. A target DTB that is a directory has no `compatible`. -/
def makeUpdate (h : Header) : Sh Vars (Host Blob) := simple fun v w =>
  match req.tree with
  | none => (v, w, false)
  | some tree =>
    if w.targetIsDir req v || !i.ok .createUpdate then (v, w, false) else
    match Update.createUpdate set.tools (updateArch req.board.soc)
        (updateDefaults set v w.store) .directory tree with
    | .error _ => (v, w, false)
    | .ok its => (v, { w with updates := w.updates ++ [(webupdName set req h, its)] }, true)

/-- The script behind its header. -/
def createFrom (h : Header) : Sh Vars (Host Blob) :=
  script [
    call (i.ok .mkdirOut),
    makeImg set req i h,
    getZimage req i,
    assignFrom (getDtb req i h.targetDtbName) fun t v => { v with targetDtb := t },
    assignFrom (getDtb req i (bootDtbName req h)) fun t v => { v with bootDtb := t },
    makeUpdate set req i h]

/-- `create_images.sh`. -/
def createImages : Sh Vars (Host Blob) :=
  match header set req with
  | none => exit false
  | some h => createFrom set req i h

/-- A run of the script under `set -e`. -/
def run (w : Host Blob) : Result Vars (Host Blob) := createImages set req i true ⟨[], [], []⟩ w

end Commands

end WirenBoard.Image
