import WirenBoard.Core.Shell

/-!
# The installation script of an update

`install_update.sh` as a shell script over the two-slot device. Every external
step has an outcome of its own in the input, so that one input is one pattern of
successes and failures. `info`, `sync` and the other calls that only report are
left out; `die` exits the shell that calls it. The mount point is a directory in
the caller's `$TMPDIR`, and the commands that empty it or extract into it act on
whatever is mounted there last.
-/

namespace WirenBoard.Install

open Shell

/-! ## The device -/

/-- A root filesystem partition. -/
inductive Slot where
  /-- `mmcblk0p2`, labelled `rootfs0`. -/
  | p2
  /-- `mmcblk0p3`, labelled `rootfs1`. -/
  | p3
  deriving DecidableEq

/-- The second slot. -/
def Slot.other : Slot → Slot
  | .p2 => .p3
  | .p3 => .p2

/-- What a slot holds. -/
inductive Content where
  /-- No root filesystem. -/
  | blank
  /-- A root filesystem with files missing. -/
  | partly
  /-- A root filesystem whose extraction completed. -/
  | extracted
  deriving DecidableEq

/-- The ways a run overwrites a slot. -/
inductive Action where
  /-- `mkfs_ext4` with a label. -/
  | format (label : String)
  /-- `rsync --delete` or `rm -rf`. -/
  | empty
  /-- `tar xzp`. -/
  | extract
  deriving DecidableEq

/-- One overwriting. -/
structure Write where
  /-- What was done. -/
  action : Action
  /-- The slot it was done to. -/
  slot : Slot
  /-- The slot the system was running from. -/
  running : Option Slot
  deriving DecidableEq

/-- The device. -/
structure Device where
  /-- The variable `mmcpart` of U-Boot, if it names a slot. -/
  mmcpart : Option Slot
  /-- The slot the system runs from; none in the initramfs. -/
  running : Option Slot
  /-- What the slots hold. -/
  slots : Slot → Content
  /-- The slots mounted at the mount point, the last one first. -/
  mnt : List Slot
  /-- The overwritings so far. -/
  writes : List Write

/-- A slot is overwritten. -/
def Device.write (d : Device) (a : Action) (s : Slot) (c : Content) : Device :=
  { d with slots := Function.update d.slots s c, writes := d.writes ++ [⟨a, s, d.running⟩] }

/-- Whatever is mounted last is overwritten. -/
def Device.writeMnt (a : Action) (c : Content) (d : Device) : Device :=
  match d.mnt with
  | [] => d
  | s :: _ => d.write a s c

/-- The overwriting of whatever is mounted last is through. -/
def Device.settleMnt (c : Content) (d : Device) : Device :=
  match d.mnt with
  | [] => d
  | s :: _ => { d with slots := Function.update d.slots s c }

/-- The device as a run sees it that gets a fresh `$TMPDIR`: whatever earlier runs left mounted
is mounted elsewhere. The caller, which is not part of the repository, is assumed to make a
new `$TMPDIR` for every run. -/
abbrev Device.inFreshTmpdir (d : Device) : Device := { d with mnt := [] }

/-! ## The input of a run -/

/-- The external steps that can succeed or fail. -/
inductive Site where
  | fitBlobVerifyHash | readlinkRoot | fwPrintenv | rmMnt | mkdirMnt | rootPartExists
  | actualRootfsExists | mountActual | actualRelease | umountActual | mountProbe | mkfsExt4
  | umountProbe | mountRoot | ownRelease | ledFailure | buzzer | rebootRollback | umountRollback
  | rmEmpty | mkdirEmpty | whichRsync | rsync | rmContents | pushd | fitBlobSize | tar | popd
  | mkdirHiddenfs | losetupFind | losetup | mountHiddenfs | catCertificates | umountHiddenfs
  | mountDev | mountProc | mountSys | postinstDir | findPostinst | umountDev | umountProc
  | umountSys | fwSetenvMmcpart | fwSetenvUpgrade | rmFit | ledSuccess | umountMnt | mqttStatus
  | rebootForced | reboot
  deriving DecidableEq

/-- The flags of the caller. -/
structure Flags where
  /-- `force-compatible`. -/
  forceCompatible : Bool
  /-- `from-initramfs`. -/
  fromInitramfs : Bool
  /-- `factoryreset`. -/
  factoryreset : Bool
  /-- `no-certificates`. -/
  noCertificates : Bool
  /-- `no-postinst`. -/
  noPostinst : Bool
  /-- `no-reboot`. -/
  noReboot : Bool
  deriving DecidableEq

/-- Everything a run reads besides the device. -/
structure Input where
  /-- The flags. -/
  flags : Flags
  /-- `/dev/root`, if it exists, and the slot its link names, if it names one. -/
  devRoot : Option (Option Slot)
  /-- `fit_prop_string / compatible`. -/
  fitCompat : String
  /-- The words of `/proc/device-tree/compatible`. -/
  compatibles : List String
  /-- `VERSION_CODENAME` of the root filesystem that `mmcpart` names. -/
  actualRelease : String
  /-- `VERSION_CODENAME` of the running system. -/
  ownRelease : String
  /-- The release the update is for. -/
  upcomingRelease : String
  /-- The outcome of each post-install script. -/
  postinst : List Bool
  /-- Whether a failing `fw_setenv mmcpart` has written the variable. -/
  mmcpartWritten : Bool
  /-- The outcomes of the other external steps. -/
  ok : Site → Bool

/-! ## The script -/

/-- The variables that change while the script runs. -/
structure Vars where
  /-- `PART` before the slots are chosen. -/
  part : Option Slot
  /-- `ACTUAL_DEB_RELEASE`. -/
  actualDebRelease : String
  /-- `upcoming_deb_release`. -/
  upcomingDebRelease : String

/-- `die`. -/
def die : Sh Vars Device := exit false

/-- `flag_set`. -/
def flagSet (flag : Bool) : Sh Vars Device := call flag

/-- `|| true`. -/
def orTrue (c : Sh Vars Device) : Sh Vars Device := orElse c (call true)

/-- `check_compatible`. -/
def checkCompatible (fitCompat : String) (compatibles : List String) : Bool :=
  if fitCompat = "" ∨ fitCompat = "unknown" then true else compatibles.any (fitCompat = ·)

section Steps

variable (i : Input)

/-- An external step that leaves the device alone. -/
def ext (site : Site) : Sh Vars Device := call (i.ok site)

/-- `mount` of a slot at the mount point. -/
def mount (site : Site) (s : Slot) : Sh Vars Device :=
  act (i.ok site) fun d => if i.ok site then { d with mnt := s :: d.mnt } else d

/-- `umount -f` of a slot. -/
def umount (site : Site) (s : Slot) : Sh Vars Device :=
  act (i.ok site) fun d => if i.ok site then { d with mnt := d.mnt.erase s } else d

/-- A step that overwrites what is mounted last; it leaves files missing until it is
through. -/
def overwrite (a : Action) (site : Site) (c : Content) : Sh Vars Device :=
  seq (act true (Device.writeMnt a .partly))
    (act (i.ok site) fun d => if i.ok site then d.settleMnt c else d)

/-- A forced reboot. -/
def rebootForced (site : Site) : Sh Vars Device := if i.ok site then shutdown else call false

/-- Lines 45 to 51: compatibility and hash. -/
def verify : Sh Vars Device :=
  seq (ifThenElse (flagSet i.flags.forceCompatible) (call true)
      (orElse (call (checkCompatible i.fitCompat i.compatibles)) die))
    (ext i .fitBlobVerifyHash)

/-- Lines 59 to 65: the slot in use, from `/dev/root` or from U-Boot. The status of the
second assignment is that of `sed`, which prints nothing when `fw_printenv` fails. -/
def findPart : Sh Vars Device :=
  match i.devRoot with
  | some link => assign (i.ok .readlinkRoot) fun v _ => { v with part := link }
  | none => assign true fun v d => { v with part := if i.ok .fwPrintenv then d.mmcpart else none }

/-- Line 92. -/
def prepareMnt : Sh Vars Device := orElse (andThen (ext i .rmMnt) (ext i .mkdirMnt)) die

/-- Lines 94 to 106: the release of the slot in use, looked up from the initramfs. -/
def probeActual (partNow : Slot) : Sh Vars Device :=
  andThen (flagSet i.flags.fromInitramfs)
    (seq (orElse (andThen (ext i .rootPartExists) (ext i .actualRootfsExists)) die)
      (orTrue (andThen (mount i .mountActual partNow)
        (seq
          (assign (i.ok .actualRelease) fun v _ => { v with actualDebRelease := i.actualRelease })
          (orTrue (umount i .umountActual partNow))))))

/-- Lines 109 to 117. -/
def formatAndMount (part : Slot) (partLabel : String) : Sh Vars Device :=
  script [
    orElse (mount i .mountProbe part)
      (orElse (act (i.ok .mkfsExt4) fun d => d.write (.format partLabel) part .blank) die),
    orTrue (umount i .umountProbe part),
    orElse (mount i .mountRoot part) die]

/-- Lines 119 to 150: a rollback to stretch needs a factory reset. -/
def checkRollback (part : Slot) : Sh Vars Device :=
  script [
    andThen (test fun v => v.actualDebRelease = "")
      (assign (i.ok .ownRelease) fun v _ => { v with actualDebRelease := i.ownRelease }),
    assign true fun v _ => { v with upcomingDebRelease := i.upcomingRelease },
    ifThen (andThen (test fun v => v.actualDebRelease = "bullseye")
        (test fun v => v.upcomingDebRelease = "stretch"))
      (ifThen (neg (flagSet i.flags.factoryreset))
        (ifThenElse (flagSet i.flags.fromInitramfs)
          (script [ext i .ledFailure, ext i .buzzer, rebootForced i .rebootRollback])
          (seq (orTrue (umount i .umountRollback part)) die)))]

/-- Lines 152 to 160. -/
def cleanUp : Sh Vars Device :=
  seq (andThen (ext i .rmEmpty) (ext i .mkdirEmpty))
    (ifThenElse (ext i .whichRsync)
      (orElse (overwrite i .empty .rsync .blank) die)
      (orElse (overwrite i .empty .rmContents .blank) die))

/-- `mqtt_progress`, which succeeds. -/
def mqttProgress (_ : List String) : Sh Vars Device := call true

/-- Lines 162 to 169: the left side of the pipeline is a subshell. -/
def extract : Sh Vars Device :=
  script [
    ext i .pushd,
    ext i .fitBlobSize,
    pipe (seq (echo "0") (orElse (overwrite i .extract .tar .extracted) die)) mqttProgress,
    ext i .popd]

/-- Lines 171 to 189. -/
def certificates : Sh Vars Device :=
  ifThen (neg (flagSet i.flags.noCertificates))
    (script [
      ext i .mkdirHiddenfs,
      ext i .losetupFind,
      orElse (ext i .losetup) die,
      ifThen (ext i .mountHiddenfs)
        (seq (orTrue (ext i .catCertificates)) (ext i .umountHiddenfs))])

/-- Lines 191 to 212. -/
def postinst : Sh Vars Device :=
  ifThen (neg (flagSet i.flags.noPostinst))
    (script [
      ext i .mountDev,
      ext i .mountProc,
      ext i .mountSys,
      ifThen (ext i .postinstDir)
        (seq (ext i .findPostinst) (script (i.postinst.map fun r => orTrue (call r)))),
      ext i .umountDev,
      ext i .umountProc,
      ext i .umountSys])

/-- Lines 214 to 216: the switch. -/
def switchRootfs (part : Slot) : Sh Vars Device :=
  seq (act (i.ok .fwSetenvMmcpart) fun d =>
      if i.ok .fwSetenvMmcpart || i.mmcpartWritten then { d with mmcpart := some part } else d)
    (ext i .fwSetenvUpgrade)

/-- Lines 218 to 235. A plain `reboot` returns before the machine goes down. -/
def finishRun : Sh Vars Device :=
  script [
    ext i .rmFit,
    orTrue (ext i .ledSuccess),
    ifThen (neg (flagSet i.flags.noReboot))
      (script [
        act (i.ok .umountMnt) fun d => if i.ok .umountMnt then { d with mnt := d.mnt.tail } else d,
        ext i .mqttStatus,
        orElse (andThen (flagSet i.flags.fromInitramfs) (rebootForced i .rebootForced))
          (ext i .reboot)]),
    exit true]

/-- Lines 89 to 235, once the slots are chosen. -/
def installTo (part partNow : Slot) (partLabel : String) : Sh Vars Device :=
  script [
    prepareMnt i,
    probeActual i partNow,
    formatAndMount i part partLabel,
    checkRollback i part,
    cleanUp i,
    extract i,
    certificates i,
    postinst i,
    switchRootfs i part,
    finishRun i]

/-- The whole script. The last branch of the `case` overwrites `rootfs0`, but only
from the initramfs. -/
def installUpdate : Sh Vars Device :=
  script [
    verify i,
    findPart i,
    caseOf Vars.part fun part => match part with
      | some .p2 => installTo i .p3 .p2 "rootfs1"
      | some .p3 => installTo i .p2 .p3 "rootfs0"
      | none => seq (orElse (andThen (flagSet i.flags.fromInitramfs) (call true)) die)
          (installTo i .p2 .p3 "rootfs0")]

/-- One run under `set -e`. The caller gives it a fresh `$TMPDIR`. -/
def install (d : Device) : Result Vars Device :=
  installUpdate i true ⟨none, "", ""⟩ d.inFreshTmpdir

end Steps

end WirenBoard.Install
