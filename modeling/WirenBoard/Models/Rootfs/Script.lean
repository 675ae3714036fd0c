import WirenBoard.Core.Shell
import WirenBoard.Models.Rootfs.Base

/-!
# The script that creates a root filesystem

`create_rootfs.sh` as a shell script over the tree it fills, the mounts it makes in the tree
and the base tarballs it keeps. A command is named by its line, and has an outcome of its
own. A command that runs inside the tree, or packs or unpacks it, changes it by a function of
the input; what the script writes and removes itself is written out, consecutive writes to
one file as one command. A tarball is there from when `tar` creates it, and can be unpacked
without an error once `tar` is through. The script is modelled from line 63 on, where it runs
as root in its own namespace; messages, host services and commands behind `|| true` that touch
neither the tree nor a tarball are left out.
-/

namespace WirenBoard.Rootfs

open Shell

/-! ## The host -/

/-- The files of the tree that the script writes or removes. -/
inductive File where
  /-- `etc/apt/sources.list`. -/
  | sourcesList
  /-- `etc/apt/sources.list.d/local.list`. -/
  | localList
  /-- `APT_LIST_TMP_FNAME`. -/
  | aptListTmp
  /-- `APT_PIN_TMP_FNAME`. -/
  | aptPinTmp
  /-- `ADD_REPO_FILE`. -/
  | addRepo
  /-- `ADD_REPO_PIN_FILE`. -/
  | addRepoPin
  /-- The list file of an overriding board. -/
  | overrideList
  /-- `KEYRING_TMP`. -/
  | keyringTmp
  /-- `etc/apt/apt.conf.d/99use-gpgv`. -/
  | useGpgv
  /-- `etc/resolv.conf`. -/
  | resolvConf
  /-- `usr/sbin/policy-rc.d`. -/
  | policyRcD
  /-- `etc/hosts`. -/
  | hosts
  /-- `etc/dpkg/dpkg.cfg.d/01_nodoc`. -/
  | nodoc
  /-- `etc/locale.gen`. -/
  | localeGen
  /-- `additional`. -/
  | additional
  /-- `etc/wb-fw-version`. -/
  | wbFwVersion
  /-- `etc/wb-fw-custom`. -/
  | wbFwCustom
  /-- `boot/uEnv.txt`. -/
  | uEnv
  /-- `etc/machine-id`. -/
  | machineId
  /-- `var/lib/dbus/machine-id`. -/
  | dbusMachineId
  deriving DecidableEq

/-- The files of a tree, as lines. -/
abbrev Tree := File → Option (List Text)

/-- A file that `tar` reads. -/
structure Tarball where
  /-- The tree in it. -/
  tree : Tree
  /-- Whether it can be unpacked without an error. -/
  readable : Bool

/-- Where the script mounts. -/
inductive Point where
  | proc | sys | devPts | devPtmx
  deriving DecidableEq

/-- The state that outlives a command. -/
structure Host where
  /-- The output directory, if it exists. -/
  tree : Option Tree
  /-- What is mounted in it. -/
  mounts : List Point
  /-- The base tarballs by their names. -/
  tarballs : Text → Option Tarball
  /-- Whether the trap on exit is set. -/
  trap : Bool

/-- The command in a line of `create_rootfs.sh`, its second attempt, the command in a line of
`rootfs_env.sh`, or a step of `board_install`. -/
inductive Site where
  | main (line : Nat)
  | retry (line : Nat)
  | env (line : Nat)
  | board (step : Nat)
  deriving DecidableEq

/-- What `dev/ptmx` is after `ln -s`. -/
inductive Ptmx where
  /-- A link. -/
  | link
  /-- A device node. -/
  | node
  /-- Nothing. -/
  | missing
  deriving DecidableEq

/-- What a run reads besides its arguments and environment. -/
structure Input where
  /-- The outcome of each command. -/
  ok : Site → Bool
  /-- What a command outside the script does to the tree. -/
  effect : Site → Tree → Tree
  /-- What a command that fails leaves of the tree. -/
  torn : Site → Tree → Tree
  /-- The tarball until `tar` is through, if it creates one; a failing `tar` leaves it so. -/
  tornTarball : Option (Tree → Tarball)
  /-- What `dev/ptmx` becomes. -/
  ptmx : Ptmx
  /-- The host's `resolv.conf`. -/
  resolvConf : List Text
  /-- The host name. -/
  hostname : Text
  /-- Whether the host name, as a regular expression, matches a line. -/
  hostnameMatches : Text → Bool
  /-- The date as line 345 prints it. -/
  date : Text
  /-- Whether `mosquitto.pid` is there. -/
  mosquittoPid : Bool
  /-- Whether `$WB_TEMP_REPO` succeeds as a command. -/
  wbTempRepo : Bool
  /-- The lines of `$ADDITIONAL_SCRIPT`, if it is set. -/
  additionalScript : Option (List Text)
  /-- `ROOTFS_CUSTOM_TAG`. -/
  customTag : Text
  /-- Whether `wb-utils` is at version 4.0.0 or later. -/
  wbUtilsRecent : Bool

/-- What runs have in common: the place of the tarballs, the hash, and the repositories. -/
structure Setting where
  /-- `WORK_DIR`. -/
  workDir : Text
  /-- The digits of the hash of a line. -/
  sha : Text → Text
  /-- Whether a URL can be fetched. -/
  present : Text → Bool
  /-- `decode_release_item`: the value of a field of a `Release` file. -/
  releaseItem : Text → Text → Text

/-! ## Boards -/

/-- A step of `board_install`. -/
inductive BoardStep where
  /-- `chr_apt` or `wb-common_install`. -/
  | aptInstall
  /-- `chr_install_deb`. -/
  | installDeb
  /-- Run `set_confidential.sh` in the tree. -/
  | setConfidential
  /-- Remove `interfaces.wb-orig`. -/
  | rmInterfaces
  /-- `set_fdt`. -/
  | setFdt (name : String)
  /-- `json_edit`. -/
  | jsonEdit
  /-- Blacklist the 1-wire driver. -/
  | blacklist
  deriving DecidableEq

/-- `board_install`. -/
def Board.install : Board → List BoardStep
  | .usbgadget2 => [.aptInstall, .setFdt "imx28-wirenboard58"]
  | .b28 => [.aptInstall, .setFdt "imx23-wirenboard28"]
  | .b32 => [.aptInstall, .aptInstall, .setFdt "imx23-wirenboard32"]
  | .b4 => [.aptInstall, .installDeb, .setFdt "imx23-wirenboard41"]
  | .b5 => [.aptInstall, .setFdt "imx28-wirenboard52"]
  | .b55S => [.aptInstall, .rmInterfaces, .aptInstall, .setFdt "imx28-wirenboard55"]
  | .b55ZERO =>
    [.aptInstall, .setFdt "imx28-wirenboard55"] ++ List.replicate 11 .jsonEdit
  | .b55 => [.aptInstall, .setFdt "imx28-wirenboard55"]
  | .b55P => [.aptInstall, .setFdt "imx28-wirenboard55"] ++ List.replicate 3 .jsonEdit
  | .b58S =>
    [.aptInstall, .rmInterfaces, .aptInstall, .setFdt "imx28-wirenboard58", .jsonEdit]
  | .b58ZERO =>
    [.aptInstall, .setFdt "imx28-wirenboard58"] ++ List.replicate 12 .jsonEdit ++ [.blacklist]
  | .b58 => [.aptInstall, .setFdt "imx28-wirenboard58"]
  | .usbgadget6 => [.aptInstall, .setFdt "imx6ul-wirenboard61"]
  | .b60 => [.aptInstall, .setFdt "imx6ul-wirenboard-evk"]
  | .b67 => [.aptInstall, .setFdt "imx6ul-wirenboard670"]
  | .b6x => [.aptInstall, .setFdt "imx6ul-wirenboard61"]
  | .usbgadget7 => [.aptInstall, .setFdt "sun8i-r40-wirenboard72x-initram"]
  | .b7x => [.aptInstall, .setFdt "sun8i-r40-wirenboard720"]
  | .b8x => [.aptInstall, .setFdt "sun50i-h616-wirenboard843"]
  | .acE1 => [.setFdt "imx23-wirenboard-ac-e1"]
  | .cqc10 => [.aptInstall, .installDeb, .installDeb, .setFdt "imx23-wirenboard-cqc10"]
  | .mka3 => [.aptInstall, .setConfidential, .setFdt "imx23-wirenboard-kmon1"]
  | .mka31 => [.aptInstall, .setConfidential, .setFdt "imx28-wirenboard52"]
  | .netmon => [.aptInstall, .aptInstall, .setFdt "imx23-wirenboard-kmon1"]

/-- Whether the first of `BOARD_PACKAGES` is not empty. -/
def Board.hasPackages (b : Board) : Bool :=
  match b.soc with
  | .imx23 | .imx28 | .sun50iH616 => true
  | .imx6ul | .sun8iR40 => false

/-- The lines of `uEnv.txt`. -/
def uEnvLines (name : String) : List Text :=
  ["# The fdt_file parameter is for compatibility with older bootloader".toList,
    "# versions normally found on Wiren Boards older than WB6.5.".toList,
    [],
    "# In order to override devicetree on boards with newer bootloaders set both".toList,
    "# fdt_file and fdt_file_override here.".toList,
    [],
    "fdt_file=/boot/dtbs/".toList ++ name.toList ++ ".dtb".toList,
    "#fdt_file_override=/path/to/.dtb".toList]

/-! ## Commands -/

section Steps

variable (set : Setting) (inv : Invocation) (i : Input)

/-- A command that changes the tree. -/
def onTree (site : Site) (f : Tree → Tree) : Sh RepoVars Host :=
  act (i.ok site) fun h => { h with tree := h.tree.map (if i.ok site then f else i.torn site) }

/-- A command from outside the script, in the tree or on it. -/
def external (site : Site) : Sh RepoVars Host := onTree i site (i.effect site)

/-- `echo ... > file`. -/
def write (site : Site) (file : File) (lines : List Text) : Sh RepoVars Host :=
  onTree i site fun t => Function.update t file (some lines)

/-- `rm -f file`. -/
def remove (site : Site) (file : File) : Sh RepoVars Host :=
  onTree i site fun t => Function.update t file none

/-- `chr_apt_install`, with its second attempt. -/
def chrAptInstall (line : Nat) : Sh RepoVars Host :=
  orElse (external i (.main line)) (external i (.retry line))

/-- `mount`. -/
def mount (line : Nat) (point : Point) : Sh RepoVars Host :=
  act (i.ok (.env line)) fun h =>
    if i.ok (.env line) then { h with mounts := point :: h.mounts } else h

/-- `umount`. -/
def umount (line : Nat) (point : Point) : Sh RepoVars Host :=
  act (i.ok (.env line)) fun h =>
    if i.ok (.env line) then { h with mounts := h.mounts.erase point } else h

/-- `prepare_chroot`. The trap is set by its last command. -/
def prepareChroot : Sh RepoVars Host :=
  script [
    external i (.env 31),
    mount i 32 .proc,
    mount i 33 .sys,
    mount i 34 .devPts,
    external i (.env 35),
    external i (.env 36),
    ifThen (call (i.ptmx ≠ .link))
      (ifThenElse (call (i.ptmx = .node)) (mount i 39 .devPtmx) (external i (.env 41))),
    remove i (.env 46) .resolvConf,
    write i (.env 47) .resolvConf i.resolvConf,
    act true fun h => { h with trap := true }]

/-- `services_disable`. -/
def servicesDisable : Sh RepoVars Host :=
  seq (write i (.env 3) .policyRcD ["exit 101".toList]) (call (i.ok (.env 4)))

/-- `services_enable`. -/
def servicesEnable : Sh RepoVars Host := remove i (.env 8) .policyRcD

/-- `cleanup_chroot`, the trap on exit. -/
def cleanupChroot : Sh RepoVars Host :=
  script [
    orElse (call (i.ptmx ≠ .node)) (umount i 15 .devPtmx),
    umount i 16 .devPts,
    umount i 17 .proc,
    umount i 18 .sys,
    write i (.env 20) .resolvConf [[]],
    servicesEnable i]

/-! ## Repositories -/

/-- Lines 118 to 121. -/
def checkRepos : Sh RepoVars Host :=
  match checkedVars inv set.present with
  | some vars => assign true fun _ _ => vars
  | none => exit false

/-- The pin of an additional repository. -/
def pinLines (vars : RepoVars) : List Text :=
  let item := fun key : String => set.releaseItem (releaseUrl vars) key.toList
  ["Package: *".toList,
    "Pin: release o=".toList ++ item "Origin" ++ ",l=".toList ++ item "Label" ++ ",a=".toList ++
      item "Suite" ++ ",n=".toList ++ item "Codename",
    "Pin-Priority: 1001".toList, []]

/-- The two files that `setup_additional_repos` writes. -/
def putRepos (entries : List RepoVars) (t : Tree) : Tree :=
  Function.update (Function.update t .addRepo (some ([] :: entries.map aptLine))) .addRepoPin
    (some ([] :: entries.flatMap (pinLines set)))

/-- `setup_additional_repos`; a malformed entry exits. -/
def setupRepos (repos : List Text) : Sh RepoVars Host :=
  caseOf (fun vars => setupAdditionalRepos (repoDefaults inv) vars repos) fun entries =>
    match entries with
    | none => exit false
    | some entries => seq (onTree i (.main 144) (putRepos set entries))
        (assign true fun vars _ => entries.getLast?.getD vars)

/-- `install_contactless_repo`. -/
def installContactlessRepo : Sh RepoVars Host :=
  script [
    remove i (.main 185) .aptListTmp,
    external i (.main 188),
    write i (.main 190) .useGpgv ["APT::Key::gpgvcommand \"/usr/bin/gpgv\";".toList],
    external i (.main 192),
    write i (.main 193) .keyringTmp ["AEE07869".toList, "AA549AA8".toList],
    external i (.main 194),
    external i (.main 195),
    write i (.main 196) .aptListTmp [(buildInputs inv set.present).wbInstallList],
    external i (.main 198),
    chrAptInstall i 199,
    write i (.main 201) .aptListTmp [(buildInputs inv set.present).wbInstallList],
    remove i (.main 202) .keyringTmp]

/-- `board_override_repos`. -/
def boardOverrideRepos : Sh RepoVars Host :=
  match overrideList inv with
  | none => call true
  | some line => seq (write i (.board 0) .overrideList [line]) (external i (.board 1))

/-! ## The two ways to the base tree -/

/-- Line 214. -/
def unpack (base : Tarball) : Sh RepoVars Host :=
  act (i.ok (.main 214) && base.readable) fun h => { h with
    tree := h.tree.map
      (if i.ok (.main 214) && base.readable then fun _ => base.tree else i.torn (.main 214)) }

/-- Lines 211 to 227. -/
def useTarball (base : Tarball) : Sh RepoVars Host :=
  script [
    act (i.ok (.main 212)) fun h =>
      { h with tree := if i.ok (.main 212) then none else h.tree.map (i.torn (.main 212)) },
    act (i.ok (.main 213)) fun h =>
      if i.ok (.main 213) then { h with tree := some fun _ => none } else h,
    unpack i base,
    prepareChroot i,
    servicesDisable i,
    ifThen (call (inv.args ≠ [])) (setupRepos set inv i (words (addRepos inv))),
    external i (.main 226),
    external i (.main 227)]

/-- The tree is put into a tarball. -/
def Host.pack (h : Host) (path : Text) (f : Tree → Tarball) : Host :=
  { h with tarballs := Function.update h.tarballs path (h.tree.map f) }

/-- Line 328. -/
def makeTarball (path : Text) : Sh RepoVars Host :=
  seq
    (act true fun h => match i.tornTarball with
      | some torn => h.pack path torn
      | none => h)
    (act (i.ok (.main 328)) fun h =>
      if i.ok (.main 328) then h.pack path fun t => ⟨t, true⟩ else h)

/-- Lines 248 to 254. -/
def hostsLines : List Text :=
  ["127.0.0.1       wirenboard localhost".toList,
    "::1     localhost ip6-localhost ip6-loopback".toList,
    "fe00::0     ip6-localnet".toList, "ff00::0     ip6-mcastprefix".toList,
    "ff02::1     ip6-allnodes".toList, "ff02::2     ip6-allrouters".toList,
    "127.0.0.2 ".toList ++ i.hostname]

/-- Lines 262 to 271. -/
def nodocLines : List Text :=
  ["path-exclude /usr/share/locale/*".toList, "path-include /usr/share/locale/en*".toList,
    "path-include /usr/share/locale/ru*".toList, "path-exclude /usr/share/doc/*".toList,
    "path-include /usr/share/doc/*/copyright".toList, "path-exclude /usr/share/man/*".toList,
    "path-exclude /usr/share/groff/*".toList, "path-exclude /usr/share/info/*".toList,
    "path-exclude /usr/share/lintian/*".toList, "path-exclude /usr/share/linda/*".toList]

/-- Lines 229 to 329. -/
def buildBase (path : Text) : Sh RepoVars Host :=
  script [
    external i (.main 232),
    ifThen (call inv.env.wbCopyQemu) (orElse (external i (.main 242)) (external i (.retry 242))),
    write i (.main 248) .hosts (hostsLines i),
    external i (.main 257),
    external i (.main 259),
    write i (.main 261) .nodoc nodocLines,
    external i (.main 275),
    prepareChroot i,
    servicesDisable i,
    external i (.main 281),
    write i (.main 283) .sourcesList (sourcesList inv),
    installContactlessRepo set inv i,
    write i (.main 294) .aptPinTmp (wbInstallPins inv),
    boardOverrideRepos inv i,
    setupRepos set inv i (argWords inv),
    external i (.main 311),
    chrAptInstall i 314,
    write i (.main 315) .localeGen ["en_GB.UTF-8 UTF-8".toList, "en_US.UTF-8 UTF-8".toList,
      "ru_RU.UTF-8 UTF-8".toList],
    external i (.main 318),
    external i (.main 319),
    external i (.main 322),
    chrAptInstall i 324,
    makeTarball i path]

/-- Lines 210 to 330, on the tarball as it is. -/
def baseFrom (path : Text) (tarball : Option Tarball) : Sh RepoVars Host :=
  match tarball with
  | some base => useTarball set inv i base
  | none => buildBase set inv i path

/-- Lines 210 to 330. -/
def base (path : Text) : Sh RepoVars Host := fun errexit vars h =>
  baseFrom set inv i path (h.tarballs path) errexit vars h

/-- Lines 63 to 330: up to where both ways meet. -/
def toBase : Sh RepoVars Host :=
  script [
    andThen (simple fun vars h => (vars, h, h.tree.isSome)) (exit false),
    act (i.ok (.main 76)) fun h =>
      if i.ok (.main 76) then { h with tree := some fun _ => none } else h,
    checkRepos set inv,
    match rootfsBaseTarball inv set.workDir set.sha set.present with
    | some path => base set inv i path
    | none => exit false]

/-! ## The rest -/

/-- One step of `board_install`. -/
def boardStep (step : BoardStep) (n : Nat) : Sh RepoVars Host :=
  match step with
  | .setFdt name => write i (.board n) .uEnv (uEnvLines name)
  | _ => external i (.board n)

/-- `board_install`. -/
def boardInstall : Sh RepoVars Host :=
  script (inv.board.install.zipIdx.map fun p => boardStep i p.1 (p.2 + 2))

/-- `run_additional_script`. -/
def runAdditionalScript : Sh RepoVars Host :=
  match i.additionalScript with
  | none => call true
  | some lines => script [
      write i (.main 177) .additional lines,
      external i (.main 178),
      remove i (.main 179) .additional]

/-- Lines 411 to 422. -/
def clearMachineId : Sh RepoVars Host :=
  ifThen (call i.wbUtilsRecent)
    (script [
      remove i (.main 417) .machineId,
      remove i (.main 417) .dbusMachineId,
      write i (.main 418) .machineId ["uninitialized".toList]])

/-- Lines 332 to 374: the packages, the version and the board. -/
def installPackages : Sh RepoVars Host :=
  script [
    external i (.main 333),
    chrAptInstall i 336,
    external i (.main 338),
    external i (.main 339),
    external i (.main 343),
    write i (.main 345) .wbFwVersion [i.date],
    andThen (call inv.board.hasPackages) (chrAptInstall i 364),
    boardInstall inv i,
    ifThen (call i.mosquittoPid) (external i (.main 373))]

/-- Lines 376 to 393: the files that only the build needs. -/
def removeTemporary : Sh RepoVars Host :=
  script [
    remove i (.main 377) .addRepo,
    remove i (.main 378) .addRepoPin,
    remove i (.main 380) .localList,
    remove i (.main 381) .sourcesList,
    orElse (external i (.main 384)) (call true),
    onTree i (.main 389) fun t => Function.update t .hosts
      ((t .hosts).map fun lines => lines.filter fun l => !i.hostnameMatches l),
    remove i (.main 392) .aptListTmp,
    remove i (.main 393) .aptPinTmp]

/-- Lines 395 to 427. -/
def sealTree : Sh RepoVars Host :=
  script [
    ifThen (neg (call i.wbTempRepo)) (external i (.main 397)),
    runAdditionalScript i,
    ifThen (call (i.customTag ≠ [])) (write i (.main 403) .wbFwCustom [i.customTag]),
    external i (.main 407),
    external i (.main 408),
    external i (.main 409),
    clearMachineId i,
    exit true]

/-- Lines 332 to 427. -/
def finishTree : Sh RepoVars Host :=
  script [installPackages inv i, removeTemporary i, sealTree i]

/-- The whole script with its trap, under `set -e`. -/
def createRootfs (h : Host) : Result RepoVars Host :=
  trapped Host.trap (cleanupChroot i) (seq (toBase set inv i) (finishTree inv i)) true
    inv.env.repoVars { h with mounts := [], trap := false }

end Steps

end WirenBoard.Rootfs
