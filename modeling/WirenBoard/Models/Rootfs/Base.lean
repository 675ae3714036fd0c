import WirenBoard.Models.Rootfs.Repos

/-!
# The cached base root filesystem

`create_rootfs.sh` keeps the base tree in a tarball whose name is made of a few
variables and a hash. This module has the variables as the script computes them
from the board, the environment and the arguments, the name of the tarball, and
everything the branch that builds the base tree runs with.
-/

namespace WirenBoard.Rootfs

open Shell (Text)

/-! ## Boards -/

/-- The processors, by the files that boards include. -/
inductive Soc where
  | imx23 | imx28 | imx6ul | sun50iH616 | sun8iR40
  deriving DecidableEq

/-- `ARCH`. -/
def Soc.arch : Soc → Text
  | .imx23 => "armel".toList
  | .imx28 => "armel".toList
  | .imx6ul => "armhf".toList
  | .sun50iH616 => "arm64".toList
  | .sun8iR40 => "armhf".toList

/-- `REPO_PLATFORM`, where the file sets it. -/
def Soc.repoPlatform : Soc → Option Text
  | .imx23 => none
  | .imx28 => some "wb5".toList
  | .imx6ul => some "wb6".toList
  | .sun50iH616 => some "wb8".toList
  | .sun8iR40 => some "wb7".toList

/-- The boards. -/
inductive Board where
  | usbgadget2 | b28 | b32 | b4 | b5 | b55S | b55ZERO | b55 | b55P | b58S | b58ZERO | b58
  | usbgadget6 | b60 | b67 | b6x | usbgadget7 | b7x | b8x | acE1 | cqc10 | mka3 | mka31 | netmon
  deriving DecidableEq

/-- The processor file that a board includes. -/
def Board.soc : Board → Soc
  | .b28 | .b32 | .b4 | .acE1 | .cqc10 | .mka3 | .netmon => .imx23
  | .usbgadget2 | .b5 | .b55S | .b55ZERO | .b55 | .b55P | .b58S | .b58ZERO | .b58 | .mka31 => .imx28
  | .usbgadget6 | .b60 | .b67 | .b6x => .imx6ul
  | .usbgadget7 | .b7x => .sun8iR40
  | .b8x => .sun50iH616

/-- Whether a board includes `board_S.sh`, which overrides `board_override_repos`. -/
def Board.overridesRepos : Board → Bool
  | .b55S => true
  | .b58S => true
  | _ => false

/-! ## Variables -/

/-- The environment variables the base tree or its name can depend on. -/
structure Env where
  /-- `DEBIAN_RELEASE`. -/
  debianRelease : Text
  /-- `DEBIAN_MIRROR`. -/
  debianMirror : Text
  /-- `WB_REPO`. -/
  wbRepo : Text
  /-- `WB_REPO_PREFIX`. -/
  wbRepoPrefix : Text
  /-- `WB_RELEASE`. -/
  wbRelease : Text
  /-- `WB_TARGET`. -/
  wbTarget : Text
  /-- Whether `$WB_COPY_QEMU` succeeds as a command; not, when it is unset. -/
  wbCopyQemu : Bool
  /-- `ADD_REPO_RELEASE`. -/
  addRepoRelease : Text
  /-- `ADD_REPO_COMPONENT`. -/
  addRepoComponent : Text
  /-- `ADD_REPOS`. -/
  addRepos : Text
  /-- `REPO_PLATFORM`. -/
  repoPlatform : Text
  /-- `RELEASE`. -/
  release : Text
  /-- `repo_url`, `repo_release` and `repo_component`. -/
  repoVars : RepoVars
  deriving DecidableEq

/-- One invocation. -/
structure Invocation where
  /-- The first argument. -/
  board : Board
  /-- The other arguments. -/
  args : List Text
  /-- The environment. -/
  env : Env
  deriving DecidableEq

section Variables

variable (inv : Invocation)

/-- `DEBIAN_RELEASE`. -/
def debianRelease : Text := orDefault inv.env.debianRelease "bullseye".toList

/-- `DEBIAN_MIRROR`. -/
def debianMirror : Text :=
  orDefault inv.env.debianMirror "http://debian-mirror.wirenboard.com".toList

/-- `WB_REPO`. -/
def wbRepo : Text := orDefault inv.env.wbRepo "http://deb.wirenboard.com/".toList

/-- `WB_RELEASE`. -/
def wbRelease : Text := orDefault inv.env.wbRelease "stable".toList

/-- `DEFAULT_ADD_REPO_RELEASE` and `DEFAULT_ADD_REPO_COMPONENT`. -/
def repoDefaults : RepoDefaults :=
  ⟨orDefault inv.env.addRepoRelease (debianRelease inv),
    orDefault inv.env.addRepoComponent "main".toList⟩

/-- `ADD_REPOS`: the arguments, or the inherited value when there are none. -/
def addRepos : Text := if inv.args = [] then inv.env.addRepos else joinWords inv.args

/-- `ARCH`. -/
def arch : Text := inv.board.soc.arch

/-- `REPO_PLATFORM`, inherited where the board does not set it. -/
def repoPlatform : Text := inv.board.soc.repoPlatform.getD inv.env.repoPlatform

/-- `WB_TARGET`. -/
def wbTarget : Text := orDefault inv.env.wbTarget (repoPlatform inv ++ ['/'] ++ debianRelease inv)

/-- `sed 's#//\+#/#g'`. -/
def squeezeSlashes : Text → Text
  | [] => []
  | c :: t => if c = '/' ∧ t.head? = some '/' then squeezeSlashes t else c :: squeezeSlashes t

/-- `sed 's#http\(s\)\?:/#http\1://#g'`. -/
def restoreScheme : Text → Text
  | 'h' :: 't' :: 't' :: 'p' :: ':' :: '/' :: t => "http://".toList ++ restoreScheme t
  | 'h' :: 't' :: 't' :: 'p' :: 's' :: ':' :: '/' :: t => "https://".toList ++ restoreScheme t
  | c :: t => c :: restoreScheme t
  | [] => []

/-- `FULL_REPO_URL`. -/
def fullRepoUrl : Text :=
  restoreScheme (squeezeSlashes
    (wbRepo inv ++ ['/'] ++ inv.env.wbRepoPrefix ++ ['/'] ++ wbTarget inv))

/-- `sed 's#/#_#'`. -/
def underscoreFirst : Text → Text
  | [] => []
  | c :: t => if c = '/' then '_' :: t else c :: underscoreFirst t

/-- `WB_TARGET_FOR_FILENAME`; the unquoted expansion squeezes white space. -/
def wbTargetForFilename : Text := underscoreFirst (joinWords (words (wbTarget inv)))

/-! ## The name of the tarball -/

/-- What is hashed for the name. -/
def hashText : Text := arch inv ++ [' '] ++ fullRepoUrl inv ++ [' '] ++ addRepos inv

/-- `ROOTFS_BASE_SUFFIX`; `sha` is the 8-digit prefix of the hash of a line. -/
def rootfsBaseSuffix (sha : Text → Text) : Text :=
  wbRelease inv ++ ['_'] ++ wbTargetForFilename inv ++ ['_'] ++ debianRelease inv ++ "_r".toList ++
    sha (hashText inv)

/-- The variables after lines 118 to 121, which check the additional repositories. -/
def checkedVars (present : Text → Bool) : Option RepoVars :=
  if addRepos inv = [] then some inv.env.repoVars
  else checkAdditionalRepos (repoDefaults inv) present inv.env.repoVars (words (addRepos inv))

/-- `ROOTFS_BASE_TARBALL`, unless the check has stopped the script. -/
def rootfsBaseTarball (workDir : Text) (sha : Text → Text) (present : Text → Bool) : Option Text :=
  (checkedVars inv present).map fun _ =>
    workDir ++ "/rootfs_base_".toList ++ rootfsBaseSuffix inv sha ++ ".tar.gz".toList

/-! ## The branch that builds the base tree -/

/-- What the branch runs with. The lines and pins of the additional repositories are
those of their entries. -/
structure BuildInputs where
  /-- The architecture. -/
  arch : Text
  /-- The Debian release. -/
  debianRelease : Text
  /-- The mirror that `debootstrap` uses. -/
  repo : Text
  /-- Whether qemu is copied into the tree. -/
  copyQemu : Bool
  /-- `sources.list`. -/
  sourcesList : List Text
  /-- `wb-install-tmp.list`. -/
  wbInstallList : Text
  /-- `01wb-install-tmp`. -/
  wbInstallPins : List Text
  /-- The apt keys received and added. -/
  keys : List Text
  /-- The list file of an overriding board. -/
  overrideList : Option Text
  /-- The additional repositories set up; none when the set-up stops the script. -/
  additional : Option (List RepoVars)
  deriving DecidableEq

/-- `REPO`. -/
def repo : Text := debianMirror inv ++ "/debian".toList

/-- `REPO_SECURITY`. -/
def repoSecurity : Text := debianMirror inv ++ "/debian-security".toList

/-- Lines 283 to 289. -/
def sourcesList : List Text :=
  ["deb ".toList ++ repo inv ++ [' '] ++ debianRelease inv ++ " main".toList] ++
    (if debianRelease inv = "trixie".toList then
      ["deb ".toList ++ repo inv ++ [' '] ++ debianRelease inv ++ "-backports main".toList]
    else []) ++
    ["deb ".toList ++ repo inv ++ [' '] ++ debianRelease inv ++ "-updates main".toList,
      "deb ".toList ++ repoSecurity inv ++ [' '] ++ debianRelease inv ++ "-security main".toList]

/-- Lines 294 to 301. -/
def wbInstallPins : List Text :=
  ["Package: *".toList, "Pin: release o=wirenboard, a=".toList ++ wbRelease inv,
    "Pin-Priority: 990".toList] ++
    (if debianRelease inv = "trixie".toList then
      ["Package: src:curl:any src:ngtcp2:any src:nghttp3:any".toList,
        "Pin: release n=".toList ++ debianRelease inv ++ "-backports".toList,
        "Pin-Priority: 990".toList]
    else [])

/-- The keys of `install_contactless_repo` and the one that `board_S.sh` adds. -/
def aptKeys : List Text :=
  ["AEE07869".toList, "AA549AA8".toList] ++
    if inv.board.overridesRepos then ["http://release.sem365.ru/keysem365".toList] else []

/-- The list file that `board_S.sh` writes. -/
def overrideList : Option Text :=
  if inv.board.overridesRepos then
    some ("deb http://release.sem365.ru/ ".toList ++ inv.env.release ++ " main".toList)
  else none

/-- The words of `${@:2}`. -/
def argWords : List Text := inv.args.flatMap words

/-- The additional repositories set up from the arguments, with the variables that the
check has left. -/
def additionalRepos (present : Text → Bool) : Option (List RepoVars) :=
  (checkedVars inv present).bind fun vars =>
    setupAdditionalRepos (repoDefaults inv) vars (argWords inv)

/-- Lines 229 to 329, the parts that depend on the invocation. -/
def buildInputs (present : Text → Bool) : BuildInputs where
  arch := arch inv
  debianRelease := debianRelease inv
  repo := repo inv
  copyQemu := inv.env.wbCopyQemu
  sourcesList := sourcesList inv
  wbInstallList := "deb ".toList ++ fullRepoUrl inv ++ [' '] ++ wbRelease inv ++ " main".toList
  wbInstallPins := wbInstallPins inv
  keys := aptKeys inv
  overrideList := overrideList inv
  additional := additionalRepos inv present

end Variables

end WirenBoard.Rootfs
