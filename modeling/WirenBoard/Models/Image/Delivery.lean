import WirenBoard.Models.Image.Downloads
import WirenBoard.Models.Install.Outcomes
import WirenBoard.Models.Rootfs.Builds

/-!
# From a board to the devices that accept its update

The scripts pass the board on: `create_rootfs.sh` writes the device tree of the board into
`uEnv.txt`, `create_images.sh` takes the name of the target DTB from there,
`create_update.sh` takes the compatibility of the update from that DTB, and
`install_update.sh` compares it with the device. On a machine that had no kernels and DTBs
in the beginning, an update is installed only where the device names what the DTB of its
board says.
-/

namespace WirenBoard.Image

open Shell

open Update (Its Tools)

/-! ## The device tree of a board -/

/-- The file name of the device tree of a board. -/
def boardDtb (board : Rootfs.Board) : Text := board.fdt.toList ++ ".dtb".toList

private theorem fdtFile_cons (name : Text) (lines : List Text) :
    fdtFile (("fdt_file=/boot/dtbs/".toList ++ name) :: lines) = name :: fdtFile lines := by
  unfold fdtFile
  exact List.filterMap_cons_some (List.dropPrefix?_append_of_beq name BEq.rfl)

/-- `sed` finds the name again that `set_fdt` has written. -/
theorem fdtFile_uEnvLines (name : String) :
    fdtFile (Rootfs.uEnvLines name) = [name.toList ++ ".dtb".toList] := by
  have hsplit : Rootfs.uEnvLines name = (Rootfs.uEnvLines "").take 6 ++
      (("fdt_file=/boot/dtbs/".toList ++ (name.toList ++ ".dtb".toList)) ::
        (Rootfs.uEnvLines "").drop 7) := rfl
  have hbefore : fdtFile ((Rootfs.uEnvLines "").take 6) = [] := by decide +kernel
  have hbehind : fdtFile ((Rootfs.uEnvLines "").drop 7) = [] := by decide +kernel
  calc fdtFile (Rootfs.uEnvLines name)
    _ = fdtFile ((Rootfs.uEnvLines "").take 6) ++
        fdtFile (("fdt_file=/boot/dtbs/".toList ++ (name.toList ++ ".dtb".toList)) ::
          (Rootfs.uEnvLines "").drop 7) := by
      rw [hsplit]
      exact List.filterMap_append
    _ = [name.toList ++ ".dtb".toList] := by
      rw [hbefore, fdtFile_cons, hbehind, List.nil_append]

private theorem boardDtb_ne_nil (board : Rootfs.Board) : boardDtb board ≠ [] := by simp [boardDtb]

private theorem substitute_boardDtb (board : Rootfs.Board) :
    substitute [boardDtb board] = boardDtb board := by
  apply substitute_line
  unfold boardDtb
  rw [List.getLast?_append_of_ne_nil _ (by decide)]
  decide

/-! ## What a build shows -/

/-- A successful build of a board on a date has left this tree. -/
def Built (board : Rootfs.Board) (date : Text) (t : Rootfs.Tree) : Prop :=
  ∃ set inv i h, Rootfs.Discreet i Rootfs.ownFiles ∧
    (Rootfs.createRootfs set inv i h).ending = .exited true ∧
    (Rootfs.createRootfs set inv i h).world.tree = some t ∧ inv.board = board ∧ i.date = date

/-- A finished tree names its device tree and holds the version. -/
theorem Built.files {board : Rootfs.Board} {date : Text} {t : Rootfs.Tree}
    (h : Built board date t) :
    t .uEnv = some (Rootfs.uEnvLines board.fdt) ∧ t .wbFwVersion = some [date] := by
  obtain ⟨set, inv, i, h, hdiscreet, hexit, ht, rfl, rfl⟩ := h
  have hend := (Rootfs.createRootfs_success set inv hdiscreet h).ending
  rw [hexit] at hend
  obtain ⟨_, t', ht', hagrees⟩ := hend rfl
  obtain rfl := Option.some.inj (ht.symm.trans ht')
  exact ⟨hagrees (.uEnv, _) (by simp [Rootfs.finishedFiles]),
    hagrees (.wbFwVersion, _) (by simp [Rootfs.finishedFiles])⟩

/-- The two files of a build that the image scripts read. -/
structure Shows {Blob : Type} (tools : Tools Blob) (t : Rootfs.Tree) (tree : Update.Tree Blob) :
    Prop where
  /-- The version. -/
  version : (tree Update.versionPath).map tools.cat = t .wbFwVersion
  /-- The device tree. -/
  uEnv : (tree uEnvPath).map tools.cat = t .uEnv

/-! ## The target DTB -/

section Target

variable {Blob : Type} {set : Setting Blob} {req : Request Blob} {i : Input Blob}
  {server : Text → Option Blob} {h : Host Blob}

private theorem header_uEnv {tree : Update.Tree Blob} {hd : Header} (htree : req.tree = some tree)
    (hheader : header set req = some hd) :
    ∃ uEnv, tree uEnvPath = some uEnv ∧
      hd.targetDtbName = substitute (fdtFile (set.tools.cat uEnv)) := by
  simp only [header, Option.bind_eq_bind, Option.bind_eq_some_iff, htree, Option.some.injEq,
    exists_eq_left', Option.pure_def] at hheader
  obtain ⟨_, _, _, _, _, _, uEnv, huEnv, rfl⟩ := hheader
  exact ⟨uEnv, huEnv, rfl⟩

/-- The target DTB has the name of the board's device tree. -/
theorem targetDtbName_of_built {t : Rootfs.Tree} {tree : Update.Tree Blob} {date : Text}
    {hd : Header} (hbuilt : Built req.board date t) (htree : req.tree = some tree)
    (hshows : Shows set.tools t tree) (hheader : header set req = some hd) :
    hd.targetDtbName = boardDtb req.board := by
  obtain ⟨uEnv, huEnv, hname⟩ := header_uEnv htree hheader
  have hcat : set.tools.cat uEnv = Rootfs.uEnvLines req.board.fdt := by
    have h := hshows.uEnv.trans hbuilt.files.1
    rw [huEnv] at h
    exact Option.some.inj h
  rw [hname, hcat, fdtFile_uEnvLines]
  exact substitute_boardDtb req.board

/-- A file that is asked for is there in the end. -/
theorem got_store {file : Text} (hs3 : onS3 req = true) (hfile : file ≠ dtbFile req []) :
    ((h.got req i file).store file).isSome = true := by
  unfold Host.got
  rw [hs3, Bool.and_true, absent_of_ne hfile]
  cases hstore : h.store file with
  | none => simp [downloaded_store hfile]
  | some b => simp [hstore]

private theorem world_assignDtb (name : Text) (f : Text → Vars → Vars) (v : Vars) (h : Host Blob) :
    (assignFrom (getDtb req i name) f true v h).world = h.gotDtb req i name := by
  obtain ⟨found, hwrites⟩ := writes_getDtb (i := i) name h
  have houtcome := hwrites.assignFrom (by cases found <;> simp) f true v
  exact congrArg Outcome.world houtcome

private theorem has_closed (file : Text) :
    Closed set req i fun h => (h.store file).isSome = true where
  mkdir _ _ hsome := hsome
  download h file' hsome _ _ _ := by
    by_cases heq : file = file'
    · simp [heq]
    · simpa [Function.update_of_ne heq] using hsome
  img _ _ _ _ hsome _ := hsome
  update _ _ _ hsome := hsome

/-- A run that asks the server has the target DTB in the end. -/
theorem run_has_target {hd : Header} {ok : Bool} (hheader : header set req = some hd)
    (hs3 : onS3 req = true) (hname : hd.targetDtbName ≠ [])
    (hend : (run set req i h).ending = .status ok) :
    ((run set req i h).world.store (dtbFile req hd.targetDtbName)).isSome = true := by
  have hspec : Spec (fun _ => True) (fun _ _ => True) true (fun _ _ => True)
      (createFrom set req i hd) fun _ _ w =>
        (w.store (dtbFile req hd.targetDtbName)).isSome = true := by
    have hhas : Closed set req i _ := has_closed (dtbFile req hd.targetDtbName)
    refine Spec.seq (R := fun _ _ _ => True) Spec.top fun _ => ?_
    refine Spec.seq (R := fun _ _ _ => True) Spec.top fun _ => ?_
    refine Spec.seq (R := fun _ _ _ => True) Spec.top fun _ => ?_
    refine Spec.seq (R := fun _ _ w => (w.store (dtbFile req hd.targetDtbName)).isSome = true)
      (Spec.post (Q := fun _ _ _ => True) Spec.top fun v w _ _ _ _ => ?_) fun _ => ?_
    · rw [world_assignDtb]
      exact got_store hs3 fun h => hname (dtbFile_inj.mp h)
    refine Spec.seq ((Keeps.assignFrom (getDtb_keeps hhas.toGrows (bootDtb_mem_asked hheader))
      _).alone true) fun _ => ?_
    exact (makeUpdate_keeps hhas hd).alone true
  have hmeets := hspec ⟨[], [], []⟩ h trivial trivial
  have hrun : run set req i h = createFrom set req i hd true ⟨[], [], []⟩ h := by
    rw [run, createImages, hheader]
  have hpost := hmeets.ending
  rw [← hrun, hend] at hpost
  exact hpost

/-- The DTB that stands for the board: the one on the server for a run that asks it, else the
boot DTB of the tree. -/
def deviceTree (server : Text → Option Blob) (req : Request Blob) (tree : Update.Tree Blob) :
    Option Blob :=
  if onS3 req then server (dtbFile req (boardDtb req.board)) else tree Update.bootDtbPath

private theorem run_filled (hreach : Reached set (Served set server .none) .none h)
    (hserved : Served set server .none req i) :
    Filled set server .none (run set req i h).world :=
  run_keeps (filled_closed hserved)
    (hreach.keeps (fun _ _ hserved => filled_closed hserved) fun _ => .inl rfl)
    (List.mem_cons_self ..)

/-- A run that asks the server has its target DTB in the end. -/
theorem store_target {hd : Header} {ok : Bool}
    (hfilled : Filled set server .none (run set req i h).world) (hs3 : onS3 req = true)
    (hheader : header set req = some hd) (hname : hd.targetDtbName ≠ [])
    (hend : (run set req i h).ending = .status ok) :
    ∃ dtb, server (dtbFile req hd.targetDtbName) = some dtb ∧
      (run set req i h).world.store (dtbFile req hd.targetDtbName) = some dtb := by
  obtain ⟨dtb, hdtb⟩ :=
    Option.isSome_iff_exists.mp (run_has_target hheader hs3 hname hend)
  rcases hfilled (dtbFile req hd.targetDtbName) with heq | ⟨_, heq, _⟩
  · exact absurd (heq.symm.trans hdtb) (by simp [Host.none])
  · exact ⟨dtb, heq.symm.trans hdtb, hdtb⟩

/-- A run that does not ask the server finds nothing of its flavour. -/
theorem store_unasked {file : Text} (hfilled : Filled set server .none h)
    (hserved : Served set server .none req i) (hs3 : onS3 req = false)
    (hasked : file ∈ asked set req) : h.store file = none := by
  rcases hfilled file with heq | ⟨_, _, _, req', hunset, hasked', hs3'⟩
  · exact heq
  · have hflavour := onS3_eq hserved.unset
    rw [kernelFlavour_eq_of_asked hasked hasked', ← onS3_eq hunset, hs3', hs3] at hflavour
    exact absurd hflavour (by simp)

/-- A run that makes an update finds the DTB that stands for the board: its target DTB where it
has one in the end, else the boot DTB that it packs. -/
private theorem deviceTree_eq {hd : Header} {ok : Bool} {tree : Update.Tree Blob} {dtb : Blob}
    (hfilled : Filled set server .none (run set req i h).world)
    (hserved : Served set server .none req i) (hheader : header set req = some hd)
    (hname : hd.targetDtbName = boardDtb req.board) (hend : (run set req i h).ending = .status ok)
    (hboot : Update.bootDtb (updateDefaults set (updateVars req hd) (run set req i h).world.store)
      tree = some dtb) :
    deviceTree server req tree =
      some (Option.getD ((run set req i h).world.store (updateVars req hd).targetDtb) dtb) := by
  simp only [Update.bootDtb, updateDefaults, updateVars,
    (hserved.named.plain_boot hheader).captured] at hboot
  simp only [updateVars, (hserved.named.plain_target hheader).captured]
  unfold deviceTree
  cases hs3 : onS3 req with
  | true =>
    obtain ⟨target, hserver, hstore⟩ :=
      store_target hfilled hs3 hheader (hname ▸ boardDtb_ne_nil _) hend
    rw [hstore, if_pos rfl, ← hname, hserver, Option.getD_some]
  | false =>
    rw [store_unasked hfilled hserved hs3 (bootDtb_mem_asked hheader), Option.or_none] at hboot
    rw [store_unasked hfilled hserved hs3 (targetDtb_mem_asked hheader), Option.getD_none]
    simpa using hboot

end Target

/-! ## The devices -/

/-- `fit_prop_string / compatible` of an update. -/
def fitCompat {Blob : Type} (its : Its Blob) : String :=
  String.ofList its.compatible

/-- A device that accepts an update without being forced names what the update is for. -/
theorem mem_compatibles_of_success {i : Install.Input} {d : Install.Device}
    (hne : i.fitCompat ≠ "") (hforce : i.flags.forceCompatible = false)
    (hsuccess : (Install.install i d).ending = .exited true) :
    i.fitCompat ∈ i.compatibles ∨ i.fitCompat = "unknown" := by
  have hcheck := (Install.install_success hsuccess).1.1.resolve_left (by simp [hforce])
  unfold Install.checkCompatible at hcheck
  split at hcheck
  · rename_i h
    exact .inr (h.resolve_left hne)
  · exact .inl (by simpa using hcheck)

/-- The values of an update for a device tree. -/
def deviceValues {Blob : Type} (tools : Tools Blob) (tree : Update.Tree Blob) (date : Text)
    (release : Update.Release) (dtb : Blob) : Update.Values :=
  ⟨Update.dtbGetCompatible tools dtb, substitute [date], Update.getFirmwareCompatible tools tree,
    release⟩

/-- An update made from a build of a board, on a machine that had no kernels and DTBs in the
beginning and whose server has what it is asked for, from values that stand for themselves in
JSON, carries the date of the build and is for the device tree of that board. No device
installs it without being forced unless it names that device tree as its own. -/
theorem update_follows_board {Blob : Type} {set : Setting Blob} {server : Text → Option Blob}
    {h : Host Blob} {req : Request Blob} {i : Input Blob} {ok : Bool} {date : Text}
    {t : Rootfs.Tree} {tree : Update.Tree Blob} (hbuilt : Built req.board date t)
    (htree : req.tree = some tree) (hshows : Shows set.tools t tree)
    (hreach : Reached set (Served set server .none) .none h)
    (hserved : Served set server .none req i)
    (hplain : ∀ release dtb, (tree Update.releasePath).bind set.tools.source = some release →
      deviceTree server req tree = some dtb → (deviceValues set.tools tree date release dtb).Plain)
    (hend : (run set req i h).ending = .status ok) :
    ∃ name its release dtb, (run set req i h).world.updates = h.updates ++ [(name, its)] ∧
      deviceTree server req tree = some dtb ∧
      its.toValues = deviceValues set.tools tree date release dtb ∧
      ∀ (j : Install.Input) (d : Install.Device), j.fitCompat = fitCompat its →
        j.flags.forceCompatible = false → (Install.install j d).ending = .exited true →
        fitCompat its ∈ j.compatibles ∨ fitCompat its = "unknown" := by
  obtain ⟨hd, tree', its, hheader, htree', hupdate, hupdates⟩ := run_update hend
  obtain rfl := Option.some.inj (htree.symm.trans htree')
  obtain ⟨version, release, hversion, hrelease, hmakes⟩ :=
    Update.createUpdate_directory_eq_ok_iff.mp hupdate
  have hname := targetDtbName_of_built hbuilt htree hshows hheader
  have hdtb := deviceTree_eq (run_filled hreach hserved) hserved hheader hname hend hmakes.dtb
  have hcat : set.tools.cat version = [date] := by
    have hcat := hshows.version.trans hbuilt.files.2
    rw [hversion] at hcat
    exact Option.some.inj hcat
  obtain ⟨dtb, hchosen⟩ : ∃ dtb, Option.getD
      ((run set req i h).world.store (updateVars req hd).targetDtb) its.dtb = dtb := ⟨_, rfl⟩
  rw [hchosen] at hdtb
  have hcompatible : Update.compatibleOf set.tools
      (updateDefaults set (updateVars req hd) (run set req i h).world.store) its.dtb =
        Update.dtbGetCompatible set.tools dtb := by rw [← hchosen]; rfl
  have hvalues : its.toValues = deviceValues set.tools tree date release dtb := by
    have hpasted := hmakes.values
    rw [hcompatible, Update.Given.values, Update.given, hcat] at hpasted
    exact Option.some.inj
      (hpasted.symm.trans (set.tools.j2_plain _ (hplain release dtb hrelease hdtb)))
  refine ⟨_, its, release, dtb, hupdates, hdtb, hvalues, fun j d hfit hforce hsuccess => ?_⟩
  have hne : fitCompat its ≠ "" := by
    intro hempty
    have hnil : its.compatible = [] := by simpa [fitCompat] using hempty
    rw [hvalues] at hnil
    exact hmakes.compatible (hcompatible.trans hnil)
  rw [← hfit] at hne ⊢
  exact mem_compatibles_of_success hne hforce hsuccess

/-- A tree of board 7x. -/
def tree7x : Update.Tree Update.File := fun path => [
  (Update.versionPath, .text ["202401010000".toList]),
  (Update.releasePath, .text ["SUITE=stable".toList]),
  (osReleasePath, .text ["VERSION_CODENAME=bullseye".toList]),
  (uEnvPath, .text (Rootfs.uEnvLines "sun8i-r40-wirenboard720"))].lookup path

/-- An invocation on it. -/
def Request.of7x : Request Update.File := { Request.cards with tree := some tree7x }

/-- A server with the files for it. -/
def Input.of7x : Input Update.File := { Input.full with
  server := fun file => [
    ("zImage.wb7".toList, .text [['k']]),
    ("dtbs/wb7/sun8i-r40-wirenboard720.dtb".toList,
      .dtb "wirenboard,wirenboard-720".toList)].lookup file }

private theorem served_7x : Served .local Input.of7x.server .none .of7x .of7x :=
  .of_names (boardDtb .b7x) ⟨rfl, rfl⟩ (by decide +kernel) (by decide +kernel) (by decide +kernel)

/-- The first update of board 7x. -/
theorem update_follows_board_7x :
    ∃ name its release dtb, (run .local .of7x .of7x .none).world.updates = [(name, its)] ∧
      deviceTree Input.of7x.server .of7x tree7x = some dtb ∧
      its.toValues =
        deviceValues Update.fileTools tree7x "202401010000".toList release dtb ∧
      ∀ (j : Install.Input) (d : Install.Device), j.fitCompat = fitCompat its →
        j.flags.forceCompatible = false → (Install.install j d).ending = .exited true →
        fitCompat its ∈ j.compatibles ∨ fitCompat its = "unknown" := by
  have hexit : (Rootfs.createRootfs .local ⟨.b7x, [], Rootfs.plainEnv⟩ (.failingAt none)
      .empty).ending = .exited true := by decide +kernel
  obtain ⟨t, ht⟩ : ∃ t, (Rootfs.createRootfs .local ⟨.b7x, [], Rootfs.plainEnv⟩
      (.failingAt none) .empty).world.tree = some t :=
    Option.isSome_iff_exists.mp (by decide +kernel)
  have hbuilt : Built Request.of7x.board "202401010000".toList t :=
    ⟨.local, _, .failingAt none, .empty, fun _ _ _ _ => ⟨rfl, rfl⟩, hexit, ht, rfl, rfl⟩
  have hshows : Shows Update.fileTools t tree7x :=
    ⟨.trans (by decide +kernel) hbuilt.files.2.symm,
      .trans (by decide +kernel) hbuilt.files.1.symm⟩
  refine update_follows_board hbuilt rfl hshows .start served_7x (fun release dtb hr hd => ?_)
    (show _ = Ending.status true by decide +kernel)
  have hrelease : (tree7x Update.releasePath).bind Update.fileTools.source =
      some ⟨[], "stable".toList, [], []⟩ := by decide +kernel
  have hdtb : deviceTree Input.of7x.server .of7x tree7x =
      some (.dtb "wirenboard,wirenboard-720".toList) := by decide +kernel
  obtain rfl := Option.some.inj (hrelease.symm.trans hr)
  obtain rfl := Option.some.inj (hdtb.symm.trans hd)
  decide +kernel

end WirenBoard.Image
