import WirenBoard.Core.Simulation
import WirenBoard.Models.Image.Images

/-!
# Downloads leave no trace

Two runs of one invocation are compared: one on the host that earlier runs left, and one on
the host as it was in the beginning. The first one finds files that the second one has still
to download. As long as the server has what it is asked for, the trees name their device
trees, and the environment decides neither, both runs end in the same way and make the same
images.
-/

namespace WirenBoard.Image

open Shell

/-! ## Hosts that differ by downloads -/

section Pairs

variable {Blob : Type} {set : Setting Blob} {req : Request Blob} {i : Input Blob}
  {g g' h h' : Host Blob} {files : List Text}

/-- Where the first store has more than the second one, it has a file of the server that a
run would download. -/
def Covers (set : Setting Blob) (req : Request Blob) (server s t : Text → Option Blob) : Prop :=
  ∀ file, s file = t file ∨ (t file = none ∧ s file = server file ∧
    (server file).isSome = true ∧ (file ∈ asked set req → onS3 req = true))

/-- From two hosts on, the same images were made. -/
structure Logs (g g' h h' : Host Blob) : Prop where
  /-- The card images. -/
  imgs : ∃ new, h.imgs = g.imgs ++ new ∧ h'.imgs = g'.imgs ++ new
  /-- The updates. -/
  updates : ∃ new, h.updates = g.updates ++ new ∧ h'.updates = g'.updates ++ new

/-- Nothing has been made yet. -/
theorem Logs.refl (g g' : Host Blob) : Logs g g' g g' := ⟨⟨[], by simp⟩, ⟨[], by simp⟩⟩

/-- Two hosts in the middle of a run that has looked for these files. -/
structure Paired (set : Setting Blob) (req : Request Blob) (i : Input Blob) (g g' : Host Blob)
    (files : List Text) (h h' : Host Blob) : Prop where
  /-- The stores. -/
  store : Covers set req i.server h.store h'.store
  /-- A file that was looked for is in both stores or in neither. -/
  same : ∀ file ∈ files, h.store file = h'.store file
  /-- The images. -/
  logs : Logs g g' h h'

/-- A file that was looked for is missing on both hosts or on neither. -/
theorem Paired.absent (hp : Paired set req i g g' files h h') {file : Text}
    (hfile : file ∈ files) (hne : file ≠ dtbFile req []) :
    h.absent req file = h'.absent req file := by
  rw [absent_of_ne hne, absent_of_ne hne, hp.same file hfile]

/-- A download is stored under its name. -/
theorem downloaded_store {file : Text} (hne : file ≠ dtbFile req []) :
    (h.downloaded req i file).store file = some (fetched i file) := by
  simp [downloaded_of_ne hne]

private theorem downloaded_store_ne {file file' : Text} (hne : file' ≠ file) :
    (h.downloaded req i file).store file' = h.store file' := by
  unfold Host.downloaded
  split
  · rfl
  · exact Function.update_of_ne hne ..

/-- Stores that agree on one more file. -/
theorem Paired.of_store {k k' : Host Blob} {file : Text} (hp : Paired set req i g g' files h h')
    (hlogs : Logs g g' k k') (hsame : k.store file = k'.store file)
    (hother : ∀ file', file' ≠ file → k.store file' = h.store file' ∧
      k'.store file' = h'.store file') : Paired set req i g g' (file :: files) k k' := by
  refine ⟨fun file' => ?_, fun file' hmem => ?_, hlogs⟩
  · by_cases heq : file' = file
    · exact .inl (heq ▸ hsame)
    · rw [(hother file' heq).1, (hother file' heq).2]
      exact hp.store file'
  · by_cases heq : file' = file
    · exact heq ▸ hsame
    · rw [(hother file' heq).1, (hother file' heq).2]
      exact hp.same file' ((List.mem_cons.mp hmem).resolve_left heq)

/-- What the images are does not depend on the store. -/
theorem Logs.congr {k k' : Host Blob} (hl : Logs g g' h h') (himgs : k.imgs = h.imgs)
    (hupdates : k.updates = h.updates) (himgs' : k'.imgs = h'.imgs)
    (hupdates' : k'.updates = h'.updates) : Logs g g' k k' := by
  refine ⟨?_, ?_⟩
  · rw [himgs, himgs']
    exact hl.imgs
  · rw [hupdates, hupdates']
    exact hl.updates

private theorem downloaded_logs (req : Request Blob) (i : Input Blob) (h : Host Blob)
    (file : Text) :
    (h.downloaded req i file).imgs = h.imgs ∧ (h.downloaded req i file).updates = h.updates := by
  unfold Host.downloaded
  split <;> exact ⟨rfl, rfl⟩

private theorem madeDir_same (req : Request Blob) (h : Host Blob) (name : Text) :
    (h.madeDir req name).store = h.store ∧ (h.madeDir req name).imgs = h.imgs ∧
      (h.madeDir req name).updates = h.updates := by
  unfold Host.madeDir
  split <;> exact ⟨rfl, rfl, rfl⟩

/-- Directories do not show. -/
theorem Paired.madeDir (hp : Paired set req i g g' files h h') (name : Text) :
    Paired set req i g g' files (h.madeDir req name) (h'.madeDir req name) := by
  obtain ⟨hstore, himgs, hupdates⟩ := madeDir_same req h name
  obtain ⟨hstore', himgs', hupdates'⟩ := madeDir_same req h' name
  refine ⟨?_, ?_, hp.logs.congr himgs hupdates himgs' hupdates'⟩
  · rw [hstore, hstore']
    exact hp.store
  · rw [hstore, hstore']
    exact hp.same

/-- A download makes no image and no update. -/
theorem Logs.downloaded (hl : Logs g g' h h') (file : Text) :
    Logs g g' (h.downloaded req i file) (h'.downloaded req i file) := by
  obtain ⟨himgs, hupdates⟩ := downloaded_logs req i h file
  obtain ⟨himgs', hupdates'⟩ := downloaded_logs req i h' file
  exact hl.congr himgs hupdates himgs' hupdates'

private theorem Logs.addImg (hl : Logs g g' h h') (img : Img) :
    Logs g g' { h with imgs := h.imgs ++ [img] } { h' with imgs := h'.imgs ++ [img] } := by
  obtain ⟨new, hnew, hnew'⟩ := hl.imgs
  exact ⟨⟨new ++ [img], by rw [hnew, List.append_assoc], by rw [hnew', List.append_assoc]⟩,
    hl.updates⟩

private theorem Logs.addUpdate (hl : Logs g g' h h') (update : Text × Update.Its Blob) :
    Logs g g' { h with updates := h.updates ++ [update] }
      { h' with updates := h'.updates ++ [update] } := by
  obtain ⟨new, hnew, hnew'⟩ := hl.updates
  exact ⟨hl.imgs,
    ⟨new ++ [update], by rw [hnew, List.append_assoc], by rw [hnew', List.append_assoc]⟩⟩

/-- Both runs have the file behind a download, and end it alike. -/
theorem Paired.got (hp : Paired set req i g g' files h h') {file : Text}
    (hfile : file ∈ asked set req) (hne : file ≠ dtbFile req []) (errexit : Bool) :
    Paired set req i g g' (file :: files) (h.got req i file) (h'.got req i file) ∧
      h.gotEnding req i file errexit = h'.gotEnding req i file errexit := by
  rcases hp.store file with heq | ⟨hnone, hserver, hsome, hs3⟩
  · have habsent : h.absent req file = h'.absent req file := by
      rw [absent_of_ne hne, absent_of_ne hne, heq]
    refine ⟨?_, by rw [Host.gotEnding, Host.gotEnding, habsent]⟩
    unfold Host.got
    rw [habsent]
    split
    · exact hp.of_store (hp.logs.downloaded file)
        ((downloaded_store hne).trans (downloaded_store hne).symm) fun file' hne =>
          ⟨downloaded_store_ne hne, downloaded_store_ne hne⟩
    · exact hp.of_store hp.logs heq fun _ _ => ⟨rfl, rfl⟩
  · obtain ⟨b, hb⟩ := Option.isSome_iff_exists.mp hsome
    have hpresent : h.absent req file = false := by rw [absent_of_ne hne, hserver, hb]; rfl
    have habsent : h'.absent req file = true := by rw [absent_of_ne hne, hnone]; rfl
    simp only [Host.got, Host.gotEnding, hpresent, habsent, hs3 hfile, Bool.false_and,
      Bool.true_and, hsome, hne, ne_eq, not_false_eq_true, decide_true, finish_ok, ite_true]
    obtain ⟨himgs, hupdates⟩ := downloaded_logs req i h' file
    refine ⟨hp.of_store (hp.logs.congr rfl rfl himgs hupdates) ?_ fun file' hne =>
      ⟨rfl, downloaded_store_ne hne⟩, rfl⟩
    rw [downloaded_store hne, fetched, hb, Option.getD_some]
    exact hserver.trans hb

end Pairs

/-! ## Runs alike -/

section Alike

variable {Blob : Type} {set : Setting Blob} {req : Request Blob} {i : Input Blob}
  {g g' : Host Blob} {files : List Text} {X : Host Blob → Host Blob → Prop} {F : Vars → Prop}
  {errexit : Bool}

private theorem download_alike {file : Text} (hfile : file ∈ asked set req)
    (hne : file ≠ dtbFile req [])
    (hX : ∀ h h', Paired set req i g g' (file :: files) h h' → X h h') :
    Alike X errexit (fun v h h' => F v ∧ Paired set req i g g' files h h')
      (ifThen (andThen (missing req file) (call (onS3 req))) (fetch req i file))
      (ifThen (andThen (missing req file) (call (onS3 req))) (fetch req i file))
      fun v h h' => F v ∧ Paired set req i g g' (file :: files) h h' := by
  intro v h h' hp
  obtain ⟨hgot, hending⟩ := hp.2.got hfile hne errexit
  have houtcome := outcome_download req i file errexit v h'
  rw [← hending] at houtcome
  refine Result.Alike.of_outcome (outcome_download req i file errexit v h) houtcome ?_
  cases h.gotEnding req i file errexit with
  | status ok => exact ⟨hp.1, hgot⟩
  | exited ok => exact hX _ _ hgot
  | down => exact hX _ _ hgot

private theorem check_alike {file : Text} (hfile : file ∈ files) (hne : file ≠ dtbFile req [])
    (hX : ∀ h h', Paired set req i g g' files h h' → X h h') :
    Alike X errexit (fun v h h' => F v ∧ Paired set req i g g' files h h')
      (ifThen (andThen (missing req file) (call (!inRootfs req))) (exit false))
      (ifThen (andThen (missing req file) (call (!inRootfs req))) (exit false))
      fun v h h' => F v ∧ Paired set req i g g' files h h' := by
  have hX' : ∀ v h h', F v ∧ Paired set req i g g' files h h' → X h h' :=
    fun _ h h' hp => hX h h' hp.2
  refine .ifThen (.andThen ?_ (.call _ hX') fun _ _ _ hp => hp) (.exit _ hX') hX'
  exact .simple fun _ h h' hp => ⟨rfl, hp.2.absent hfile hne, hp, fun _ => hX h h' hp.2⟩

private theorem mkdirDtb_alike (name : Text) {X : Host Blob → Host Blob → Prop} :
    Alike X errexit (fun v h h' => F v ∧ Paired set req i g g' files h h')
      (mkdirDtb req name) (mkdirDtb req name)
      fun v h h' => F v ∧ Paired set req i g g' files h h' := by
  refine .simple fun v h h' hp => ⟨rfl, rfl, ⟨hp.1, hp.2.madeDir name⟩, by simp⟩

private theorem getDtb_alike {name : Text} (hname : dtbFile req name ∈ asked set req)
    (hne : dtbFile req name ≠ dtbFile req []) :
    Alike (Paired set req i g g' (dtbFile req name :: files)) errexit
      (fun v h h' => F v ∧ Paired set req i g g' files h h') (getDtb req i name)
      (getDtb req i name) fun _ => Paired set req i g g' (dtbFile req name :: files) := by
  refine .seq (mkdirDtb_alike name) ?_
  refine .seq (download_alike hname hne fun _ _ h => h) ?_
  refine .seq (check_alike (List.mem_cons_self ..) hne fun _ _ h => h) ?_
  exact (Alike.print _).post fun _ _ _ _ _ h => h.2

/-- Both runs get the file where the assignment succeeds. -/
theorem assignDtb_alike {name : Text} {G : Vars → Prop} {f : Text → Vars → Vars}
    (hname : dtbFile req name ∈ asked set req) (hne : dtbFile req name ≠ dtbFile req [])
    (hX : ∀ h h', Paired set req i g g' (dtbFile req name :: files) h h' → X h h')
    (hf : ∀ v, F v → G (f (captured [String.ofList (dtbFile req name)]) v)) :
    Alike X true (fun v h h' => F v ∧ Paired set req i g g' files h h')
      (assignFrom (getDtb req i name) f) (assignFrom (getDtb req i name) f)
      fun v h h' => G v ∧ Paired set req i g g' (dtbFile req name :: files) h h' := by
  refine (Alike.assignFrom (getDtb_alike hname hne) hX f).post
    fun v h h' hp hend hpaired => ⟨?_, hpaired⟩
  obtain ⟨ok, hend⟩ := hend
  rw [vars_assignDtb hend]
  exact hf v hp.1

private theorem zimageFile_ne (req' : Request Blob) (name : Text) :
    zimageFile req ≠ dtbFile req' name := by
  intro h
  have hhead := congrArg (List.take 1) h
  unfold zimageFile dtbFile at hhead
  rw [List.append_assoc, List.append_assoc, List.take_append_of_le_length (by decide),
    List.take_append_of_le_length (by decide)] at hhead
  exact absurd hhead (by decide)

/-- Different device trees have different paths. -/
theorem dtbFile_inj {name name' : Text} : dtbFile req name = dtbFile req name' ↔ name = name' :=
  List.append_right_inj _

private theorem getZimage_alike (hfile : zimageFile req ∈ asked set req)
    (hX : ∀ h h', Logs g g' h h' → X h h') :
    Alike X true (fun _ h h' => Paired set req i g g' files h h') (getZimage req i)
      (getZimage req i) fun v h h' => v.zimage = zimageFile req ∧
        Paired set req i g g' (zimageFile req :: files) h h' := by
  refine .seq (.call _ fun _ h h' hp => hX h h' hp.logs) ?_
  refine .seq
    (Q := fun v h h' => v.zimage = zimageFile req ∧ Paired set req i g g' files h h') ?_ ?_
  · exact .assign fun _ _ _ hp => ⟨rfl, hp⟩
  refine .seq (download_alike hfile (zimageFile_ne req []) fun h h' hp => hX h h' hp.logs) ?_
  exact check_alike (List.mem_cons_self ..) (zimageFile_ne req []) fun h h' hp => hX h h' hp.logs

private theorem createImage_alike (hd : Header) (hX : ∀ h h', Logs g g' h h' → X h h') :
    Alike X true (fun _ h h' => Paired set req i g g' files h h') (createImage set req i hd)
      (createImage set req i hd) fun _ h h' => Paired set req i g g' files h h' := by
  unfold createImage
  cases partStart (imageType req.board.soc) with
  | none => exact .call _ fun _ h h' hp => hX h h' hp.logs
  | some start =>
    refine .simple fun _ h h' hp => ?_
    cases i.ok .createImage with
    | false => exact ⟨rfl, rfl, hp, fun _ => hX h h' hp.logs⟩
    | true => exact ⟨rfl, rfl, ⟨hp.store, hp.same, hp.logs.addImg _⟩, by simp⟩

private theorem makeImg_alike (hd : Header) (hX : ∀ h h', Logs g g' h h' → X h h') :
    Alike X true (fun _ h h' => Paired set req i g g' files h h') (makeImg set req i hd)
      (makeImg set req i hd) fun _ h h' => Paired set req i g g' files h h' := by
  have hX' : ∀ (_ : Vars) h h', Paired set req i g g' files h h' → X h h' :=
    fun _ h h' hp => hX h h' hp.logs
  refine .ifThen (.call _ hX') (.seq (createImage_alike hd hX) ?_) hX'
  exact .call _ hX'

/-- A name that names a file and does not end in a newline. -/
def PlainName (name : Text) : Prop := name ≠ [] ∧ name.getLast? ≠ some '\n'

private theorem PlainName.ne {name : Text} (h : PlainName name) :
    dtbFile req name ≠ dtbFile req [] :=
  fun heq => h.1 (dtbFile_inj.mp heq)

/-- The path of a DTB is passed on as it is. -/
theorem PlainName.captured {name : Text} (h : PlainName name) :
    captured [String.ofList (dtbFile req name)] = dtbFile req name := by
  apply captured_line
  unfold dtbFile
  rw [List.getLast?_append_of_ne_nil _ h.1]
  exact h.2

/-- The tree names its device tree, and `FIT_IMAGE_DTB` is not inherited. -/
structure Named (set : Setting Blob) (req : Request Blob) : Prop where
  /-- The tree. -/
  target : ∀ hd, header set req = some hd → hd.targetDtbName ≠ []
  /-- The environment. -/
  unset : req.env.fitImageDtb = []

/-- The name of the target DTB comes out of a substitution. -/
theorem targetDtbName_eq {hd : Header} (hheader : header set req = some hd) :
    ∃ lines, hd.targetDtbName = substitute lines := by
  simp only [header, Option.bind_eq_bind, Option.bind_eq_some_iff, Option.pure_def,
    Option.some.injEq] at hheader
  obtain ⟨_, _, _, _, _, _, _, _, _, _, rfl⟩ := hheader
  exact ⟨_, rfl⟩

/-- The device tree of the target has a plain name. -/
theorem Named.plain_target (h : Named set req) {hd : Header} (hheader : header set req = some hd) :
    PlainName hd.targetDtbName := by
  refine ⟨h.target hd hheader, ?_⟩
  obtain ⟨lines, heq⟩ := targetDtbName_eq hheader
  rw [heq]
  exact getLast?_substitute lines

/-- So has the device tree of the boot stage. -/
theorem Named.plain_boot (h : Named set req) {hd : Header} (hheader : header set req = some hd) :
    PlainName (bootDtbName req hd) := by
  unfold bootDtbName
  split
  · rename_i hne
    refine ⟨hne, ?_⟩
    unfold fitDtb
    rw [h.unset]
    cases req.board.soc <;> decide
  · exact h.plain_target hheader

/-- Both runs call `create_update.sh` with the same files. -/
theorem makeUpdate_alike {hd : Header} (hnamed : Named set req)
    (hheader : header set req = some hd)
    (hzimage : zimageFile req ∈ files) (htarget : dtbFile req hd.targetDtbName ∈ files)
    (hboot : dtbFile req (bootDtbName req hd) ∈ files) :
    Alike (Logs g g') true
      (fun v h h' => v = updateVars req hd ∧ Paired set req i g g' files h h')
      (makeUpdate set req i hd) (makeUpdate set req i hd) fun _ => Logs g g' := by
  refine .simple fun v h h' hp => ?_
  obtain ⟨rfl, hp⟩ := hp
  have hplain := hnamed.plain_target hheader
  have hplain' := hnamed.plain_boot hheader
  have hdir (k : Host Blob) : k.targetIsDir req (updateVars req hd) = false := by
    simp [Host.targetIsDir, updateVars, hplain.captured, hplain.ne]
  have hdefaults : updateDefaults set (updateVars req hd) h.store =
      updateDefaults set (updateVars req hd) h'.store := by
    simp only [updateDefaults, updateVars, hplain.captured, hplain'.captured,
      hp.same _ hzimage, hp.same _ htarget, hp.same _ hboot]
  cases req.tree with
  | none => exact ⟨rfl, rfl, hp.logs, fun _ => hp.logs⟩
  | some tree =>
    dsimp only
    rw [hdir, hdir, hdefaults]
    split
    · exact ⟨rfl, rfl, hp.logs, fun _ => hp.logs⟩
    · split
      · exact ⟨rfl, rfl, hp.logs, fun _ => hp.logs⟩
      · exact ⟨rfl, rfl, hp.logs.addUpdate _, fun _ => hp.logs.addUpdate _⟩

/-- Two runs on hosts that differ by downloads. -/
theorem run_alike {h h' : Host Blob} (hstore : Covers set req i.server h.store h'.store)
    (hnamed : Named set req) :
    (run set req i h).Alike (Logs h h') (fun _ => Logs h h') (run set req i h') := by
  unfold run createImages
  cases hheader : header set req with
  | none => exact ⟨rfl, rfl, rfl, Logs.refl h h'⟩
  | some hd =>
    have hlogs : ∀ k k', Logs h h' k k' → Logs h h' k k' := fun _ _ h => h
    have halike : Alike (Logs h h') true (fun _ => Paired set req i h h' [])
        (createFrom set req i hd) (createFrom set req i hd) fun _ => Logs h h' := by
      refine .seq (.call _ fun _ _ _ hp => hp.logs) ?_
      refine .seq (makeImg_alike hd hlogs) ?_
      refine .seq (getZimage_alike (zimageFile_mem_asked hheader) hlogs) ?_
      refine .seq (assignDtb_alike (G := TargetSet req hd) (targetDtb_mem_asked hheader)
        (hnamed.plain_target hheader).ne (fun _ _ hp => hp.logs) fun v hv => .of_zimage hv) ?_
      refine .seq (assignDtb_alike (G := fun v => v = updateVars req hd)
        (bootDtb_mem_asked hheader) (hnamed.plain_boot hheader).ne (fun _ _ hp => hp.logs)
        fun v hv => hv.boot) ?_
      have hmem : dtbFile req hd.targetDtbName ∈
          [dtbFile req (bootDtbName req hd), dtbFile req hd.targetDtbName, zimageFile req] :=
        List.mem_cons_of_mem _ (List.mem_cons_self ..)
      exact makeUpdate_alike hnamed hheader
        (List.mem_cons_of_mem _ (List.mem_cons_of_mem _ (List.mem_cons_self ..))) hmem
        (List.mem_cons_self ..)
    exact halike ⟨[], [], []⟩ h h' ⟨hstore, by simp, Logs.refl h h'⟩

end Alike

/-! ## Over many runs -/

section Many

variable {Blob : Type} {set : Setting Blob} {server : Text → Option Blob} {h₀ h : Host Blob}
  {req : Request Blob} {i : Input Blob}

/-- The server has what a run asks it for and the host did not have in the beginning. Whether
a run asks is decided by its board. -/
structure Served (set : Setting Blob) (server : Text → Option Blob) (h₀ : Host Blob)
    (req : Request Blob) (i : Input Blob) : Prop where
  /-- The server. -/
  server_eq : i.server = server
  /-- The files. -/
  found : onS3 req = true → ∀ file ∈ asked set req,
    (server file).isSome = true ∨ (h₀.store file).isSome = true
  /-- `BOARD_BOOTLET_ON_S3` is not inherited. -/
  unset : req.env.boardBootletOnS3 = []
  /-- The names. -/
  named : Named set req

/-- The flavour decides whether a run asks the server. -/
theorem onS3_eq (hunset : req.env.boardBootletOnS3 = []) :
    onS3 req = (kernelFlavour req.board.soc = "wb6".toList ∨
      kernelFlavour req.board.soc = "wb7".toList : Bool) := by
  unfold onS3
  rw [hunset]
  cases req.board.soc <;> decide

private theorem length_kernelFlavour (soc : Rootfs.Soc) : (kernelFlavour soc).length = 3 := by
  cases soc <;> rfl

private theorem mem_asked {file : Text} (h : file ∈ asked set req) :
    file = zimageFile req ∨ ∃ name, file = dtbFile req name := by
  unfold asked at h
  cases hheader : header set req with
  | none => simp [hheader] at h
  | some hd =>
    simp only [hheader, List.mem_cons, List.not_mem_nil, or_false] at h
    rcases h with h | h | h
    · exact .inl h
    · exact .inr ⟨_, h⟩
    · exact .inr ⟨_, h⟩

/-- A file is of one flavour. -/
theorem kernelFlavour_eq_of_asked {req' : Request Blob} {file : Text}
    (h : file ∈ asked set req) (h' : file ∈ asked set req') :
    kernelFlavour req.board.soc = kernelFlavour req'.board.soc := by
  rcases mem_asked h with hz | ⟨name, hd⟩
  · rcases mem_asked h' with hz' | ⟨name', hd'⟩
    · exact List.append_cancel_left (hz.symm.trans hz')
    · exact absurd (hz.symm.trans hd') (zimageFile_ne req' name')
  · rcases mem_asked h' with hz' | ⟨name', hd'⟩
    · exact absurd (hz'.symm.trans hd) (zimageFile_ne req name)
    · have heq := hd.symm.trans hd'
      unfold dtbFile at heq
      rw [List.append_assoc, List.append_assoc, List.append_assoc, List.append_assoc] at heq
      have hrest := List.append_cancel_left heq
      exact List.append_inj_left hrest (by rw [length_kernelFlavour, length_kernelFlavour])

/-- What the store has more than in the beginning is from the server, for a run that asks
it. -/
def Filled (set : Setting Blob) (server : Text → Option Blob) (h₀ h : Host Blob) : Prop :=
  ∀ file, h.store file = h₀.store file ∨ (h₀.store file = none ∧ h.store file = server file ∧
    (server file).isSome = true ∧
    ∃ req, req.env.boardBootletOnS3 = [] ∧ file ∈ asked set req ∧ onS3 req = true)

/-- A store filled by earlier runs covers the one that these started with. -/
theorem Filled.covers (hfilled : Filled set server h₀ h) (hserved : Served set server h₀ req i) :
    Covers set req i.server h.store h₀.store := by
  intro file
  rw [hserved.server_eq]
  refine (hfilled file).imp_right fun ⟨hnone, heq, hsome, req', hunset, hasked, hs3⟩ =>
    ⟨hnone, heq, hsome, fun hfile => ?_⟩
  rw [onS3_eq hserved.unset, kernelFlavour_eq_of_asked hfile hasked, ← onS3_eq hunset]
  exact hs3

/-- A run fills the store from the server only. -/
theorem filled_closed (hserved : Served set server h₀ req i) :
    Closed set req i (Filled set server h₀) where
  mkdir _ _ hfilled := hfilled
  download h file hfilled hasked hs3 hmissing := by
    intro file'
    by_cases heq : file' = file
    · subst heq
      have hnone : h₀.store file' = none := by
        rcases hfilled file' with h | ⟨h, _⟩
        · exact h.symm.trans hmissing
        · exact h
      have hsome : (server file').isSome = true :=
        (hserved.found hs3 file' hasked).resolve_right (by simp [hnone])
      obtain ⟨b, hb⟩ := Option.isSome_iff_exists.mp hsome
      refine .inr ⟨hnone, ?_, hsome, req, hserved.unset, hasked, hs3⟩
      simp [fetched, hserved.server_eq, hb]
    · simp only [Function.update_of_ne heq]
      exact hfilled file'
  img _ _ _ _ hfilled _ := hfilled
  update _ _ _ hfilled := hfilled

end Many

/-- A host without files and images. -/
def Host.none {Blob : Type} : Host Blob := ⟨fun _ => .none, fun _ => false, [], []⟩

/-- A run whose files are all on the server. -/
theorem Served.of_names {Blob : Type} {set : Setting Blob} {req : Request Blob} {i : Input Blob}
    (name : Text) (hunset : req.env.boardBootletOnS3 = [] ∧ req.env.fitImageDtb = [])
    (hall : ((asked set req).all fun file => (i.server file).isSome) = true)
    (hname : (header set req).map Header.targetDtbName = some name) (hne : name ≠ []) :
    Served set i.server .none req i where
  server_eq := rfl
  found _ file hfile := .inl (List.all_eq_true.mp hall file hfile)
  unset := hunset.1
  named := by
    refine ⟨fun hd hheader => ?_, hunset.2⟩
    rw [hheader] at hname
    obtain rfl := Option.some.inj hname
    exact hne

private theorem served_cards : Served .local Input.full.server .none .cards .full :=
  .of_names "wb7.dtb".toList ⟨rfl, rfl⟩ (by decide +kernel) (by decide +kernel) (by decide)

end WirenBoard.Image
