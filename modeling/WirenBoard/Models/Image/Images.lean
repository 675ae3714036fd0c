import WirenBoard.Models.Image.Script
import WirenBoard.Models.Update.Forms
import Mathlib.Data.List.Pairwise

/-!
# The images of many runs

A run changes its host in four ways: it makes the directory of a flavour, it downloads a file
that is missing, it adds a card image and it adds an update. What these keep holds in every
host that runs leave, whether they come to their end or are cut short between two commands.
So a file of the store is never replaced, not even one that a failed download has torn, and
every card image is sound.
-/

namespace WirenBoard.Image

open Shell

open Update (Its)

/-! ## The four changes -/

section Changes

variable {Blob : Type} {set : Setting Blob} {req : Request Blob} {i : Input Blob}
  {A : Host Blob → Prop}

/-- The files that a run can download. -/
def asked (set : Setting Blob) (req : Request Blob) : List Text :=
  match header set req with
  | none => []
  | some h => [zimageFile req, dtbFile req h.targetDtbName, dtbFile req (bootDtbName req h)]

private theorem asked_eq {hd : Header} (hheader : header set req = some hd) : asked set req =
    [zimageFile req, dtbFile req hd.targetDtbName, dtbFile req (bootDtbName req hd)] := by
  rw [asked, hheader]

/-- A run asks for the kernel of its boot stage. -/
theorem zimageFile_mem_asked {hd : Header} (hheader : header set req = some hd) :
    zimageFile req ∈ asked set req := by
  rw [asked_eq hheader]
  exact List.mem_cons_self ..

/-- A run asks for the device tree of the target. -/
theorem targetDtb_mem_asked {hd : Header} (hheader : header set req = some hd) :
    dtbFile req hd.targetDtbName ∈ asked set req := by
  rw [asked_eq hheader]
  exact List.mem_cons_of_mem _ (List.mem_cons_self ..)

/-- A run asks for the device tree of the boot stage. -/
theorem bootDtb_mem_asked {hd : Header} (hheader : header set req = some hd) :
    dtbFile req (bootDtbName req hd) ∈ asked set req := by
  rw [asked_eq hheader]
  exact List.mem_cons_of_mem _ (List.mem_cons_of_mem _ (List.mem_cons_self ..))

/-- The content of a file behind its download. -/
def fetched (i : Input Blob) (file : Text) : Blob := (i.server file).getD (i.torn file)

/-- An assertion that directories, downloads and card images keep. -/
structure Grows (set : Setting Blob) (req : Request Blob) (i : Input Blob)
    (A : Host Blob → Prop) : Prop where
  /-- A directory. -/
  mkdir : ∀ h flavour, A h → A { h with dirs := Function.update h.dirs flavour true }
  /-- A download of a missing file. -/
  download : ∀ h file, A h → file ∈ asked set req → onS3 req = true → h.store file = none →
    A { h with store := Function.update h.store file (some (fetched i file)) }
  /-- A card image. -/
  img : ∀ h name uBootPath start, A h → partStart (imageType req.board.soc) = some start →
    A { h with imgs := h.imgs ++ [⟨name, uBootPath, i.dataSize, totalSectors i.dataSize,
      cardPartitions i.dataSize start⟩] }

/-- An assertion that the four changes keep. -/
structure Closed (set : Setting Blob) (req : Request Blob) (i : Input Blob)
    (A : Host Blob → Prop) : Prop extends Grows set req i A where
  /-- An update. -/
  update : ∀ h name its, A h → A { h with updates := h.updates ++ [(name, its)] }

/-- A file with a name is absent where the store does not have it. -/
theorem absent_of_ne {file : Text} (hne : file ≠ dtbFile req []) (h : Host Blob) :
    h.absent req file = (h.store file).isNone := if_neg hne

/-- A download stores a file with a name. -/
theorem downloaded_of_ne {file : Text} (hne : file ≠ dtbFile req []) (h : Host Blob) :
    h.downloaded req i file =
      { h with store := Function.update h.store file (some (fetched i file)) } := if_neg hne

/-- A download that is told to write to a directory changes nothing. -/
theorem downloaded_dir (h : Host Blob) : h.downloaded req i (dtbFile req []) = h := if_pos rfl

/-- A download of an absent file keeps what downloads keep. -/
theorem Grows.downloaded (hA : Grows set req i A) {file : Text} (hfile : file ∈ asked set req)
    (hs3 : onS3 req = true) {h : Host Blob} (h' : A h) (habsent : h.absent req file = true) :
    A (h.downloaded req i file) := by
  by_cases hne : file = dtbFile req []
  · rw [hne, downloaded_dir]
    exact h'
  · rw [absent_of_ne hne, Option.isNone_iff_eq_none] at habsent
    rw [downloaded_of_ne hne]
    exact hA.download h file h' hfile hs3 habsent

private theorem missing_spec {errexit : Bool} (file : Text) :
    Spec A (fun _ => A) errexit (fun _ => A) (missing req file)
      fun ok _ h => A h ∧ (ok = true → h.absent req file = true) :=
  Spec.simple fun _ _ hA _ => ⟨hA, fun _ _ => hA, fun _ => ⟨hA, id⟩⟩

/-- A file is downloaded only where it is absent. -/
theorem download_keeps (hA : Grows set req i A) {file : Text} (hfile : file ∈ asked set req) :
    Keeps A A (ifThen (andThen (missing req file) (call (onS3 req))) (fetch req i file)) := by
  intro errexit
  have hcond : Spec A (fun _ => A) false (fun _ => A)
      (andThen (missing req file) (call (onS3 req)))
      fun ok _ h => A h ∧ (ok = true → h.absent req file = true ∧ onS3 req = true) := by
    refine Spec.andThen (missing_spec file) ?_ fun _ h hR => ⟨hR.1, fun h => absurd h (by simp)⟩
    exact Spec.simple fun _ h hR _ =>
      ⟨hR.1, fun _ _ => hR.1, fun _ => ⟨hR.1, fun hok => ⟨hR.2 rfl, hok⟩⟩⟩
  refine Spec.ifThenElse hcond ?_ ?_
  · apply Spec.simple
    intro _ h hR _
    have hdown : A (h.downloaded req i file) :=
      hA.downloaded hfile (hR.2 rfl).2 hR.1 (hR.2 rfl).1
    exact ⟨hdown, fun _ _ => hdown, fun _ => hdown⟩
  · exact fun v h hR hI => Keeps.call true errexit v h hR.1 hI

/-- `mkdir` makes a directory at most. -/
theorem mkdirDtb_keeps (hA : Grows set req i A) (name : Text) : Keeps A A (mkdirDtb req name) := by
  apply Keeps.act
  intro h hI _
  split
  · exact ⟨hI, hI⟩
  · exact ⟨hA.mkdir h _ hI, hA.mkdir h _ hI⟩

private theorem check_keeps (file : Text) :
    Keeps A A (ifThen (andThen (missing req file) (call (!inRootfs req))) (exit false)
      : Sh Vars (Host Blob)) := by
  have hmissing : Keeps A A (missing req file) := fun errexit =>
    (missing_spec file).post fun _ _ _ _ _ h => h.1
  exact .ifThen (.andThen hmissing (.call _)) (.exit _)

/-- Getting a device tree keeps what a download of it keeps. -/
theorem getDtb_keeps (hA : Grows set req i A) {name : Text}
    (hname : dtbFile req name ∈ asked set req) : Keeps A A (getDtb req i name) :=
  .script ⟨mkdirDtb_keeps hA name, download_keeps hA hname, check_keeps _, .print _⟩

private theorem getZimage_keeps (hA : Grows set req i A) (hfile : zimageFile req ∈ asked set req) :
    Keeps A A (getZimage req i) :=
  .script ⟨.call _, .assign _ _, download_keeps hA hfile, check_keeps _⟩

private theorem createImage_keeps (hA : Grows set req i A) (h : Header) :
    Keeps A A (createImage set req i h) := by
  unfold createImage
  cases hstart : partStart (imageType req.board.soc) with
  | none => exact .call _
  | some start =>
    apply Keeps.act
    intro w hw _
    split
    · exact ⟨hA.img w _ _ start hw hstart, hA.img w _ _ start hw hstart⟩
    · exact ⟨hw, hw⟩

private theorem makeImg_keeps (hA : Grows set req i A) (h : Header) :
    Keeps A A (makeImg set req i h) :=
  .ifThen (.call _) (.script ⟨createImage_keeps hA h, .call _⟩)

/-- So does making the update. -/
theorem makeUpdate_keeps (hA : Closed set req i A) (h : Header) :
    Keeps A A (makeUpdate set req i h) := by
  intro errexit
  apply Spec.simple
  intro v w hw _
  split
  · exact ⟨hw, fun _ _ => hw, fun _ => hw⟩
  · split
    · exact ⟨hw, fun _ _ => hw, fun _ => hw⟩
    · split
      · exact ⟨hw, fun _ _ => hw, fun _ => hw⟩
      · exact ⟨hA.update w _ _ hw, fun _ _ => hA.update w _ _ hw, fun _ => hA.update w _ _ hw⟩

/-- A run keeps what the four changes keep. -/
theorem createImages_keeps (hA : Closed set req i A) : Keeps A A (createImages set req i) := by
  unfold createImages
  cases hheader : header set req with
  | none => exact .exit _
  | some h =>
    have hgrows := hA.toGrows
    have hkernel := getZimage_keeps hgrows (zimageFile_mem_asked hheader)
    have htarget := getDtb_keeps hgrows (targetDtb_mem_asked hheader)
    have hboot := getDtb_keeps hgrows (bootDtb_mem_asked hheader)
    exact .script ⟨.call _, makeImg_keeps hgrows h, hkernel, .assignFrom htarget _,
      .assignFrom hboot _, makeUpdate_keeps hA h⟩

end Changes

/-! ## Runs one after the other -/

/-- The hosts that runs leave one after the other, each complete or cut short between two
commands. -/
inductive Reached {Blob : Type} (set : Setting Blob) (U : Request Blob → Input Blob → Prop)
    (h₀ : Host Blob) : Host Blob → Prop where
  | start : Reached set U h₀ h₀
  | run {h w : Host Blob} {req : Request Blob} {i : Input Blob} (hreach : Reached set U h₀ h)
    (hU : U req i) (hw : w ∈ (run set req i h).world :: (run set req i h).visited) :
    Reached set U h₀ w

section Runs

variable {Blob : Type} {set : Setting Blob} {U : Request Blob → Input Blob → Prop}
  {h₀ h w : Host Blob} {req : Request Blob} {i : Input Blob} {A : Host Blob → Prop}

/-- Every moment of a run keeps what each of its steps keeps. -/
theorem run_keeps (hA : Closed set req i A) (h : A h₀)
    (hw : w ∈ (run set req i h₀).world :: (run set req i h₀).visited) : A w := by
  have hmeets := createImages_keeps hA true ⟨[], [], []⟩ h₀ h h
  rcases List.mem_cons.mp hw with rfl | hw
  · exact hmeets.world
  · exact hmeets.visited w hw

/-- What the four changes keep holds in every host that runs leave. -/
theorem Reached.keeps (hreach : Reached set U h₀ h) (hA : ∀ req i, U req i → Closed set req i A)
    (hstart : A h₀) : A h := by
  induction hreach with
  | start => exact hstart
  | run _ hU hw ih => exact run_keeps (hA _ _ hU) ih hw

end Runs

/-! ## The store -/

/-- The second store has what the first one has. -/
def Extends {Blob : Type} (s t : Text → Option Blob) : Prop := ∀ file b, s file = some b →
  t file = some b

private theorem extends_closed {Blob : Type} {set : Setting Blob} {req : Request Blob}
    {i : Input Blob} (s : Text → Option Blob) : Closed set req i fun h => Extends s h.store where
  mkdir _ _ hs := hs
  download h file hs _ _ hmissing := by
    intro file' b hb
    have hne : file' ≠ file := by
      rintro rfl
      exact absurd ((hs file' b hb).symm.trans hmissing) (by simp)
    simpa [Function.update_of_ne hne] using hs file' b hb
  img _ _ _ _ hs _ := hs
  update _ _ _ hs := hs

/-! ## Card images -/

/-- A partition ends before another one starts. -/
def Partition.Before (p q : Partition) : Prop := p.start + p.size ≤ q.start

/-- Partitions from a start on stay behind it. -/
theorem start_le_of_mem_wbPartitions (total : Nat) (calls : List (Option Nat × Nat)) :
    ∀ {start : Nat} {p : Partition}, p ∈ wbPartitions total start calls → start ≤ p.start := by
  induction calls with
  | nil => exact fun h => absurd h (by simp [wbPartitions])
  | cons call calls ih =>
    intro start p hp
    rcases List.mem_cons.mp hp with rfl | hp
    · exact le_refl _
    · refine le_trans ?_ (ih hp)
      simp only [wbPartition]
      split
      · exact Nat.le_add_right ..
      · exact Nat.le_add_right ..

/-- Calls without an extended partition make partitions that do not overlap. -/
theorem wbPartitions_pairwise (total : Nat) {calls : List (Option Nat × Nat)}
    (h : ∀ call ∈ calls, call.2 ≠ 5) :
    ∀ start, (wbPartitions total start calls).Pairwise Partition.Before := by
  induction calls with
  | nil => exact fun _ => .nil
  | cons call calls ih =>
    intro start
    refine List.Pairwise.cons (fun q hq => ?_)
      (ih (fun call hcall => h call (List.mem_cons_of_mem _ hcall)) _)
    have hnext := start_le_of_mem_wbPartitions total calls hq
    have hcall : call.2 ≠ 5 := h call (List.mem_cons_self ..)
    simpa [wbPartition, hcall, Partition.Before] using hnext

/-- The partitions of a card lie behind the first megabyte and inside the image, do not
overlap, and the last one has room for the tree and a hundred megabytes more. -/
structure Img.Sound (img : Img) : Prop where
  /-- All of it is in the image. -/
  inside : ∀ p ∈ img.partitions, mb / sectorSize ≤ p.start ∧ p.start + p.size ≤ img.totalSectors
  /-- The order. -/
  ordered : img.partitions.Pairwise Partition.Before
  /-- The room for the tree. -/
  room : ∃ p, img.partitions.getLast? = some p ∧ (img.dataSize + 100) * mb ≤ p.size * sectorSize

/-- A start that the script knows leaves room for the first partition. -/
theorem partStart_bounds {socType : Text} {start : Nat} (h : partStart socType = some start) :
    2048 ≤ start ∧ start ≤ 8192 := by
  unfold partStart at h
  split at h
  · obtain rfl := Option.some.inj h
    decide
  · split at h
    · obtain rfl := Option.some.inj h
      decide
    · exact absurd h (by simp)

private theorem totalSectors_eq (dataSize : Nat) :
    totalSectors dataSize = (dataSize + 120) * 2048 := by
  rw [totalSectors, show mb = 2048 * sectorSize from rfl, ← Nat.mul_assoc]
  exact Nat.mul_div_cancel _ (by decide)

private theorem cardPartitions_eq (dataSize start : Nat) :
    cardPartitions dataSize start = [⟨start, 32768, 53⟩,
      ⟨start + 32768, totalSectors dataSize - (start + 32768), 83⟩] := rfl

private theorem sound_of_partStart {name uBootPath : Text} (dataSize : Nat) {socType : Text}
    {start : Nat} (h : partStart socType = some start) :
    Img.Sound
      ⟨name, uBootPath, dataSize, totalSectors dataSize, cardPartitions dataSize start⟩ := by
  obtain ⟨hlow, hhigh⟩ := partStart_bounds h
  have htotal := totalSectors_eq dataSize
  refine ⟨?_, wbPartitions_pairwise _ (by decide) start, ?_⟩
  · intro p hp
    rw [cardPartitions_eq] at hp
    simp only [List.mem_cons, List.not_mem_nil, or_false] at hp
    have hmb : mb / sectorSize = 2048 := rfl
    rcases hp with rfl | rfl
    · constructor <;> dsimp only <;> omega
    · constructor <;> dsimp only <;> omega
  · refine ⟨⟨start + 32768, totalSectors dataSize - (start + 32768), 83⟩, rfl, ?_⟩
    rw [show mb = 2048 * sectorSize from rfl, ← Nat.mul_assoc]
    apply Nat.mul_le_mul_right
    dsimp only
    omega

private theorem sound_closed {Blob : Type} {set : Setting Blob} {req : Request Blob}
    {i : Input Blob} : Closed set req i fun h => ∀ img ∈ h.imgs, img.Sound where
  mkdir _ _ hsound := hsound
  download _ _ hsound _ _ _ := hsound
  img h _ _ start hsound hstart := by
    intro img himg
    rcases List.mem_append.mp himg with himg | himg
    · exact hsound img himg
    · obtain rfl := List.mem_singleton.mp himg
      exact sound_of_partStart i.dataSize hstart
  update _ _ _ hsound := hsound

/-! ## The update of a run -/

section Update

variable {Blob : Type} {set : Setting Blob} {req : Request Blob} {i : Input Blob}

/-- A host behind the download of a file, if it is absent. -/
def Host.got (h : Host Blob) (req : Request Blob) (i : Input Blob) (file : Text) : Host Blob :=
  if h.absent req file && onS3 req then h.downloaded req i file else h

/-- A host with the directory for a DTB. -/
def Host.madeDir (h : Host Blob) (req : Request Blob) (name : Text) : Host Blob :=
  if name = [] then h else
    { h with dirs := Function.update h.dirs (kernelFlavour req.board.soc) true }

@[simp] private theorem outcome_mkdirDtb (name : Text) (errexit : Bool) (v : Vars) (h : Host Blob) :
    (mkdirDtb req name errexit v h).outcome = ⟨v, h.madeDir req name, [], .status true⟩ := by
  rw [← finish_ok (e := errexit)]
  rfl

@[simp] private theorem outcome_missing (file : Text) (errexit : Bool) (v : Vars) (h : Host Blob) :
    (missing req file errexit v h).outcome = ⟨v, h, [], finish errexit (h.absent req file)⟩ := rfl

@[simp] private theorem outcome_fetch (file : Text) (errexit : Bool) (v : Vars) (h : Host Blob) :
    (fetch req i file errexit v h).outcome = ⟨v, h.downloaded req i file, [],
      finish errexit ((i.server file).isSome && file ≠ dtbFile req [])⟩ := rfl

/-- How the download of a file that may be there ends. -/
def Host.gotEnding (h : Host Blob) (req : Request Blob) (i : Input Blob) (file : Text)
    (errexit : Bool) : Ending :=
  if h.absent req file && onS3 req then
    finish errexit ((i.server file).isSome && file ≠ dtbFile req [])
  else .status true

/-- What a download of a file that may be there does. -/
theorem outcome_download (req : Request Blob) (i : Input Blob) (file : Text) (errexit : Bool)
    (v : Vars) (h : Host Blob) :
    (ifThen (andThen (missing req file) (call (onS3 req))) (fetch req i file) errexit v h).outcome =
      ⟨v, h.got req i file, [], h.gotEnding req i file errexit⟩ := by
  cases habsent : h.absent req file with
  | false => simp [Host.got, Host.gotEnding, habsent]
  | true =>
    cases hs3 : onS3 req with
    | false => simp [Host.got, Host.gotEnding, habsent, hs3]
    | true => simp [Host.got, Host.gotEnding, habsent, hs3]

private theorem gotEnding_off (req : Request Blob) (i : Input Blob) (file : Text) (h : Host Blob) :
    ∃ ok, h.gotEnding req i file false = .status ok := by
  unfold Host.gotEnding
  split
  · exact ⟨_, rfl⟩
  · exact ⟨_, rfl⟩

/-- A host behind `get_dtb`. -/
def Host.gotDtb (h : Host Blob) (req : Request Blob) (i : Input Blob) (name : Text) : Host Blob :=
  (h.madeDir req name).got req i (dtbFile req name)

/-- `get_dtb` goes on behind a failed download, and stops only where the file is still
missing. -/
theorem writes_getDtb (name : Text) (h : Host Blob) :
    ∃ ok : Bool, Writes (getDtb req i name) h (h.gotDtb req i name)
      (if ok then [String.ofList (dtbFile req name)] else [])
      (if ok then .status true else .exited false) := by
  have hmade (v : Vars) : (getDtb req i name false v h).outcome = _ := outcome_script_cons _
  simp only [outcome_mkdirDtb, Outcome.next_status, Outcome.after_nil] at hmade
  unfold Host.gotDtb
  generalize h.madeDir req name = g at hmade
  obtain ⟨ok, hok⟩ := gotEnding_off req i (dtbFile req name) g
  cases habsent : (g.got req i (dtbFile req name)).absent req (dtbFile req name) with
  | false =>
    refine ⟨true, fun v => ⟨v, ?_⟩⟩
    rw [hmade, outcome_script_cons, outcome_download, hok, Outcome.next_status]
    simp [habsent]
  | true =>
    refine ⟨inRootfs req, fun v => ⟨v, ?_⟩⟩
    rw [hmade, outcome_script_cons, outcome_download, hok, Outcome.next_status]
    cases hin : inRootfs req with
    | false => simp [habsent]
    | true => simp [habsent]

/-- The variables with which `create_update.sh` is called. -/
def updateVars (req : Request Blob) (hd : Header) : Vars where
  zimage := zimageFile req
  targetDtb := captured [String.ofList (dtbFile req hd.targetDtbName)]
  bootDtb := captured [String.ofList (dtbFile req (bootDtbName req hd))]

/-- The variables but the last one. -/
structure TargetSet (req : Request Blob) (hd : Header) (v : Vars) : Prop where
  /-- The kernel. -/
  zimage : v.zimage = zimageFile req
  /-- The target DTB. -/
  target : v.targetDtb = captured [String.ofList (dtbFile req hd.targetDtbName)]

/-- With the kernel set, the device tree of the target completes the pair. -/
theorem TargetSet.of_zimage {hd : Header} {v : Vars} (h : v.zimage = zimageFile req) :
    TargetSet req hd { v with
      targetDtb := captured [String.ofList (dtbFile req hd.targetDtbName)] } := by
  constructor
  · dsimp only
    exact h
  · dsimp only

/-- The device tree of the boot stage completes the variables. -/
theorem TargetSet.boot {hd : Header} {v : Vars} (h : TargetSet req hd v) :
    { v with bootDtb := captured [String.ofList (dtbFile req (bootDtbName req hd))] } =
      updateVars req hd := by
  rw [updateVars, h.zimage, h.target]

private theorem updates_grows (u : List (Text × Its Blob)) :
    Grows set req i fun h => h.updates = u where
  mkdir _ _ hu := hu
  download _ _ hu _ _ _ := hu
  img _ _ _ _ hu _ := hu

/-- The kernel's variable is set before its file is looked for. -/
theorem getZimage_spec (u : List (Text × Its Blob)) (hfile : zimageFile req ∈ asked set req) :
    Spec (fun _ => True) (fun _ _ => True) true (fun _ h => h.updates = u) (getZimage req i)
      fun _ v h => v.zimage = zimageFile req ∧ h.updates = u := by
  have hcond (b : Bool) :
      NoAssign (andThen (missing req (zimageFile req)) (call b) : Sh Vars (Host Blob)) :=
    .andThen (.simple fun _ _ => rfl) (.call _)
  refine Spec.seq ((Keeps.call _).alone true) fun _ => ?_
  refine Spec.seq (R := fun _ v h => v.zimage = zimageFile req ∧ h.updates = u) ?_ fun _ => ?_
  · exact Spec.simple fun _ _ hu _ => ⟨trivial, by simp, fun _ => ⟨rfl, hu⟩⟩
  refine Spec.seq (NoAssign.spec (.ifThen (hcond _) (.act _ _)) _
    ((download_keeps (updates_grows u) hfile).alone true)) fun _ => ?_
  exact NoAssign.spec (.ifThen (hcond _) (.exit _)) _ ((check_keeps _).alone true)

/-- An assignment from `get_dtb` that succeeds gets the file. -/
theorem vars_assignDtb {name : Text} {f : Text → Vars → Vars} {v : Vars} {h : Host Blob}
    {ok : Bool} (hend : (assignFrom (getDtb req i name) f true v h).ending = .status ok) :
    (assignFrom (getDtb req i name) f true v h).vars =
      f (captured [String.ofList (dtbFile req name)]) v := by
  obtain ⟨found, hwrites⟩ := writes_getDtb (i := i) name h
  have houtcome := hwrites.assignFrom (by cases found <;> simp) f true v
  cases found with
  | false =>
    have hexited : (assignFrom (getDtb req i name) f true v h).ending = .exited false :=
      congrArg Outcome.ending houtcome
    exact absurd (hexited.symm.trans hend) (by simp)
  | true => exact congrArg Outcome.vars houtcome

private theorem assignDtb_spec (u : List (Text × Its Blob)) (name : Text) (f : Text → Vars → Vars)
    {F G : Vars → Prop} (hname : dtbFile req name ∈ asked set req)
    (hf : ∀ v, F v → G (f (captured [String.ofList (dtbFile req name)]) v)) :
    Spec (fun _ => True) (fun _ _ => True) true (fun v h => F v ∧ h.updates = u)
      (assignFrom (getDtb req i name) f) fun _ v h => G v ∧ h.updates = u := by
  have hkeeps : Keeps (fun h : Host Blob => h.updates = u) (fun h => h.updates = u)
      (assignFrom (getDtb req i name) f) :=
    .assignFrom (getDtb_keeps (updates_grows u) hname) f
  refine Spec.post (fun v h hp => hkeeps.alone true v h hp.2) fun v h ok hp hend hu => ⟨?_, hu⟩
  rw [vars_assignDtb hend]
  exact hf v hp.1

/-- The update of a run that comes to its end: its files are those of the store as the run
leaves it. -/
theorem run_update {h : Host Blob} {ok : Bool} (hend : (run set req i h).ending = .status ok) :
    ∃ hd tree its, header set req = some hd ∧ req.tree = some tree ∧
      Update.createUpdate set.tools (updateArch req.board.soc)
        (updateDefaults set (updateVars req hd) (run set req i h).world.store) .directory tree =
          .ok its ∧
      (run set req i h).world.updates = h.updates ++ [(webupdName set req hd, its)] := by
  cases hheader : header set req with
  | none =>
    rw [run, createImages, hheader] at hend
    exact absurd hend (by simp [exit])
  | some hd =>
    have hspec : Spec (fun _ => True) (fun _ _ => True) true (fun _ w => w.updates = h.updates)
        (createFrom set req i hd) fun _ _ w => ∃ tree its, req.tree = some tree ∧
          Update.createUpdate set.tools (updateArch req.board.soc)
            (updateDefaults set (updateVars req hd) w.store) .directory tree = .ok its ∧
          w.updates = h.updates ++ [(webupdName set req hd, its)] := by
      have hgrows : Grows set req i fun w => w.updates = h.updates := updates_grows h.updates
      refine Spec.seq ((Keeps.call _).alone true) fun _ => ?_
      refine Spec.seq ((makeImg_keeps hgrows hd).alone true) fun _ => ?_
      refine Spec.seq (getZimage_spec h.updates (zimageFile_mem_asked hheader)) fun _ => ?_
      refine Spec.seq (assignDtb_spec (G := TargetSet req hd) h.updates hd.targetDtbName _
        (targetDtb_mem_asked hheader) fun v hv => .of_zimage hv) fun _ => ?_
      refine Spec.seq (assignDtb_spec (G := fun v => v = updateVars req hd) h.updates
        (bootDtbName req hd) _ (bootDtb_mem_asked hheader) fun v hv => hv.boot) fun _ => ?_
      apply Spec.simple
      rintro v w ⟨rfl, hu⟩ _
      refine ⟨trivial, fun _ _ => trivial, fun hok => ?_⟩
      have hok := hok rfl
      revert hok
      cases req.tree with
      | none => exact fun h => absurd h (by simp)
      | some tree =>
        dsimp only
        split
        · exact fun h => absurd h (by simp)
        · split
          · exact fun h => absurd h (by simp)
          · rename_i its hits
            exact fun _ => ⟨tree, its, rfl, hits, by rw [hu]⟩
    have hmeets := hspec ⟨[], [], []⟩ h rfl trivial
    have hrun : run set req i h = createFrom set req i hd true ⟨[], [], []⟩ h := by
      rw [run, createImages, hheader]
    have hpost := hmeets.ending
    rw [← hrun, hend] at hpost
    obtain ⟨tree, its, htree, hits, hu⟩ := hpost
    exact ⟨hd, tree, its, rfl, htree, hits, hu⟩

end Update

/-- A file of the store is final: it stays as it is at every moment of every later run, however
the runs before were cut short, also where a failed download has torn it. Every update that is
made takes it as its kernel or its boot DTB where the tree has none of its own, and takes
`compatible` from it where it is the target DTB. -/
theorem stored_file_is_final {Blob : Type} {set : Setting Blob}
    {U : Request Blob → Input Blob → Prop} {h₀ h : Host Blob} (hreach : Reached set U h₀ h)
    {file : Text} {b : Blob} (hfile : h₀.store file = some b) (req : Request Blob)
    (i : Input Blob) :
    (∀ w ∈ h :: (run set req i h).world :: (run set req i h).visited, w.store file = some b) ∧
      ∀ ok, (run set req i h).ending = .status ok →
        ∃ hd tree name its, header set req = some hd ∧ req.tree = some tree ∧
          (run set req i h).world.updates = h.updates ++ [(name, its)] ∧
          (zimageFile req = file → tree (Update.kernelPath (updateArch req.board.soc)) = none →
            its.kernel = b) ∧
          ((updateVars req hd).bootDtb = file → tree Update.bootDtbPath = none → its.dtb = b) ∧
          ((updateVars req hd).targetDtb = file → ∃ values : Update.Values,
            values.compatible = Update.dtbGetCompatible set.tools b ∧
              set.tools.j2 values = some its.toValues) := by
  have hstore : h.store file = some b :=
    hreach.keeps (fun _ _ _ => extends_closed h₀.store) (fun _ _ h => h) file b hfile
  have hrun : ∀ w ∈ (run set req i h).world :: (run set req i h).visited,
      w.store file = some b := fun w hw =>
    run_keeps (extends_closed h.store) (fun _ _ h => h) hw file b hstore
  refine ⟨fun w hw => ?_, fun ok hend => ?_⟩
  · rcases List.mem_cons.mp hw with rfl | hw
    · exact hstore
    · exact hrun w hw
  have hfinal := hrun _ (List.mem_cons_self ..)
  obtain ⟨hd, tree, its, hheader, htree, hupdate, hu⟩ := run_update hend
  obtain ⟨version, release, _, _, hmakes⟩ := Update.createUpdate_directory_eq_ok_iff.mp hupdate
  refine ⟨hd, tree, _, its, hheader, htree, hu, ?_, ?_, ?_⟩
  · rintro rfl hnone
    have hkernel := hmakes.kernel
    rw [Update.zimage, hnone, Option.none_or] at hkernel
    exact Option.some.inj (hkernel.symm.trans hfinal)
  · rintro rfl hnone
    have hdtb := hmakes.dtb
    rw [Update.bootDtb, hnone, Option.none_or] at hdtb
    exact Option.some.inj (hdtb.symm.trans hfinal)
  · rintro rfl
    refine ⟨_, ?_, hmakes.values⟩
    change Update.dtbGetCompatible set.tools (Option.getD
      ((run set req i h).world.store (updateVars req hd).targetDtb) its.dtb) = _
    rw [hfinal, Option.getD_some]

/-! ## Samples -/

/-- The programs on texts and device tree blobs. -/
def Setting.local : Setting Update.File where
  tools := Update.fileTools
  osRelease
    | .text lines => some (Update.assigned "VERSION_CODENAME".toList lines)
    | .dtb _ => none
  topDir := "/wb".toList
  imagesDir := "/wb/images".toList
  installScript := .text [['i']]

/-- An invocation for board 7x with a card image. -/
def Request.cards : Request Update.File where
  board := .b7x
  version := []
  env := ⟨[], [], [], [], [], [], ['1'], []⟩
  rootfs := "/rootfs".toList
  tree := some (Update.sampleTree [
    (osReleasePath, .text ["VERSION_CODENAME=bullseye".toList]),
    (uEnvPath, .text ["fdt_file=/boot/dtbs/wb7.dtb".toList])])

/-- A server with the kernel and the DTB for it. -/
def Input.full : Input Update.File where
  ok _ := true
  server file :=
    if file = "zImage.wb7".toList then some (.text [['k']])
    else if file = "dtbs/wb7/wb7.dtb".toList then some (.dtb ['w', 'b', '7'])
    else none
  torn _ := .text []
  dataSize := 900
  dataSize_lt := by decide

/-- A host with an empty kernel, as a failed download leaves it. -/
def Host.torn : Host Update.File :=
  { store file := if file = "zImage.wb7".toList then some (.text []) else none
    dirs _ := false
    imgs := []
    updates := [] }

/-- A complete run. -/
theorem Reached.complete {Blob : Type} {set : Setting Blob} {U : Request Blob → Input Blob → Prop}
    {h₀ h : Host Blob} {req : Request Blob} {i : Input Blob} (hreach : Reached set U h₀ h)
    (hU : U req i) : Reached set U h₀ (Image.run set req i h).world :=
  .run hreach hU (List.mem_cons_self ..)

/-- The second run behind the failed download still packs the empty kernel. -/
theorem stored_file_is_final_torn :
    ∃ name its,
      (run .local .cards .full (run .local .cards .full .torn).world).world.updates =
        (run .local .cards .full .torn).world.updates ++ [(name, its)] ∧
      its.kernel = .text [] := by
  have hreach : Reached .local (fun _ _ => True) .torn (run .local .cards .full .torn).world :=
    .complete .start trivial
  have hfile : Host.torn.store "zImage.wb7".toList = some (.text []) := by decide +kernel
  have hend : (run .local .cards .full (run .local .cards .full .torn).world).ending =
      .status true := by decide +kernel
  obtain ⟨_, tree, name, its, _, htree, hupdates, hkernel, _⟩ :=
    (stored_file_is_final hreach hfile .cards .full).2 true hend
  refine ⟨name, its, hupdates, hkernel rfl ?_⟩
  obtain rfl := Option.some.inj htree
  decide +kernel

/-- Every card image of every run is sound. -/
theorem card_images_sound {Blob : Type} {set : Setting Blob}
    {U : Request Blob → Input Blob → Prop} {h₀ h : Host Blob} (hreach : Reached set U h₀ h)
    (hnone : h₀.imgs = []) : ∀ img ∈ h.imgs, img.Sound :=
  hreach.keeps (fun _ _ _ => sound_closed) (by simp [hnone])

/-- A run makes one card image, and it is sound. -/
theorem card_images_sound_7x :
    (run .local .cards .full .torn).world.imgs.length = 1 ∧
      ∀ img ∈ (run .local .cards .full .torn).world.imgs, img.Sound := by
  have hreach : Reached .local (fun _ _ => True) .torn (run .local .cards .full .torn).world :=
    .complete .start trivial
  exact ⟨by decide +kernel, card_images_sound hreach rfl⟩

end WirenBoard.Image
