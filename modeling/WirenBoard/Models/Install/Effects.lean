import WirenBoard.Models.Install.Script

/-!
# What one run can do to the device

Everything a run does to the device is said once: it overwrites only the slot it
chose, writes down each overwriting under the slot it runs from, and changes
`mmcpart` at most to the chosen slot, whose extraction has then completed unless
`tar` failed. Every world that the run passes through is of this kind, however the
external steps turn out.
-/

namespace WirenBoard.Install

open Shell

/-- The device `w` differs from `d` only by what a run that installs to `part` does. -/
structure Within (d : Device) (part : Slot) (tar : Bool) (w : Device) : Prop where
  /-- The system keeps running from its slot. -/
  running : w.running = d.running
  /-- The other slot is untouched. -/
  other : ∀ s, s ≠ part → w.slots s = d.slots s
  /-- Only the chosen slot is overwritten. -/
  writes : ∃ new, w.writes = d.writes ++ new ∧ ∀ x ∈ new, x.slot = part ∧ x.running = d.running
  /-- A switch goes to the chosen slot, extracted unless `tar` failed. -/
  mmcpart : w.mmcpart = d.mmcpart ∨
    w.mmcpart = some part ∧ (tar = true → w.slots part = .extracted)

section Effects

variable {d w : Device} {part : Slot} {tar : Bool}

/-- A run starts within its bounds. -/
theorem Within.refl (d : Device) (part : Slot) (tar : Bool) : Within d part tar d :=
  ⟨rfl, fun _ _ => rfl, ⟨[], by simp, by simp⟩, .inl rfl⟩

/-- Mounting and unmounting are not seen. -/
theorem Within.mnt (h : Within d part tar w) (mnt : List Slot) :
    Within d part tar { w with mnt } :=
  ⟨h.running, h.other, h.writes, h.mmcpart⟩

/-- Before the switch the chosen slot may be overwritten. -/
theorem Within.write (h : Within d part tar w) (hm : w.mmcpart = d.mmcpart) (a : Action)
    (c : Content) : Within d part tar (w.write a part c) := by
  obtain ⟨new, hnew, hall⟩ := h.writes
  refine ⟨h.running, ?_, ⟨new ++ [⟨a, part, w.running⟩], ?_, ?_⟩, .inl hm⟩
  · intro s hs
    simp only [Device.write]
    rw [Function.update_of_ne hs, h.other s hs]
  · simp only [Device.write, hnew, List.append_assoc]
  · intro x hx
    rcases List.mem_append.mp hx with hx | hx
    · exact hall x hx
    · rw [List.mem_singleton.mp hx]
      exact ⟨rfl, h.running⟩

/-- Before the switch the content of the chosen slot may change. -/
theorem Within.settle (h : Within d part tar w) (hm : w.mmcpart = d.mmcpart) (c : Content) :
    Within d part tar { w with slots := Function.update w.slots part c } := by
  refine ⟨h.running, ?_, h.writes, .inl hm⟩
  intro s hs
  rw [← h.other s hs]
  exact Function.update_of_ne hs c w.slots

/-- The switch to an extracted slot. -/
theorem Within.switch (h : Within d part tar w) (hs : tar = true → w.slots part = .extracted) :
    Within d part tar { w with mmcpart := some part } :=
  ⟨h.running, h.other, h.writes, .inr ⟨rfl, hs⟩⟩

end Effects

/-! ## The phases of the script -/

/-- The script has not switched yet. -/
def Unswitched (d w : Device) : Prop := w.mmcpart = d.mmcpart

/-- The chosen slot is mounted last, before the switch. -/
def Mounted (d : Device) (part : Slot) (w : Device) : Prop :=
  Unswitched d w ∧ w.mnt.head? = some part

/-- The extraction is over, before the switch. -/
def Filled (d : Device) (part : Slot) (tar : Bool) (w : Device) : Prop :=
  Unswitched d w ∧ (tar = true → w.slots part = .extracted)

section Phases

variable {i : Input} {d : Device} {part : Slot} {tar : Bool} {errexit : Bool}

private theorem mount_keeps (site : Site) (s : Slot) :
    Keeps (Within d part tar) (Unswitched d) (mount i site s) := by
  apply Keeps.act
  intro w hA hI
  split
  · exact ⟨hI.mnt _, hA⟩
  · exact ⟨hI, hA⟩

private theorem umount_keeps (site : Site) (s : Slot) :
    Keeps (Within d part tar) (Unswitched d) (umount i site s) := by
  apply Keeps.act
  intro w hA hI
  split
  · exact ⟨hI.mnt _, hA⟩
  · exact ⟨hI, hA⟩

/-- A mount that succeeds puts the slot on top. -/
theorem mount_spec (site : Site) (s : Slot) {X : Bool → Device → Prop} :
    Spec (Within d part tar) X false (fun _ => Unswitched d) (mount i site s)
      fun ok _ w => Unswitched d w ∧ (ok = true → w.mnt.head? = some s) := by
  apply Spec.simple
  intro _ w hA hI
  cases hok : i.ok site with
  | true => exact ⟨hI.mnt _, by simp, fun _ => ⟨hA, fun _ => rfl⟩⟩
  | false => exact ⟨hI, by simp, fun _ => ⟨hA, by simp⟩⟩

/-- Preparing the mount point touches no slot. -/
theorem prepareMnt_keeps (I A : Device → Prop) : Keeps I A (prepareMnt i) :=
  .orElse (.andThen (.call _) (.call _)) (.exit _)

/-- Looking at the slot in use writes nothing. -/
theorem probeActual_keeps (partNow : Slot) :
    Keeps (Within d part tar) (Unswitched d) (probeActual i partNow) :=
  .andThen (.call _)
    (.seq (.orElse (.andThen (.call _) (.call _)) (.exit _))
      (.orElse (.andThen (mount_keeps _ _)
        (.seq (.assign _ _) (.orElse (umount_keeps _ _) (.call _)))) (.call _)))

/-- After formatting where needed, the chosen slot is mounted or the script is dead. -/
theorem formatAndMount_spec (label : String) :
    Spec (Within d part tar) (fun _ _ => True) true (fun _ => Unswitched d)
      (formatAndMount i part label) fun _ _ => Mounted d part := by
  have hformat : Keeps (Within d part tar) (Unswitched d)
      (act (i.ok .mkfsExt4) fun w => w.write (.format label) part .blank : Sh Vars Device) :=
    Keeps.act fun w hA hI => ⟨hI.write hA _ _, hA⟩
  have hfirst : Keeps (Within d part tar) (Unswitched d)
      (orElse (mount i .mountProbe part)
        (orElse (act (i.ok .mkfsExt4) fun w => w.write (.format label) part .blank) die)) :=
    .orElse (mount_keeps _ _) (.orElse hformat (.exit _))
  have hsecond : Keeps (Within d part tar) (Unswitched d)
      (orTrue (umount i .umountProbe part)) := .orElse (umount_keeps _ _) (.call _)
  refine Spec.seq (hfirst.spec true) fun _ => ?_
  refine Spec.seq (hsecond.spec true) fun _ => ?_
  refine (mount_spec .mountRoot part).orElse ?_ ?_
  · exact Spec.exit fun _ _ _ _ => trivial
  · exact fun _ w h => ⟨h.1, h.2 rfl⟩

/-- Overwriting acts on the mounted slot. -/
theorem writeMnt_of_head {w : Device} (h : w.mnt.head? = some part) (a : Action) (c : Content) :
    w.writeMnt a c = w.write a part c := by
  obtain ⟨rest, hrest⟩ := List.head?_eq_some_iff.mp h
  simp only [Device.writeMnt, hrest]

private theorem settleMnt_of_head {w : Device} (h : w.mnt.head? = some part) (c : Content) :
    w.settleMnt c = { w with slots := Function.update w.slots part c } := by
  obtain ⟨rest, hrest⟩ := List.head?_eq_some_iff.mp h
  simp only [Device.settleMnt, hrest]

/-- An overwriting that succeeds leaves its content in the chosen slot. -/
theorem overwrite_spec (a : Action) (site : Site) (c : Content) {X : Bool → Device → Prop} :
    Spec (Within d part tar) X false (fun _ => Mounted d part) (overwrite i a site c)
      fun ok _ w => Mounted d part w ∧ ok = i.ok site ∧ (ok = true → w.slots part = c) := by
  refine Spec.seq (R := fun _ _ => Mounted d part) ?_ fun _ => ?_
  · apply Spec.simple
    intro _ w hM hI
    simp only [writeMnt_of_head hM.2]
    exact ⟨hI.write hM.1 _ _, by simp, fun _ => hM⟩
  · apply Spec.simple
    intro _ w hM hI
    cases hok : i.ok site with
    | true =>
      simp only [ite_true, settleMnt_of_head hM.2]
      exact ⟨hI.settle hM.1 c, by simp, fun _ => ⟨hM, trivial, fun _ => Function.update_self ..⟩⟩
    | false => exact ⟨hI, by simp, fun _ => ⟨hM, rfl, by simp⟩⟩

private theorem rebootForced_keeps (I A : Device → Prop) (site : Site) :
    Keeps I A (rebootForced i site) := by
  unfold rebootForced
  split
  · exact .shutdown
  · exact .call _

/-- A refused rollback ends the run before the slot is touched. -/
theorem checkRollback_spec :
    Spec (Within d part tar) (fun _ _ => True) true (fun _ => Mounted d part)
      (checkRollback i part) fun _ _ => Mounted d part := by
  have hown : Keeps (Within d part tar) (Mounted d part)
      (andThen (test fun v : Vars => v.actualDebRelease = "")
        (assign (i.ok .ownRelease) fun v _ => { v with actualDebRelease := i.ownRelease })) :=
    .andThen (.test _) (.assign _ _)
  have hrollback : Keeps (Within d part tar) (Mounted d part)
      (andThen (test fun v : Vars => v.actualDebRelease = "bullseye")
        (test fun v => v.upcomingDebRelease = "stretch")) := .andThen (.test _) (.test _)
  have hreset : Keeps (Within d part tar) (Mounted d part) (neg (flagSet i.flags.factoryreset)) :=
    .neg (.call _)
  have hinitramfs : Keeps (Within d part tar) (Mounted d part) (flagSet i.flags.fromInitramfs) :=
    .call _
  have hreboot : Keeps (Within d part tar) (Mounted d part)
      (script [ext i .ledFailure, ext i .buzzer, rebootForced i .rebootRollback]) :=
    .script ⟨.call _, .call _, rebootForced_keeps _ _ _⟩
  have hdie : Spec (Within d part tar) (fun _ _ => True) true (fun _ => Mounted d part)
      (seq (orTrue (umount i .umountRollback part)) die) fun _ _ => Mounted d part := by
    have humount : Keeps (Within d part tar) (Unswitched d)
        (orTrue (umount i .umountRollback part)) := .orElse (umount_keeps _ _) (.call _)
    refine Spec.seq (fun v w hM => humount.spec true v w hM.1) fun _ => ?_
    exact Spec.exit fun _ _ _ _ => trivial
  have hskip : Keeps (Within d part tar) (Mounted d part) (call true : Sh Vars Device) := .call _
  refine Spec.seq (hown.spec true) fun _ => ?_
  refine Spec.seq ((Keeps.assign _ _).spec true) fun _ => ?_
  refine (hrollback.spec false).ifThenElse ?_ (hskip.spec true)
  refine (hreset.spec false).ifThenElse ?_ (hskip.spec true)
  exact (hinitramfs.spec false).ifThenElse (hreboot.spec true) hdie

/-- Emptying the target leaves it mounted. -/
theorem cleanUp_spec :
    Spec (Within d part tar) (fun _ _ => True) true (fun _ => Mounted d part) (cleanUp i)
      fun _ _ => Mounted d part := by
  have hfirst : Keeps (Within d part tar) (Mounted d part)
      (andThen (ext i .rmEmpty) (ext i .mkdirEmpty)) := .andThen (.call _) (.call _)
  have hwhich : Keeps (Within d part tar) (Mounted d part) (ext i .whichRsync) := .call _
  have hempty : ∀ site, Spec (Within d part tar) (fun _ _ => True) true (fun _ => Mounted d part)
      (orElse (overwrite i .empty site .blank) die) fun _ _ => Mounted d part := by
    intro site
    refine (overwrite_spec .empty site .blank).orElse ?_ fun _ _ h => h.1
    exact Spec.exit fun _ _ _ _ => trivial
  refine Spec.seq (hfirst.spec true) fun _ => ?_
  exact (hwhich.spec false).ifThenElse (hempty .rsync) (hempty .rmContents)

/-- The status of the pipeline is that of `mqtt_progress`: the script goes on whether
or not the extraction completed. -/
theorem extract_spec :
    Spec (Within d part (i.ok .tar)) (fun _ _ => True) true (fun _ => Mounted d part) (extract i)
      fun _ _ => Filled d part (i.ok .tar) := by
  have htar : Spec (Within d part (i.ok .tar)) (fun _ => Filled d part (i.ok .tar)) true
      (fun _ => Mounted d part)
      (seq (echo "0") (orElse (overwrite i .extract .tar .extracted) die))
      fun _ _ => Filled d part (i.ok .tar) := by
    refine Spec.seq Spec.echo fun _ => ?_
    refine (overwrite_spec .extract .tar .extracted).orElse ?_ ?_
    · refine Spec.exit fun _ w h _ => ⟨h.1.1, fun htar => ?_⟩
      rw [← h.2.1] at htar
      exact absurd htar (by simp)
    · exact fun _ w h => ⟨h.1.1, fun _ => h.2.2 rfl⟩
  have hbefore : ∀ site, Keeps (Within d part (i.ok .tar)) (Mounted d part) (ext i site) :=
    fun _ => .call _
  have hafter : Keeps (Within d part (i.ok .tar)) (Filled d part (i.ok .tar)) (ext i .popd) :=
    .call _
  have hprogress : ∀ out, Keeps (Within d part (i.ok .tar)) (Filled d part (i.ok .tar))
      (mqttProgress out) := fun _ => .call _
  refine Spec.seq ((hbefore _).spec true) fun _ => ?_
  refine Spec.seq ((hbefore _).spec true) fun _ => ?_
  refine Spec.seq (Spec.pipe htar (fun out => hprogress out true) fun _ _ _ => trivial) fun _ => ?_
  exact hafter.spec true

/-- The lines of the certificates change nothing of the device. -/
theorem certificates_keeps (I A : Device → Prop) : Keeps I A (certificates i) := by
  have hlosetup : Keeps I A (orElse (ext i .losetup) die) := .orElse (.call _) (.exit _)
  have hcopy : Keeps I A (ifThen (ext i .mountHiddenfs)
      (seq (orTrue (ext i .catCertificates)) (ext i .umountHiddenfs))) :=
    .ifThen (.call _) (.seq (.orElse (.call _) (.call _)) (.call _))
  exact .ifThen (.neg (.call _)) (.script ⟨.call _, .call _, hlosetup, hcopy⟩)

/-- The lines of the post-install scripts change nothing of the device. -/
theorem postinst_keeps (I A : Device → Prop) : Keeps I A (postinst i) := by
  have hscripts : Keeps I A (script (i.postinst.map fun r => orTrue (call r))) :=
    .map (fun _ => .orElse (.call _) (.call _)) _
  have hrun : Keeps I A (ifThen (ext i .postinstDir)
      (seq (ext i .findPostinst) (script (i.postinst.map fun r => orTrue (call r))))) :=
    .ifThen (.call _) (.seq (.call _) hscripts)
  exact .ifThen (.neg (.call _))
    (.script ⟨.call _, .call _, .call _, hrun, .call _, .call _, .call _⟩)

/-- The switch goes to the chosen slot. -/
theorem switchRootfs_spec :
    Spec (Within d part tar) (fun _ _ => True) true (fun _ => Filled d part tar)
      (switchRootfs i part) fun _ _ _ => True := by
  refine Spec.seq (R := fun _ _ _ => True) ?_ fun _ => ?_
  · apply Spec.simple
    intro _ w hF hI
    refine ⟨?_, fun _ _ => trivial, fun _ => trivial⟩
    dsimp only
    split
    · exact hI.switch hF.2
    · exact hI
  · exact (Keeps.call _).spec true

/-- The last lines keep what unmounting keeps. -/
theorem finishRun_keeps {I A : Device → Prop}
    (humount : ∀ w, A w → I w → I { w with mnt := w.mnt.tail } ∧ A { w with mnt := w.mnt.tail }) :
    Keeps I A (finishRun i) := by
  have hmnt : Keeps I A (act (i.ok .umountMnt) fun w =>
      if i.ok .umountMnt then { w with mnt := w.mnt.tail } else w : Sh Vars Device) := by
    apply Keeps.act
    intro w hA hI
    split
    · exact humount w hA hI
    · exact ⟨hI, hA⟩
  have hreboot : Keeps I A (orElse (andThen (flagSet i.flags.fromInitramfs)
      (rebootForced i .rebootForced)) (ext i .reboot)) :=
    .orElse (.andThen (.call _) (rebootForced_keeps _ _ _)) (.call _)
  have hled : Keeps I A (orTrue (ext i .ledSuccess)) := .orElse (.call _) (.call _)
  have hend : Keeps I A (ifThen (neg (flagSet i.flags.noReboot)) (script [
      act (i.ok .umountMnt) fun w => if i.ok .umountMnt then { w with mnt := w.mnt.tail } else w,
      ext i .mqttStatus,
      orElse (andThen (flagSet i.flags.fromInitramfs) (rebootForced i .rebootForced))
        (ext i .reboot)])) :=
    .ifThen (.neg (.call _)) (.script ⟨hmnt, .call _, hreboot⟩)
  exact .script ⟨.call _, hled, hend, .exit _⟩

/-- Once the slots are chosen, a run stays within its effects. -/
theorem installTo_spec (partNow : Slot) (label : String) :
    Spec (Within d part (i.ok .tar)) (fun _ _ => True) true (fun _ => Unswitched d)
      (installTo i part partNow label) fun _ _ _ => True := by
  refine Spec.seq ((prepareMnt_keeps _ _).spec true) fun _ => ?_
  refine Spec.seq ((probeActual_keeps partNow).spec true) fun _ => ?_
  refine Spec.seq (formatAndMount_spec label) fun _ => ?_
  refine Spec.seq checkRollback_spec fun _ => ?_
  refine Spec.seq cleanUp_spec fun _ => ?_
  refine Spec.seq extract_spec fun _ => ?_
  refine Spec.seq ((certificates_keeps _ _).spec true) fun _ => ?_
  refine Spec.seq ((postinst_keeps _ _).spec true) fun _ => ?_
  refine Spec.seq switchRootfs_spec fun _ => ?_
  have hfinish : Keeps (Within d part (i.ok .tar)) (fun _ => True) (finishRun i) :=
    finishRun_keeps fun _ _ hI => ⟨hI.mnt _, trivial⟩
  exact hfinish.spec true

/-! ## The whole run -/

/-- `PART` after lines 59 to 65. -/
def partText (i : Input) (d : Device) : Option Slot :=
  match i.devRoot with
  | some link => link
  | none => if i.ok .fwPrintenv then d.mmcpart else none

/-- The slot a run installs to, if it gets that far. -/
def target (i : Input) (d : Device) : Option Slot :=
  match partText i d with
  | some s => some s.other
  | none => if i.flags.fromInitramfs then some .p2 else none

/-- Checking the update writes nothing. -/
theorem verify_keeps (I A : Device → Prop) : Keeps I A (verify i) :=
  .seq (.ifThenElse (.call _) (.call _) (.orElse (.call _) (.exit _))) (.call _)

/-- `PART` is read from the device the run starts on. -/
theorem findPart_spec {I : Device → Prop} :
    Spec I (fun _ _ => True) true (fun _ => Unswitched d) (findPart i)
      fun _ v w => Unswitched d w ∧ v.part = partText i d := by
  unfold findPart partText
  cases i.devRoot with
  | some link =>
    exact Spec.simple fun _ w hA hI => ⟨hI, fun _ _ => trivial, fun _ => ⟨hA, rfl⟩⟩
  | none =>
    refine Spec.simple fun _ w hA hI => ⟨hI, fun _ _ => trivial, fun _ => ⟨hA, ?_⟩⟩
    rw [show d.mmcpart = w.mmcpart from hA.symm]

/-- The branch of the `case` installs to the target. -/
theorem installUpdate_spec (htarget : target i d = some part) :
    Spec (Within d part (i.ok .tar)) (fun _ _ => True) true (fun _ => Unswitched d)
      (installUpdate i) fun _ _ _ => True := by
  refine Spec.seq ((verify_keeps _ _).spec true) fun _ => ?_
  refine Spec.seq findPart_spec fun _ => ?_
  refine Spec.caseOf fun y => ?_
  cases y with
  | some s =>
    cases s with
    | p2 =>
      rintro v w ⟨⟨hA, hpart⟩, hy⟩ hI
      obtain rfl : Slot.p3 = part := by
        simpa [target, ← hpart, hy, Slot.other] using htarget
      exact installTo_spec .p2 "rootfs1" v w hA hI
    | p3 =>
      rintro v w ⟨⟨hA, hpart⟩, hy⟩ hI
      obtain rfl : Slot.p2 = part := by
        simpa [target, ← hpart, hy, Slot.other] using htarget
      exact installTo_spec .p3 "rootfs0" v w hA hI
  | none =>
    rintro v w ⟨⟨hA, hpart⟩, hy⟩ hI
    obtain ⟨-, rfl⟩ : i.flags.fromInitramfs = true ∧ Slot.p2 = part := by
      simpa [target, ← hpart, hy] using htarget
    have hflag : Keeps (Within d .p2 (i.ok .tar)) (Unswitched d)
        (orElse (andThen (flagSet i.flags.fromInitramfs) (call true)) die) :=
      .orElse (.andThen (.call _) (.call _)) (.exit _)
    exact Spec.seq (hflag.spec true) (fun _ => installTo_spec .p3 "rootfs0") v w hA hI

/-- Without a target the script dies before it touches the device. -/
theorem installUpdate_dies (htarget : target i d = none) :
    Spec (Eq d) (fun _ _ => True) true (fun _ => Unswitched d) (installUpdate i)
      fun _ _ _ => True := by
  refine Spec.seq ((verify_keeps _ _).spec true) fun _ => ?_
  refine Spec.seq findPart_spec fun _ => ?_
  refine Spec.caseOf fun y => ?_
  cases y with
  | some s =>
    rintro v w ⟨⟨_, hpart⟩, hy⟩ _
    exact absurd htarget (by simp [target, ← hpart, hy])
  | none =>
    rintro v w ⟨⟨_, hpart⟩, hy⟩ hI
    have hflag : i.flags.fromInitramfs = false := by
      simpa [target, ← hpart, hy] using htarget
    have hdie : Spec (Eq d) (fun _ _ => True) true (fun (_ : Vars) _ => True)
        (orElse (andThen (flagSet i.flags.fromInitramfs) (call true)) die)
        fun _ _ _ => False := by
      rw [hflag]
      refine Spec.orElse (R := fun ok _ _ => ok = false) ?_ ?_ ?_
      · refine Spec.andThen (R := fun ok _ _ => ok = false) ?_ ?_ ?_
        · exact Spec.simple fun _ _ _ hI => ⟨hI, by simp, fun _ => rfl⟩
        · exact fun _ _ h => absurd h (by simp)
        · exact fun _ _ h => h
      · exact Spec.exit fun _ _ _ _ => trivial
      · exact fun _ _ h => absurd h (by simp)
    exact Spec.seq hdie (fun _ _ _ h => h.elim) v w trivial hI

end Phases

/-- Every device a run passes through or leaves behind is within its effects. -/
theorem install_within {i : Input} {d : Device} {part : Slot} (h : target i d = some part) :
    (∀ w ∈ (install i d).visited, Within { d with mnt := [] } part (i.ok .tar) w) ∧
      Within { d with mnt := [] } part (i.ok .tar) (install i d).world := by
  have hrun := installUpdate_spec (d := { d with mnt := [] }) h ⟨none, "", ""⟩
    { d with mnt := [] } rfl (Within.refl _ _ _)
  exact ⟨hrun.visited, hrun.world⟩

/-- Without a target nothing happens to the device. -/
theorem install_of_target_none {i : Input} {d : Device} (h : target i d = none) :
    (∀ w ∈ (install i d).visited, w = { d with mnt := [] }) ∧
      (install i d).world = { d with mnt := [] } := by
  have hrun := installUpdate_dies (d := { d with mnt := [] }) h ⟨none, "", ""⟩
    { d with mnt := [] } rfl rfl
  exact ⟨fun w hw => (hrun.visited w hw).symm, hrun.world.symm⟩

end WirenBoard.Install
