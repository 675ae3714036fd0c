import Mathlib.Logic.Function.Iterate
import WirenBoard.Core.Subst
import WirenBoard.Models.Install.Slots

/-!
# How a run ends, and what it has then done

A run that reports success has verified the update, filled the other slot and switched to it;
a run that refuses the update has left the device alone at every moment. The refusals are an
incompatible or damaged update, an unknown slot in use, and a rollback from bullseye to
stretch, which may only have formatted a slot that could not be mounted. Over any history of
attempts, each with a reboot behind it, the slots take turns and the system that ran before
stays complete.
-/

namespace WirenBoard.Install

open Shell

/-! ## Success -/

section Success

variable {i : Input} {d : Device} {part : Slot}

private theorem umount_noSuccess (site : Site) (s : Slot) : NoSuccess (umount i site s) := .simple _

private theorem orTrue_noSuccess {c : Sh Vars Device} (h : NoSuccess c) : NoSuccess (orTrue c) :=
  .orElse h (.simple _)

private theorem orDie_noSuccess {c : Sh Vars Device} (h : NoSuccess c) : NoSuccess (orElse c die) :=
  .orElse h .exit

private theorem overwrite_noSuccess (a : Action) (site : Site) (c : Content) :
    NoSuccess (overwrite i a site c) := .seq (.simple _) (.simple _)

private theorem rebootForced_noSuccess (site : Site) : NoSuccess (rebootForced i site) := by
  unfold rebootForced
  split
  · exact .shutdown
  · exact .simple _

private theorem verify_noSuccess : NoSuccess (verify i) :=
  .seq (.ifThenElse (.simple _) (.simple _) (orDie_noSuccess (.simple _))) (.simple _)

private theorem findPart_noSuccess : NoSuccess (findPart i) := by
  unfold findPart
  split <;> exact .simple _

private theorem prepareMnt_noSuccess : NoSuccess (prepareMnt i) :=
  orDie_noSuccess (.andThen (.simple _) (.simple _))

private theorem probeActual_noSuccess (partNow : Slot) : NoSuccess (probeActual i partNow) := by
  have hexists : NoSuccess
      (orElse (andThen (ext i .rootPartExists) (ext i .actualRootfsExists)) die) :=
    orDie_noSuccess (.andThen (.simple _) (.simple _))
  have hread : NoSuccess (andThen (mount i .mountActual partNow)
      (seq
        (assign (i.ok .actualRelease) fun v _ => { v with actualDebRelease := i.actualRelease })
        (orTrue (umount i .umountActual partNow)))) :=
    .andThen (.simple _) (.seq (.simple _) (orTrue_noSuccess (umount_noSuccess _ _)))
  exact .andThen (.simple _) (.seq hexists (orTrue_noSuccess hread))

private theorem formatAndMount_noSuccess (label : String) :
    NoSuccess (formatAndMount i part label) := by
  have hformat : NoSuccess (orElse (mount i .mountProbe part)
      (orElse (act (i.ok .mkfsExt4) fun d => d.write (.format label) part .blank) die)) :=
    .orElse (.simple _) (orDie_noSuccess (.simple _))
  exact .script ⟨hformat, orTrue_noSuccess (umount_noSuccess _ _), orDie_noSuccess (.simple _)⟩

private theorem checkRollback_noSuccess : NoSuccess (checkRollback i part) := by
  have hreboot : NoSuccess
      (script [ext i .ledFailure, ext i .buzzer, rebootForced i .rebootRollback]) :=
    .script ⟨.simple _, .simple _, rebootForced_noSuccess _⟩
  have habort : NoSuccess (seq (orTrue (umount i .umountRollback part)) die) :=
    .seq (orTrue_noSuccess (umount_noSuccess _ _)) .exit
  have hrefuse : NoSuccess (ifThen (neg (flagSet i.flags.factoryreset))
      (ifThenElse (flagSet i.flags.fromInitramfs)
        (script [ext i .ledFailure, ext i .buzzer, rebootForced i .rebootRollback])
        (seq (orTrue (umount i .umountRollback part)) die))) :=
    .ifThen (.neg (.simple _)) (.ifThenElse (.simple _) hreboot habort)
  exact .script ⟨.andThen (.simple _) (.simple _), .simple _,
    .ifThen (.andThen (.simple _) (.simple _)) hrefuse⟩

private theorem cleanUp_noSuccess : NoSuccess (cleanUp i) := by
  have hempty (site : Site) : NoSuccess (orElse (overwrite i .empty site .blank) die) :=
    orDie_noSuccess (overwrite_noSuccess _ _ _)
  exact .seq (.andThen (.simple _) (.simple _)) (.ifThenElse (.simple _) (hempty _) (hempty _))

private theorem extract_noSuccess : NoSuccess (extract i) :=
  .script ⟨.simple _, .simple _, .pipe, .simple _⟩

private theorem certificates_noSuccess : NoSuccess (certificates i) := by
  have hcopy : NoSuccess (ifThen (ext i .mountHiddenfs)
      (seq (orTrue (ext i .catCertificates)) (ext i .umountHiddenfs))) :=
    .ifThen (.simple _) (.seq (orTrue_noSuccess (.simple _)) (.simple _))
  exact .ifThen (.neg (.simple _))
    (.script ⟨.simple _, .simple _, orDie_noSuccess (.simple _), hcopy⟩)

private theorem postinst_noSuccess : NoSuccess (postinst i) := by
  have hrun : NoSuccess (ifThen (ext i .postinstDir)
      (seq (ext i .findPostinst) (script (i.postinst.map fun r => orTrue (call r))))) :=
    .ifThen (.simple _) (.seq (.simple _) (.map (fun _ => orTrue_noSuccess (.simple _)) _))
  exact .ifThen (.neg (.simple _))
    (.script ⟨.simple _, .simple _, .simple _, hrun, .simple _, .simple _, .simple _⟩)

private theorem switchRootfs_noSuccess : NoSuccess (switchRootfs i part) :=
  .seq (.simple _) (.simple _)

end Success

/-! ## Refusals -/

/-- The update is compatible, or the caller insists, and its hash is right. -/
def Verified (i : Input) : Prop :=
  (i.flags.forceCompatible = true ∨ checkCompatible i.fitCompat i.compatibles = true) ∧
    i.ok .fitBlobVerifyHash = true

/-- The script gives up before it chooses a slot. -/
def Refused (i : Input) (d : Device) : Prop :=
  ¬Verified i ∨ i.devRoot.isSome = true ∧ i.ok .readlinkRoot = false ∨ target i d = none

section Refusals

variable {i : Input} {d w : Device} {v : Vars}

private theorem outcome_verify :
    (verify i true v w).outcome =
      ⟨v, w, [], finish true ((i.flags.forceCompatible ||
        checkCompatible i.fitCompat i.compatibles) && i.ok .fitBlobVerifyHash)⟩ := by
  cases hforce : i.flags.forceCompatible with
  | true => simp [verify, flagSet, ext, hforce]
  | false =>
    cases hcompat : checkCompatible i.fitCompat i.compatibles with
    | true => simp [verify, flagSet, ext, hforce, hcompat]
    | false => simp [verify, flagSet, ext, die, hforce, hcompat]

private theorem outcome_findPart :
    (findPart i true v w).outcome =
      ⟨{ v with part := partText i w }, w, [],
        finish true (i.devRoot.isNone || i.ok .readlinkRoot)⟩ := by
  unfold findPart partText
  cases i.devRoot with
  | some link => simp
  | none => simp

/-- A refused run has exited with a failure. -/
theorem install_ending_of_refused (h : Refused i d) : (install i d).ending = .exited false := by
  have houtcome : (install i d).outcome.ending = .exited false := by
    simp only [install, installUpdate, outcome_script_cons, outcome_script_one, outcome_verify]
    cases hverified : (i.flags.forceCompatible || checkCompatible i.fitCompat i.compatibles) &&
        i.ok .fitBlobVerifyHash with
    | false => rfl
    | true =>
      simp only [finish_ok, Outcome.next_status, outcome_findPart, Outcome.after_nil]
      cases hread : i.devRoot.isNone || i.ok .readlinkRoot with
      | false => rfl
      | true =>
        have htarget : target i d = none := by
          rcases h with h | h | h
          · exact absurd (by simpa [Verified] using hverified) h
          · simp [Option.isNone_iff_eq_none, Option.isSome_iff_ne_none] at h hread
            exact absurd (hread.resolve_left h.1) (by simp [h.2])
          · exact h
        have hpart : partText i { d with mnt := [] } = none ∧ i.flags.fromInitramfs = false := by
          change partText i d = none ∧ _
          unfold target at htarget
          cases hpart : partText i d with
          | some s => simp [hpart] at htarget
          | none => simpa [hpart] using htarget
        simp [hpart, flagSet, die]
  exact houtcome

private theorem findPart_keeps (I A : Device → Prop) : Keeps I A (findPart i) := by
  unfold findPart
  split <;> exact .assign _ _

/-- Lines 45 to 51 change nothing. -/
theorem verify_start (I : Device → Prop) (P : Vars → Device → Prop) :
    Spec I (fun _ _ => True) true P (verify i) fun _ v w => P v w ∧ Verified i := by
  have hkeep : Keeps I (fun _ => True) (verify i) := verify_keeps _ _
  refine Spec.post (fun v w _ => hkeep.spec true v w trivial) fun v w ok hP hend _ => ?_
  have houtcome : (verify i true v w).outcome = _ := outcome_verify
  obtain ⟨hvars, hworld, _, hending⟩ := Outcome.mk.inj houtcome
  refine ⟨by rw [hvars, hworld]; exact hP, ?_⟩
  rw [hend] at hending
  cases hverified : (i.flags.forceCompatible || checkCompatible i.fitCompat i.compatibles) &&
      i.ok .fitBlobVerifyHash with
  | true => simpa [Verified] using hverified
  | false => simp [hverified] at hending

/-- Lines 59 to 65 set `PART` and nothing else. -/
theorem findPart_start (I : Device → Prop) (P : Vars → Device → Prop)
    (hP : ∀ v w part, P v w → P { v with part } w) :
    Spec I (fun _ _ => True) true P (findPart i) fun _ v w => P v w ∧ v.part = partText i w ∧
      (i.devRoot.isNone || i.ok .readlinkRoot) = true := by
  have hkeep : Keeps I (fun _ => True) (findPart i) := findPart_keeps _ _
  refine Spec.post (fun v w _ => hkeep.spec true v w trivial) fun v w ok hPw hend _ => ?_
  have houtcome : (findPart i true v w).outcome = _ := outcome_findPart
  obtain ⟨hvars, hworld, _, hending⟩ := Outcome.mk.inj houtcome
  rw [hend] at hending
  refine ⟨by rw [hvars, hworld]; exact hP _ _ _ hPw, by rw [hvars, hworld], ?_⟩
  cases hread : i.devRoot.isNone || i.ok .readlinkRoot with
  | true => rfl
  | false => simp [hread] at hending

/-- A refused run passes only through the device it started on. -/
theorem installUpdate_refused (h : Refused i d) :
    Spec (Eq d) (fun _ _ => True) true (fun _ => Unswitched d) (installUpdate i)
      fun _ _ _ => True := by
  rcases h with h | ⟨hroot, hread⟩ | h
  · exact (verify_start (Eq d) _).seq fun _ _ _ hfalse => (h hfalse.2).elim
  · refine (verify_start (Eq d) _).seq fun _ => ?_
    refine Spec.seq (findPart_start (Eq d) _ fun _ _ _ hP => hP) fun _ _ _ hfalse => ?_
    rw [hread, Option.isNone_eq_false_iff.mpr hroot] at hfalse
    exact absurd hfalse.2.2 (by simp)
  · exact installUpdate_dies h

end Refusals

/-- An update that is incompatible or damaged, or for which no slot can be chosen, is
refused with a failure, and the device is untouched at every moment of the run. -/
theorem refused_leaves_device {i : Input} {d : Device} (h : Refused i d) :
    (install i d).ending = .exited false ∧ (install i d).world = { d with mnt := [] } ∧
      ∀ w ∈ (install i d).visited, w = { d with mnt := [] } := by
  have hrun := installUpdate_refused (d := { d with mnt := [] }) h ⟨none, "", ""⟩
    { d with mnt := [] } rfl rfl
  exact ⟨install_ending_of_refused h, hrun.world.symm, fun w hw => (hrun.visited w hw).symm⟩

/-- An update for another board. -/
theorem refused_leaves_device_incompatible :
    (install { Input.failing (some (some .p2)) [] with
        fitCompat := "contactless,imx6ul-wirenboard61"
        compatibles := ["wirenboard,wirenboard-720"] } Device.fresh).world =
      { Device.fresh with mnt := [] } :=
  (refused_leaves_device (.inl (by simp [Verified, checkCompatible, Input.failing]))).2.1

/-! ## The label of a slot -/

/-- The label that a formatted slot gets. -/
def Slot.label : Slot → String
  | .p2 => "rootfs0"
  | .p3 => "rootfs1"

section Rule

variable {i : Input} {d : Device} {part : Slot} {I G : Device → Prop}

/-- A run that chooses `part` starts to install on the device and the variables it was given;
what holds of the installation holds of the run. -/
theorem installUpdate_rule (htarget : target i d = some part)
    (hbody : Verified i → Spec I (fun ok w => ok = true → G w) true
      (fun v w => w = d ∧ v.actualDebRelease = "") (installTo i part part.other part.label)
      fun _ _ _ => True) :
    Spec I (fun ok w => ok = true → G w) true (fun v w => w = d ∧ v.actualDebRelease = "")
      (installUpdate i) fun _ _ _ => True := by
  refine Spec.seq (verify_noSuccess.spec (verify_start _ _) G) fun _ => ?_
  refine Spec.seq (findPart_noSuccess.spec (findPart_start _ _ fun _ _ _ hP => hP) G) fun _ => ?_
  refine Spec.caseOf fun y => ?_
  rintro v w ⟨⟨⟨⟨rfl, hrelease⟩, hverified⟩, hpart, _⟩, rfl⟩ hI
  have hstart := hbody hverified
  rw [target, ← hpart] at htarget
  cases hv : v.part with
  | some s =>
    simp only [hv, Option.some.injEq] at htarget
    subst htarget
    cases s with
    | p2 => exact hstart v w ⟨rfl, hrelease⟩ hI
    | p3 => exact hstart v w ⟨rfl, hrelease⟩ hI
  | none =>
    obtain ⟨hflag, rfl⟩ : i.flags.fromInitramfs = true ∧ Slot.p2 = part := by
      simpa [hv] using htarget
    have hskip : Spec I (fun ok w => ok = true → G w) true
        (fun v w' => w' = w ∧ v.actualDebRelease = "")
        (orElse (andThen (flagSet i.flags.fromInitramfs) (call true)) die)
        fun _ v w' => w' = w ∧ v.actualDebRelease = "" := by
      rw [hflag]
      refine Spec.orElse (R := fun _ v w' => w' = w ∧ v.actualDebRelease = "") ?_ ?_ fun _ _ h => h
      · refine Spec.andThen (R := fun _ v w' => w' = w ∧ v.actualDebRelease = "") ?_ ?_
          fun _ _ h => h
        · exact Spec.simple fun _ _ hP hI => ⟨hI, by simp, fun _ => hP⟩
        · exact Spec.simple fun _ _ hP hI => ⟨hI, by simp, fun _ => hP⟩
      · exact Spec.exit fun _ _ _ _ h => absurd h (by simp)
    exact Spec.seq hskip (fun _ => hstart) v w ⟨rfl, hrelease⟩ hI

end Rule

/-! ## What success means -/

/-- The device boots the chosen slot next, and its extraction completed unless `tar` failed. -/
def Installed (part : Slot) (tar : Bool) (w : Device) : Prop :=
  w.mmcpart = some part ∧ (tar = true → w.slots part = .extracted)

section Installed

variable {i : Input} {d : Device} {part : Slot} {tar : Bool}

/-- The script goes on only behind a switch that took place. -/
theorem switchRootfs_installed :
    Spec (Within d part tar) (fun _ _ => True) true (fun _ => Filled d part tar)
      (switchRootfs i part) fun _ _ => Installed part tar := by
  refine Spec.seq (R := fun _ _ => Installed part tar) ?_ fun _ => (Keeps.call _).spec true
  apply Spec.simple
  intro _ w hF hI
  cases hok : i.ok .fwSetenvMmcpart with
  | true => exact ⟨hI.switch hF.2, fun _ _ => trivial, fun _ => ⟨rfl, hF.2⟩⟩
  | false =>
    refine ⟨?_, fun _ _ => trivial, fun h => absurd (h rfl) (by simp)⟩
    dsimp only
    split
    · exact hI.switch hF.2
    · exact hI

/-- An installation that reports success has filled the slot and switched to it. -/
theorem installTo_installed (partNow : Slot) (label : String) :
    Spec (Within d part (i.ok .tar)) (fun ok w => ok = true → Installed part (i.ok .tar) w) true
      (fun _ => Unswitched d) (installTo i part partNow label) fun _ _ _ => True := by
  have hquiet {c : Sh Vars Device} {P Q} (hc : NoSuccess c)
      (h : Spec (Within d part (i.ok .tar)) (fun _ _ => True) true P c Q) :=
    hc.spec h (Installed part (i.ok .tar))
  refine Spec.seq (hquiet prepareMnt_noSuccess ((prepareMnt_keeps _ _).spec true)) fun _ => ?_
  refine Spec.seq (hquiet (probeActual_noSuccess partNow)
    ((probeActual_keeps partNow).spec true)) fun _ => ?_
  refine Spec.seq (hquiet (formatAndMount_noSuccess label) (formatAndMount_spec label)) fun _ => ?_
  refine Spec.seq (hquiet checkRollback_noSuccess checkRollback_spec) fun _ => ?_
  refine Spec.seq (hquiet cleanUp_noSuccess cleanUp_spec) fun _ => ?_
  refine Spec.seq (hquiet extract_noSuccess extract_spec) fun _ => ?_
  refine Spec.seq (hquiet certificates_noSuccess ((certificates_keeps _ _).spec true)) fun _ => ?_
  refine Spec.seq (hquiet postinst_noSuccess ((postinst_keeps _ _).spec true)) fun _ => ?_
  refine Spec.seq (hquiet switchRootfs_noSuccess switchRootfs_installed) fun _ => ?_
  have hfinish : Keeps (Within d part (i.ok .tar)) (Installed part (i.ok .tar)) (finishRun i) :=
    finishRun_keeps fun _ hA hI => ⟨hI.mnt _, hA⟩
  exact (hfinish.success true).post fun _ _ _ _ _ _ => trivial

end Installed

/-- A run that reports success has verified the update, knows the slot it did not run from,
has filled it and switched to it, and has left the slot in use and the running system alone. -/
theorem install_success {i : Input} {d : Device} (h : (install i d).ending = .exited true) :
    Verified i ∧ ∃ part, target i d = some part ∧
      (install i d).world.mmcpart = some part ∧
      (i.ok .tar = true → (install i d).world.slots part = .extracted) ∧
      (install i d).world.slots part.other = d.slots part.other ∧
      (install i d).world.running = d.running := by
  have hnot : ¬Refused i d := by
    intro hrefused
    rw [install_ending_of_refused hrefused] at h
    cases h
  obtain ⟨part, htarget⟩ : ∃ part, target i d = some part :=
    Option.ne_none_iff_exists'.mp fun hnone => hnot (.inr (.inr hnone))
  have hverified : Verified i := by
    by_contra hv
    exact hnot (.inl hv)
  have hrun := installUpdate_rule (i := i) (d := { d with mnt := [] })
    (I := Within { d with mnt := [] } part (i.ok .tar)) (G := Installed part (i.ok .tar)) htarget
    (fun _ v w hstart => installTo_installed part.other part.label v w (hstart.1 ▸ rfl))
    ⟨none, "", ""⟩ { d with mnt := [] } ⟨rfl, rfl⟩ (Within.refl _ _ _)
  have hexit := hrun.ending
  rw [show (installUpdate i true ⟨none, "", ""⟩ { d with mnt := [] }).ending = .exited true from h]
    at hexit
  obtain ⟨hmmcpart, hextracted⟩ := hexit rfl
  exact ⟨hverified, part, htarget, hmmcpart, hextracted,
    hrun.world.other part.other part.other_ne.symm, hrun.world.running⟩

/-! ## Taking turns -/

/-- The device runs and boots `s`, which is complete. -/
structure Settled (s : Slot) (d : Device) : Prop where
  /-- The running slot. -/
  running : d.running = some s
  /-- The slot that is booted next. -/
  mmcpart : d.mmcpart = some s
  /-- Its content. -/
  complete : d.slots s = .extracted

/-- The reboot into the slot that `mmcpart` names. -/
def Device.rebooted (d : Device) : Device := { d with running := d.mmcpart, mnt := [] }

/-- The run passes through `w` or leaves it behind. -/
def Passes (i : Input) (d w : Device) : Prop := w ∈ (install i d).visited ∨ w = (install i d).world

/-- A device after a history of attempts, `n` of which came to the switch. An attempt may end
anyhow or be cut short anywhere, and the reboot behind it boots the slot in `mmcpart`; the
sources of the slot in use are true, and none switches behind an extraction that failed. -/
inductive Upgraded (d₀ : Device) : Nat → Device → Prop where
  /-- Nothing has happened. -/
  | start : Upgraded d₀ 0 d₀
  /-- An attempt did not come to the switch. -/
  | kept {n : Nat} {d w : Device} {i : Input} : Upgraded d₀ n d → TrueSources i d →
      Passes i d w → w.mmcpart = d.mmcpart → Upgraded d₀ n w.rebooted
  /-- An attempt has switched, however it ended. -/
  | switched {n : Nat} {d w : Device} {i : Input} : Upgraded d₀ n d → TrueSources i d →
      Passes i d w → w.mmcpart ≠ d.mmcpart → i.ok .tar = true → Upgraded d₀ (n + 1) w.rebooted

section Turns

variable {i : Input} {d₀ d w : Device} {s : Slot} {n : Nat}

/-- On a settled device a run installs to the other slot. -/
theorem Settled.target (h : Settled s d) (hsources : TrueSources i d) :
    target i d = some s.other := by
  have hpart : partText i d = some s := by
    unfold partText
    cases hdev : i.devRoot with
    | some link => exact (hsources.devRoot link hdev).1.trans h.running
    | none => simp only [hsources.fwPrintenv, ite_true, h.mmcpart]
  simp only [Install.target, hpart]

/-- Whatever a run on a settled device passes through, the slot in use is complete, and a switch
goes to the other slot. -/
theorem Settled.passes (h : Settled s d) (hsources : TrueSources i d) (hw : Passes i d w) :
    w.slots s = .extracted ∧ (w.mmcpart = d.mmcpart ∨
      w.mmcpart = some s.other ∧ (i.ok .tar = true → w.slots s.other = .extracted)) := by
  obtain ⟨hvisited, hworld⟩ := install_within (h.target hsources)
  have hwithin : Within { d with mnt := [] } s.other (i.ok .tar) w := by
    rcases hw with hw | rfl
    · exact hvisited w hw
    · exact hworld
  exact ⟨(hwithin.other s s.other_ne).trans h.complete, hwithin.mmcpart⟩

/-- An attempt without a switch leaves the device settled. -/
theorem Settled.kept (h : Settled s d) (hsources : TrueSources i d) (hw : Passes i d w)
    (hsame : w.mmcpart = d.mmcpart) : Settled s w.rebooted := by
  have hmm : w.mmcpart = some s := hsame.trans h.mmcpart
  exact ⟨hmm, hmm, (h.passes hsources hw).1⟩

/-- A switch and the reboot settle the device on the other slot; the one that ran before is
still complete. -/
theorem Settled.switched (h : Settled s d) (hsources : TrueSources i d) (hw : Passes i d w)
    (hswitch : w.mmcpart ≠ d.mmcpart) (htar : i.ok .tar = true) :
    Settled s.other w.rebooted ∧ w.rebooted.slots s = .extracted := by
  obtain ⟨hcomplete, hmm⟩ := h.passes hsources hw
  obtain ⟨hmm, hextracted⟩ := hmm.resolve_left hswitch
  exact ⟨⟨hmm, hmm, hextracted htar⟩, hcomplete⟩

/-- A run that reports success has switched. -/
theorem Settled.mmcpart_ne (h : Settled s d) (hsources : TrueSources i d)
    (hsuccess : (install i d).ending = .exited true) :
    (install i d).world.mmcpart ≠ d.mmcpart := by
  obtain ⟨_, part, htarget, hmmcpart, _⟩ := install_success hsuccess
  obtain rfl : s.other = part := Option.some.inj ((h.target hsources).symm.trans htarget)
  rw [hmmcpart, h.mmcpart]
  exact fun heq => s.other_ne (Option.some.inj heq).symm

/-- Every history of attempts keeps the device settled, on the slot that the number of
switches selects. -/
theorem Upgraded.settled (h : Upgraded d₀ n d) (hstart : Settled s d₀) :
    Settled (Slot.other^[n] s) d := by
  induction h with
  | start => exact hstart
  | kept _ hsources hw hsame ih => exact ih.kept hsources hw hsame
  | switched _ hsources hw hswitch htar ih =>
    rw [Function.iterate_succ_apply']
    exact (ih.switched hsources hw hswitch htar).1

end Turns

/-- From a device that runs and boots a complete slot, after any history of attempts, each with
a reboot behind it, the device runs and boots the slot that the number of switches selects,
complete. The next success moves it to the other slot and leaves the system that ran before
complete. -/
theorem upgraded_slots_alternate {d₀ d : Device} {s : Slot} {n : Nat} (hstart : Settled s d₀)
    (h : Upgraded d₀ n d) :
    Settled (Slot.other^[n] s) d ∧ ∀ i, TrueSources i d → i.ok .tar = true →
      (install i d).ending = .exited true →
      Settled (Slot.other^[n + 1] s) (install i d).world.rebooted ∧
        (install i d).world.rebooted.slots (Slot.other^[n] s) = .extracted := by
  have hsettled := h.settled hstart
  refine ⟨hsettled, fun i hsources htar hsuccess => ?_⟩
  have hswitch := hsettled.mmcpart_ne hsources hsuccess
  rw [Function.iterate_succ_apply']
  exact hsettled.switched hsources (.inr rfl) hswitch htar

private theorem fresh_settled : Settled .p2 Device.fresh := ⟨rfl, rfl, rfl⟩

private theorem trueSources_failing {d : Device} {s : Slot} (hrunning : d.running = some s)
    (sites : List Site) (hprint : Site.fwPrintenv ∉ sites) :
    TrueSources (.failing (some (some s)) sites) d := by
  refine ⟨fun link h => ?_, by simpa [Input.failing] using hprint⟩
  obtain rfl : some s = link := Option.some.inj h
  exact ⟨hrunning.symm, by simp [hrunning]⟩

/-- An attempt whose `fw_setenv upgrade_available` fails behind the switch, and a second one that
reports success, on a device that runs its first slot. -/
theorem upgraded_slots_alternate_twice :
    Settled .p2 (install (.failing (some (some .p3)) [])
      (install (.failing (some (some .p2)) [.fwSetenvUpgrade])
        Device.fresh).world.rebooted).world.rebooted :=
  ((upgraded_slots_alternate fresh_settled (.switched .start
      (trueSources_failing rfl [.fwSetenvUpgrade] (by decide)) (.inr rfl) (by decide +kernel)
      (by decide))).2 _
    (trueSources_failing rfl [] (by decide)) (by decide) (by decide +kernel)).1

/-! ## Refused rollbacks -/

/-- The device has bullseye: a run from the initramfs that can mount the slot in use finds it
there, and any other run, or one that finds no release there, in the system that runs. -/
def OnBullseye (i : Input) : Prop :=
  if i.flags.fromInitramfs = true ∧ i.ok .mountActual = true ∧ i.actualRelease ≠ "" then
    i.actualRelease = "bullseye"
  else i.ownRelease = "bullseye"

/-- A rollback from bullseye to stretch without a factory reset. -/
def RollbackRefused (i : Input) : Prop :=
  OnBullseye i ∧ i.upcomingRelease = "stretch" ∧ i.flags.factoryreset = false

/-- Neither slot has been overwritten. -/
def Unwritten (d w : Device) : Prop := w.slots = d.slots ∧ w.writes = d.writes

/-- Nothing is overwritten; or the chosen slot could not be mounted, and it is formatted. -/
structure Spared (i : Input) (d : Device) (part : Slot) (w : Device) : Prop where
  /-- No switch. -/
  mmcpart : w.mmcpart = d.mmcpart
  /-- The running system. -/
  running : w.running = d.running
  /-- The slots. -/
  slots : Unwritten d w ∨ i.ok .mountProbe = false ∧ w.slots = Function.update d.slots part .blank ∧
    w.writes = d.writes ++ [⟨.format part.label, part, d.running⟩]

/-- What lines 94 to 106 put into `ACTUAL_DEB_RELEASE`. -/
def probedRelease (i : Input) : String :=
  if i.flags.fromInitramfs && i.ok .mountActual then i.actualRelease else ""

/-- The release that line 122 compares. -/
def comparedRelease (i : Input) : String :=
  if probedRelease i = "" then i.ownRelease else probedRelease i

/-- The script sees what the device has. -/
theorem comparedRelease_of_onBullseye {i : Input} (h : OnBullseye i) :
    comparedRelease i = "bullseye" := by
  unfold OnBullseye at h
  unfold comparedRelease probedRelease
  cases hflag : i.flags.fromInitramfs <;> cases hmount : i.ok .mountActual <;>
    simp only [hflag, hmount, Bool.false_eq_true, false_and, and_false, true_and, and_self,
      Bool.and_true, Bool.and_false, if_false, if_true] at h ⊢
  · exact h
  · exact h
  · exact h
  · by_cases hempty : i.actualRelease = ""
    · simpa [hempty] using h
    · simpa [hempty] using h

section Rollback

variable {i : Input} {d w : Device} {part : Slot} {release : String}

/-- What is mounted does not matter. -/
theorem Spared.mnt (h : Spared i d part w) (mnt : List Slot) : Spared i d part { w with mnt } :=
  ⟨h.mmcpart, h.running, h.slots⟩

/-- `ACTUAL_DEB_RELEASE` on a device without overwritings. -/
def Probed (d : Device) (release : String) (v : Vars) (w : Device) : Prop :=
  Unwritten d w ∧ v.actualDebRelease = release

private theorem call_spared {P : Vars → Device → Prop} (errexit ok : Bool) :
    Spec (Spared i d part) (fun _ _ => True) errexit P (call ok) fun _ => P :=
  Spec.simple fun _ _ hP hI => ⟨hI, fun _ _ => trivial, fun _ => hP⟩

private theorem mount_spared (errexit : Bool) (site : Site) (s : Slot) :
    Spec (Spared i d part) (fun _ _ => True) errexit (Probed d release) (mount i site s)
      fun ok v w => Probed d release v w ∧ ok = i.ok site := by
  apply Spec.simple
  intro _ w hP hI
  dsimp only
  split
  · exact ⟨hI.mnt _, fun _ _ => trivial, fun _ => ⟨hP, rfl⟩⟩
  · exact ⟨hI, fun _ _ => trivial, fun _ => ⟨hP, rfl⟩⟩

private theorem umount_spared {P : Vars → Device → Prop}
    (hP : ∀ v w mnt, P v w → P v { w with mnt }) (errexit : Bool) (site : Site) (s : Slot) :
    Spec (Spared i d part) (fun _ _ => True) errexit P (orTrue (umount i site s)) fun _ => P := by
  refine Spec.orElse (R := fun _ => P) ?_ (call_spared errexit true) fun _ _ h => h
  apply Spec.simple
  intro v w h hI
  dsimp only
  split
  · exact ⟨hI.mnt _, fun _ _ => trivial, fun _ => hP v w _ h⟩
  · exact ⟨hI, fun _ _ => trivial, fun _ => h⟩

private theorem prepareMnt_spared {P : Vars → Device → Prop} :
    Spec (Spared i d part) (fun _ _ => True) true P (prepareMnt i) fun _ => P := by
  refine Spec.orElse (R := fun _ => P) ?_ (Spec.exit fun _ _ _ _ => trivial) fun _ _ h => h
  exact (call_spared false _).andThen (call_spared false _) fun _ _ h => h

/-- Lines 94 to 106 look up the release of the slot in use. -/
theorem probeActual_spared (partNow : Slot) :
    Spec (Spared i d part) (fun _ _ => True) true (Probed d "") (probeActual i partNow)
      fun _ => Probed d (probedRelease i) := by
  cases hflag : i.flags.fromInitramfs with
  | false =>
    have hskip : probedRelease i = "" := by simp [probedRelease, hflag]
    rw [hskip, probeActual, hflag]
    refine Spec.andThen (R := fun ok v w => Probed d "" v w ∧ ok = false) ?_ ?_ fun _ _ h => h.1
    · exact Spec.simple fun _ _ hP hI => ⟨hI, by simp, fun _ => ⟨hP, rfl⟩⟩
    · exact fun _ _ h => absurd h.2 (by simp)
  | true =>
    have hexists : Spec (Spared i d part) (fun _ _ => True) true (Probed d "")
        (orElse (andThen (ext i .rootPartExists) (ext i .actualRootfsExists)) die)
        fun _ => Probed d "" := by
      refine Spec.orElse (R := fun _ => Probed d "") ?_ (Spec.exit fun _ _ _ _ => trivial)
        fun _ _ h => h
      exact (call_spared false _).andThen (call_spared false _) fun _ _ h => h
    have hread : ∀ errexit, Spec (Spared i d part) (fun _ _ => True) errexit (Probed d "")
        (assign (i.ok .actualRelease) fun v _ => { v with actualDebRelease := i.actualRelease })
        fun _ => Probed d i.actualRelease :=
      fun _ => Spec.simple fun _ _ hP hI => ⟨hI, fun _ _ => trivial, fun _ => ⟨hP.1, rfl⟩⟩
    have hprobe : Spec (Spared i d part) (fun _ _ => True) true (Probed d "")
        (orTrue (andThen (mount i .mountActual partNow)
          (seq
            (assign (i.ok .actualRelease) fun v _ => { v with actualDebRelease := i.actualRelease })
            (orTrue (umount i .umountActual partNow)))))
        fun _ => Probed d (probedRelease i) := by
      refine Spec.orElse (R := fun _ => Probed d (probedRelease i)) ?_ (call_spared true true)
        fun _ _ h => h
      refine (mount_spared false .mountActual partNow).andThen ?_ ?_
      · rintro v w ⟨hP, hok⟩ hI
        have hrelease : probedRelease i = i.actualRelease := by simp [probedRelease, hflag, ← hok]
        rw [hrelease]
        exact (hread false).seq (fun _ => umount_spared (fun _ _ _ h => h) false _ _) v w hP hI
      · rintro v w ⟨hP, hok⟩
        have hrelease : probedRelease i = "" := by simp [probedRelease, ← hok]
        rw [hrelease]
        exact hP
    rw [probeActual, hflag]
    refine Spec.andThen (R := fun ok v w => Probed d "" v w ∧ ok = true) ?_ ?_ ?_
    · exact Spec.simple fun _ _ hP hI => ⟨hI, by simp, fun _ => ⟨hP, rfl⟩⟩
    · exact fun v w h => hexists.seq (fun _ => hprobe) v w h.1
    · exact fun _ _ h => absurd h.2 (by simp)

/-- Lines 109 to 117 may format the chosen slot, under its label. -/
theorem formatAndMount_spared :
    Spec (Spared i d part) (fun _ _ => True) true (Probed d release)
      (formatAndMount i part part.label) fun _ v _ => v.actualDebRelease = release := by
  have hformat : Spec (Spared i d part) (fun _ _ => True) true
      (fun v w => Probed d release v w ∧ false = i.ok .mountProbe)
      (orElse (act (i.ok .mkfsExt4) fun w => w.write (.format part.label) part .blank) die)
      fun _ v _ => v.actualDebRelease = release := by
    refine Spec.orElse (R := fun _ v _ => v.actualDebRelease = release) ?_
      (Spec.exit fun _ _ _ _ => trivial) fun _ _ h => h
    apply Spec.simple
    rintro v w ⟨hP, hprobe⟩ hI
    refine ⟨⟨hI.mmcpart, hI.running, .inr ⟨hprobe.symm, ?_⟩⟩, fun _ _ => trivial, fun _ => hP.2⟩
    simp only [Device.write, hP.1.1, hP.1.2, hI.running, and_self]
  have hprobe : Spec (Spared i d part) (fun _ _ => True) true (Probed d release)
      (orElse (mount i .mountProbe part)
        (orElse (act (i.ok .mkfsExt4) fun w => w.write (.format part.label) part .blank) die))
      fun _ v _ => v.actualDebRelease = release :=
    (mount_spared false .mountProbe part).orElse (fun v w h => hformat v w h)
      fun _ _ h => h.1.2
  have hmount : Spec (Spared i d part) (fun _ _ => True) true
      (fun v _ => v.actualDebRelease = release) (orElse (mount i .mountRoot part) die)
      fun _ v _ => v.actualDebRelease = release := by
    refine Spec.orElse (R := fun _ v _ => v.actualDebRelease = release) ?_
      (Spec.exit fun _ _ _ _ => trivial) fun _ _ h => h
    apply Spec.simple
    intro _ w h hI
    dsimp only
    split
    · exact ⟨hI.mnt _, fun _ _ => trivial, fun _ => h⟩
    · exact ⟨hI, fun _ _ => trivial, fun _ => h⟩
  refine hprobe.seq fun _ => ?_
  exact (umount_spared (fun _ _ _ h => h) true _ _).seq fun _ => hmount

/-- Line 119 falls back to the release of the running system. -/
theorem ownRelease_spared :
    Spec (Spared i d part) (fun _ _ => True) true
      (fun (v : Vars) _ => v.actualDebRelease = probedRelease i)
      (andThen (test fun v => v.actualDebRelease = "")
        (assign (i.ok .ownRelease) fun v _ => { v with actualDebRelease := i.ownRelease }))
      fun _ v _ => v.actualDebRelease = comparedRelease i := by
  refine Spec.andThen (R := fun ok v _ => v.actualDebRelease = probedRelease i ∧
    ok = decide (v.actualDebRelease = "")) ?_ ?_ ?_
  · exact Spec.simple fun _ _ hP hI => ⟨hI, by simp, fun _ => ⟨hP, rfl⟩⟩
  · refine Spec.simple fun v _ hP hI => ⟨hI, fun _ _ => trivial, fun _ => ?_⟩
    have hempty : probedRelease i = "" := by
      rw [← hP.1]
      exact of_decide_eq_true hP.2.symm
    simp [comparedRelease, hempty]
  · rintro v w ⟨hP, hok⟩
    have hne : ¬probedRelease i = "" := by
      rw [← hP]
      exact of_decide_eq_false hok.symm
    rw [hP, comparedRelease, if_neg hne]

/-- A refused rollback does not come out of lines 119 to 150. -/
theorem checkRollback_refused (h : RollbackRefused i) :
    Spec (Spared i d part) (fun _ _ => True) true
      (fun v _ => v.actualDebRelease = probedRelease i) (checkRollback i part)
      fun _ _ _ => False := by
  obtain ⟨honBullseye, hupcoming, hreset⟩ := h
  have hactual : comparedRelease i = "bullseye" := comparedRelease_of_onBullseye honBullseye
  have hcond : Spec (Spared i d part) (fun _ _ => True) false
      (fun (v : Vars) _ => v.actualDebRelease = "bullseye" ∧ v.upcomingDebRelease = "stretch")
      (andThen (test fun v => v.actualDebRelease = "bullseye")
        (test fun v => v.upcomingDebRelease = "stretch")) fun ok _ _ => ok = true := by
    refine Spec.andThen (R := fun ok v _ => v.upcomingDebRelease = "stretch" ∧ ok = true) ?_ ?_
      fun _ _ h => h.2
    · exact Spec.simple fun v _ hP hI => ⟨hI, by simp, fun _ => ⟨hP.2, by simp [hP.1]⟩⟩
    · exact Spec.simple fun v _ hP hI => ⟨hI, by simp, fun _ => by simp [hP.1]⟩
  have hflag : Spec (Spared i d part) (fun _ _ => True) false (fun _ _ => True)
      (neg (flagSet i.flags.factoryreset)) fun ok _ _ => ok = true :=
    Spec.neg (Spec.simple fun _ _ _ hI => ⟨hI, by simp, fun _ => by simp [hreset]⟩)
  have hreboot : Spec (Spared i d part) (fun _ _ => True) true (fun _ _ => True)
      (script [ext i .ledFailure, ext i .buzzer, rebootForced i .rebootRollback])
      fun _ _ _ => False := by
    refine (call_spared true _).seq fun _ => (call_spared true _).seq fun _ => ?_
    unfold script rebootForced
    split
    · exact Spec.shutdown
    · exact Spec.simple fun _ _ _ hI => ⟨hI, fun _ _ => trivial, fun h => absurd (h rfl) (by simp)⟩
  have hdie : Spec (Spared i d part) (fun _ _ => True) true (fun _ _ => True)
      (seq (orTrue (umount i .umountRollback part)) die) fun _ _ _ => False :=
    (umount_spared (fun _ _ _ h => h) true _ _).seq fun _ => Spec.exit fun _ _ _ _ => trivial
  have hfalse : ∀ {c : Sh Vars Device}, Spec (Spared i d part) (fun _ _ => True) true
      (fun _ _ => false = true) c fun _ _ _ => False := fun _ _ h => absurd h (by simp)
  refine Spec.seq ownRelease_spared fun _ => ?_
  refine Spec.seq (R := fun _ v _ =>
    v.actualDebRelease = "bullseye" ∧ v.upcomingDebRelease = "stretch") ?_ fun _ => ?_
  · exact Spec.simple fun v _ hP hI =>
      ⟨hI, by simp, fun _ => ⟨hP.trans hactual, hupcoming⟩⟩
  · refine hcond.ifThenElse (fun v w _ => ?_) hfalse
    refine hflag.ifThenElse (fun v w _ => ?_) hfalse v w trivial
    exact (call_spared false _).ifThenElse hreboot hdie v w trivial

/-- A refused rollback ends in lines 119 to 150. -/
theorem installTo_rollback (h : RollbackRefused i) :
    Spec (Spared i d part) (fun ok _ => ok = true → False) true (Probed d "")
      (installTo i part part.other part.label) fun _ _ _ => True := by
  have hquiet {c : Sh Vars Device} {P Q} (hc : NoSuccess c)
      (hspec : Spec (Spared i d part) (fun _ _ => True) true P c Q) := hc.spec hspec fun _ => False
  refine Spec.seq (hquiet prepareMnt_noSuccess prepareMnt_spared) fun _ => ?_
  refine Spec.seq (hquiet (probeActual_noSuccess _) (probeActual_spared _)) fun _ => ?_
  refine Spec.seq (hquiet (formatAndMount_noSuccess _) formatAndMount_spared) fun _ => ?_
  exact Spec.seq (hquiet checkRollback_noSuccess (checkRollback_refused h))
    fun _ _ _ hfalse => hfalse.elim

end Rollback

/-- A rollback from bullseye to stretch without a factory reset does not report success, and
at every moment of the run nothing is emptied, extracted or switched: at most the chosen slot,
when it could not be mounted, has been formatted under its label. -/
theorem rollback_spares_device {i : Input} {d : Device} {part : Slot} (h : RollbackRefused i)
    (htarget : target i d = some part) :
    (install i d).ending ≠ .exited true ∧ Spared i d part (install i d).world ∧
      ∀ w ∈ (install i d).visited, Spared i d part w := by
  have hstart : Spared i d part { d with mnt := [] } := ⟨rfl, rfl, .inl ⟨rfl, rfl⟩⟩
  have hrun := installUpdate_rule (i := i) (d := { d with mnt := [] }) (I := Spared i d part)
    (G := fun _ => False) htarget
    (fun _ v w hw => installTo_rollback h v w ⟨hw.1 ▸ ⟨rfl, rfl⟩, hw.2⟩)
    ⟨none, "", ""⟩ { d with mnt := [] } ⟨rfl, rfl⟩ hstart
  refine ⟨fun hend => ?_, hrun.world, hrun.visited⟩
  have hexit := hrun.ending
  rw [show (installUpdate i true ⟨none, "", ""⟩ { d with mnt := [] }).ending = .exited true
    from hend] at hexit
  exact hexit rfl

/-- The device that runs bullseye and cannot mount its other slot is offered stretch. -/
def Input.rollback : Input :=
  { Input.failing (some (some .p2)) [.mountProbe] with upcomingRelease := "stretch" }

/-- Its other slot is formatted at most. -/
theorem rollback_spares_device_stretch :
    Spared .rollback Device.fresh .p3 (install .rollback Device.fresh).world :=
  (rollback_spares_device ⟨by simp [OnBullseye, Input.rollback, Input.failing], rfl, rfl⟩ rfl).2.1

end WirenBoard.Install
