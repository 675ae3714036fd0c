import WirenBoard.Models.Install.Effects

/-!
# The two slots over many runs

A device is reached by any sequence of runs, interruptions and reboots. The slot
that `mmcpart` names keeps a complete root filesystem as long as no run meets one
of two defects: a failed extraction that the pipeline hides, and a slot in use that is
not the one in `mmcpart`, as `/dev/root` names it while a switch is pending. The
running slot is never overwritten as long as the slot in use is read from `/dev/root`
or no switch is pending.
-/

namespace WirenBoard.Install

/-- A device reached from `d₀` by runs that meet `ok`. A run can be cut short at every
device it passes through; the machine can be rebooted at any time. -/
inductive Reachable (ok : Input → Device → Prop) (d₀ : Device) : Device → Prop where
  /-- Nothing has happened. -/
  | start : Reachable ok d₀ d₀
  /-- A run is under way, or was cut short. -/
  | during {d w : Device} {i : Input} : Reachable ok d₀ d → ok i d → w ∈ (install i d).visited →
      Reachable ok d₀ w
  /-- A run has ended. -/
  | after {d : Device} {i : Input} : Reachable ok d₀ d → ok i d →
      Reachable ok d₀ (install i d).world
  /-- U-Boot has booted the slot in `mmcpart`. -/
  | reboot {d : Device} {s : Slot} : Reachable ok d₀ d → d.mmcpart = some s →
      Reachable ok d₀ { d with running := some s, mnt := [] }
  /-- U-Boot has booted the initramfs. -/
  | initramfs {d : Device} : Reachable ok d₀ d →
      Reachable ok d₀ { d with running := none, mnt := [] }

/-- What a run with a target keeps within its effects, and every reboot keeps, holds of
every reached device. -/
theorem Reachable.invariant {ok : Input → Device → Prop} {P : Device → Prop} {d₀ d : Device}
    (h : Reachable ok d₀ d) (hstart : P d₀)
    (hrun : ∀ {d i part w}, P d → ok i d → target i d = some part →
      Within { d with mnt := [] } part (i.ok .tar) w → P w)
    (hboot : ∀ {d} running, P d → P { d with running, mnt := [] }) : P d := by
  have hinstall : ∀ {d i}, P d → ok i d →
      (∀ w ∈ (install i d).visited, P w) ∧ P (install i d).world := by
    intro d i hd hok
    cases htarget : target i d with
    | none =>
      obtain ⟨hvisited, hworld⟩ := install_of_target_none htarget
      have hsame : P { d with mnt := [] } := hboot d.running hd
      exact ⟨fun w hw => hvisited w hw ▸ hsame, hworld ▸ hsame⟩
    | some part =>
      obtain ⟨hvisited, hworld⟩ := install_within htarget
      exact ⟨fun w hw => hrun hd hok htarget (hvisited w hw), hrun hd hok htarget hworld⟩
  induction h with
  | start => exact hstart
  | during _ hok hw ih => exact (hinstall ih hok).1 _ hw
  | after _ hok ih => exact (hinstall ih hok).2
  | reboot _ _ ih => exact hboot _ ih
  | initramfs _ ih => exact hboot _ ih

/-- The other slot is another one. -/
theorem Slot.other_ne (s : Slot) : s ≠ s.other := by cases s <;> simp [Slot.other]

/-! ## The slot in `mmcpart` -/

/-- U-Boot finds a complete root filesystem. -/
def Bootable (d : Device) : Prop := ∃ s, d.mmcpart = some s ∧ d.slots s = .extracted

/-- `tar` does not fail, and the slot that the run takes for the one in use is the slot in
`mmcpart`; or it finds none, and gives up or overwrites `rootfs0` beside `rootfs1`. -/
def SwitchSafe (i : Input) (d : Device) : Prop :=
  i.ok .tar = true ∧ (partText i d = d.mmcpart ∨
    partText i d = none ∧ (i.flags.fromInitramfs = false ∨ d.mmcpart = some .p3))

/-- A safe run does not install to the slot in `mmcpart`. -/
theorem SwitchSafe.target_eq {i : Input} {d : Device} {s part : Slot} (h : SwitchSafe i d)
    (hm : d.mmcpart = some s) (htarget : target i d = some part) : s.other = part := by
  obtain ⟨_, hpart | ⟨hpart, hflag⟩⟩ := h
  · simpa [target, hpart, hm] using htarget
  · obtain ⟨hinitramfs, rfl⟩ : i.flags.fromInitramfs = true ∧ Slot.p2 = part := by
      simpa [target, hpart] using htarget
    rcases hflag with hflag | hflag
    · exact absurd (hinitramfs.symm.trans hflag) (by simp)
    · obtain rfl : s = .p3 := Option.some.inj (hm.symm.trans hflag)
      rfl

/-- From a device whose `mmcpart` names a slot with a complete root filesystem, every
device reached by safe runs, interruptions and reboots is of this kind. -/
theorem reachable_bootable {d₀ d : Device} (hstart : Bootable d₀)
    (h : Reachable SwitchSafe d₀ d) : Bootable d := by
  apply h.invariant hstart
  · rintro d i part w ⟨s, hm, hs⟩ hsafe htarget hw
    obtain rfl := hsafe.target_eq hm htarget
    rcases hw.mmcpart with hmm | ⟨hmm, hx⟩
    · exact ⟨s, hmm.trans hm, (hw.other s s.other_ne).trans hs⟩
    · exact ⟨s.other, hmm, hx hsafe.1⟩
  · exact fun _ hd => hd

/-- A device that runs its first slot. -/
def Device.fresh : Device :=
  ⟨some .p2, some .p2, fun s => if s = .p2 then .extracted else .blank, [], []⟩

/-- A run without reboot in which only the given steps fail. -/
def Input.failing (devRoot : Option (Option Slot)) (sites : List Site) : Input :=
  { flags := ⟨false, false, false, false, false, true⟩
    devRoot
    fitCompat := ""
    compatibles := []
    actualRelease := "bullseye"
    ownRelease := "bullseye"
    upcomingRelease := "bullseye"
    postinst := [true]
    mmcpartWritten := true
    ok := fun site => site ∉ sites }

private theorem fresh_bootable : Bootable Device.fresh := ⟨.p2, rfl, rfl⟩

/-- A run in which every step succeeds leaves the device bootable. -/
theorem reachable_bootable_fresh :
    Bootable (install (.failing (some (some .p2)) []) Device.fresh).world :=
  reachable_bootable fresh_bootable
    (.after .start ⟨by decide, .inl rfl⟩)

private theorem not_bootable_of_partly {d : Device} (hm : d.mmcpart = some .p3)
    (hs : d.slots .p3 = .partly) : ¬Bootable d := by
  rintro ⟨s, hms, hx⟩
  obtain rfl : Slot.p3 = s := Option.some.inj (hm.symm.trans hms)
  rw [hs] at hx
  cases hx

/-- A failed extraction is switched to; and a second run before the reboot empties the
slot that the first one switched to. -/
theorem reachable_not_bootable :
    Bootable Device.fresh ∧
    (∃ d, Reachable (fun _ _ => True) Device.fresh d ∧ ¬Bootable d) ∧
      ∃ d, Reachable (fun i _ => i.ok .tar = true) Device.fresh d ∧ ¬Bootable d := by
  refine ⟨fresh_bootable, ⟨_, .after (i := .failing (some (some .p2)) [.tar]) .start trivial, ?_⟩,
    ⟨_, .after (i := .failing (some (some .p2)) [.rsync])
      (.after (i := .failing (some (some .p2)) []) .start (by decide)) (by decide), ?_⟩⟩
  · exact not_bootable_of_partly (by decide +kernel) (by decide +kernel)
  · exact not_bootable_of_partly (by decide +kernel) (by decide +kernel)

/-! ## The running slot -/

/-- No run has overwritten the slot it was running from. -/
def RunningIntact (d : Device) : Prop := ∀ x ∈ d.writes, x.running ≠ some x.slot

/-- `/dev/root`, if it exists, links to the running slot, and `fw_printenv` prints the
value of `mmcpart`. -/
structure TrueSources (i : Input) (d : Device) : Prop where
  /-- The link. -/
  devRoot : ∀ link, i.devRoot = some link → link = d.running ∧ d.running ≠ none
  /-- The variable. -/
  fwPrintenv : i.ok .fwPrintenv = true

/-- The run starts from the initramfs, `/dev/root` exists, or no switch is pending. -/
def SlotKnown (i : Input) (d : Device) : Prop :=
  d.running = none ∨ i.devRoot ≠ none ∨ d.mmcpart = d.running

/-- A run that knows the running slot does not install to it. -/
theorem target_ne_running {i : Input} {d : Device} {part : Slot} (hsources : TrueSources i d)
    (hknown : SlotKnown i d) (htarget : target i d = some part) : d.running ≠ some part := by
  cases hrun : d.running with
  | none => simp
  | some s =>
    have hpart : partText i d = some s := by
      unfold partText
      cases hdev : i.devRoot with
      | some link => exact (hsources.devRoot link hdev).1.trans hrun
      | none =>
        simp only [hsources.fwPrintenv, ite_true]
        rcases hknown with h | h | h
        · exact absurd (h.symm.trans hrun) (by simp)
        · exact absurd hdev h
        · exact h.trans hrun
    obtain rfl : s.other = part := by simpa [target, hpart] using htarget
    intro h
    exact s.other_ne (Option.some.inj h)

/-- In every sequence of runs and reboots in which each run knows the running slot, no
run formats, empties or extracts into the slot the system runs from. -/
theorem reachable_running_intact {d₀ d : Device} (hstart : d₀.writes = [])
    (h : Reachable (fun i d => TrueSources i d ∧ SlotKnown i d) d₀ d) : RunningIntact d := by
  have hinit : RunningIntact d₀ := by
    intro x hx
    rw [hstart] at hx
    cases hx
  apply h.invariant hinit
  · rintro d i part w hd ⟨hsources, hknown⟩ htarget hw x hx
    have hne : d.running ≠ some part := target_ne_running hsources hknown htarget
    obtain ⟨new, hnew, hall⟩ := hw.writes
    rw [hnew] at hx
    rcases List.mem_append.mp hx with hx | hx
    · exact hd x hx
    · rw [(hall x hx).1, (hall x hx).2]
      exact hne
  · exact fun _ hd => hd

/-- Two runs that read the slot in use from `/dev/root`. -/
theorem reachable_running_intact_twice :
    RunningIntact (install (.failing (some (some .p2)) [])
      (install (.failing (some (some .p2)) []) Device.fresh).world).world := by
  have hroot : ∀ d : Device, d.running = some .p2 →
      TrueSources (.failing (some (some .p2)) []) d ∧
        SlotKnown (.failing (some (some .p2)) []) d := by
    intro d hd
    refine ⟨⟨fun link h => ?_, by decide⟩, .inr (.inl (by simp [Input.failing]))⟩
    obtain rfl : some Slot.p2 = link := Option.some.inj h
    exact ⟨hd.symm, by simp [hd]⟩
  exact reachable_running_intact rfl
    (.after (.after .start (hroot Device.fresh rfl)) (hroot _ rfl))

/-- Without `/dev/root` a second run before the reboot takes the pending slot for the
running one, and overwrites the running one. -/
theorem running_slot_overwritten :
    Device.fresh.running = Device.fresh.mmcpart ∧
      ∃ d, Reachable TrueSources Device.fresh d ∧ ¬RunningIntact d := by
  have hsources : ∀ d, TrueSources (.failing none []) d := by
    refine fun d => ⟨fun link h => ?_, by decide⟩
    cases h
  refine ⟨rfl, _, .after (i := .failing none [])
    (.after (i := .failing none []) .start (hsources _)) (hsources _), ?_⟩
  intro h
  exact absurd rfl (h ⟨.empty, .p2, some .p2⟩ (by decide +kernel))

end WirenBoard.Install
