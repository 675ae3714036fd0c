import WirenBoard.Core.Subst

/-!
# Two scripts alike

Two scripts run from the same variables on two worlds. They are alike when they end in the
same way with the same variables and the same output, and lead worlds in one relation to
worlds in another. The rules follow the constructs of the shell, so that two runs of one
script on different worlds are compared command by command.
-/

namespace WirenBoard.Shell

universe u v w

/-- An assertion behind a status, and another one behind any other ending. -/
def Ending.Either (Q X : Prop) : Ending → Prop
  | .status _ => Q
  | _ => X

/-- What holds for both endings holds. -/
theorem Ending.Either.same {Q : Prop} {e : Ending} (h : e.Either Q Q) : Q := by
  cases e with
  | status ok => exact h
  | exited ok => exact h
  | down => exact h

section Alike

variable {V : Type u} {W : Type v} {W' : Type w} {X Y : W → W' → Prop}
  {P Q R : V → W → W' → Prop}

/-- Results that only the worlds tell apart; these are in `R` behind a status and in `X`
behind any other ending. -/
structure Result.Alike (X : W → W' → Prop) (R : V → W → W' → Prop) (r : Result V W)
    (r' : Result V W') : Prop where
  /-- The variables. -/
  vars : r.vars = r'.vars
  /-- The lines written. -/
  out : r.out = r'.out
  /-- The endings. -/
  ending : r.ending = r'.ending
  /-- The worlds. -/
  world : r.ending.Either (R r.vars r.world r'.world) (X r.world r'.world)

/-- From variables and worlds in `P` the scripts have results alike. -/
def Alike (X : W → W' → Prop) (errexit : Bool) (P : V → W → W' → Prop) (c : Sh V W)
    (c' : Sh V W') (R : V → W → W' → Prop) : Prop :=
  ∀ v w w', P v w w' → (c errexit v w).Alike X R (c' errexit v w')

variable {a b c : Sh V W} {a' b' c' : Sh V W'} {errexit : Bool}

/-- Results from their outcomes. -/
theorem Result.Alike.of_outcome {r : Result V W} {r' : Result V W'} {x : V} {y : W} {z : W'}
    {out : List String} {e : Ending} (h : r.outcome = ⟨x, y, out, e⟩)
    (h' : r'.outcome = ⟨x, z, out, e⟩) (hw : e.Either (R x y z) (X y z)) :
    r.Alike X R r' := by
  obtain ⟨_, _, _, _, _⟩ := r
  obtain ⟨_, _, _, _, _⟩ := r'
  obtain ⟨rfl, rfl, rfl, rfl⟩ := Outcome.mk.inj h
  obtain ⟨rfl, rfl, rfl, rfl⟩ := Outcome.mk.inj h'
  exact ⟨rfl, rfl, rfl, hw⟩

/-- What is known of the first script behind a status may be added. -/
theorem Alike.post (h : Alike X errexit P c c' Q)
    (hpost : ∀ v w w', P v w w' → (∃ ok, (c errexit v w).ending = .status ok) →
      Q (c errexit v w).vars (c errexit v w).world (c' errexit v w').world →
      R (c errexit v w).vars (c errexit v w).world (c' errexit v w').world) :
    Alike X errexit P c c' R := by
  intro v w w' hp
  obtain ⟨hv, ho, he, hw⟩ := h v w w' hp
  refine ⟨hv, ho, he, ?_⟩
  have hR := hpost v w w' hp
  revert hw hR
  cases (c errexit v w).ending with
  | status ok => exact fun hw hR => hR ⟨ok, rfl⟩ hw
  | exited ok => exact fun hw _ => hw
  | down => exact fun hw _ => hw

/-- Simple commands that agree on the variables and the status. -/
theorem Alike.simple {f : V → W → V × W × Bool} {f' : V → W' → V × W' × Bool}
    (h : ∀ v w w', P v w w' → (f v w).1 = (f' v w').1 ∧ (f v w).2.2 = (f' v w').2.2 ∧
      R (f v w).1 (f v w).2.1 (f' v w').2.1 ∧
      ((f v w).2.2 = false → X (f v w).2.1 (f' v w').2.1)) :
    Alike X errexit P (simple f) (simple f') R := by
  intro v w w' hp
  obtain ⟨hv, hs, hR, hfalse⟩ := h v w w' hp
  refine ⟨hv, rfl, by simp [Shell.simple, hs], ?_⟩
  revert hR hfalse
  simp only [Shell.simple, finish]
  cases errexit <;> cases (f v w).2.2 <;> simp +contextual [Ending.Either]

/-- A command without modelled effects runs alike where the exit of a failure may differ so. -/
theorem Alike.call (ok : Bool) (hX : ∀ v w w', P v w w' → X w w') :
    Alike X errexit P (call ok : Sh V W) (call ok : Sh V W') P :=
  .simple fun v w w' hp => ⟨rfl, rfl, hp, fun _ => hX v w w' hp⟩

/-- An assignment runs alike when it carries the relation on. -/
theorem Alike.assign {f : V → V} (h : ∀ v w w', P v w w' → R (f v) w w') :
    Alike X errexit P (assign true fun v _ => f v) (assign true fun v _ => f v) R :=
  .simple fun v w w' hp => ⟨rfl, rfl, h v w w' hp, fun h => absurd h (by simp)⟩

/-- Lines made of variables alone are printed alike. -/
theorem Alike.print (line : V → List Char) : Alike X errexit P (print line) (print line) P :=
  fun _ _ _ hp => ⟨rfl, rfl, rfl, hp⟩

/-- An `exit` runs alike where the worlds may differ so at the end. -/
theorem Alike.exit (ok : Bool) (hX : ∀ v w w', P v w w' → X w w') :
    Alike X errexit P (exit ok : Sh V W) (exit ok : Sh V W') R :=
  fun v w w' hp => ⟨rfl, rfl, rfl, hX v w w' hp⟩

private theorem alike_thenRun {r : Result V W} {r' : Result V W'}
    {next : Bool → Option (V → W → Result V W)} {next' : Bool → Option (V → W' → Result V W')}
    (hr : r.Alike X Q r') (hnext : ∀ ok, (next ok).isSome = (next' ok).isSome)
    (hrun : ∀ ok run run', next ok = some run → next' ok = some run' →
      ∀ v w w', Q v w w' → (run v w).Alike X R (run' v w'))
    (hstop : ∀ ok, next ok = none → ∀ v w w', Q v w w' → R v w w') :
    (r.thenRun next).Alike X R (r'.thenRun next') := by
  obtain ⟨hv, ho, he, hw⟩ := hr
  unfold Result.thenRun
  rw [← he]
  cases hend : r.ending with
  | status ok =>
    rw [hend] at hw
    have hsome := hnext ok
    cases hn : next ok with
    | some run =>
      rw [hn] at hsome
      obtain ⟨run', hn'⟩ := Option.isSome_iff_exists.mp hsome.symm
      obtain ⟨hv', ho', he', hw'⟩ := hrun ok run run' hn hn' r.vars r.world r'.world hw
      simp only [hn, hn']
      rw [hv] at hv' ho' he' hw' ⊢
      exact ⟨hv', by rw [ho, ho'], he', hw'⟩
    | none =>
      rw [hn] at hsome
      have hn' : next' ok = none := by simpa using hsome.symm
      simp only [hn, hn']
      refine ⟨hv, ho, he, ?_⟩
      rw [hend]
      exact hstop ok hn _ _ _ hw
  | exited ok =>
    rw [hend] at hw
    exact ⟨hv, ho, he, by rw [hend]; exact hw⟩
  | down =>
    rw [hend] at hw
    exact ⟨hv, ho, he, by rw [hend]; exact hw⟩

/-- A sequence runs alike when both commands do. -/
theorem Alike.seq (ha : Alike X errexit P a a' Q) (hb : Alike X errexit Q b b' R) :
    Alike X errexit P (seq a b) (seq a' b') R := by
  intro v w w' hp
  refine alike_thenRun (ha v w w' hp) (fun _ => rfl) ?_ fun _ h => absurd h (by simp)
  rintro ok run run' hrun hrun' v w w' hq
  obtain rfl := Option.some.inj hrun
  obtain rfl := Option.some.inj hrun'
  exact hb v w w' hq

/-- `&&` runs alike when both commands do; the first one may also be the last. -/
theorem Alike.andThen (ha : Alike X false P a a' Q) (hb : Alike X errexit Q b b' R)
    (hstop : ∀ v w w', Q v w w' → R v w w') :
    Alike X errexit P (andThen a b) (andThen a' b') R := by
  intro v w w' hp
  refine alike_thenRun (ha v w w' hp) (fun ok => by cases ok <;> rfl) ?_ fun _ _ => hstop
  rintro (_ | _) run run' hrun hrun' v w w' hq
  · exact absurd hrun (by simp)
  · obtain rfl := Option.some.inj hrun
    obtain rfl := Option.some.inj hrun'
    exact hb v w w' hq

/-- `if` runs alike when its condition and both branches do. -/
theorem Alike.ifThenElse (hc : Alike X false P c c' Q) (ha : Alike X errexit Q a a' R)
    (hb : Alike X errexit Q b b' R) :
    Alike X errexit P (ifThenElse c a b) (ifThenElse c' a' b') R := by
  intro v w w' hp
  refine alike_thenRun (hc v w w' hp) (fun ok => rfl) ?_ fun _ h => absurd h (by simp)
  rintro (_ | _) run run' hrun hrun' v w w' hq
  · obtain rfl := Option.some.inj hrun
    obtain rfl := Option.some.inj hrun'
    exact hb v w w' hq
  · obtain rfl := Option.some.inj hrun
    obtain rfl := Option.some.inj hrun'
    exact ha v w w' hq

/-- So does `if` without `else`, whose condition may be all that runs. -/
theorem Alike.ifThen (hc : Alike X false P c c' R) (ha : Alike X errexit R a a' R)
    (hX : ∀ v w w', R v w w' → X w w') : Alike X errexit P (ifThen c a) (ifThen c' a') R :=
  hc.ifThenElse ha (.call true hX)

/-- An assignment ends with a status where its substitution exits, and keeps of the
substitution's variables nothing. -/
theorem Alike.assignFrom (ha : Alike Y false P a a' fun _ => Y) (hX : ∀ w w', Y w w' → X w w')
    (f : List Char → V → V) : Alike X errexit P (assignFrom a f) (assignFrom a' f) fun _ => Y := by
  intro v w w' hp
  obtain ⟨_, ho, he, hw⟩ := ha v w w' hp
  have hfin (ok : Bool) (h : Y (a false v w).world (a' false v w').world) :
      (finish errexit ok).Either (Y (a false v w).world (a' false v w').world)
        (X (a false v w).world (a' false v w').world) := by
    unfold finish
    split
    · exact hX _ _ h
    · exact h
  unfold Shell.assignFrom Result.assigned
  cases hend : (a false v w).ending with
  | status ok =>
    rw [hend] at hw
    simp only [← he, hend]
    exact ⟨by rw [ho], rfl, rfl, hfin ok hw⟩
  | exited ok =>
    rw [hend] at hw
    simp only [← he, hend]
    exact ⟨by rw [ho], rfl, rfl, hfin ok hw⟩
  | down =>
    rw [hend] at hw
    simp only [← he, hend]
    exact ⟨rfl, rfl, rfl, hX _ _ hw⟩

end Alike

end WirenBoard.Shell
