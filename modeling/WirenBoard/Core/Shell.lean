import Mathlib.Data.List.Basic

/-!
# A shell with `set -e`

A piece of script runs on shell variables and on a world outside the shell. Its
result keeps every world it passed through, so that a property can speak about a
script that is interrupted anywhere. The flag handed down says whether a failing
command ends the shell here: conditions and all but the last command of a list
ignore failures, an exit inside a subshell ends only the subshell, and a pipeline
has the status of its last command. The rules below carry an invariant of all
passed worlds through a script together with assertions on the ways it ends.
-/

namespace WirenBoard.Shell

universe u v

/-- How a piece of script ends. -/
inductive Ending where
  /-- It finished with this status. -/
  | status (ok : Bool)
  /-- The shell process exited with this status. -/
  | exited (ok : Bool)
  /-- The machine went down. -/
  | down
  deriving DecidableEq

/-- What a piece of script leaves behind. -/
structure Result (V : Type u) (W : Type v) where
  /-- The variables. -/
  vars : V
  /-- The world. -/
  world : W
  /-- The worlds passed through, in order. -/
  visited : List W
  /-- The lines written to the standard output. -/
  out : List String
  /-- How it ended. -/
  ending : Ending

/-- A piece of script; the flag says whether a failing command ends the shell. -/
abbrev Sh (V : Type u) (W : Type v) := Bool → V → W → Result V W

section Commands

variable {V : Type u} {W : Type v}

/-- The status of a command, or the exit it causes. -/
def finish (errexit ok : Bool) : Ending := if errexit && !ok then .exited false else .status ok

/-- A simple command that computes new variables, a new world and a status. -/
def simple (f : V → W → V × W × Bool) : Sh V W := fun errexit v w =>
  let r := f v w
  ⟨r.1, r.2.1, [r.2.1], [], finish errexit r.2.2⟩

/-- A command that changes nothing of interest. -/
def call (ok : Bool) : Sh V W := simple fun v w => (v, w, ok)

/-- A command that changes the world. -/
def act (ok : Bool) (f : W → W) : Sh V W := simple fun v w => (v, f w, ok)

/-- `x=value` and `x=$(command)`, with the status of the command. -/
def assign (ok : Bool) (f : V → W → V) : Sh V W := simple fun v w => (f v w, w, ok)

/-- `[[ ... ]]` on the variables. -/
def test (p : V → Bool) : Sh V W := simple fun v w => (v, w, p v)

/-- `echo`. -/
def echo (line : String) : Sh V W := fun _ v w => ⟨v, w, [], [line], .status true⟩

/-- `exit`. -/
def exit (ok : Bool) : Sh V W := fun _ v w => ⟨v, w, [], [], .exited ok⟩

/-- A command that takes the machine down. -/
def shutdown : Sh V W := fun _ v w => ⟨v, w, [], [], .down⟩

/-- Go on from a status with the next piece of script, if there is one; an exit and a
machine that is down are final. -/
def Result.thenRun (r : Result V W) (next : Bool → Option (V → W → Result V W)) : Result V W :=
  match r.ending with
  | .status ok =>
    match next ok with
    | some run =>
      let s := run r.vars r.world
      { s with visited := r.visited ++ s.visited, out := r.out ++ s.out }
    | none => r
  | _ => r

/-- `a; b`. -/
def seq (a b : Sh V W) : Sh V W := fun errexit v w =>
  (a errexit v w).thenRun fun _ => some (b errexit)

/-- `a && b`. -/
def andThen (a b : Sh V W) : Sh V W := fun errexit v w =>
  (a false v w).thenRun fun ok => if ok then some (b errexit) else none

/-- `a || b`. -/
def orElse (a b : Sh V W) : Sh V W := fun errexit v w =>
  (a false v w).thenRun fun ok => if ok then none else some (b errexit)

/-- `if c; then a; else b; fi`. -/
def ifThenElse (c a b : Sh V W) : Sh V W := fun errexit v w =>
  (c false v w).thenRun fun ok => some ((if ok then a else b) errexit)

/-- `if c; then a; fi`. -/
def ifThen (c a : Sh V W) : Sh V W := ifThenElse c a (call true)

/-- The opposite status. -/
def Ending.negate : Ending → Ending
  | .status ok => .status !ok
  | e => e

/-- `case "$x" in ... esac`. -/
def caseOf {α : Type u} (x : V → α) (branch : α → Sh V W) : Sh V W := fun errexit v w =>
  branch (x v) errexit v w

/-- `! a`. -/
def neg (a : Sh V W) : Sh V W := fun _ v w =>
  let r := a false v w
  { r with ending := r.ending.negate }

/-- The commands of a block or of the rounds of a loop, one after the other. -/
def script : List (Sh V W) → Sh V W
  | [] => call true
  | [c] => c
  | c :: d :: cs => seq c (script (d :: cs))

/-- The status of a subshell as the enclosing shell sees it. -/
def Ending.ofSubshell (errexit : Bool) : Ending → Ending
  | .status ok => finish errexit ok
  | .exited ok => finish errexit ok
  | .down => .down

/-- `( a ) | b` without `pipefail`: both sides are subshells, `b` reads what `a`
wrote, and the status is that of `b`. -/
def pipe (a : Sh V W) (b : List String → Sh V W) : Sh V W := fun errexit v w =>
  let r := a errexit v w
  match r.ending with
  | .down => ⟨v, r.world, r.visited, [], .down⟩
  | _ =>
    let s := b r.out errexit v r.world
    ⟨v, s.world, r.visited ++ s.visited, s.out, s.ending.ofSubshell errexit⟩

/-- A script with a trap on exit. Where the world has the trap set when the script ends, the
trap runs under the same `set -e`, and an exit inside it replaces the status. -/
def trapped (armed : W → Bool) (trap c : Sh V W) : Sh V W := fun errexit v w =>
  let r := c errexit v w
  match r.ending with
  | .down => r
  | .status ok | .exited ok =>
    if armed r.world then
      let s := trap errexit r.vars r.world
      let ending := match s.ending with
        | .status _ => .exited ok
        | e => e
      ⟨s.vars, s.world, r.visited ++ s.visited, r.out ++ s.out, ending⟩
    else { r with ending := .exited ok }

end Commands

/-- What holds of a command that does nothing, and of `a; b` where it holds of `a` and of `b`,
holds of a script where it holds of each of its commands. -/
theorem script_of_forall {V : Type u} {W : Type v} {P : Sh V W → Prop} (hcall : P (call true))
    (hseq : ∀ a b, P a → P b → P (seq a b)) {cs : List (Sh V W)} (h : cs.Forall P) :
    P (script cs) := by
  induction cs with
  | nil => exact hcall
  | cons c cs ih =>
    obtain ⟨hc, hcs⟩ := (List.forall_cons P c cs).mp h
    cases cs with
    | nil => exact hc
    | cons d cs => exact hseq _ _ hc (ih hcs)

/-- The rounds of a loop. -/
theorem forall_rounds {V : Type u} {W : Type v} {P : Sh V W → Prop} {α : Type*}
    {body : α → Sh V W} (h : ∀ x, P (body x)) (xs : List α) : (xs.map body).Forall P :=
  (List.forall_map_iff _).mpr (List.forall_iff_forall_mem.mpr fun x _ => h x)

/-! ## Rules -/

/-- Assertions on the two endings a caller can observe. -/
def Ending.Post (Q X : Bool → Prop) : Ending → Prop
  | .status ok => Q ok
  | .exited ok => X ok
  | .down => True

section Rules

variable {V : Type u} {W : Type v} {I : W → Prop} {X : Bool → W → Prop} {errexit : Bool}
  {P : V → W → Prop} {Q R : Bool → V → W → Prop} {a b c : Sh V W}

/-- All worlds keep the invariant, and the ending meets its assertion. -/
structure Result.Meets (I : W → Prop) (X : Bool → W → Prop) (Q : Bool → V → W → Prop)
    (r : Result V W) : Prop where
  /-- The worlds passed through. -/
  visited : ∀ w ∈ r.visited, I w
  /-- The world left behind. -/
  world : I r.world
  /-- A status meets `Q`, an exit meets `X`. -/
  ending : r.ending.Post (fun ok => Q ok r.vars r.world) fun ok => X ok r.world

/-- From variables and a world that meet `P`, the script keeps `I`, ends with `Q` when
it finishes and with `X` when the shell exits. -/
def Spec (I : W → Prop) (X : Bool → W → Prop) (errexit : Bool) (P : V → W → Prop) (c : Sh V W)
    (Q : Bool → V → W → Prop) : Prop :=
  ∀ v w, P v w → I w → (c errexit v w).Meets I X Q

/-- A simple command is specified by what it makes of each state, and by the exit that a failure
leads to under `set -e`. -/
theorem Spec.simple {f : V → W → V × W × Bool}
    (h : ∀ v w, P v w → I w → I (f v w).2.1 ∧
      (errexit = true → (f v w).2.2 = false → X false (f v w).2.1) ∧
      ((errexit = true → (f v w).2.2 = true) → Q (f v w).2.2 (f v w).1 (f v w).2.1)) :
    Spec I X errexit P (simple f) Q := by
  intro v w hp hi
  obtain ⟨hworld, hexit, hstatus⟩ := h v w hp hi
  refine ⟨by simpa [Shell.simple] using hworld, hworld, ?_⟩
  revert hexit hstatus
  simp only [Shell.simple, finish]
  cases errexit <;> cases (f v w).2.2 <;> simp [Ending.Post]

/-- A message changes nothing. -/
theorem Spec.echo {line : String} : Spec I X errexit P (echo line) fun _ => P :=
  fun _ _ hp hi => ⟨by simp [Shell.echo], hi, hp⟩

/-- Behind an `exit` nothing is promised; the exit itself must be allowed. -/
theorem Spec.exit {ok : Bool} (h : ∀ v w, P v w → I w → X ok w) :
    Spec I X errexit P (exit ok) Q :=
  fun v w hp hi => ⟨by simp [Shell.exit], hi, h v w hp hi⟩

/-- Behind a shutdown nothing runs. -/
theorem Spec.shutdown : Spec I X errexit P shutdown Q :=
  fun _ _ _ hi => ⟨by simp [Shell.shutdown], hi, trivial⟩

/-- Going on from a result that meets `R`. -/
theorem Result.Meets.thenRun {r : Result V W} {next : Bool → Option (V → W → Result V W)}
    (hr : r.Meets I X R)
    (hrun : ∀ ok run, next ok = some run → R ok r.vars r.world → I r.world →
      (run r.vars r.world).Meets I X Q)
    (hstop : ∀ ok, next ok = none → R ok r.vars r.world → Q ok r.vars r.world) :
    (r.thenRun next).Meets I X Q := by
  obtain ⟨hv, hw, he⟩ := hr
  unfold Result.thenRun
  cases hend : r.ending with
  | status ok =>
    rw [hend] at he
    cases hnext : next ok with
    | some run =>
      obtain ⟨hv', hw', he'⟩ := hrun ok run hnext he hw
      simp only [hnext]
      refine ⟨?_, hw', he'⟩
      intro w hmem
      rcases List.mem_append.mp hmem with hmem | hmem
      · exact hv w hmem
      · exact hv' w hmem
    | none =>
      simp only [hnext]
      refine ⟨hv, hw, ?_⟩
      rw [hend]
      exact hstop ok hnext he
  | exited ok =>
    rw [hend] at he
    exact ⟨hv, hw, by rw [hend]; exact he⟩
  | down => exact ⟨hv, hw, by rw [hend]; trivial⟩

/-- A sequence passes on what its first command leaves, whatever the status. -/
theorem Spec.seq (ha : Spec I X errexit P a R) (hb : ∀ ok, Spec I X errexit (R ok) b Q) :
    Spec I X errexit P (seq a b) Q := by
  intro v w hp hi
  apply (ha v w hp hi).thenRun
  · rintro ok run hrun hR hw
    obtain rfl := Option.some.inj hrun
    exact hb ok _ _ hR hw
  · exact fun ok h => absurd h (by simp)

/-- Behind `&&` the second command starts from a success; a failure is the status of the whole. -/
theorem Spec.andThen (ha : Spec I X false P a R) (hb : Spec I X errexit (R true) b Q)
    (hstop : ∀ v w, R false v w → Q false v w) : Spec I X errexit P (andThen a b) Q := by
  intro v w hp hi
  apply (ha v w hp hi).thenRun
  · rintro (_ | _) run hrun hR hw
    · exact absurd hrun (by simp)
    · obtain rfl := Option.some.inj hrun
      exact hb _ _ hR hw
  · rintro (_ | _) hnone hR
    · exact hstop _ _ hR
    · exact absurd hnone (by simp)

/-- Behind `||` the second command starts from a failure; a success is the status of the whole. -/
theorem Spec.orElse (ha : Spec I X false P a R) (hb : Spec I X errexit (R false) b Q)
    (hstop : ∀ v w, R true v w → Q true v w) : Spec I X errexit P (orElse a b) Q := by
  intro v w hp hi
  apply (ha v w hp hi).thenRun
  · rintro (_ | _) run hrun hR hw
    · obtain rfl := Option.some.inj hrun
      exact hb _ _ hR hw
    · exact absurd hrun (by simp)
  · rintro (_ | _) hnone hR
    · exact absurd hnone (by simp)
    · exact hstop _ _ hR

/-- Each branch starts from the status of the condition that leads to it. -/
theorem Spec.ifThenElse (hc : Spec I X false P c R) (ha : Spec I X errexit (R true) a Q)
    (hb : Spec I X errexit (R false) b Q) : Spec I X errexit P (ifThenElse c a b) Q := by
  intro v w hp hi
  apply (hc v w hp hi).thenRun
  · rintro (_ | _) run hrun hR hw
    · obtain rfl := Option.some.inj hrun
      exact hb _ _ hR hw
    · obtain rfl := Option.some.inj hrun
      exact ha _ _ hR hw
  · exact fun ok h => absurd h (by simp)

/-- A negation turns the status around. -/
theorem Spec.neg (ha : Spec I X false P a fun ok => Q !ok) : Spec I X errexit P (neg a) Q := by
  intro v w hp hi
  obtain ⟨hv, hw, he⟩ := ha v w hp hi
  refine ⟨hv, hw, ?_⟩
  simp only [Shell.neg]
  revert he
  cases (a false v w).ending with
  | status ok => exact id
  | exited ok => exact id
  | down => exact id

/-- Each branch starts from the value that selects it. -/
theorem Spec.caseOf {α : Type u} {x : V → α} {branch : α → Sh V W}
    (h : ∀ y, Spec I X errexit (fun v w => P v w ∧ x v = y) (branch y) Q) :
    Spec I X errexit P (caseOf x branch) Q :=
  fun v w hp hi => h (x v) v w ⟨hp, rfl⟩ hi

/-- What is known of the status, variables and world behind a script may be added. -/
theorem Spec.post (h : Spec I X errexit P c Q)
    (hpost : ∀ v w ok, P v w → (c errexit v w).ending = .status ok →
      Q ok (c errexit v w).vars (c errexit v w).world →
      R ok (c errexit v w).vars (c errexit v w).world) : Spec I X errexit P c R := by
  intro v w hp hi
  obtain ⟨hv, hw, he⟩ := h v w hp hi
  refine ⟨hv, hw, ?_⟩
  have hR := hpost v w
  revert he hR
  cases (c errexit v w).ending with
  | status ok => exact fun he hR => hR ok hp rfl he
  | exited ok => exact fun he _ => he
  | down => exact fun he _ => he

/-- Less may be asked of an exit. -/
theorem Spec.exits {Y : Bool → W → Prop} (h : Spec I X errexit P c Q)
    (hX : ∀ ok w, X ok w → Y ok w) : Spec I Y errexit P c Q := by
  intro v w hp hi
  obtain ⟨hv, hw, he⟩ := h v w hp hi
  refine ⟨hv, hw, ?_⟩
  revert he
  cases (c errexit v w).ending with
  | status ok => exact id
  | exited ok => exact hX ok _
  | down => exact id

/-- The invariant as a part of the assertions. -/
theorem Spec.carry (h : Spec I (fun _ _ => True) errexit P c Q) :
    Spec (fun _ => True) (fun _ _ => True) errexit (fun v w => P v w ∧ I w) c
      fun ok v w => Q ok v w ∧ I w := by
  intro v w hp _
  obtain ⟨_, hw, he⟩ := h v w hp.1 hp.2
  refine ⟨fun _ _ => trivial, trivial, ?_⟩
  revert he
  cases (c errexit v w).ending with
  | status ok => exact fun hQ => ⟨hQ, hw⟩
  | exited ok => exact fun _ => trivial
  | down => exact fun _ => trivial

/-- Every script meets the rule that asks for nothing. -/
theorem Spec.top : Spec (fun _ => True) (fun _ _ => True) errexit P c fun _ _ _ => True := by
  intro v w _ _
  refine ⟨fun _ _ => trivial, trivial, ?_⟩
  cases (c errexit v w).ending with
  | status ok => trivial
  | exited ok => trivial
  | down => trivial

/-- Two rules about one script make one. -/
theorem Spec.and {Y : Bool → W → Prop} {P' : V → W → Prop} (h : Spec I X errexit P c Q)
    (h' : Spec I Y errexit P' c R) :
    Spec I (fun ok w => X ok w ∧ Y ok w) errexit (fun v w => P v w ∧ P' v w) c
      fun ok v w => Q ok v w ∧ R ok v w := by
  intro v w hp hi
  obtain ⟨hv, hw, he⟩ := h v w hp.1 hi
  obtain ⟨_, _, he'⟩ := h' v w hp.2 hi
  refine ⟨hv, hw, ?_⟩
  revert he he'
  cases (c errexit v w).ending with
  | status ok => exact And.intro
  | exited ok => exact And.intro
  | down => exact fun _ _ => trivial

/-- Behind the first side of a pipeline only what holds on both of its endings is
known; the second side keeps it and decides the status. -/
theorem Spec.pipe {b : List String → Sh V W} {A : W → Prop}
    (ha : Spec I (fun _ => A) errexit P a fun _ _ => A)
    (hb : ∀ out, Spec I (fun _ => A) errexit (fun _ => A) (b out) fun _ _ => A)
    (hexit : ∀ w, A w → I w → X false w) :
    Spec I X errexit P (pipe a b) fun _ _ => A := by
  intro v w hp hi
  obtain ⟨hv, hw, he⟩ := ha v w hp hi
  have hgo : A (a errexit v w).world → ∀ s : Result V W,
      s = b (a errexit v w).out errexit v (a errexit v w).world →
      Result.Meets I X (fun _ _ => A) (⟨v, s.world, (a errexit v w).visited ++ s.visited, s.out,
        s.ending.ofSubshell errexit⟩ : Result V W) := by
    rintro hA s rfl
    obtain ⟨hv', hw', he'⟩ := hb (a errexit v w).out v (a errexit v w).world hA hw
    refine ⟨?_, hw', ?_⟩
    · intro w' hmem
      rcases List.mem_append.mp hmem with hmem | hmem
      · exact hv w' hmem
      · exact hv' w' hmem
    · generalize b (a errexit v w).out errexit v (a errexit v w).world = s at *
      have hfin : ∀ ok, A s.world → (finish errexit ok).Post (fun _ => A s.world)
          fun ok => X ok s.world := by
        intro ok hA'
        have hx := hexit s.world hA' hw'
        unfold finish
        split
        · exact hx
        · exact hA'
      cases hend : s.ending with
      | status ok => exact hfin ok (by rw [hend] at he'; exact he')
      | exited ok => exact hfin ok (by rw [hend] at he'; exact he')
      | down => trivial
  cases hend : (a errexit v w).ending with
  | status ok =>
    simp only [Shell.pipe, hend]
    exact hgo (by rw [hend] at he; exact he) _ rfl
  | exited ok =>
    simp only [Shell.pipe, hend]
    exact hgo (by rw [hend] at he; exact he) _ rfl
  | down =>
    simp only [Shell.pipe, hend]
    exact ⟨hv, hw, trivial⟩

end Rules

/-- Behind a script with a trap on exit the assertion that the trap makes of the script's own
holds, and where no trap was set, what the script's own gives. -/
theorem Spec.trapped {A : Bool → W → Prop} {armed : W → Bool} {trap : Sh V W}
    (hc : Spec I A errexit P c fun ok _ => A ok)
    (htrap : ∀ ok, Spec I X errexit (fun _ w => A ok w ∧ armed w = true) trap fun _ _ => X ok)
    (hnone : ∀ ok w, A ok w → armed w = false → X ok w) :
    Spec I X errexit P (trapped armed trap c) Q := by
  intro v w hp hi
  obtain ⟨hv, hw, he⟩ := hc v w hp hi
  have hgo : ∀ ok, A ok (c errexit v w).world → Result.Meets I X Q
      (if armed (c errexit v w).world then
        let s := trap errexit (c errexit v w).vars (c errexit v w).world
        let ending := match s.ending with
          | .status _ => .exited ok
          | e => e
        ⟨s.vars, s.world, (c errexit v w).visited ++ s.visited, (c errexit v w).out ++ s.out,
          ending⟩
      else { c errexit v w with ending := .exited ok }) := by
    intro ok hA
    cases harmed : armed (c errexit v w).world with
    | false => exact ⟨hv, hw, hnone ok _ hA harmed⟩
    | true =>
      obtain ⟨hv', hw', he'⟩ := htrap ok (c errexit v w).vars _ ⟨hA, harmed⟩ hw
      refine ⟨?_, hw', ?_⟩
      · intro w' hmem
        rcases List.mem_append.mp hmem with hmem | hmem
        · exact hv w' hmem
        · exact hv' w' hmem
      · simp only [ite_true]
        revert he'
        cases (trap errexit (c errexit v w).vars (c errexit v w).world).ending with
        | status _ => exact id
        | exited _ => exact id
        | down => exact id
  cases hend : (c errexit v w).ending with
  | status ok =>
    rw [hend] at he
    simpa only [Shell.trapped, hend] using hgo ok he
  | exited ok =>
    rw [hend] at he
    simpa only [Shell.trapped, hend] using hgo ok he
  | down =>
    simp only [Shell.trapped, hend]
    exact ⟨hv, hw, by rw [hend]; trivial⟩

/-! ## Scripts that keep an assertion -/

/-- From every world with `A` the script passes only through worlds with `I` and ends
with `A`, whether it finishes or exits. -/
def Keeps {V : Type u} {W : Type v} (I A : W → Prop) (c : Sh V W) : Prop :=
  ∀ errexit, Spec I (fun _ => A) errexit (fun _ => A) c fun _ _ => A

section Keeps

variable {V : Type u} {W : Type v} {I A : W → Prop} {a b c : Sh V W}

/-- A script that keeps an assertion, where nothing is asked of an exit. -/
theorem Keeps.spec (h : Keeps I A c) (errexit : Bool) :
    Spec I (fun _ _ => True) errexit (fun _ => A) c fun _ _ => A := by
  intro v w hA hI
  obtain ⟨hv, hw, he⟩ := h errexit v w hA hI
  refine ⟨hv, hw, ?_⟩
  revert he
  cases (c errexit v w).ending with
  | status ok => exact id
  | exited ok => exact fun _ => trivial
  | down => exact id

/-- A script that keeps an assertion everywhere, where only its end matters. -/
theorem Keeps.alone (h : Keeps A A c) (errexit : Bool) :
    Spec (fun _ => True) (fun _ _ => True) errexit (fun _ => A) c fun _ _ => A := by
  intro v w hA _
  obtain ⟨_, _, he⟩ := (h.spec errexit) v w hA hA
  exact ⟨fun _ _ => trivial, trivial, he⟩

/-- A script that keeps an assertion has it at every exit. -/
theorem Keeps.exits {B : Bool → W → Prop} (h : Keeps I A c) (hB : ∀ ok w, A w → B ok w)
    (errexit : Bool) : Spec I B errexit (fun _ => A) c fun _ _ => A :=
  (h errexit).exits hB

/-- A script that keeps an assertion has it at a successful exit. -/
theorem Keeps.success (h : Keeps I A c) (errexit : Bool) :
    Spec I (fun ok w => ok = true → A w) errexit (fun _ => A) c fun _ _ => A :=
  h.exits (B := fun ok w => ok = true → A w) (fun _ _ hA _ => hA) errexit

/-- A command whose effects are not modelled keeps everything. -/
theorem Keeps.call (ok : Bool) : Keeps I A (call ok : Sh V W) :=
  fun _ => Spec.simple fun _ _ hA hI => ⟨hI, fun _ _ => hA, fun _ => hA⟩

/-- An assignment keeps what is said about the world. -/
theorem Keeps.assign (ok : Bool) (f : V → W → V) : Keeps I A (assign ok f : Sh V W) :=
  fun _ => Spec.simple fun _ _ hA hI => ⟨hI, fun _ _ => hA, fun _ => hA⟩

/-- A test keeps everything. -/
theorem Keeps.test (p : V → Bool) : Keeps I A (test p : Sh V W) :=
  fun _ => Spec.simple fun _ _ hA hI => ⟨hI, fun _ _ => hA, fun _ => hA⟩

/-- An effect keeps what its function keeps. -/
theorem Keeps.act {ok : Bool} {f : W → W} (h : ∀ w, A w → I w → I (f w) ∧ A (f w)) :
    Keeps I A (act ok f : Sh V W) :=
  fun _ => Spec.simple fun _ w hA hI => ⟨(h w hA hI).1, fun _ _ => (h w hA hI).2,
    fun _ => (h w hA hI).2⟩

/-- An `exit` leaves the world alone. -/
theorem Keeps.exit (ok : Bool) : Keeps I A (exit ok : Sh V W) :=
  fun _ => Spec.exit fun _ _ hA _ => hA

/-- A shutdown leaves the world alone. -/
theorem Keeps.shutdown : Keeps I A (shutdown : Sh V W) :=
  fun _ => Spec.shutdown

/-- A sequence keeps what both commands keep. -/
theorem Keeps.seq (ha : Keeps I A a) (hb : Keeps I A b) : Keeps I A (seq a b) :=
  fun errexit => (ha errexit).seq fun _ => hb errexit

/-- `&&` keeps what both commands keep. -/
theorem Keeps.andThen (ha : Keeps I A a) (hb : Keeps I A b) : Keeps I A (andThen a b) :=
  fun errexit => (ha false).andThen (hb errexit) fun _ _ h => h

/-- `||` keeps what both commands keep. -/
theorem Keeps.orElse (ha : Keeps I A a) (hb : Keeps I A b) : Keeps I A (orElse a b) :=
  fun errexit => (ha false).orElse (hb errexit) fun _ _ h => h

/-- `if` keeps what its condition and both branches keep. -/
theorem Keeps.ifThenElse (hc : Keeps I A c) (ha : Keeps I A a) (hb : Keeps I A b) :
    Keeps I A (ifThenElse c a b) :=
  fun errexit => (hc false).ifThenElse (ha errexit) (hb errexit)

/-- So does `if` without `else`. -/
theorem Keeps.ifThen (hc : Keeps I A c) (ha : Keeps I A a) : Keeps I A (ifThen c a) :=
  hc.ifThenElse ha (Keeps.call true)

/-- A negation keeps what the command keeps. -/
theorem Keeps.neg (ha : Keeps I A a) : Keeps I A (neg a) :=
  fun _ => (ha false).neg

/-- A choice keeps what every branch keeps. -/
theorem Keeps.caseOf {α : Type u} {x : V → α} {branch : α → Sh V W}
    (h : ∀ y, Keeps I A (branch y)) : Keeps I A (caseOf x branch) :=
  fun errexit => Spec.caseOf fun y v w hp => h y errexit v w hp.1

/-- The commands of a script one by one. -/
theorem Keeps.script {cs : List (Sh V W)} (h : cs.Forall (Keeps I A)) :
    Keeps I A (Shell.script cs) :=
  script_of_forall (.call true) (fun _ _ => .seq) h

/-- The rounds of a loop. -/
theorem Keeps.map {α : Type*} {body : α → Sh V W} (h : ∀ x, Keeps I A (body x)) (xs : List α) :
    Keeps I A (Shell.script (xs.map body)) :=
  .script (forall_rounds h xs)

end Keeps

/-! ## Scripts that do not end the shell with success -/

/-- The script never exits with status zero; a failing command may still end the shell. -/
def NoSuccess {V : Type u} {W : Type v} (c : Sh V W) : Prop :=
  ∀ errexit v w, (c errexit v w).ending ≠ .exited true

section NoSuccess

variable {V : Type u} {W : Type v} {I : W → Prop} {errexit : Bool} {P : V → W → Prop}
  {Q : Bool → V → W → Prop} {a b c : Sh V W}

/-- On such a script an assertion about a successful exit costs nothing. -/
theorem NoSuccess.spec (hc : NoSuccess c) (h : Spec I (fun _ _ => True) errexit P c Q)
    (G : W → Prop) : Spec I (fun ok w => ok = true → G w) errexit P c Q := by
  intro v w hp hi
  obtain ⟨hv, hw, he⟩ := h v w hp hi
  refine ⟨hv, hw, ?_⟩
  have hne := hc errexit v w
  revert he hne
  cases (c errexit v w).ending with
  | status ok => exact fun he _ => he
  | exited ok =>
    cases ok with
    | true => exact fun _ hne => absurd rfl hne
    | false => exact fun _ _ h => absurd h (by simp)
  | down => exact fun _ _ => trivial

/-- The end of a simple command is no `exit 0`. -/
theorem finish_ne_success (errexit ok : Bool) : finish errexit ok ≠ .exited true := by
  unfold finish
  split <;> simp

/-- A simple command does not exit with success. -/
theorem NoSuccess.simple (f : V → W → V × W × Bool) : NoSuccess (simple f) :=
  fun errexit _ _ => finish_ne_success errexit _

/-- Nor does a message. -/
theorem NoSuccess.echo (line : String) : NoSuccess (echo line : Sh V W) :=
  fun _ _ _ => by simp [Shell.echo]

/-- `exit 1` exits, and not with success. -/
theorem NoSuccess.exit : NoSuccess (exit false : Sh V W) :=
  fun _ _ _ => by simp [Shell.exit]

/-- A shutdown is no exit. -/
theorem NoSuccess.shutdown : NoSuccess (shutdown : Sh V W) :=
  fun _ _ _ => by simp [Shell.shutdown]

/-- What goes on behind a result exits with success only where one of the two does. -/
theorem NoSuccess.thenRun {r : Result V W} {next : Bool → Option (V → W → Result V W)}
    (hr : r.ending ≠ .exited true)
    (hrun : ∀ ok run, next ok = some run → ∀ v w, (run v w).ending ≠ .exited true) :
    (r.thenRun next).ending ≠ .exited true := by
  unfold Result.thenRun
  cases hend : r.ending with
  | status ok =>
    cases hnext : next ok with
    | some run => simpa [hnext] using hrun ok run hnext r.vars r.world
    | none => simp [hnext, hend]
  | exited ok => simpa using hr
  | down => simp [hend]

/-- A sequence exits with success only where one of its commands does. -/
theorem NoSuccess.seq (ha : NoSuccess a) (hb : NoSuccess b) : NoSuccess (seq a b) := by
  intro errexit v w
  apply NoSuccess.thenRun (ha errexit v w)
  rintro ok run hrun v w
  obtain rfl := Option.some.inj hrun
  exact hb errexit v w

/-- So does `&&`. -/
theorem NoSuccess.andThen (ha : NoSuccess a) (hb : NoSuccess b) : NoSuccess (andThen a b) := by
  intro errexit v w
  apply NoSuccess.thenRun (ha false v w)
  rintro (_ | _) run hrun v w
  · exact absurd hrun (by simp)
  · obtain rfl := Option.some.inj hrun
    exact hb errexit v w

/-- So does `||`. -/
theorem NoSuccess.orElse (ha : NoSuccess a) (hb : NoSuccess b) : NoSuccess (orElse a b) := by
  intro errexit v w
  apply NoSuccess.thenRun (ha false v w)
  rintro (_ | _) run hrun v w
  · obtain rfl := Option.some.inj hrun
    exact hb errexit v w
  · exact absurd hrun (by simp)

/-- So does `if`, in its condition or a branch. -/
theorem NoSuccess.ifThenElse (hc : NoSuccess c) (ha : NoSuccess a) (hb : NoSuccess b) :
    NoSuccess (ifThenElse c a b) := by
  intro errexit v w
  apply NoSuccess.thenRun (hc false v w)
  rintro (_ | _) run hrun v w
  · obtain rfl := Option.some.inj hrun
    exact hb errexit v w
  · obtain rfl := Option.some.inj hrun
    exact ha errexit v w

/-- So does `if` without `else`. -/
theorem NoSuccess.ifThen (hc : NoSuccess c) (ha : NoSuccess a) : NoSuccess (ifThen c a) :=
  hc.ifThenElse ha (NoSuccess.simple _)

/-- A negation does not turn around how the script ends. -/
theorem NoSuccess.neg (ha : NoSuccess a) : NoSuccess (neg a) := by
  intro errexit v w
  have hne := ha false v w
  simp only [Shell.neg]
  revert hne
  cases (a false v w).ending with
  | status ok => simp [Ending.negate]
  | exited ok => exact id
  | down => exact id

/-- An exit inside a pipe ends the pipe only. -/
theorem NoSuccess.pipe {b : List String → Sh V W} : NoSuccess (pipe a b) := by
  intro errexit v w
  have hsub : ∀ e : Ending, e.ofSubshell errexit ≠ .exited true := by
    intro e
    cases e with
    | status ok => exact finish_ne_success errexit ok
    | exited ok => exact finish_ne_success errexit ok
    | down => simp [Ending.ofSubshell]
  cases hend : (a errexit v w).ending with
  | down => simp [Shell.pipe, hend]
  | status ok => simpa only [Shell.pipe, hend] using hsub _
  | exited ok => simpa only [Shell.pipe, hend] using hsub _

/-- A choice exits with success only where a branch does. -/
theorem NoSuccess.caseOf {α : Type u} {x : V → α} {branch : α → Sh V W}
    (h : ∀ y, NoSuccess (branch y)) : NoSuccess (caseOf x branch) :=
  fun errexit v w => h (x v) errexit v w

/-- The commands of a script one by one. -/
theorem NoSuccess.script {cs : List (Sh V W)} (h : cs.Forall NoSuccess) :
    NoSuccess (Shell.script cs) :=
  script_of_forall (.simple _) (fun _ _ => .seq) h

/-- The rounds of a loop. -/
theorem NoSuccess.map {α : Type*} {body : α → Sh V W} (h : ∀ x, NoSuccess (body x))
    (xs : List α) : NoSuccess (Shell.script (xs.map body)) :=
  .script (forall_rounds h xs)

end NoSuccess

/-! ## Scripts that leave the variables alone -/

/-- The script does not assign. -/
def NoAssign {V : Type u} {W : Type v} (c : Sh V W) : Prop :=
  ∀ errexit v w, (c errexit v w).vars = v

section NoAssign

variable {V : Type u} {W : Type v} {I : W → Prop} {X : Bool → W → Prop} {errexit : Bool}
  {A B : W → Prop} {a b c : Sh V W}

/-- What is known of the variables stays known. -/
theorem NoAssign.spec (hc : NoAssign c) (F : V → Prop)
    (h : Spec I X errexit (fun _ => A) c fun _ _ => B) :
    Spec I X errexit (fun v w => F v ∧ A w) c fun _ v w => F v ∧ B w := by
  refine Spec.post (fun v w hp => h v w hp.2) fun v w _ hp _ hB => ⟨?_, hB⟩
  rw [hc]
  exact hp.1

/-- A simple command assigns nothing when its function returns the variables as they were. -/
theorem NoAssign.simple {f : V → W → V × W × Bool} (h : ∀ v w, (f v w).1 = v) :
    NoAssign (simple f) := fun _ v w => h v w

/-- A command whose effects are not modelled assigns nothing. -/
theorem NoAssign.call (ok : Bool) : NoAssign (call ok : Sh V W) := .simple fun _ _ => rfl

/-- An effect assigns nothing. -/
theorem NoAssign.act (ok : Bool) (f : W → W) : NoAssign (act ok f : Sh V W) :=
  .simple fun _ _ => rfl

/-- What goes on behind a result leaves the variables when both parts do. -/
theorem NoAssign.thenRun {v : V} {r : Result V W} {next : Bool → Option (V → W → Result V W)}
    (hr : r.vars = v) (hrun : ∀ ok run, next ok = some run → ∀ v w, (run v w).vars = v) :
    (r.thenRun next).vars = v := by
  unfold Result.thenRun
  cases hend : r.ending with
  | status ok =>
    cases hnext : next ok with
    | some run => simpa [hnext, hr] using hrun ok run hnext r.vars r.world
    | none => simpa [hnext] using hr
  | exited ok => exact hr
  | down => exact hr

/-- A sequence assigns nothing when neither command does. -/
theorem NoAssign.seq (ha : NoAssign a) (hb : NoAssign b) : NoAssign (seq a b) := by
  intro errexit v w
  apply NoAssign.thenRun (ha errexit v w)
  rintro ok run hrun v w
  obtain rfl := Option.some.inj hrun
  exact hb errexit v w

/-- An `exit` assigns nothing. -/
theorem NoAssign.exit (ok : Bool) : NoAssign (exit ok : Sh V W) := fun _ _ _ => rfl

/-- `&&` assigns nothing when neither command does. -/
theorem NoAssign.andThen (ha : NoAssign a) (hb : NoAssign b) : NoAssign (andThen a b) := by
  intro errexit v w
  apply NoAssign.thenRun (ha false v w)
  rintro (_ | _) run hrun v w
  · exact absurd hrun (by simp)
  · obtain rfl := Option.some.inj hrun
    exact hb errexit v w

/-- Nor does `||`. -/
theorem NoAssign.orElse (ha : NoAssign a) (hb : NoAssign b) : NoAssign (orElse a b) := by
  intro errexit v w
  apply NoAssign.thenRun (ha false v w)
  rintro (_ | _) run hrun v w
  · obtain rfl := Option.some.inj hrun
    exact hb errexit v w
  · exact absurd hrun (by simp)

/-- `if` assigns nothing when its condition and branches do not. -/
theorem NoAssign.ifThenElse (hc : NoAssign c) (ha : NoAssign a) (hb : NoAssign b) :
    NoAssign (ifThenElse c a b) := by
  intro errexit v w
  apply NoAssign.thenRun (hc false v w)
  rintro (_ | _) run hrun v w
  · obtain rfl := Option.some.inj hrun
    exact hb errexit v w
  · obtain rfl := Option.some.inj hrun
    exact ha errexit v w

/-- Nor does `if` without `else`. -/
theorem NoAssign.ifThen (hc : NoAssign c) (ha : NoAssign a) : NoAssign (ifThen c a) :=
  hc.ifThenElse ha (.call true)

/-- The commands of a script one by one. -/
theorem NoAssign.script {cs : List (Sh V W)} (h : cs.Forall NoAssign) :
    NoAssign (Shell.script cs) :=
  script_of_forall (.call true) (fun _ _ => .seq) h

end NoAssign

end WirenBoard.Shell
