import WirenBoard.Core.Shell
import Mathlib.Data.List.DropRight

/-!
# Command substitution and evaluation

A command substitution runs in a subshell where failing commands go on: an exit ends the
substitution only, the world is kept, the variables are not, and what was written becomes
a text without newlines at its end. An assignment takes over the status of its
substitution, a declaration of a local variable does not. The outcome of a script is its
result without the worlds passed through; the equations below compute it piece by piece.
-/

namespace WirenBoard.Shell

universe u v

/-- A text in a shell variable; an unset variable is the empty text. -/
abbrev Text := List Char

/-- The text that `$(...)` makes of lines: they are joined, without newlines at the end. -/
def substitute (lines : List Text) : Text :=
  (lines.flatMap fun l => l ++ ['\n']).rdropWhile (· = '\n')

section Commands

variable {V : Type u} {W : Type v}

/-- The text that `$(...)` stands for when these lines are written. -/
def captured (out : List String) : Text := substitute (out.map String.toList)

/-- `echo` of a text that the variables give. -/
def print (line : V → Text) : Sh V W := fun _ v w =>
  ⟨v, w, [], [String.ofList (line v)], .status true⟩

/-- The result of giving a variable the text of a substitution, with the ending `e`. -/
def Result.assigned (r : Result V W) (v : V) (f : Text → V → V) (e : Ending) : Result V W :=
  match r.ending with
  | .down => ⟨v, r.world, r.visited, [], .down⟩
  | _ => ⟨f (captured r.out) v, r.world, r.visited, [], e⟩

/-- `x=$(a)`: the assignment has the status of the substitution. -/
def assignFrom (a : Sh V W) (f : Text → V → V) : Sh V W := fun errexit v w =>
  let r := a false v w
  r.assigned v f (r.ending.ofSubshell errexit)

/-- `local x=$(a)`: the declaration succeeds whatever the substitution does. -/
def localFrom (a : Sh V W) (f : Text → V → V) : Sh V W := fun _ v w =>
  (a false v w).assigned v f (.status true)

end Commands

/-! ## Outcomes -/

/-- What a piece of script leaves behind, without the worlds passed through. -/
structure Outcome (V : Type u) (W : Type v) where
  /-- The variables. -/
  vars : V
  /-- The world. -/
  world : W
  /-- The lines written to the standard output. -/
  out : List String
  /-- How it ended. -/
  ending : Ending

section Outcomes

variable {V : Type u} {W : Type v}

/-- Forget the worlds passed through. -/
def Result.outcome (r : Result V W) : Outcome V W := ⟨r.vars, r.world, r.out, r.ending⟩

/-- Earlier output comes first. -/
def Outcome.after (o : Outcome V W) (out : List String) : Outcome V W :=
  { o with out := out ++ o.out }

/-- Go on from a status; other endings are final. -/
def Outcome.next (o : Outcome V W) (k : Bool → V → W → Outcome V W) : Outcome V W :=
  match o.ending with
  | .status ok => (k ok o.vars o.world).after o.out
  | _ => o

variable {e ok : Bool} {v : V} {w : W} {a b c : Sh V W}

/-- Without `set -e` a command ends with its status. -/
@[simp] theorem finish_off : finish false ok = .status ok := rfl

/-- A success is a status with and without `set -e`. -/
@[simp] theorem finish_ok : finish e true = .status true := by
  cases e <;> rfl

/-- Under `set -e` a failure ends the script. -/
@[simp] theorem finish_failed : finish true false = .exited false := rfl

/-- No output in front of an outcome is the outcome. -/
@[simp] theorem Outcome.after_nil (o : Outcome V W) : o.after [] = o := rfl

/-- Output in front of an outcome stands before its own. -/
@[simp] theorem Outcome.after_mk (out out' : List String) (end' : Ending) :
    (Outcome.mk v w out end').after out' = ⟨v, w, out' ++ out, end'⟩ := rfl

/-- Behind a status the next command runs. -/
@[simp] theorem Outcome.next_status (out : List String) (k : Bool → V → W → Outcome V W) :
    (Outcome.mk v w out (.status ok)).next k = (k ok v w).after out := rfl

/-- Behind an exit no command runs. -/
@[simp] theorem Outcome.next_exited (out : List String) (k : Bool → V → W → Outcome V W) :
    (Outcome.mk v w out (.exited ok)).next k = ⟨v, w, out, .exited ok⟩ := rfl

/-- The outcome of a simple command. -/
@[simp] theorem outcome_simple (f : V → W → V × W × Bool) :
    (simple f e v w).outcome = ⟨(f v w).1, (f v w).2.1, [], finish e (f v w).2.2⟩ := rfl

/-- The outcome of a command whose effects are not modelled. -/
@[simp] theorem outcome_call : (call ok e v w : Result V W).outcome = ⟨v, w, [], finish e ok⟩ := rfl

/-- The outcome of a test. -/
@[simp] theorem outcome_test (p : V → Bool) :
    (test p e v w : Result V W).outcome = ⟨v, w, [], finish e (p v)⟩ := rfl

/-- The outcome of an assignment. -/
@[simp] theorem outcome_assign (f : V → W → V) :
    (assign ok f e v w).outcome = ⟨f v w, w, [], finish e ok⟩ := rfl

/-- The outcome of a message. -/
@[simp] theorem outcome_echo (line : String) :
    (echo line e v w : Result V W).outcome = ⟨v, w, [line], .status true⟩ := rfl

/-- The outcome of a line made of variables. -/
@[simp] theorem outcome_print (line : V → Text) :
    (print line e v w : Result V W).outcome = ⟨v, w, [String.ofList (line v)], .status true⟩ := rfl

/-- The outcome of `exit`. -/
@[simp] theorem outcome_exit : (exit ok e v w : Result V W).outcome = ⟨v, w, [], .exited ok⟩ := rfl

private theorem outcome_thenRun (r : Result V W) (run : Bool → Option (V → W → Result V W)) :
    (r.thenRun run).outcome = r.outcome.next fun ok v w =>
      match run ok with
      | some run => (run v w).outcome
      | none => ⟨v, w, [], .status ok⟩ := by
  obtain ⟨v, w, visited, out, ending⟩ := r
  cases ending with
  | status ok =>
    simp only [Result.thenRun, Result.outcome, Outcome.next]
    cases run ok with
    | some run => rfl
    | none => simp
  | exited ok => rfl
  | down => rfl

/-- The outcome of a sequence. -/
@[simp] theorem outcome_seq :
    (seq a b e v w).outcome = (a e v w).outcome.next fun _ v w => (b e v w).outcome :=
  outcome_thenRun _ _

/-- Nothing runs behind a command that exits. -/
theorem seq_of_exited (h : (a e v w).ending = .exited ok) (b : Sh V W) :
    seq a b e v w = a e v w := by
  rw [seq, Result.thenRun, h]

/-- The outcome of `&&`. -/
@[simp] theorem outcome_andThen : (andThen a b e v w).outcome =
    (a false v w).outcome.next fun ok v w =>
      if ok then (b e v w).outcome else ⟨v, w, [], .status false⟩ := by
  rw [andThen, outcome_thenRun]
  congr 1
  funext ok v w
  cases ok <;> rfl

/-- The outcome of `||`. -/
@[simp] theorem outcome_orElse : (orElse a b e v w).outcome =
    (a false v w).outcome.next fun ok v w =>
      if ok then ⟨v, w, [], .status true⟩ else (b e v w).outcome := by
  rw [orElse, outcome_thenRun]
  congr 1
  funext ok v w
  cases ok <;> rfl

/-- The outcome of `if`. -/
@[simp] theorem outcome_ifThenElse : (ifThenElse c a b e v w).outcome =
    (c false v w).outcome.next fun ok v w =>
      if ok then (a e v w).outcome else (b e v w).outcome := by
  rw [ifThenElse, outcome_thenRun]
  congr 1
  funext ok v w
  cases ok <;> rfl

/-- The outcome of `if` without `else`. -/
@[simp] theorem outcome_ifThen : (ifThen c a e v w).outcome =
    (c false v w).outcome.next fun ok v w =>
      if ok then (a e v w).outcome else ⟨v, w, [], .status true⟩ := by
  rw [ifThen, outcome_ifThenElse]
  simp

/-- The outcome of a choice. -/
@[simp] theorem outcome_caseOf {α : Type u} (x : V → α) (branch : α → Sh V W) :
    (caseOf x branch e v w).outcome = (branch (x v) e v w).outcome := rfl

/-- The outcome of a negation. -/
@[simp] theorem outcome_neg : (neg a e v w).outcome =
    { (a false v w).outcome with ending := (a false v w).outcome.ending.negate } := rfl

/-- The outcome of no commands. -/
@[simp] theorem outcome_script_nil :
    (script [] e v w : Result V W).outcome = ⟨v, w, [], .status true⟩ := by
  simp [script]

/-- The outcome of one command. -/
@[simp] theorem outcome_script_one : (script [a] e v w).outcome = (a e v w).outcome := rfl

/-- The outcome of a command and those behind it. -/
@[simp] theorem outcome_script_cons (cs : List (Sh V W)) :
    (script (a :: b :: cs) e v w).outcome =
      (a e v w).outcome.next fun _ v w => (script (b :: cs) e v w).outcome :=
  outcome_thenRun _ _

end Outcomes

/-! ## Subshells -/

section Subshells

variable {V : Type u} {W : Type v} {a : Sh V W} {w w₁ w₂ : W} {out out₁ out₂ : List String}
  {ending : Ending}

/-- In a subshell, whatever the variables, the command turns `w` into `w'`, writes `out` and
ends so. -/
def Writes (a : Sh V W) (w w' : W) (out : List String) (ending : Ending) : Prop :=
  ∀ v, ∃ v', (a false v w).outcome = ⟨v', w', out, ending⟩

/-- No commands write nothing. -/
theorem Writes.nil (w : W) : Writes (script [] : Sh V W) w w [] (.status true) :=
  fun v => ⟨v, outcome_script_nil⟩

/-- A command of a block that succeeds is followed by the rest. -/
theorem Writes.cons {cs : List (Sh V W)} (ha : Writes a w w₁ out₁ (.status true))
    (hcs : Writes (script cs) w₁ w₂ out₂ ending) :
    Writes (script (a :: cs)) w w₂ (out₁ ++ out₂) ending := by
  intro v
  obtain ⟨v₁, h₁⟩ := ha v
  obtain ⟨v₂, h₂⟩ := hcs v₁
  cases cs with
  | nil =>
    rw [outcome_script_nil, Outcome.mk.injEq] at h₂
    obtain ⟨rfl, rfl, rfl, rfl⟩ := h₂
    exact ⟨v₁, by rw [outcome_script_one, h₁, List.append_nil]⟩
  | cons c cs => exact ⟨v₂, by rw [outcome_script_cons, h₁, Outcome.next_status, h₂]; rfl⟩

/-- An exit is final. -/
theorem Writes.cons_exited {ok : Bool} (cs : List (Sh V W))
    (ha : Writes a w w₁ out₁ (.exited ok)) : Writes (script (a :: cs)) w w₁ out₁ (.exited ok) := by
  intro v
  obtain ⟨v₁, h₁⟩ := ha v
  cases cs with
  | nil => exact ⟨v₁, h₁⟩
  | cons c cs => exact ⟨v₁, by rw [outcome_script_cons, h₁, Outcome.next_exited]⟩

private theorem outcome_assigned {r : Result V W} {v' : V} (h : r.outcome = ⟨v', w₁, out, ending⟩)
    (hup : ending ≠ .down) (v : V) (f : Text → V → V) (e : Ending) :
    (r.assigned v f e).outcome = ⟨f (captured out) v, w₁, [], e⟩ := by
  obtain ⟨_, _, _, _, _⟩ := r
  obtain ⟨rfl, rfl, rfl, rfl⟩ := Outcome.mk.inj h
  unfold Result.assigned
  split
  · rename_i hdown
    exact absurd hdown hup
  · rfl

/-- The assignment gets the text and fails with the substitution. -/
theorem Writes.assignFrom (h : Writes a w w₁ out ending) (hup : ending ≠ .down)
    (f : Text → V → V) (e : Bool) (v : V) :
    (assignFrom a f e v w).outcome = ⟨f (captured out) v, w₁, [], ending.ofSubshell e⟩ := by
  obtain ⟨v', hv'⟩ := h v
  have hending : (a false v w).ending = ending := (Outcome.mk.inj hv').2.2.2
  rw [Shell.assignFrom, hending]
  exact outcome_assigned hv' hup v f _

/-- The declaration gets the text and succeeds. -/
theorem Writes.localFrom (h : Writes a w w₁ out ending) (hup : ending ≠ .down)
    (f : Text → V → V) (e : Bool) (v : V) :
    (localFrom a f e v w).outcome = ⟨f (captured out) v, w₁, [], .status true⟩ := by
  obtain ⟨v', hv'⟩ := h v
  exact outcome_assigned hv' hup v f _

end Subshells

section Keeps

variable {V : Type u} {W : Type v} {I A : W → Prop} {a : Sh V W}

/-- A line made of variables keeps everything. -/
theorem Keeps.print (line : V → Text) : Keeps I A (print line : Sh V W) :=
  fun _ _ _ hA hI => ⟨by simp [Shell.print], hI, hA⟩

/-- An assignment keeps what its substitution keeps. -/
theorem Keeps.assignFrom (ha : Keeps I A a) (f : Text → V → V) :
    Keeps I A (assignFrom a f) := by
  intro errexit v w hA hI
  obtain ⟨hv, hw, he⟩ := ha false v w hA hI
  unfold Shell.assignFrom Result.assigned
  have hfin (ok : Bool) (h : A (a false v w).world) : (finish errexit ok).Post
      (fun _ => A (a false v w).world) fun _ => A (a false v w).world := by
    unfold finish
    split
    · exact h
    · exact h
  cases hend : (a false v w).ending with
  | status ok =>
    rw [hend] at he
    simp only [hend]
    exact ⟨hv, hw, hfin ok he⟩
  | exited ok =>
    rw [hend] at he
    simp only [hend]
    exact ⟨hv, hw, hfin ok he⟩
  | down =>
    simp only [hend]
    exact ⟨hv, hw, trivial⟩

end Keeps

/-! ## Captured texts -/

/-- The captured text of no output. -/
@[simp] theorem captured_nil : captured [] = [] := rfl

/-- A last line that does not end in a newline is kept whole. -/
theorem substitute_concat {line : Text} (hne : line ≠ []) (h : line.getLast? ≠ some '\n')
    (lines : List Text) :
    substitute (lines ++ [line]) = (lines.flatMap fun l => l ++ ['\n']) ++ line := by
  obtain ⟨init, c, rfl⟩ := List.eq_nil_or_concat line |>.resolve_left hne
  have hc : c ≠ '\n' := by simpa using h
  rw [List.concat_eq_append, substitute, List.flatMap_append, List.flatMap_singleton,
    ← List.append_assoc, List.rdropWhile_concat_pos _ _ _ (by simp), ← List.append_assoc,
    List.rdropWhile_concat, if_neg (by simpa using hc)]

/-- The text of a substitution does not end in a newline. -/
theorem getLast?_substitute (lines : List Text) : (substitute lines).getLast? ≠ some '\n' := by
  intro h
  have hne : substitute lines ≠ [] := by
    rintro hnil
    simp [hnil] at h
  have hlast := List.rdropWhile_last_not (fun c : Char => decide (c = '\n')) _ hne
  rw [List.getLast?_eq_some_getLast hne, Option.some.injEq] at h
  exact hlast (decide_eq_true h)

/-- The text of one line. -/
theorem substitute_line {line : Text} (h : line.getLast? ≠ some '\n') :
    substitute [line] = line := by
  by_cases hne : line = []
  · subst hne
    rfl
  · exact substitute_concat hne h []

/-- A last line that is written without a newline at its end is kept whole. -/
theorem captured_concat {line : Text} (hne : line ≠ []) (h : line.getLast? ≠ some '\n')
    (out : List String) :
    captured (out ++ [String.ofList line]) =
      (out.flatMap fun l => l.toList ++ ['\n']) ++ line := by
  rw [captured, List.map_append, List.map_singleton, String.toList_ofList,
    substitute_concat hne h, List.flatMap_map]

/-- The text of one line that is written. -/
theorem captured_line {line : Text} (h : line.getLast? ≠ some '\n') :
    captured [String.ofList line] = line := by
  rw [captured, List.map_singleton, String.toList_ofList, substitute_line h]

/-- The text of lines without newlines inside has them separated by newlines. -/
theorem captured_lines {lines : List Text} (h : ∀ l ∈ lines, l ≠ [] ∧ '\n' ∉ l) :
    captured (lines.map String.ofList) = List.intercalate ['\n'] lines := by
  rcases List.eq_nil_or_concat lines with rfl | ⟨init, line, rfl⟩
  · rfl
  rw [List.concat_eq_append] at h ⊢
  have hlast := h line (by simp)
  have hnl : line.getLast? ≠ some '\n' := fun hl => hlast.2 (List.mem_of_getLast? hl)
  rw [List.map_append, List.map_singleton, captured_concat hlast.1 hnl, List.flatMap_map]
  simp only [String.toList_ofList]
  clear h hlast hnl
  induction init with
  | nil => simp
  | cons l init ih =>
    rw [List.flatMap_cons, List.append_assoc, ih, List.cons_append]
    cases init with
    | nil => simp
    | cons l' init => simp [List.intercalate_cons_cons]

end WirenBoard.Shell
