import WirenBoard.Models.Devenv.Suites

/-!
# What the scripts rely on of `docker`

`docker` is not a part of the repository. It is a parameter here: given the exported variables
and the words behind `run` it starts a container or fails. The manual says how options, an image
and arguments are read and which variables and volumes the container has, and no more than that
is assumed. A `docker` that reads its words one after the other meets the assumptions.
-/

namespace WirenBoard.Devenv

open Shell (Text)

/-! ## Exported variables -/

/-- The variables that the programs of a script see. -/
structure Exports where
  /-- Their names. -/
  names : List Text
  /-- Their values. -/
  value : Text → Option Text
  /-- No name is listed twice. -/
  nodup : names.Nodup
  /-- The names are those with a value. -/
  mem_names : ∀ n, n ∈ names ↔ (value n).isSome

/-- `$n`, where an unset variable is the empty text. -/
def textOf (env : Text → Option Text) (n : Text) : Text := (env n).getD []

namespace Exports

variable (e : Exports)

/-- `$n`. -/
def text (n : String) : Text := textOf e.value n.toList

/-- `export n=t`. -/
def put (n t : Text) : Exports where
  names := if n ∈ e.names then e.names else n :: e.names
  value := Function.update e.value n (some t)
  nodup := by
    split
    · exact e.nodup
    · exact List.nodup_cons.mpr ⟨‹_›, e.nodup⟩
  mem_names n' := by
    by_cases hn' : n' = n
    · subst hn'
      split <;> simp_all
    · rw [Function.update_of_ne hn', ← e.mem_names]
      split <;> simp [hn']

/-- `n=t`, which programs see where the variable is exported. -/
def assign (n t : Text) : Exports := if n ∈ e.names then e.put n t else e

/-- Assignments, one after the other. -/
def assignAll (assignments : List (String × Text)) : Exports :=
  assignments.foldl (fun e a => e.assign a.1.toList a.2) e

/-- The lines that `env` prints. -/
def lines : List Text := e.names.flatMap fun n => (n ++ '=' :: textOf e.value n).splitOn '\n'

/-- An export leaves the other variables alone. -/
theorem put_value_ne {n n' : Text} (hne : n' ≠ n) (t : Text) : (e.put n t).value n' = e.value n' :=
  Function.update_of_ne hne ..

/-- The variable that was set has its value. -/
@[simp] theorem put_value_self (n t : Text) : (e.put n t).value n = some t :=
  Function.update_self ..

private theorem assign_value_ne {n n' : Text} (hne : n' ≠ n) (t : Text) :
    (e.assign n t).value n' = e.value n' := by
  unfold assign
  split
  · exact e.put_value_ne hne t
  · rfl

/-- Assignments leave the other variables alone. -/
theorem assignAll_value_ne {n : Text} {assignments : List (String × Text)}
    (hne : ∀ a ∈ assignments, n ≠ a.1.toList) : (e.assignAll assignments).value n = e.value n := by
  induction assignments generalizing e with
  | nil => rfl
  | cons a assignments ih =>
    obtain ⟨hhead, htail⟩ := List.forall_mem_cons.mp hne
    exact (ih (e.assign a.1.toList a.2) htail).trans (e.assign_value_ne hhead a.2)

end Exports

/-! ## Command lines -/

/-- An option of `docker run`, of those that the scripts use. -/
inductive RunOption where
  /-- An option without an operand. -/
  | flag (w : Text)
  /-- `-e name=value`. -/
  | set (name value : Text)
  /-- `-e name`. -/
  | pass (name : Text)
  /-- `-v volume`. -/
  | volume (v : Text)
  /-- `-h name`. -/
  | hostname (name : Text)
  deriving DecidableEq

/-- The options without an operand. -/
def flags : List Text := ["-i".toList, "-it".toList, "--privileged".toList, "--rm".toList]

namespace RunOption

/-- The words of an option. -/
def words : RunOption → List Text
  | flag w => [w]
  | set n t => ["-e".toList, n ++ '=' :: t]
  | pass n => ["-e".toList, n]
  | volume v => ["-v".toList, v]
  | hostname n => ["-h".toList, n]

/-- A flag is one of those above, and the name of a variable has no `=`. -/
def Valid : RunOption → Prop
  | flag w => w ∈ flags
  | set n _ => '=' ∉ n
  | pass n => '=' ∉ n
  | volume _ => True
  | hostname _ => True

/-- The variable that an option is about. -/
def name : RunOption → Option Text
  | set n _ => some n
  | pass n => some n
  | _ => none

end RunOption

/-- The words behind `docker run`. -/
structure RunLine where
  /-- The options. -/
  options : List RunOption
  /-- The image. -/
  image : Text
  /-- The arguments for the entry point of the image. -/
  args : List Text

namespace RunLine

/-- The options come first. -/
def words (l : RunLine) : List Text := l.options.flatMap RunOption.words ++ l.image :: l.args

/-- The options are valid, and the image is no option. -/
structure Valid (l : RunLine) : Prop where
  /-- The options. -/
  options : ∀ o ∈ l.options, o.Valid
  /-- The image. -/
  image : l.image.head? ≠ some '-'

end RunLine

/-! ## The assumptions -/

/-- What has been started. -/
structure Container where
  /-- The variables. -/
  env : Text → Option Text
  /-- The volumes that are mounted. -/
  volumes : List Text
  /-- The image. -/
  image : Text
  /-- The arguments of the entry point. -/
  args : List Text

/-- The program `docker` with its images. -/
structure Docker where
  /-- What `docker run` starts under these variables with these words, unless it fails. -/
  run : Exports → List Text → Option Container
  /-- The variables that an image sets. -/
  imageEnv : Text → Text → Option Text

/-- A valid line has started a container. -/
structure Docker.Starts (docker : Docker) (e : Exports) (l : RunLine) (c : Container) : Prop where
  /-- The line is valid. -/
  valid : l.Valid
  /-- `docker` has not failed. -/
  run : docker.run e l.words = some c

/-- What the manual of `docker run` says about a container that it has started. -/
structure Docker.Documented (docker : Docker) : Prop where
  /-- The word behind the options is the image. -/
  image : ∀ {e l c}, docker.Starts e l c → c.image = l.image
  /-- The words behind the image are for the entry point. -/
  args : ∀ {e l c}, docker.Starts e l c → c.args = l.args
  /-- The volume of every `-v` is mounted. -/
  volume : ∀ {e l c v}, docker.Starts e l c → .volume v ∈ l.options → v ∈ c.volumes
  /-- A variable that `-e` passes and that no `-e` sets is as on the host. -/
  pass : ∀ {e l c n}, docker.Starts e l c → .pass n ∈ l.options →
    (∀ o ∈ l.options, o.name = some n → o = .pass n) → c.env n = e.value n
  /-- A variable that no `-e` names is as in the image. -/
  unnamed : ∀ {e l c n}, docker.Starts e l c → (∀ o ∈ l.options, o.name ≠ some n) →
    c.env n = docker.imageEnv l.image n

/-! ## A `docker` that meets them -/

/-- A line with one more option. -/
def RunLine.cons (o : RunOption) (l : RunLine) : RunLine := { l with options := o :: l.options }

/-- The operand of `-e`: the part before the first `=` is the name. -/
def readVariable (t : Text) : RunOption :=
  match t.splitOn '=' with
  | name :: part :: parts => .set name (List.intercalate ['='] (part :: parts))
  | _ => .pass t

/-- The options up to the first word that is none, which is the image. -/
def readLine : List Text → Option RunLine
  | [] => none
  | [w] => if w.head? = some '-' then none else some ⟨[], w, []⟩
  | w :: t :: rest =>
    if w ∈ flags then (readLine (t :: rest)).map (.cons (.flag w))
    else if w = "-e".toList then (readLine rest).map (.cons (readVariable t))
    else if w = "-v".toList then (readLine rest).map (.cons (.volume t))
    else if w = "-h".toList then (readLine rest).map (.cons (.hostname t))
    else if w.head? = some '-' then none
    else some ⟨[], w, t :: rest⟩

/-- The value of a variable; the last option that names it decides. -/
def RunLine.value (e : Exports) (l : RunLine) (n : Text) : Option Text :=
  match l.options.reverse.find? fun o => o.name = some n with
  | some (.set _ t) => some t
  | some _ => e.value n
  | none => none

/-- A `docker` whose images set no variable. -/
def Docker.plain : Docker where
  run e words := (readLine words).map fun l =>
    ⟨l.value e, l.options.filterMap fun o => match o with
      | .volume v => some v
      | _ => none, l.image, l.args⟩
  imageEnv _ _ := none

section Plain

variable {rest : List Text}

private theorem readVariable_set {n : Text} (hn : '=' ∉ n) (t : Text) :
    readVariable (n ++ '=' :: t) = .set n t := by
  rw [readVariable, List.splitOn_append_cons_self_of_not_mem hn]
  obtain ⟨part, parts, hparts⟩ := List.exists_cons_of_ne_nil (List.splitOn_ne_nil '=' t)
  rw [hparts]
  exact congrArg (RunOption.set n) (hparts ▸ List.intercalate_splitOn '=')

private theorem readVariable_pass {n : Text} (hn : '=' ∉ n) : readVariable n = .pass n := by
  rw [readVariable, List.splitOn_eq_singleton hn]

private theorem readLine_variable (t : Text) :
    readLine ("-e".toList :: t :: rest) = (readLine rest).map (.cons (readVariable t)) := by
  rw [readLine, if_neg (by decide), if_pos rfl]

private theorem readLine_volume (v : Text) :
    readLine ("-v".toList :: v :: rest) = (readLine rest).map (.cons (.volume v)) := by
  rw [readLine, if_neg (by decide), if_neg (by decide), if_pos rfl]

private theorem readLine_hostname (n : Text) :
    readLine ("-h".toList :: n :: rest) = (readLine rest).map (.cons (.hostname n)) := by
  rw [readLine, if_neg (by decide), if_neg (by decide), if_neg (by decide), if_pos rfl]

private theorem readLine_flag {w : Text} (hw : w ∈ flags) (hrest : rest ≠ []) :
    readLine (w :: rest) = (readLine rest).map (.cons (.flag w)) := by
  obtain ⟨t, rest, rfl⟩ := List.exists_cons_of_ne_nil hrest
  rw [readLine, if_pos hw]

private theorem readLine_image {image : Text} (himage : image.head? ≠ some '-')
    (args : List Text) : readLine (image :: args) = some ⟨[], image, args⟩ := by
  have hne {option : Text} (ho : option.head? = some '-') : image ≠ option :=
    fun h => himage (h ▸ ho)
  cases args with
  | nil => rw [readLine, if_neg himage]
  | cons t rest =>
    have hflags : image ∉ flags := by
      simp only [flags, List.mem_cons, List.not_mem_nil, or_false, not_or]
      exact ⟨hne rfl, hne rfl, hne rfl, hne rfl⟩
    rw [readLine, if_neg hflags, if_neg (hne rfl), if_neg (hne rfl), if_neg (hne rfl),
      if_neg himage]

/-- One option is read as it was written. -/
private theorem readLine_option {o : RunOption} (ho : o.Valid) (hrest : rest ≠ []) :
    readLine (o.words ++ rest) = (readLine rest).map (.cons o) := by
  cases o with
  | flag w => exact readLine_flag ho hrest
  | set n t =>
    have hread : readLine ("-e".toList :: (n ++ '=' :: t) :: rest) = _ := readLine_variable _
    rw [readVariable_set ho] at hread
    exact hread
  | pass n =>
    have hread : readLine ("-e".toList :: n :: rest) = _ := readLine_variable _
    rw [readVariable_pass ho] at hread
    exact hread
  | volume v => exact readLine_volume v
  | hostname n => exact readLine_hostname n

/-- A valid line is read as it was written. -/
theorem readLine_words {l : RunLine} (hl : l.Valid) : readLine l.words = some l := by
  obtain ⟨options, image, args⟩ := l
  induction options with
  | nil => exact readLine_image hl.image args
  | cons o options ih =>
    obtain ⟨ho, hoptions⟩ := List.forall_mem_cons.mp hl.options
    have hrest : RunLine.words ⟨options, image, args⟩ ≠ [] := by simp [RunLine.words]
    have hwords : RunLine.words ⟨o :: options, image, args⟩ =
        o.words ++ RunLine.words ⟨options, image, args⟩ := by simp [RunLine.words]
    rw [hwords, readLine_option ho hrest, ih ⟨hoptions, hl.image⟩]
    rfl

private theorem plain_starts {e : Exports} {l : RunLine} {c : Container}
    (h : Docker.plain.Starts e l c) :
    c.env = l.value e ∧ (∀ v, .volume v ∈ l.options → v ∈ c.volumes) ∧ c.image = l.image ∧
      c.args = l.args := by
  have hrun := h.run
  simp only [Docker.plain, readLine_words h.valid, Option.map_some, Option.some.injEq] at hrun
  subst hrun
  refine ⟨rfl, fun v hv => ?_, rfl, rfl⟩
  exact List.mem_filterMap.mpr ⟨_, hv, rfl⟩

/-- The assumptions can be met. -/
theorem Docker.documented_plain : Docker.plain.Documented where
  image h := (plain_starts h).2.2.1
  args h := (plain_starts h).2.2.2
  volume h hv := (plain_starts h).2.1 _ hv
  pass {e l c n} h hn hnames := by
    rw [(plain_starts h).1, RunLine.value]
    have hsome : (l.options.reverse.find? fun o => o.name = some n) = some (.pass n) := by
      have hfound : (l.options.reverse.find? fun o => o.name = some n).isSome := by
        rw [List.find?_isSome]
        exact ⟨.pass n, List.mem_reverse.mpr hn, by simp [RunOption.name]⟩
      obtain ⟨o, ho⟩ := Option.isSome_iff_exists.mp hfound
      have hmem : o ∈ l.options := List.mem_reverse.mp (List.mem_of_find?_eq_some ho)
      have hname : o.name = some n := by simpa using List.find?_some ho
      rw [ho, hnames o hmem hname]
    rw [hsome]
  unnamed {e l c n} h hnames := by
    rw [(plain_starts h).1, RunLine.value]
    have hnone : (l.options.reverse.find? fun o => o.name = some n) = none := by
      rw [List.find?_eq_none]
      exact fun o ho => by simpa using hnames o (List.mem_reverse.mp ho)
    rw [hnone]
    rfl

end Plain

end WirenBoard.Devenv
