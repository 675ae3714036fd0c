import Mathlib.Data.Bool.AllAny
import WirenBoard.Models.Devenv.Docker

/-!
# Entering the development container

`wbdev` runs on the host. It collects the names of the exported `WBDEV_` variables from the
text that `env` prints, where they can also turn up inside values, writes them into a command
line for `docker run` and leaves that unquoted. Whatever the values contain, the words are those
of the line that the script means: every name found becomes the operand of its own `-e`, and
the container has the host's value under each of the names.
-/

namespace WirenBoard.Devenv

open Shell (Text)

open Rootfs (orDefault words isIfs patternChars Plain words_plain)

/-! ## Unquoted expansions -/

/-- The files of the current directory, as far as patterns see them. -/
structure Globbing where
  /-- The names that match a word, or the word if there are none. -/
  expand : Text → List Text
  /-- A word that is no pattern stays. -/
  expand_plain : ∀ w, Plain w → expand w = [w]

/-- `$x`: the words, with their patterns expanded. -/
def Globbing.unquoted (g : Globbing) (t : Text) : List Text := (words t).flatMap g.expand

private theorem words_append_blank (t rest : Text) :
    words (t ++ ' ' :: rest) = words t ++ words rest := by
  have hblank : isIfs ' ' = true := by decide
  rw [words, List.splitOnP_append_cons _ _ hblank, List.filter_append]
  rfl

/-- A piece of a text between separators has characters of the text only, and no separator. -/
theorem mem_splitOnP {α : Type} {p : α → Bool} {t w : List α} (h : w ∈ t.splitOnP p) :
    ∀ c ∈ w, c ∈ t ∧ p c = false := by
  induction t generalizing w with
  | nil =>
    obtain rfl : w = [] := by simpa using h
    simp
  | cons a t ih =>
    have hstep : ∀ {w'}, w' ∈ t.splitOnP p → ∀ c ∈ w', c ∈ a :: t ∧ p c = false :=
      fun h c hc => ⟨List.mem_cons_of_mem a (ih h c hc).1, (ih h c hc).2⟩
    rw [List.splitOnP_cons_eq_if_modifyHead] at h
    split at h
    · rcases List.mem_cons.mp h with rfl | h
      · simp
      · exact hstep h
    · rename_i ha
      cases hsplit : t.splitOnP p with
      | nil => exact absurd hsplit (List.splitOnP_ne_nil p t)
      | cons first rest =>
        rw [hsplit] at h hstep
        rcases List.mem_cons.mp h with rfl | h
        · exact List.forall_mem_cons.mpr
            ⟨⟨List.mem_cons_self, by simpa using ha⟩, hstep List.mem_cons_self⟩
        · exact hstep (List.mem_cons_of_mem _ h)

private theorem mem_words {w t : Text} (h : w ∈ words t) :
    w ≠ [] ∧ ∀ c ∈ w, c ∈ t ∧ isIfs c = false := by
  obtain ⟨hmem, hne⟩ := List.mem_filter.mp h
  exact ⟨by simpa using hne, mem_splitOnP hmem⟩

private theorem Globbing.unquoted_plain (g : Globbing) {w : Text} (hne : w ≠ [])
    (hplain : Plain w) : g.unquoted w = [w] := by
  rw [Globbing.unquoted, words_plain hne hplain, List.flatMap_singleton, g.expand_plain w hplain]

/-! ## The second half of `wbdev` -/

/-- What the script finds on the host. -/
structure Host where
  /-- The environment, in which `wbdev` has put `WBDEV_IMAGE`. -/
  exports : Exports
  /-- Whether the standard input is a terminal. -/
  terminal : Bool
  /-- `UID`. -/
  uid : Text
  /-- `id -n -u`. -/
  idName : Text
  /-- `OSTYPE`. -/
  osType : Text
  /-- `PWD`. -/
  pwd : Text

/-- `${x##*c}`. -/
def afterLast (c : Char) (t : Text) : Text := (t.splitOn c).getLastD []

/-- `${x%c*}`. -/
def beforeLast (c : Char) (t : Text) : Text :=
  if c ∈ t then List.intercalate [c] (t.splitOn c).dropLast else t

/-- The text that collects the values of an option, as in `x="$x -o $value"`. -/
def optionText (option : Text) (values : List Text) : Text :=
  values.flatMap fun value => ' ' :: (option ++ ' ' :: value)

/-- The variables when `docker` is called. -/
structure Launch where
  /-- The exported ones. -/
  exports : Exports
  /-- `DEV_DIR`. -/
  devDir : Text
  /-- The values in `VOLUMES`. -/
  volumes : List Text

namespace Host

variable (h : Host)

/-- `$n`. -/
def text (n : String) : Text := h.exports.text n

/-- `USER`. -/
def user : Text := orDefault (h.text "USER") h.idName

/-- `VM_HOME`. -/
def vmHome : Text :=
  if "darwin".toList.isPrefixOf h.osType then "/home/".toList ++ h.user else h.text "HOME"

/-- `PREFIX`. -/
def sourcePrefix : Text := h.vmHome ++ "/wbdev/go/src/github.com/contactless".toList

/-- `DEV_VOLUME_PREFIX`. -/
def devVolumePrefix : Text := afterLast ':' (h.text "DEV_VOLUME")

/-- `DEV_DIR` and the volumes that it needs; a directory outside the volume is refused. -/
def sourceDir : Option (Text × List Text) :=
  if h.text "DEV_VOLUME" ≠ [] then
    if h.devVolumePrefix.isPrefixOf h.pwd then some (h.pwd, [h.text "DEV_VOLUME"]) else none
  else if h.text "DEV_DIR" = [] then
    some (h.sourcePrefix ++ '/' :: afterLast '/' h.pwd,
      [h.text "HOME" ++ ':' :: h.vmHome, beforeLast '/' h.pwd ++ ':' :: h.sourcePrefix])
  else some (h.text "DEV_DIR", [])

/-- `DOCKER_TTY_OPTS`. -/
def ttyOpts : Text := if h.terminal then "-it".toList else "-i".toList

/-- `ssh_opts`. -/
def sshOpts : Text :=
  if h.text "SSH_AUTH_SOCK" ≠ [] then
    "-e".toList ++ ' ' :: ("SSH_AUTH_SOCK".toList ++ '=' :: "/ssh-agent".toList ++ ' ' ::
      ("-v".toList ++ ' ' :: (h.text "SSH_AUTH_SOCK" ++ ":/ssh-agent".toList)))
  else []

/-- The variables that are assigned, with `DEV_DIR`. -/
def assignments (devDir : Text) : List (String × Text) := [
  ("DOCKER", orDefault (h.text "DOCKER") "docker".toList),
  ("DOCKER_TTY_OPTS", h.ttyOpts),
  ("ssh_opts", h.sshOpts),
  ("USER", h.user),
  ("VM_HOME", h.vmHome),
  ("PREFIX", h.sourcePrefix),
  ("DEV_VOLUME_PREFIX", if h.text "DEV_VOLUME" ≠ [] then h.devVolumePrefix
    else h.text "DEV_VOLUME_PREFIX"),
  ("DEV_DIR", devDir)]

end Host

/-- A cache that the container can share. -/
structure Cache where
  /-- The variable with the volume. -/
  volume : String
  /-- The variable with the directory. -/
  dir : String
  /-- The directory if none is given. -/
  default : Text

/-- The cache of the compiler. -/
def ccache : Cache := ⟨"DEV_CCACHE_VOLUME", "WBDEV_CCACHE_DIR", "/var/cache/ccache".toList⟩

/-- The cache of Go. -/
def gocache : Cache := ⟨"DEV_GOCACHE_VOLUME", "WBDEV_GOCACHE_DIR", "/var/cache/go".toList⟩

/-- A directory for a cache is refused without a volume for it. -/
def shareCache (cache : Cache) (l : Launch) : Option Launch :=
  if l.exports.text cache.volume ≠ [] then
    let path := orDefault (l.exports.text cache.dir) cache.default
    some ⟨l.exports.put cache.dir.toList path, l.devDir,
      l.volumes ++ [l.exports.text cache.volume ++ ':' :: path]⟩
  else if l.exports.text cache.dir ≠ [] then none
  else some l

/-- The variables behind the exports and assignments before the caches. -/
def Host.exported (h : Host) (devDir : Text) : Exports :=
  ((h.exports.put "DEB_BUILD_OPTIONS".toList (h.text "DEB_BUILD_OPTIONS")).put
    "DEB_BUILD_PROFILES".toList (h.text "DEB_BUILD_PROFILES")).assignAll (h.assignments devDir)

/-- The variables that collect the options, before the loop over the environment. -/
def Launch.collecting (l : Launch) : Launch :=
  ⟨l.exports.assignAll [("VOLUMES", optionText "-v".toList l.volumes), ("ENV_CMDLINE", [])],
    l.devDir, l.volumes⟩

/-- The variables before the caches. -/
def Host.start (h : Host) : Option Launch :=
  h.sourceDir.map fun source => ⟨h.exported source.1, source.1, source.2⟩

/-- `wbdev_second_half.sh` up to the loop over the environment; `none` stands for `exit 1`. -/
def launch (h : Host) : Option Launch :=
  ((h.start.bind (shareCache ccache)).bind (shareCache gocache)).map Launch.collecting

/-! ## The names found in the environment -/

/-- What the names begin with. -/
def namePrefix : Text := "WBDEV_".toList

/-- The first match of `WBDEV_[^=]*` in a piece of a line without `=`. -/
def firstMatch : Text → Option Text
  | [] => none
  | c :: t => if namePrefix.isPrefixOf (c :: t) then some (c :: t) else firstMatch t

/-- `grep -o "WBDEV_[^=]*"`: a match ends at the next `=`, so a piece has one at most. -/
def grepOnly (line : Text) : List Text := (line.splitOn '=').filterMap firstMatch

/-- The words of `$(env | grep -o "WBDEV_[^=]*")`, one match on each line. -/
def Exports.found (e : Exports) : List Text := (e.lines.flatMap grepOnly).flatMap words

/-! ## The command line -/

/-- The words behind `$DOCKER run`. -/
def dockerArgs (g : Globbing) (h : Host) (l : Launch) (args : List Text) : List Text :=
  g.unquoted h.ttyOpts ++ ["--privileged".toList, "--rm".toList] ++
    ("-e".toList :: g.unquoted ("DEV_UID".toList ++ '=' :: h.uid)) ++
    ("-e".toList :: g.unquoted ("DEV_USER".toList ++ '=' :: h.user)) ++
    ["-e".toList, "DEV_DIR".toList ++ '=' :: l.devDir] ++
    ["-e".toList, "DEV_TERM".toList ++ '=' :: h.text "TERM"] ++
    g.unquoted (optionText "-e".toList (l.exports.found.flatMap g.expand)) ++
    ["-e".toList, "DEB_BUILD_OPTIONS".toList, "-e".toList, "DEB_BUILD_PROFILES".toList,
      "-e".toList, "GITHUB_TOKEN".toList] ++
    g.unquoted (optionText "-v".toList l.volumes) ++ g.unquoted h.sshOpts ++
    ["-h".toList, "wbdevenv".toList] ++ g.unquoted (h.text "WBDEV_IMAGE") ++ args

/-! ## What the line says -/

section Reading

variable {g : Globbing} {t : Text} {rest : List Text}

private theorem unquoted_append_blank (g : Globbing) (t rest : Text) :
    g.unquoted (t ++ ' ' :: rest) = g.unquoted t ++ g.unquoted rest := by
  rw [Globbing.unquoted, words_append_blank, List.flatMap_append]
  rfl

/-- A text that is one word, and no pattern. -/
structure Word (t : Text) : Prop where
  /-- It is not empty. -/
  ne_nil : t ≠ []
  /-- It is neither split nor expanded. -/
  plain : Plain t

/-- A single word without pattern characters stands unquoted for itself. -/
theorem Word.unquoted (h : Word t) : g.unquoted t = [t] := g.unquoted_plain h.ne_nil h.plain

instance (t : Text) : Decidable (Word t) :=
  decidable_of_iff (t ≠ [] ∧ Plain t) ⟨fun h => ⟨h.1, h.2⟩, fun h => ⟨h.ne_nil, h.plain⟩⟩

/-- The collected text of an option gives it once for each value. -/
theorem unquoted_append_optionText {option : Text} (ho : Word option) {values : List Text}
    (hvalues : ∀ value ∈ values, Word value) (t : Text) :
    g.unquoted (t ++ optionText option values) =
      g.unquoted t ++ values.flatMap fun value => [option, value] := by
  induction values generalizing t with
  | nil => simp [optionText]
  | cons value values ih =>
    obtain ⟨hvalue, hvalues⟩ := List.forall_mem_cons.mp hvalues
    have hsplit : t ++ optionText option (value :: values) =
        t ++ ' ' :: (option ++ ' ' :: (value ++ optionText option values)) := by
      simp [optionText]
    rw [hsplit, unquoted_append_blank, unquoted_append_blank, ih hvalues, ho.unquoted,
      hvalue.unquoted]
    rfl

private theorem unquoted_optionText {option : Text} (ho : Word option) {values : List Text}
    (hvalues : ∀ value ∈ values, Word value) :
    g.unquoted (optionText option values) = values.flatMap fun value => [option, value] :=
  unquoted_append_optionText ho hvalues []

end Reading

/-- The options for the agent. -/
def Host.sshOptions (h : Host) : List RunOption :=
  if h.text "SSH_AUTH_SOCK" ≠ [] then
    [.set "SSH_AUTH_SOCK".toList "/ssh-agent".toList,
      .volume (h.text "SSH_AUTH_SOCK" ++ ":/ssh-agent".toList)]
  else []

/-- The options that the script means. -/
def Host.options (h : Host) (l : Launch) : List RunOption :=
  [.flag h.ttyOpts, .flag "--privileged".toList, .flag "--rm".toList,
    .set "DEV_UID".toList h.uid, .set "DEV_USER".toList h.user, .set "DEV_DIR".toList l.devDir,
    .set "DEV_TERM".toList (h.text "TERM")] ++ l.exports.found.map .pass ++
    [.pass "DEB_BUILD_OPTIONS".toList, .pass "DEB_BUILD_PROFILES".toList,
      .pass "GITHUB_TOKEN".toList] ++ l.volumes.map .volume ++ h.sshOptions ++
    [.hostname "wbdevenv".toList]

/-- The line that the script means. -/
def Host.runLine (h : Host) (l : Launch) (args : List Text) : RunLine :=
  ⟨h.options l, h.text "WBDEV_IMAGE", args⟩

/-- The user, the paths and the image are single words, and no word found in the environment
is a pattern. -/
structure Orderly (h : Host) (l : Launch) : Prop where
  /-- The user id. -/
  uid : Plain h.uid
  /-- The name of the user. -/
  user : Plain h.user
  /-- The socket of the agent. -/
  sock : Plain (h.text "SSH_AUTH_SOCK")
  /-- The volumes. -/
  volumes : ∀ v ∈ l.volumes, Word v
  /-- The image. -/
  image : Word (h.text "WBDEV_IMAGE")
  /-- The image is no option. -/
  image_head : (h.text "WBDEV_IMAGE").head? ≠ some '-'
  /-- The words found in the environment. -/
  found : ∀ w ∈ l.exports.found, ∀ c ∈ w, c ∉ patternChars

section Launched

variable {g : Globbing} {h : Host} {l : Launch}

/-- The text of a match is an end of its piece. -/
theorem firstMatch_suffix {t m : Text} (hm : firstMatch t = some m) : m <:+ t := by
  induction t with
  | nil => simp [firstMatch] at hm
  | cons c t ih =>
    rw [firstMatch] at hm
    split at hm
    · exact Option.some.inj hm ▸ List.suffix_refl _
    · exact (ih hm).trans (List.suffix_cons c t)

/-- A word found in the environment has no `=`. -/
theorem mem_found {e : Exports} {w : Text} (hw : w ∈ e.found) :
    w ≠ [] ∧ '=' ∉ w ∧ ∀ c ∈ w, isIfs c = false := by
  obtain ⟨m, hm, hw⟩ := List.mem_flatMap.mp hw
  obtain ⟨line, _, hm⟩ := List.mem_flatMap.mp hm
  obtain ⟨piece, hpiece, hm⟩ := List.mem_filterMap.mp hm
  obtain ⟨hne, hchars⟩ := mem_words hw
  rw [List.splitOn_eq_splitOnP] at hpiece
  refine ⟨hne, fun heq => ?_, fun c hc => (hchars c hc).2⟩
  have hmem := (firstMatch_suffix hm).subset (hchars _ heq).1
  simpa using (mem_splitOnP hpiece _ hmem).2

private theorem Orderly.word_found (ho : Orderly h l) : ∀ w ∈ l.exports.found, Word w := fun w hw =>
  ⟨(mem_found hw).1, fun c hc => ⟨(mem_found hw).2.2 c hc, ho.found w hw c hc⟩⟩

private theorem Orderly.flatMap_expand (ho : Orderly h l) :
    l.exports.found.flatMap g.expand = l.exports.found := by
  have hexpand : ∀ w ∈ l.exports.found, g.expand w = [w] :=
    fun w hw => g.expand_plain w (ho.word_found w hw).plain
  rw [List.flatMap_congr hexpand]
  simp

/-- The options of the agent. -/
theorem unquoted_sshOpts (g : Globbing) (hsock : Plain (h.text "SSH_AUTH_SOCK")) :
    g.unquoted h.sshOpts = h.sshOptions.flatMap RunOption.words := by
  unfold Host.sshOpts Host.sshOptions
  split
  · have hagent : Plain ("SSH_AUTH_SOCK".toList ++ '=' :: "/ssh-agent".toList) := by decide
    have hvolume : Plain (h.text "SSH_AUTH_SOCK" ++ ":/ssh-agent".toList) :=
      hsock.append (by decide)
    have hset : g.unquoted "-e".toList = ["-e".toList] := g.unquoted_plain (by decide) (by decide)
    have hmount : g.unquoted "-v".toList = ["-v".toList] := g.unquoted_plain (by decide) (by decide)
    rw [unquoted_append_blank, unquoted_append_blank, unquoted_append_blank, hset, hmount,
      g.unquoted_plain (by simp) hagent,
      g.unquoted_plain (List.append_ne_nil_of_right_ne_nil _ (by decide)) hvolume]
    rfl
  · simp [Globbing.unquoted, words]

/-- Whatever the values of the environment contain, the words are those of the line that the
script means. -/
theorem dockerArgs_eq (g : Globbing) (ho : Orderly h l) (args : List Text) :
    dockerArgs g h l args = (h.runLine l args).words := by
  have htty : g.unquoted h.ttyOpts = [h.ttyOpts] := by
    unfold Host.ttyOpts
    split
    · exact g.unquoted_plain (by decide) (by decide)
    · exact g.unquoted_plain (by decide) (by decide)
  have hname {n : Text} (hn : Plain n) {t : Text} (ht : Plain t) :
      g.unquoted (n ++ '=' :: t) = [n ++ '=' :: t] :=
    g.unquoted_plain (by simp) (hn.append (List.forall_mem_cons.mpr ⟨by decide, ht⟩))
  have huid : g.unquoted ("DEV_UID".toList ++ '=' :: h.uid) = ["DEV_UID".toList ++ '=' :: h.uid] :=
    hname (by decide) ho.uid
  have huser : g.unquoted ("DEV_USER".toList ++ '=' :: h.user) =
      ["DEV_USER".toList ++ '=' :: h.user] := hname (by decide) ho.user
  have henv : g.unquoted (optionText "-e".toList (l.exports.found.flatMap g.expand)) =
      (l.exports.found.map RunOption.pass).flatMap RunOption.words := by
    rw [ho.flatMap_expand, unquoted_optionText ⟨by decide, by decide⟩ ho.word_found,
      List.flatMap_map]
    rfl
  have hvolumes : g.unquoted (optionText "-v".toList l.volumes) =
      (l.volumes.map RunOption.volume).flatMap RunOption.words := by
    rw [unquoted_optionText ⟨by decide, by decide⟩ ho.volumes, List.flatMap_map]
    rfl
  rw [dockerArgs, htty, huid, huser, henv, hvolumes, unquoted_sshOpts g ho.sock,
    ho.image.unquoted, RunLine.words, Host.runLine, Host.options]
  simp [RunOption.words]

/-- The line is valid. -/
theorem Orderly.valid (ho : Orderly h l) (args : List Text) : (h.runLine l args).Valid := by
  have htty : h.ttyOpts ∈ flags := by
    unfold Host.ttyOpts
    split <;> decide
  have hfixed : ∀ o ∈ [RunOption.flag h.ttyOpts, .flag "--privileged".toList,
      .flag "--rm".toList, .set "DEV_UID".toList h.uid, .set "DEV_USER".toList h.user,
      .set "DEV_DIR".toList l.devDir, .set "DEV_TERM".toList (h.text "TERM")], o.Valid := by
    simp only [List.forall_mem_cons, RunOption.Valid]
    exact ⟨htty, by decide, by decide, by decide, by decide, by decide, by decide, by simp⟩
  have hfound : ∀ o ∈ l.exports.found.map RunOption.pass, o.Valid := by
    intro o hmem
    obtain ⟨w, hw, rfl⟩ := List.mem_map.mp hmem
    exact (mem_found hw).2.1
  have hpassed : ∀ o ∈ [RunOption.pass "DEB_BUILD_OPTIONS".toList,
      .pass "DEB_BUILD_PROFILES".toList, .pass "GITHUB_TOKEN".toList], o.Valid := by
    simp [RunOption.Valid]
  have hvolumes : ∀ o ∈ l.volumes.map RunOption.volume, o.Valid := by
    intro o hmem
    obtain ⟨v, _, rfl⟩ := List.mem_map.mp hmem
    trivial
  have hagent : ∀ o ∈ h.sshOptions, o.Valid := by
    unfold Host.sshOptions
    split <;> simp [RunOption.Valid]
  refine ⟨?_, ho.image_head⟩
  simp only [Host.runLine, Host.options, List.forall_mem_append]
  exact ⟨⟨⟨⟨⟨hfixed, hfound⟩, hpassed⟩, hvolumes⟩, hagent⟩, by simp [RunOption.Valid]⟩

end Launched

/-! ## The variables of the container -/

/-- A name that the script looks for. -/
structure Named (n : Text) : Prop where
  /-- It begins with `WBDEV_`. -/
  begins : namePrefix <+: n
  /-- It is a name. -/
  plain : ∀ c ∈ n, c ≠ '=' ∧ isIfs c = false

instance (n : Text) : Decidable (Named n) :=
  have : Decidable (∀ c ∈ n, c ≠ '=' ∧ isIfs c = false) := List.decidableBAll _ n
  decidable_of_iff (namePrefix <+: n ∧ ∀ c ∈ n, c ≠ '=' ∧ isIfs c = false)
    ⟨fun h => ⟨h.1, h.2⟩, fun h => ⟨h.begins, h.plain⟩⟩

section Container

variable {docker : Docker} {h : Host} {l : Launch} {n : Text} {args : List Text} {c : Container}

private theorem Named.ne_nil (hn : Named n) : n ≠ [] := by
  rintro rfl
  exact absurd hn.begins (by decide)

/-- What stands before the first separator goes into the first piece. -/
theorem splitOn_append_of_not_mem {c : Char} {t : Text} (ht : c ∉ t) (rest : Text) :
    (t ++ rest).splitOn c = (rest.splitOn c).modifyHead (t ++ ·) := by
  induction t with
  | nil =>
    rw [List.nil_append]
    cases rest.splitOn c <;> rfl
  | cons a t ih =>
    have ha : (a == c) = false := beq_eq_false_iff_ne.mpr fun h => ht (h ▸ List.mem_cons_self)
    rw [List.cons_append, List.splitOn_cons_eq_if_modifyHead, ha,
      ih fun h => ht (List.mem_cons_of_mem a h)]
    cases rest.splitOn c <;> rfl

/-- The name of an exported variable is found, whatever its value is. -/
theorem Named.found (hn : Named n) {e : Exports} (hmem : n ∈ e.names) : n ∈ e.found := by
  have hequals : '=' ∉ n := fun hc => (hn.plain _ hc).1 rfl
  have hnewline : '\n' ∉ n ++ ['='] := fun hc => by
    rcases List.mem_append.mp hc with hc | hc
    · exact absurd (hn.plain _ hc).2 (by decide)
    · exact absurd hc (by decide)
  obtain ⟨first, rest, hsplit⟩ :=
    List.exists_cons_of_ne_nil (List.splitOn_ne_nil '\n' (textOf e.value n))
  have hline : n ++ '=' :: first ∈ e.lines := by
    refine List.mem_flatMap.mpr ⟨n, hmem, ?_⟩
    rw [← List.singleton_append, ← List.append_assoc, splitOn_append_of_not_mem hnewline, hsplit]
    simp
  have hmatch : firstMatch n = some n := by
    have hbegins : namePrefix.isPrefixOf n = true := List.isPrefixOf_iff_prefix.mpr hn.begins
    obtain ⟨c, t, rfl⟩ := List.exists_cons_of_ne_nil hn.ne_nil
    rw [firstMatch, if_pos hbegins]
  have hgrep : n ∈ grepOnly (n ++ '=' :: first) := by
    rw [grepOnly, List.splitOn_append_cons_self_of_not_mem hequals, List.filterMap_cons, hmatch]
    exact List.mem_cons_self
  have hword : words n = [n] := by
    rw [words, List.splitOnP_eq_singleton fun c hc => (hn.plain c hc).2]
    simp [hn.ne_nil]
  exact List.mem_flatMap.mpr
    ⟨n, List.mem_flatMap.mpr ⟨_, hline, hgrep⟩, hword ▸ List.mem_singleton_self n⟩

/-- The variables that the script sets for the container. -/
def fixedNames : List Text := [
  "DEV_UID".toList, "DEV_USER".toList, "DEV_DIR".toList, "DEV_TERM".toList,
  "SSH_AUTH_SOCK".toList]

/-- Every other variable is passed. -/
theorem pass_of_not_fixed (hn : n ∉ fixedNames) :
    ∀ o ∈ h.options l, o.name = some n → o = .pass n := by
  have hset {n' t : Text} (hfixed : n' ∈ fixedNames) (hname : (RunOption.set n' t).name = some n) :
      RunOption.set n' t = .pass n := by
    obtain rfl : n' = n := Option.some.inj hname
    exact absurd hfixed hn
  have hpass {n' : Text} (hname : (RunOption.pass n').name = some n) :
      RunOption.pass n' = .pass n := congrArg RunOption.pass (Option.some.inj hname)
  have hother {o : RunOption} (hnone : o.name = none) (hname : o.name = some n) : o = .pass n :=
    absurd (hnone.symm.trans hname) (by simp)
  have hagent : ∀ o ∈ h.sshOptions, o.name = some n → o = .pass n := by
    unfold Host.sshOptions
    split
    · simp only [List.forall_mem_cons]
      exact ⟨hset (by decide), hother rfl, by simp⟩
    · simp
  simp only [Host.options, List.forall_mem_append, List.forall_mem_cons, List.forall_mem_map]
  refine ⟨⟨⟨⟨⟨⟨hother rfl, hother rfl, hother rfl, ?_, ?_, ?_, ?_, by simp⟩, ?_⟩,
    hpass, hpass, hpass, by simp⟩, fun _ _ => hother rfl⟩, hagent⟩, hother rfl, by simp⟩
  · exact hset (by decide)
  · exact hset (by decide)
  · exact hset (by decide)
  · exact hset (by decide)
  · exact fun _ _ => hpass

private theorem Named.not_fixed (hn : Named n) : n ∉ fixedNames := fun hmem =>
  (show ∀ t ∈ fixedNames, ¬namePrefix <+: t by decide) n hmem hn.begins

/-- In the container a variable with such a name has the value that the script has exported,
and is unset when the script has not, as long as the image does not set it. -/
theorem Docker.Starts.named_value (hstarts : docker.Starts l.exports (h.runLine l args) c)
    (hdocker : docker.Documented) (hn : Named n)
    (himage : docker.imageEnv (h.text "WBDEV_IMAGE") n = none) :
    c.env n = l.exports.value n := by
  have hnames : ∀ o ∈ h.options l, o.name = some n → o = .pass n := pass_of_not_fixed hn.not_fixed
  by_cases hpass : RunOption.pass n ∈ h.options l
  · exact hdocker.pass hstarts hpass hnames
  · have hnone : ∀ o ∈ h.options l, o.name ≠ some n :=
      fun o ho hname => hpass (hnames o ho hname ▸ ho)
    have hunset : l.exports.value n = none := by
      rw [← Option.not_isSome_iff_eq_none, ← l.exports.mem_names]
      intro hmem
      refine hpass ?_
      simp [Host.options, hn.found hmem]
    rw [hdocker.unnamed hstarts hnone, hunset]
    exact himage

/-- The variables that the script assigns, but for the directories of the caches. -/
def touched : List Text := [
  "DEB_BUILD_OPTIONS".toList, "DEB_BUILD_PROFILES".toList, "DOCKER".toList,
  "DOCKER_TTY_OPTS".toList, "ssh_opts".toList, "USER".toList, "VM_HOME".toList,
  "PREFIX".toList, "DEV_VOLUME_PREFIX".toList, "DEV_DIR".toList, "VOLUMES".toList,
  "ENV_CMDLINE".toList]

/-- A name that docker gets by name is none that the script assigns. -/
theorem Named.not_touched (hn : Named n) : n ∉ touched := fun hmem =>
  (show ∀ t ∈ touched, ¬namePrefix <+: t by decide) n hmem hn.begins

private theorem ne_of_touched {t : Text} (hn : n ∉ touched) (ht : t ∈ touched) : n ≠ t :=
  fun heq => hn (heq ▸ ht)

private theorem exported_value (hn : n ∉ touched) (devDir : Text) :
    (h.exported devDir).value n = h.exports.value n := by
  have hassigned : ∀ a ∈ h.assignments devDir, a.1.toList ∈ touched := by
    simp [Host.assignments, touched]
  rw [Host.exported, Exports.assignAll_value_ne _ fun a ha => ne_of_touched hn (hassigned a ha),
    Exports.put_value_ne _ (ne_of_touched hn (by decide)),
    Exports.put_value_ne _ (ne_of_touched hn (by decide))]

private theorem collecting_value (hn : n ∉ touched) :
    l.collecting.exports.value n = l.exports.value n := by
  apply Exports.assignAll_value_ne
  simp only [List.forall_mem_cons]
  exact ⟨ne_of_touched hn (by decide), ne_of_touched hn (by decide), by simp⟩

section Caches

variable {cache : Cache} {l l' : Launch}

/-- A step for a cache changes only its directory. -/
theorem shareCache_value (hshare : shareCache cache l = some l') {n : Text}
    (hn : n ≠ cache.dir.toList) : l'.exports.value n = l.exports.value n := by
  unfold shareCache at hshare
  split at hshare
  · obtain rfl := Option.some.inj hshare
    exact l.exports.put_value_ne hn _
  · split at hshare
    · cases hshare
    · obtain rfl := Option.some.inj hshare
      rfl

private theorem shareCache_volumes (hshare : shareCache cache l = some l') :
    l.volumes ⊆ l'.volumes := by
  unfold shareCache at hshare
  split at hshare
  · obtain rfl := Option.some.inj hshare
    exact List.subset_append_left ..
  · split at hshare
    · cases hshare
    · obtain rfl := Option.some.inj hshare
      exact List.Subset.refl _

/-- A directory is there with its volume, or neither is given. -/
theorem shareCache_mounts (hshare : shareCache cache l = some l') :
    if l.exports.text cache.volume = [] then
      l.exports.text cache.dir = [] ∧ l'.exports.text cache.dir = []
    else l'.exports.text cache.dir = orDefault (l.exports.text cache.dir) cache.default ∧
      l.exports.text cache.volume ++ ':' :: l'.exports.text cache.dir ∈ l'.volumes := by
  unfold shareCache at hshare
  split at hshare
  · rename_i hvolume
    obtain rfl := Option.some.inj hshare
    rw [if_neg hvolume]
    simp [Exports.text, textOf]
  · rename_i hvolume
    rw [if_pos (not_not.mp hvolume)]
    split at hshare
    · cases hshare
    · rename_i hdir
      obtain rfl := Option.some.inj hshare
      exact ⟨not_not.mp hdir, not_not.mp hdir⟩

end Caches

private theorem start_exports {l₀ : Launch} (h₀ : h.start = some l₀) :
    l₀.exports = h.exported l₀.devDir := by
  obtain ⟨source, _, rfl⟩ := Option.map_eq_some_iff.mp h₀
  dsimp only

private theorem launch_eq_some (hl : launch h = some l) :
    ∃ l₀ l₁ l₂, h.start = some l₀ ∧ shareCache ccache l₀ = some l₁ ∧
      shareCache gocache l₁ = some l₂ ∧ l = l₂.collecting := by
  obtain ⟨l₂, hl₂, rfl⟩ := Option.map_eq_some_iff.mp hl
  obtain ⟨l₁, hl₁, hl₂⟩ := Option.bind_eq_some_iff.mp hl₂
  obtain ⟨l₀, hl₀, hl₁⟩ := Option.bind_eq_some_iff.mp hl₁
  exact ⟨l₀, l₁, l₂, hl₀, hl₁, hl₂, rfl⟩

/-- The script keeps the variables that it does not assign. -/
theorem launch_value (hl : launch h = some l) (hn : n ∉ touched)
    (hccache : n ≠ ccache.dir.toList) (hgocache : n ≠ gocache.dir.toList) :
    l.exports.value n = h.exports.value n := by
  obtain ⟨l₀, l₁, l₂, hl₀, hl₁, hl₂, rfl⟩ := launch_eq_some hl
  rw [collecting_value hn, shareCache_value hl₂ hgocache, shareCache_value hl₁ hccache,
    start_exports hl₀, exported_value hn]

private theorem text_congr {e e' : Exports} {n : String}
    (hvalue : e.value n.toList = e'.value n.toList) : e.text n = e'.text n := by
  rw [Exports.text, Exports.text, textOf, textOf, hvalue]

/-- The container has the profiles of the host. -/
theorem Docker.Starts.profiles (hstarts : docker.Starts l.exports (h.runLine l args) c)
    (hdocker : docker.Documented) (hl : launch h = some l) :
    textOf c.env "DEB_BUILD_PROFILES".toList = h.text "DEB_BUILD_PROFILES" := by
  have hpass : RunOption.pass "DEB_BUILD_PROFILES".toList ∈ h.options l := by simp [Host.options]
  rw [textOf, hdocker.pass hstarts hpass (pass_of_not_fixed (by decide))]
  obtain ⟨l₀, l₁, l₂, hl₀, hl₁, hl₂, rfl⟩ := launch_eq_some hl
  have hassigned : ∀ a ∈ h.assignments l₀.devDir, "DEB_BUILD_PROFILES".toList ≠ a.1.toList := by
    simp [Host.assignments]
  have hcollecting : l₂.collecting.exports.value "DEB_BUILD_PROFILES".toList =
      l₂.exports.value "DEB_BUILD_PROFILES".toList :=
    Exports.assignAll_value_ne _ (by simp)
  rw [hcollecting, shareCache_value hl₂ (by decide), shareCache_value hl₁ (by decide),
    start_exports hl₀, Host.exported, Exports.assignAll_value_ne _ hassigned,
    Exports.put_value_self]
  rfl

/-- For each of the caches the script has a directory just when the host has a volume for it,
and then it is one of the volumes. -/
theorem launch_mounts (hl : launch h = some l) {cache : Cache}
    (hcache : cache ∈ [ccache, gocache]) :
    if h.text cache.volume = [] then h.text cache.dir = [] ∧ l.exports.text cache.dir = []
    else l.exports.text cache.dir = orDefault (h.text cache.dir) cache.default ∧
      h.text cache.volume ++ ':' :: l.exports.text cache.dir ∈ l.volumes := by
  obtain ⟨l₀, l₁, l₂, hl₀, hl₁, hl₂, rfl⟩ := launch_eq_some hl
  have hstart {n : String} (hn : n.toList ∉ touched) : l₀.exports.text n = h.text n :=
    text_congr (start_exports hl₀ ▸ exported_value hn l₀.devDir)
  rcases List.mem_cons.mp hcache with rfl | hcache
  · have hdir : l₂.collecting.exports.text ccache.dir = l₁.exports.text ccache.dir :=
      text_congr ((collecting_value (by decide)).trans (shareCache_value hl₂ (by decide)))
    have hmounts := shareCache_mounts hl₁
    rw [hstart (by decide), hstart (by decide)] at hmounts
    rw [hdir]
    by_cases hvolume : h.text ccache.volume = []
    · rw [if_pos hvolume] at hmounts ⊢
      exact hmounts
    · rw [if_neg hvolume] at hmounts ⊢
      exact ⟨hmounts.1, shareCache_volumes hl₂ hmounts.2⟩
  · obtain rfl := List.mem_singleton.mp hcache
    have hdir : l₂.collecting.exports.text gocache.dir = l₂.exports.text gocache.dir :=
      text_congr (collecting_value (by decide))
    have hkeep {n : String} (hn : n.toList ∉ touched) (hne : n.toList ≠ ccache.dir.toList) :
        l₁.exports.text n = h.text n :=
      (text_congr (shareCache_value hl₁ hne)).trans (hstart hn)
    have hmounts := shareCache_mounts hl₂
    rw [hkeep (by decide) (by decide), hkeep (by decide) (by decide)] at hmounts
    rw [hdir]
    exact hmounts

end Container

/-- No variables. -/
def Exports.empty : Exports := ⟨[], fun _ => none, List.nodup_nil, by simp⟩

/-- A host with a cache for the compiler and with a value that looks like options. -/
def Host.sample : Host where
  exports := ((((Exports.empty.put "HOME".toList "/home/u".toList).put
    "DEV_CCACHE_VOLUME".toList "cc".toList).put
    "NOTE".toList "WBDEV_ --rm -v /:/mnt\nWBDEV_TARGET=x".toList).put
    "WBDEV_TARGET".toList "wb8".toList).put "WBDEV_IMAGE".toList "contactless/devenv".toList
  terminal := false
  uid := "1000".toList
  idName := "u".toList
  osType := "linux-gnu".toList
  pwd := "/home/u/pkg".toList

/-- A directory in which no word is a pattern that matches. -/
def Globbing.none : Globbing := ⟨fun w => [w], fun _ _ => rfl⟩

/-- The sample as far as the call of `docker`. -/
def Launch.sample : Launch := (launch .sample).get (by decide +kernel)

/-- The sample host comes as far as the call of docker. -/
theorem launch_sample : launch .sample = some .sample := (Option.some_get _).symm

/-- The sample host is orderly. -/
theorem orderly_sample : Orderly .sample .sample where
  uid := by decide +kernel
  user := by decide +kernel
  sock := by decide +kernel
  volumes := by
    rw [← List.all_iff_forall_prop]
    decide +kernel
  image := by decide +kernel
  image_head := by decide +kernel
  found := by
    have hplain : ∀ w ∈ Launch.sample.exports.found, Plain w := by
      rw [← List.all_iff_forall_prop]
      decide +kernel
    exact fun w hw c hc => (hplain w hw c hc).2

/-- The container of the sample. -/
def Container.sample : Container :=
  (Docker.plain.run Launch.sample.exports
    (dockerArgs .none .sample .sample ["cdeb".toList])).get (by decide +kernel)

private theorem container_sample :
    Docker.plain.run Launch.sample.exports (dockerArgs .none .sample .sample ["cdeb".toList]) =
      some .sample := (Option.some_get _).symm

end WirenBoard.Devenv
