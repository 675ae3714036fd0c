import WirenBoard.Core.Subst
import WirenBoard.Models.Rootfs.Repos

/-!
# Suites of the package repository

`entrypoint.sh` asks the server for the `Release` file of every suite it wants to use.
`platformHasSuite` succeeds for a suite that is there and fails for one that is not; any
other answer makes it exit. The functions that print the apt lines of the stable and the
unstable suite and of the testing sets are run in command substitutions, so that such an
exit ends the substitution only. For each of them the text, the URLs asked for and the
ending are computed here.
-/

namespace WirenBoard.Devenv

open Shell

open Rootfs (orDefault words joinWords)

/-! ## The setting -/

/-- The variables that choose the target, as the script has set them. -/
structure Config where
  /-- `WBDEV_TARGET_BOARD`. -/
  board : Text
  /-- `WBDEV_TARGET_RELEASE`. -/
  release : Text
  /-- `WBDEV_TARGET_REPO_RELEASE`. -/
  repoRelease : Text
  /-- `WBDEV_TARGET_REPO_PREFIX`. -/
  repoPrefix : Text
  /-- `WBDEV_USE_UNSTABLE_DEPS`. -/
  useUnstable : Text
  /-- `WBDEV_TESTING_SETS`. -/
  testingSets : Text
  /-- `DEB_BUILD_PROFILES`. -/
  buildProfiles : Text
  /-- Whether the command is one of `user`, `chuser`, `root` and `chroot` without arguments. -/
  interactive : Bool

/-- What `curl` returns and prints for a URL. -/
structure Curl where
  /-- The exit status. -/
  status : Nat
  /-- `%{http_code}`. -/
  code : Nat

/-- What the environment does. -/
structure Machine where
  /-- The outcome of `curl` for a URL. -/
  curl : Text → Curl
  /-- Whether `setup_chroot` succeeds. -/
  chrootReady : Bool
  /-- Whether a program with these arguments succeeds in the rootfs. -/
  rootfs : List Text → Bool
  /-- The lines of `debian/control`. -/
  control : List Text
  /-- `dpkg --print-architecture`. -/
  architecture : Text
  /-- Whether `sbuild` succeeds with these arguments. -/
  sbuild : List Text → Bool

/-- One run of `sbuild`. -/
structure SbuildRun where
  /-- `DEB_BUILD_PROFILES`. -/
  profiles : Text
  /-- The arguments. -/
  args : List Text

/-- What the script changes outside the shell. -/
structure World where
  /-- The URLs asked for, in order. -/
  asked : List Text
  /-- The runs of `sbuild`, in order. -/
  runs : List SbuildRun
  /-- The lines of the files in the rootfs. -/
  files : Text → Option (List Text)

/-- Nothing asked for, nothing run and no list in the rootfs. -/
def World.fresh : World := ⟨[], [], fun _ => none⟩

/-- The variables that the functions assign. -/
structure Vars where
  /-- `HTTP_CODE`. -/
  httpCode : Nat
  /-- `$?`. -/
  lastStatus : Nat
  /-- `CURL_STATUS`. -/
  curlStatus : Nat
  /-- `STABLE_REPO_SPEC`. -/
  stableSpec : Text
  /-- `UNSTABLE_REPO_SPEC`. -/
  unstableSpec : Text
  /-- `repo_spec`. -/
  repoSpec : Text
  /-- `unstable_repo_spec`. -/
  unstableRepoSpec : Text
  /-- `stable_repo_spec`. -/
  stableRepoSpec : Text
  /-- `testing_sets_specs`. -/
  testingSetsSpecs : Text
  /-- `build_profiles`. -/
  buildProfiles : List Text
  /-- `SBUILD_ARGS`. -/
  sbuildArgs : List Text

/-- All variables unset. -/
def Vars.unset : Vars := ⟨0, 0, 0, [], [], [], [], [], [], [], []⟩

/-! ## Asking for a suite -/

/-- `die`, whose message goes to the standard error. -/
def die : Sh Vars World := exit false

/-- `wb_repo_path` with these arguments. -/
def wbRepoPath (repoPrefix : Text) (args : List Text) : Text :=
  let platform := args.getD 0 []
  let pre := orDefault (args.getD 1 []) repoPrefix
  if pre ≠ [] then pre ++ '/' :: platform else platform

/-- `URL` in `platform_has_suite`; the platform is not quoted there. `curl` gets the URL unquoted:
the suite and the prefix are taken to be single words. -/
def suiteUrl (repoPrefix suite platform : Text) : Text :=
  "http://deb.wirenboard.com/".toList ++ wbRepoPath repoPrefix (words platform) ++
    "/dists/".toList ++ suite ++ "/Release".toList

/-- `platform_has_suite`, where the URL is one argument of `curl`. -/
def platformHasSuite (m : Machine) (repoPrefix suite platform : Text) : Sh Vars World :=
  script [
    simple fun v w =>
      let r := m.curl (suiteUrl repoPrefix suite platform)
      ({ v with httpCode := r.code, lastStatus := r.status },
        { w with asked := w.asked ++ [suiteUrl repoPrefix suite platform] }, r.status = 0),
    assign true fun v _ => { v with curlStatus := v.lastStatus },
    ifThen (test fun v => v.curlStatus ≠ 0) die,
    ifThenElse (test fun v => v.httpCode = 404)
      (call false)
      (ifThenElse (andThen (test fun v => 200 ≤ v.httpCode) (test fun v => v.httpCode < 400))
        (call true)
        die)]

/-- What the check makes of the outcome for a URL. -/
inductive Answer where
  /-- The suite is there. -/
  | found
  /-- There is no such suite. -/
  | missing
  /-- The check failed. -/
  | failed
  deriving DecidableEq

/-- The server says 404 for a missing suite and a code from 200 to 399 for one that is
there; everything else, and a failure of `curl`, is a failed check. -/
def Curl.answer (r : Curl) : Answer :=
  if r.status ≠ 0 then .failed
  else if r.code = 404 then .missing
  else if 200 ≤ r.code ∧ r.code < 400 then .found
  else .failed

/-- The answer for a URL. -/
def Machine.answer (m : Machine) (url : Text) : Answer := (m.curl url).answer

/-- The ending that reports an answer to the caller. -/
def Answer.ending : Answer → Ending
  | .found => .status true
  | .missing => .status false
  | .failed => .exited false

/-- The variables behind the request. -/
def Vars.curled (v : Vars) (r : Curl) : Vars :=
  { v with httpCode := r.code, lastStatus := r.status, curlStatus := r.status }

/-- The world with one more request. -/
def World.ask (w : World) (url : Text) : World := { w with asked := w.asked ++ [url] }

/-- The world after these requests. -/
def World.askAll (w : World) (urls : List Text) : World := { w with asked := w.asked ++ urls }

/-- No requests leave no trace. -/
@[simp] theorem World.askAll_nil (w : World) : w.askAll [] = w := by
  simp [World.askAll]

/-- The first request is noted before the others. -/
@[simp] theorem World.askAll_cons (w : World) (url : Text) (urls : List Text) :
    w.askAll (url :: urls) = (w.ask url).askAll urls := by
  simp [World.askAll, World.ask]

/-- In a condition or a substitution the check asks once and reports the answer. -/
theorem outcome_platformHasSuite (m : Machine) (repoPrefix suite platform : Text) (v : Vars)
    (w : World) :
    (platformHasSuite m repoPrefix suite platform false v w).outcome =
      ⟨v.curled (m.curl (suiteUrl repoPrefix suite platform)),
        w.ask (suiteUrl repoPrefix suite platform), [],
        (m.answer (suiteUrl repoPrefix suite platform)).ending⟩ := by
  unfold platformHasSuite Machine.answer Curl.answer
  generalize suiteUrl repoPrefix suite platform = url
  by_cases hstatus : (m.curl url).status = 0
  · by_cases h404 : (m.curl url).code = 404
    · simp [hstatus, h404, Answer.ending, Vars.curled, World.ask]
    · by_cases h200 : 200 ≤ (m.curl url).code
      · by_cases h400 : (m.curl url).code < 400
        · simp [hstatus, h404, h200, h400, Answer.ending, Vars.curled, World.ask]
        · simp [hstatus, h404, h200, h400, Answer.ending, Vars.curled, World.ask, die]
      · simp [hstatus, h404, h200, Answer.ending, Vars.curled, World.ask, die]
  · simp [hstatus, Answer.ending, Vars.curled, World.ask, die]

/-! ## The stable and the unstable suite -/

section Specs

variable (c : Config) (m : Machine)

/-- `[ "${WBDEV_TARGET_BOARD}" == "host" ]`. -/
def Config.isHost : Bool := c.board = "host".toList

/-- `WB_REPO_PLATFORM`. -/
def Config.platform : Text := c.board ++ '/' :: c.release

/-- The first word of `$WB_REPO_PLATFORM`. -/
def Config.platformWord : Text := (words c.platform).getD 0 []

/-- The unstable suite. -/
def unstableSuite : Text := "unstable".toList

/-- The fixed line of a host target. -/
def devToolsLine : Text := "deb http://deb.wirenboard.com/dev-tools stable main".toList

/-- The apt line of the stable suite. -/
def Config.stableLine : Text :=
  "deb [arch=armhf,arm64,amd64] http://deb.wirenboard.com/".toList ++
    wbRepoPath c.repoPrefix (words c.platform) ++ [' '] ++ c.repoRelease ++ " main".toList

/-- The apt line of the unstable suite. -/
def Config.unstableLine : Text :=
  "deb [arch=armhf,amd64,arm64] http://deb.wirenboard.com/".toList ++
    wbRepoPath c.repoPrefix (words c.platform) ++ [' '] ++ unstableSuite ++ " main".toList

/-- `get_stable_repo_spec`. -/
def getStableRepoSpec : Sh Vars World :=
  script [
    assign true fun v _ => { v with stableSpec := [] },
    ifThenElse (test fun _ => c.isHost)
      (assign true fun v _ => { v with stableSpec := devToolsLine })
      (ifThenElse (platformHasSuite m c.repoPrefix c.repoRelease c.platform)
        (assign true fun v _ => { v with stableSpec := c.stableLine })
        (call true)),
    print fun v => v.stableSpec]

/-- `get_unstable_repo_spec`; the platform is not quoted in the call. -/
def getUnstableRepoSpec : Sh Vars World :=
  script [
    assign true fun v _ => { v with unstableSpec := [] },
    ifThen (test fun _ => !c.isHost)
      (ifThenElse (platformHasSuite m c.repoPrefix unstableSuite c.platformWord)
        (assign true fun v _ => { v with unstableSpec := c.unstableLine })
        (call true)),
    print fun v => v.unstableSpec]

/-- The URL that is asked for the stable suite. -/
def Config.stableUrl : Text := suiteUrl c.repoPrefix c.repoRelease c.platform

/-- The URL that is asked for the unstable suite. -/
def Config.unstableUrl : Text := suiteUrl c.repoPrefix unstableSuite c.platformWord

/-- The URLs asked for the stable suite. -/
def Config.stableAsked : List Text := if c.isHost then [] else [c.stableUrl]

/-- The URLs asked for the unstable suite. -/
def Config.unstableAsked : List Text := if c.isHost then [] else [c.unstableUrl]

/-- The stable source of the target, if it exists. -/
def stableSource : List Text :=
  if c.isHost then [devToolsLine]
  else if m.answer c.stableUrl = .found then [c.stableLine] else []

/-- The unstable source of the target, if it exists. -/
def unstableSource : List Text :=
  if c.isHost then [] else if m.answer c.unstableUrl = .found then [c.unstableLine] else []

/-- The check of some URL fails. -/
def SomeFails (urls : List Text) : Prop := ∃ url ∈ urls, m.answer url = .failed

instance (urls : List Text) : Decidable (SomeFails m urls) :=
  inferInstanceAs (Decidable (∃ _ ∈ _, _))

/-- A failed check ends the substitution that makes it. -/
def specEnding (urls : List Text) : Ending :=
  if SomeFails m urls then .exited false else .status true

/-- A specification never shuts the container down. -/
theorem specEnding_ne_down (urls : List Text) : specEnding m urls ≠ .down := by
  unfold specEnding
  split <;> simp

private theorem getLast?_main (t : Text) : (t ++ " main".toList).getLast? ≠ some '\n' := by
  have hlast : " main".toList.getLast? = some 'n' := by decide
  rw [List.getLast?_append, hlast, Option.some_or]
  decide

private theorem append_main_ne_nil (t : Text) : t ++ " main".toList ≠ [] :=
  List.append_ne_nil_of_right_ne_nil t (by decide)

/-- The line of the stable repository is not empty. -/
theorem Config.stableLine_ne_nil : c.stableLine ≠ [] := append_main_ne_nil _

/-- The line of the unstable repository is not empty. -/
theorem Config.unstableLine_ne_nil : c.unstableLine ≠ [] := append_main_ne_nil _

private theorem stableLine_last : c.stableLine.getLast? ≠ some '\n' := getLast?_main _

private theorem unstableLine_last : c.unstableLine.getLast? ≠ some '\n' := getLast?_main _

/-- Both functions, for a target that is no host, clear a variable, give it the line if the
suite is there, and print it. -/
theorem writes_suite (set : Text → Vars → Vars) (get : Vars → Text)
    (hset : ∀ t v, get (set t v) = t) (hcurled : ∀ r v, get (v.curled r) = get v)
    {suite platform url line : Text} (hurl : suiteUrl c.repoPrefix suite platform = url)
    (hline : line.getLast? ≠ some '\n') (w : World) :
    ∃ out, Writes
      (script [
        assign true fun v _ => set [] v,
        ifThenElse (platformHasSuite m c.repoPrefix suite platform)
          (assign true fun v _ => set line v)
          (call true),
        print get]) w (w.askAll [url]) out (specEnding m [url]) ∧
      captured out = (if m.answer url = .found then [line] else []).flatten := by
  have hask := outcome_platformHasSuite m c.repoPrefix suite platform
  rw [hurl] at hask
  cases hanswer : m.answer url with
  | found =>
    refine ⟨[String.ofList line], ?_, ?_⟩
    · intro v
      simp [hask, hanswer, hset, Answer.ending, specEnding, SomeFails]
    · rw [captured_line hline]
      simp
  | missing =>
    refine ⟨[String.ofList []], ?_, ?_⟩
    · intro v
      simp [hask, hanswer, hset, hcurled, Answer.ending, specEnding, SomeFails]
    · rw [captured_line (by decide)]
      simp
  | failed =>
    refine ⟨[], ?_, ?_⟩
    · intro v
      simp [hask, hanswer, Answer.ending, specEnding, SomeFails]
    · simp

/-- The substitution of the stable suite asks for it and has the line of its source. -/
theorem writes_getStableRepoSpec (w : World) :
    ∃ out, Writes (getStableRepoSpec c m) w (w.askAll c.stableAsked) out
      (specEnding m c.stableAsked) ∧ captured out = (stableSource c m).flatten := by
  by_cases hhost : c.isHost = true
  · refine ⟨[String.ofList devToolsLine], ?_, ?_⟩
    · intro v
      simp [getStableRepoSpec, hhost, Config.stableAsked, specEnding, SomeFails]
    · rw [captured_line (by decide)]
      simp [stableSource, hhost]
  · obtain ⟨out, hwrites, htext⟩ := writes_suite c m
      (fun t v => { v with stableSpec := t }) (fun v => v.stableSpec) (fun _ _ => rfl)
      (fun _ _ => rfl) (Config.stableUrl.eq_def c).symm (stableLine_last c) w
    refine ⟨out, ?_, ?_⟩
    · intro v
      simpa [getStableRepoSpec, hhost, Config.stableAsked] using hwrites v
    · rw [htext, stableSource, if_neg hhost]

/-- The substitution of the unstable suite asks for it and has the line of its source. -/
theorem writes_getUnstableRepoSpec (w : World) :
    ∃ out, Writes (getUnstableRepoSpec c m) w (w.askAll c.unstableAsked) out
      (specEnding m c.unstableAsked) ∧ captured out = (unstableSource c m).flatten := by
  by_cases hhost : c.isHost = true
  · refine ⟨[String.ofList []], ?_, ?_⟩
    · intro v
      simp [getUnstableRepoSpec, hhost, Config.unstableAsked, specEnding, SomeFails]
    · rw [captured_line (by decide)]
      simp [unstableSource, hhost]
  · obtain ⟨out, hwrites, htext⟩ := writes_suite c m
      (fun t v => { v with unstableSpec := t }) (fun v => v.unstableSpec) (fun _ _ => rfl)
      (fun _ _ => rfl) (Config.unstableUrl.eq_def c).symm (unstableLine_last c) w
    refine ⟨out, ?_, ?_⟩
    · intro v
      simpa [getUnstableRepoSpec, hhost, Config.unstableAsked] using hwrites v
    · rw [htext, unstableSource, if_neg hhost]

end Specs

/-! ## Testing sets -/

/-- `${name// /}`. -/
def deleteSpaces (t : Text) : Text := t.filter (· ≠ ' ')

/-- `[A-Za-z0-9._-]`. -/
def nameChar (x : Char) : Bool :=
  ('A' ≤ x && x ≤ 'Z') || ('a' ≤ x && x ≤ 'z') || ('0' ≤ x && x ≤ '9') || x = '.' || x = '_' ||
    x = '-'

/-- `^[A-Za-z0-9._-]+$`. -/
def validName (name : Text) : Bool := name ≠ [] && name.all nameChar

/-- The repository of the testing sets. -/
def allPlatform : Text := "all".toList

/-- `experimental.${name}`. -/
def testingSuite (name : Text) : Text := "experimental.".toList ++ name

/-- The apt line of a testing set. -/
def testingLine (name : Text) : Text :=
  "deb [arch=armhf,amd64,arm64] http://deb.wirenboard.com/all ".toList ++ testingSuite name ++
    " main".toList

/-- `get_testing_set_repo_spec`; the prefix is empty in the call of the check. -/
def getTestingSetRepoSpec (m : Machine) (name : Text) : Sh Vars World :=
  script [
    ifThen (test fun _ => !validName name) die,
    ifThen (neg (platformHasSuite m [] (testingSuite name) allPlatform)) die,
    print fun _ => testingLine name]

/-- The first line of a text, which is what `read` takes. -/
def firstLine (t : Text) : Text := t.takeWhile (· ≠ '\n')

/-- One round of the loop over the names; an empty one is skipped. -/
def testingSetRound (m : Machine) (name : Text) : Sh Vars World :=
  ifThen (test fun _ => deleteSpaces name ≠ []) (getTestingSetRepoSpec m (deleteSpaces name))

/-- `get_testing_sets_repo_specs`. -/
def getTestingSetsRepoSpecs (c : Config) (m : Machine) : Sh Vars World :=
  script (((firstLine c.testingSets).splitOn ',').map (testingSetRound m))

/-- The names in a list separated by commas, without spaces and empty ones. -/
def setNames (t : Text) : List Text := ((t.splitOn ',').map deleteSpaces).filter (· ≠ [])

/-- The URL that is asked for a testing set. -/
def testingUrl (name : Text) : Text := suiteUrl [] (testingSuite name) allPlatform

/-- The name is well formed and its suite is there. -/
def SetFound (m : Machine) (name : Text) : Prop :=
  validName name = true ∧ m.answer (testingUrl name) = .found

instance (m : Machine) (name : Text) : Decidable (SetFound m name) :=
  inferInstanceAs (Decidable (_ ∧ _))

/-- The URLs asked for the names, up to the first that stops the command. -/
def testingAsked (m : Machine) : List Text → List Text
  | [] => []
  | name :: names =>
    if validName name then
      testingUrl name :: if m.answer (testingUrl name) = .found then testingAsked m names else []
    else []

/-- The lines of the names before the first that stops the command. -/
def testingOut (m : Machine) (names : List Text) : List Text :=
  (names.takeWhile (SetFound m ·)).map testingLine

/-- A set that is there is printed; any other ends the substitution. -/
theorem writes_getTestingSetRepoSpec (m : Machine) (name : Text) (w : World) :
    Writes (getTestingSetRepoSpec m name) w
      (if validName name then w.ask (testingUrl name) else w)
      (if SetFound m name then [String.ofList (testingLine name)] else [])
      (if SetFound m name then .status true else .exited false) := by
  intro v
  by_cases hvalid : validName name = true
  · have hask := outcome_platformHasSuite m [] (testingSuite name) allPlatform v w
    rw [← testingUrl] at hask
    cases hanswer : m.answer (testingUrl name) with
    | found =>
      simp [getTestingSetRepoSpec, hvalid, hask, hanswer, SetFound, Answer.ending, Ending.negate]
    | missing =>
      simp [getTestingSetRepoSpec, hvalid, hask, hanswer, SetFound, Answer.ending, Ending.negate,
        die]
    | failed =>
      simp [getTestingSetRepoSpec, hvalid, hask, hanswer, SetFound, Answer.ending, Ending.negate]
  · simp [getTestingSetRepoSpec, hvalid, SetFound, die]

private theorem writes_round {m : Machine} {part : Text} (h : deleteSpaces part ≠ []) {w w' : World}
    {out : List String} {ending : Ending}
    (hspec : Writes (getTestingSetRepoSpec m (deleteSpaces part)) w w' out ending) :
    Writes (testingSetRound m part) w w' out ending := by
  intro v
  obtain ⟨v', hv'⟩ := hspec v
  exact ⟨v', by simp [testingSetRound, h, hv']⟩

private theorem askAll_of_not_found {m : Machine} {name : Text} (h : ¬SetFound m name)
    (names : List Text) (w : World) :
    w.askAll (testingAsked m (name :: names)) =
      if validName name then w.ask (testingUrl name) else w := by
  by_cases hvalid : validName name = true
  · have hno : m.answer (testingUrl name) ≠ .found := fun hfound => h ⟨hvalid, hfound⟩
    simp [testingAsked, hvalid, hno]
  · simp [testingAsked, hvalid]

/-- The loop asks, prints and ends as the names make it. -/
theorem writes_testingSetRounds (m : Machine) (parts : List Text) (w : World) :
    Writes (script (parts.map (testingSetRound m))) w
      (w.askAll (testingAsked m ((parts.map deleteSpaces).filter (· ≠ []))))
      ((testingOut m ((parts.map deleteSpaces).filter (· ≠ []))).map String.ofList)
      (if ∀ name ∈ (parts.map deleteSpaces).filter (· ≠ []), SetFound m name then .status true
        else .exited false) := by
  induction parts generalizing w with
  | nil => simpa [testingAsked, testingOut] using Writes.nil w
  | cons part parts ih =>
    by_cases hempty : deleteSpaces part = []
    · have hround : Writes (testingSetRound m part) w w [] (.status true) := by
        intro v
        simp [testingSetRound, hempty]
      simpa [hempty] using hround.cons (ih w)
    · have hround := writes_round hempty (writes_getTestingSetRepoSpec m (deleteSpaces part) w)
      rw [List.map_cons, List.map_cons, List.filter_cons_of_pos (by simpa using hempty)]
      by_cases hfound : SetFound m (deleteSpaces part)
      · rw [if_pos hfound.1, if_pos hfound, if_pos hfound] at hround
        have hrest := hround.cons (ih (w.ask (testingUrl (deleteSpaces part))))
        simpa [testingAsked, testingOut, hfound, hfound.1, hfound.2] using hrest
      · rw [if_neg hfound, if_neg hfound] at hround
        rw [askAll_of_not_found hfound]
        simpa [testingOut, hfound] using hround.cons_exited (parts.map (testingSetRound m))

/-- Every name on the first line is well formed, and its suite is there. -/
def FirstLineFound (c : Config) (m : Machine) : Prop :=
  ∀ name ∈ setNames (firstLine c.testingSets), SetFound m name

instance (c : Config) (m : Machine) : Decidable (FirstLineFound c m) :=
  inferInstanceAs (Decidable (∀ _ ∈ _, _))

/-- The URLs asked for the testing sets. -/
def Config.testingAsked (c : Config) (m : Machine) : List Text :=
  Devenv.testingAsked m (setNames (firstLine c.testingSets))

/-- The function prints one line for each name, or ends the substitution. -/
theorem writes_getTestingSetsRepoSpecs (c : Config) (m : Machine) (w : World) :
    Writes (getTestingSetsRepoSpecs c m) w (w.askAll (c.testingAsked m))
      ((testingOut m (setNames (firstLine c.testingSets))).map String.ofList)
      (if FirstLineFound c m then .status true else .exited false) :=
  writes_testingSetRounds m _ w

/-! ## The text of the testing sets -/

section TestingText

variable {m : Machine} {names : List Text}

/-- When every suite is found, each has its line. -/
theorem testingOut_eq (h : ∀ name ∈ names, SetFound m name) :
    testingOut m names = names.map testingLine := by
  rw [testingOut, List.takeWhile_eq_self_iff.mpr]
  exact fun name hmem => decide_eq_true (h name hmem)

/-- A character that no name may have does not stand in a well-formed one. -/
theorem not_mem_of_validName {name : Text} (h : validName name = true) {x : Char}
    (hx : nameChar x = false) : x ∉ name := by
  intro hmem
  rw [validName, Bool.and_eq_true, List.all_eq_true] at h
  exact absurd (h.2 x hmem) (by simp [hx])

/-- A line of a well-formed name is one line. -/
theorem testingLine_plain {name : Text} (h : validName name = true) :
    testingLine name ≠ [] ∧ '\n' ∉ testingLine name := by
  refine ⟨append_main_ne_nil _, ?_⟩
  unfold testingLine testingSuite
  simp only [List.mem_append, not_or]
  exact ⟨⟨by decide, by decide, not_mem_of_validName h (by decide)⟩, by decide⟩

/-- What the consumers read: one line for each name. -/
theorem captured_testingOut (h : ∀ name ∈ names, SetFound m name) :
    captured ((testingOut m names).map String.ofList) =
      List.intercalate ['\n'] (names.map testingLine) := by
  rw [testingOut_eq h]
  apply captured_lines
  intro line hmem
  obtain ⟨name, hname, rfl⟩ := List.mem_map.mp hmem
  exact testingLine_plain (h name hname).1

/-- The text of the lines is empty only where there is no suite. -/
theorem testingText_eq_nil_iff :
    List.intercalate ['\n'] (names.map testingLine) = [] ↔ names = [] := by
  cases names with
  | nil => simp
  | cons name names =>
    have hne : testingLine name ≠ [] := append_main_ne_nil _
    cases names with
    | nil => simpa using hne
    | cons name' names => simp [List.intercalate_cons_cons, hne]

/-- Splitting the text at newlines gives the lines back. -/
theorem splitOn_testingText (h : ∀ name ∈ names, SetFound m name) (hne : names ≠ []) :
    (List.intercalate ['\n'] (names.map testingLine)).splitOn '\n' = names.map testingLine := by
  apply List.splitOn_intercalate
  · intro line hmem
    obtain ⟨name, hname, rfl⟩ := List.mem_map.mp hmem
    exact (testingLine_plain (h name hname).1).2
  · simpa using hne

end TestingText

/-! ## The first line and the whole value -/

private theorem exists_mem_of_mem_intercalate {sep x : Char} (hx : x ≠ sep) {parts : List Text}
    (h : x ∈ List.intercalate [sep] parts) : ∃ part ∈ parts, x ∈ part := by
  induction parts with
  | nil => simp at h
  | cons part parts ih =>
    cases parts with
    | nil => exact ⟨part, by simp, by simpa using h⟩
    | cons part' parts =>
      rw [List.intercalate_cons_cons, List.mem_append, List.mem_append, List.mem_singleton] at h
      rcases h with (h | h) | h
      · exact ⟨part, by simp, h⟩
      · exact absurd h hx
      · obtain ⟨p, hp, hmem⟩ := ih h
        exact ⟨p, List.mem_cons_of_mem _ hp, hmem⟩

/-- A newline stands in one of the names. -/
theorem exists_name_of_newline {t : Text} (h : '\n' ∈ t) : ∃ name ∈ setNames t, '\n' ∈ name := by
  have hparts : List.intercalate [','] (t.splitOn ',') = t := List.intercalate_splitOn ','
  rw [← hparts] at h
  obtain ⟨part, hpart, hmem⟩ := exists_mem_of_mem_intercalate (by decide) h
  have hname : '\n' ∈ deleteSpaces part := List.mem_filter.mpr ⟨hmem, by decide⟩
  refine ⟨deleteSpaces part, List.mem_filter.mpr ⟨List.mem_map_of_mem hpart, ?_⟩, hname⟩
  exact decide_eq_true (List.ne_nil_of_mem hname)

/-- A list of sets that are all there has one line. -/
theorem newline_not_mem_of_found {m : Machine} {t : Text}
    (h : ∀ name ∈ setNames t, SetFound m name) : '\n' ∉ t := by
  intro hmem
  obtain ⟨name, hname, hnewline⟩ := exists_name_of_newline hmem
  exact not_mem_of_validName (h name hname).1 (by decide) hnewline

/-- A text of one line is its own first line. -/
theorem firstLine_eq {t : Text} (h : '\n' ∉ t) : firstLine t = t := by
  rw [firstLine, List.takeWhile_eq_self_iff]
  exact fun x hx => decide_eq_true fun heq => h (heq ▸ hx)

/-- No check of a testing set fails when all are there. -/
theorem not_someFails_testingAsked {m : Machine} {names : List Text}
    (h : ∀ name ∈ names, SetFound m name) : ¬SomeFails m (testingAsked m names) := by
  induction names with
  | nil => simp [testingAsked, SomeFails]
  | cons name names ih =>
    obtain ⟨⟨hvalid, hfound⟩, hrest⟩ := List.forall_mem_cons.mp h
    rintro ⟨url, hmem, hfailed⟩
    simp only [testingAsked, hvalid, hfound, if_true, List.mem_cons] at hmem
    rcases hmem with rfl | hmem
    · rw [hfound] at hfailed
      cases hfailed
    · exact ih hrest ⟨url, hmem, hfailed⟩

end WirenBoard.Devenv
