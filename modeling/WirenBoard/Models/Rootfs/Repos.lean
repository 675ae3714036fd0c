import Mathlib.Data.List.Induction
import Mathlib.Data.Option.Basic
import WirenBoard.Core.Subst

/-!
# Additional repositories

The arguments of `create_rootfs.sh` behind the board name additional repositories.
They are split into words, checked one by one and later set up one by one. Parsing
an entry writes three shell variables that nothing resets, so that an entry without
a tail sees the release and the component that the entry before it left behind.
-/

namespace WirenBoard.Rootfs

open Shell (Text)

/-- `${x:-default}`. -/
def orDefault (x default : Text) : Text := if x = [] then default else x

/-- The characters at which words are split. -/
def isIfs (c : Char) : Bool := c = ' ' || c = '\t' || c = '\n'

/-- The words of an unquoted expansion. -/
def words (t : Text) : List Text := (t.splitOnP isIfs).filter (· ≠ [])

/-- The characters that make a word a pattern. -/
def patternChars : List Char := ['*', '?', '[', '\\']

/-- A text that an unquoted expansion leaves as it is. -/
def Plain (t : Text) : Prop := ∀ c ∈ t, isIfs c = false ∧ c ∉ patternChars

instance (t : Text) : Decidable (Plain t) := List.decidableBAll _ t

/-- `"${args[*]}"`: the words joined by blanks. -/
def joinWords (ws : List Text) : Text := List.intercalate [' '] ws

/-- Element `k` of the array that `IFS=sep read -ra` makes of a line; a missing element
is empty. -/
def field (sep : Char) (line : Text) (k : Nat) : Text := (line.splitOn sep).getD k []

/-- The variables that `parse_repo_entry` returns. -/
structure RepoVars where
  /-- `repo_url`. -/
  url : Text
  /-- `repo_release`. -/
  release : Text
  /-- `repo_component`. -/
  component : Text
  deriving DecidableEq

/-- `DEFAULT_ADD_REPO_RELEASE` and `DEFAULT_ADD_REPO_COMPONENT`. -/
structure RepoDefaults where
  /-- The release. -/
  release : Text
  /-- The component. -/
  component : Text
  deriving DecidableEq

/-- `parse_repo_entry` on the variables as they are; it exits without a URL. -/
def parseRepoEntry (defaults : RepoDefaults) (vars : RepoVars) (repo : Text) : Option RepoVars :=
  let url := field '@' repo 0
  let repoTail := field '@' repo 1
  let release := if repoTail ≠ [] then field ':' repoTail 0 else vars.release
  let component := if repoTail ≠ [] then field ':' repoTail 1 else vars.component
  if url = [] then none
  else some ⟨url, orDefault release defaults.release, orDefault component defaults.component⟩

/-- `${repo_url}/dists/${repo_release}/Release`. -/
def releaseUrl (vars : RepoVars) : Text :=
  vars.url ++ "/dists/".toList ++ vars.release ++ "/Release".toList

/-- `deb [trusted=yes] $repo_url $repo_release $repo_component`. -/
def aptLine (vars : RepoVars) : Text :=
  "deb [trusted=yes] ".toList ++ vars.url ++ [' '] ++ vars.release ++ [' '] ++ vars.component

/-- `check_additional_repos`: the variables after the last entry, unless an entry is
malformed or its `Release` file is not there. -/
def checkAdditionalRepos (defaults : RepoDefaults) (present : Text → Bool) :
    RepoVars → List Text → Option RepoVars
  | vars, [] => some vars
  | vars, repo :: repos =>
    match parseRepoEntry defaults vars repo with
    | none => none
    | some vars =>
      if present (releaseUrl vars) then checkAdditionalRepos defaults present vars repos else none

/-- The entries that `setup_additional_repos` writes, in order; a malformed one exits. -/
def setupAdditionalRepos (defaults : RepoDefaults) :
    RepoVars → List Text → Option (List RepoVars)
  | _, [] => some []
  | vars, repo :: repos =>
    match parseRepoEntry defaults vars repo with
    | none => none
    | some vars => (setupAdditionalRepos defaults vars repos).map (vars :: ·)

/-! ## Words -/

/-- Joining by blanks is undone by splitting, up to the words inside the parts. -/
theorem words_joinWords (ws : List Text) : words (joinWords ws) = ws.flatMap words := by
  induction ws with
  | nil => rfl
  | cons w ws ih =>
    cases ws with
    | nil => simp [joinWords]
    | cons w' ws =>
      have hblank : isIfs ' ' = true := by decide
      rw [joinWords, List.intercalate_cons_cons, List.append_assoc, List.singleton_append, words,
        List.splitOnP_append_cons _ _ hblank, List.filter_append, List.flatMap_cons, ← ih]
      rfl

/-- A plain text is one word. -/
theorem words_plain {w : Text} (hne : w ≠ []) (hplain : Plain w) : words w = [w] := by
  rw [words, List.splitOnP_eq_singleton fun c hc => (hplain c hc).1]
  simp [hne]

/-- Two plain texts make a plain text. -/
theorem Plain.append {t t' : Text} (ht : Plain t) (ht' : Plain t') : Plain (t ++ t') := by
  intro c hc
  rcases List.mem_append.mp hc with hc | hc
  · exact ht c hc
  · exact ht' c hc

/-! ## What the loops leave in the variables -/

/-- The part of an entry's tail at position `k`: the release or the component. An entry
without a tail gives none. -/
def given (k : Nat) (repo : Text) : Option Text :=
  if field '@' repo 1 = [] then none else some (field ':' (field '@' repo 1) k)

/-- What the entry makes of a variable that holds `x`. -/
def fallback (k : Nat) (default x repo : Text) : Text := orDefault ((given k repo).getD x) default

/-- The variable after each entry. -/
def fallbacks (k : Nat) (default : Text) : Text → List Text → List Text
  | _, [] => []
  | x, repo :: repos =>
    fallback k default x repo :: fallbacks k default (fallback k default x repo) repos

/-- The part given by the last entry that has a tail. -/
def lastGiven (k : Nat) (repos : List Text) : Option Text :=
  repos.foldl (fun acc repo => (given k repo).or acc) none

/-- `parse_repo_entry` by its three results. -/
theorem parseRepoEntry_eq (defaults : RepoDefaults) (vars : RepoVars) (repo : Text) :
    parseRepoEntry defaults vars repo =
      if field '@' repo 0 = [] then none
      else some ⟨field '@' repo 0, fallback 0 defaults.release vars.release repo,
        fallback 1 defaults.component vars.component repo⟩ := by
  unfold parseRepoEntry fallback given
  by_cases htail : field '@' repo 1 = []
  · simp [htail]
  · simp [htail]

/-- A check that passes has left the last entry's values, and no entry lacks a URL. -/
theorem checkAdditionalRepos_eq_some {defaults : RepoDefaults} {present : Text → Bool}
    {vars vars' : RepoVars} {repos : List Text}
    (h : checkAdditionalRepos defaults present vars repos = some vars') :
    vars'.release = repos.foldl (fallback 0 defaults.release) vars.release ∧
      vars'.component = repos.foldl (fallback 1 defaults.component) vars.component ∧
      ∀ repo ∈ repos, field '@' repo 0 ≠ [] := by
  induction repos generalizing vars with
  | nil =>
    obtain rfl : vars = vars' := Option.some.inj h
    exact ⟨rfl, rfl, by simp⟩
  | cons repo repos ih =>
    rw [checkAdditionalRepos, parseRepoEntry_eq] at h
    by_cases hurl : field '@' repo 0 = []
    · simp [hurl] at h
    · simp only [hurl, ite_false] at h
      split at h
      · obtain ⟨hrelease, hcomponent, hurls⟩ := ih h
        exact ⟨hrelease, hcomponent, List.forall_mem_cons.mpr ⟨hurl, hurls⟩⟩
      · cases h

/-- Without an entry that lacks a URL, the set-up writes one entry for each, with the
variables as they are then. -/
theorem setupAdditionalRepos_eq_some (defaults : RepoDefaults) (vars : RepoVars)
    {repos : List Text} (hurls : ∀ repo ∈ repos, field '@' repo 0 ≠ []) :
    ∃ entries, setupAdditionalRepos defaults vars repos = some entries ∧
      entries.map RepoVars.url = repos.map (field '@' · 0) ∧
      entries.map RepoVars.release = fallbacks 0 defaults.release vars.release repos ∧
      entries.map RepoVars.component = fallbacks 1 defaults.component vars.component repos := by
  induction repos generalizing vars with
  | nil => exact ⟨[], rfl, rfl, rfl, rfl⟩
  | cons repo repos ih =>
    obtain ⟨hurl, hurls⟩ := List.forall_mem_cons.mp hurls
    obtain ⟨entries, hsetup, hurl', hrelease, hcomponent⟩ := ih
      ⟨field '@' repo 0, fallback 0 defaults.release vars.release repo,
        fallback 1 defaults.component vars.component repo⟩ hurls
    refine ⟨⟨field '@' repo 0, fallback 0 defaults.release vars.release repo,
      fallback 1 defaults.component vars.component repo⟩ :: entries, ?_, ?_, ?_, ?_⟩
    · simp only [setupAdditionalRepos, parseRepoEntry_eq, hurl, ite_false, hsetup, Option.map_some]
    · rw [List.map_cons, List.map_cons, hurl']
    · rw [List.map_cons, hrelease, fallbacks]
    · rw [List.map_cons, hcomponent, fallbacks]

/-- Nothing is set up exactly from no entry. -/
theorem setupAdditionalRepos_eq_nil_iff {defaults : RepoDefaults} {vars : RepoVars}
    {repos : List Text} : setupAdditionalRepos defaults vars repos = some [] ↔ repos = [] := by
  cases repos with
  | nil => simp [setupAdditionalRepos]
  | cons repo repos =>
    rw [setupAdditionalRepos]
    split
    · simp
    · simp

private theorem eq_of_map_eq {es es' : List RepoVars}
    (hurl : es.map RepoVars.url = es'.map RepoVars.url)
    (hrelease : es.map RepoVars.release = es'.map RepoVars.release)
    (hcomponent : es.map RepoVars.component = es'.map RepoVars.component) : es = es' := by
  induction es generalizing es' with
  | nil => exact (List.map_eq_nil_iff.mp hurl.symm).symm
  | cons e es ih =>
    cases es' with
    | nil => simp at hurl
    | cons e' es' =>
      rw [List.map_cons, List.map_cons, List.cons.injEq] at hurl hrelease hcomponent
      obtain ⟨url, release, component⟩ := e
      obtain ⟨rfl, rfl, rfl⟩ : url = e'.url ∧ release = e'.release ∧ component = e'.component :=
        ⟨hurl.1, hrelease.1, hcomponent.1⟩
      rw [ih hurl.2 hrelease.2 hcomponent.2]

/-- Two set-ups of the same entries agree exactly when the variables do after each entry. -/
theorem setupAdditionalRepos_eq_iff {defaults defaults' : RepoDefaults} {vars vars' : RepoVars}
    {repos : List Text} (hurls : ∀ repo ∈ repos, field '@' repo 0 ≠ []) :
    setupAdditionalRepos defaults vars repos = setupAdditionalRepos defaults' vars' repos ↔
      fallbacks 0 defaults.release vars.release repos =
          fallbacks 0 defaults'.release vars'.release repos ∧
        fallbacks 1 defaults.component vars.component repos =
          fallbacks 1 defaults'.component vars'.component repos := by
  obtain ⟨es, hes, hurl, hrelease, hcomponent⟩ := setupAdditionalRepos_eq_some defaults vars hurls
  obtain ⟨es', hes', hurl', hrelease', hcomponent'⟩ :=
    setupAdditionalRepos_eq_some defaults' vars' hurls
  rw [hes, hes', Option.some.injEq, ← hrelease, ← hrelease', ← hcomponent, ← hcomponent']
  constructor
  · rintro rfl
    exact ⟨rfl, rfl⟩
  · rintro ⟨hr, hc⟩
    exact eq_of_map_eq (hurl.trans hurl'.symm) hr hc

/-! ## The defaults in use -/

/-- A default takes effect once. -/
theorem orDefault_orDefault (x d : Text) : orDefault (orDefault x d) d = orDefault x d := by
  by_cases hx : x = []
  · simp [orDefault, hx]
  · simp [orDefault, hx]

private theorem eq_nil_of_orDefault {x d : Text} (h : orDefault x d = []) : d = [] := by
  unfold orDefault at h
  split at h
  · exact h
  · contradiction

section LastGiven

variable {k : Nat} {repos : List Text}

private theorem lastGiven_append_singleton (repos : List Text) (repo : Text) :
    lastGiven k (repos ++ [repo]) = (given k repo).or (lastGiven k repos) := by
  rw [lastGiven, List.foldl_append]
  rfl

private theorem lastGiven_eq_none (h : lastGiven k repos = none) :
    ∀ repo ∈ repos, given k repo = none := by
  induction repos using List.reverseRecOn with
  | nil => simp
  | append_singleton repos repo ih =>
    rw [lastGiven_append_singleton, Option.or_eq_none_iff] at h
    intro r hr
    rcases List.mem_append.mp hr with hr | hr
    · exact ih h.2 r hr
    · rw [List.mem_singleton.mp hr]
      exact h.1

private theorem lastGiven_eq_some {x : Text} (h : lastGiven k repos = some x) :
    ∃ repo ∈ repos, given k repo = some x := by
  induction repos using List.reverseRecOn with
  | nil => cases h
  | append_singleton repos repo ih =>
    rw [lastGiven_append_singleton, Option.or_eq_some_iff] at h
    rcases h with h | ⟨_, h⟩
    · exact ⟨repo, by simp, h⟩
    · obtain ⟨r, hr, hx⟩ := ih h
      exact ⟨r, List.mem_append_left _ hr, hx⟩

/-- After a loop over some entries a variable holds what the last tail gave, or else what
it held before, with the default in place of nothing. -/
theorem foldl_fallback (hne : repos ≠ []) (default x : Text) :
    repos.foldl (fallback k default) x = orDefault ((lastGiven k repos).getD x) default := by
  induction repos using List.reverseRecOn with
  | nil => exact absurd rfl hne
  | append_singleton repos repo ih =>
    rw [List.foldl_append, List.foldl_cons, List.foldl_nil, lastGiven_append_singleton, fallback]
    cases given k repo with
    | some y => rfl
    | none =>
      rw [Option.getD_none, Option.none_or]
      rcases List.eq_nil_or_concat repos with rfl | ⟨_, _, hconcat⟩
      · rfl
      · rw [ih (by simp [hconcat]), orDefault_orDefault]

end LastGiven

/-- What two loops over the same entries must have in common to leave the same values:
the default, where a tail leaves the part empty; and, where no entry has a tail, the
value from before with the default in place of nothing. -/
structure SameFallback (k : Nat) (repos : List Text) (x default x' default' : Text) : Prop where
  /-- A tail with an empty part takes the default. -/
  empty : (∃ repo ∈ repos, given k repo = some []) → default = default'
  /-- Entries without any tail take the inherited value. -/
  bare : repos ≠ [] → (∀ repo ∈ repos, given k repo = none) →
    orDefault x default = orDefault x' default'

section Fallbacks

variable {k : Nat} {repos : List Text} {x d x' d' : Text}

/-- Loops over no entries leave the same values. -/
theorem SameFallback.nil (k : Nat) (x d x' d' : Text) : SameFallback k [] x d x' d' :=
  ⟨by simp, by simp⟩

/-- Equal variables stay equal where the defaults in use agree. -/
theorem fallbacks_congr (hempty : (∃ repo ∈ repos, given k repo = some []) → d = d')
    (hnil : x = [] → d = d') : fallbacks k d x repos = fallbacks k d' x repos := by
  induction repos generalizing x with
  | nil => rfl
  | cons repo repos ih =>
    have hnext : fallback k d x repo = fallback k d' x repo := by
      unfold fallback orDefault
      split
      · rename_i hx
        cases hg : given k repo with
        | none => exact hnil (by simpa [hg] using hx)
        | some y =>
          obtain rfl : y = [] := by simpa [hg] using hx
          exact hempty ⟨repo, by simp, hg⟩
      · rfl
    rw [fallbacks, fallbacks, ← hnext]
    congr 1
    apply ih
    · rintro ⟨r, hr, hg⟩
      exact hempty ⟨r, List.mem_cons_of_mem _ hr, hg⟩
    · intro hnil'
      rw [eq_nil_of_orDefault hnil', eq_nil_of_orDefault (hnext.symm.trans hnil')]

/-- Where the values agree, the default in place of an empty part does. -/
theorem default_eq_of_fallbacks_eq (h : fallbacks k d x repos = fallbacks k d' x' repos)
    (hempty : ∃ repo ∈ repos, given k repo = some []) : d = d' := by
  induction repos generalizing x x' with
  | nil => simp at hempty
  | cons repo repos ih =>
    rw [fallbacks, fallbacks, List.cons.injEq] at h
    obtain ⟨r, hr, hg⟩ := hempty
    rcases List.mem_cons.mp hr with rfl | hr
    · simpa [fallback, hg, orDefault] using h.1
    · exact ih h.2 ⟨r, hr, hg⟩

/-- A second loop over the entries of a first one leaves the same values under two pairs
of inherited value and default exactly when these agree where they are used. -/
theorem fallbacks_foldl_eq_iff :
    fallbacks k d (repos.foldl (fallback k d) x) repos =
        fallbacks k d' (repos.foldl (fallback k d') x') repos ↔
      SameFallback k repos x d x' d' := by
  constructor
  · intro h
    refine ⟨default_eq_of_fallbacks_eq h, ?_⟩
    intro hne hbare
    have hlast : lastGiven k repos = none := by
      by_contra hsome
      obtain ⟨y, hy⟩ := Option.ne_none_iff_exists'.mp hsome
      obtain ⟨repo, hr, hg⟩ := lastGiven_eq_some hy
      exact absurd ((hbare repo hr).symm.trans hg) (by simp)
    rw [foldl_fallback hne, foldl_fallback hne, hlast] at h
    cases repos with
    | nil => exact absurd rfl hne
    | cons repo repos =>
      have hhead := (List.cons.inj h).1
      simpa [fallback, hbare repo (by simp), orDefault_orDefault] using hhead
  · intro h
    rcases List.eq_nil_or_concat repos with rfl | ⟨_, _, hconcat⟩
    · rfl
    · have hne : repos ≠ [] := by simp [hconcat]
      have hstart : repos.foldl (fallback k d) x = repos.foldl (fallback k d') x' := by
        rw [foldl_fallback hne, foldl_fallback hne]
        cases hlast : lastGiven k repos with
        | none => exact h.bare hne (lastGiven_eq_none hlast)
        | some y =>
          simp only [Option.getD_some, orDefault]
          split
          · rename_i hy
            exact h.empty (hy ▸ lastGiven_eq_some hlast)
          · rfl
      have hnil : repos.foldl (fallback k d) x = [] → d = d' := by
        intro hx
        have hx' := hstart.symm.trans hx
        rw [foldl_fallback hne] at hx hx'
        rw [eq_nil_of_orDefault hx, eq_nil_of_orDefault hx']
      rw [← hstart]
      exact fallbacks_congr h.empty hnil

end Fallbacks

end WirenBoard.Rootfs
