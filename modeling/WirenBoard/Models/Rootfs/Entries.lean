import Mathlib.Data.Bool.AllAny
import WirenBoard.Models.Rootfs.Repos

/-!
# Additional repositories one by one

A repository argument is a URL with an optional tail of a release and a component. The
check fetches one `Release` file per entry, and the set-up writes one line per entry and
fetches its `Release` file again. Both loops give every entry the values of its own
argument exactly when no entry without a tail inherits a release or a component from the
entries before it, from the first loop or from the environment.
-/

namespace WirenBoard.Rootfs

open Shell (Text)

/-- The URLs that `check_additional_repos` fetches, up to the first that is not there. -/
def fetchedUrls (defaults : RepoDefaults) (present : Text → Bool) :
    RepoVars → List Text → List Text
  | _, [] => []
  | vars, repo :: repos =>
    match parseRepoEntry defaults vars repo with
    | none => []
    | some vars =>
      releaseUrl vars ::
        if present (releaseUrl vars) then fetchedUrls defaults present vars repos else []

/-! ## Arguments -/

/-- The release and the component behind `@`. -/
structure RepoTail where
  /-- The release, which may be empty. -/
  release : Text
  /-- The component, where there is a colon. -/
  component : Option Text
  deriving DecidableEq

/-- `release` or `release:component`. -/
def RepoTail.text (t : RepoTail) : Text :=
  match t.component with
  | none => t.release
  | some c => t.release ++ ':' :: c

/-- A text without the separators of an argument. -/
def PlainPart (t : Text) : Prop := ∀ c ∈ t, c ≠ '@' ∧ c ≠ ':' ∧ isIfs c = false

/-- An argument `url`, `url@release`, `url@release:component` or `url@:component`. -/
structure RepoArg where
  /-- The URL. -/
  url : Text
  /-- What stands behind `@`. -/
  tail : Option RepoTail
  /-- There is a URL. -/
  url_ne_nil : url ≠ []
  /-- The URL has no `@` and no blank. -/
  url_plain : ∀ c ∈ url, c ≠ '@' ∧ isIfs c = false
  /-- The release has no separator. -/
  release_plain : ∀ t ∈ tail, PlainPart t.release
  /-- The component has no separator. -/
  component_plain : ∀ t ∈ tail, ∀ c ∈ t.component, PlainPart c

namespace RepoArg

/-- The argument as it is written. -/
def text (a : RepoArg) : Text :=
  match a.tail with
  | none => a.url
  | some t => a.url ++ '@' :: t.text

/-- The text behind `@`. -/
def tailText (a : RepoArg) : Text := (a.tail.map RepoTail.text).getD []

/-- The release of the argument itself. -/
def release (a : RepoArg) : Text := (a.tail.map RepoTail.release).getD []

/-- The component of the argument itself. -/
def component (a : RepoArg) : Text := (a.tail.bind RepoTail.component).getD []

/-- The entry that the argument alone stands for. -/
def entry (defaults : RepoDefaults) (a : RepoArg) : RepoVars :=
  ⟨a.url, orDefault a.release defaults.release, orDefault a.component defaults.component⟩

end RepoArg

section Argument

variable (a : RepoArg)

private theorem RepoArg.tailText_plain : ∀ c ∈ a.tailText, c ≠ '@' ∧ isIfs c = false := by
  intro c hc
  unfold RepoArg.tailText at hc
  cases htail : a.tail with
  | none => simp [htail] at hc
  | some t =>
    have hrelease := a.release_plain t htail
    have hcomponent := a.component_plain t htail
    rw [htail, Option.map_some, Option.getD_some, RepoTail.text] at hc
    cases hcomp : t.component with
    | none =>
      rw [hcomp] at hc
      exact ⟨(hrelease c hc).1, (hrelease c hc).2.2⟩
    | some p =>
      rw [hcomp] at hc
      rcases List.mem_append.mp hc with hc | hc
      · exact ⟨(hrelease c hc).1, (hrelease c hc).2.2⟩
      · rcases List.mem_cons.mp hc with rfl | hc
        · decide
        · exact ⟨(hcomponent p hcomp c hc).1, (hcomponent p hcomp c hc).2.2⟩

private theorem RepoArg.splitOn_text :
    a.text.splitOn '@' = a.url :: (a.tail.map fun _ => a.tailText).toList := by
  unfold RepoArg.text
  cases htail : a.tail with
  | none => exact List.splitOn_eq_singleton fun hmem => (a.url_plain _ hmem).1 rfl
  | some t =>
    have htext : a.tailText = t.text := by rw [RepoArg.tailText, htail]; rfl
    have hurl : '@' ∉ a.url := fun hmem => (a.url_plain _ hmem).1 rfl
    have hplain : '@' ∉ t.text := by
      rw [← htext]
      exact fun hmem => (a.tailText_plain _ hmem).1 rfl
    rw [List.splitOn_append_cons_self_of_not_mem hurl, List.splitOn_eq_singleton hplain, htext]
    rfl

/-- The URL that the loops read from an argument. -/
theorem RepoArg.field_url : field '@' a.text 0 = a.url := by
  rw [field, a.splitOn_text]
  rfl

/-- The tail that the loops read from an argument. -/
theorem RepoArg.field_tail : field '@' a.text 1 = a.tailText := by
  rw [field, a.splitOn_text]
  cases htail : a.tail with
  | none => simp [RepoArg.tailText, htail]
  | some t => rfl

/-- The argument is one word. -/
theorem RepoArg.words_text : words a.text = [a.text] := by
  have hplain : ∀ c ∈ a.text, isIfs c = false := by
    intro c hc
    have htail := a.tailText_plain
    unfold RepoArg.text at hc
    unfold RepoArg.tailText at htail
    cases h : a.tail with
    | none =>
      rw [h] at hc
      exact (a.url_plain c hc).2
    | some t =>
      rw [h] at hc htail
      rcases List.mem_append.mp hc with hc | hc
      · exact (a.url_plain c hc).2
      · rcases List.mem_cons.mp hc with rfl | hc
        · decide
        · exact (htail c hc).2
  have hne : a.text ≠ [] := by
    unfold RepoArg.text
    cases a.tail with
    | none => exact a.url_ne_nil
    | some t => simp
  rw [words, List.splitOnP_eq_singleton hplain]
  simp [hne]

/-- The release that a tail gives is the argument's own. -/
theorem RepoArg.given_release :
    given 0 a.text = if a.tailText = [] then none else some a.release := by
  rw [given, a.field_tail]
  split
  · rfl
  rename_i hne
  congr 1
  unfold RepoArg.tailText RepoArg.release at *
  cases htail : a.tail with
  | none => simp [htail] at hne
  | some t =>
    have hplain := a.release_plain t htail
    simp only [Option.map_some, Option.getD_some, RepoTail.text, field]
    cases t.component with
    | none =>
      rw [List.splitOn_eq_singleton fun hmem => (hplain _ hmem).2.1 rfl]
      rfl
    | some p =>
      dsimp only
      rw [List.splitOn_append_cons_self_of_not_mem fun hmem => (hplain _ hmem).2.1 rfl]
      rfl

/-- The component that a tail gives is the argument's own. -/
theorem RepoArg.given_component :
    given 1 a.text = if a.tailText = [] then none else some a.component := by
  rw [given, a.field_tail]
  split
  · rfl
  rename_i hne
  congr 1
  unfold RepoArg.tailText RepoArg.component at *
  cases htail : a.tail with
  | none => simp [htail] at hne
  | some t =>
    have hplain := a.release_plain t htail
    have hcomponent := a.component_plain t htail
    simp only [Option.map_some, Option.getD_some, Option.bind_some, RepoTail.text, field]
    cases hcomp : t.component with
    | none =>
      rw [List.splitOn_eq_singleton fun hmem => (hplain _ hmem).2.1 rfl]
      rfl
    | some p =>
      dsimp only
      rw [List.splitOn_append_cons_self_of_not_mem fun hmem => (hplain _ hmem).2.1 rfl,
        List.splitOn_eq_singleton fun hmem => (hcomponent p hcomp _ hmem).2.1 rfl]
      rfl

private theorem RepoArg.given_release_eq_none : given 0 a.text = none ↔ a.tailText = [] := by
  rw [a.given_release]
  split <;> simp_all

private theorem RepoArg.given_component_eq_none : given 1 a.text = none ↔ a.tailText = [] := by
  rw [a.given_component]
  split <;> simp_all

/-- An argument without a tail has no part of its own. -/
theorem RepoArg.parts_eq_nil (h : a.tailText = []) : a.release = [] ∧ a.component = [] := by
  unfold RepoArg.tailText RepoArg.release RepoArg.component at *
  cases htail : a.tail with
  | none => exact ⟨rfl, rfl⟩
  | some t =>
    rw [htail, Option.map_some, Option.getD_some, RepoTail.text] at h
    cases hcomp : t.component with
    | none =>
      rw [hcomp] at h
      exact ⟨h, by simp [hcomp]⟩
    | some p =>
      rw [hcomp] at h
      simp at h

end Argument

/-! ## The values of each entry -/

/-- What the word alone makes of a part. -/
def alone (k : Nat) (default w : Text) : Text := orDefault ((given k w).getD []) default

private theorem RepoArg.alone_release (a : RepoArg) (d : Text) :
    alone 0 d a.text = orDefault a.release d := by
  rw [alone, a.given_release]
  split
  · rename_i h
    rw [(a.parts_eq_nil h).1, Option.getD_none]
  · rfl

private theorem RepoArg.alone_component (a : RepoArg) (d : Text) :
    alone 1 d a.text = orDefault a.component d := by
  rw [alone, a.given_component]
  split
  · rename_i h
    rw [(a.parts_eq_nil h).2, Option.getD_none]
  · rfl

/-- An entry without a tail takes the default from a variable that holds `x` and from the
entries before it. -/
def TakesDefault (k : Nat) (d x : Text) (before : List Text) : Prop :=
  orDefault ((lastGiven k before).getD x) d = d

private theorem takesDefault_iff {k : Nat} {d x : Text} {before : List Text} :
    TakesDefault k d x before ↔ orDefault (before.foldl (fallback k d) x) d = d := by
  rcases List.eq_nil_or_concat before with rfl | ⟨_, _, hconcat⟩
  · rfl
  · rw [foldl_fallback (by simp [hconcat]), orDefault_orDefault]
    rfl

/-- A loop gives each entry its own part exactly when every entry without a tail takes the
default. -/
theorem fallbacks_eq_alone_iff {k : Nat} {d : Text} (ws : List Text) (x : Text) :
    fallbacks k d x ws = ws.map (alone k d) ↔
      ∀ before w after, ws = before ++ w :: after → given k w = none →
        TakesDefault k d x before := by
  induction ws generalizing x with
  | nil => simp [fallbacks]
  | cons w ws ih =>
    have hhead : fallback k d x w = alone k d w ↔ (given k w = none → TakesDefault k d x []) := by
      unfold fallback alone TakesDefault
      cases given k w with
      | some y => simp
      | none =>
        have hnil : orDefault [] d = d := if_pos rfl
        simp [lastGiven, hnil]
    rw [fallbacks, List.map_cons, List.cons.injEq, ih, hhead]
    constructor
    · rintro ⟨hfirst, hrest⟩ before w' after hsplit hnone
      cases before with
      | nil =>
        obtain ⟨rfl, rfl⟩ := List.cons.inj hsplit
        exact hfirst hnone
      | cons b before =>
        obtain ⟨rfl, htail⟩ := List.cons.inj hsplit
        have h := hrest before w' after htail hnone
        rw [takesDefault_iff] at h ⊢
        exact h
    · intro h
      refine ⟨h [] w ws rfl, ?_⟩
      intro before w' after hsplit hnone
      have h' := h (w :: before) w' after (by rw [hsplit, List.cons_append]) hnone
      rw [takesDefault_iff] at h' ⊢
      exact h'

/-! ## Both loops -/

/-- The URLs up to the first that is not there. -/
def upToAbsent (present : Text → Bool) : List Text → List Text
  | [] => []
  | u :: us => u :: if present u then upToAbsent present us else []

private theorem upToAbsent_of_present (us : List Text) : upToAbsent (fun _ => true) us = us := by
  induction us with
  | nil => rfl
  | cons u us ih => simp [upToAbsent, ih]

/-- The check fetches for the entries that the set-up would make of the same variables. -/
theorem fetchedUrls_eq {defaults : RepoDefaults} (present : Text → Bool) {vars : RepoVars}
    {repos : List Text} {entries : List RepoVars}
    (h : setupAdditionalRepos defaults vars repos = some entries) :
    fetchedUrls defaults present vars repos = upToAbsent present (entries.map releaseUrl) := by
  induction repos generalizing vars entries with
  | nil =>
    obtain rfl : [] = entries := Option.some.inj h
    rfl
  | cons repo repos ih =>
    rw [setupAdditionalRepos] at h
    cases hparse : parseRepoEntry defaults vars repo with
    | none => simp [hparse] at h
    | some vars' =>
      simp only [hparse, Option.map_eq_some_iff] at h
      obtain ⟨rest, hrest, rfl⟩ := h
      simp only [fetchedUrls, hparse, List.map_cons, upToAbsent, ih hrest]

/-- With every file there the check comes to its end. -/
theorem checkAdditionalRepos_of_present {defaults : RepoDefaults} (vars : RepoVars)
    {repos : List Text} (hurls : ∀ repo ∈ repos, field '@' repo 0 ≠ []) :
    ∃ vars', checkAdditionalRepos defaults (fun _ => true) vars repos = some vars' := by
  induction repos generalizing vars with
  | nil => exact ⟨vars, rfl⟩
  | cons repo repos ih =>
    obtain ⟨hurl, hurls⟩ := List.forall_mem_cons.mp hurls
    simp only [checkAdditionalRepos, parseRepoEntry_eq, hurl, ite_false, ite_true]
    exact ih _ hurls

private theorem releaseUrl_eq_iff {e e' : RepoVars} (hurl : e.url = e'.url) :
    releaseUrl e = releaseUrl e' ↔ e.release = e'.release := by
  unfold releaseUrl
  rw [hurl, List.append_left_inj, List.append_right_inj]

private theorem aptLine_eq_iff {e e' : RepoVars} (hurl : e.url = e'.url)
    (hrelease : e.release = e'.release) : aptLine e = aptLine e' ↔ e.component = e'.component := by
  unfold aptLine
  rw [hurl, hrelease, List.append_right_inj]

/-- Entries with the same URLs have the same `Release` files and lines exactly when they
have the same releases and components. -/
theorem map_lines_eq_iff {es es' : List RepoVars}
    (hurl : es.map RepoVars.url = es'.map RepoVars.url) :
    (es.map releaseUrl = es'.map releaseUrl ↔ es.map RepoVars.release = es'.map RepoVars.release) ∧
      (es.map aptLine = es'.map aptLine ∧ es.map releaseUrl = es'.map releaseUrl ↔
        es.map RepoVars.release = es'.map RepoVars.release ∧
          es.map RepoVars.component = es'.map RepoVars.component) := by
  induction es generalizing es' with
  | nil =>
    obtain rfl : es' = [] := List.map_eq_nil_iff.mp hurl.symm
    simp
  | cons e es ih =>
    cases es' with
    | nil => simp at hurl
    | cons e' es' =>
      obtain ⟨hhead, htail⟩ := List.cons.inj hurl
      obtain ⟨hurls, hlines⟩ := ih htail
      simp only [List.map_cons, List.cons.injEq, hurls, releaseUrl_eq_iff hhead] at hlines ⊢
      refine ⟨trivial, ?_⟩
      constructor
      · rintro ⟨⟨hline, hlines'⟩, hrelease, hreleases⟩
        exact ⟨⟨hrelease, hreleases⟩, (aptLine_eq_iff hhead hrelease).mp hline,
          (hlines.mp ⟨hlines', hreleases⟩).2⟩
      · rintro ⟨⟨hrelease, hreleases⟩, hcomponent, hcomponents⟩
        exact ⟨⟨(aptLine_eq_iff hhead hrelease).mpr hcomponent,
          (hlines.mpr ⟨hreleases, hcomponents⟩).1⟩, hrelease, hreleases⟩

/-- Every entry without a tail finds nothing but the default or nothing at all: from the
entries before it, in the check, and from all entries and then again those before it, in
the set-up, which comes after the check. Where no entry gave a part, what the variable
held before counts. -/
def Uninherited (defaults : RepoDefaults) (vars : RepoVars) (args : List RepoArg) : Prop :=
  ∀ before a after, args = before ++ a :: after → a.tailText = [] →
    TakesDefault 0 defaults.release vars.release (before.map RepoArg.text) ∧
    TakesDefault 0 defaults.release vars.release ((args ++ before).map RepoArg.text) ∧
    TakesDefault 1 defaults.component vars.component ((args ++ before).map RepoArg.text)

private theorem forall_split_map {args : List RepoArg} {k : Nat} {P : List Text → Prop}
    (hgiven : ∀ a : RepoArg, given k a.text = none ↔ a.tailText = []) :
    (∀ before w after, args.map RepoArg.text = before ++ w :: after → given k w = none → P before) ↔
      ∀ before a after, args = before ++ a :: after → a.tailText = [] →
        P (before.map RepoArg.text) := by
  constructor
  · intro h before a after hargs htail
    apply h _ a.text (after.map RepoArg.text) _ ((hgiven a).mpr htail)
    rw [hargs, List.map_append, List.map_cons]
  · intro h before w after hsplit hnone
    obtain ⟨as, bs, rfl, rfl, hbs⟩ := List.map_eq_append_iff.mp hsplit
    obtain ⟨a, as', rfl, rfl, rfl⟩ := List.map_eq_cons_iff.mp hbs
    exact h as a as' rfl ((hgiven a).mp hnone)

section Loops

variable {defaults : RepoDefaults} {vars : RepoVars} {args : List RepoArg}

private theorem words_args (args : List RepoArg) :
    words (joinWords (args.map RepoArg.text)) = args.map RepoArg.text := by
  rw [words_joinWords]
  induction args with
  | nil => rfl
  | cons a args ih => rw [List.map_cons, List.flatMap_cons, a.words_text, ih, List.singleton_append]

private theorem args_urls (args : List RepoArg) :
    ∀ repo ∈ args.map RepoArg.text, field '@' repo 0 ≠ [] := by
  intro repo hmem
  obtain ⟨a, _, rfl⟩ := List.mem_map.mp hmem
  rw [a.field_url]
  exact a.url_ne_nil

/-- The entries of a loop that starts from `vars`, compared with those of the arguments. -/
theorem setup_entries (defaults : RepoDefaults) (vars : RepoVars) (args : List RepoArg) :
    ∃ entries, setupAdditionalRepos defaults vars (args.map RepoArg.text) = some entries ∧
      (entries.map releaseUrl = (args.map (RepoArg.entry defaults)).map releaseUrl ↔
        fallbacks 0 defaults.release vars.release (args.map RepoArg.text) =
          (args.map RepoArg.text).map (alone 0 defaults.release)) ∧
      (entries.map aptLine = (args.map (RepoArg.entry defaults)).map aptLine ∧
          entries.map releaseUrl = (args.map (RepoArg.entry defaults)).map releaseUrl ↔
        fallbacks 0 defaults.release vars.release (args.map RepoArg.text) =
            (args.map RepoArg.text).map (alone 0 defaults.release) ∧
          fallbacks 1 defaults.component vars.component (args.map RepoArg.text) =
            (args.map RepoArg.text).map (alone 1 defaults.component)) := by
  obtain ⟨entries, hsetup, hurl, hrelease, hcomponent⟩ :=
    setupAdditionalRepos_eq_some defaults vars (args_urls args)
  refine ⟨entries, hsetup, ?_⟩
  have hurls : entries.map RepoVars.url = (args.map (RepoArg.entry defaults)).map RepoVars.url := by
    rw [hurl, List.map_map, List.map_map]
    exact List.map_congr_left fun a _ => a.field_url
  have hreleases : (args.map (RepoArg.entry defaults)).map RepoVars.release =
      (args.map RepoArg.text).map (alone 0 defaults.release) := by
    rw [List.map_map, List.map_map]
    exact List.map_congr_left fun a _ => (a.alone_release _).symm
  have hcomponents : (args.map (RepoArg.entry defaults)).map RepoVars.component =
      (args.map RepoArg.text).map (alone 1 defaults.component) := by
    rw [List.map_map, List.map_map]
    exact List.map_congr_left fun a _ => (a.alone_component _).symm
  have hlines := map_lines_eq_iff hurls
  rw [hreleases, hcomponents, hrelease, hcomponent] at hlines
  exact hlines

/-- The parts that a loop takes from the arguments alone, by what it inherits. -/
theorem fallbacks_args_iff {k : Nat} {d x : Text} (args : List RepoArg)
    (hgiven : ∀ a : RepoArg, given k a.text = none ↔ a.tailText = []) :
    fallbacks k d x (args.map RepoArg.text) = (args.map RepoArg.text).map (alone k d) ↔
      ∀ before a after, args = before ++ a :: after → a.tailText = [] →
        TakesDefault k d x (before.map RepoArg.text) := by
  rw [fallbacks_eq_alone_iff]
  exact forall_split_map hgiven

/-- A second loop inherits what the first one left. -/
theorem takesDefault_foldl_iff {k : Nat} {d x : Text} (args before : List RepoArg) :
    TakesDefault k d ((args.map RepoArg.text).foldl (fallback k d) x) (before.map RepoArg.text) ↔
      TakesDefault k d x ((args ++ before).map RepoArg.text) := by
  rw [takesDefault_iff, takesDefault_iff, List.map_append, List.foldl_append]

/-- The entries of the set-up, which starts from what the check left. -/
theorem setup_after_check {present : Text → Bool} {vars' : RepoVars}
    (hcheck : checkAdditionalRepos defaults present vars (args.map RepoArg.text) = some vars') :
    ∃ entries, setupAdditionalRepos defaults vars' (args.map RepoArg.text) = some entries ∧
      (entries.map aptLine = (args.map (RepoArg.entry defaults)).map aptLine ∧
          entries.map releaseUrl = (args.map (RepoArg.entry defaults)).map releaseUrl ↔
        ∀ before a after, args = before ++ a :: after → a.tailText = [] →
          TakesDefault 0 defaults.release vars.release ((args ++ before).map RepoArg.text) ∧
          TakesDefault 1 defaults.component vars.component
            ((args ++ before).map RepoArg.text)) := by
  obtain ⟨hr, hc, _⟩ := checkAdditionalRepos_eq_some hcheck
  obtain ⟨entries, hentries, _, hlines⟩ := setup_entries defaults vars' args
  refine ⟨entries, hentries, hlines.trans ?_⟩
  rw [fallbacks_args_iff args RepoArg.given_release_eq_none,
    fallbacks_args_iff args RepoArg.given_component_eq_none, hr, hc]
  simp only [takesDefault_foldl_iff]
  constructor
  · rintro ⟨h0, h1⟩ before a after hargs htail
    exact ⟨h0 before a after hargs htail, h1 before a after hargs htail⟩
  · intro h
    exact ⟨fun before a after hargs htail => (h before a after hargs htail).1,
      fun before a after hargs htail => (h before a after hargs htail).2⟩

end Loops

/-- The check fetches, and the set-up writes and fetches, what each argument stands for
alone, whatever files are there, if and only if no entry without a tail inherits anything. -/
theorem additional_repos_independent_iff (defaults : RepoDefaults) (vars : RepoVars)
    (args : List RepoArg) :
    (∀ present,
      fetchedUrls defaults present vars (words (joinWords (args.map RepoArg.text))) =
        upToAbsent present ((args.map (RepoArg.entry defaults)).map releaseUrl) ∧
      ∀ vars', checkAdditionalRepos defaults present vars
          (words (joinWords (args.map RepoArg.text))) = some vars' →
        ∃ entries, setupAdditionalRepos defaults vars'
            (words (joinWords (args.map RepoArg.text))) = some entries ∧
          entries.map aptLine = (args.map (RepoArg.entry defaults)).map aptLine ∧
          entries.map releaseUrl = (args.map (RepoArg.entry defaults)).map releaseUrl) ↔
      Uninherited defaults vars args := by
  rw [words_args]
  obtain ⟨checked, hchecked, hurls, _⟩ := setup_entries defaults vars args
  rw [fallbacks_args_iff args RepoArg.given_release_eq_none] at hurls
  constructor
  · intro h before a after hargs htail
    obtain ⟨hfetched, hset⟩ := h fun _ => true
    rw [fetchedUrls_eq _ hchecked, upToAbsent_of_present, upToAbsent_of_present] at hfetched
    obtain ⟨vars', hcheck⟩ := checkAdditionalRepos_of_present vars (args_urls args)
    obtain ⟨entries, hentries, hlines⟩ := setup_after_check hcheck
    obtain ⟨entries', hentries', hlines'⟩ := hset vars' hcheck
    obtain rfl : entries = entries' := Option.some.inj (hentries.symm.trans hentries')
    exact ⟨hurls.mp hfetched before a after hargs htail,
      hlines.mp hlines' before a after hargs htail⟩
  · intro h present
    refine ⟨?_, ?_⟩
    · rw [fetchedUrls_eq _ hchecked,
        hurls.mpr fun before a after hargs htail => (h before a after hargs htail).1]
    · intro vars' hcheck
      obtain ⟨entries, hentries, hlines⟩ := setup_after_check hcheck
      exact ⟨entries, hentries,
        hlines.mpr fun before a after hargs htail => (h before a after hargs htail).2⟩

/-- `http://a@testing` and `http://b`. -/
def suiteThenBare : List RepoArg :=
  [⟨"http://a".toList, some ⟨"testing".toList, none⟩, by decide,
      by rw [← List.all_iff_forall_prop]; decide,
      by rintro _ ⟨⟩; unfold PlainPart; rw [← List.all_iff_forall_prop]; decide,
      by rintro _ ⟨⟩; simp⟩,
    ⟨"http://b".toList, none, by decide, by rw [← List.all_iff_forall_prop]; decide, by simp,
      by simp⟩]

/-- The second entry is checked in the release of the first. -/
theorem suite_kept_for_next_repo :
    fetchedUrls ⟨"bullseye".toList, "main".toList⟩ (fun _ => true) ⟨[], [], []⟩
        (words (joinWords (suiteThenBare.map RepoArg.text))) =
      ["http://a/dists/testing/Release".toList, "http://b/dists/testing/Release".toList] ∧
    fetchedUrls ⟨"bullseye".toList, "main".toList⟩ (fun _ => true) ⟨[], [], []⟩
        (words (joinWords (suiteThenBare.map RepoArg.text))) ≠
      upToAbsent (fun _ => true)
        ((suiteThenBare.map (RepoArg.entry ⟨"bullseye".toList, "main".toList⟩)).map
          releaseUrl) := by
  rw [words_args]
  decide

end WirenBoard.Rootfs
