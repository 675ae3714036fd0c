import Mathlib.Data.List.Induction
import Mathlib.Data.Option.Basic

/-!
# Runs of a guarded machine

A machine answers an event with a reply and a new state, or has the event
disabled. A run feeds a list of events and collects one reply for each. The rules
here pass from one step to whole runs: an invariant that may speak about the
history of events and replies, the reply to one event of a run, the agreement of two
machines along a projection of their states, and the run that a part of the events
makes alone.
-/

namespace WirenBoard

universe u v w

section Runs

variable {σ : Type u} {ε : Type v} {ρ : Type w} (step : σ → ε → Option (σ × ρ))

/-- Feed the events in order; a disabled event leaves no run. -/
def run : σ → List ε → Option (σ × List ρ)
  | s, [] => some (s, [])
  | s, e :: es =>
    match step s e with
    | none => none
    | some (s', r) => (run s' es).map fun p => (p.1, r :: p.2)

/-- Without events the machine stays where it is. -/
theorem run_nil (s : σ) : run step s [] = some (s, []) := rfl

variable {step}

/-- A run of more events is one step and a run from there. -/
theorem run_cons_iff {s t : σ} {e : ε} {es : List ε} {rs : List ρ} :
    run step s (e :: es) = some (t, rs) ↔
      ∃ u r rs', step s e = some (u, r) ∧ run step u es = some (t, rs') ∧ rs = r :: rs' := by
  cases hs : step s e with
  | none => simp [run, hs]
  | some p =>
    obtain ⟨u, r⟩ := p
    simp only [run, hs, Option.map_eq_some_iff, Prod.mk.injEq, Option.some.injEq]
    constructor
    · rintro ⟨⟨t', rs'⟩, hr, rfl, rfl⟩
      exact ⟨u, r, rs', ⟨rfl, rfl⟩, hr, rfl⟩
    · rintro ⟨_, _, rs', ⟨rfl, rfl⟩, hr, rfl⟩
      exact ⟨(t, rs'), hr, rfl, rfl⟩

/-- A run of two lists of events is a run of each, the second from where the first ends. -/
theorem run_append_iff {s t : σ} {es fs : List ε} {rs : List ρ} :
    run step s (es ++ fs) = some (t, rs) ↔
      ∃ u rs₁ rs₂, run step s es = some (u, rs₁) ∧ run step u fs = some (t, rs₂) ∧
        rs = rs₁ ++ rs₂ := by
  induction es generalizing s rs with
  | nil => simp [run]
  | cons e es ih =>
    rw [List.cons_append, run_cons_iff]
    constructor
    · rintro ⟨v, r, rs', hv, hr, rfl⟩
      obtain ⟨u, rs₁, rs₂, h₁, h₂, rfl⟩ := ih.mp hr
      exact ⟨u, r :: rs₁, rs₂, run_cons_iff.mpr ⟨v, r, rs₁, hv, h₁, rfl⟩, h₂, rfl⟩
    · rintro ⟨u, rs₁, rs₂, h₁, h₂, rfl⟩
      obtain ⟨v, r, rs', hv, hr, rfl⟩ := run_cons_iff.mp h₁
      exact ⟨v, r, rs' ++ rs₂, hv, ih.mpr ⟨u, rs', rs₂, hr, h₂, rfl⟩, rfl⟩

/-- A run replies once to each event. -/
theorem length_of_run {s t : σ} {es : List ε} {rs : List ρ} (h : run step s es = some (t, rs)) :
    rs.length = es.length := by
  induction es generalizing s rs with
  | nil =>
    obtain ⟨-, rfl⟩ : s = t ∧ [] = rs := by simpa [run] using h
    rfl
  | cons e es ih =>
    obtain ⟨u, r, rs', _, hr, rfl⟩ := run_cons_iff.mp h
    rw [List.length_cons, List.length_cons, ih hr]

/-- The reply at an event's position is the reply of its step. -/
theorem run_reply {s t : σ} {es fs : List ε} {e : ε} {rs : List ρ}
    (h : run step s (es ++ e :: fs) = some (t, rs)) :
    ∃ u rs₁ v r, run step s es = some (u, rs₁) ∧ step u e = some (v, r) ∧
      rs[es.length]? = some r := by
  obtain ⟨u, rs₁, rs₂, h₁, h₂, rfl⟩ := run_append_iff.mp h
  obtain ⟨v, r, rs', hv, _, rfl⟩ := run_cons_iff.mp h₂
  refine ⟨u, rs₁, v, r, h₁, hv, ?_⟩
  rw [← length_of_run h₁, List.getElem?_append_right (Nat.le_refl _), Nat.sub_self]
  rfl

/-- An invariant of history and state that one step extends holds along every run. -/
theorem run_invariant {P : List ε → σ → Prop} {s : σ} (hinit : P [] s)
    (hstep : ∀ {h u e v r}, P h u → step u e = some (v, r) → P (h ++ [e]) v) {es : List ε} :
    ∀ {t rs}, run step s es = some (t, rs) → P es t := by
  induction es using List.reverseRecOn with
  | nil =>
    intro t rs h
    obtain ⟨rfl, -⟩ : s = t ∧ [] = rs := by simpa [run] using h
    exact hinit
  | append_singleton es e ih =>
    intro t rs h
    obtain ⟨u, rs₁, rs₂, h₁, h₂, _⟩ := run_append_iff.mp h
    obtain ⟨v, r, rs', hv, hr, _⟩ := run_cons_iff.mp h₂
    obtain ⟨rfl, -⟩ : v = t ∧ [] = rs' := by simpa [run] using hr
    exact hstep (ih h₁) hv

/-- Two machines whose steps agree along a projection, on states that keep `P`,
have the same runs along it. -/
theorem run_map {τ : Type u} {step' : τ → ε → Option (τ × ρ)} {f : σ → τ} {P : σ → Prop}
    (hstep : ∀ {s e}, P s → step' (f s) e = (step s e).map (Prod.map f id))
    (hkeep : ∀ {s e t r}, P s → step s e = some (t, r) → P t) (es : List ε) :
    ∀ {s}, P s → run step' (f s) es = (run step s es).map (Prod.map f id) := by
  induction es with
  | nil => exact fun _ => rfl
  | cons e es ih =>
    intro s hs
    rw [run, run, hstep hs]
    cases h : step s e with
    | none => rfl
    | some p =>
      obtain ⟨t, r⟩ := p
      simp only [Option.map_some, Prod.map, id_eq, ih (hkeep hs h), Option.map_map]
      rfl

/-- The replies to the events that `p` selects. -/
def repliesOf (p : ε → Bool) (es : List ε) (rs : List ρ) : List ρ :=
  ((es.zip rs).filter fun x => p x.1).map Prod.snd

/-- An invariant of the history of events and replies holds along every run. -/
theorem run_history {P : List (ε × ρ) → σ → Prop} {s : σ} (hinit : P [] s)
    (hstep : ∀ {h u e v r}, P h u → step u e = some (v, r) → P (h ++ [(e, r)]) v) {es : List ε} :
    ∀ {t rs}, run step s es = some (t, rs) → P (es.zip rs) t := by
  induction es using List.reverseRecOn with
  | nil =>
    intro t rs h
    obtain ⟨rfl, -⟩ : s = t ∧ [] = rs := by simpa [run] using h
    exact hinit
  | append_singleton es e ih =>
    intro t rs h
    obtain ⟨u, rs₁, rs₂, h₁, h₂, rfl⟩ := run_append_iff.mp h
    obtain ⟨v, r, rs', hv, hr, rfl⟩ := run_cons_iff.mp h₂
    obtain ⟨rfl, rfl⟩ : v = t ∧ [] = rs' := by simpa [run] using hr
    rw [List.zip_append (length_of_run h₁).symm]
    exact hstep (ih h₁) hv

/-- Let a relation be kept when both machines answer a selected event alike, and when the
first one alone makes any other step. Then the selected events of a run are a run of the
second machine, with the same replies. -/
theorem run_filter {τ : Type u} {step' : τ → ε → Option (τ × ρ)} {R : σ → τ → Prop} (p : ε → Bool)
    (hown : ∀ {s t e s' r}, p e = true → R s t → step s e = some (s', r) →
      ∃ t', step' t e = some (t', r) ∧ R s' t')
    (hother : ∀ {s t e s' r}, p e = false → R s t → step s e = some (s', r) → R s' t)
    {es : List ε} :
    ∀ {s t s' rs}, R s t → run step s es = some (s', rs) →
      ∃ t', run step' t (es.filter p) = some (t', repliesOf p es rs) ∧ R s' t' := by
  induction es with
  | nil =>
    intro s t s' rs hR h
    obtain ⟨rfl, rfl⟩ : s = s' ∧ [] = rs := by simpa [run] using h
    exact ⟨t, rfl, hR⟩
  | cons e es ih =>
    intro s t s' rs hR h
    obtain ⟨u, r, rs', hu, hr, rfl⟩ := run_cons_iff.mp h
    cases hp : p e with
    | true =>
      obtain ⟨t₁, ht₁, hR₁⟩ := hown hp hR hu
      obtain ⟨t', ht', hR'⟩ := ih hR₁ hr
      refine ⟨t', ?_, hR'⟩
      rw [List.filter_cons_of_pos hp, run_cons_iff]
      exact ⟨t₁, r, repliesOf p es rs', ht₁, ht', by simp [repliesOf, hp]⟩
    | false =>
      obtain ⟨t', ht', hR'⟩ := ih (hother hp hR hu) hr
      refine ⟨t', ?_, hR'⟩
      rw [List.filter_cons_of_neg (by simp [hp]), ht']
      simp [repliesOf, hp]

end Runs

end WirenBoard
