import ThreadLink.Lib.Runs

/-!
# Machines and what they are for

A machine with many small steps is often meant to do no more than another one says in
few large ones. The large machine is a relation between a state, an event and the next
state; it may leave open what the small one decides.

## What is here

* `Trace S t₀` — the lists of events that lead the large machine from `t₀` to a state.
* `PathIn.refines` — the refinement rule: if every step of a small machine either keeps
  what it stands for or is an event of the large one, then what happens in a run is a
  trace.
* `Trace.invariant` — what every event keeps holds at the end of every trace; `Trace.append`
  puts one trace behind another.
-/

namespace ThreadLink.Runs

universe u v w x

variable {σ : Type u} {α : Type v} {τ : Type w} {β : Type x}

/-- The events that lead from one state to another. -/
inductive Trace (S : τ → β → τ → Prop) (t₀ : τ) : List β → τ → Prop
  /-- Nothing has happened. -/
  | nil : Trace S t₀ [] t₀
  /-- One more event. -/
  | concat {l : List β} {t u : τ} {b : β} (h : Trace S t₀ l t) (hb : S t b u) :
    Trace S t₀ (l ++ [b]) u

variable {step : σ → α → Option σ} {C : σ → α → Prop} {S : τ → β → τ → Prop} {t₀ : τ}

/-- What every event keeps. -/
theorem Trace.invariant (I : List β → τ → Prop) {l : List β} {t : τ} (h : Trace S t₀ l t)
    (h0 : I [] t₀) (hI : ∀ l t b u, I l t → S t b u → I (l ++ [b]) u) : I l t := by
  induction h with
  | nil => exact h0
  | concat _ hb ih => exact hI _ _ _ _ ih hb

/-- One trace after another. -/
theorem Trace.append {l l' : List β} {t u : τ} (h : Trace S t₀ l t) (h' : Trace S t l' u) :
    Trace S t₀ (l ++ l') u := by
  induction h' with
  | nil => rwa [List.append_nil]
  | concat _ hb ih => exact List.append_assoc .. ▸ ih.concat hb

/-- **The refinement rule**: `abs` says what a state that meets the invariant stands for,
and `event` what a step is to the large machine, if it is anything. -/
theorem PathIn.refines {I : σ → Prop} (abs : ∀ s, I s → τ) (event : σ × α → Option β)
    {s t : σ} {past : List (σ × α)} (h : PathIn step C s past t) (h0 : I s)
    (hI : ∀ s a s', I s → C s a → step s a = some s' → I s')
    (hstep : ∀ s a s' (h : I s) (h' : I s'), C s a → step s a = some s' →
      (event (s, a) = none → abs s' h' = abs s h) ∧
        ∀ b, event (s, a) = some b → S (abs s h) b (abs s' h')) :
    ∃ ht : I t, Trace S (abs s h0) (past.filterMap event) (abs t ht) := by
  induction h with
  | refl => exact ⟨h0, .nil⟩
  | @tail past t u a _ hc ha ih =>
    obtain ⟨ht, htr⟩ := ih
    have hu := hI _ _ _ ht hc ha
    obtain ⟨hnone, hsome⟩ := hstep _ _ _ ht hu hc ha
    refine ⟨hu, ?_⟩
    rw [List.filterMap_append]
    cases he : event (t, a) with
    | none => simpa [he, hnone he] using htr
    | some b => simpa [he] using htr.concat (hsome b he)

end ThreadLink.Runs
