import ThreadLink.Lib.Runs
import Mathlib.Algebra.BigOperators.Group.List.Basic

/-!
# How long a run can go on

A machine that is given no more work comes to an end if each of its steps makes a rank
smaller. Where it is given work now and then, the rank says what each piece may cost.

## What is here

* `PathIn.spent_le` — the steps that are counted are no more than the rank at the start and
  what has been added to it.
* `exists_goal` — where a machine can take a step that makes the rank smaller wherever it has not
  reached a goal, it can reach it.
-/

namespace ThreadLink.Runs

universe u v

variable {σ : Type u} {α : Type v} {step : σ → α → Option σ} {C D : σ → α → Prop}

/-- How many steps of a path are of a kind. -/
def countSteps (P : α → Bool) (past : List (σ × α)) : ℕ := past.countP fun e => P e.2

theorem countSteps_concat (P : α → Bool) (past : List (σ × α)) (s : σ) (a : α) :
    countSteps P (past ++ [(s, a)]) = countSteps P past + (P a).toNat := by
  rw [countSteps, List.countP_append, List.countP_singleton]
  cases P a <;> rfl

/-- **The budget of a path**: where each step that `turns` counts makes the rank smaller, each
that `feeds` counts adds `price` to it at most, and no other adds to it, the turns that can be
taken are paid for by the rank at the start and by what has been fed. -/
theorem PathIn.spent_le {I : σ → Prop} (rank : σ → ℕ) (turns feeds : α → Bool) (price : ℕ)
    {s t : σ} {past : List (σ × α)} (h : PathIn step C s past t) (h0 : I s)
    (hI : ∀ s a s', I s → C s a → step s a = some s' → I s')
    (hstep : ∀ s a s', I s → C s a → step s a = some s' →
      rank s' + (turns a).toNat ≤ rank s + price * (feeds a).toNat) :
    countSteps turns past + rank t ≤ rank s + price * countSteps feeds past := by
  suffices I t ∧ countSteps turns past + rank t ≤ rank s + price * countSteps feeds past from
    this.2
  induction h with
  | refl => exact ⟨h0, by simp [countSteps]⟩
  | @tail past t u a _ hc ha ih =>
    obtain ⟨ht, ih⟩ := ih
    refine ⟨hI _ _ _ ht hc ha, ?_⟩
    have hs := hstep _ _ _ ht hc ha
    rw [countSteps_concat, countSteps_concat, Nat.mul_add]
    omega

/-- **The progress rule**: where some step that makes the rank smaller can be taken wherever
the goal is not reached, it is reached. -/
theorem exists_goal {I G : σ → Prop} (rank : σ → ℕ) {s : σ} (h0 : I s)
    (hprog : ∀ s, I s → ¬ G s → ∃ a s', C s a ∧ step s a = some s' ∧ I s' ∧ rank s' < rank s) :
    ∃ t, RunIn step C s t ∧ G t := by
  induction hn : rank s using Nat.strong_induction_on generalizing s with
  | _ n ih =>
    by_cases hg : G s
    · exact ⟨s, .refl s, hg⟩
    · obtain ⟨a, s', hc, ha, hs', hlt⟩ := hprog s h0 hg
      obtain ⟨t, ht, hgt⟩ := ih (rank s') (hn ▸ hlt) hs' rfl
      exact ⟨t, .trans (.tail (.refl s) hc ha) ht, hgt⟩

end ThreadLink.Runs
