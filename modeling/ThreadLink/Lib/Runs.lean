import Mathlib.Data.List.DropRight
import Mathlib.Logic.Relation

/-!
# Runs of a machine

A machine is a partial function `step : σ → α → Option σ`: in state `s` the
action `a` either is not possible, or leads to one state. What the environment
and the scheduler choose is in the action, so a machine can be executed on a
list of actions.

## What is here

* `RunIn step C` — the runs every step of which meets the condition `C`, a
  relation between the state before the step and its action; `Run step` are all
  runs.
* `RunIn.invariant` — what holds at the start and is kept by every step that
  meets the condition holds in every state of such a run.
* `RunIn.map` — a function that turns steps of one machine into steps of
  another (or into no change) turns runs into runs.
* `PathIn step C` — such runs with what has happened in them, for the properties that
  are about the order of the steps; `PathIn.invariant` is the rule for them, and
  `PathIn.conserves` the one for queues. `countSince` counts what has happened since
  something else has.
* `execAll` — executing a list of actions, and `run_of_execAll`, which makes a run
  of it; `pathIn_of_execAllIn` makes a path.
-/

namespace ThreadLink.Runs

open Relation

universe u v w x

variable {σ : Type u} {α : Type v}

/-- A step whose action meets `C` in the state it is taken from. -/
def StepIn (step : σ → α → Option σ) (C : σ → α → Prop) (s s' : σ) : Prop :=
  ∃ a, C s a ∧ step s a = some s'

/-- A run all of whose steps meet `C`. -/
def RunIn (step : σ → α → Option σ) (C : σ → α → Prop) : σ → σ → Prop :=
  ReflTransGen (StepIn step C)

/-- Any run. -/
abbrev Run (step : σ → α → Option σ) : σ → σ → Prop := RunIn step fun _ _ => True

variable {step : σ → α → Option σ} {C D : σ → α → Prop}

theorem RunIn.refl (s : σ) : RunIn step C s s := ReflTransGen.refl

theorem RunIn.tail {s t u : σ} {a : α} (h : RunIn step C s t) (hc : C t a)
    (ha : step t a = some u) : RunIn step C s u :=
  ReflTransGen.tail h ⟨a, hc, ha⟩

theorem RunIn.trans {s t u : σ} (h : RunIn step C s t) (h' : RunIn step C t u) :
    RunIn step C s u :=
  ReflTransGen.trans h h'

/-- A weaker condition allows more runs. -/
theorem RunIn.mono (hCD : ∀ s a, C s a → D s a) {s t : σ} (h : RunIn step C s t) :
    RunIn step D s t :=
  ReflTransGen.mono (fun _ _ ⟨a, hc, ha⟩ => ⟨a, hCD _ _ hc, ha⟩) _ _ h

/-- Forget the condition. -/
theorem RunIn.run {s t : σ} (h : RunIn step C s t) : Run step s t :=
  h.mono fun _ _ _ => trivial

/-- **The invariant rule**: what holds at the start and is kept by every step of the
run holds at its end. -/
theorem RunIn.invariant {I : σ → Prop} {s t : σ} (h : RunIn step C s t) (h0 : I s)
    (hI : ∀ s a s', I s → C s a → step s a = some s' → I s') : I t := by
  induction h with
  | refl => exact h0
  | tail _ hs ih =>
    obtain ⟨a, hc, ha⟩ := hs
    exact hI _ _ _ ih hc ha

/-- A condition that may use an invariant: where `I` holds along the run, a run that
meets `C` meets `D` if `I` and `C` together give `D`. -/
theorem RunIn.strengthen {I : σ → Prop} {s t : σ} (h : RunIn step C s t) (h0 : I s)
    (hI : ∀ s a s', I s → C s a → step s a = some s' → I s')
    (hD : ∀ s a, I s → C s a → D s a) : RunIn step D s t := by
  suffices RunIn step D s t ∧ I t from this.1
  induction h with
  | refl => exact ⟨.refl s, h0⟩
  | tail _ hs ih =>
    obtain ⟨a, hc, ha⟩ := hs
    exact ⟨ih.1.tail (hD _ _ ih.2 hc) ha, hI _ _ _ ih.2 hc ha⟩

/-- **The projection rule**: if `f` turns every step of the run into a step of another
machine, or into no change, it turns the run into a run of that machine. -/
theorem RunIn.map {τ : Type w} {β : Type x} {step' : τ → β → Option τ} {D : τ → β → Prop}
    (f : σ → τ)
    (hf : ∀ s a s', C s a → step s a = some s' →
      f s' = f s ∨ ∃ b, D (f s) b ∧ step' (f s) b = some (f s'))
    {s t : σ} (h : RunIn step C s t) : RunIn step' D (f s) (f t) := by
  induction h with
  | refl => exact .refl _
  | tail _ hs ih =>
    obtain ⟨a, hc, ha⟩ := hs
    rcases hf _ _ _ hc ha with he | ⟨b, hb, hb'⟩
    · rw [he]; exact ih
    · exact ih.tail hb hb'

/-! ### Runs with their past -/

/-- A run with its past: the states that steps were taken from, and their actions. -/
inductive PathIn (step : σ → α → Option σ) (C : σ → α → Prop) (s : σ) :
    List (σ × α) → σ → Prop where
  /-- Nothing has happened. -/
  | refl : PathIn step C s [] s
  /-- One more step is taken. -/
  | tail {past : List (σ × α)} {t u : σ} {a : α} (h : PathIn step C s past t) (hc : C t a)
    (ha : step t a = some u) : PathIn step C s (past ++ [(t, a)]) u

/-- Any path. -/
abbrev Path (step : σ → α → Option σ) : σ → List (σ × α) → σ → Prop := PathIn step fun _ _ => True

/-- Forget the past. -/
theorem PathIn.runIn {s t : σ} {past : List (σ × α)} (h : PathIn step C s past t) :
    RunIn step C s t := by
  induction h with
  | refl => exact .refl s
  | tail _ hc ha ih => exact ih.tail hc ha

/-- Every run has a past. -/
theorem RunIn.exists_path {s t : σ} (h : RunIn step C s t) : ∃ past, PathIn step C s past t := by
  induction h with
  | refl => exact ⟨[], .refl⟩
  | tail _ hs ih =>
    obtain ⟨past, hp⟩ := ih
    obtain ⟨a, hc, ha⟩ := hs
    exact ⟨_, hp.tail hc ha⟩

/-- **The invariant rule for paths**: an invariant of the state and of what has
happened. -/
theorem PathIn.invariant {I : List (σ × α) → σ → Prop} {s t : σ} {past : List (σ × α)}
    (h : PathIn step C s past t) (h0 : I [] s)
    (hI : ∀ past s a s', I past s → C s a → step s a = some s' → I (past ++ [(s, a)]) s') :
    I past t := by
  induction h with
  | refl => exact h0
  | tail _ hc ha ih => exact hI _ _ _ _ ih hc ha

/-- **The conservation rule**: if every step turns what a queue has and what it gets into
what it gives and what it has then, all that was got is what was given, in order, and
what the queue has. -/
theorem PathIn.conserves {β : Type w} {queue : σ → List β} {gets gives : σ → α → List β} {s t : σ}
    {past : List (σ × α)} (h : PathIn step C s past t) (h0 : queue s = [])
    (hstep : ∀ past t a u, PathIn step C s past t → C t a → step t a = some u →
      queue t ++ gets t a = gives t a ++ queue u) :
    past.flatMap (fun a => gets a.1 a.2) = past.flatMap (fun a => gives a.1 a.2) ++ queue t := by
  induction h with
  | refl => rw [h0]; rfl
  | tail hp hc ha ih =>
    simp only [List.flatMap_append, List.flatMap_singleton]
    rw [ih, List.append_assoc, hstep _ _ _ _ hp hc ha, List.append_assoc]

/-- How often something has happened since something else has. -/
def countSince {β : Type w} (stops counts : β → Bool) (past : List β) : ℕ :=
  (past.rtakeWhile fun e => !stops e).countP counts

theorem countSince_concat {β : Type w} (stops counts : β → Bool) (past : List β) (e : β) :
    countSince stops counts (past ++ [e]) = if stops e then 0
    else countSince stops counts past + (counts e).toNat := by
  rw [countSince, List.rtakeWhile_concat]
  cases stops e with
  | true => rfl
  | false =>
    rw [if_pos (by decide), if_neg Bool.false_ne_true, List.countP_append, List.countP_singleton]
    cases counts e <;> rfl

/-- What a step of the past was taken from has been reached by the run before it. -/
theorem PathIn.mem {s t u : σ} {a : α} {past : List (σ × α)} (h : PathIn step C s past t)
    (hu : (u, a) ∈ past) : RunIn step C s u ∧ C u a := by
  induction h with
  | refl => exact absurd hu List.not_mem_nil
  | tail hp hc _ ih =>
    rcases List.mem_append.mp hu with hu | hu
    · exact ih hu
    · obtain ⟨rfl, rfl⟩ := Prod.mk.inj (List.mem_singleton.mp hu)
      exact ⟨hp.runIn, hc⟩

/-- A path may be followed by another. -/
theorem PathIn.append {s t u : σ} {past past' : List (σ × α)} (h : PathIn step C s past t)
    (h' : PathIn step C t past' u) : PathIn step C s (past ++ past') u := by
  induction h' with
  | refl => rwa [List.append_nil]
  | tail _ hc ha ih =>
    rw [← List.append_assoc]
    exact ih.tail hc ha

/-- A path may be cut at any of its steps. -/
theorem PathIn.split {s u v : σ} {a : α} {past past' : List (σ × α)}
    (h : PathIn step C s (past ++ (u, a) :: past') v) :
    ∃ t, PathIn step C s past u ∧ step u a = some t ∧ PathIn step C t past' v := by
  generalize he : past ++ (u, a) :: past' = all at h
  induction h generalizing past' with
  | refl => simp at he
  | @tail all t v b h hc ha ih =>
    rcases List.eq_nil_or_concat past' with rfl | ⟨past', p, rfl⟩
    · obtain ⟨rfl, hb⟩ := List.append_inj' he rfl
      obtain ⟨rfl, rfl⟩ := Prod.mk.inj (List.singleton_inj.mp hb)
      exact ⟨v, h, ha, .refl⟩
    · rw [List.concat_eq_append, ← List.cons_append, ← List.append_assoc] at he
      obtain ⟨rfl, hb⟩ := List.append_inj' he rfl
      obtain ⟨w, hw, hs, hrest⟩ := ih rfl
      rw [List.concat_eq_append, List.singleton_inj.mp hb]
      exact ⟨w, hw, hs, hrest.tail hc ha⟩

/-! ### Executing -/

/-- Execute a list of actions. -/
def execAll (step : σ → α → Option σ) : σ → List α → Option σ
  | s, [] => some s
  | s, a :: as => (step s a).bind fun s' => execAll step s' as

/-- An execution is a run. -/
theorem run_of_execAll {as : List α} {s t : σ} (h : execAll step s as = some t) : Run step s t := by
  induction as generalizing s with
  | nil =>
    simp only [execAll, Option.some.injEq] at h
    exact h ▸ .refl _
  | cons a as ih =>
    obtain ⟨u, hu, h⟩ := Option.bind_eq_some_iff.mp h
    exact (RunIn.refl s).tail trivial hu |>.trans (ih h)

/-- What an execution is observed to give, some state reached by a run gives. -/
theorem exists_run_of_execAll {β : Type w} {f : σ → β} {as : List α} {s : σ} {b : β}
    (h : (execAll step s as).map f = some b) : ∃ t, Run step s t ∧ f t = b := by
  obtain ⟨t, ht, hb⟩ := Option.map_eq_some_iff.mp h
  exact ⟨t, run_of_execAll ht, hb⟩

/-- Execute a list of actions, each of which must meet a decidable condition. -/
def execAllIn (step : σ → α → Option σ) (C : σ → α → Prop) [∀ s a, Decidable (C s a)] :
    σ → List α → Option σ
  | s, [] => some s
  | s, a :: as => if C s a then (step s a).bind fun s' => execAllIn step C s' as else none

/-- Such an execution is a run that meets the condition. -/
theorem runIn_of_execAllIn [∀ s a, Decidable (C s a)] {as : List α} {s t : σ}
    (h : execAllIn step C s as = some t) : RunIn step C s t := by
  induction as generalizing s with
  | nil =>
    simp only [execAllIn, Option.some.injEq] at h
    exact h ▸ .refl _
  | cons a as ih =>
    simp only [execAllIn] at h
    split at h
    · rename_i hc
      obtain ⟨u, hu, h⟩ := Option.bind_eq_some_iff.mp h
      exact (RunIn.refl s).tail hc hu |>.trans (ih h)
    · cases h

/-- What such an execution is observed to give, some state reached by such a run
gives. -/
theorem exists_runIn_of_execAllIn [∀ s a, Decidable (C s a)] {β : Type w} {f : σ → β} {as : List α}
    {s : σ} {b : β} (h : (execAllIn step C s as).map f = some b) :
    ∃ t, RunIn step C s t ∧ f t = b := by
  obtain ⟨t, ht, hb⟩ := Option.map_eq_some_iff.mp h
  exact ⟨t, runIn_of_execAllIn ht, hb⟩

/-- What holds at the end of an execution holds of some state reached by a run. -/
theorem exists_run_of_any (step : σ → α → Option σ) (s : σ) (as : List α) (P : σ → Prop)
    [DecidablePred P] (h : (execAll step s as).any (fun t => decide (P t)) = true) :
    ∃ t, Run step s t ∧ P t := by
  obtain ⟨t, ht, hp⟩ := (Option.any_eq_true ..).mp h
  exact ⟨t, run_of_execAll ht, of_decide_eq_true hp⟩

/-- Or of one reached by a run that meets the condition. -/
theorem exists_runIn_of_any (step : σ → α → Option σ) (C : σ → α → Prop) [∀ s a, Decidable (C s a)]
    (s : σ) (as : List α) (P : σ → Prop) [DecidablePred P]
    (h : (execAllIn step C s as).any (fun t => decide (P t)) = true) :
    ∃ t, RunIn step C s t ∧ P t := by
  obtain ⟨t, ht, hp⟩ := (Option.any_eq_true ..).mp h
  exact ⟨t, runIn_of_execAllIn ht, of_decide_eq_true hp⟩

/-- The past of an execution. -/
def trace (step : σ → α → Option σ) : σ → List α → List (σ × α)
  | _, [] => []
  | s, a :: as =>
    match step s a with
    | none => []
    | some s' => (s, a) :: trace step s' as

/-- An execution that meets the condition is a path. -/
theorem pathIn_of_execAllIn [∀ s a, Decidable (C s a)] {as : List α} {s t : σ}
    (h : execAllIn step C s as = some t) : PathIn step C s (trace step s as) t := by
  induction as generalizing s with
  | nil =>
    simp only [execAllIn, Option.some.injEq] at h
    exact h ▸ .refl
  | cons a as ih =>
    simp only [execAllIn] at h
    split at h
    · rename_i hc
      obtain ⟨u, hu, h⟩ := Option.bind_eq_some_iff.mp h
      have hp : PathIn step C s [(s, a)] u := PathIn.tail .refl hc hu
      simp only [trace, hu]
      exact hp.append (ih h)
    · cases h

/-- The past has no other actions. -/
theorem mem_of_mem_trace {as : List α} {s u : σ} {a : α} (h : (u, a) ∈ trace step s as) :
    a ∈ as := by
  induction as generalizing s with
  | nil => exact absurd h List.not_mem_nil
  | cons b as ih =>
    unfold trace at h
    split at h
    · exact absurd h List.not_mem_nil
    · rcases List.mem_cons.mp h with he | h
      · rw [(Prod.mk.inj he).2]
        exact List.mem_cons_self
      · exact List.mem_cons_of_mem _ (ih h)

/-- What such an execution is observed to give, some state at the end of a path gives. -/
theorem exists_pathIn_of_execAllIn [∀ s a, Decidable (C s a)] {β : Type w} {f : σ → β} {as : List α}
    {s : σ} {b : β} (h : (execAllIn step C s as).map f = some b) :
    ∃ t, PathIn step C s (trace step s as) t ∧ f t = b := by
  obtain ⟨t, ht, hb⟩ := Option.map_eq_some_iff.mp h
  exact ⟨t, pathIn_of_execAllIn ht, hb⟩

end ThreadLink.Runs
