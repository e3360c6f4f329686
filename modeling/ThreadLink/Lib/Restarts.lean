import ThreadLink.Lib.Refinement

/-!
# Processes that stop and start again

A process has a disk that outlives it. Everything it does to the disk is a write, and a step of
it may make several, one after the other. It may be stopped at any time, also in the middle of
a write, which is torn then; what starts again has the disk and nothing else.

## What is here

* `Process` — a machine with a disk, the writes it makes, what is left of those that are torn,
  and the states it starts in.
* `Process.Lives` — the runs of a process that may be stopped and started any number of times.
* `Process.Lives.disk` — what whole writes, torn ones and starts keep of the disk holds of it
  at the end of every such run.
-/

namespace ThreadLink.Runs

universe u v w x

variable {σ : Type u} {α : Type v} {δ : Type w} {β : Type x}

/-- A machine with a disk. -/
structure Process (σ : Type u) (α : Type v) (δ : Type w) (β : Type x) where
  /-- One step. -/
  step : σ → α → Option σ
  /-- What outlives the process. -/
  disk : σ → δ
  /-- A write changes one disk into another. -/
  Writes : δ → β → δ → Prop
  /-- What a write may leave that is torn. -/
  Tears : δ → β → δ → Prop
  /-- The states it starts in on a disk. -/
  Starts : δ → σ → Prop

namespace Process

variable {P : Process σ α δ β}

/-- **The lives of a process.** -/
inductive Lives (P : Process σ α δ β) (s : σ) : σ → Prop
  /-- Nothing has happened. -/
  | refl : Lives P s s
  /-- A step. -/
  | step {t u : σ} {a : α} (h : Lives P s t) (ha : P.step t a = some u) : Lives P s u
  /-- The process is stopped between two steps, and starts again. -/
  | stop {t v : σ} (h : Lives P s t) (hv : P.Starts (P.disk t) v) : Lives P s v
  /-- It is stopped in the middle of a write of a step. -/
  | tear {t u v : σ} {a : α} {l l' : List β} {b : β} {d d₁ d' : δ} (h : Lives P s t)
    (ha : P.step t a = some u) (hl : Trace P.Writes (P.disk t) l d) (hb : P.Writes d b d₁)
    (hl' : Trace P.Writes d₁ l' (P.disk u)) (ht : P.Tears d b d') (hv : P.Starts d' v) :
    Lives P s v

/-- A run of the machine is one life. -/
theorem lives_of_run {s t : σ} (h : Run P.step s t) : P.Lives s t := by
  induction h with
  | refl => exact .refl
  | tail _ hs ih =>
    obtain ⟨a, -, ha⟩ := hs
    exact ih.step ha

/-- What a process goes by: its steps keep it, it starts with it, and it is enough for the
steps to change the disk by writes only. -/
structure Goes (P : Process σ α δ β) (V : σ → Prop) : Prop where
  /-- Steps keep it. -/
  step : ∀ {s a s'}, V s → P.step s a = some s' → V s'
  /-- The process starts with it. -/
  start : ∀ {d s}, P.Starts d s → V s
  /-- Steps write. -/
  writes : ∀ {s a s'}, V s → P.step s a = some s' → ∃ l, Trace P.Writes (P.disk s) l (P.disk s')

/-- **What holds of the disk**: if it holds at first, and whole writes, torn ones and starts
keep it, it holds however often the process has been stopped. -/
theorem Lives.disk {V : σ → Prop} {I : δ → Prop} {s t : σ} (h : P.Lives s t) (hV : P.Goes V)
    (h0 : V s) (hI : I (P.disk s)) (hw : ∀ {d b d'}, I d → P.Writes d b d' → I d')
    (ht : ∀ {d b d'}, I d → P.Tears d b d' → I d')
    (hs : ∀ {d s}, I d → P.Starts d s → I (P.disk s)) : V t ∧ I (P.disk t) := by
  have htrace {l d d'} (hd : I d) (hl : Trace P.Writes d l d') : I d' :=
    hl.invariant (fun _ d => I d) hd fun _ _ _ _ hd hb => hw hd hb
  induction h with
  | refl => exact ⟨h0, hI⟩
  | step _ ha ih =>
    obtain ⟨l, hl⟩ := hV.writes ih.1 ha
    exact ⟨hV.step ih.1 ha, htrace ih.2 hl⟩
  | stop _ hv ih => exact ⟨hV.start hv, hs ih.2 hv⟩
  | tear _ _ hl _ _ htorn hv ih => exact ⟨hV.start hv, hs (ht (htrace ih.2 hl) htorn) hv⟩

end Process

end ThreadLink.Runs
