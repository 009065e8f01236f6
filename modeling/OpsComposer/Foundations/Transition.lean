import Mathlib.Logic.Relation

/-!
# Labelled transition systems

A system is a set of initial states and a partial step function: an action
either is refused or leads to one next state.  Everything that the environment
chooses (readings of a clock, fresh identifiers, which party moves) is part of
the action, so that a run is determined by its list of actions and can be
executed.

* `System.Trace` — a finite run with its actions;
* `System.Reachable` — the states runs lead to;
* `System.restrict` — the same system with only the steps that meet a
  condition on the action and on the state before it;
* `System.Inductive` — an invariant: true initially and kept by every step;
* `System.Inductive.of_reachable` — it holds in every reachable state;
* `System.Leads.preserves` — what one step says about a whole run: a kept fact
  stays.
-/

set_option autoImplicit false

namespace OpsComposer.Foundations

universe u v

/-- A transition system whose actions carry every choice of the environment. -/
structure System (σ : Type u) (α : Type v) where
  /-- The states a run may start in. -/
  init : σ → Prop
  /-- The next state, unless the action is refused. -/
  step : σ → α → Option σ

namespace System

variable {σ : Type u} {α : Type v}

/-! ## Runs -/

/-- A finite run and the actions it takes, first action first. -/
inductive Trace (M : System σ α) : σ → List α → σ → Prop where
  | refl (s : σ) : Trace M s [] s
  | tail {s t u : σ} {actions : List α} {a : α} (run : Trace M s actions t)
      (step : M.step t a = some u) : Trace M s (actions ++ [a]) u

/-- One state leads to another by some run. -/
def Leads (M : System σ α) (s t : σ) : Prop := ∃ actions, M.Trace s actions t

/-- A state that some run from an initial state leads to. -/
def Reachable (M : System σ α) (s : σ) : Prop := ∃ s₀, M.init s₀ ∧ M.Leads s₀ s

variable {M : System σ α} {s t : σ}

theorem Leads.refl (s : σ) : M.Leads s s := ⟨[], .refl s⟩

theorem Leads.tail {u : σ} {a : α} (run : M.Leads s t)
    (step : M.step t a = some u) : M.Leads s u := by
  obtain ⟨actions, trace⟩ := run
  exact ⟨actions ++ [a], trace.tail step⟩

theorem Leads.trans {u : σ} (first : M.Leads s t) (second : M.Leads t u) : M.Leads s u := by
  obtain ⟨actions, trace⟩ := second
  induction trace with
  | refl => exact first
  | tail _ step ih => exact ih.tail step

theorem Reachable.of_init (start : M.init s) : M.Reachable s :=
  ⟨s, start, Leads.refl s⟩

theorem Reachable.leads (reached : M.Reachable s) (run : M.Leads s t) : M.Reachable t := by
  obtain ⟨s₀, start, before⟩ := reached
  exact ⟨s₀, start, before.trans run⟩

theorem Reachable.step {a : α} (reached : M.Reachable s)
    (step : M.step s a = some t) : M.Reachable t :=
  reached.leads ((Leads.refl s).tail step)

/-- Execute a list of actions, refused as soon as one of them is. -/
def exec (M : System σ α) (s : σ) : List α → Option σ
  | [] => some s
  | a :: actions => (M.step s a).bind fun t => M.exec t actions

theorem exec_append (M : System σ α) (s : σ) (first second : List α) :
    M.exec s (first ++ second) = (M.exec s first).bind fun t => M.exec t second := by
  induction first generalizing s with
  | nil => rfl
  | cons a first ih =>
      rw [List.cons_append, exec, exec, Option.bind_assoc]
      exact congrArg _ (funext ih)

/-- Executing actions one after the other is a run. -/
theorem leads_of_exec {actions : List α} (done : M.exec s actions = some t) : M.Leads s t := by
  induction actions generalizing s with
  | nil =>
      obtain rfl : s = t := by simpa [exec] using done
      exact Leads.refl s
  | cons a actions ih =>
      obtain ⟨middle, first, rest⟩ := Option.bind_eq_some_iff.mp done
      exact ((Leads.refl s).tail first).trans (ih rest)

/-- A fact that every step keeps survives every run. -/
theorem Leads.stays {M : System σ α} {fact : σ → Prop}
    (kept : ∀ s a t, fact s → M.step s a = some t → fact t) {s t : σ} (holds : fact s)
    (run : M.Leads s t) : fact t := by
  obtain ⟨actions, trace⟩ := run
  induction trace with
  | refl => exact holds
  | tail _ step ih => exact kept _ _ _ ih step

/-! ## Restriction -/

open Classical in
/-- The system with only those steps that meet a condition on the state before
the step and on the action. -/
noncomputable def restrict (M : System σ α) (ok : σ → α → Prop) : System σ α where
  init := M.init
  step s a := if ok s a then M.step s a else none

section Restrict

variable {M : System σ α} {ok : σ → α → Prop}

variable {s t : σ}

theorem restrict_step {a : α} :
    (M.restrict ok).step s a = some t ↔ ok s a ∧ M.step s a = some t := by
  by_cases holds : ok s a <;> simp [restrict, holds]

/-- Each action meets the condition in the state in which it is taken. -/
def Along (M : System σ α) (ok : σ → α → Prop) : σ → List α → Prop
  | _, [] => True
  | s, a :: actions => ok s a ∧ ∀ t ∈ M.step s a, M.Along ok t actions

instance decidableAlong [∀ s a, Decidable (ok s a)] :
    ∀ (s : σ) (actions : List α), Decidable (M.Along ok s actions)
  | _, [] => isTrue trivial
  | s, a :: actions =>
      have := fun t => decidableAlong t actions
      inferInstanceAs (Decidable (ok s a ∧ ∀ t ∈ M.step s a, M.Along ok t actions))

/-- Actions that meet the condition in every state. -/
theorem along_of_forall {actions : List α} (all : ∀ a ∈ actions, ∀ s, ok s a) (s : σ) :
    M.Along ok s actions := by
  induction actions generalizing s with
  | nil => trivial
  | cons a actions ih =>
      obtain ⟨first, others⟩ := List.forall_mem_cons.mp all
      exact ⟨first s, fun t _ => ih others t⟩

/-- Executing actions that meet the condition is a run of the restriction. -/
theorem leads_restrict_of_exec {actions : List α} (done : M.exec s actions = some t)
    (along : M.Along ok s actions) : (M.restrict ok).Leads s t := by
  induction actions generalizing s with
  | nil =>
      obtain rfl : s = t := by simpa [exec] using done
      exact Leads.refl s
  | cons a actions ih =>
      obtain ⟨middle, first, rest⟩ := Option.bind_eq_some_iff.mp done
      have one := restrict_step.mpr ⟨along.1, first⟩
      exact ((Leads.refl s).tail one).trans (ih rest (along.2 middle first))

theorem Leads.of_restrict (run : (M.restrict ok).Leads s t) : M.Leads s t := by
  obtain ⟨actions, trace⟩ := run
  induction trace with
  | refl => exact Leads.refl _
  | tail _ step ih => exact ih.tail (restrict_step.mp step).2

/-- Every run is one of the system in which every step is allowed. -/
theorem Leads.allowed (run : M.Leads s t) : (M.restrict fun _ _ => True).Leads s t := by
  obtain ⟨actions, trace⟩ := run
  induction trace with
  | refl => exact Leads.refl _
  | tail _ step ih => exact ih.tail (restrict_step.mpr ⟨trivial, step⟩)

theorem Reachable.allowed (reached : M.Reachable s) : (M.restrict fun _ _ => True).Reachable s := by
  obtain ⟨s₀, start, run⟩ := reached
  exact ⟨s₀, start, run.allowed⟩

theorem Reachable.of_restrict (reached : (M.restrict ok).Reachable s) : M.Reachable s := by
  obtain ⟨s₀, start, run⟩ := reached
  exact ⟨s₀, start, run.of_restrict⟩

/-- What a stronger condition allows, a weaker one does. -/
theorem Reachable.weaken {weaker : σ → α → Prop} (weakens : ∀ s a, ok s a → weaker s a)
    (reached : (M.restrict ok).Reachable s) : (M.restrict weaker).Reachable s := by
  obtain ⟨s₀, start, actions, trace⟩ := reached
  refine ⟨s₀, start, ?_⟩
  induction trace with
  | refl => exact Leads.refl _
  | tail _ step ih =>
      obtain ⟨holds, step⟩ := restrict_step.mp step
      exact ih.tail (restrict_step.mpr ⟨weakens _ _ holds, step⟩)

end Restrict

/-! ## Invariants -/

/-- A property that holds initially and that every step keeps. -/
structure Inductive (M : System σ α) (inv : σ → Prop) : Prop where
  initial : ∀ s, M.init s → inv s
  preserved : ∀ s a t, inv s → M.step s a = some t → inv t

variable {M : System σ α} {s : σ} {inv : σ → Prop}

/-- A kept property survives a run. -/
theorem Inductive.leads (ind : M.Inductive inv)
    {t : σ} (holds : inv s) (run : M.Leads s t) : inv t :=
  run.stays ind.preserved holds

/-- **An inductive property holds in every reachable state.** -/
theorem Inductive.of_reachable (ind : M.Inductive inv) (reached : M.Reachable s) : inv s := by
  obtain ⟨s₀, start, run⟩ := reached
  exact ind.leads (ind.initial s₀ start) run

/-- An invariant may be proved with the help of one that is known already. -/
theorem Inductive.strengthen {known : σ → Prop}
    (base : M.Inductive known) (initial : ∀ s, M.init s → inv s)
    (preserved : ∀ s a t, known s → inv s → M.step s a = some t → inv t) :
    M.Inductive fun s => known s ∧ inv s where
  initial s start := ⟨base.initial s start, initial s start⟩
  preserved s a t holds step :=
    ⟨base.preserved s a t holds.1 step, preserved s a t holds.1 holds.2 step⟩

/-- Being reachable is an invariant, so that every other may be proved with its help. -/
theorem Inductive.reachable (M : System σ α) : M.Inductive M.Reachable where
  initial _ start := .of_init start
  preserved _ _ _ reached step := reached.step step

/-- The invariants of a system are invariants of its restrictions. -/
theorem Inductive.restrict (ind : M.Inductive inv)
    (ok : σ → α → Prop) : (M.restrict ok).Inductive inv where
  initial := ind.initial
  preserved s a t holds step := ind.preserved s a t holds (restrict_step.mp step).2

theorem Inductive.unrestricted
    (ind : (M.restrict fun _ _ => True).Inductive inv) : M.Inductive inv where
  initial := ind.initial
  preserved s a t holds step := ind.preserved s a t holds (restrict_step.mpr ⟨trivial, step⟩)

/-! ## Facts about whole runs -/

/-- A fact that every step from a good state keeps survives every run from a
good state. -/
theorem Leads.preserves {M : System σ α} {good fact : σ → Prop} (invariant : M.Inductive good)
    (kept : ∀ s a t, good s → fact s → M.step s a = some t → fact t) {s t : σ} (start : good s)
    (holds : fact s) (run : M.Leads s t) : fact t := by
  obtain ⟨actions, trace⟩ := run
  induction trace with
  | refl => exact holds
  | tail before step ih =>
      exact kept _ _ _ (invariant.leads start ⟨_, before⟩) ih step

end System

end OpsComposer.Foundations
