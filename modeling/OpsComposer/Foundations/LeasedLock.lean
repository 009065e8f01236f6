import Mathlib.Order.Lattice

/-!
# Locks that expire, under leases that expire

Executions hold resources for as long as their leases last.  Beside the leases
there is one lock row for each resource, with an expiry of its own; a row that
has expired may be taken over by anybody.  An execution is excluded from a
resource only by the row, and it counts as live only by its lease, so the two
have to be tied together:

* `View.Guarded` — whoever is live on a resource owns the lock row of that
  resource, and the row outlives the lease;
* `View.Guarded.exclusive` — then no resource has two live executions;
* `View.Guarded.later` — time alone keeps a view guarded;
* `View.Guarded.of_covered` — the rule for a step: every execution that is live
  after it is `Covered`: it was live before it, and its row has been kept, or it
  has its row afresh.

Instants are any linear order.
-/

set_option autoImplicit false

namespace OpsComposer.Foundations

/-- Who holds what until when, and what the lock rows say. -/
structure View (ε ρ τ : Type) where
  /-- The execution is under way on the resource under a lease with this expiry. -/
  held : ε → ρ → τ → Prop
  /-- The lock row of the resource names this execution, until this expiry. -/
  locked : ρ → ε → τ → Prop
  /-- There is one row for each resource. -/
  one : ∀ r e e' x x', locked r e x → locked r e' x' → e = e'

namespace View

variable {ε ρ τ : Type} [LinearOrder τ]

/-- The execution is under way on the resource, and its lease has not expired. -/
def Live (view : View ε ρ τ) (now : τ) (e : ε) (r : ρ) : Prop :=
  ∃ expiry, view.held e r expiry ∧ now < expiry

/-- Every live execution owns the lock row of its resource, which outlives its
lease. -/
def Guarded (view : View ε ρ τ) (now : τ) : Prop :=
  ∀ e r expiry, view.held e r expiry → now < expiry → ∃ x, view.locked r e x ∧ expiry ≤ x

variable {view : View ε ρ τ} {now : τ}

/-- **A guarded view has at most one live execution on each resource.** -/
theorem Guarded.exclusive (guarded : view.Guarded now) {e e' : ε}
    {r : ρ} (live : view.Live now e r) (live' : view.Live now e' r) : e = e' := by
  obtain ⟨expiry, held, unexpired⟩ := live
  obtain ⟨expiry', held', unexpired'⟩ := live'
  obtain ⟨x, locked, _⟩ := guarded e r expiry held unexpired
  obtain ⟨x', locked', _⟩ := guarded e' r expiry' held' unexpired'
  exact view.one r e e' x x' locked locked'

/-- What is guarded now is guarded later: fewer leases are unexpired. -/
theorem Guarded.later {now' : τ} (guarded : view.Guarded now)
    (passed : now ≤ now') : view.Guarded now' :=
  fun e r expiry held unexpired => guarded e r expiry held (lt_of_le_of_lt passed unexpired)

/-- An execution that is under way after a step was under way before it, under the
same lease, and its unexpired row has been kept; or its row outlives its lease. -/
def Covered (view view' : View ε ρ τ) (now : τ) (e : ε) (r : ρ) (expiry : τ) : Prop :=
  (view.held e r expiry ∧ ∀ x, view.locked r e x → now < x → view'.locked r e x) ∨
    ∃ x, view'.locked r e x ∧ expiry ≤ x

/-- **The rule for a step**: it keeps a view guarded if it covers what is live
after it. -/
theorem Guarded.of_covered {view' : View ε ρ τ} (guarded : view.Guarded now)
    (covered : ∀ e r expiry, view'.held e r expiry → now < expiry →
      Covered view view' now e r expiry) :
    view'.Guarded now := by
  intro e r expiry held unexpired
  rcases covered e r expiry held unexpired with ⟨before, kept⟩ | fresh
  · obtain ⟨x, locked, outlives⟩ := guarded e r expiry before unexpired
    exact ⟨x, kept x locked (lt_of_lt_of_le unexpired outlives), outlives⟩
  · exact fresh

end View

end OpsComposer.Foundations
