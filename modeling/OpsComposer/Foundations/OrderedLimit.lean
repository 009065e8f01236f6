import Mathlib.Data.List.Sort

/-!
# `ORDER BY … LIMIT …`

The first rows of a list in an order.  What makes them a page is that a row which comes
strictly before one of them is one of them (`mem_orderedLimit_of_before`), and that a page
that is not full has all rows (`mem_orderedLimit_of_short`).
-/

set_option autoImplicit false

namespace OpsComposer.Foundations

variable {α : Type} (r : α → α → Prop) [DecidableRel r]

/-- At most `limit` of the rows, the first ones. -/
def orderedLimit (limit : Nat) (rows : List α) : List α := (rows.insertionSort r).take limit

variable {r} {limit : Nat} {rows : List α} {a b : α}

theorem mem_of_mem_orderedLimit (member : a ∈ orderedLimit r limit rows) : a ∈ rows :=
  (List.mem_insertionSort r).mp (List.mem_of_mem_take member)

theorem length_orderedLimit_le : (orderedLimit r limit rows).length ≤ limit :=
  List.length_take_le ..

theorem exists_mem_orderedLimit (some : 0 < limit) (member : a ∈ rows) :
    ∃ b, b ∈ orderedLimit r limit rows := by
  refine List.exists_mem_of_length_pos ?_
  rw [orderedLimit, List.length_take, List.length_insertionSort]
  exact Nat.lt_min.mpr ⟨some, List.length_pos_of_mem member⟩

/-- A page that is not full has all rows. -/
theorem mem_orderedLimit_of_short (short : (orderedLimit r limit rows).length < limit)
    (member : a ∈ rows) : a ∈ orderedLimit r limit rows := by
  have bound : (rows.insertionSort r).length ≤ limit := by
    rw [orderedLimit, List.length_take] at short
    omega
  rw [orderedLimit, List.take_of_length_le bound]
  exact (List.mem_insertionSort r).mpr member

theorem nodup_orderedLimit (nodup : rows.Nodup) : (orderedLimit r limit rows).Nodup :=
  ((List.perm_insertionSort r rows).nodup_iff.mpr nodup).sublist (List.take_sublist ..)

section Order

variable [Std.Total r] [IsTrans α r]

theorem pairwise_orderedLimit : (orderedLimit r limit rows).Pairwise r :=
  (List.pairwise_insertionSort r rows).sublist (List.take_sublist ..)

/-- **A page is closed.** -/
theorem mem_orderedLimit_of_before (first : a ∈ orderedLimit r limit rows) (member : b ∈ rows)
    (before : ¬ r a b) : b ∈ orderedLimit r limit rows := by
  obtain ⟨i, bound, at_i⟩ := List.mem_take_iff_getElem.mp first
  obtain ⟨j, inside, at_j⟩ := List.mem_iff_getElem.mp ((List.mem_insertionSort r).mpr member)
  have sorted := List.pairwise_iff_getElem.mp (List.pairwise_insertionSort r rows)
  have earlier : j < i := by
    by_contra later
    rcases Nat.lt_or_eq_of_le (Nat.le_of_not_lt later) with after | same
    · exact before (at_i ▸ at_j ▸ sorted i j (by omega) inside after)
    · subst same
      have reflexive : r a a := (Std.Total.total a a).elim id id
      exact before (at_i.symm.trans at_j ▸ reflexive)
  exact List.mem_take_iff_getElem.mpr ⟨j, by omega, at_j⟩

end Order

end OpsComposer.Foundations
