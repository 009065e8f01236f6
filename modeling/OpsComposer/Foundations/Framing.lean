import Mathlib.Data.List.Basic

/-!
# Fields that are told apart by a mark

Fields are written one after the other with a mark between them, or after each
of them.  What was written can be read back if the fields do not contain the
mark.

* `eq_of_append_cons` — the first mark is where the first field ends;
* `frame` — every field with the mark after it, `frame_injective`.
-/

set_option autoImplicit false

namespace OpsComposer.Foundations.Framing

variable {α : Type}

/-- **The first mark is where the first field ends.** -/
theorem eq_of_append_cons {mark : α} {field other rest rest' : List α} (clean : mark ∉ field)
    (cleanOther : mark ∉ other) (same : field ++ mark :: rest = other ++ mark :: rest') :
    field = other ∧ rest = rest' := by
  induction field generalizing other with
  | nil =>
      cases other with
      | nil => exact ⟨rfl, (List.cons.inj same).2⟩
      | cons c other =>
          have here : mark = c := (List.cons.inj same).1
          exact absurd (here ▸ List.mem_cons_self ..) cleanOther
  | cons c field ih =>
      cases other with
      | nil =>
          have here : c = mark := (List.cons.inj same).1
          exact absurd (here ▸ List.mem_cons_self ..) clean
      | cons d other =>
          obtain ⟨rfl, tails⟩ := List.cons.inj same
          obtain ⟨rfl, rests⟩ := ih (fun inside => clean (List.mem_cons_of_mem _ inside))
            (fun inside => cleanOther (List.mem_cons_of_mem _ inside)) tails
          exact ⟨rfl, rests⟩

/-- Every field with the mark after it. -/
def frame (mark : α) (fields : List (List α)) : List α :=
  fields.flatMap fun field => field ++ [mark]

@[simp] theorem frame_nil (mark : α) : frame mark [] = [] := rfl

theorem frame_cons (mark : α) (field : List α) (fields : List (List α)) :
    frame mark (field :: fields) = field ++ mark :: frame mark fields := by
  rw [frame, List.flatMap_cons, List.append_assoc, List.singleton_append]
  rfl

theorem frame_ne_nil {mark : α} {field : List α} {fields : List (List α)} :
    frame mark (field :: fields) ≠ [] := by
  rw [frame_cons]
  exact List.append_ne_nil_of_right_ne_nil _ (List.cons_ne_nil _ _)

/-- **Fields without the mark can be read back.** -/
theorem frame_injective {mark : α} {fields others : List (List α)}
    (clean : ∀ field ∈ fields, mark ∉ field) (cleanOthers : ∀ field ∈ others, mark ∉ field)
    (same : frame mark fields = frame mark others) : fields = others := by
  induction fields generalizing others with
  | nil =>
      cases others with
      | nil => rfl
      | cons field others => exact absurd same.symm frame_ne_nil
  | cons field fields ih =>
      cases others with
      | nil => exact absurd same frame_ne_nil
      | cons other others =>
          rw [frame_cons, frame_cons] at same
          rw [List.forall_mem_cons] at clean cleanOthers
          obtain ⟨rfl, tails⟩ := eq_of_append_cons clean.1 cleanOthers.1 same
          rw [ih clean.2 cleanOthers.2 tails]

end OpsComposer.Foundations.Framing
