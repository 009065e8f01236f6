import OpsComposer.Services.Redaction
import OpsComposer.Services.RunSpecs

/-!
# Two lists of sensitive names

`_validate_extra_vars` refuses the names that it takes for those of a secret, at
whatever depth they occur, and `_sanitize` redacts what stands under the names
that it takes for those.  The first one reads a hyphen as an underscore and knows
more names; the second one knows one name that the first one misses,
`privatekey` (`missed_iff`).

* `Occurs` — a key at any depth of a tree;
* `refusedField_isSome_iff` — the recursion of the validation;
* `Missed` — the keys for which the two disagree;
* `testsAgree_iff` — on which trees the second test implies the first.
-/

set_option autoImplicit false

namespace OpsComposer.RunSpecs

open Foundations
open Services.PlaybookProject (Members)
open Services.Redaction (isSensitiveKey sensitiveKeys)

/-! ## Every depth -/

/-- A key of an object at any depth of a value. -/
inductive Occurs (key : Text) : Json → Prop
  | here {members : Members} (member : key ∈ Json.keys members) : Occurs key (.obj members)
  | value {members : Members} {name : Text} {value : Json} (member : (name, value) ∈ members)
      (below : Occurs key value) : Occurs key (.obj members)
  | item {items : List Json} {item : Json} (member : item ∈ items) (below : Occurs key item) :
      Occurs key (.arr items)

theorem Occurs.obj_cons {key name : Text} {value : Json} {members : Members} :
    Occurs key (.obj ((name, value) :: members)) ↔
      key = name ∨ Occurs key value ∨ Occurs key (.obj members) := by
  constructor
  · intro occurs
    cases occurs with
    | here member =>
        rcases List.mem_cons.mp member with same | later
        · exact .inl same
        · exact .inr (.inr (.here later))
    | value member below =>
        rcases List.mem_cons.mp member with same | later
        · obtain ⟨rfl, rfl⟩ := Prod.mk.inj same
          exact .inr (.inl below)
        · exact .inr (.inr (.value later below))
  · rintro (rfl | below | later)
    · exact .here (List.mem_cons_self ..)
    · exact .value (List.mem_cons_self ..) below
    · cases later with
      | here member => exact .here (List.mem_cons_of_mem _ member)
      | value member below => exact .value (List.mem_cons_of_mem _ member) below

theorem Occurs.arr_cons {key : Text} {item : Json} {items : List Json} :
    Occurs key (.arr (item :: items)) ↔ Occurs key item ∨ Occurs key (.arr items) := by
  constructor
  · intro occurs
    cases occurs with
    | item member below =>
        rcases List.mem_cons.mp member with rfl | later
        · exact .inl below
        · exact .inr (.item later below)
  · rintro (below | later)
    · exact .item (List.mem_cons_self ..) below
    · cases later with
      | item member below => exact .item (List.mem_cons_of_mem _ member) below

/-- A value with a name that is refused. -/
def HasRefused (value : Json) : Prop := ∃ key, Occurs key value ∧ isRefusedName key = true

theorem hasRefused_obj_cons {name : Text} {value : Json} {members : Members} :
    HasRefused (.obj ((name, value) :: members)) ↔
      isRefusedName name = true ∨ HasRefused value ∨ HasRefused (.obj members) := by
  simp only [HasRefused, Occurs.obj_cons, or_and_right, exists_or, exists_eq_left]

theorem hasRefused_arr_cons {item : Json} {items : List Json} :
    HasRefused (.arr (item :: items)) ↔ HasRefused item ∨ HasRefused (.arr items) := by
  simp only [HasRefused, Occurs.arr_cons, or_and_right, exists_or]

mutual

/-- **The validation fails for a name at any depth**, and for nothing else. -/
theorem refusedField_isSome_iff : ∀ (value : Json) (path : Text),
    (refusedField path value).isSome ↔ HasRefused value
  | .obj members, path => by
      rw [refusedField]
      exact refusedMember_isSome_iff members path
  | .arr items, path => by
      rw [refusedField]
      exact refusedItem_isSome_iff items path 0
  | .null, path | .bool value, path | .int value, path | .float literal, path | .str value, path => by
      refine iff_of_false Bool.false_ne_true ?_
      rintro ⟨key, occurs, -⟩
      cases occurs

theorem refusedMember_isSome_iff : ∀ (members : Members) (path : Text),
    (refusedMember path members).isSome ↔ HasRefused (.obj members)
  | [], path => by
      refine iff_of_false Bool.false_ne_true ?_
      rintro ⟨key, occurs, -⟩
      cases occurs with
      | here member | value member below => cases member
  | (name, value) :: members, path => by
      rw [refusedMember, hasRefused_obj_cons, ← refusedMember_isSome_iff members path,
        ← refusedField_isSome_iff value (path ++ 46 :: name)]
      by_cases refused : isRefusedName name = true
      · rw [if_pos refused]
        exact iff_of_true rfl (.inl refused)
      · rw [if_neg refused, Option.isSome_or, Bool.or_eq_true]
        exact (or_iff_right refused).symm

theorem refusedItem_isSome_iff : ∀ (items : List Json) (path : Text) (index : Nat),
    (refusedItem path index items).isSome ↔ HasRefused (.arr items)
  | [], path, index => by
      refine iff_of_false Bool.false_ne_true ?_
      rintro ⟨key, occurs, -⟩
      cases occurs with
      | item member below => cases member
  | item :: items, path, index => by
      rw [refusedItem, hasRefused_arr_cons, ← refusedItem_isSome_iff items path (index + 1),
        ← refusedField_isSome_iff item (path ++ 91 :: Json.natText index ++ [93]),
        Option.isSome_or, Bool.or_eq_true]

end

/-- The request is refused. -/
def Refused (values : Members) : Prop :=
  ∃ field, validateExtraVars values = .error (.refusedExtraVar field)

variable {values : Members}

theorem refused_iff : Refused values ↔ HasRefused (.obj values) := by
  rw [← refusedField_isSome_iff (.obj values) (text "extraVars"), Refused, validateExtraVars]
  cases refusedField (text "extraVars") (.obj values) with
  | none => exact iff_of_false (fun ⟨_, same⟩ => by cases same) Bool.false_ne_true
  | some field => exact iff_of_true ⟨field, rfl⟩ rfl

/-! ## Every spelling -/

/-- A key with the name that only `_sanitize` knows. -/
def Missed (key : Text) : Prop :=
  text "privatekey" <:+: key.casefold ∧ isRefusedName key = false

/-- A token without a hyphen is found as well when hyphens are read as underscores. -/
theorem infix_replaceChar {token s : Text} (plain : 45 ∉ token) (inside : token <:+: s) :
    token <:+: Text.replaceChar 45 95 s := by
  have image := inside.map fun c => if c = 45 then 95 else c
  have same : Text.replaceChar 45 95 token = token := Text.replaceChar_of_not_mem plain
  rw [Text.replaceChar] at same
  rwa [same] at image

theorem isRefusedName_of_token {token key : Text} (member : token ∈ secretTokens)
    (inside : token <:+: key.casefold) : isRefusedName key = true := by
  have plain : ∀ token ∈ secretTokens, 45 ∉ token := by decide
  have found := infix_replaceChar (plain token member) inside
  rw [isRefusedName, Bool.or_eq_true]
  exact .inr (List.any_eq_true.mpr ⟨token, member, decide_eq_true found⟩)

/-- **The keys that are redacted and not refused** have the one name that is missed. -/
theorem missed_iff {key : Text} :
    Missed key ↔ isSensitiveKey key = true ∧ isRefusedName key = false := by
  constructor
  · rintro ⟨inside, accepted⟩
    refine ⟨List.any_eq_true.mpr ⟨text "privatekey", by decide, decide_eq_true inside⟩, accepted⟩
  · rintro ⟨sensitive, accepted⟩
    obtain ⟨token, member, found⟩ := List.any_eq_true.mp sensitive
    have inside := of_decide_eq_true found
    have shared : ∀ token ∈ sensitiveKeys, token ∈ secretTokens ∨ token = text "privatekey" := by
      decide
    rcases shared token member with known | rfl
    · rw [isRefusedName_of_token known inside] at accepted
      cases accepted
    · exact ⟨inside, accepted⟩

/-! ## A tree -/

/-- The two tests agree on a tree: what one of them takes for a secret, the other refuses. -/
def TestsAgree (values : Members) : Prop :=
  ∀ key, isSensitiveKey key = true → Occurs key (.obj values) → Refused values

/-- No key of the tree is missed, or another one gives it away. -/
def NothingMissed (values : Members) : Prop :=
  (∃ key, Occurs key (.obj values) ∧ Missed key) → HasRefused (.obj values)

/-- **On which trees the two tests agree.** -/
theorem testsAgree_iff : TestsAgree values ↔ NothingMissed values := by
  constructor
  · rintro agrees ⟨key, occurs, missed⟩
    exact refused_iff.mp (agrees key (missed_iff.mp missed).1 occurs)
  · intro nothing key sensitive occurs
    refine refused_iff.mpr ?_
    by_cases refused : isRefusedName key = true
    · exact ⟨key, occurs, refused⟩
    · exact nothing ⟨key, occurs, missed_iff.mpr ⟨sensitive, Bool.not_eq_true _ ▸ refused⟩⟩

/-- What has been accepted has no sensitive key, just when the tests agree on it. -/
theorem nothingMissed_of_accepted {done : Unit} (accepted : validateExtraVars values = .ok done) :
    (∀ key, isSensitiveKey key = true → ¬ Occurs key (.obj values)) ↔ NothingMissed values := by
  have notRefused : ¬ Refused values := by
    rintro ⟨field, refused⟩
    cases accepted.symm.trans refused
  rw [← testsAgree_iff]
  constructor
  · exact fun none key sensitive occurs => absurd occurs (none key sensitive)
  · exact fun agrees key sensitive occurs => notRefused (agrees key sensitive occurs)

end OpsComposer.RunSpecs
