import OpsComposer.Foundations.JsonValues

/-!
# Dicts under assignment

A dict of Python keeps its keys in the order in which they came.  An assignment to a key that
is there leaves the key where it is; another one adds the key at the end.

* `Json.set` — `dict[key] = value`;
* `Json.merge` — `{**dict, **others}`, and `dict.update(others)`;
* `Json.pop` and `Json.setDefault` — `dict.pop(key, None)` and `dict.setdefault(key, value)`;
* `Json.sortedBy_eq_iff` — the sorted names of two sets of keys are the same list.
-/

set_option autoImplicit false

namespace OpsComposer.Foundations

namespace Json

section Assignment

variable {α : Type}

/-- `dict[key] = value`. -/
def set : List (Text × α) → Text → α → List (Text × α)
  | [], key, value => [(key, value)]
  | member :: members, key, value =>
      if member.1 = key then (key, value) :: members else member :: set members key value

/-- `{**dict, **others}`. -/
def merge (members others : List (Text × α)) : List (Text × α) :=
  others.foldl (fun merged member => set merged member.1 member.2) members

/-- `dict.pop(key, None)`. -/
def pop (members : List (Text × α)) (key : Text) : List (Text × α) :=
  members.filter fun member => member.1 ≠ key

/-- `dict.setdefault(key, value)`. -/
def setDefault (members : List (Text × α)) (key : Text) (value : α) : List (Text × α) :=
  if key ∈ keys members then members else set members key value

variable {members others : List (Text × α)} {key name : Text} {value : α}

variable {member : Text × α} {P : Text × α → Prop}

theorem lookup_cons :
    (member :: members).lookup name = if name = member.1 then some member.2
      else members.lookup name := by
  rw [List.lookup_cons]
  by_cases same : name = member.1
  · rw [if_pos same, beq_iff_eq.mpr same]
  · rw [if_neg same, beq_eq_false_iff_ne.mpr same]

theorem keys_set : keys (set members key value) =
    if key ∈ keys members then keys members else keys members ++ [key] := by
  induction members with
  | nil => rfl
  | cons member members ih =>
      rw [set]
      by_cases here : member.1 = key
      · simp [here]
      · have apart : key ≠ member.1 := Ne.symm here
        have split : keys (member :: set members key value) =
            member.1 :: keys (set members key value) := rfl
        rw [if_neg here, split, ih]
        by_cases later : key ∈ keys members
        · simp [later]
        · simp [later, apart]

theorem mem_keys_set : name ∈ keys (set members key value) ↔ name = key ∨ name ∈ keys members := by
  rw [keys_set]
  by_cases there : key ∈ keys members
  · rw [if_pos there]
    refine ⟨.inr, fun either => either.elim ?_ id⟩
    rintro rfl
    exact there
  · rw [if_neg there, List.mem_append, List.mem_singleton, or_comm]

theorem nodup_set (distinct : (keys members).Nodup) : (keys (set members key value)).Nodup := by
  rw [keys_set]
  by_cases there : key ∈ keys members
  · rwa [if_pos there]
  · rw [if_neg there]
    refine List.nodup_append.mpr ⟨distinct, List.nodup_singleton key, ?_⟩
    rintro other inside _ same rfl
    exact there (List.mem_singleton.mp same ▸ inside)

theorem lookup_set : (set members key value).lookup name =
    if name = key then some value else members.lookup name := by
  induction members with
  | nil => exact lookup_cons
  | cons member members ih =>
      rw [set]
      by_cases here : member.1 = key
      · rw [if_pos here, lookup_cons, lookup_cons, here]
        by_cases same : name = key
        · rw [if_pos same, if_pos same]
        · rw [if_neg same, if_neg same, if_neg same]
      · rw [if_neg here, lookup_cons, lookup_cons, ih]
        by_cases first : name = member.1
        · have apart : name ≠ key := fun same => here (first.symm.trans same)
          rw [if_pos first, if_neg apart, if_pos first]
        · rw [if_neg first, if_neg first]

/-- Assigning the value that a key has changes nothing. -/
theorem set_of_lookup (found : members.lookup key = some value) :
    set members key value = members := by
  induction members with
  | nil => cases found
  | cons member members ih =>
      rw [lookup_cons] at found
      rw [set]
      by_cases here : member.1 = key
      · rw [if_pos here.symm] at found
        obtain rfl := Option.some.inj found
        rw [if_pos here, ← here]
      · rw [if_neg (Ne.symm here)] at found
        rw [if_neg here, ih found]

theorem lookup_pop : (pop members key).lookup name =
    if name = key then none else members.lookup name := by
  induction members with
  | nil => rw [pop, List.filter_nil, List.lookup_nil, ite_self]
  | cons member members ih =>
      rw [pop, List.filter_cons]
      by_cases here : member.1 = key
      · rw [if_neg (by simpa using here), lookup_cons, here]
        rw [pop] at ih
        rw [ih]
        by_cases same : name = key
        · rw [if_pos same, if_pos same]
        · rw [if_neg same, if_neg same, if_neg same]
      · rw [if_pos (by simpa using here), lookup_cons, lookup_cons]
        rw [pop] at ih
        rw [ih]
        by_cases first : name = member.1
        · have apart : name ≠ key := fun same => here (first.symm.trans same)
          rw [if_pos first, if_neg apart, if_pos first]
        · rw [if_neg first, if_neg first]

/-- A default leaves what another key has. -/
theorem lookup_setDefault (apart : name ≠ key) :
    (setDefault members key value).lookup name = members.lookup name := by
  rw [setDefault]
  split
  · rfl
  · rw [lookup_set, if_neg apart]

@[simp] theorem merge_nil : merge members [] = members := rfl

theorem merge_cons :
    merge members (member :: others) = merge (set members member.1 member.2) others := rfl

theorem nodup_merge (distinct : (keys members).Nodup) : (keys (merge members others)).Nodup := by
  induction others generalizing members with
  | nil => exact distinct
  | cons member others ih => exact ih (nodup_set distinct)

theorem mem_keys_merge :
    name ∈ keys (merge members others) ↔ name ∈ keys members ∨ name ∈ keys others := by
  induction others generalizing members with
  | nil => simp
  | cons member others ih =>
      have split : name ∈ keys (member :: others) ↔ name = member.1 ∨ name ∈ keys others :=
        List.mem_cons
      rw [merge_cons, ih, mem_keys_set, split, or_assoc, or_left_comm]

theorem set_of_not_mem (absent : key ∉ keys members) :
    set members key value = members ++ [(key, value)] := by
  induction members with
  | nil => rfl
  | cons member members ih =>
      obtain ⟨apart, absent⟩ : key ≠ member.1 ∧ key ∉ keys members :=
        not_or.mp fun either => absent (List.mem_cons.mpr either)
      rw [set, if_neg (Ne.symm apart), ih absent]
      rfl

/-- Dicts without a common key are merged to one after the other. -/
theorem merge_of_nodup (distinct : (keys (members ++ others)).Nodup) :
    merge members others = members ++ others := by
  induction others generalizing members with
  | nil => exact (List.append_nil members).symm
  | cons member others ih =>
      have split : keys (members ++ member :: others) =
          keys members ++ member.1 :: keys others := by simp [keys]
      have absent : member.1 ∉ keys members := by
        intro there
        rw [split] at distinct
        exact (List.nodup_append.mp distinct).2.2 _ there _ List.mem_cons_self rfl
      have same : members ++ member :: others = members ++ [(member.1, member.2)] ++ others := by
        simp
      rw [merge_cons, set_of_not_mem absent, same]
      exact ih (same ▸ distinct)

/-- What is looked up in the merged dict is what the second one has, if it has any. -/
theorem lookup_merge (distinct : (keys others).Nodup) :
    (merge members others).lookup name = (others.lookup name).or (members.lookup name) := by
  induction others generalizing members with
  | nil => rfl
  | cons member others ih =>
      obtain ⟨fresh, distinct⟩ := List.nodup_cons.mp distinct
      rw [merge_cons, ih distinct, lookup_set, lookup_cons]
      by_cases here : name = member.1
      · have absent : others.lookup name = none := by
          rw [here]
          exact lookup_eq_none.mpr fresh
        rw [absent, if_pos here, if_pos here]
        rfl
      · rw [if_neg here, if_neg here]

/-- The values of a dict after an assignment. -/
theorem mem_set {other : α} (distinct : (keys members).Nodup) :
    (name, other) ∈ set members key value ↔
      name = key ∧ other = value ∨ name ≠ key ∧ (name, other) ∈ members := by
  rw [← lookup_eq_some (nodup_set distinct), lookup_set]
  by_cases here : name = key
  · rw [if_pos here, Option.some.injEq]
    simp only [here, ne_eq, not_true_eq_false, false_and, or_false, true_and]
    exact eq_comm
  · rw [if_neg here, lookup_eq_some distinct]
    simp only [here, ne_eq, not_false_eq_true, false_and, false_or, true_and]

/-- The values of a dict that is filled in order: the last one of every key. -/
theorem mem_merge (distinct : (keys members).Nodup) :
    (name, value) ∈ merge members others ↔
      (∃ before after, others = before ++ (name, value) :: after ∧ name ∉ keys after) ∨
        name ∉ keys others ∧ (name, value) ∈ members := by
  induction others generalizing members with
  | nil => simp [keys]
  | cons member others ih =>
      rw [merge_cons, ih (nodup_set distinct), mem_set distinct]
      have split : name ∈ keys (member :: others) ↔ name = member.1 ∨ name ∈ keys others :=
        List.mem_cons
      rw [split, not_or]
      constructor
      · rintro (⟨before, after, rfl, last⟩ | ⟨last, ⟨rfl, rfl⟩ | ⟨other, there⟩⟩)
        · exact .inl ⟨member :: before, after, rfl, last⟩
        · exact .inl ⟨[], others, rfl, last⟩
        · exact .inr ⟨⟨other, last⟩, there⟩
      · rintro (⟨before, after, same, last⟩ | ⟨⟨other, last⟩, there⟩)
        · cases before with
          | nil =>
              obtain ⟨rfl, rfl⟩ := List.cons.inj same
              exact .inr ⟨last, .inl ⟨rfl, rfl⟩⟩
          | cons first before =>
              obtain ⟨rfl, rfl⟩ := List.cons.inj same
              exact .inl ⟨before, after, rfl, last⟩
        · exact .inr ⟨last, .inr ⟨other, there⟩⟩

/-- What holds of the members and of an assignment holds after it. -/
theorem forall_set (all : ∀ member ∈ members, P member)
    (assigned : P (key, value)) : ∀ member ∈ set members key value, P member := by
  induction members with
  | nil => exact List.forall_mem_singleton.mpr assigned
  | cons member members ih =>
      obtain ⟨first, rest⟩ := List.forall_mem_cons.mp all
      rw [set]
      split
      · exact List.forall_mem_cons.mpr ⟨assigned, rest⟩
      · exact List.forall_mem_cons.mpr ⟨first, ih rest⟩

theorem forall_merge (all : ∀ member ∈ members, P member)
    (assigned : ∀ member ∈ others, P member) : ∀ member ∈ merge members others, P member := by
  induction others generalizing members with
  | nil => exact all
  | cons member others ih =>
      obtain ⟨first, rest⟩ := List.forall_mem_cons.mp assigned
      exact ih (forall_set all first) rest

theorem merge_append {more : List (Text × α)} :
    merge members (others ++ more) = merge (merge members others) more := List.foldl_append

/-! ## Dicts that are filled from nothing -/

/-- What holds of every assignment that no later one has overwritten. -/
def ForLast (P : Text × α → Prop) (later : List Text) : List (Text × α) → Prop
  | [] => True
  | member :: members => (member.1 ∈ keys members ++ later ∨ P member) ∧ ForLast P later members

theorem forall_mem_merge_cons :
    (∀ other ∈ merge [] (member :: members), P other) ↔
      (member.1 ∈ keys members ∨ P member) ∧ ∀ other ∈ merge [] members, P other := by
  have distinct : (keys ([] : List (Text × α))).Nodup := List.nodup_nil
  constructor
  · intro all
    refine ⟨?_, fun other there => all other ?_⟩
    · by_cases later : member.1 ∈ keys members
      · exact .inl later
      · exact .inr (all member ((mem_merge distinct).mpr (.inl ⟨[], members, rfl, later⟩)))
    · rcases (mem_merge distinct).mp there with ⟨before, after, rfl, last⟩ | ⟨-, absurd⟩
      · exact (mem_merge distinct).mpr (.inl ⟨member :: before, after, rfl, last⟩)
      · cases absurd
  · rintro ⟨first, rest⟩ other there
    rcases (mem_merge distinct).mp there with ⟨before, after, same, last⟩ | ⟨-, absurd⟩
    · cases before with
      | nil =>
          obtain ⟨rfl, rfl⟩ := List.cons.inj same
          exact first.resolve_left last
      | cons _ before =>
          obtain ⟨rfl, rfl⟩ := List.cons.inj same
          exact rest other ((mem_merge distinct).mpr (.inl ⟨before, after, rfl, last⟩))
    · cases absurd

/-- The members of a dict that is filled from nothing. -/
theorem forall_mem_merge_append :
    (∀ member ∈ merge [] (members ++ others), P member) ↔
      ForLast P (keys others) members ∧ ∀ member ∈ merge [] others, P member := by
  induction members with
  | nil => exact (and_iff_right trivial).symm
  | cons member members ih =>
      rw [List.cons_append, forall_mem_merge_cons, ih, keys, List.map_append, ForLast, and_assoc]

theorem forLast_of_nodup {later : List Text} (distinct : (keys members ++ later).Nodup) :
    ForLast P later members ↔ ∀ member ∈ members, P member := by
  induction members with
  | nil => exact iff_of_true trivial fun member there => absurd there List.not_mem_nil
  | cons member members ih =>
      obtain ⟨fresh, rest⟩ : member.1 ∉ keys members ++ later ∧ (keys members ++ later).Nodup :=
        List.nodup_cons.mp distinct
      rw [ForLast, ih rest, List.forall_mem_cons, or_iff_right fresh]

theorem nodup_merge_nil : (keys (merge [] members)).Nodup := nodup_merge List.nodup_nil

theorem subperm_keys_merge : (keys (merge [] members)).Subperm (keys members) := by
  refine nodup_merge_nil.subperm fun name there => ?_
  exact (mem_keys_merge.mp there).resolve_left List.not_mem_nil

/-- A dict that is filled from nothing has no more members than there are assignments. -/
theorem length_merge_le : (merge [] members).length ≤ members.length := by
  have short := (subperm_keys_merge : (keys (merge [] members)).Subperm (keys members)).length_le
  rwa [List.length_map, List.length_map] at short

/-- It has as many of them only if no key comes twice. -/
theorem nodup_of_length_merge (same : members.length ≤ (merge [] members).length) :
    (keys members).Nodup := by
  have perm := subperm_keys_merge.perm_of_length_le (by simpa using same)
  exact perm.nodup_iff.mp nodup_merge_nil

/-- As many assignments as there are members give the dict itself only if they are its members. -/
theorem merge_eq_iff (distinct : (keys others).Nodup) (same : members.length = others.length) :
    merge [] members = others ↔ members = others := by
  constructor
  · intro filled
    have nodup := nodup_of_length_merge (by rw [filled, same])
    rw [← filled, merge_of_nodup nodup, List.nil_append]
  · rintro rfl
    rw [merge_of_nodup distinct, List.nil_append]

end Assignment

/-! ## Sorted names -/

/-- Lists of different names with the same members are sorted to the same list. -/
theorem sortedBy_eq_iff {names others : List Text} (distinct : names.Nodup)
    (distinct' : others.Nodup) :
    sortedBy id names = sortedBy id others ↔ ∀ name, name ∈ names ↔ name ∈ others := by
  constructor
  · intro same name
    have perm : (sortedBy id names).Perm names := sortedBy_perm
    have perm' : (sortedBy id others).Perm others := sortedBy_perm
    rw [← perm.mem_iff, same, perm'.mem_iff]
  · intro members
    have perm := (List.perm_ext_iff_of_nodup distinct distinct').mpr members
    refine sortedBy_of_perm (perm.trans sortedBy_perm.symm) sortedBy_pairwise ?_
    rw [List.map_id]
    exact sortedBy_perm.nodup_iff.mpr distinct'

end Json

end OpsComposer.Foundations
