import OpsComposer.Services.PlaybookProject

/-!
# Normal paths

An accepted path is brought into a normal form by dropping its empty components
and its dots.  The normal form has the same components, so it is accepted in its
turn and is its own normal form, with one exception: the name of the manifest is
only forbidden to raw paths, and a raw path that is written differently may have
it for its normal form (`pathOk_asPosix`).
-/

set_option autoImplicit false

namespace OpsComposer.Services.PlaybookProject

open Foundations

/-! ## Components -/

variable {raw : Text}

theorem mem_parts {part : Text} :
    part ∈ parts raw ↔ part ∈ raw.split slash ∧ part ≠ [] ∧ part ≠ text "." := by
  simp [parts]

theorem slash_not_mem_part {part : Text} (member : part ∈ parts raw) : slash ∉ part :=
  Text.not_mem_split (mem_parts.mp member).1

/-- The components of a joined path are the ones it was joined from. -/
theorem parts_join {components : List Text} (nonempty : components ≠ [])
    (clean : ∀ part ∈ components, slash ∉ part ∧ part ≠ [] ∧ part ≠ text ".") :
    parts (Text.join slash components) = components := by
  rw [parts, Text.split_join (fun part member => (clean part member).1) nonempty]
  refine List.filter_eq_self.mpr fun part member => ?_
  simpa using (clean part member).2

theorem parts_asPosix (some : parts raw ≠ []) : parts (asPosix raw) = parts raw := by
  rw [asPosix, if_neg some]
  refine parts_join some fun part member => ?_
  exact ⟨slash_not_mem_part member, (mem_parts.mp member).2⟩

/-- **A normal form is its own normal form.** -/
theorem asPosix_asPosix (some : parts raw ≠ []) : asPosix (asPosix raw) = asPosix raw := by
  conv_lhs => rw [asPosix, parts_asPosix some]
  rw [asPosix]

/-- A character of a normal form is one of the raw path. -/
theorem mem_of_mem_asPosix (some : parts raw ≠ []) {c : Nat}
    (member : c ∈ asPosix raw) : c = slash ∨ c ∈ raw := by
  rw [asPosix, if_neg some] at member
  rcases Text.mem_join member with same | ⟨part, there, inside⟩
  · exact .inl same
  · refine .inr ?_
    rw [← Text.join_split slash raw]
    exact Text.mem_join_of_mem (mem_parts.mp there).1 inside

theorem length_asPosix_le (some : parts raw ≠ []) : (asPosix raw).length ≤ raw.length := by
  rw [asPosix, if_neg some]
  conv_rhs => rw [← Text.join_split slash raw]
  exact Text.length_join_le_of_sublist List.filter_sublist

/-- A normal form begins with its first component. -/
theorem not_isAbsolute_asPosix (some : parts raw ≠ []) :
    isAbsolute (asPosix raw) = false ∧ asPosix raw ≠ [] := by
  rw [asPosix, if_neg some]
  cases components : parts raw with
  | nil => exact absurd components some
  | cons part rest =>
      have first : part ∈ parts raw := by
        rw [components]
        exact List.mem_cons_self ..
      have clean := slash_not_mem_part first
      cases part with
      | nil => exact absurd rfl (mem_parts.mp first).2.1
      | cons c part =>
          simp only [List.mem_cons, not_or] at clean
          by_cases last : rest = []
          · subst last
            simp [isAbsolute, Ne.symm clean.1]
          · rw [Text.join_cons slash _ last]
            simp [isAbsolute, Ne.symm clean.1]

/-! ## Accepted paths -/

/-- What `normalize_project_path` demands of a raw path. -/
structure PathOk (raw : Text) : Prop where
  nonempty : raw ≠ []
  short : raw.length ≤ maxProjectPathLength
  noBackslash : 92 ∉ raw
  noControl : ¬ HasControl raw
  relative : isAbsolute raw = false
  somePart : parts raw ≠ []
  shallow : (parts raw).length ≤ maxProjectDepth
  plain : ∀ part ∈ parts raw, part ≠ text ".." ∧ part.strip = part
  allowed : ¬ ForbiddenPath raw

/-- **`normalize_project_path`** accepts the paths that are in order, and returns
their normal form. -/
theorem normalizeProjectPath_eq_ok {path : Text} :
    normalizeProjectPath raw = .ok path ↔ PathOk raw ∧ path = asPosix raw := by
  unfold normalizeProjectPath
  constructor
  · intro accepted
    split at accepted
    · cases accepted
    rename_i wellFormed
    split at accepted
    · cases accepted
    rename_i shaped
    split at accepted
    · cases accepted
    rename_i plain
    split at accepted
    · cases accepted
    rename_i allowed
    simp only [not_or, Nat.not_lt] at wellFormed shaped
    obtain ⟨nonempty, short, noBackslash, noControl⟩ := wellFormed
    obtain ⟨relative, somePart, shallow⟩ := shaped
    refine ⟨⟨nonempty, short, noBackslash, noControl, by simpa using relative, somePart, shallow,
      ?_, allowed⟩, (Except.ok.inj accepted).symm⟩
    intro part member
    by_contra wrong
    refine plain ⟨part, member, ?_⟩
    rcases not_and_or.mp wrong with up | spaced
    · exact .inr (.inr (.inl (not_not.mp up)))
    · exact .inr (.inr (.inr spaced))
  · rintro ⟨ok, rfl⟩
    rw [if_neg, if_neg, if_neg, if_neg ok.allowed]
    · rintro ⟨part, member, empty | here | up | spaced⟩
      · exact (mem_parts.mp member).2.1 empty
      · exact (mem_parts.mp member).2.2 here
      · exact (ok.plain part member).1 up
      · exact spaced (ok.plain part member).2
    · simp only [not_or, Nat.not_lt]
      exact ⟨by simp [ok.relative], ok.somePart, ok.shallow⟩
    · simp only [not_or, Nat.not_lt]
      exact ⟨ok.nonempty, ok.short, ok.noBackslash, ok.noControl⟩

/-- The raw path or its normal form is the reserved name. -/
abbrev IsManifest (path : Text) : Prop := path.casefold = projectManifest.casefold

/-- **The normal form of an accepted path is accepted**, unless it is the name of
the manifest. -/
theorem pathOk_asPosix (ok : PathOk raw) : PathOk (asPosix raw) ↔ ¬ IsManifest (asPosix raw) := by
  have same := parts_asPosix ok.somePart
  constructor
  · intro again manifest
    exact again.allowed (.inl manifest)
  · intro notManifest
    refine ⟨(not_isAbsolute_asPosix ok.somePart).2,
      (length_asPosix_le ok.somePart).trans ok.short, ?_, ?_, (not_isAbsolute_asPosix ok.somePart).1,
      by rw [same]; exact ok.somePart, by rw [same]; exact ok.shallow,
      by rw [same]; exact ok.plain, ?_⟩
    · intro member
      rcases mem_of_mem_asPosix ok.somePart member with isSlash | inside
      · cases isSlash
      · exact ok.noBackslash inside
    · rintro ⟨c, member, control⟩
      rcases mem_of_mem_asPosix ok.somePart member with rfl | inside
      · rcases control with low | del
        · exact absurd low (by decide)
        · exact absurd del (by decide)
      · exact ok.noControl ⟨c, inside, control⟩
    · rintro (manifest | others)
      · exact notManifest manifest
      · rw [same] at others
        exact ok.allowed (.inr others)

/-! ## Suffixes -/

/-- What follows the last dot. -/
theorem takeWhile_reverse_append {stem tail : Text} (clean : dot ∉ tail) :
    ((stem ++ dot :: tail).reverse.takeWhile (· ≠ dot)).reverse = tail := by
  have all : ∀ c ∈ tail.reverse, decide (c ≠ dot) = true := by
    intro c member
    simp only [decide_eq_true_eq]
    rintro rfl
    exact clean (List.mem_reverse.mp member)
  rw [List.reverse_append, List.reverse_cons, List.append_assoc,
    List.takeWhile_append_of_pos all, List.singleton_append,
    List.takeWhile_cons_of_neg (by simp), List.append_nil, List.reverse_reverse]

theorem suffixOf_append {stem tail : Text} (clean : dot ∉ tail) :
    suffixOf (stem ++ dot :: tail) = if tail ≠ [] ∧ stem ≠ [] then dot :: tail else [] := by
  have marked : dot ∈ stem ++ dot :: tail := by simp
  have long : tail.length + 1 < (stem ++ dot :: tail).length ↔ stem ≠ [] := by
    rw [List.length_append, List.length_cons, ← List.length_pos_iff]
    omega
  simp only [suffixOf, takeWhile_reverse_append clean, marked, long, true_and]

theorem suffixOf_of_not_mem {name : Text} (absent : dot ∉ name) : suffixOf name = [] := by
  simp [suffixOf, absent]

/-- A name with a dot, taken apart at its last one. -/
theorem exists_eq_stem_append {name : Text} (marked : dot ∈ name) :
    ∃ stem tail, name = stem ++ dot :: tail ∧ dot ∉ tail := by
  obtain ⟨before, after, split, clean⟩ :=
    List.eq_append_cons_of_mem (List.mem_reverse.mpr marked)
  refine ⟨after.reverse, before.reverse, ?_, by simpa using clean⟩
  rw [← List.reverse_reverse name, split]
  simp

/-- **Folding a name folds its suffix**, since only dots fold to dots. -/
theorem casefold_suffixOf (name : Text) : (suffixOf name).casefold = suffixOf name.casefold := by
  have low : dot < 65 := by decide
  by_cases marked : dot ∈ name
  · obtain ⟨stem, tail, rfl, clean⟩ := exists_eq_stem_append marked
    have folded : dot ∉ Text.casefold tail := by rwa [Text.mem_casefold low]
    rw [suffixOf_append clean, Text.casefold_append, Text.casefold_cons, Text.foldChar_low low,
      List.singleton_append, suffixOf_append folded]
    simp only [ne_eq, Text.casefold_eq_nil]
    split
    · rw [Text.casefold_cons, Text.foldChar_low low, List.singleton_append]
    · rfl
  · have folded : dot ∉ name.casefold := by rwa [Text.mem_casefold low]
    rw [suffixOf_of_not_mem marked, suffixOf_of_not_mem folded, Text.casefold_nil]

/-- Normal paths that fold alike have suffixes that fold alike. -/
theorem casefold_suffix {path other : Text} (somePath : parts path ≠ [])
    (someOther : parts other ≠ []) (pathNormal : asPosix path = path)
    (otherNormal : asPosix other = other) (same : path.casefold = other.casefold) :
    (suffix path).casefold = (suffix other).casefold := by
  have joined : Text.casefold (Text.join slash (parts path)) =
      Text.casefold (Text.join slash (parts other)) := by
    rw [asPosix, if_neg somePath] at pathNormal
    rw [asPosix, if_neg someOther] at otherNormal
    rw [pathNormal, otherNormal, same]
  have folded : (parts path).map Text.casefold = (parts other).map Text.casefold :=
    Text.map_casefold_of_join (by decide) (fun _ => slash_not_mem_part)
      (fun _ => slash_not_mem_part) somePath someOther joined
  have last := congrArg List.getLast? folded
  rw [List.getLast?_map, List.getLast?_map] at last
  rw [suffix, suffix, casefold_suffixOf, casefold_suffixOf]
  cases pathLast : (parts path).getLast? <;> cases otherLast : (parts other).getLast? <;>
    rw [pathLast, otherLast] at last <;> simp_all

end OpsComposer.Services.PlaybookProject
