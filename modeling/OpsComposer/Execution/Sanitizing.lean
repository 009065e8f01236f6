import OpsComposer.Services.Redaction

/-!
# What is left of a secret in an event

Every text that goes through `redact_secrets` comes out without the known
secrets, in whatever order the variants are replaced: what is put in stands
between brackets, so that no secret arises from it (`redactSecrets_free`).

Two texts of an event do not go through it: the keys of a mapping, and the
`str()` of a value that is neither a string nor a mapping, a list or a scalar.
A secret is left in an event exactly if it is in one of them (`Leaks`), and if
that one is neither below a sensitive key nor overwritten.

* `Ordinary` — the secrets for which the word `[REDACTED]` gives nothing away;
* `Clean` — a value in which no text has a secret;
* `sanitize_clean_iff` — when `_sanitize` returns one.
-/

set_option autoImplicit false

namespace OpsComposer.Services.Redaction

open Foundations

/-- The brackets of the word that secrets are replaced by. -/
def IsBracket (c : Nat) : Prop := c = 91 ∨ c = 93

/-- What is assumed of the known secrets. -/
structure Ordinary (secret : Text) : Prop where
  nonempty : secret ≠ []
  plain : ∀ c ∈ secret, ¬ IsBracket c
  foreign : ¬ secret <:+: text "REDACTED"

/-- The order in which a set is gone through. -/
def IterationOrder (iterate : List Text → List Text) : Prop :=
  ∀ items, (iterate items).Perm items.dedup

/-- No secret is in the text. -/
def Free (secrets : List Text) (s : Text) : Prop := ∀ secret ∈ secrets, ¬ secret <:+: s

/-- No secret is in a text of the value. -/
def Clean (secrets : List Text) (value : EventValue) : Prop :=
  ∀ s ∈ strings value, Free secrets s

theorem redactedWord_marked : Replacing.Marked IsBracket (text "REDACTED") redactedWord :=
  ⟨91, 93, .inl rfl, .inr rfl, rfl⟩

/-! ## Redacted texts -/

theorem mem_longestFirst {items : List Text} {item : Text} :
    item ∈ longestFirst items ↔ item ∈ items :=
  (List.perm_insertionSort _ _).mem_iff

/-- A secret that is not in a text does not arise when something is replaced in it. -/
theorem redactVariant_free {secret variant s : Text} (ordinary : Ordinary secret)
    (some : variant ≠ []) (absent : ¬ secret <:+: s) : ¬ secret <:+: redactVariant s variant := by
  intro inside
  have step := Replacing.replace_replaces some redactedWord s
  rcases step.occurs_before redactedWord_marked ordinary.plain inside with new | old
  · exact ordinary.foreign new
  · exact absent old

theorem redactVariant_self {secret s : Text} (ordinary : Ordinary secret) :
    ¬ secret <:+: redactVariant s secret :=
  (Replacing.replace_replaces ordinary.nonempty redactedWord s).replaced_gone redactedWord_marked
    ordinary.nonempty ordinary.plain ordinary.foreign

theorem foldl_redactVariant_free {secret : Text} (ordinary : Ordinary secret)
    {order : List Text} (some : ∀ variant ∈ order, variant ≠ []) {s : Text}
    (absent : ¬ secret <:+: s) : ¬ secret <:+: order.foldl redactVariant s := by
  induction order generalizing s with
  | nil => exact absent
  | cons variant order ih =>
      rw [List.forall_mem_cons] at some
      exact ih some.2 (redactVariant_free ordinary some.1 absent)

/-- A secret is gone as soon as it has been replaced itself. -/
theorem foldl_redactVariant_self {secret : Text} (ordinary : Ordinary secret)
    {order : List Text} (some : ∀ variant ∈ order, variant ≠ []) (member : secret ∈ order)
    (s : Text) : ¬ secret <:+: order.foldl redactVariant s := by
  induction order generalizing s with
  | nil => cases member
  | cons variant order ih =>
      rw [List.forall_mem_cons] at some
      rcases List.mem_cons.mp member with rfl | later
      · exact foldl_redactVariant_free ordinary some.2 (redactVariant_self ordinary)
      · exact ih some.2 later _

section Redact

variable {iterate : List Text → List Text}

/-- The variants that are replaced, none of which is empty. -/
theorem redactSecret_eq_some {s secret image : Text}
    (redacted : redactSecret iterate s secret = some image) :
    ∃ all order, variants iterate secret = some all ∧
      order = longestFirst (all.filter (· ≠ [])) ∧ image = order.foldl redactVariant s ∧
        ∀ variant ∈ order, variant ≠ [] := by
  obtain ⟨all, found, same⟩ := Option.bind_eq_some_iff.mp redacted
  refine ⟨all, _, found, rfl, (Option.some.inj same).symm, fun variant member => ?_⟩
  exact of_decide_eq_true (List.mem_filter.mp (mem_longestFirst.mp member)).2

theorem self_mem_variants (order : IterationOrder iterate) {secret : Text} {all : List Text}
    (found : variants iterate secret = some all) : secret ∈ all := by
  obtain ⟨url, -, found⟩ := Option.bind_eq_some_iff.mp found
  obtain ⟨plus, -, same⟩ := Option.bind_eq_some_iff.mp found
  rw [← Option.some.inj same, (order _).mem_iff, List.mem_dedup]
  exact List.mem_cons_self ..

theorem redactSecret_free {s secret other image : Text} (ordinary : Ordinary other)
    (redacted : redactSecret iterate s secret = some image) (absent : ¬ other <:+: s) :
    ¬ other <:+: image := by
  obtain ⟨all, order, -, -, rfl, some⟩ := redactSecret_eq_some redacted
  exact foldl_redactVariant_free ordinary some absent

theorem redactSecret_self (order : IterationOrder iterate) {s secret image : Text}
    (ordinary : Ordinary secret) (redacted : redactSecret iterate s secret = some image) :
    ¬ secret <:+: image := by
  obtain ⟨all, replaced, found, rfl, rfl, some⟩ := redactSecret_eq_some redacted
  refine foldl_redactVariant_self ordinary some (mem_longestFirst.mpr ?_) s
  exact List.mem_filter.mpr
    ⟨self_mem_variants order found, decide_eq_true ordinary.nonempty⟩

theorem foldlM_redactSecret_free {other : Text} (ordinary : Ordinary other) {secrets : List Text}
    {s image : Text} (redacted : secrets.foldlM (redactSecret iterate) s = some image)
    (absent : ¬ other <:+: s) : ¬ other <:+: image := by
  induction secrets generalizing s with
  | nil =>
      obtain rfl := Option.some.inj redacted
      exact absent
  | cons secret secrets ih =>
      rw [List.foldlM_cons] at redacted
      obtain ⟨next, first, rest⟩ := Option.bind_eq_some_iff.mp redacted
      exact ih rest (redactSecret_free ordinary first absent)

theorem foldlM_redactSecret_self (order : IterationOrder iterate) {secrets : List Text}
    {secret : Text} (ordinary : Ordinary secret) (member : secret ∈ secrets) {s image : Text}
    (redacted : secrets.foldlM (redactSecret iterate) s = some image) : ¬ secret <:+: image := by
  induction secrets generalizing s with
  | nil => cases member
  | cons first secrets ih =>
      rw [List.foldlM_cons] at redacted
      obtain ⟨next, here, rest⟩ := Option.bind_eq_some_iff.mp redacted
      rcases List.mem_cons.mp member with rfl | later
      · exact foldlM_redactSecret_free ordinary rest (redactSecret_self order ordinary here)
      · exact ih later rest

/-- **A redacted text is free of the known secrets.** -/
theorem redactSecrets_free (order : IterationOrder iterate) {secrets : List Text}
    (ordinary : ∀ secret ∈ secrets, Ordinary secret) {value image : Text}
    (redacted : redactSecrets iterate value secrets = some image) : Free secrets image := by
  intro secret member
  refine foldlM_redactSecret_self order (ordinary secret member) ?_ redacted
  exact mem_longestFirst.mpr
    (List.mem_filter.mpr ⟨member, decide_eq_true (ordinary secret member).nonempty⟩)

end Redact

/-! ## Events -/

/-- **A secret is left** in a key, or in the form of a value of another type, that
is neither below a sensitive key nor overwritten by a later item. -/
inductive Leaks (secrets : List Text) : EventValue → Prop
  | other {form : Text} (exposed : ¬ Free secrets form) : Leaks secrets (.other form)
  | key {items : List (Text × EventValue)} {key : Text} (member : key ∈ Json.keys items)
      (exposed : ¬ Free secrets key) : Leaks secrets (.dict items)
  | value {before after : List (Text × EventValue)} {key : Text} {item : EventValue}
      (isPublic : isSensitiveKey key = false) (last : key ∉ Json.keys after)
      (below : Leaks secrets item) : Leaks secrets (.dict (before ++ (key, item) :: after))
  | item {items : List EventValue} {item : EventValue} (member : item ∈ items)
      (below : Leaks secrets item) : Leaks secrets (.list items)

theorem mem_stringsOfItems {items : List (Text × EventValue)} {s : Text} :
    s ∈ stringsOfItems items ↔
      s ∈ Json.keys items ∨ ∃ key item, (key, item) ∈ items ∧ s ∈ strings item := by
  induction items with
  | nil => simp [stringsOfItems, Json.keys]
  | cons pair items ih =>
      obtain ⟨key, item⟩ := pair
      have split : s ∈ Json.keys ((key, item) :: items) ↔ s = key ∨ s ∈ Json.keys items :=
        List.mem_cons
      rw [stringsOfItems, List.mem_cons, List.mem_append, ih, split]
      constructor
      · rintro (same | here | there | ⟨key', item', member, inside⟩)
        · exact .inl (.inl same)
        · exact .inr ⟨key, item, List.mem_cons_self .., here⟩
        · exact .inl (.inr there)
        · exact .inr ⟨key', item', List.mem_cons_of_mem _ member, inside⟩
      · rintro ((same | there) | ⟨key', item', member, inside⟩)
        · exact .inl same
        · exact .inr (.inr (.inl there))
        · rcases List.mem_cons.mp member with same | later
          · obtain ⟨rfl, rfl⟩ := Prod.mk.inj same
            exact .inr (.inl inside)
          · exact .inr (.inr (.inr ⟨key', item', later, inside⟩))

theorem mem_stringsOfAll {items : List EventValue} {s : Text} :
    s ∈ stringsOfAll items ↔ ∃ item ∈ items, s ∈ strings item := by
  induction items with
  | nil => simp [stringsOfAll]
  | cons item items ih => simp [stringsOfAll, ih]

section Sanitize

variable {iterate : List Text → List Text} {secrets : List Text}

/-- What an item of a dict becomes. -/
def ItemImage (iterate : List Text → List Text) (secrets : List Text)
    (item image : Text × EventValue) : Prop :=
  image.1 = item.1 ∧
    (if isSensitiveKey item.1 then some (.str redactedWord)
      else sanitize iterate secrets item.2) = some image.2

theorem sanitizeItems_eq_some {items images : List (Text × EventValue)} :
    sanitizeItems iterate secrets items = some images ↔
      List.Forall₂ (ItemImage iterate secrets) items images := by
  induction items generalizing images with
  | nil =>
      rw [sanitizeItems, List.forall₂_nil_left_iff, Option.some.injEq]
      exact eq_comm
  | cons pair items ih =>
      obtain ⟨key, item⟩ := pair
      rw [sanitizeItems, List.forall₂_cons_left_iff]
      simp only [Option.bind_eq_bind, Option.bind_eq_some_iff]
      constructor
      · rintro ⟨image, first, rest, later, same⟩
        exact ⟨(key, image), rest, ⟨rfl, first⟩, ih.mp later, (Option.some.inj same).symm⟩
      · rintro ⟨⟨key', image⟩, rest, ⟨sameKey, first⟩, later, rfl⟩
        obtain rfl : key' = key := sameKey
        exact ⟨image, first, rest, ih.mpr later, rfl⟩

theorem sanitizeAll_eq_some {items images : List EventValue} :
    sanitizeAll iterate secrets items = some images ↔
      List.Forall₂ (fun item image => sanitize iterate secrets item = some image) items images := by
  induction items generalizing images with
  | nil =>
      rw [sanitizeAll, List.forall₂_nil_left_iff, Option.some.injEq]
      exact eq_comm
  | cons item items ih =>
      rw [sanitizeAll, List.forall₂_cons_left_iff]
      simp only [Option.bind_eq_bind, Option.bind_eq_some_iff]
      constructor
      · rintro ⟨image, first, rest, later, same⟩
        exact ⟨image, rest, first, ih.mp later, (Option.some.inj same).symm⟩
      · rintro ⟨image, rest, first, later, rfl⟩
        exact ⟨image, first, rest, ih.mpr later, rfl⟩

/-- The keys of the images are those of the items. -/
theorem keys_images {items images : List (Text × EventValue)}
    (all : List.Forall₂ (ItemImage iterate secrets) items images) :
    Json.keys images = Json.keys items := by
  induction all with
  | nil => rfl
  | cons image _ ih =>
      have same := image.1
      simp only [Json.keys, List.map_cons] at ih ⊢
      rw [ih, same]

/-- Two lists that are related item by item are split at the same place. -/
theorem forall₂_append_cons {α β : Type} {R : α → β → Prop} {items : List α}
    {before after : List β} {image : β} (all : List.Forall₂ R items (before ++ image :: after)) :
    ∃ before' item after', items = before' ++ item :: after' ∧ R item image ∧
      List.Forall₂ R after' after := by
  induction before generalizing items with
  | nil =>
      obtain ⟨item, after', related, rest, rfl⟩ := List.forall₂_cons_right_iff.mp all
      exact ⟨[], item, after', rfl, related, rest⟩
  | cons first before ih =>
      obtain ⟨item, items', -, rest, rfl⟩ := List.forall₂_cons_right_iff.mp all
      obtain ⟨before', item', after', rfl, related, later⟩ := ih rest
      exact ⟨item :: before', item', after', rfl, related, later⟩

/-- Every image comes from an item, which is the last one of its key as well. -/
theorem exists_item {items images : List (Text × EventValue)}
    (all : List.Forall₂ (ItemImage iterate secrets) items images) {key : Text}
    {image : EventValue} (stored : (key, image) ∈ Json.merge [] images) :
    ∃ before item after, items = before ++ (key, item) :: after ∧ key ∉ Json.keys after ∧
      ItemImage iterate secrets (key, item) (key, image) := by
  have fresh : (Json.keys ([] : List (Text × EventValue))).Nodup := List.nodup_nil
  rcases (Json.mem_merge fresh).mp stored with ⟨before, after, rfl, last⟩ | ⟨-, none⟩
  · obtain ⟨before', ⟨key', item⟩, after', rfl, related, rest⟩ := forall₂_append_cons all
    obtain rfl : key = key' := related.1
    refine ⟨before', item, after', rfl, ?_, related⟩
    rw [← keys_images rest]
    exact last
  · cases none

/-- The last item of a key has an image that is stored. -/
theorem exists_image {before after images : List (Text × EventValue)} {key : Text}
    {item : EventValue}
    (all : List.Forall₂ (ItemImage iterate secrets) (before ++ (key, item) :: after) images)
    (last : key ∉ Json.keys after) :
    ∃ image, (key, image) ∈ Json.merge [] images ∧
      ItemImage iterate secrets (key, item) (key, image) := by
  obtain ⟨before', ⟨key', image⟩, after', rfl, related, rest⟩ := forall₂_append_cons all.flip
  obtain rfl : key' = key := related.1
  have fresh : (Json.keys ([] : List (Text × EventValue))).Nodup := List.nodup_nil
  refine ⟨image, (Json.mem_merge fresh).mpr (.inl ⟨before', after', rfl, ?_⟩), related⟩
  rw [keys_images rest.flip]
  exact last

theorem mem_keys_merge_images {items images : List (Text × EventValue)}
    (all : List.Forall₂ (ItemImage iterate secrets) items images) {key : Text} :
    key ∈ Json.keys (Json.merge [] images) ↔ key ∈ Json.keys items := by
  rw [Json.mem_keys_merge, keys_images all]
  exact or_iff_right List.not_mem_nil

theorem free_redactedWord (ordinary : ∀ secret ∈ secrets, Ordinary secret) :
    Free secrets redactedWord := by
  intro secret member inside
  have plain := (ordinary secret member).plain
  rcases Replacing.infix_of_marked_append (r := []) redactedWord_marked plain
    (by rwa [List.append_nil]) with word | none
  · exact (ordinary secret member).foreign word
  · exact (ordinary secret member).nonempty (List.infix_nil.mp none)

theorem dirty_iff {value : EventValue} :
    ¬ Clean secrets value ↔ ∃ s ∈ strings value, ¬ Free secrets s := by
  simp only [Clean, not_forall, exists_prop]

/-- A secret that leaks is in the result. -/
theorem Leaks.dirty {value image : EventValue} (leaks : Leaks secrets value)
    (returned : sanitize iterate secrets value = some image) : ¬ Clean secrets image := by
  induction leaks generalizing image with
  | @other form exposed =>
      rw [sanitize] at returned
      obtain rfl := Option.some.inj returned
      exact dirty_iff.mpr ⟨form, List.mem_singleton.mpr rfl, exposed⟩
  | @key items key member exposed =>
      rw [sanitize] at returned
      obtain ⟨images, all, rfl⟩ := Option.map_eq_some_iff.mp returned
      have stored := (mem_keys_merge_images (sanitizeItems_eq_some.mp all)).mpr member
      exact dirty_iff.mpr ⟨key, mem_stringsOfItems.mpr (.inl stored), exposed⟩
  | @value before after key item isPublic last below ih =>
      rw [sanitize] at returned
      obtain ⟨images, all, rfl⟩ := Option.map_eq_some_iff.mp returned
      obtain ⟨image, stored, -, became⟩ := exists_image (sanitizeItems_eq_some.mp all) last
      rw [isPublic, if_neg Bool.false_ne_true] at became
      obtain ⟨s, inside, exposed⟩ := dirty_iff.mp (ih became)
      exact dirty_iff.mpr
        ⟨s, mem_stringsOfItems.mpr (.inr ⟨key, image, stored, inside⟩), exposed⟩
  | @item items item member below ih =>
      rw [sanitize] at returned
      obtain ⟨images, all, rfl⟩ := Option.map_eq_some_iff.mp returned
      obtain ⟨image, there, became⟩ :=
        Text.exists_of_forall₂ (sanitizeAll_eq_some.mp all).flip member
      obtain ⟨s, inside, exposed⟩ := dirty_iff.mp (ih became)
      exact dirty_iff.mpr ⟨s, mem_stringsOfAll.mpr ⟨image, there, inside⟩, exposed⟩

mutual

/-- A secret that is in the result leaks. -/
theorem leaks_of_dirty (order : IterationOrder iterate)
    (ordinary : ∀ secret ∈ secrets, Ordinary secret) : ∀ (value image : EventValue),
    sanitize iterate secrets value = some image → ¬ Clean secrets image → Leaks secrets value
  | .str value, image, returned, dirty => by
      rw [sanitize] at returned
      obtain ⟨redacted, same, rfl⟩ := Option.map_eq_some_iff.mp returned
      obtain ⟨s, inside, exposed⟩ := dirty_iff.mp dirty
      obtain rfl := List.mem_singleton.mp inside
      exact absurd (redactSecrets_free order ordinary same) exposed
  | .dict items, image, returned, dirty => by
      rw [sanitize] at returned
      obtain ⟨images, all, rfl⟩ := Option.map_eq_some_iff.mp returned
      have related := sanitizeItems_eq_some.mp all
      obtain ⟨s, inside, exposed⟩ := dirty_iff.mp dirty
      rcases mem_stringsOfItems.mp inside with isKey | ⟨key, image, stored, below⟩
      · exact .key ((mem_keys_merge_images related).mp isKey) exposed
      · obtain ⟨before, item, after, split, last, -, became⟩ := exists_item related stored
        have member : (key, item) ∈ items :=
          split ▸ List.mem_append_right _ (List.mem_cons_self ..)
        cases sensitive : isSensitiveKey key with
        | true =>
            rw [sensitive, if_pos rfl] at became
            obtain rfl := Option.some.inj became
            obtain rfl := List.mem_singleton.mp below
            exact absurd (free_redactedWord ordinary) exposed
        | false =>
            rw [sensitive, if_neg Bool.false_ne_true] at became
            have leaks := leaks_of_dirty_item order ordinary items (key, item) member image became
              (dirty_iff.mpr ⟨s, below, exposed⟩)
            rw [split]
            exact .value sensitive last leaks
  | .list items, image, returned, dirty => by
      rw [sanitize] at returned
      obtain ⟨images, all, rfl⟩ := Option.map_eq_some_iff.mp returned
      obtain ⟨s, inside, exposed⟩ := dirty_iff.mp dirty
      obtain ⟨image, stored, below⟩ := mem_stringsOfAll.mp inside
      obtain ⟨item, member, became⟩ :=
        Text.exists_of_forall₂ (sanitizeAll_eq_some.mp all) stored
      exact .item member (leaks_of_dirty_all order ordinary items item member image became
        (dirty_iff.mpr ⟨s, below, exposed⟩))
  | .scalar value, image, returned, dirty => by
      rw [sanitize] at returned
      obtain rfl := Option.some.inj returned
      obtain ⟨s, inside, -⟩ := dirty_iff.mp dirty
      cases inside
  | .other form, image, returned, dirty => by
      rw [sanitize] at returned
      obtain rfl := Option.some.inj returned
      obtain ⟨s, inside, exposed⟩ := dirty_iff.mp dirty
      obtain rfl := List.mem_singleton.mp inside
      exact .other exposed

theorem leaks_of_dirty_item (order : IterationOrder iterate)
    (ordinary : ∀ secret ∈ secrets, Ordinary secret) :
    ∀ (items : List (Text × EventValue)) (pair : Text × EventValue), pair ∈ items →
    ∀ image, sanitize iterate secrets pair.2 = some image →
      ¬ Clean secrets image → Leaks secrets pair.2
  | (key, item) :: items, pair, member, image, became, dirty => by
      rcases List.mem_cons.mp member with here | later
      · rw [here] at became ⊢
        exact leaks_of_dirty order ordinary item image became dirty
      · exact leaks_of_dirty_item order ordinary items pair later image became dirty

theorem leaks_of_dirty_all (order : IterationOrder iterate)
    (ordinary : ∀ secret ∈ secrets, Ordinary secret) : ∀ (items : List EventValue) (item : EventValue),
    item ∈ items → ∀ image, sanitize iterate secrets item = some image →
      ¬ Clean secrets image → Leaks secrets item
  | first :: items, item, member, image, became, dirty => by
      rcases List.mem_cons.mp member with here | later
      · rw [here] at became ⊢
        exact leaks_of_dirty order ordinary first image became dirty
      · exact leaks_of_dirty_all order ordinary items item later image became dirty

end

end Sanitize

/-- **When an event is stored without secrets.**  For all secrets that the word
`[REDACTED]` does not give away, every order of their variants and every event
that is sanitised: no text of the result has a secret in it, exactly if the event
has none in a key or in a value of another type, except below a sensitive key or
where a later item with the same key takes its place. -/
theorem sanitize_clean_iff (iterate : List Text → List Text) (order : IterationOrder iterate)
    (secrets : List Text) (ordinary : ∀ secret ∈ secrets, Ordinary secret)
    (event result : EventValue) (returned : sanitize iterate secrets event = some result) :
    Clean secrets result ↔ ¬ Leaks secrets event := by
  constructor
  · intro clean leaks
    exact leaks.dirty returned clean
  · intro sealed
    by_contra dirty
    exact sealed (leaks_of_dirty order ordinary event result returned dirty)

theorem iterationOrder_dedup : IterationOrder List.dedup :=
  fun _ => List.Perm.refl _

/-- A password, as it is known to the worker. -/
def password : Text := text "hunter2"

theorem password_ordinary : ∀ secret ∈ [password], Ordinary secret := by
  intro secret member
  obtain rfl := List.mem_singleton.mp member
  refine ⟨by decide, ?_, by decide⟩
  unfold IsBracket
  decide

/-- A password that a task has printed. -/
def printedEvent : EventValue := .dict [(text "stdout", .str (text "login hunter2 failed"))]

/-- It is stored without it. -/
theorem sanitize_clean_iff_printed :
    ∃ result, sanitize List.dedup [password] printedEvent = some result ∧
      Clean [password] result := by
  have returns : (sanitize List.dedup [password] printedEvent).isSome := by decide
  obtain ⟨result, returned⟩ := Option.isSome_iff_exists.mp returns
  refine ⟨result, returned, (sanitize_clean_iff _ iterationOrder_dedup _ password_ordinary _ _
    returned).mpr fun leaks => ?_⟩
  generalize same : printedEvent = event at leaks
  cases leaks with
  | other exposed | item member below => cases same
  | @key items key member exposed =>
      obtain rfl := EventValue.dict.inj same
      obtain rfl := List.mem_singleton.mp member
      refine exposed ?_
      unfold Free
      decide
  | @value before after key item isPublic last below =>
      have there : (key, item) ∈ [(text "stdout", EventValue.str (text "login hunter2 failed"))] :=
        EventValue.dict.inj same ▸ List.mem_append_right _ (List.mem_cons_self ..)
      obtain ⟨rfl, rfl⟩ := Prod.mk.inj (List.mem_singleton.mp there)
      cases below

/-- A result of a module that has its data under a key of the user's choice. -/
def keyedEvent : EventValue :=
  .dict [(text "event_data", .dict [(text "hunter2", .scalar (some (.inl true)))])]

/-- **A secret in a key is stored.** -/
theorem sanitize_clean_fails :
    IterationOrder List.dedup ∧ (∀ secret ∈ [password], Ordinary secret) ∧
      ∃ result, sanitize List.dedup [password] keyedEvent = some result ∧
        ∃ s ∈ strings result, password <:+: s := by
  refine ⟨iterationOrder_dedup, password_ordinary, keyedEvent, ?_, password, ?_, List.infix_rfl⟩
  · rfl
  · decide

end OpsComposer.Services.Redaction
