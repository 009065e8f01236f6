import OpsComposer.AuditTrail.Redactions

/-!
# Sanitising metadata twice

The audit trail sanitises an event when it is made, and again when it is logged, so that the
two agree where `sanitize_metadata` leaves its own result as it is.  It does not always do so:
what it puts at the end of a list or a dict that it cuts is one item more than it keeps, the
mark behind a text that is cut makes the text too long again, a key can become sensitive only
by its own redaction, and the text of a path is only redacted the second time.

* `Settled` — the trees for which none of this happens, by the input alone;
* `stable_iff` — sanitising a value twice is sanitising it once if and only if it is settled;
* `sanitizeMetadata_again_iff` — the same for metadata, where a result that is too large is
  replaced by a note that stays.
-/

set_option autoImplicit false

namespace OpsComposer.Services.Observability

open Foundations

/-! ## Settled trees -/

section Settled

variable (tables : CharTables)

/-- The keys under which the first items of a mapping are kept. -/
def safeKeys (count : Nat) (items : List (Text × MetadataValue)) : List Text :=
  (items.take count).map fun item => sanitizeText tables maxKeyLength item.1

/-- The key that is assigned behind them, if there are more. -/
def counterKeys (items : List (Text × MetadataValue)) : List Text :=
  if maxCollectionItems < items.length then [itemsTruncatedKey] else []

/-- A value for which the text that stands for a secret is put. -/
def ReadsRedacted (depth : Nat) (value : MetadataValue) : Prop :=
  depth ≤ maxMetadataDepth ∧
    match value with
    | .secret => True
    | .str value => sanitizeText tables maxStringLength value = redacted
    | .named written => sanitizeText tables maxStringLength written = redacted
    | .plain written => written = redacted
    | _ => False

/-- The count of the items that are left out stays: either it is one, or one of the kept keys
makes room for it, and it is not too deep. -/
def SettledCount (depth : Nat) (items : List (Text × MetadataValue)) : Prop :=
  maxCollectionItems < items.length →
    if (safeKeys tables maxCollectionItems items ++ [itemsTruncatedKey]).Nodup then
      items.length = maxCollectionItems + 1
    else depth < maxMetadataDepth

mutual

/-- A value that is sanitised to something that stays. -/
def Settled (depth : Nat) (value : MetadataValue) : Prop :=
  maxMetadataDepth < depth ∨
    match value with
    | .str value => SettledText tables maxStringLength value
    | .named written => SettledText tables maxStringLength written
    | .plain written => sanitizeText tables maxStringLength written = written
    | .list items =>
        items.length ≤ maxCollectionItems + 1 ∧ SettledItems depth maxCollectionItems items
    | .dict items =>
        SettledCount tables depth items ∧
          SettledMembers depth (counterKeys items) maxCollectionItems items
    | _ => True

/-- The first items of a sequence. -/
def SettledItems (depth : Nat) : (count : Nat) → List MetadataValue → Prop
  | 0, _ => True
  | _ + 1, [] => True
  | count + 1, item :: items => Settled (depth + 1) item ∧ SettledItems depth count items

/-- The first items of a mapping, but for those that a later one overwrites.  A key that is
sensitive only after its redaction is for a secret already, and one that is sensitive only
before it is not so deep that the text would be replaced. -/
def SettledMembers (depth : Nat) (later : List Text) :
    (count : Nat) → List (Text × MetadataValue) → Prop
  | 0, _ => True
  | _ + 1, [] => True
  | count + 1, (key, item) :: items =>
      (sanitizeText tables maxKeyLength key ∈ safeKeys tables count items ++ later ∨
        SettledText tables maxKeyLength key ∧
          if sensitiveKey (sanitizeText tables maxKeyLength key) then
            sensitiveKey key ∨ ReadsRedacted tables (depth + 1) item
          else if sensitiveKey key then depth < maxMetadataDepth
          else Settled (depth + 1) item) ∧
        SettledMembers depth later count items

end

end Settled

variable {tables : CharTables} {depth : Nat}

/-! ## Single values -/

/-- Sanitising the value twice is sanitising it once. -/
def Stable (tables : CharTables) (depth : Nat) (value : MetadataValue) : Prop :=
  sanitizeValue tables depth (ofJson (sanitizeValue tables depth value)) =
    sanitizeValue tables depth value

theorem sanitizeValue_deep (deep : maxMetadataDepth < depth) (value : MetadataValue) :
    sanitizeValue tables depth value = .str truncatedDepth := by
  unfold sanitizeValue
  exact if_pos deep

theorem sanitizeValue_str (shallow : ¬ maxMetadataDepth < depth) (value : Text) :
    sanitizeValue tables depth (.str value) = .str (sanitizeText tables maxStringLength value) := by
  rw [sanitizeValue, if_neg shallow]

theorem sanitizeText_redacted {limit : Nat} (room : 10 ≤ limit) :
    sanitizeText tables limit redacted = redacted := by
  have short : redacted.length = 10 := by decide
  exact sanitizeText_of_inert (by decide) (short.trans_le room)

theorem sanitizeText_redactedBytes (length : Fin (2 ^ 63)) :
    sanitizeText tables maxStringLength (redactedBytes length) = redactedBytes length := by
  refine sanitizeText_of_inert (inert_redactedBytes length) ?_
  have digits := length_natText_le length.isLt
  have front : (text "[REDACTED_BYTES:").length = 16 := by decide
  have back : (text "]").length = 1 := by decide
  rw [redactedBytes, List.length_append, List.length_append, front, back, maxStringLength]
  omega

/-- A value that is sanitised to a text. -/
theorem stable_of_text {value : MetadataValue} {written : Text}
    (shallow : ¬ maxMetadataDepth < depth)
    (same : sanitizeValue tables depth value = .str written) :
    Stable tables depth value ↔ sanitizeText tables maxStringLength written = written := by
  rw [Stable, same, ofJson, sanitizeValue_str shallow, Json.str.injEq]

/-- The values for which the text for a secret is put. -/
theorem sanitizeValue_eq_redacted_iff (value : MetadataValue) :
    sanitizeValue tables depth value = .str redacted ↔ ReadsRedacted tables depth value := by
  unfold ReadsRedacted
  by_cases deep : maxMetadataDepth < depth
  · rw [sanitizeValue_deep deep]
    have apart : truncatedDepth ≠ redacted := by decide
    refine iff_of_false ?_ fun within => absurd within.1 (Nat.not_le.mpr deep)
    exact fun same => apart (Json.str.inj same)
  · rw [and_iff_right (Nat.not_lt.mp deep)]
    unfold sanitizeValue
    rw [if_neg deep]
    cases value with
    | null | bool | int | float | list | dict | secret | str | named | plain => simp
    | bytes length =>
        refine iff_of_false ?_ id
        intro same
        have front := congrArg (List.take 10) (Json.str.inj same)
        rw [redactedBytes, List.append_assoc, List.take_append_of_le_length (by decide)] at front
        exact absurd front (by decide)

/-! ## Sequences -/

theorem sanitizeItems_eq (count : Nat) (items : List MetadataValue) :
    sanitizeItems tables depth count items =
      (items.take count).map (sanitizeValue tables (depth + 1)) := by
  induction items generalizing count with
  | nil => cases count <;> rfl
  | cons item items ih =>
      cases count with
      | zero => rfl
      | succ count => rw [sanitizeItems, ih, List.take_succ_cons, List.map_cons]

theorem ofItems_eq (items : List Json) : ofItems items = items.map ofJson := by
  induction items with
  | nil => rfl
  | cons item items ih => rw [ofItems, ih, List.map_cons]

/-- What is put behind the first items. -/
def itemsMark (length : Nat) : List Json :=
  if maxCollectionItems < length then [.str (truncatedItems (length - maxCollectionItems))] else []

theorem sanitizeValue_list (shallow : ¬ maxMetadataDepth < depth) (items : List MetadataValue) :
    sanitizeValue tables depth (.list items) =
      .arr ((items.take maxCollectionItems).map (sanitizeValue tables (depth + 1)) ++
        itemsMark items.length) := by
  rw [sanitizeValue, if_neg shallow, sanitizeItems_eq]
  rfl

theorem truncatedItems_injective {n m : Nat} (same : truncatedItems n = truncatedItems m) : n = m :=
  Json.natText_injective (List.append_cancel_left (List.append_cancel_right same))

/-- **A sequence is stable** if it has one item too many at most, and its first items are. -/
theorem stable_list_iff (shallow : ¬ maxMetadataDepth < depth) (items : List MetadataValue) :
    Stable tables depth (.list items) ↔ items.length ≤ maxCollectionItems + 1 ∧
      ∀ item ∈ items.take maxCollectionItems, Stable tables (depth + 1) item := by
  rw [Stable, sanitizeValue_list shallow, ofJson, ofItems_eq, sanitizeValue_list shallow,
    Json.arr.injEq, List.length_map]
  have length : ((items.take maxCollectionItems).map (sanitizeValue tables (depth + 1))).length =
      min maxCollectionItems items.length := by rw [List.length_map, List.length_take]
  have each : ((items.take maxCollectionItems).map (sanitizeValue tables (depth + 1))).map
      (sanitizeValue tables (depth + 1) ∘ ofJson) =
        (items.take maxCollectionItems).map (sanitizeValue tables (depth + 1)) ↔
      ∀ item ∈ items.take maxCollectionItems, Stable tables (depth + 1) item := by
    rw [List.map_map, List.map_inj_left]
    rfl
  rw [← each]
  generalize (items.take maxCollectionItems).map (sanitizeValue tables (depth + 1)) = kept at length ⊢
  by_cases many : maxCollectionItems < items.length
  · have whole : kept.length = maxCollectionItems := by omega
    have mark : itemsMark items.length =
        [.str (truncatedItems (items.length - maxCollectionItems))] := if_pos many
    have again : itemsMark (kept ++ itemsMark items.length).length = [.str (truncatedItems 1)] := by
      rw [mark, List.length_append, whole]
      rfl
    rw [again, mark, List.map_append, List.take_left' (by rw [List.length_map, whole]),
      List.map_map]
    constructor
    · intro same
      obtain ⟨front, back⟩ := List.append_inj' same rfl
      have one := truncatedItems_injective (Json.str.inj (List.cons.inj back).1)
      exact ⟨by omega, front⟩
    · rintro ⟨few, front⟩
      rw [front, show items.length - maxCollectionItems = 1 by omega]
  · have mark : itemsMark items.length = [] := if_neg many
    have again : itemsMark kept.length = [] := if_neg (by omega)
    rw [mark, List.append_nil, again, List.append_nil,
      List.take_of_length_le (by rw [List.length_map]; omega), List.map_map]
    exact (and_iff_right (by omega)).symm

/-! ## Mappings -/

/-- The assignment for one item. -/
def sanitizeMember (tables : CharTables) (depth : Nat) (item : Text × MetadataValue) :
    Text × Json :=
  (sanitizeText tables maxKeyLength item.1,
    if sensitiveKey item.1 then .str redacted else sanitizeValue tables (depth + 1) item.2)

/-- The assignment that the second time makes for a member of the result. -/
def againMember (tables : CharTables) (depth : Nat) (member : Text × Json) : Text × Json :=
  sanitizeMember tables depth (member.1, ofJson member.2)

theorem sanitizeMembers_eq (count : Nat) (items : List (Text × MetadataValue)) :
    sanitizeMembers tables depth count items =
      (items.take count).map (sanitizeMember tables depth) := by
  induction items generalizing count with
  | nil => cases count <;> rfl
  | cons item items ih =>
      cases count with
      | zero => rfl
      | succ count =>
          rw [sanitizeMembers, ih, List.take_succ_cons, List.map_cons]
          rfl

theorem keys_sanitizeMembers (depth count : Nat) (items : List (Text × MetadataValue)) :
    Json.keys (sanitizeMembers tables depth count items) = safeKeys tables count items := by
  rw [sanitizeMembers_eq, Json.keys, List.map_map]
  rfl

/-- A key that is kept as it is, with a value that is looked at. -/
theorem sanitizeMember_of_inert (key : Text) (item : MetadataValue) (inert : Inert key)
    (short : key.length ≤ maxKeyLength) (plain : sensitiveKey key = false) :
    sanitizeMember tables depth (key, item) = (key, sanitizeValue tables (depth + 1) item) := by
  rw [sanitizeMember, sanitizeText_of_inert inert short, if_neg (by simp [plain])]

theorem ofMembers_eq (members : List (Text × Json)) :
    ofMembers members = members.map fun member => (member.1, ofJson member.2) := by
  induction members with
  | nil => rfl
  | cons member members ih => rw [ofMembers, ih, List.map_cons]

/-- The assignment of the number of items that are left out. -/
def counter (length : Nat) : List (Text × Json) :=
  if maxCollectionItems < length then
    [(itemsTruncatedKey, .int (length - maxCollectionItems : Nat))]
  else []

theorem sanitizeValue_dict (shallow : ¬ maxMetadataDepth < depth)
    (items : List (Text × MetadataValue)) :
    sanitizeValue tables depth (.dict items) =
      .obj (Json.merge [] ((items.take maxCollectionItems).map (sanitizeMember tables depth) ++
        counter items.length)) := by
  rw [sanitizeValue, if_neg shallow, ← sanitizeMembers_eq, counter]
  split
  · rw [Json.merge_append]
    rfl
  · rw [List.append_nil]

theorem sanitizeValue_top (tables : CharTables) (items : List (Text × MetadataValue)) :
    sanitizeValue tables 0 (.dict items) =
      .obj (Json.merge [] ((items.take maxCollectionItems).map (sanitizeMember tables 0) ++
        counter items.length)) := sanitizeValue_dict (by decide) items

/-- The counter stays, if its number is looked at again. -/
theorem againMember_counter_iff (n : Nat) :
    againMember tables depth (itemsTruncatedKey, .int n) = (itemsTruncatedKey, .int n) ↔
      depth < maxMetadataDepth := by
  have again : againMember tables depth (itemsTruncatedKey, .int n) =
      (itemsTruncatedKey, sanitizeValue tables (depth + 1) (.int n)) :=
    sanitizeMember_of_inert itemsTruncatedKey _ (by decide) (by decide) (by decide)
  rw [again, Prod.mk.injEq, and_iff_right rfl]
  by_cases deep : maxMetadataDepth < depth + 1
  · rw [sanitizeValue_deep deep]
    exact iff_of_false (fun same => by cases same) (by omega)
  · rw [sanitizeValue, if_neg deep]
    exact iff_of_true rfl (by omega)

/-- **A member stays** if its key does, and what is put for its value. -/
theorem againMember_sanitizeMember_iff (tables : CharTables) (depth : Nat) (key : Text)
    (item : MetadataValue) :
    againMember tables depth (sanitizeMember tables depth (key, item)) =
        sanitizeMember tables depth (key, item) ↔
      SettledText tables maxKeyLength key ∧
        if sensitiveKey (sanitizeText tables maxKeyLength key) then
          sensitiveKey key ∨ ReadsRedacted tables (depth + 1) item
        else if sensitiveKey key then depth < maxMetadataDepth
        else Stable tables (depth + 1) item := by
  rw [← sanitizeText_sanitizeText_iff, againMember, sanitizeMember, sanitizeMember, Prod.mk.injEq]
  refine and_congr_right fun _ => ?_
  dsimp only
  split
  · by_cases sensitive : sensitiveKey key = true
    · rw [if_pos sensitive]
      exact iff_of_true rfl (.inl sensitive)
    · rw [if_neg sensitive, or_iff_right sensitive, ← sanitizeValue_eq_redacted_iff]
      exact eq_comm
  · by_cases sensitive : sensitiveKey key = true
    · rw [if_pos sensitive, if_pos sensitive, ofJson]
      by_cases deep : maxMetadataDepth < depth + 1
      · rw [sanitizeValue_deep deep]
        exact iff_of_false (fun same => absurd (Json.str.inj same) (by decide)) (by omega)
      · rw [sanitizeValue_str deep, sanitizeText_redacted (by decide)]
        exact iff_of_true rfl (by omega)
    · rw [if_neg sensitive, if_neg sensitive]
      exact Iff.rfl

/-- What the second time makes of the members of a dict. -/
def againMembers (tables : CharTables) (depth : Nat) (members : List (Text × Json)) :
    List (Text × Json) :=
  (members.take maxCollectionItems).map (againMember tables depth) ++ counter members.length

section Again

variable {kept members : List (Text × Json)}

/-- As many assignments are made as there are members. -/
theorem length_againMembers (short : members.length ≤ maxCollectionItems + 1) :
    (againMembers tables depth members).length = members.length := by
  rw [againMembers, List.length_append, List.length_map, List.length_take, counter]
  split
  · rw [List.length_singleton]
    omega
  · rw [List.length_nil]
    omega

theorem map_againMember_eq_iff : members.map (againMember tables depth) = members ↔
    ∀ member ∈ members, againMember tables depth member = member := by
  conv_lhs => rw [← List.map_id members, List.map_map]
  exact List.map_inj_left

/-- Members that are not too many stay if each of them does. -/
theorem againMembers_eq_iff (few : members.length ≤ maxCollectionItems) :
    againMembers tables depth members = members ↔
      ∀ member ∈ members, againMember tables depth member = member := by
  rw [againMembers, counter, if_neg (Nat.not_lt.mpr few), List.append_nil,
    List.take_of_length_le few, map_againMember_eq_iff]

/-- All keys are different, and one member is too many: the count has to be one. -/
theorem againMembers_counted_iff (full : kept.length = maxCollectionItems) (n : Nat) :
    againMembers tables depth (kept ++ [(itemsTruncatedKey, .int n)]) =
        kept ++ [(itemsTruncatedKey, .int n)] ↔
      n = 1 ∧ ∀ member ∈ kept, againMember tables depth member = member := by
  have length : (kept ++ [(itemsTruncatedKey, Json.int n)]).length = maxCollectionItems + 1 := by
    rw [List.length_append, full, List.length_singleton]
  have one : counter (maxCollectionItems + 1) = [(itemsTruncatedKey, .int (1 : Nat))] := rfl
  rw [againMembers, length, List.take_left' full, one, ← map_againMember_eq_iff]
  constructor
  · intro same
    obtain ⟨front, back⟩ := List.append_inj' same rfl
    have counts := Json.int.inj (Prod.mk.inj (List.cons.inj back).1).2
    exact ⟨by omega, front⟩
  · rintro ⟨rfl, front⟩
    rw [front]

/-- A mapping that is not cut. -/
theorem merge_again_few (few : kept.length ≤ maxCollectionItems) :
    Json.merge [] (againMembers tables depth (Json.merge [] kept)) = Json.merge [] kept ↔
      Json.ForLast (fun member => againMember tables depth member = member) [] kept := by
  have short : (Json.merge [] kept).length ≤ maxCollectionItems := Json.length_merge_le.trans few
  rw [Json.merge_eq_iff (Json.nodup_merge_nil) (length_againMembers (by omega)),
    againMembers_eq_iff short]
  have split : (∀ member ∈ Json.merge [] (kept ++ []), againMember tables depth member = member) ↔ _ :=
    Json.forall_mem_merge_append
  rw [List.append_nil] at split
  rw [split]
  exact and_iff_left fun member there => absurd there List.not_mem_nil

/-- A mapping that is cut. -/
theorem merge_again_cut (full : kept.length = maxCollectionItems) (n : Nat) :
    Json.merge [] (againMembers tables depth
        (Json.merge [] (kept ++ [(itemsTruncatedKey, .int n)]))) =
        Json.merge [] (kept ++ [(itemsTruncatedKey, .int n)]) ↔
      (if (Json.keys kept ++ [itemsTruncatedKey]).Nodup then n = 1 else depth < maxMetadataDepth) ∧
        Json.ForLast (fun member => againMember tables depth member = member) [itemsTruncatedKey]
          kept := by
  have keys : Json.keys (kept ++ [(itemsTruncatedKey, .int n)]) =
      Json.keys kept ++ [itemsTruncatedKey] := List.map_append
  have all : (kept ++ [(itemsTruncatedKey, Json.int n)]).length = maxCollectionItems + 1 := by
    rw [List.length_append, full, List.length_singleton]
  have short : (Json.merge [] (kept ++ [(itemsTruncatedKey, .int n)])).length ≤
      maxCollectionItems + 1 := Json.length_merge_le.trans all.le
  rw [Json.merge_eq_iff (Json.nodup_merge_nil) (length_againMembers short)]
  split
  next distinct =>
    have whole : Json.merge [] (kept ++ [(itemsTruncatedKey, .int n)]) =
        [] ++ (kept ++ [(itemsTruncatedKey, .int n)]) :=
      Json.merge_of_nodup (by rwa [List.nil_append, keys])
    rw [whole, List.nil_append, againMembers_counted_iff full, Json.forLast_of_nodup distinct]
  next shared =>
    have fewer : (Json.merge [] (kept ++ [(itemsTruncatedKey, .int n)])).length ≤
        maxCollectionItems := by
      by_contra many
      refine shared ?_
      rw [← keys]
      exact Json.nodup_of_length_merge (by omega)
    rw [againMembers_eq_iff fewer, Json.forall_mem_merge_append, and_comm]
    refine and_congr_left fun _ => ?_
    exact List.forall_mem_singleton.trans (againMember_counter_iff n)

end Again

/-- **A mapping is stable** if its count is, and the members that no later one overwrites. -/
theorem stable_dict_iff (shallow : ¬ maxMetadataDepth < depth)
    (items : List (Text × MetadataValue)) :
    Stable tables depth (.dict items) ↔ SettledCount tables depth items ∧
      Json.ForLast (fun member => againMember tables depth member = member) (counterKeys items)
        (sanitizeMembers tables depth maxCollectionItems items) := by
  have length : (sanitizeMembers tables depth maxCollectionItems items).length =
      min maxCollectionItems items.length := by
    rw [sanitizeMembers_eq, List.length_map, List.length_take]
  rw [Stable, sanitizeValue_dict shallow, ofJson, ofMembers_eq, sanitizeValue_dict shallow,
    Json.obj.injEq, List.length_map, ← List.map_take, List.map_map, ← sanitizeMembers_eq,
    SettledCount, ← keys_sanitizeMembers depth]
  generalize sanitizeMembers tables depth maxCollectionItems items = kept at length ⊢
  by_cases many : maxCollectionItems < items.length
  · have one : counter items.length = [(itemsTruncatedKey,
        .int (items.length - maxCollectionItems : Nat))] := if_pos many
    have later : counterKeys items = [itemsTruncatedKey] := if_pos many
    have count : items.length = maxCollectionItems + 1 ↔ items.length - maxCollectionItems = 1 := by
      omega
    rw [one, later, forall_prop_of_true many, count]
    exact merge_again_cut (by omega) _
  · have none : counter items.length = [] := if_neg many
    have later : counterKeys items = [] := if_neg many
    rw [none, later, List.append_nil, forall_prop_of_false many, true_and]
    exact merge_again_few (by omega)

/-! ## Trees -/

mutual

/-- **A value is stable if and only if it is settled.** -/
theorem stable_iff : ∀ (value : MetadataValue) (depth : Nat),
    Stable tables depth value ↔ Settled tables depth value
  | value, depth => by
      unfold Settled
      by_cases deep : maxMetadataDepth < depth
      · refine iff_of_true ?_ (.inl deep)
        rw [Stable, sanitizeValue_deep deep, sanitizeValue_deep deep]
      · rw [or_iff_right deep]
        cases value with
        | null | bool | int | float =>
            refine iff_of_true ?_ trivial
            rw [Stable, sanitizeValue, if_neg deep, ofJson, sanitizeValue, if_neg deep]
        | str value =>
            rw [stable_of_text deep (sanitizeValue_str deep value)]
            exact sanitizeText_sanitizeText_iff maxStringLength value
        | named written =>
            rw [stable_of_text deep (by rw [sanitizeValue, if_neg deep])]
            exact sanitizeText_sanitizeText_iff maxStringLength written
        | plain written => exact stable_of_text deep (by rw [sanitizeValue, if_neg deep])
        | bytes length =>
            refine iff_of_true ?_ trivial
            rw [stable_of_text deep (by rw [sanitizeValue, if_neg deep])]
            exact sanitizeText_redactedBytes length
        | secret =>
            refine iff_of_true ?_ trivial
            rw [stable_of_text deep (by rw [sanitizeValue, if_neg deep])]
            exact sanitizeText_redacted (by decide)
        | list items =>
            rw [stable_list_iff deep]
            exact and_congr_right fun _ => stableItems_iff items depth maxCollectionItems
        | dict items =>
            rw [stable_dict_iff deep]
            exact and_congr_right fun _ =>
              stableMembers_iff items depth (counterKeys items) maxCollectionItems

theorem stableItems_iff : ∀ (items : List MetadataValue) (depth count : Nat),
    (∀ item ∈ items.take count, Stable tables (depth + 1) item) ↔
      SettledItems tables depth count items
  | [], _, 0 | [], _, _ + 1 | _ :: _, _, 0 =>
      iff_of_true (fun _ member => absurd member List.not_mem_nil) trivial
  | item :: items, depth, count + 1 => by
      rw [List.take_succ_cons, List.forall_mem_cons, SettledItems, stable_iff item,
        stableItems_iff items]

theorem stableMembers_iff :
    ∀ (items : List (Text × MetadataValue)) (depth : Nat) (later : List Text) (count : Nat),
      Json.ForLast (fun member => againMember tables depth member = member) later
          (sanitizeMembers tables depth count items) ↔
        SettledMembers tables depth later count items
  | [], _, _, 0 | [], _, _, _ + 1 | _ :: _, _, _, 0 => iff_of_true trivial trivial
  | (key, item) :: items, depth, later, count + 1 => by
      have first := againMember_sanitizeMember_iff tables depth key item
      rw [stable_iff item] at first
      rw [sanitizeMembers, Json.ForLast, keys_sanitizeMembers, SettledMembers,
        ← stableMembers_iff items, ← first]
      exact Iff.rfl

end

/-! ## Metadata -/

/-- The sanitised tree is larger than the bound. -/
def Oversized (tables : CharTables) (items : List (Text × MetadataValue)) : Prop :=
  ∃ size, encodedLength (sanitizeValue tables 0 (.dict items)) = some size ∧ maxMetadataBytes < size

/-- Metadata whose result is a note of its size, or a tree that is settled. -/
def SettledMetadata (tables : CharTables) : Option (List (Text × MetadataValue)) → Prop
  | none => True
  | some items => Oversized tables items ∨ Settled tables 0 (.dict items)

section Metadata

variable {items : List (Text × MetadataValue)} {result : List (Text × Json)} {size : Nat}

/-- What `sanitize_metadata` makes of a sanitised tree. -/
theorem sanitizeMetadata_some (isResult : sanitizeValue tables 0 (.dict items) = .obj result) :
    sanitizeMetadata tables (some items) = (encodedLength (.obj result)).map fun size =>
      if size ≤ maxMetadataBytes then result else sizeNote size := by
  rw [sanitizeMetadata]
  split
  next none =>
    subst none
    obtain rfl : [] = result := Json.obj.inj isResult
    have two : encodedLength (.obj []) = some 2 := by decide
    rw [two]
    rfl
  next => rw [isResult]

theorem small_of_encodedLength {value : Json} (measured : encodedLength value = some size) :
    size < 2 ^ 63 := by
  obtain ⟨bytes, -, counted⟩ := Option.bind_eq_some_iff.mp measured
  split at counted
  next small =>
    obtain rfl := Option.some.inj counted
    exact small
  next => cases counted

/-- A note of a size is sanitised to itself. -/
theorem sanitizeValue_sizeNote (size : Nat) :
    sanitizeValue tables 0 (.dict (ofMembers (sizeNote size))) = .obj (sizeNote size) := by
  have mark : sanitizeMember tables 0 (text "metadata_truncated", .bool true) =
      (text "metadata_truncated", .bool true) := by
    rw [sanitizeMember_of_inert _ _ (by decide) (by decide) (by decide)]
    rfl
  have number : sanitizeMember tables 0 (text "original_size_bytes", .int size) =
      (text "original_size_bytes", .int size) := by
    rw [sanitizeMember_of_inert _ _ (by decide) (by decide) (by decide)]
    rfl
  have items : ofMembers (sizeNote size) =
      [(text "metadata_truncated", .bool true), (text "original_size_bytes", .int size)] := rfl
  have first : (ofMembers (sizeNote size)).take maxCollectionItems = ofMembers (sizeNote size) := rfl
  have none : counter (ofMembers (sizeNote size)).length = [] := rfl
  rw [sanitizeValue_dict (by decide), first, none, items, List.map_cons, List.map_singleton, mark,
    number]
  rfl

/-- **A note of a size stays.** -/
theorem sanitizeMetadata_sizeNote (small : size < 2 ^ 63) :
    sanitizeMetadata tables (some (ofMembers (sizeNote size))) = some (sizeNote size) := by
  obtain ⟨bytes, isEncoded, short⟩ := encoded_sizeNote small
  have measured : encodedLength (.obj (sizeNote size)) = some bytes.length := by
    rw [encodedLength, isEncoded, Option.bind_some, if_pos (by omega)]
  have within : bytes.length ≤ maxMetadataBytes := short.trans (by decide)
  rw [sanitizeMetadata_some (sanitizeValue_sizeNote size), measured, Option.map_some, if_pos within]

/-- Where the tree is within the bound, the result stays if the tree does. -/
theorem sanitizeMetadata_tree_iff (isResult : sanitizeValue tables 0 (.dict items) = .obj result)
    (measured : encodedLength (.obj result) = some size) (within : size ≤ maxMetadataBytes) :
    sanitizeMetadata tables (some (ofMembers result)) = some result ↔
      Stable tables 0 (.dict items) := by
  rw [Stable, isResult, ofJson]
  constructor
  · intro stays
    have isAgain := sanitizeValue_top tables
      (ofMembers result)
    rw [sanitizeMetadata_some isAgain] at stays
    obtain ⟨again, -, same⟩ := Option.map_eq_some_iff.mp stays
    split at same
    · rw [isAgain, same]
    · -- it is a note of a size, and these stay
      rw [← same]
      exact sanitizeValue_sizeNote again
  · intro stable
    rw [sanitizeMetadata_some stable, measured, Option.map_some, if_pos within]

end Metadata

/-- **Sanitising the result changes nothing** if and only if the metadata is settled. -/
theorem sanitizeMetadata_again_iff (tables : CharTables)
    (metadata : Option (List (Text × MetadataValue))) (result : List (Text × Json))
    (returned : sanitizeMetadata tables metadata = some result) :
    sanitizeMetadata tables (some (ofMembers result)) = some result ↔
      SettledMetadata tables metadata := by
  cases metadata with
  | none =>
      obtain rfl : [] = result := Option.some.inj returned
      exact iff_of_true rfl trivial
  | some items =>
      have isTree := sanitizeValue_top tables items
      rw [sanitizeMetadata_some isTree] at returned
      obtain ⟨size, measured, isResult⟩ := Option.map_eq_some_iff.mp returned
      rw [SettledMetadata, ← stable_iff]
      split at isResult
      next within =>
        rw [isResult] at isTree measured
        rw [sanitizeMetadata_tree_iff isTree measured within]
        refine (or_iff_right ?_).symm
        rintro ⟨larger, measured', beyond⟩
        rw [isTree, measured] at measured'
        obtain rfl := Option.some.inj measured'
        exact absurd beyond (Nat.not_lt.mpr within)
      next beyond =>
        subst isResult
        refine iff_of_true (sanitizeMetadata_sizeNote (small_of_encodedLength measured)) (.inl ?_)
        exact ⟨size, by rw [isTree, measured], Nat.not_le.mp beyond⟩

/-- What is kept of a user with a password. -/
def passwordRedacted : List (Text × Json) :=
  [(text "users", .arr [.obj [(text "name", .str (text "operator")), (text "Password", .str redacted)]])]

/-- It is kept the second time, so that the metadata is settled. -/
theorem sanitizeMetadata_again_password :
    sanitizeMetadata latin1 (some (withPassword .secret)) = some passwordRedacted ∧
      SettledMetadata latin1 (some (withPassword .secret)) :=
  ⟨rfl, (sanitizeMetadata_again_iff latin1 (some (withPassword .secret)) passwordRedacted rfl).mp rfl⟩

/-- Two items too many. -/
def tooMany : List (Text × MetadataValue) := [(text "hosts", .list (List.replicate 102 .null))]

/-- What is returned for them has a mark of a count. -/
def tooManyMarked (count : Nat) : List (Text × Json) :=
  [(text "hosts", .arr (List.replicate 100 .null ++ [.str (truncatedItems count)]))]

set_option maxRecDepth 20000 in
/-- The mark itself is an item too many the second time, and the count is lost. -/
theorem sanitizeMetadata_again_fails :
    sanitizeMetadata latin1 (some tooMany) = some (tooManyMarked 2) ∧
      sanitizeMetadata latin1 (some (ofMembers (tooManyMarked 2))) = some (tooManyMarked 1) ∧
        tooManyMarked 2 ≠ tooManyMarked 1 := by
  refine ⟨rfl, rfl, ?_⟩
  intro same
  cases same

end OpsComposer.Services.Observability
