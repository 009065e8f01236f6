import OpsComposer.Services.Observability

/-!
# What metadata gives away

`sanitize_metadata` drops the values under sensitive keys before it looks at them, so
that neither the result nor its size depends on them, and it measures what it returns.

* `withoutSensitive` — a tree with nothing under its sensitive keys.  Two trees that
  differ under sensitive keys only are the same tree without;
* `sanitizeValue_withoutSensitive` — the sanitised tree does not depend on more;
* `sanitizeMetadata_hides` — **equal results, within the bound**: both, with the trees
  for which there is a result.
-/

set_option autoImplicit false

namespace OpsComposer.Services.Observability

open Foundations

variable {tables : CharTables}

/-! ## Sensitive values -/

mutual

/-- The tree with nothing under its sensitive keys. -/
def withoutSensitive : MetadataValue → MetadataValue
  | .list items => .list (itemsWithoutSensitive items)
  | .dict items => .dict (membersWithoutSensitive items)
  | value => value

/-- The same for the items of a list. -/
def itemsWithoutSensitive : List MetadataValue → List MetadataValue
  | [] => []
  | item :: items => withoutSensitive item :: itemsWithoutSensitive items

/-- The same for the members of a mapping. -/
def membersWithoutSensitive : List (Text × MetadataValue) → List (Text × MetadataValue)
  | [] => []
  | (key, item) :: items =>
      (key, if sensitiveKey key then .null else withoutSensitive item) ::
        membersWithoutSensitive items

end

theorem length_itemsWithoutSensitive (items : List MetadataValue) :
    (itemsWithoutSensitive items).length = items.length := by
  induction items with
  | nil => rfl
  | cons item items ih => exact congrArg (· + 1) ih

theorem length_membersWithoutSensitive (items : List (Text × MetadataValue)) :
    (membersWithoutSensitive items).length = items.length := by
  induction items with
  | nil => rfl
  | cons item items ih => exact congrArg (· + 1) ih

mutual

/-- **The sanitised value does not depend on what is under sensitive keys.** -/
theorem sanitizeValue_withoutSensitive : ∀ (value : MetadataValue) (depth : Nat),
    sanitizeValue tables depth (withoutSensitive value) = sanitizeValue tables depth value
  | .null, _ | .bool _, _ | .int _, _ | .float _, _ | .str _, _ | .plain _, _ | .named _, _
  | .bytes _, _ | .secret, _ => rfl
  | .list items, depth => by
      rw [withoutSensitive, sanitizeValue, sanitizeValue, length_itemsWithoutSensitive,
        sanitizeItems_withoutSensitive items]
  | .dict items, depth => by
      rw [withoutSensitive, sanitizeValue, sanitizeValue, length_membersWithoutSensitive,
        sanitizeMembers_withoutSensitive items]

theorem sanitizeItems_withoutSensitive : ∀ (items : List MetadataValue) (depth count : Nat),
    sanitizeItems tables depth count (itemsWithoutSensitive items) =
      sanitizeItems tables depth count items
  | [], _, _ => rfl
  | _ :: _, _, 0 => rfl
  | item :: items, depth, count + 1 => by
      rw [itemsWithoutSensitive, sanitizeItems, sanitizeItems, sanitizeValue_withoutSensitive item,
        sanitizeItems_withoutSensitive items]

theorem sanitizeMembers_withoutSensitive :
    ∀ (items : List (Text × MetadataValue)) (depth count : Nat),
      sanitizeMembers tables depth count (membersWithoutSensitive items) =
        sanitizeMembers tables depth count items
  | [], _, _ => rfl
  | _ :: _, _, 0 => rfl
  | (key, item) :: items, depth, count + 1 => by
      rw [membersWithoutSensitive, sanitizeMembers, sanitizeMembers,
        sanitizeMembers_withoutSensitive items]
      by_cases sensitive : sensitiveKey key = true
      · rw [if_pos sensitive, if_pos sensitive]
      · rw [if_neg sensitive, if_neg sensitive, if_neg sensitive,
          sanitizeValue_withoutSensitive item]

end

theorem sanitizeMetadata_withoutSensitive (items : List (Text × MetadataValue)) :
    sanitizeMetadata tables (some (membersWithoutSensitive items)) =
      sanitizeMetadata tables (some items) := by
  have same : sanitizeValue tables 0 (withoutSensitive (.dict items)) = _ :=
    sanitizeValue_withoutSensitive (.dict items) 0
  rw [withoutSensitive] at same
  rw [sanitizeMetadata, sanitizeMetadata, same]
  cases items <;> rfl

/-! ## The bound -/

/-- A number of bytes is written with nineteen digits at most. -/
theorem length_natText_le {size : Nat} (small : size < 2 ^ 63) :
    (Json.natText size).length ≤ 19 := by
  unfold Json.natText
  split
  · decide
  · rw [List.length_map, List.length_reverse, Nat.digits_length_le_iff (by decide)]
    omega

theorem notTooLong_of_small {n : Nat} (small : n < 2 ^ 63) : ¬ Json.TooLong (n : Int) := by
  have digits := length_natText_le small
  rw [Json.TooLong, Int.natAbs_natCast]
  unfold Json.maxIntDigits
  omega

/-- A note of a size, as it is written. -/
theorem dumpsCompact_sizeNote {size : Nat} (small : size < 2 ^ 63) :
    Json.dumpsCompact (.obj (sizeNote size)) =
      some (text "\x7b\"metadata_truncated\":true,\"original_size_bytes\":" ++ Json.natText size ++
        text "\x7d") := by
  rw [sizeNote, Json.dumpsCompact, Json.dumpsCompactMembers, Json.dumpsCompactMembers,
    Json.dumpsCompactMembers, Json.dumpsCompact, Json.dumpsCompact,
    if_neg (notTooLong_of_small small)]
  dsimp only [Option.map_some]
  rw [Text.join_cons _ _ (List.cons_ne_nil _ _), Text.join_singleton]
  rfl

/-- A note of a size is small. -/
theorem encoded_sizeNote {size : Nat} (small : size < 2 ^ 63) :
    ∃ bytes, encoded (.obj (sizeNote size)) = some bytes ∧ bytes.length ≤ 100 := by
  have digits : ∀ c ∈ Json.natText size, c < 128 := by
    intro c member
    have digit := Json.isDigit_natText member
    simp only [Json.isDigit, Bool.and_eq_true, decide_eq_true_eq] at digit
    omega
  have ascii : ∀ c ∈ text "\x7b\"metadata_truncated\":true,\"original_size_bytes\":" ++
      Json.natText size ++ text "\x7d", c < 128 := by
    intro c member
    simp only [List.mem_append] at member
    rcases member with (front | inside) | back
    · exact (by decide : ∀ c ∈ text "\x7b\"metadata_truncated\":true,\"original_size_bytes\":",
        c < 128) c front
    · exact digits c inside
    · exact (by decide : ∀ c ∈ text "\x7d", c < 128) c back
  refine ⟨_, by rw [encoded, dumpsCompact_sizeNote small, Option.bind_some, Text.encode_of_ascii ascii],
    ?_⟩
  have short := length_natText_le small
  have front : (text "\x7b\"metadata_truncated\":true,\"original_size_bytes\":").length = 49 := by
    decide
  have back : (text "\x7d").length = 1 := rfl
  rw [List.length_map, List.length_append, List.length_append, front, back]
  omega

/-- What is returned has been measured. -/
theorem length_encoded_le {metadata : Option (List (Text × MetadataValue))}
    {result : List (Text × Json)} (returned : sanitizeMetadata tables metadata = some result) :
    ∃ bytes, encoded (.obj result) = some bytes ∧ bytes.length ≤ maxMetadataBytes := by
  have none : ∃ bytes, encoded (.obj []) = some bytes ∧ bytes.length ≤ maxMetadataBytes :=
    ⟨[123, 125], by decide, by decide⟩
  unfold sanitizeMetadata at returned
  split at returned
  · cases returned
    exact none
  · split at returned
    · cases returned
      exact none
    · split at returned
      next whole _ =>
        obtain ⟨size, measured, rfl⟩ := Option.map_eq_some_iff.mp returned
        obtain ⟨bytes, isEncoded, counted⟩ := Option.bind_eq_some_iff.mp measured
        split at counted
        next small =>
          obtain rfl := Option.some.inj counted
          by_cases within : bytes.length ≤ maxMetadataBytes
          · rw [if_pos within]
            exact ⟨bytes, isEncoded, within⟩
          · rw [if_neg within]
            obtain ⟨note, isNote, short⟩ := encoded_sizeNote small
            exact ⟨note, isNote, short.trans (by decide)⟩
        next => cases counted
      next =>
        cases returned
        exact ⟨_, rfl, by decide⟩

/-! ## What can be measured -/

mutual

/-- The texts of a tree are valid Unicode, Python writes its integers, and no mapping has more
items than `sys.maxsize`. -/
def Readable : MetadataValue → Prop
  | .int n => ¬ Json.TooLong n
  | .float literal => Json.Valid literal
  | .str value => Json.Valid value
  | .plain written => Json.Valid written
  | .named written => Json.Valid written
  | .list items => ReadableItems items
  | .dict items => items.length < 2 ^ 63 ∧ ReadableMembers items
  | _ => True

/-- The same for the items of a list. -/
def ReadableItems : List MetadataValue → Prop
  | [] => True
  | item :: items => Readable item ∧ ReadableItems items

/-- The same for the members of a mapping. -/
def ReadableMembers : List (Text × MetadataValue) → Prop
  | [] => True
  | (key, item) :: items => Json.Valid key ∧ Readable item ∧ ReadableMembers items

end

theorem valid_sub {find : Finder Nat} (sound : Finder.Sound find)
    (put : ∀ prev s more, find prev s = some more → Json.Valid s → Json.Valid more.2) {s : Text}
    (valid : Json.Valid s) : Json.Valid (Finder.sub find s) :=
  (Finder.sub_substitutes sound s).forall_mem valid put

/-- A rule that puts ASCII, and what it has found. -/
theorem valid_find {rule : Rule Nat} (ascii : ∀ c ∈ rule.new, c < 128) (prev : Option Nat)
    (s : Text) (more : Nat × List Nat) (isFound : rule.find prev s = some more)
    (valid : Json.Valid s) : Json.Valid more.2 := by
  obtain ⟨head, d, run, rest, rfl, -, -, -, -, rfl, -⟩ := Rule.find_eq_some isFound
  rw [Json.valid_append, Json.valid_append] at valid
  have new := Json.valid_of_ascii ascii
  unfold Rule.replacement
  split
  · exact Json.valid_append.mpr ⟨valid.1.1, new⟩
  · exact new

theorem privateKey_sound : Finder.Sound privateKey := by
  intro prev s more isFound
  obtain ⟨n, first, rfl⟩ := Option.map_eq_some_iff.mp isFound
  obtain ⟨w, isPrefix, accepted, rfl⟩ := Regex.mem_lengths.mp (List.mem_of_mem_head? first)
  obtain ⟨u, v, begins, -, rfl⟩ := accepted
  have marked := Regex.accepts_literal.mp begins
  refine ⟨?_, isPrefix.length_le⟩
  rw [List.map_id] at marked
  rw [marked, List.length_append]
  exact Nat.add_pos_left (by decide) _

theorem valid_redactText {s : Text} (valid : Json.Valid s) : Json.Valid (redactText tables s) := by
  have hidden : Json.Valid (Finder.sub privateKey s) := by
    refine valid_sub privateKey_sound ?_ valid
    intro prev s more isFound _
    obtain ⟨n, -, rfl⟩ := Option.map_eq_some_iff.mp isFound
    exact Json.valid_of_ascii (s := text "[REDACTED_PRIVATE_KEY]") (by decide)
  have url : ∀ c ∈ text "[REDACTED_DATABASE_URL]", c < 128 := by decide
  have bearer : ∀ c ∈ text "Bearer [REDACTED]", c < 128 := by decide
  have secret : ∀ c ∈ text "[REDACTED]", c < 128 := by decide
  exact valid_sub (Rule.sound _) (valid_find secret) (valid_sub (Rule.sound _) (valid_find bearer)
    (valid_sub (Rule.sound _) (valid_find url) hidden))

theorem valid_natText (n : Nat) : Json.Valid (Json.natText n) := Json.valid_intText n

theorem valid_cutText {limit : Nat} {s : Text} (valid : Json.Valid s) :
    Json.Valid (cutText limit s) := by
  unfold cutText
  split
  · exact valid
  · rw [Json.valid_append, Json.valid_append, Json.valid_append]
    exact ⟨⟨⟨fun c member => valid c (List.mem_of_mem_take member),
      Json.valid_of_ascii (by decide)⟩, valid_natText _⟩, Json.valid_of_ascii (by decide)⟩

theorem valid_sanitizeText {limit : Nat} {s : Text} (valid : Json.Valid s) :
    Json.Valid (sanitizeText tables limit s) := valid_cutText (valid_redactText valid)

theorem valid_marked {front back : Text} (ascii : ∀ c ∈ front, c < 128)
    (ascii' : ∀ c ∈ back, c < 128) (n : Nat) : Json.Valid (front ++ Json.natText n ++ back) := by
  rw [Json.valid_append, Json.valid_append]
  exact ⟨⟨Json.valid_of_ascii ascii, valid_natText n⟩, Json.valid_of_ascii ascii'⟩

mutual

/-- What is left of a readable tree can be written and encoded. -/
theorem encodable_sanitizeValue : ∀ (value : MetadataValue) (depth : Nat), Readable value →
    Json.Encodable (sanitizeValue tables depth value)
  | value, depth, readable => by
      unfold sanitizeValue
      split
      · exact Json.valid_of_ascii (s := truncatedDepth) (by decide)
      · cases value with
        | null | bool => trivial
        | int n | float literal | plain written => exact readable
        | str value | named written => exact valid_sanitizeText readable
        | bytes length => exact valid_marked (by decide) (by decide) _
        | secret => exact Json.valid_of_ascii (s := redacted) (by decide)
        | list items =>
            refine Json.encodableItems_iff.mpr (List.forall_mem_append.mpr ⟨?_, ?_⟩)
            · exact encodable_sanitizeItems items depth maxCollectionItems readable
            · split
              · exact List.forall_mem_singleton.mpr (valid_marked (by decide) (by decide) _)
              · exact fun item member => absurd member List.not_mem_nil
        | dict items =>
            have kept : ∀ member ∈ Json.merge [] (sanitizeMembers tables depth maxCollectionItems items),
                Json.Valid member.1 ∧ Json.Encodable member.2 :=
              Json.forall_merge (fun member there => absurd there List.not_mem_nil)
                (encodable_sanitizeMembers items depth maxCollectionItems readable.2)
            refine Json.encodableMembers_iff.mpr ?_
            split
            · refine Json.forall_set kept
                ⟨Json.valid_of_ascii (s := itemsTruncatedKey) (by decide), notTooLong_of_small ?_⟩
              exact (Nat.sub_le _ _).trans_lt readable.1
            · exact kept

theorem encodable_sanitizeItems : ∀ (items : List MetadataValue) (depth count : Nat),
    ReadableItems items →
      ∀ item ∈ sanitizeItems tables depth count items, Json.Encodable item
  | [], _, 0, _ | [], _, _ + 1, _ | _ :: _, _, 0, _ => fun _ member => absurd member List.not_mem_nil
  | item :: items, depth, count + 1, readable =>
      List.forall_mem_cons.mpr ⟨encodable_sanitizeValue item (depth + 1) readable.1,
        encodable_sanitizeItems items depth count readable.2⟩

theorem encodable_sanitizeMembers : ∀ (items : List (Text × MetadataValue)) (depth count : Nat),
    ReadableMembers items → ∀ member ∈ sanitizeMembers tables depth count items,
      Json.Valid member.1 ∧ Json.Encodable member.2
  | [], _, 0, _ | [], _, _ + 1, _ | _ :: _, _, 0, _ => fun _ member => absurd member List.not_mem_nil
  | (key, item) :: items, depth, count + 1, readable => by
      refine List.forall_mem_cons.mpr ⟨⟨valid_sanitizeText readable.1, ?_⟩,
        encodable_sanitizeMembers items depth count readable.2.2⟩
      dsimp only
      split
      · exact Json.valid_of_ascii (s := redacted) (by decide)
      · exact encodable_sanitizeValue item (depth + 1) readable.2.1

end

/-- The result, before it is measured, is not larger than the memory. -/
def Addressable (tables : CharTables) (items : List (Text × MetadataValue)) : Prop :=
  ∀ bytes, encoded (sanitizeValue tables 0 (.dict items)) = some bytes → bytes.length < 2 ^ 63

/-- **Every readable tree has a result.** -/
theorem isSome_sanitizeMetadata {items : List (Text × MetadataValue)}
    (readable : Readable (.dict items)) (addressable : Addressable tables items) :
    (sanitizeMetadata tables (some items)).isSome := by
  have encodable : Json.Encodable (sanitizeValue tables 0 (.dict items)) :=
    encodable_sanitizeValue (.dict items) 0 readable
  obtain ⟨written, isWritten, valid⟩ := Json.exists_dumpsCompact _ encodable
  obtain ⟨bytes, areBytes⟩ := Option.isSome_iff_exists.mp (Text.encode_isSome_iff.mpr valid)
  have isEncoded : encoded (sanitizeValue tables 0 (.dict items)) = some bytes := by
    rw [encoded, isWritten, Option.bind_some, areBytes]
  have measured : encodedLength (sanitizeValue tables 0 (.dict items)) = some bytes.length := by
    rw [encodedLength, isEncoded, Option.bind_some, if_pos (addressable bytes isEncoded)]
  rw [sanitizeMetadata]
  split
  · rfl
  · split
    next whole isWhole =>
      rw [Option.isSome_map, ← isWhole, measured]
      rfl
    next => rfl

/-! ## Metadata -/

/-- **Metadata gives nothing away of what is under its sensitive keys, and is bounded**: trees
that differ there only have equal results; every result is within the bound; and every
readable tree has one. -/
theorem sanitizeMetadata_hides (tables : CharTables) :
    (∀ items items' : List (Text × MetadataValue),
      membersWithoutSensitive items = membersWithoutSensitive items' →
        sanitizeMetadata tables (some items) = sanitizeMetadata tables (some items')) ∧
    (∀ items result, sanitizeMetadata tables (some items) = some result →
      ∃ bytes, encoded (.obj result) = some bytes ∧ bytes.length ≤ maxMetadataBytes) ∧
    ∀ items, Readable (.dict items) → Addressable tables items →
      (sanitizeMetadata tables (some items)).isSome := by
  refine ⟨?_, fun _ _ => length_encoded_le, fun _ => isSome_sanitizeMetadata⟩
  intro items items' same
  rw [← sanitizeMetadata_withoutSensitive items, same, sanitizeMetadata_withoutSensitive]

/-- A user with a password, in a list. -/
def withPassword (password : MetadataValue) : List (Text × MetadataValue) :=
  [(text "users", .list [.dict [(text "name", .str (text "operator")), (text "Password", password)]])]

/-- Two passwords, of which one is a list, give one result, and there is one. -/
theorem sanitizeMetadata_hides_password :
    sanitizeMetadata latin1 (some (withPassword (.str (text "battery")))) =
        sanitizeMetadata latin1 (some (withPassword (.list [.null, .int 5]))) ∧
      ∃ result bytes, sanitizeMetadata latin1 (some (withPassword .secret)) = some result ∧
        encoded (.obj result) = some bytes ∧ bytes.length ≤ maxMetadataBytes := by
  obtain ⟨hides, within, returns⟩ := sanitizeMetadata_hides latin1
  refine ⟨hides _ _ rfl, ?_⟩
  have readable : Readable (.dict (withPassword .secret)) :=
    ⟨by decide, Json.valid_of_ascii (by decide), ⟨⟨by decide, Json.valid_of_ascii (by decide),
      Json.valid_of_ascii (by decide), Json.valid_of_ascii (by decide), trivial, trivial⟩, trivial⟩,
      trivial⟩
  have addressable : Addressable latin1 (withPassword .secret) := by
    have small : ((encoded (sanitizeValue latin1 0 (.dict (withPassword .secret)))).all
        fun bytes => decide (bytes.length < 2 ^ 63)) = true := by decide
    intro bytes isEncoded
    rw [isEncoded] at small
    simpa using small
  obtain ⟨result, isResult⟩ := Option.isSome_iff_exists.mp (returns _ readable addressable)
  obtain ⟨bytes, isEncoded, short⟩ := within _ result isResult
  exact ⟨result, bytes, isResult, isEncoded, short⟩

end OpsComposer.Services.Observability
