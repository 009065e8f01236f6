import OpsComposer.Execution.Sanitizing

/-!
# What redaction leaves of a secret

A secret is known to `redact_secrets` in five forms: as it is, and as a shell, a URL,
a form and JSON would write it.  None of the forms has a bracket in it, and a form that
differs from the secret has a quote, a percent sign, a plus sign or a backslash in it.
So the word `[REDACTED]` gives none of them away, no form arises where something is
replaced, and whatever the order, no form of a secret is left
(`redactSecrets_exact`).  A text without any form is left as it is.

* `IsForm` — the forms of a secret;
* `Ordinary.form` — what is assumed of the secrets holds of their forms.
-/

set_option autoImplicit false

namespace OpsComposer.Services.Redaction

open Foundations

/-- A word that stands for a secret. -/
def IsForm (secret word : Text) : Prop :=
  word = secret ∨ word = shellQuote secret ∨ urlQuote [] secret = some word ∨
    urlQuotePlus secret = some word ∨ word = jsonBody secret

/-- No form of a secret is in the text. -/
def Cleared (secrets : List Text) (s : Text) : Prop :=
  ∀ secret ∈ secrets, ∀ word, IsForm secret word → ¬ word <:+: s

/-! ## Quoting -/

section Quoting

variable {secret word : Text} {c : Nat}

theorem not_isBracket_of_isWord (isWord : isWord c = true) : ¬ IsBracket c := by
  simp only [Redaction.isWord, Bool.or_eq_true, Bool.and_eq_true, decide_eq_true_eq,
    beq_iff_eq] at isWord
  unfold IsBracket
  omega

/-- The word is ordinary if it is the secret, or has a letter that `REDACTED` has not. -/
theorem Ordinary.of_escaped (ordinary : Ordinary secret) (plain : ∀ c ∈ word, ¬ IsBracket c)
    (escaped : word = secret ∨ ∃ c ∈ word, c ∉ text "REDACTED") : Ordinary word := by
  rcases escaped with rfl | ⟨c, member, apart⟩
  · exact ordinary
  · exact
      { nonempty := List.ne_nil_of_mem member
        plain := plain
        foreign := fun inside => apart (inside.subset member) }

/-- A shell puts quotes around a word that it would not read as it is. -/
theorem shellQuote_cases (nonempty : secret ≠ []) :
    shellQuote secret = secret ∨ (39 ∈ shellQuote secret ∧
      ∀ c ∈ shellQuote secret, c ∈ secret ∨ c = 39 ∨ c = 34) := by
  unfold shellQuote
  rw [if_neg nonempty]
  split
  · exact .inl rfl
  · refine .inr ⟨List.mem_cons_self .., fun c member => ?_⟩
    simp only [List.mem_cons, List.mem_append, List.mem_flatMap, List.not_mem_nil, or_false]
      at member
    rcases member with rfl | ⟨d, there, inside⟩ | rfl
    · exact .inr (.inl rfl)
    · split at inside
      · have few : ∀ c ∈ text "'\"'\"'", c = 39 ∨ c = 34 := by decide
        exact .inr (few c inside)
      · rw [List.mem_singleton] at inside
        exact .inl (inside ▸ there)
    · exact .inr (.inl rfl)

theorem isWord_upperHex {d : Nat} (digit : d < 16) : isWord (upperHex d) = true := by
  unfold upperHex isWord
  split
  · simp only [Bool.or_eq_true, Bool.and_eq_true, decide_eq_true_eq, beq_iff_eq]
    omega
  · simp only [Bool.or_eq_true, Bool.and_eq_true, decide_eq_true_eq, beq_iff_eq]
    omega

/-- What a URL is made of. -/
theorem mem_urlQuote {safe : Text} (quoted : urlQuote safe secret = some word)
    (member : c ∈ word) : isWord c = true ∨ c ∈ text ".-~" ∨ c ∈ safe ∨ c = 37 := by
  obtain ⟨bytes, -, rfl⟩ := Option.map_eq_some_iff.mp quoted
  obtain ⟨byte, -, inside⟩ := List.mem_flatMap.mp member
  have small := byte.toNat_lt
  dsimp only at inside
  split at inside
  · rename_i isSafe
    rw [List.mem_singleton.mp inside]
    simp only [Bool.or_eq_true, List.contains_iff_mem] at isSafe
    tauto
  · simp only [List.mem_cons, List.not_mem_nil, or_false] at inside
    rcases inside with rfl | rfl | rfl
    · exact .inr (.inr (.inr rfl))
    · exact .inl (isWord_upperHex (by omega))
    · exact .inl (isWord_upperHex (by omega))

/-- What can be written without a percent sign is written as it is. -/
theorem urlQuote_of_unescaped {safe : Text} (ascii : ∀ c ∈ safe, c < 128)
    (quoted : urlQuote safe secret = some word) (unescaped : 37 ∉ word) : word = secret := by
  obtain ⟨bytes, encoded, rfl⟩ := Option.map_eq_some_iff.mp quoted
  have kept : ∀ byte ∈ bytes, (isWord byte.toNat || (text ".-~").contains byte.toNat ||
      safe.contains byte.toNat) = true := by
    intro byte member
    by_contra escaped
    refine unescaped (List.mem_flatMap.mpr ⟨byte, member, ?_⟩)
    rw [if_neg escaped]
    exact List.mem_cons_self
  have small : ∀ c ∈ bytes.map UInt8.toNat, c < 128 := by
    intro c member
    obtain ⟨byte, there, rfl⟩ := List.mem_map.mp member
    have isSafe := kept byte there
    simp only [isWord, Bool.or_eq_true, Bool.and_eq_true, decide_eq_true_eq, beq_iff_eq,
      List.contains_iff_mem] at isSafe
    have marks : ∀ c ∈ text ".-~", c < 128 := by decide
    rcases isSafe with (word | mark) | isSafe
    · omega
    · exact marks _ mark
    · exact ascii _ isSafe
  have written : (bytes.flatMap fun byte =>
      if isWord byte.toNat || (text ".-~").contains byte.toNat || safe.contains byte.toNat then
        [byte.toNat]
      else [37, upperHex (byte.toNat / 16), upperHex (byte.toNat % 16)]) =
        bytes.map UInt8.toNat := by
    rw [List.map_eq_flatMap]
    exact List.flatMap_congr fun byte member => if_pos (kept byte member)
  have same : Text.encode (bytes.map UInt8.toNat) = some bytes := by
    rw [Text.encode_of_ascii small, List.map_map]
    have back : UInt8.ofNat ∘ UInt8.toNat = id := by
      funext byte
      apply UInt8.ofNat_toNat
    rw [back, List.map_id]
  exact written.trans (Text.encode_injective same encoded)

/-- What JSON escapes has a backslash in it. -/
theorem jsonBody_eq (secret : Text) : jsonBody secret = secret.flatMap Json.escapeChar := by
  rw [jsonBody, Json.quoted, List.drop_one, List.tail_cons, List.dropLast_concat]

theorem hexDigit_plain (d : Nat) : ¬ IsBracket (Json.hexDigit d) := by
  unfold IsBracket Json.hexDigit
  split <;> omega

theorem escapeChar_cases (c : Nat) :
    Json.escapeChar c = [c] ∨
      (92 ∈ Json.escapeChar c ∧ ∀ d ∈ Json.escapeChar c, ¬ IsBracket d) := by
  have hex : ∀ n, ∀ d ∈ Json.backslash :: 117 :: Json.hex4 n, ¬ IsBracket d := by
    intro n d member
    simp only [Json.hex4, List.mem_cons, List.not_mem_nil, or_false] at member
    rcases member with rfl | rfl | rfl | rfl | rfl | rfl
    · unfold IsBracket Json.backslash
      omega
    · unfold IsBracket
      omega
    all_goals exact hexDigit_plain _
  unfold Json.escapeChar
  split
  · rename_i short found
    refine .inr ⟨List.mem_cons_self, fun d member => ?_⟩
    have plain : ∀ entry ∈ Json.shortEscapes, entry.2 ≠ 91 ∧ entry.2 ≠ 93 := by decide
    have listed := plain _ (Json.mem_shortEscapes found)
    rcases List.mem_cons.mp member with rfl | last
    · unfold IsBracket Json.backslash
      omega
    · rw [List.mem_singleton.mp last]
      unfold IsBracket
      tauto
  · split
    · exact .inl rfl
    · split
      · exact .inr ⟨List.mem_cons_self, hex _⟩
      · refine .inr ⟨List.mem_cons_self, fun d member => ?_⟩
        rcases List.mem_append.mp member with high | low
        · exact hex _ d high
        · exact hex _ d low

theorem jsonBody_cases (secret : Text) : jsonBody secret = secret ∨ 92 ∈ jsonBody secret := by
  rw [jsonBody_eq]
  by_cases escaped : ∃ c ∈ secret, 92 ∈ Json.escapeChar c
  · exact .inr (List.mem_flatMap.mpr escaped)
  · refine .inl ?_
    have kept : ∀ c ∈ secret, Json.escapeChar c = [c] := by
      intro c member
      rcases escapeChar_cases c with same | ⟨inside, -⟩
      · exact same
      · exact absurd ⟨c, member, inside⟩ escaped
    rw [List.flatMap_congr kept, List.flatMap_singleton']

/-! ## Forms are ordinary -/

theorem plain_of_urlQuote {safe : Text} (plain : ∀ c ∈ safe, ¬ IsBracket c)
    (quoted : urlQuote safe secret = some word) : ∀ c ∈ word, ¬ IsBracket c := by
  intro c member
  have marks : ∀ c ∈ text ".-~", c ≠ 91 ∧ c ≠ 93 := by decide
  rcases mem_urlQuote quoted member with isWord | mark | isSafe | rfl
  · exact not_isBracket_of_isWord isWord
  · have apart := marks c mark
    unfold IsBracket
    tauto
  · exact plain c isSafe
  · unfold IsBracket
    omega

/-- **The forms of an ordinary secret are ordinary.** -/
theorem Ordinary.form (ordinary : Ordinary secret) (isForm : IsForm secret word) :
    Ordinary word := by
  have apart : ∀ c ∈ ([34, 37, 39, 43, 92] : Text), c ∉ text "REDACTED" := by decide
  rcases isForm with rfl | rfl | quoted | plus | rfl
  · exact ordinary
  · rcases shellQuote_cases ordinary.nonempty with same | ⟨quote, few⟩
    · rwa [same]
    · refine ordinary.of_escaped ?_ (.inr ⟨39, quote, apart 39 (by decide)⟩)
      intro c member
      rcases few c member with there | rfl | rfl
      · exact ordinary.plain c there
      · unfold IsBracket
        omega
      · unfold IsBracket
        omega
  · refine ordinary.of_escaped (plain_of_urlQuote (List.forall_mem_nil _) quoted) ?_
    by_cases percent : 37 ∈ word
    · exact .inr ⟨37, percent, apart 37 (by decide)⟩
    · exact .inl (urlQuote_of_unescaped (List.forall_mem_nil _) quoted percent)
  · unfold urlQuotePlus at plus
    split at plus
    · rename_i spaced
      obtain ⟨inner, quoted, rfl⟩ := Option.map_eq_some_iff.mp plus
      have plain : ∀ c ∈ ([32] : Text), ¬ IsBracket c := by
        intro c member
        rw [List.mem_singleton.mp member]
        unfold IsBracket
        omega
      have ascii : ∀ c ∈ ([32] : Text), c < 128 := by decide
      refine ordinary.of_escaped ?_ (.inr ?_)
      · intro c member
        obtain ⟨d, there, rfl⟩ := List.mem_map.mp member
        split
        · unfold IsBracket
          omega
        · exact plain_of_urlQuote plain quoted d there
      · by_cases percent : 37 ∈ inner
        · refine ⟨37, List.mem_map.mpr ⟨37, percent, rfl⟩, apart 37 (by decide)⟩
        · -- nothing was escaped, so that the space is there, and becomes a plus sign
          rw [← urlQuote_of_unescaped ascii quoted percent] at spaced
          exact ⟨43, List.mem_map.mpr ⟨32, spaced, rfl⟩, apart 43 (by decide)⟩
    · refine ordinary.of_escaped (plain_of_urlQuote (List.forall_mem_nil _) plus) ?_
      by_cases percent : 37 ∈ word
      · exact .inr ⟨37, percent, apart 37 (by decide)⟩
      · exact .inl (urlQuote_of_unescaped (List.forall_mem_nil _) plus percent)
  · refine ordinary.of_escaped ?_ ?_
    · rw [jsonBody_eq]
      intro c member
      obtain ⟨d, there, inside⟩ := List.mem_flatMap.mp member
      rcases escapeChar_cases d with same | ⟨-, plain⟩
      · rw [same, List.mem_singleton] at inside
        exact inside ▸ ordinary.plain d there
      · exact plain c inside
    · rcases jsonBody_cases secret with same | escaped
      · exact .inl same
      · exact .inr ⟨92, escaped, apart 92 (by decide)⟩

end Quoting

/-! ## The loops -/

section Redact

variable {iterate : List Text → List Text}

variable {secrets : List Text} {s secret : Text}

theorem isSome_urlQuote {safe : Text} :
    (urlQuote safe secret).isSome ↔ (Text.encode secret).isSome := by
  rw [urlQuote, Option.isSome_map]

/-- The variants of a secret are its forms. -/
theorem mem_variants (order : IterationOrder iterate) {word : Text} {all : List Text}
    (found : variants iterate secret = some all) : word ∈ all ↔ IsForm secret word := by
  obtain ⟨url, quoted, found⟩ := Option.bind_eq_some_iff.mp found
  obtain ⟨plus, spaced, same⟩ := Option.bind_eq_some_iff.mp found
  rw [← Option.some.inj same, (order _).mem_iff, List.mem_dedup]
  simp only [List.mem_cons, List.not_mem_nil, or_false, IsForm, quoted, spaced, Option.some.injEq,
    @eq_comm _ url, @eq_comm _ plus]

theorem isSome_redactSecret :
    (redactSecret iterate s secret).isSome ↔ (Text.encode secret).isSome := by
  have plus : (urlQuotePlus secret).isSome ↔ (Text.encode secret).isSome := by
    unfold urlQuotePlus
    split
    · rw [Option.isSome_map, isSome_urlQuote]
    · exact isSome_urlQuote
  have url : (urlQuote [] secret).isSome ↔ (Text.encode secret).isSome := isSome_urlQuote
  rw [redactSecret, variants]
  cases quoted : urlQuote [] secret with
  | none => simp_all
  | some _ =>
      cases spaced : urlQuotePlus secret with
      | none | some _ => simp_all

/-- `quote` raises on a secret that cannot be encoded, and nothing else does. -/
theorem isSome_foldlM_redactSecret :
    (secrets.foldlM (redactSecret iterate) s).isSome ↔
      ∀ secret ∈ secrets, (Text.encode secret).isSome := by
  induction secrets generalizing s with
  | nil => simp
  | cons secret secrets ih =>
      have head : (redactSecret iterate s secret).isSome ↔ (Text.encode secret).isSome :=
        isSome_redactSecret
      rw [List.foldlM_cons, List.forall_mem_cons, ← head]
      cases redactSecret iterate s secret with
      | none => simp
      | some next => simpa using ih

/-- A form of a secret is gone after the secret's turn. -/
theorem foldlM_redactSecret_form (order : IterationOrder iterate)
    {word : Text} (ordinary : Ordinary secret) (isForm : IsForm secret word)
    (member : secret ∈ secrets) {image : Text}
    (redacted : secrets.foldlM (redactSecret iterate) s = some image) : ¬ word <:+: image := by
  have plain := ordinary.form isForm
  induction secrets generalizing s with
  | nil => cases member
  | cons first secrets ih =>
      rw [List.foldlM_cons] at redacted
      obtain ⟨next, here, rest⟩ := Option.bind_eq_some_iff.mp redacted
      rcases List.mem_cons.mp member with rfl | later
      · obtain ⟨all, replaced, found, rfl, rfl, some⟩ := redactSecret_eq_some here
        refine foldlM_redactSecret_free plain rest
          (foldl_redactVariant_self plain some (mem_longestFirst.mpr ?_) s)
        exact List.mem_filter.mpr
          ⟨(mem_variants order found).mpr isForm, decide_eq_true plain.nonempty⟩
      · exact ih later rest

theorem foldl_redactVariant_absent {order : List Text}
    (absent : ∀ word ∈ order, ¬ word <:+: s) : order.foldl redactVariant s = s := by
  induction order with
  | nil => rfl
  | cons word order ih =>
      rw [List.forall_mem_cons] at absent
      rw [List.foldl_cons, redactVariant, Replacing.replace_of_absent _ absent.1]
      exact ih absent.2

/-- A text without any form of a secret is left as it is. -/
theorem foldlM_redactSecret_absent (order : IterationOrder iterate)
    {image : Text} (cleared : Cleared secrets s)
    (redacted : secrets.foldlM (redactSecret iterate) s = some image) : image = s := by
  induction secrets with
  | nil => exact (Option.some.inj redacted).symm
  | cons secret secrets ih =>
      rw [List.foldlM_cons] at redacted
      obtain ⟨next, here, rest⟩ := Option.bind_eq_some_iff.mp redacted
      obtain ⟨all, replaced, found, rfl, rfl, -⟩ := redactSecret_eq_some here
      have absent : ∀ word ∈ longestFirst (all.filter (· ≠ [])), ¬ word <:+: s := by
        intro word member
        have listed := (List.mem_filter.mp (mem_longestFirst.mp member)).1
        exact cleared secret (List.mem_cons_self ..) word ((mem_variants order found).mp listed)
      rw [foldl_redactVariant_absent absent] at rest
      exact ih (fun secret member => cleared secret (List.mem_cons_of_mem _ member)) rest

end Redact

/-- **Redaction leaves no form of a secret.**  For every text, all secrets that the
word `[REDACTED]` does not give away and every order of their variants: the text is
redacted unless a secret cannot be encoded, no form of any secret is in the result,
and a text without any form of a secret is its own result. -/
theorem redactSecrets_exact (iterate : List Text → List Text) (order : IterationOrder iterate)
    (secrets : List Text) (ordinary : ∀ secret ∈ secrets, Ordinary secret) (value : Text) :
    ((redactSecrets iterate value secrets).isSome ↔
        ∀ secret ∈ secrets, (Text.encode secret).isSome) ∧
      ∀ image, redactSecrets iterate value secrets = some image →
        Cleared secrets image ∧ (Cleared secrets value → image = value) := by
  have all : ∀ secret, secret ∈ longestFirst (secrets.filter (· ≠ [])) ↔ secret ∈ secrets := by
    intro secret
    rw [mem_longestFirst, List.mem_filter, decide_eq_true_eq]
    exact ⟨And.left, fun member => ⟨member, (ordinary secret member).nonempty⟩⟩
  refine ⟨?_, fun image redacted => ⟨?_, fun cleared => ?_⟩⟩
  · rw [redactSecrets, isSome_foldlM_redactSecret]
    exact forall_congr' fun secret => by rw [all secret]
  · intro secret member word isForm
    exact foldlM_redactSecret_form order (ordinary secret member) isForm ((all secret).mpr member)
      redacted
  · exact foldlM_redactSecret_absent order
      (fun secret member => cleared secret ((all secret).mp member)) redacted

/-- Two passwords, one of which is in the other. -/
def passwords : List Text := [text "s p", text "pass p"]

theorem passwords_ordinary : ∀ secret ∈ passwords, Ordinary secret := by
  have checked : ∀ secret ∈ passwords, secret ≠ [] ∧ (∀ c ∈ secret, c ≠ 91 ∧ c ≠ 93) ∧
      ¬ secret <:+: text "REDACTED" := by decide
  intro secret member
  obtain ⟨nonempty, plain, foreign⟩ := checked secret member
  exact ⟨nonempty, fun c inside => not_or.mpr (plain c inside), foreign⟩

/-- Both are in a text, one of them as a form field. -/
theorem redactSecrets_exact_overlapping :
    ∃ image, redactSecrets List.dedup (text "a=pass+p&b=pass p") passwords = some image ∧
      Cleared passwords image := by
  obtain ⟨returns, results⟩ := redactSecrets_exact List.dedup iterationOrder_dedup passwords
    passwords_ordinary (text "a=pass+p&b=pass p")
  obtain ⟨image, redacted⟩ := Option.isSome_iff_exists.mp (returns.mpr (by decide))
  exact ⟨image, redacted, (results image redacted).1⟩

end OpsComposer.Services.Redaction
