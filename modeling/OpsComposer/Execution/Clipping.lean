import Mathlib.Data.String.Basic
import OpsComposer.Execution.Aggregation
import OpsComposer.Foundations.Utf8

/-!
# The cut of an output

`add_output` keeps the first `limit` bytes of what a target writes, and
`append_event` the last bytes of the output of an event; both decode what they have
cut with replacement.  The cut is exact where it falls between two characters.
Where it falls inside one, the bytes that are left of the character are decoded to
replacement characters of three bytes each:

* `exact_iff_of_keeps` — the output of a target is a prefix of what was written,
  within the limit, and marked as truncated when it is, if and only if everything
  fits or a part of the text ends at the limit (`SplitsAt`);
* `storedOutput_exact_iff` — so it is for the output of an event, from the other end, unless
  white space is stripped from its end;
* `clipHead_eq`, `clipTail_eq` — what is cut is what the decoder makes of the bytes;
* `utf8Len_clipHead_le` — the output of a target is at most two bytes too long.

The negative controls are an `é` that is cut in two, and a line with its line feed.
-/

set_option autoImplicit false

namespace OpsComposer.Services.Worker

open Domain Foundations String

/-! ## The first bytes -/

section Head

variable {limit : Nat} {s t : List Char} {c : Char}

theorem clipHead_zero (s : List Char) : clipHead 0 s = [] := by
  cases s with
  | nil => rfl
  | cons c s =>
      have positive := c.utf8Size_pos
      rw [clipHead, if_neg (by omega), if_pos rfl]

/-- What fits is kept, and leaves the rest of the limit to what follows. -/
theorem clipHead_append (fits : utf8Len s ≤ limit) :
    clipHead limit (s ++ t) = s ++ clipHead (limit - utf8Len s) t := by
  induction s generalizing limit with
  | nil => rfl
  | cons c s ih =>
      rw [utf8Len_cons] at fits
      rw [List.cons_append, clipHead, if_pos (by omega), ih (by omega), utf8Len_cons,
        List.cons_append, Nat.sub_sub, Nat.add_comm]

theorem clipHead_of_fits (fits : utf8Len s ≤ limit) : clipHead limit s = s := by
  have kept := clipHead_append (t := []) fits
  rwa [List.append_nil, clipHead, List.append_nil] at kept

/-- What does not fit leaves nothing to what follows. -/
theorem clipHead_append_of_over (beyond : limit < utf8Len s) :
    clipHead limit (s ++ t) = clipHead limit s := by
  induction s generalizing limit with
  | nil => cases beyond
  | cons c s ih =>
      rw [utf8Len_cons] at beyond
      rw [List.cons_append, clipHead, clipHead]
      by_cases fits : c.utf8Size ≤ limit
      · rw [if_pos fits, if_pos fits, ih (by omega)]
      · rw [if_neg fits, if_neg fits]

/-- A text that is too long has a character in it at which the limit is passed. -/
theorem exists_cut (beyond : limit < utf8Len s) :
    ∃ before c after, s = before ++ c :: after ∧ utf8Len before ≤ limit ∧
      limit < utf8Len before + c.utf8Size := by
  induction s generalizing limit with
  | nil => cases beyond
  | cons c s ih =>
      rw [utf8Len_cons] at beyond
      by_cases fits : c.utf8Size ≤ limit
      · obtain ⟨before, d, after, rfl, low, high⟩ := ih (by omega : limit - c.utf8Size < utf8Len s)
        refine ⟨c :: before, d, after, rfl, ?_, ?_⟩
        · rw [utf8Len_cons]
          omega
        · rw [utf8Len_cons]
          omega
      · exact ⟨[], c, s, rfl, Nat.zero_le _, by simpa using fits⟩

/-- The character at which the limit is passed becomes a replacement character, unless
it is left out whole. -/
theorem clipHead_cut (low : utf8Len s ≤ limit) (high : limit < utf8Len s + c.utf8Size) :
    clipHead limit (s ++ c :: t) =
      if utf8Len s = limit then s else s ++ ['\uFFFD'] := by
  rw [clipHead_append low, clipHead, if_neg (by omega)]
  by_cases exactly : utf8Len s = limit
  · rw [if_pos (by omega), if_pos exactly, List.append_nil]
  · rw [if_neg (by omega), if_neg exactly]

/-- A part of the text, from its start, takes exactly this many bytes. -/
def SplitsAt (limit : Nat) (s : List Char) : Prop := ∃ head, head <+: s ∧ utf8Len head = limit

/-- A text is cut between two characters in one place at most. -/
theorem splitsAt_iff_of_cut (low : utf8Len s ≤ limit) (high : limit < utf8Len s + c.utf8Size) :
    SplitsAt limit (s ++ c :: t) ↔ utf8Len s = limit := by
  constructor
  · rintro ⟨head, isHead, exactly⟩
    rcases List.prefix_or_prefix_of_prefix isHead (List.prefix_append s (c :: t)) with short | long
    · have le := utf8Len_le_of_prefix short
      omega
    · obtain ⟨rest, rfl⟩ := long
      rw [List.prefix_append_right_inj] at isHead
      cases rest with
      | nil => simpa using exactly
      | cons d rest =>
          obtain ⟨rfl, -⟩ := List.cons_prefix_cons.mp isHead
          rw [utf8Len_append, utf8Len_cons] at exactly
          omega
  · exact fun exactly => ⟨s, List.prefix_append s _, exactly⟩

/-- **The first bytes are a prefix within the limit** if everything fits, or the limit falls
between two characters. -/
theorem clipHead_exact_iff : clipHead limit s <+: s ∧ utf8Len (clipHead limit s) ≤ limit ↔
    utf8Len s ≤ limit ∨ SplitsAt limit s := by
  rcases Nat.lt_or_ge limit (utf8Len s) with beyond | fits
  · obtain ⟨before, c, after, rfl, low, high⟩ := exists_cut beyond
    rw [clipHead_cut low high, splitsAt_iff_of_cut low high, or_iff_right (Nat.not_le.mpr beyond)]
    by_cases exactly : utf8Len before = limit
    · rw [if_pos exactly]
      exact iff_of_true ⟨List.prefix_append _ _, low⟩ exactly
    · rw [if_neg exactly]
      refine iff_of_false ?_ exactly
      rintro ⟨isPrefix, within⟩
      -- only the replacement character itself could have been cut to one
      rw [List.prefix_append_right_inj] at isPrefix
      obtain ⟨rfl, -⟩ := List.cons_prefix_cons.mp isPrefix
      rw [utf8Len_append, utf8Len_cons, utf8Len_nil] at within
      omega
  · rw [clipHead_of_fits fits]
    exact iff_of_true ⟨List.prefix_rfl, fits⟩ (.inl fits)

theorem utf8Len_clipHead_le : utf8Len (clipHead limit s) ≤ limit + 2 := by
  rcases Nat.lt_or_ge limit (utf8Len s) with beyond | fits
  · obtain ⟨before, c, after, rfl, low, high⟩ := exists_cut beyond
    rw [clipHead_cut low high]
    split
    · omega
    · rename_i inside
      have three : Char.utf8Size '\uFFFD' = 3 := rfl
      rw [utf8Len_append, utf8Len_cons, utf8Len_nil, three]
      omega
  · rw [clipHead_of_fits fits]
    omega

end Head

/-! ## The accumulator -/

section Accumulator

variable {limit : Nat} {accumulator : TargetAccumulator} {s : List Char}

/-- The accumulator keeps the first bytes of what has been written. -/
structure Keeps (limit : Nat) (accumulator : TargetAccumulator) (s : List Char) : Prop where
  kept : (String.join accumulator.chunks).toList = clipHead limit s
  size : accumulator.size = min (utf8Len s) limit
  truncated : accumulator.truncated = true ↔ limit < utf8Len s

theorem join_concat (chunks : List String) (chunk : String) :
    (String.join (chunks ++ [chunk])).toList = (String.join chunks).toList ++ chunk.toList := by
  rw [String.toList_join, String.toList_join, List.flatMap_append, List.flatMap_singleton]

theorem utf8Len_toList (s : String) : utf8Len s.toList = s.utf8ByteSize := by
  rw [← String.utf8ByteSize_ofList, String.ofList_toList]

/-- **One more output.** -/
theorem Keeps.addOutput (keeps : Keeps limit accumulator s) (output : String) :
    Keeps limit (accumulator.addOutput output limit) (s ++ output.toList) := by
  have size := keeps.size
  have length : utf8Len (s ++ output.toList) = utf8Len s + output.utf8ByteSize := by
    rw [utf8Len_append, utf8Len_toList]
  unfold TargetAccumulator.addOutput
  by_cases fits : accumulator.size + output.utf8ByteSize ≤ limit
  · rw [if_pos fits]
    rcases Nat.lt_or_ge limit (utf8Len s) with beyond | whole
    -- nothing is written once the limit has been passed
    · have empty : output = "" := String.utf8ByteSize_eq_zero_iff.mp (by omega)
      subst empty
      refine ⟨?_, ?_, ?_⟩
      · rw [join_concat, keeps.kept, String.toList_empty, List.append_nil, List.append_nil]
      · simpa using size
      · simpa using keeps.truncated
    · refine ⟨?_, ?_, ?_⟩
      · rw [join_concat, keeps.kept, clipHead_of_fits whole, clipHead_of_fits (by omega)]
      · simp only [length]
        omega
      · rw [keeps.truncated]
        omega
  · rw [if_neg fits]
    by_cases full : limit - accumulator.size = 0
    · rw [if_pos full]
      refine ⟨?_, ?_, ?_⟩
      · rcases Nat.lt_or_ge limit (utf8Len s) with beyond | whole
        · rw [clipHead_append_of_over beyond]
          exact keeps.kept
        · have none : limit - utf8Len s = 0 := by omega
          rw [clipHead_append whole, none, clipHead_zero, List.append_nil]
          exact keeps.kept.trans (clipHead_of_fits whole)
      · simp only [length]
        omega
      · simp only [true_iff]
        omega
    · rw [if_neg full]
      have whole : utf8Len s ≤ limit := by omega
      have same : accumulator.size = utf8Len s := by omega
      refine ⟨?_, ?_, ?_⟩
      · rw [join_concat, keeps.kept, String.toList_ofList, clipHead_append whole,
          clipHead_of_fits whole, same]
      · simp only [length]
        omega
      · simp only [true_iff]
        omega

theorem keeps_start (limit : Nat) (target : RunTarget) :
    Keeps limit { target := target } [] where
  kept := rfl
  size := (Nat.zero_min limit).symm
  truncated := iff_of_false Bool.false_ne_true (Nat.not_lt_zero limit)

/-- **All outputs of a target.** -/
theorem Keeps.foldl (keeps : Keeps limit accumulator s) (outputs : List String) :
    Keeps limit (outputs.foldl (fun accumulator output => accumulator.addOutput output limit)
      accumulator) (s ++ (String.join outputs).toList) := by
  induction outputs generalizing accumulator s with
  | nil => simpa using keeps
  | cons output outputs ih =>
      have rest := ih (keeps.addOutput output)
      rwa [List.append_assoc, String.toList_join, ← List.flatMap_cons, ← String.toList_join]
        at rest

end Accumulator

/-- The output of a target is cut as it should be. -/
structure Exact (limit : Nat) (written : String) (accumulator : TargetAccumulator) : Prop where
  within : (String.join accumulator.chunks).utf8ByteSize ≤ limit
  isPrefix : (String.join accumulator.chunks).toList <+: written.toList
  truncated : accumulator.truncated = true ↔ limit < written.utf8ByteSize

theorem exact_iff_of_keeps {limit : Nat} {accumulator : TargetAccumulator} {written : String}
    (keeps : Keeps limit accumulator written.toList) : Exact limit written accumulator ↔
      written.utf8ByteSize ≤ limit ∨ SplitsAt limit written.toList := by
  rw [← utf8Len_toList, ← clipHead_exact_iff, ← keeps.kept, utf8Len_toList]
  constructor
  · exact fun exact => ⟨exact.isPrefix, exact.within⟩
  · rintro ⟨isPrefix, within⟩
    refine ⟨within, isPrefix, ?_⟩
    rw [← utf8Len_toList]
    exact keeps.truncated

/-! ## The last bytes -/

section Tail

variable {limit : Nat} {s t : List Char} {c : Char}

/-- A part of the text, to its end, takes exactly this many bytes. -/
def EndsAt (limit : Nat) (s : List Char) : Prop := ∃ tail, tail <:+ s ∧ utf8Len tail = limit

theorem endsAt_iff : EndsAt limit s ↔ SplitsAt limit s.reverse := by
  constructor
  · rintro ⟨tail, isTail, exactly⟩
    exact ⟨tail.reverse, List.reverse_prefix.mpr isTail, by rwa [utf8Len_reverse]⟩
  · rintro ⟨head, isHead, exactly⟩
    refine ⟨head.reverse, ?_, by rwa [utf8Len_reverse]⟩
    rwa [← List.reverse_prefix, List.reverse_reverse]

theorem clipTail_append (fits : utf8Len s ≤ limit) :
    clipTail limit (s ++ t) = clipTail (limit - utf8Len s) t ++ s.reverse := by
  induction s generalizing limit with
  | nil => simp
  | cons c s ih =>
      rw [utf8Len_cons] at fits
      rw [List.cons_append, clipTail, if_pos (by omega), ih (by omega), utf8Len_cons,
        List.reverse_cons, List.append_assoc, Nat.sub_sub, Nat.add_comm]

/-- Every byte that is left of the character at which the limit is passed becomes a
replacement character. -/
theorem clipTail_cut (low : utf8Len s ≤ limit) (high : limit < utf8Len s + c.utf8Size) :
    clipTail limit (s ++ c :: t) =
      List.replicate (limit - utf8Len s) '\uFFFD' ++ s.reverse := by
  rw [clipTail_append low, clipTail, if_neg (by omega)]

theorem utf8Len_replicate (n : Nat) (c : Char) : utf8Len (List.replicate n c) = n * c.utf8Size := by
  induction n with
  | zero => simp
  | succ n ih => rw [List.replicate_succ, utf8Len_cons, ih, Nat.succ_mul]

theorem eq_of_suffix_of_utf8Len (inner : s <:+ t) (same : utf8Len s = utf8Len t) : s = t := by
  obtain ⟨front, rfl⟩ := inner
  rw [utf8Len_append] at same
  have none : utf8Len front = 0 := by omega
  rw [utf8Len_eq_zero.mp none, List.nil_append]

theorem mem_getLast?_of_suffix (inner : s <:+ t) (last : c ∈ s.getLast?) : c ∈ t.getLast? := by
  obtain ⟨nonempty, rfl⟩ := List.mem_getLast?_eq_getLast last
  rw [inner.getLast nonempty]
  exact List.getLast_mem_getLast? _

/-- What is kept of a text within a bound, in whole characters: all of it, or what takes
exactly as many bytes to its end. -/
def IsKept (limit : Nat) (s kept : List Char) : Prop :=
  kept <:+ s ∧ (kept = s ∧ utf8Len s ≤ limit ∨ utf8Len kept = limit)

/-- No more than one part is kept. -/
theorem IsKept.unique {kept kept' : List Char} (isKept : IsKept limit s kept)
    (isKept' : IsKept limit s kept') : kept = kept' := by
  have same : utf8Len kept = utf8Len kept' := by
    have shorter := utf8Len_le_of_suffix isKept.1
    have shorter' := utf8Len_le_of_suffix isKept'.1
    rcases isKept.2 with ⟨rfl, fits⟩ | exactly
    · rcases isKept'.2 with ⟨rfl, -⟩ | exactly'
      · rfl
      · omega
    · rcases isKept'.2 with ⟨rfl, fits⟩ | exactly'
      · omega
      · omega
  rcases List.suffix_or_suffix_of_suffix isKept.1 isKept'.1 with inner | inner
  · exact eq_of_suffix_of_utf8Len inner same
  · exact (eq_of_suffix_of_utf8Len inner same.symm).symm

/-- The cut text is what is kept, or begins with a replacement character and is too long. -/
theorem clipOutput_cases (limit : Nat) (stdout : String) :
    IsKept limit stdout.toList (clipOutput limit stdout).toList ∨
      (¬ ∃ kept, IsKept limit stdout.toList kept) ∧ limit < utf8Len (clipOutput limit stdout).toList ∧
        ∃ cut tail, (clipOutput limit stdout).toList = '\uFFFD' :: (cut ++ tail) ∧
          (∀ c ∈ cut, c = '\uFFFD') ∧ tail <:+ stdout.toList := by
  unfold clipOutput
  by_cases beyond : limit < stdout.utf8ByteSize
  · rw [if_pos beyond, String.toList_ofList]
    rw [← utf8Len_toList] at beyond
    generalize stdout.toList = s at beyond ⊢
    have beyond' := beyond
    rw [← utf8Len_reverse] at beyond'
    obtain ⟨before, c, after, cut, low, high⟩ := exists_cut beyond'
    have isTail : before.reverse <:+ s := by
      rw [← List.reverse_prefix, List.reverse_reverse, cut]
      exact List.prefix_append _ _
    rw [cut, clipTail_cut low high]
    by_cases exactly : utf8Len before = limit
    · left
      rw [exactly, Nat.sub_self, List.replicate_zero, List.nil_append]
      exact ⟨isTail, .inr (by rwa [utf8Len_reverse])⟩
    · right
      obtain ⟨n, isRest⟩ := Nat.exists_eq_succ_of_ne_zero (by omega : limit - utf8Len before ≠ 0)
      refine ⟨?_, ?_, List.replicate n '\uFFFD', before.reverse, ?_, ?_, isTail⟩
      · rintro ⟨kept, isKept, ⟨rfl, fits⟩ | exactly'⟩
        · omega
        · have ends : EndsAt limit s := ⟨kept, isKept, exactly'⟩
          rw [endsAt_iff, cut, splitsAt_iff_of_cut low high] at ends
          exact exactly ends
      · have three : Char.utf8Size '\uFFFD' = 3 := rfl
        rw [utf8Len_append, utf8Len_replicate, utf8Len_reverse, three]
        omega
      · rw [isRest, List.replicate_succ, List.cons_append]
      · exact fun c member => List.eq_of_mem_replicate member
  · rw [if_neg beyond]
    rw [← utf8Len_toList] at beyond
    exact .inl ⟨List.suffix_rfl, .inl ⟨rfl, Nat.not_lt.mp beyond⟩⟩

/-- **The stored output is a suffix within the bound** if what is kept of the text in whole
characters is white space throughout, or the text does not end in white space. -/
theorem storedOutput_exact_iff {stdout : String} :
    (storedOutput limit stdout).toList <:+ stdout.toList ∧
        (storedOutput limit stdout).utf8ByteSize ≤ limit ↔
      ∃ kept, IsKept limit stdout.toList kept ∧
        ((∀ c ∈ kept, isWhiteSpace c.toNat = true) ∨
          ∀ c ∈ stdout.toList.getLast?, isWhiteSpace c.toNat = false) := by
  have stored : (storedOutput limit stdout).toList =
      trim (fun c => isWhiteSpace c.toNat) (clipOutput limit stdout).toList := by
    rw [storedOutput, stripped, String.toList_ofList]
  rw [← utf8Len_toList, stored]
  generalize (storedOutput limit stdout).toList = kept at stored ⊢
  subst stored
  rcases clipOutput_cases limit stdout with
    isKept | ⟨noneKept, long, cut, tail, isCut, replaced, isTail⟩
  · generalize (clipOutput limit stdout).toList = clipped at isKept ⊢
    constructor
    · exact fun ⟨isSuffix, _⟩ => ⟨clipped, isKept, last_of_trim_suffix isSuffix⟩
    · rintro ⟨kept, isKept', blankOrEnd⟩
      obtain rfl := isKept.unique isKept'
      have isSuffix : trim (fun c => isWhiteSpace c.toNat) clipped <:+ clipped :=
        trim_suffix_iff.mpr (blankOrEnd.imp_right fun plain c last =>
          plain c (mem_getLast?_of_suffix isKept.1 last))
      refine ⟨isSuffix.trans isKept.1, (utf8Len_le_of_suffix isSuffix).trans ?_⟩
      rcases isKept.2 with ⟨rfl, fits⟩ | exactly
      · exact fits
      · exact exactly.le
  · refine iff_of_false ?_ fun ⟨kept, isKept, _⟩ => noneKept ⟨kept, isKept⟩
    rintro ⟨isSuffix, within⟩
    rw [isCut] at isSuffix within long
    rcases last_of_trim_suffix isSuffix with blank | plain
    · exact absurd (blank _ List.mem_cons_self) (by decide)
    · -- nothing is stripped from either end, and the cut text is too long
      have last : ∀ c ∈ ('\uFFFD' :: (cut ++ tail)).getLast?, isWhiteSpace c.toNat = false := by
        intro c last
        rcases List.eq_nil_or_concat tail with rfl | ⟨front, d, rfl⟩
        · rw [List.append_nil] at last
          obtain rfl : c = '\uFFFD' :=
            (List.mem_cons.mp (List.mem_of_mem_getLast? last)).elim id (replaced c)
          rfl
        · refine plain c (mem_getLast?_of_suffix isTail ?_)
          rw [List.concat_eq_append, ← List.append_assoc, ← List.cons_append,
            List.getLast?_concat] at last
          rwa [List.concat_eq_append, List.getLast?_concat]
      rw [trim_of_last last, List.dropWhile_cons_of_neg (by decide)] at within
      omega

end Tail

/-! ## As bytes -/

section Bytes

variable {limit : Nat} {s : List Char}

theorem length_encode (s : List Char) : (Utf8.encode s).length = utf8Len s := by
  induction s with
  | nil => rfl
  | cons c s ih =>
      rw [Utf8.encode, List.flatMap_cons, List.length_append, ← Utf8.encode, ih, utf8Len_cons,
        String.length_utf8EncodeChar, Nat.add_comm]

theorem encode_append_cons (s t : List Char) (c : Char) :
    Utf8.encode (s ++ c :: t) = Utf8.encode s ++ (String.utf8EncodeChar c ++ Utf8.encode t) := by
  rw [Utf8.encode, List.flatMap_append, List.flatMap_cons, ← Utf8.encode, ← Utf8.encode]

/-- **`encoded[:limit].decode("utf-8", errors="replace")`.** -/
theorem clipHead_eq (limit : Nat) (s : List Char) :
    Utf8.decodeReplacing ((Utf8.encode s).take limit) = clipHead limit s := by
  rcases Nat.lt_or_ge limit (utf8Len s) with beyond | fits
  · obtain ⟨before, c, after, rfl, low, high⟩ := exists_cut beyond
    have short : limit - utf8Len before ≤ (String.utf8EncodeChar c).length := by
      rw [String.length_utf8EncodeChar]
      omega
    rw [clipHead_cut low high, encode_append_cons, List.take_append, length_encode,
      List.take_of_length_le (by rwa [length_encode]), List.take_append_of_le_length short]
    by_cases exactly : utf8Len before = limit
    · rw [if_pos exactly, exactly, Nat.sub_self, List.take_zero, List.append_nil,
        Utf8.decodeReplacing_encode]
    · rw [if_neg exactly, Utf8.decodeReplacing_take (by omega) (by omega)]
  · rw [clipHead_of_fits fits, List.take_of_length_le (by rwa [length_encode]),
      Utf8.decodeReplacing_encode]

/-- **`data[-limit:].decode("utf-8", errors="replace")`**, where it cuts something off. -/
theorem clipTail_eq (beyond : limit < utf8Len s) :
    Utf8.decodeReplacing ((Utf8.encode s).drop (utf8Len s - limit)) = clipTail limit s.reverse := by
  rw [← utf8Len_reverse] at beyond
  obtain ⟨after, c, before, cut, low, high⟩ := exists_cut beyond
  have whole : s = before.reverse ++ c :: after.reverse := by
    rw [← s.reverse_reverse, cut, List.reverse_append, List.reverse_cons, List.append_assoc,
      List.singleton_append]
  have length : utf8Len s = utf8Len before + c.utf8Size + utf8Len after := by
    rw [whole, utf8Len_append, utf8Len_cons, utf8Len_reverse, utf8Len_reverse]
    omega
  rw [cut, clipTail_cut low high, length, whole, encode_append_cons, List.drop_append,
    length_encode, utf8Len_reverse,
    List.drop_eq_nil_of_le (by rw [length_encode, utf8Len_reverse]; omega), List.nil_append,
    List.drop_append_of_le_length (by rw [String.length_utf8EncodeChar]; omega),
    Utf8.decodeReplacing_drop (by omega)]
  congr 2
  omega

end Bytes

/-! ## The outputs that are cut as they should be -/

/-- **Exactly what is cut between two characters is cut as it should be**: the output that a
target accumulates under any limit, and the output of an event under any bound; and of an
event, unless white space at the end of the text is stripped from more than white space. -/
theorem outputs_exact_iff (target : RunTarget) (limit : Nat) (outputs : List String)
    (maxEventOutputBytes : Nat) (stdout : String) :
    (Exact limit (String.join outputs)
          (outputs.foldl (fun accumulator output => accumulator.addOutput output limit)
            { target := target }) ↔
        (String.join outputs).utf8ByteSize ≤ limit ∨
          SplitsAt limit (String.join outputs).toList) ∧
      ((storedOutput maxEventOutputBytes stdout).toList <:+ stdout.toList ∧
          (storedOutput maxEventOutputBytes stdout).utf8ByteSize ≤ maxEventOutputBytes ↔
        ∃ kept, IsKept maxEventOutputBytes stdout.toList kept ∧
          ((∀ c ∈ kept, isWhiteSpace c.toNat = true) ∨
            ∀ c ∈ stdout.toList.getLast?, isWhiteSpace c.toNat = false)) := by
  constructor
  · exact exact_iff_of_keeps ((keeps_start limit target).foldl outputs)
  · exact storedOutput_exact_iff

/-- **An `é` that is cut in two** takes three bytes, and is no part of what was written; and a
line that ends with its line feed is stored without it. -/
theorem outputs_exact_fails :
    ¬ Exact 1 "é" (["é"].foldl (fun accumulator output => accumulator.addOutput output 1)
      { target := webTarget }) ∧
    ¬ ((storedOutput 1 "é").toList <:+ "é".toList ∧ (storedOutput 1 "é").utf8ByteSize ≤ 1) ∧
    ¬ ((storedOutput 65536 "ok\n").toList <:+ "ok\n".toList ∧
      (storedOutput 65536 "ok\n").utf8ByteSize ≤ 65536) := by
  have cut : ¬ SplitsAt 1 ['é'] := by
    intro splits
    exact absurd ((splitsAt_iff_of_cut (s := []) (by decide) (by decide)).mp splits) (by decide)
  refine ⟨fun exact => ?_, fun exact => ?_, fun exact => ?_⟩
  · have keeps := (keeps_start 1 webTarget).foldl ["é"]
    exact ((exact_iff_of_keeps keeps).mp exact).elim (by decide) cut
  · obtain ⟨kept, ⟨isSuffix, fits⟩, -⟩ := storedOutput_exact_iff.mp exact
    rcases fits with ⟨-, fits⟩ | exactly
    · exact absurd fits (by decide)
    · exact cut (endsAt_iff.mp ⟨kept, isSuffix, exactly⟩)
  · obtain ⟨kept, isKept, ends⟩ := storedOutput_exact_iff.mp exact
    have isText : "ok\n".toList = ['o', 'k', '\n'] := by decide
    rw [isText] at isKept ends
    obtain ⟨isSuffix, fits⟩ := isKept
    rcases ends with blank | plain
    · rcases fits with ⟨rfl, -⟩ | exactly
      · exact absurd (blank 'o' List.mem_cons_self) (by decide)
      · have short : utf8Len ['o', 'k', '\n'] ≤ 3 := by decide
        have within := utf8Len_le_of_suffix isSuffix
        omega
    · exact absurd (plain '\n' rfl) (by decide)

/-- A line without a line feed is stored as it is. -/
theorem outputs_exact_iff_ascii :
    (storedOutput 1 "ab").toList <:+ "ab".toList ∧ (storedOutput 1 "ab").utf8ByteSize ≤ 1 ↔
      ∃ kept, IsKept 1 "ab".toList kept ∧ ((∀ c ∈ kept, isWhiteSpace c.toNat = true) ∨
        ∀ c ∈ "ab".toList.getLast?, isWhiteSpace c.toNat = false) :=
  (outputs_exact_iff webTarget 1 ["ab"] 1 "ab").2

end OpsComposer.Services.Worker
