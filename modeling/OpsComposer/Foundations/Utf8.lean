import Mathlib.Tactic.Common

/-!
# UTF-8 decoded with replacement

`bytes.decode("utf-8", errors="replace")`: a machine that takes one byte after the
other.  A sequence that breaks off, because its bytes end or the next one cannot
continue it, becomes one replacement character, and so does a byte that begins no
sequence.

* `decodeReplacing_encode` — decoding undoes encoding;
* `decodeReplacing_take` — a character that has lost its last bytes is one
  replacement character;
* `decodeReplacing_drop` — of a character that has lost its first bytes, every byte
  is one.
-/

set_option autoImplicit false

namespace OpsComposer.Foundations.Utf8

/-- Between two characters; or inside one, with the bits so far, the number of bytes
that are due, and the range of the next one. -/
inductive State where
  | start
  | within (value due low high : Nat)

/-- A byte between two characters: what is decoded, and the state after it. -/
def begin (b : Nat) : List Char × State :=
  if b < 0x80 then ([Char.ofNat b], .start)
  else if b < 0xC2 then (['\uFFFD'], .start)
  else if b < 0xE0 then ([], .within (b % 32) 1 0x80 0xBF)
  else if b = 0xE0 then ([], .within (b % 16) 2 0xA0 0xBF)
  else if b = 0xED then ([], .within (b % 16) 2 0x80 0x9F)
  else if b < 0xF0 then ([], .within (b % 16) 2 0x80 0xBF)
  else if b = 0xF0 then ([], .within (b % 8) 3 0x90 0xBF)
  else if b < 0xF4 then ([], .within (b % 8) 3 0x80 0xBF)
  else if b = 0xF4 then ([], .within (b % 8) 3 0x80 0x8F)
  else (['\uFFFD'], .start)

/-- One more byte: the characters that it ends, and the state after it. -/
def feed : State → Nat → List Char × State
  | .start, b => begin b
  | .within value due low high, b =>
      if low ≤ b ∧ b ≤ high then
        if due = 1 then ([Char.ofNat (value * 64 + b % 64)], .start)
        else ([], .within (value * 64 + b % 64) (due - 1) 0x80 0xBF)
      else ('\uFFFD' :: (begin b).1, (begin b).2)

/-- What is decoded when the bytes end. -/
def State.finish : State → List Char
  | .start => []
  | .within _ _ _ _ => ['\uFFFD']

/-- The characters of the bytes, from this state on. -/
def run : State → List UInt8 → List Char
  | state, [] => state.finish
  | state, b :: bytes => (feed state b.toNat).1 ++ run (feed state b.toNat).2 bytes

/-- `bytes.decode("utf-8", errors="replace")`. -/
def decodeReplacing (bytes : List UInt8) : List Char := run .start bytes

/-- `s.encode()`. -/
def encode (s : List Char) : List UInt8 := s.flatMap String.utf8EncodeChar

section Bytes

variable {bytes : List UInt8} {value due low high b v : Nat}

theorem feed_within (isLow : low ≤ b) (isHigh : b ≤ high) :
    feed (.within value due low high) b =
      if due = 1 then ([Char.ofNat (value * 64 + b % 64)], .start)
      else ([], .within (value * 64 + b % 64) (due - 1) 0x80 0xBF) := by
  rw [feed, if_pos ⟨isLow, isHigh⟩]

theorem run_cons (small : b < 256) (state : State) :
    run state (UInt8.ofNat b :: bytes) = (feed state b).1 ++ run (feed state b).2 bytes := by
  rw [run, UInt8.toNat_ofNat_of_lt' small]

/-- A continuation byte between two characters. -/
theorem run_continuation (isLow : 0x80 ≤ b) (isHigh : b ≤ 0xBF) :
    run .start (UInt8.ofNat b :: bytes) = '\uFFFD' :: run .start bytes := by
  rw [run_cons (by omega), feed, begin, if_neg (by omega), if_pos (by omega)]
  rfl

/-- The first byte of two. -/
theorem begin_two (isLow : 0x7F < v) (isHigh : v ≤ 0x7FF) :
    begin (v / 64 % 32 + 0xC0) = ([], .within (v / 64) 1 0x80 0xBF) := by
  have value : (v / 64 % 32 + 0xC0) % 32 = v / 64 := by omega
  rw [begin, if_neg (by omega), if_neg (by omega), if_pos (by omega), value]

/-- The first byte of three allows the second one. -/
theorem begin_three (isLow : 0x7FF < v) (isHigh : v ≤ 0xFFFF)
    (noSurrogate : v < 0xD800 ∨ 0xDFFF < v) :
    ∃ low high, begin (v / 4096 % 16 + 0xE0) = ([], .within (v / 4096) 2 low high) ∧
      low ≤ v / 64 % 64 + 0x80 ∧ v / 64 % 64 + 0x80 ≤ high := by
  have value : (v / 4096 % 16 + 0xE0) % 16 = v / 4096 := by omega
  rw [begin, if_neg (by omega), if_neg (by omega), if_neg (by omega), value]
  split
  · exact ⟨_, _, rfl, by omega, by omega⟩
  split
  · exact ⟨_, _, rfl, by omega, by omega⟩
  · rw [if_pos (by omega)]
    exact ⟨_, _, rfl, by omega, by omega⟩

/-- The first byte of four allows the second one. -/
theorem begin_four (isLow : 0xFFFF < v) (isHigh : v < 0x110000) :
    ∃ low high, begin (v / 262144 % 8 + 0xF0) = ([], .within (v / 262144) 3 low high) ∧
      low ≤ v / 4096 % 64 + 0x80 ∧ v / 4096 % 64 + 0x80 ≤ high := by
  have value : (v / 262144 % 8 + 0xF0) % 8 = v / 262144 := by omega
  rw [begin, if_neg (by omega), if_neg (by omega), if_neg (by omega), if_neg (by omega),
    if_neg (by omega), if_neg (by omega), value]
  split
  · exact ⟨_, _, rfl, by omega, by omega⟩
  split
  · exact ⟨_, _, rfl, by omega, by omega⟩
  · rw [if_pos (by omega)]
    exact ⟨_, _, rfl, by omega, by omega⟩

end Bytes

/-! ## Characters -/

/-- A continuation byte, with these six bits. -/
def continuation (bits : Nat) : UInt8 := UInt8.ofNat (bits + 0x80)

section Characters

variable {c : Char} {bytes : List UInt8} {value low high k : Nat} {rest : List Nat}

/-- The bits of the bytes that are due. -/
structure Due (rest : List Nat) (low high : Nat) : Prop where
  small : ∀ bits ∈ rest, bits < 64
  first : ∀ bits ∈ rest.head?, low ≤ bits + 0x80 ∧ bits + 0x80 ≤ high

theorem Due.tail {bits : Nat} (isDue : Due (bits :: rest) low high) : Due rest 0x80 0xBF where
  small := fun bits member => isDue.small bits (List.mem_cons_of_mem _ member)
  first := by
    intro bits member
    have small := isDue.small bits (List.mem_cons_of_mem _ (List.mem_of_mem_head? member))
    omega

/-- One of the bytes that are due. -/
theorem Due.feed {bits : Nat} (isDue : Due (bits :: rest) low high) :
    run (.within value (rest.length + 1) low high) (continuation bits :: bytes) =
      if rest = [] then Char.ofNat (value * 64 + bits) :: run .start bytes
      else run (.within (value * 64 + bits) rest.length 0x80 0xBF) bytes := by
  have small := isDue.small bits List.mem_cons_self
  obtain ⟨isLow, isHigh⟩ := isDue.first bits rfl
  have low6 : (bits + 0x80) % 64 = bits := by omega
  rw [continuation, run_cons (by omega), feed_within isLow isHigh, low6]
  cases rest with
  | nil => rfl
  | cons next rest =>
      rw [if_neg (by simp), if_neg (by simp), List.nil_append]
      rfl

/-- **All the bytes that are due.** -/
theorem Due.run (isDue : Due rest low high) (some : rest ≠ []) :
    run (.within value rest.length low high) (rest.map continuation ++ bytes) =
      Char.ofNat (rest.foldl (fun value bits => value * 64 + bits) value) ::
        run .start bytes := by
  induction rest generalizing value low high with
  | nil => exact absurd rfl some
  | cons bits rest ih =>
      rw [List.map_cons, List.cons_append, List.length_cons, isDue.feed]
      by_cases last : rest = []
      · subst last
        rfl
      · rw [if_neg last, ih isDue.tail last, List.foldl_cons]

/-- **Not all of them.** -/
theorem Due.run_take (isDue : Due rest low high) (short : k < rest.length) :
    Utf8.run (.within value rest.length low high) ((rest.map continuation).take k) =
      ['\uFFFD'] := by
  induction rest generalizing value low high k with
  | nil => cases short
  | cons bits rest ih =>
      cases k with
      | zero => rfl
      | succ k =>
          rw [List.length_cons] at short
          have last : rest ≠ [] := by
            rintro rfl
            exact absurd short (by simp)
          rw [List.map_cons, List.take_succ_cons, List.length_cons, isDue.feed, if_neg last,
            ih isDue.tail (by omega)]

/-- A character is a byte, or a first byte that makes others due. -/
inductive Shape (c : Char) : List UInt8 → Prop where
  | one {v : Nat} (small : v < 0x80) (same : v = c.toNat) : Shape c [UInt8.ofNat v]
  | more {lead value low high : Nat} (rest : List Nat) (small : lead < 256)
      (begins : begin lead = ([], .within value rest.length low high))
      (isDue : Due rest low high) (some : rest ≠ [])
      (same : rest.foldl (fun value bits => value * 64 + bits) value = c.toNat) :
      Shape c (UInt8.ofNat lead :: rest.map continuation)

theorem shape (c : Char) : Shape c (String.utf8EncodeChar c) := by
  have valid : c.toNat < 0xD800 ∨ 0xDFFF < c.toNat ∧ c.toNat < 0x110000 := c.valid
  have toNat : c.val.toNat = c.toNat := rfl
  unfold String.utf8EncodeChar
  rw [toNat]
  have continues : ∀ {rest : List Nat} {bits low high : Nat}, low ≤ bits + 0x80 →
      bits + 0x80 ≤ high → (∀ other ∈ bits :: rest, other < 64) → Due (bits :: rest) low high := by
    intro rest bits low high isLow isHigh small
    refine ⟨small, ?_⟩
    rintro _ ⟨⟩
    exact ⟨isLow, isHigh⟩
  generalize same : c.toNat = v at valid
  simp only
  split
  · exact .one (by omega) same.symm
  split
  · refine .more [v % 64] (by omega) (begin_two (by omega) (by omega))
      (continues (by omega) (by omega) (by simp; omega)) (by simp) ?_
    rw [same, List.foldl_cons, List.foldl_nil]
    omega
  split
  · obtain ⟨low, high, begins, isLow, isHigh⟩ :=
      begin_three (v := v) (by omega) (by omega) (by omega)
    refine .more [v / 64 % 64, v % 64] (by omega) begins
      (continues isLow isHigh (by simp; omega)) (by simp) ?_
    rw [same, List.foldl_cons, List.foldl_cons, List.foldl_nil]
    omega
  · obtain ⟨low, high, begins, isLow, isHigh⟩ := begin_four (v := v) (by omega) (by omega)
    refine .more [v / 4096 % 64, v / 64 % 64, v % 64] (by omega) begins
      (continues isLow isHigh (by simp; omega)) (by simp) ?_
    rw [same, List.foldl_cons, List.foldl_cons, List.foldl_cons, List.foldl_nil]
    omega

/-- **A whole character.** -/
theorem run_encodeChar (c : Char) (bytes : List UInt8) :
    run .start (String.utf8EncodeChar c ++ bytes) = c :: run .start bytes := by
  generalize isShape : String.utf8EncodeChar c = encoded
  cases isShape ▸ shape c with
  | one small same =>
      rw [List.cons_append, List.nil_append, run_cons (by omega), feed, begin, if_pos small, same,
        Char.ofNat_toNat]
      rfl
  | more _ small begins isDue some same =>
      rw [List.cons_append, run_cons small, feed, begins, List.nil_append, isDue.run some, same,
        Char.ofNat_toNat]

/-- **A character that has lost its last bytes.** -/
theorem run_take_encodeChar (positive : 0 < k) (short : k < c.utf8Size) :
    run .start ((String.utf8EncodeChar c).take k) = ['\uFFFD'] := by
  rw [← String.length_utf8EncodeChar] at short
  generalize isShape : String.utf8EncodeChar c = encoded at short
  obtain ⟨k, rfl⟩ := Nat.exists_eq_add_of_lt positive
  cases isShape ▸ shape c with
  | one small same => exact absurd short (by simp)
  | more _ small begins isDue some same =>
      rw [List.length_cons, List.length_map] at short
      rw [List.take_succ_cons, run_cons small, feed, begins, List.nil_append,
        isDue.run_take (Nat.lt_of_succ_lt_succ short)]

/-- The bytes after the first one, between two characters. -/
theorem run_continuations (small : ∀ bits ∈ rest, bits < 64) :
    run .start (rest.map continuation ++ bytes) =
      List.replicate rest.length '\uFFFD' ++ run .start bytes := by
  induction rest with
  | nil => rfl
  | cons bits rest ih =>
      rw [List.forall_mem_cons] at small
      rw [List.map_cons, List.cons_append, continuation, run_continuation (by omega) (by omega),
        ih small.2, List.length_cons, List.replicate_succ, List.cons_append]

/-- **A character that has lost its first bytes.** -/
theorem run_drop_encodeChar (positive : 0 < k) (bytes : List UInt8) :
    run .start ((String.utf8EncodeChar c).drop k ++ bytes) =
      List.replicate (c.utf8Size - k) '\uFFFD' ++ run .start bytes := by
  rw [← String.length_utf8EncodeChar]
  generalize isShape : String.utf8EncodeChar c = encoded
  obtain ⟨k, rfl⟩ := Nat.exists_eq_add_of_lt positive
  cases isShape ▸ shape c with
  | one small same => simp
  | @more _ _ _ _ rest small begins isDue some same =>
      rw [List.drop_succ_cons, ← List.map_drop, run_continuations fun bits member =>
        isDue.small bits (List.mem_of_mem_drop member), List.length_drop, List.length_cons,
        List.length_map, Nat.add_sub_add_right]

end Characters

/-! ## Texts -/

section Texts

variable {s t : List Char} {c : Char} {k : Nat}

theorem run_encode (s : List Char) (bytes : List UInt8) :
    run .start (encode s ++ bytes) = s ++ run .start bytes := by
  induction s with
  | nil => rfl
  | cons c s ih =>
      rw [encode, List.flatMap_cons, List.append_assoc, run_encodeChar, ← encode, ih,
        List.cons_append]

/-- **Decoding undoes encoding.** -/
theorem decodeReplacing_encode (s : List Char) : decodeReplacing (encode s) = s := by
  have whole := run_encode s []
  rwa [List.append_nil, run, State.finish, List.append_nil] at whole

/-- The first bytes of a text, up to a place inside a character. -/
theorem decodeReplacing_take (positive : 0 < k) (short : k < c.utf8Size) :
    decodeReplacing (encode s ++ (String.utf8EncodeChar c).take k) = s ++ ['\uFFFD'] := by
  rw [decodeReplacing, run_encode, run_take_encodeChar positive short]

/-- The last bytes of a text, from a place inside a character. -/
theorem decodeReplacing_drop (positive : 0 < k) :
    decodeReplacing ((String.utf8EncodeChar c).drop k ++ encode t) =
      List.replicate (c.utf8Size - k) '\uFFFD' ++ t := by
  rw [decodeReplacing, run_drop_encodeChar positive, ← decodeReplacing, decodeReplacing_encode]

end Texts

end OpsComposer.Foundations.Utf8
