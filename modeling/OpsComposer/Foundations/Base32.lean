import Mathlib.Data.List.DropRight
import OpsComposer.Foundations.UnicodeTables

/-!
# Base 32

`base64.b32encode` and `base64.b32decode(…, casefold=True)`, byte for byte: five
bytes are a number that is written with eight digits, and a last group that is
short is filled up with `=`.

* `Base32.decode` refuses what is not filled up, what is not a digit, and a filling
  of a length that no number of bytes leaves;
* `isSome_decode` — full groups of digits are decoded;
* `encode_digits`, `encode_full` — what is written are digits, in full groups where the
  bytes are.
-/

set_option autoImplicit false

namespace OpsComposer.Foundations.Base32

/-- The 32 digits. -/
def alphabet : Text := text "ABCDEFGHIJKLMNOPQRSTUVWXYZ234567"

/-- The value of a digit. -/
def digit? (c : UInt8) : Option Nat :=
  let value := alphabet.idxOf c.toNat
  if value < 32 then some value else none

/-- A list in groups of eight, the last of which may be short. -/
def groupsOfEight {α : Type} : List α → List (List α)
  | a :: b :: c :: d :: e :: f :: g :: h :: rest => [a, b, c, d, e, f, g, h] :: groupsOfEight rest
  | [] => []
  | rest => [rest]

/-- The number that digits are. -/
def valueOf (digits : List Nat) : Nat := digits.foldl (fun acc digit => acc * 32 + digit) 0

/-- `acc.to_bytes(5)`. -/
def fiveBytes (acc : Nat) : Bytes :=
  [4, 3, 2, 1, 0].map fun place => UInt8.ofNat (acc / 256 ^ place % 256)

/-- `bytes.upper()`. -/
def upperBytes (s : Bytes) : Bytes := s.map fun c => if 97 ≤ c ∧ c ≤ 122 then c - 32 else c

/-- `s.rstrip(b"=")`. -/
def stripPadding (s : Bytes) : Bytes := s.rdropWhile (· == 61)

/-- What the digits are decoded to, where `padding` of them are missing. -/
def decodeDigits (digits : List Nat) (padding : Nat) : Option Bytes :=
  let groups := (groupsOfEight digits).map valueOf
  let decoded := groups.flatMap fiveBytes
  if padding ∉ [0, 1, 3, 4, 6] then none
  else if padding ≠ 0 ∧ decoded ≠ [] then
    let last := fiveBytes (groups.getLastD 0 * 32 ^ padding)
    some (decoded.take (decoded.length - 5) ++ last.take ((43 - 5 * padding) / 8))
  else some decoded

/-- `base64.b32decode(s, casefold=True)` of the bytes of `s`. -/
def decode (s : Bytes) : Option Bytes :=
  if s.length % 8 ≠ 0 then none
  else
    let body := stripPadding (upperBytes s)
    (body.mapM digit?).bind fun digits => decodeDigits digits (s.length - body.length)

/-- The eight digits of five bytes. -/
def eightDigits (a b c d e : UInt8) : Text :=
  let number := (((a.toNat * 256 + b.toNat) * 256 + c.toNat) * 256 + d.toNat) * 256 + e.toNat
  [7, 6, 5, 4, 3, 2, 1, 0].map fun place => alphabet.getD (number / 32 ^ place % 32) 0

/-- `base64.b32encode(s)`. -/
def encode : Bytes → Text
  | a :: b :: c :: d :: e :: rest => eightDigits a b c d e ++ encode rest
  | [a, b, c, d] => (eightDigits a b c d 0).take 7 ++ [61]
  | [a, b, c] => (eightDigits a b c 0 0).take 5 ++ [61, 61, 61]
  | [a, b] => (eightDigits a b 0 0 0).take 4 ++ [61, 61, 61, 61]
  | [a] => (eightDigits a 0 0 0 0).take 2 ++ [61, 61, 61, 61, 61, 61]
  | [] => []

example : encode [102, 111, 111, 98] = text "MZXW6YQ=" := by decide
example : decode ((text "mzxw6yq=").map UInt8.ofNat) = some [102, 111, 111, 98] := by decide

/-! ## Digits -/

/-- A text of digits. -/
def AllDigits (s : Text) : Prop := ∀ c ∈ s, c ∈ alphabet

theorem alphabet_ascii : ∀ c ∈ alphabet, c < 128 := by decide

theorem alphabet_upper : ∀ c ∈ alphabet, asciiUpper c = c := by decide

theorem digit?_of_mem : ∀ c ∈ alphabet, (digit? (UInt8.ofNat c)).isSome := by decide

theorem getD_alphabet : ∀ value < 32, alphabet.getD value 0 ∈ alphabet := by decide

theorem upperBytes_of_mem : ∀ c ∈ alphabet, upperBytes [UInt8.ofNat c] = [UInt8.ofNat c] := by
  decide

theorem not_padding_of_mem : ∀ c ∈ alphabet, UInt8.ofNat c ≠ 61 := by decide

variable {s : Text}

theorem AllDigits.ascii (digits : AllDigits s) : ∀ c ∈ s, c < 128 :=
  fun c member => alphabet_ascii c (digits c member)

theorem AllDigits.append {t : Text} (digits : AllDigits s) (digits' : AllDigits t) :
    AllDigits (s ++ t) := by
  intro c member
  rcases List.mem_append.mp member with left | right
  · exact digits c left
  · exact digits' c right

theorem AllDigits.take (digits : AllDigits s) (count : Nat) : AllDigits (s.take count) :=
  fun c member => digits c (List.mem_of_mem_take member)

theorem upperBytes_of_digits (digits : AllDigits s) :
    upperBytes (s.map UInt8.ofNat) = s.map UInt8.ofNat := by
  induction s with
  | nil => rfl
  | cons c s ih =>
      obtain ⟨first, rest⟩ := List.forall_mem_cons.mp digits
      have head := List.cons.inj (upperBytes_of_mem c first)
      exact congrArg₂ List.cons head.1 (ih rest)

/-- Digits are not stripped. -/
theorem stripPadding_of_digits (digits : AllDigits s) :
    stripPadding (s.map UInt8.ofNat) = s.map UInt8.ofNat := by
  rw [stripPadding, List.rdropWhile_eq_self_iff]
  intro nonempty
  obtain ⟨c, member, isLast⟩ := List.mem_map.mp (List.getLast_mem nonempty)
  rw [← isLast, beq_iff_eq]
  exact not_padding_of_mem c (digits c member)

theorem isSome_digits (digits : AllDigits s) : ((s.map UInt8.ofNat).mapM digit?).isSome := by
  induction s with
  | nil => rfl
  | cons c s ih =>
      obtain ⟨first, rest⟩ := List.forall_mem_cons.mp digits
      obtain ⟨value, isValue⟩ := Option.isSome_iff_exists.mp (digit?_of_mem c first)
      obtain ⟨values, areValues⟩ := Option.isSome_iff_exists.mp (ih rest)
      simp [isValue, areValues]

/-- **Full groups of digits are decoded.** -/
theorem isSome_decode (digits : AllDigits s) (full : s.length % 8 = 0) :
    (decode (s.map UInt8.ofNat)).isSome := by
  obtain ⟨values, areValues⟩ := Option.isSome_iff_exists.mp (isSome_digits digits)
  unfold decode
  rw [List.length_map, if_neg (by omega)]
  simp only [upperBytes_of_digits digits, stripPadding_of_digits digits, areValues,
    List.length_map, Nat.sub_self, Option.bind_some]
  rfl

/-! ## Writing -/

theorem eightDigits_digits (a b c d e : UInt8) : AllDigits (eightDigits a b c d e) := by
  intro digit member
  obtain ⟨place, -, rfl⟩ := List.mem_map.mp member
  exact getD_alphabet _ (Nat.mod_lt _ (by omega))

theorem length_eightDigits (a b c d e : UInt8) : (eightDigits a b c d e).length = 8 := rfl

/-- Digits, some of them left out, and padding in their place. -/
theorem digits_or_padding {rest : Text} (digits : AllDigits s) (count : Nat)
    (padding : ∀ c ∈ rest, c ∈ alphabet ∨ c = 61) :
    ∀ c ∈ s.take count ++ rest, c ∈ alphabet ∨ c = 61 := by
  intro c member
  rcases List.mem_append.mp member with here | later
  · exact .inl (digits.take count c here)
  · exact padding c later

/-- What is written are digits and padding. -/
theorem encode_digits (bytes : Bytes) : ∀ c ∈ encode bytes, c ∈ alphabet ∨ c = 61 := by
  induction bytes using encode.induct with
  | case1 a b c d e rest ih => exact digits_or_padding (eightDigits_digits a b c d e) 8 ih
  | case2 a b c d => exact digits_or_padding (eightDigits_digits a b c d 0) 7 (by simp)
  | case3 a b c => exact digits_or_padding (eightDigits_digits a b c 0 0) 5 (by simp)
  | case4 a b => exact digits_or_padding (eightDigits_digits a b 0 0 0) 4 (by simp)
  | case5 a => exact digits_or_padding (eightDigits_digits a 0 0 0 0) 2 (by simp)
  | case6 => exact fun c member => absurd member List.not_mem_nil

/-- Full groups of bytes are written in full groups of digits. -/
theorem encode_full {bytes : Bytes} (full : bytes.length % 5 = 0) :
    AllDigits (encode bytes) ∧ (encode bytes).length % 8 = 0 := by
  induction bytes using encode.induct with
  | case1 a b c d e rest ih =>
      obtain ⟨digits, length⟩ := ih (by simp only [List.length_cons] at full; omega)
      refine ⟨(eightDigits_digits a b c d e).append digits, ?_⟩
      rw [encode, List.length_append, length_eightDigits]
      omega
  | case2 | case3 | case4 | case5 => simp at full
  | case6 => exact ⟨fun _ member => absurd member List.not_mem_nil, rfl⟩

end OpsComposer.Foundations.Base32
