import Mathlib.Algebra.GroupWithZero.Nat
import Mathlib.Algebra.Order.BigOperators.Group.List
import Mathlib.Algebra.Order.Group.Nat
import Mathlib.Data.List.Forall2
import Mathlib.Data.List.Lex
import Mathlib.Data.List.Sort
import Mathlib.Data.List.TakeWhile

/-!
# Texts

The `str` and `bytes` values of Python.  A `Text` is a list of code points,
surrogates included, as a `str` may hold them; the order of texts is the
lexicographic one that `<` on `str` is.

* `Text.split`, `Text.join` — `s.split(sep)` and `sep.join(parts)` for a
  separator of one character;
* `Text.strip` — `s.strip()`;
* `Text.replace` — `s.replace(old, new)` for the line ends;
* `Text.encode`, `Text.decode` — strict UTF-8;
* `sortedBy` — `sorted(items, key=…)`, which is stable.
-/

set_option autoImplicit false

namespace OpsComposer.Foundations

/-- A text, as its code points. -/
abbrev Text := List Nat

instance : LawfulBEq Text := inferInstanceAs (LawfulBEq (List Nat))

/-- A `bytes` value. -/
abbrev Bytes := List UInt8

/-- A literal. -/
def text (literal : String) : Text := literal.toList.map Char.toNat

/-! ## Sorting -/

/-- `sorted(items, key=key)`. -/
def sortedBy {α : Type} (key : α → Text) (items : List α) : List α :=
  items.insertionSort fun a b => key a ≤ key b

section SortedBy

variable {α : Type} {key : α → Text} {items : List α}

theorem sortedBy_perm : (sortedBy key items).Perm items :=
  List.perm_insertionSort _ _

theorem mem_sortedBy {item : α} : item ∈ sortedBy key items ↔ item ∈ items :=
  sortedBy_perm.mem_iff

theorem sortedBy_pairwise : (sortedBy key items).Pairwise fun a b => key a ≤ key b := by
  have total : Std.Total fun a b : α => key a ≤ key b := ⟨fun a b => le_total (key a) (key b)⟩
  have trans : IsTrans α fun a b : α => key a ≤ key b := ⟨fun _ _ _ => le_trans⟩
  exact List.pairwise_insertionSort _ items

/-- Sorting leaves a sorted list as it is. -/
theorem sortedBy_of_pairwise (sorted : items.Pairwise fun a b => key a ≤ key b) :
    sortedBy key items = items :=
  sorted.insertionSort_eq

/-- **The order of the input does not matter** where the keys are different. -/
theorem sortedBy_of_perm {others : List α} (perm : others.Perm items)
    (sorted : items.Pairwise fun a b => key a ≤ key b) (distinct : (items.map key).Nodup) :
    sortedBy key others = items := by
  refine List.Perm.eq_of_pairwise ?_ sortedBy_pairwise sorted (sortedBy_perm.trans perm)
  intro a b _ member ab ba
  have member' : a ∈ items := perm.mem_iff.mp (mem_sortedBy.mp ‹_›)
  exact List.inj_on_of_nodup_map distinct member' member (le_antisymm ab ba)

end SortedBy

namespace Text

/-! ## Splitting and joining -/

/-- `s.split(sep)`. -/
def split (separator : Nat) (s : Text) : List Text := s.splitOn separator

/-- `sep.join(parts)`. -/
def join (separator : Nat) (parts : List Text) : Text := [separator].intercalate parts

theorem join_split (separator : Nat) (s : Text) : join separator (split separator s) = s :=
  List.intercalate_splitOn separator

variable {b : Bytes} {parts : List Text} {c separator : Nat} {s : Text}

theorem split_join (clean : ∀ part ∈ parts, separator ∉ part) (nonempty : parts ≠ []) :
    split separator (join separator parts) = parts :=
  List.splitOn_intercalate separator clean nonempty

@[simp] theorem join_nil (separator : Nat) : join separator [] = [] := rfl

@[simp] theorem join_singleton (separator : Nat) (part : Text) : join separator [part] = part := by
  simp [join, List.intercalate]

theorem join_cons (separator : Nat) (part : Text) (nonempty : parts ≠ []) :
    join separator (part :: parts) = part ++ separator :: join separator parts := by
  cases parts with
  | nil => exact absurd rfl nonempty
  | cons next parts => simp [join, List.intercalate, List.intersperse]

/-- The characters of a joined text. -/
theorem mem_join (member : c ∈ join separator parts) :
    c = separator ∨ ∃ part ∈ parts, c ∈ part := by
  induction parts with
  | nil => cases member
  | cons part parts ih =>
      by_cases last : parts = []
      · subst last
        rw [join_singleton] at member
        exact .inr ⟨part, List.mem_cons_self .., member⟩
      · rw [join_cons separator part last, List.mem_append, List.mem_cons] at member
        rcases member with here | rfl | later
        · exact .inr ⟨part, List.mem_cons_self .., here⟩
        · exact .inl rfl
        · rcases ih later with same | ⟨other, member, inside⟩
          · exact .inl same
          · exact .inr ⟨other, List.mem_cons_of_mem _ member, inside⟩

/-- A part of a joined text is inside it. -/
theorem mem_join_of_mem {part : Text}
    (member : part ∈ parts) (inside : c ∈ part) : c ∈ join separator parts := by
  induction parts with
  | nil => cases member
  | cons head parts ih =>
      by_cases last : parts = []
      · subst last
        rw [join_singleton]
        rcases List.mem_singleton.mp member with rfl
        exact inside
      · rw [join_cons separator head last, List.mem_append, List.mem_cons]
        rcases List.mem_cons.mp member with rfl | later
        · exact .inl inside
        · exact .inr (.inr (ih later))

/-- The parts of a split text do not hold the separator. -/
theorem not_mem_split {part : Text} (member : part ∈ split separator s) : separator ∉ part := by
  induction s generalizing part with
  | nil =>
      simp only [split, List.splitOn_nil, List.mem_singleton] at member
      simp [member]
  | cons c s ih =>
      simp only [split, List.splitOn_cons_eq_if_modifyHead] at member ih
      by_cases here : c = separator
      · simp only [here, BEq.rfl, if_true, List.mem_cons] at member
        rcases member with rfl | later
        · exact List.not_mem_nil
        · exact ih later
      · simp only [beq_iff_eq, here, if_false] at member
        cases pieces : s.splitOn separator with
        | nil => simp [pieces] at member
        | cons first rest =>
            rw [pieces] at member ih
            simp only [List.modifyHead_cons, List.mem_cons] at member ih
            rcases member with rfl | later
            · simp only [List.mem_cons, not_or]
              exact ⟨Ne.symm here, ih (.inl rfl)⟩
            · exact ih (.inr later)

/-- A text is split at each separator by itself. -/
theorem split_append (separator : Nat) (s t : Text) :
    split separator (s ++ separator :: t) = split separator s ++ split separator t :=
  List.splitOnP_append_cons s t (beq_self_eq_true separator)

/-- The length of a joined text: its parts, each with a separator, but the last. -/
theorem length_join_add_one (nonempty : parts ≠ []) :
    (join separator parts).length + 1 = (parts.map fun part => part.length + 1).sum := by
  induction parts with
  | nil => exact absurd rfl nonempty
  | cons part parts ih =>
      by_cases last : parts = []
      · subst last
        simp
      · rw [join_cons separator part last]
        have rest := ih last
        simp only [List.length_append, List.length_cons, List.map_cons, List.sum_cons]
        omega

/-- Leaving parts out makes a joined text no longer. -/
theorem length_join_le_of_sublist {others : List Text} (sublist : parts.Sublist others) :
    (join separator parts).length ≤ (join separator others).length := by
  by_cases empty : parts = []
  · subst empty
    exact Nat.zero_le _
  · have nonempty : others ≠ [] := by
      rintro rfl
      exact empty (List.sublist_nil.mp sublist)
    have left : (join separator parts).length + 1 = _ := length_join_add_one empty
    have right : (join separator others).length + 1 = _ := length_join_add_one nonempty
    have le : (parts.map fun part => part.length + 1).sum ≤
        (others.map fun part => part.length + 1).sum :=
      (sublist.map _).sum_le_sum fun _ _ => Nat.zero_le _
    omega

/-! ## Stripping and replacing -/

/-- `str.isspace` for one character. -/
def isSpace (c : Nat) : Bool :=
  (9 ≤ c && c ≤ 13) || (28 ≤ c && c ≤ 32) || (8192 ≤ c && c ≤ 8202) ||
    [133, 160, 5760, 8232, 8233, 8239, 8287, 12288].contains c

/-- `s.strip()`. -/
def strip (s : Text) : Text := ((s.dropWhile isSpace).reverse.dropWhile isSpace).reverse

/-- A text that stripping leaves alone neither begins nor ends with white space. -/
theorem ends_of_strip (plain : s.strip = s) :
    (∀ c ∈ s.head?, isSpace c = false) ∧ ∀ c ∈ s.getLast?, isSpace c = false := by
  have shorter : (s.dropWhile isSpace).reverse.dropWhile isSpace = s.reverse :=
    List.reverse_eq_iff.mp plain
  have left : s.dropWhile isSpace = s := by
    refine (List.dropWhile_suffix isSpace).eq_of_length_le ?_
    calc s.length = ((s.dropWhile isSpace).reverse.dropWhile isSpace).length := by
          rw [shorter, List.length_reverse]
      _ ≤ (s.dropWhile isSpace).reverse.length := (List.dropWhile_suffix isSpace).length_le
      _ = (s.dropWhile isSpace).length := List.length_reverse
  rw [left] at shorter
  have first : ∀ {t : Text}, t.dropWhile isSpace = t → ∀ c ∈ t.head?, isSpace c = false := by
    intro t same c isHead
    cases t with
    | nil => cases isHead
    | cons d t =>
        obtain rfl : d = c := by simpa using isHead
        simpa using List.dropWhile_eq_self_iff.mp same (Nat.succ_pos _)
  refine ⟨first left, fun c isLast => first shorter c ?_⟩
  rwa [List.head?_reverse]

/-- `s.replace(old, new)` for two different characters `old`. -/
def replacePair (first second : Nat) (new : Text) : Text → Text
  | [] => []
  | [c] => [c]
  | c :: d :: rest =>
      if c = first ∧ d = second then new ++ replacePair first second new rest
      else c :: replacePair first second new (d :: rest)

/-- `s.replace(old, new)` for one character each. -/
def replaceChar (old new : Nat) (s : Text) : Text :=
  s.map fun c => if c = old then new else c

/-- Without its first character a pattern does not occur. -/
theorem replacePair_of_not_mem {first second : Nat} {new : Text} (absent : first ∉ s) :
    replacePair first second new s = s := by
  induction s with
  | nil => rfl
  | cons c s ih =>
      simp only [List.mem_cons, not_or] at absent
      cases s with
      | nil => rfl
      | cons d rest =>
          rw [replacePair, if_neg (fun both => absent.1 both.1.symm), ih absent.2]

theorem replaceChar_of_not_mem {old new : Nat} (absent : old ∉ s) : replaceChar old new s = s := by
  induction s with
  | nil => rfl
  | cons c s ih =>
      simp only [List.mem_cons, not_or] at absent
      rw [replaceChar, List.map_cons, if_neg (Ne.symm absent.1)]
      exact congrArg _ (ih absent.2)

theorem not_mem_replaceChar {old new : Nat} (different : new ≠ old) :
    old ∉ replaceChar old new s := by
  simp only [replaceChar, List.mem_map, not_exists, not_and]
  intro c _ same
  split at same
  · exact different same
  · rename_i other
    exact other same

/-! ## UTF-8 -/

/-- The character with a code point; surrogates are none. -/
def char? (c : Nat) : Option Char := if h : c.isValidChar then some (Char.ofNatAux c h) else none

/-- `s.encode("utf-8")`, which fails on a surrogate. -/
def encode (s : Text) : Option Bytes :=
  (s.mapM char?).map fun chars => chars.flatMap String.utf8EncodeChar

/-- `b.decode("utf-8")`. -/
def decode (b : Bytes) : Option Text :=
  b.toByteArray.utf8Decode?.map fun chars => chars.toList.map Char.toNat

theorem toNat_of_char? {char : Char} (valid : char? c = some char) : char.toNat = c := by
  by_cases isValid : c.isValidChar
  · rw [char?, dif_pos isValid] at valid
    obtain rfl := Option.some.inj valid
    rfl
  · rw [char?, dif_neg isValid] at valid
    cases valid

/-- Every image comes from an item. -/
theorem exists_of_forall₂ {α β : Type} {R : α → β → Prop} {items : List α} {images : List β}
    (all : List.Forall₂ R items images) {image : β} (member : image ∈ images) :
    ∃ item ∈ items, R item image := by
  induction all with
  | nil => cases member
  | cons related _ ih =>
      rcases List.mem_cons.mp member with rfl | later
      · exact ⟨_, List.mem_cons_self .., related⟩
      · obtain ⟨item, there, related'⟩ := ih later
        exact ⟨item, List.mem_cons_of_mem _ there, related'⟩

/-- `[f(item) for item in items]` where `f` may fail. -/
theorem mapM_eq_some {α β : Type} {f : α → Option β} {items : List α} {images : List β} :
    items.mapM f = some images ↔ List.Forall₂ (fun item image => f item = some image) items images := by
  induction items generalizing images with
  | nil =>
      rw [List.forall₂_nil_left_iff]
      simp [eq_comm]
  | cons item items ih =>
      rw [List.forall₂_cons_left_iff]
      simp only [List.mapM_cons, Option.bind_eq_bind, Option.bind_eq_some_iff]
      constructor
      · rintro ⟨image, head, rest, tail, same⟩
        exact ⟨image, rest, head, ih.mp tail, (Option.some.inj same).symm⟩
      · rintro ⟨image, rest, head, tail, rfl⟩
        exact ⟨image, head, rest, ih.mpr tail, rfl⟩

theorem isSome_char? : (char? c).isSome ↔ c.isValidChar := by
  by_cases valid : c.isValidChar
  · rw [char?, dif_pos valid]
    exact iff_of_true rfl valid
  · rw [char?, dif_neg valid]
    exact iff_of_false Bool.false_ne_true valid

/-- A text can be encoded if it has no surrogates. -/
theorem encode_isSome_iff : (encode s).isSome ↔ ∀ c ∈ s, c.isValidChar := by
  rw [encode, Option.isSome_map]
  induction s with
  | nil => simp
  | cons c s ih =>
      rw [List.forall_mem_cons, ← ih, ← isSome_char?, List.mapM_cons]
      cases char? c <;> cases s.mapM char? <;> simp

/-- The characters of a text have its code points. -/
theorem map_toNat_of_mapM {chars : List Char} (valid : s.mapM char? = some chars) :
    chars.map Char.toNat = s := by
  induction s generalizing chars with
  | nil =>
      obtain rfl : [] = chars := by simpa using valid
      rfl
  | cons c s ih =>
      simp only [List.mapM_cons, Option.bind_eq_bind, Option.bind_eq_some_iff] at valid
      obtain ⟨char, head, chars', tail, same⟩ := valid
      obtain rfl := Option.some.inj same
      rw [List.map_cons, toNat_of_char? head, ih tail]

/-- **Decoding undoes encoding.** -/
theorem decode_encode (encoded : encode s = some b) : decode b = some s := by
  obtain ⟨chars, valid, rfl⟩ := Option.map_eq_some_iff.mp encoded
  have decoded : (chars.flatMap String.utf8EncodeChar).toByteArray.utf8Decode? =
      some chars.toArray := List.utf8Decode?_utf8Encode
  rw [decode, decoded, Option.map_some, map_toNat_of_mapM valid]

/-- ASCII characters are their own bytes. -/
theorem encode_of_ascii (ascii : ∀ c ∈ s, c < 128) : encode s = some (s.map UInt8.ofNat) := by
  induction s with
  | nil => rfl
  | cons c s ih =>
      rw [List.forall_mem_cons] at ascii
      have valid : c.isValidChar := .inl (ascii.1.trans (by decide))
      obtain ⟨char, found⟩ := Option.isSome_iff_exists.mp (isSome_char?.mpr valid)
      obtain rfl := toNat_of_char? found
      have small : char.val ≤ 0x7F := UInt32.le_iff_toNat_le.mpr (Nat.le_of_lt_succ ascii.1)
      have one : String.utf8EncodeChar char = [UInt8.ofNat char.toNat] := by
        rw [String.utf8EncodeChar_eq_utf8EncodeCharFast, String.utf8EncodeCharFast]
        exact if_pos small
      obtain ⟨chars, rest, bytes⟩ := Option.map_eq_some_iff.mp (ih ascii.2)
      rw [encode, List.mapM_cons, found, rest]
      simp only [Option.bind_eq_bind, Option.bind_some, Option.pure_def, Option.map_some,
        List.flatMap_cons, one, bytes, List.map_cons, List.singleton_append]

/-- A character takes at most four bytes. -/
theorem length_encode_le (encoded : encode s = some b) : b.length ≤ 4 * s.length := by
  obtain ⟨chars, valid, rfl⟩ := Option.map_eq_some_iff.mp encoded
  rw [← map_toNat_of_mapM valid, List.length_map]
  clear valid encoded
  induction chars with
  | nil => exact Nat.zero_le _
  | cons char chars ih =>
      have bound := char.utf8Size_le_four
      simp only [List.flatMap_cons, List.length_append, String.length_utf8EncodeChar,
        List.length_cons]
      omega

/-- A text can be read off its encoding. -/
theorem encode_injective {t : Text} (encoded : encode s = some b)
    (encodedOther : encode t = some b) : s = t :=
  Option.some.inj ((decode_encode encoded).symm.trans (decode_encode encodedOther))

/-- A zero byte is a zero character. -/
theorem zero_not_mem_utf8EncodeChar {char : Char} (nonzero : char.toNat ≠ 0) :
    0 ∉ String.utf8EncodeChar char := by
  have marked : ∀ b mark : UInt8, mark ≠ 0 → b ||| mark ≠ 0 := by
    intro b mark some zero
    exact some (UInt8.or_eq_zero_iff.mp zero).2
  rw [String.utf8EncodeChar_eq_utf8EncodeCharFast]
  simp only [String.utf8EncodeCharFast]
  split
  · rename_i ascii
    rw [List.mem_singleton]
    intro zero
    apply nonzero
    have low : char.toNat < 256 := lt_of_le_of_lt (UInt32.le_iff_toNat_le.mp ascii) (by decide)
    have same : 0 = char.toNat % 256 := congrArg UInt8.toNat zero
    rw [Nat.mod_eq_of_lt low] at same
    exact same.symm
  -- every byte of a longer sequence has its first bit set
  have clean : ∀ {b mark : UInt8} {bytes : Bytes}, mark ≠ 0 → 0 ∉ bytes →
      0 ∉ (b ||| mark) :: bytes := by
    intro b mark bytes some rest member
    rcases List.mem_cons.mp member with zero | later
    · exact marked b mark some zero.symm
    · exact rest later
  split
  · exact clean (by decide) (clean (by decide) List.not_mem_nil)
  split
  · exact clean (by decide) (clean (by decide) (clean (by decide) List.not_mem_nil))
  · exact clean (by decide) (clean (by decide) (clean (by decide) (clean (by decide)
      List.not_mem_nil)))

theorem zero_not_mem_encode (nonzero : 0 ∉ s) (encoded : encode s = some b) : 0 ∉ b := by
  obtain ⟨chars, valid, rfl⟩ := Option.map_eq_some_iff.mp encoded
  rw [List.mem_flatMap]
  rintro ⟨char, member, zero⟩
  refine zero_not_mem_utf8EncodeChar ?_ zero
  intro null
  apply nonzero
  rw [← map_toNat_of_mapM valid, ← null]
  exact List.mem_map_of_mem member

end Text

end OpsComposer.Foundations
