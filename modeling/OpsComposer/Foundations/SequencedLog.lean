import Mathlib.Data.List.Sort

/-!
# Logs numbered from one

A log is a list of entries that carry the numbers `1, 2, …` in order.  A store
keeps the entries of a log in no order; reading them sorted by number, with their
numbers distinct and filling an initial range, gives such a log
(`sequenced_inOrder`).

A reader follows a log with a cursor: it asks for the entries past its cursor, at
most so many, and moves the cursor to the last one it got.  Whatever is appended
in between, it has been given exactly the entries between its start and its cursor,
each once and in order (`Reader.Follows`).
-/

set_option autoImplicit false

namespace OpsComposer.Foundations

variable {ε : Type} {number : ε → Nat}

/-! ## Sequenced logs -/

/-- Lists in strict order with the same entries are the same. -/
theorem eq_of_increasing {l l' : List ε} (increasing : l.Pairwise fun a b => number a < number b)
    (increasing' : l'.Pairwise fun a b => number a < number b) (same : ∀ a, a ∈ l ↔ a ∈ l') :
    l = l' := by
  have irrefl : Std.Irrefl fun a b : ε => number a < number b := ⟨fun _ => Nat.lt_irrefl _⟩
  have antisymm : Std.Antisymm fun a b : ε => number a < number b :=
    ⟨fun _ _ lt gt => absurd gt (Nat.lt_asymm lt)⟩
  exact List.Pairwise.eq_of_mem_iff increasing increasing' same

/-- The entries carry the numbers `1, 2, …` in order. -/
def Sequenced (number : ε → Nat) (log : List ε) : Prop :=
  log.map number = List.range' 1 log.length

namespace Sequenced

variable {log : List ε} {a : ε}

theorem getElem (sequenced : Sequenced number log) {i : Nat}
    (bound : i < log.length) : number log[i] = i + 1 := by
  have mapped : (log.map number)[i]? = (List.range' 1 log.length)[i]? := by rw [sequenced]
  rw [List.getElem?_map, List.getElem?_eq_getElem bound, List.getElem?_range' bound] at mapped
  simp only [Option.map_some, Option.some.injEq] at mapped
  omega

/-- The place of an entry is told by its number. -/
theorem getElem?_of_mem (sequenced : Sequenced number log)
    (member : a ∈ log) : 1 ≤ number a ∧ log[number a - 1]? = some a := by
  obtain ⟨i, bound, rfl⟩ := List.getElem_of_mem member
  rw [sequenced.getElem bound]
  exact ⟨by omega, List.getElem?_eq_getElem bound⟩

theorem le_length (sequenced : Sequenced number log) (member : a ∈ log) :
    number a ≤ log.length := by
  obtain ⟨positive, found⟩ := sequenced.getElem?_of_mem member
  have bound := (List.getElem?_eq_some_iff.mp found).1
  omega

theorem increasing (sequenced : Sequenced number log) :
    log.Pairwise fun a b => number a < number b := by
  rw [← List.pairwise_map (f := number) (R := (· < ·)), sequenced]
  exact List.pairwise_lt_range'

theorem mem_drop (sequenced : Sequenced number log) {cursor : Nat} :
    a ∈ log.drop cursor ↔ a ∈ log ∧ cursor < number a := by
  constructor
  · intro member
    obtain ⟨i, bound, rfl⟩ := List.getElem_of_mem member
    rw [List.length_drop] at bound
    rw [List.getElem_drop, sequenced.getElem (by omega)]
    exact ⟨List.getElem_mem _, by omega⟩
  · rintro ⟨member, later⟩
    obtain ⟨positive, found⟩ := sequenced.getElem?_of_mem member
    refine List.mem_of_getElem? (i := number a - 1 - cursor) ?_
    rw [List.getElem?_drop, ← found]
    congr 1
    omega

/-- The entries past a cursor are what the cursor leaves. -/
theorem filter_eq_drop (sequenced : Sequenced number log) (cursor : Nat) :
    (log.filter fun a => cursor < number a) = log.drop cursor := by
  refine eq_of_increasing (sequenced.increasing.sublist List.filter_sublist)
    (sequenced.increasing.sublist (List.drop_sublist _ _)) fun a => ?_
  rw [List.mem_filter, sequenced.mem_drop, decide_eq_true_eq]

theorem mem_take (sequenced : Sequenced number log) {cursor : Nat} :
    a ∈ log.take cursor ↔ a ∈ log ∧ number a ≤ cursor := by
  constructor
  · intro member
    obtain ⟨i, bound, rfl⟩ := List.getElem_of_mem member
    rw [List.length_take] at bound
    rw [List.getElem_take, sequenced.getElem (by omega)]
    exact ⟨List.getElem_mem _, by omega⟩
  · rintro ⟨member, early⟩
    obtain ⟨positive, found⟩ := sequenced.getElem?_of_mem member
    refine List.mem_of_getElem? (i := number a - 1) ?_
    rw [List.getElem?_take_of_lt (by omega), found]

theorem take (sequenced : Sequenced number log) (cursor : Nat) :
    Sequenced number (log.take cursor) := by
  rw [Sequenced, List.map_take, sequenced, List.length_take]
  refine List.ext_getElem (by simp) fun i _ _ => ?_
  rw [List.getElem_take, List.getElem_range', List.getElem_range']

/-- A log whose entries are all in another one is a prefix of it. -/
theorem prefix_of_subset {log' : List ε} (sequenced : Sequenced number log)
    (sequenced' : Sequenced number log') (kept : ∀ a ∈ log, a ∈ log') : log <+: log' := by
  have front : log = log'.take log.length := by
    refine List.ext_getElem? fun i => ?_
    by_cases bound : i < log.length
    · obtain ⟨_, found⟩ := sequenced'.getElem?_of_mem (kept _ (List.getElem_mem bound))
      rw [sequenced.getElem bound, Nat.add_sub_cancel] at found
      rw [List.getElem?_take_of_lt bound, found, List.getElem?_eq_getElem bound]
    · rw [List.getElem?_eq_none (by omega), List.getElem?_eq_none]
      rw [List.length_take]
      omega
  rw [front]
  exact List.take_prefix _ _

end Sequenced

/-! ## Entries in no order -/

/-- Distinct numbers that fill the range from one to a bound. -/
structure Numbered (number : ε → Nat) (entries : List ε) (bound : Nat) : Prop where
  nodup : entries.Nodup
  distinct : ∀ a ∈ entries, ∀ b ∈ entries, number a = number b → a = b
  filled : ∀ n, (∃ a ∈ entries, number a = n) ↔ 1 ≤ n ∧ n ≤ bound

/-- `ORDER BY number`. -/
def inOrder (number : ε → Nat) (entries : List ε) : List ε :=
  entries.insertionSort fun a b => number a ≤ number b

theorem mem_inOrder {entries : List ε} {a : ε} : a ∈ inOrder number entries ↔ a ∈ entries :=
  List.mem_insertionSort _

/-- Sorting entries with distinct numbers puts them in strict order. -/
theorem increasing_inOrder {entries : List ε} (nodup : entries.Nodup)
    (distinct : ∀ a ∈ entries, ∀ b ∈ entries, number a = number b → a = b) :
    (inOrder number entries).Pairwise fun a b => number a < number b := by
  have total : Std.Total fun a b : ε => number a ≤ number b := ⟨fun _ _ => Nat.le_total _ _⟩
  have trans : IsTrans ε fun a b => number a ≤ number b := ⟨fun _ _ _ => Nat.le_trans⟩
  have sorted : (inOrder number entries).Pairwise fun a b => number a ≤ number b :=
    List.pairwise_insertionSort _ entries
  have apart : (inOrder number entries).Nodup :=
    (List.perm_insertionSort _ entries).nodup_iff.mpr nodup
  refine (sorted.and apart).imp_of_mem ?_
  rintro a b left right ⟨le, ne⟩
  refine Nat.lt_of_le_of_ne le fun same => ne ?_
  exact distinct a (mem_inOrder.mp left) b (mem_inOrder.mp right) same

namespace Numbered

variable {entries : List ε} {bound : Nat}

/-- Further entries continue the numbers. -/
theorem extend {added entries' : List ε} {count : Nat} (numbered : Numbered number entries bound)
    (continues : added.map number = List.range' (bound + 1) count) (nodup : entries'.Nodup)
    (members : ∀ a, a ∈ entries' ↔ a ∈ added ∨ a ∈ entries) :
    Numbered number entries' (bound + count) := by
  have old : ∀ a ∈ entries, 1 ≤ number a ∧ number a ≤ bound := fun a member =>
    (numbered.filled _).mp ⟨a, member, rfl⟩
  have new : ∀ n, (∃ a ∈ added, number a = n) ↔ bound + 1 ≤ n ∧ n < bound + 1 + count := by
    intro n
    rw [← List.mem_range'_1, ← continues, List.mem_map]
  have apart : (added.map number).Nodup := continues ▸ List.nodup_range'
  refine ⟨nodup, ?_, fun n => ?_⟩
  · intro a left b right same
    rcases (members a).mp left with newA | oldA
    · rcases (members b).mp right with newB | oldB
      · exact List.inj_on_of_nodup_map apart newA newB same
      · have after := (new (number a)).mp ⟨a, newA, rfl⟩
        have before := old b oldB
        omega
    · rcases (members b).mp right with newB | oldB
      · have after := (new (number b)).mp ⟨b, newB, rfl⟩
        have before := old a oldA
        omega
      · exact numbered.distinct a oldA b oldB same
  · constructor
    · rintro ⟨a, member, rfl⟩
      rcases (members a).mp member with newA | oldA
      · have after := (new (number a)).mp ⟨a, newA, rfl⟩
        omega
      · have before := old a oldA
        omega
    · intro range
      rcases Nat.lt_or_ge bound n with past | within
      · obtain ⟨a, member, rfl⟩ := (new n).mpr (by omega)
        exact ⟨a, (members a).mpr (.inl member), rfl⟩
      · obtain ⟨a, member, rfl⟩ := (numbered.filled n).mpr ⟨range.1, within⟩
        exact ⟨a, (members a).mpr (.inr member), rfl⟩

theorem map_inOrder (numbered : Numbered number entries bound) :
    (inOrder number entries).map number = List.range' 1 bound := by
  have increasing := increasing_inOrder numbered.nodup numbered.distinct
  have mapped : ((inOrder number entries).map number).Pairwise fun a b => id a < id b :=
    List.pairwise_map.mpr increasing
  refine eq_of_increasing mapped List.pairwise_lt_range' fun n => ?_
  have filled := numbered.filled n
  simp only [List.mem_map, mem_inOrder, List.mem_range'_1]
  rw [filled]
  omega

/-- **Sorted by number, the entries are a sequenced log.** -/
theorem sequenced_inOrder (numbered : Numbered number entries bound) :
    Sequenced number (inOrder number entries) := by
  have mapped := numbered.map_inOrder
  have length : (inOrder number entries).length = bound := by
    rw [← List.length_map (f := number), mapped, List.length_range']
  rw [Sequenced, mapped, length]

/-- Selecting the entries past a cursor and sorting them skips the front of the log. -/
theorem inOrder_filter (numbered : Numbered number entries bound) (cursor : Nat) :
    inOrder number (entries.filter fun a => cursor < number a) =
      (inOrder number entries).drop cursor := by
  have increasing := increasing_inOrder numbered.nodup numbered.distinct
  have kept : (inOrder number (entries.filter fun a => cursor < number a)).Pairwise
      fun a b => number a < number b := by
    refine increasing_inOrder (numbered.nodup.filter _) fun a left b right => ?_
    exact numbered.distinct a (List.mem_of_mem_filter left) b (List.mem_of_mem_filter right)
  refine eq_of_increasing kept (increasing.sublist (List.drop_sublist _ _)) fun a => ?_
  rw [numbered.sequenced_inOrder.mem_drop, mem_inOrder, mem_inOrder, List.mem_filter,
    decide_eq_true_eq]

end Numbered

/-! ## Readers -/

/-- A reader that started after one number, and got entries up to another. -/
structure Reader (ε : Type) where
  start : Nat
  cursor : Nat
  delivered : List ε

namespace Reader

/-- A reader that has read nothing. -/
def at_ (start : Nat) : Reader ε := { start := start, cursor := start, delivered := [] }

/-- The cursor moves to the last entry of the batch. -/
def deliver (number : ε → Nat) (reader : Reader ε) (batch : List ε) : Reader ε where
  start := reader.start
  cursor := (batch.getLast?.map number).getD reader.cursor
  delivered := reader.delivered ++ batch

/-- It has been given the entries between its start and its cursor, each once and in
order. -/
structure Follows (log : List ε) (reader : Reader ε) : Prop where
  forward : reader.start ≤ reader.cursor
  within : reader.cursor = reader.start ∨ reader.cursor ≤ log.length
  delivered : reader.delivered = (log.take reader.cursor).drop reader.start

theorem follows_at (log : List ε) (start : Nat) : (at_ start : Reader ε).Follows log where
  forward := Nat.le_refl _
  within := .inl rfl
  delivered := by simp [at_]

variable {log : List ε} {reader : Reader ε}

theorem Follows.mem_delivered (sequenced : Sequenced number log) (follows : reader.Follows log)
    {a : ε} :
    a ∈ reader.delivered ↔ a ∈ log ∧ reader.start < number a ∧ number a ≤ reader.cursor := by
  rw [follows.delivered, (sequenced.take _).mem_drop, sequenced.mem_take]
  tauto

/-- What is appended to the log does not disturb the reader. -/
theorem Follows.grow {log' : List ε} (follows : reader.Follows log)
    (grown : log <+: log') : reader.Follows log' := by
  obtain ⟨rest, rfl⟩ := grown
  refine ⟨follows.forward, ?_, ?_⟩
  · rw [List.length_append]
    exact follows.within.imp id fun le => by omega
  · rw [follows.delivered]
    rcases follows.within with same | le
    · rw [same]
      simp
    · rw [List.take_append_of_le_length le]

/-- The cursor after a batch counts the entries of the batch. -/
theorem cursor_deliver (sequenced : Sequenced number log) (reader : Reader ε) (limit : Nat) :
    (reader.deliver number ((log.drop reader.cursor).take limit)).cursor =
      reader.cursor + ((log.drop reader.cursor).take limit).length := by
  simp only [deliver]
  cases last : ((log.drop reader.cursor).take limit).getLast? with
  | none => simp [List.getLast?_eq_none_iff.mp last]
  | some a =>
      rw [List.getLast?_eq_getElem?] at last
      obtain ⟨bound, found⟩ := List.getElem?_eq_some_iff.mp last
      rw [Option.map_some, Option.getD_some, ← found, List.getElem_take, List.getElem_drop,
        sequenced.getElem]
      omega

/-- **A batch past the cursor continues what was delivered.** -/
theorem Follows.deliver (sequenced : Sequenced number log) (follows : reader.Follows log)
    (limit : Nat) : (reader.deliver number ((log.drop reader.cursor).take limit)).Follows log := by
  have moved := cursor_deliver sequenced reader limit
  have forward := follows.forward
  refine ⟨?_, ?_, ?_⟩
  · rw [moved]
    show reader.start ≤ _
    omega
  · rw [moved, List.length_take, List.length_drop]
    show _ = reader.start ∨ _
    rcases follows.within with same | le <;> omega
  · rw [moved]
    show reader.delivered ++ _ = List.drop reader.start _
    rw [follows.delivered]
    rcases Nat.lt_or_ge log.length reader.cursor with past | le
    · simp [List.drop_eq_nil_of_le (Nat.le_of_lt past)]
    · have count : (log.take reader.cursor).length = reader.cursor := by
        rw [List.length_take]
        omega
      rw [List.take_add, List.drop_append_of_le_length (by omega)]
      congr 1
      rw [List.take_eq_take_iff, List.length_take]
      omega

end Reader

end OpsComposer.Foundations
