import OpsComposer.Foundations.SequencedLog
import OpsComposer.Foundations.Table

/-!
# Numbering by a counter under a row lock

Transactions append entries to a log that is committed with them.  An entry gets
its number from a counter in the row that owns it: the transaction bumps the
counter, which takes the lock of the row until it commits or rolls back, and then
inserts the entry with the number that it reserved.

The lock makes the committed entries of every row a sequenced log, in every state
that any interleaving of transactions leads to (`Consistent`): a number is
reserved over the committed ones, no other transaction can reserve one before it
is decided whether it is used, and a transaction that rolls back takes its bumps
with it.
-/

set_option autoImplicit false

namespace OpsComposer.Foundations

/-- How the rows of a table count the entries of a log. -/
structure Numbering (κ ρ ι ε : Type) where
  rowKey : ρ → κ
  /-- The number of the next entry. -/
  counter : ρ → Nat
  bump : ρ → ρ
  entryKey : ε → ι
  owner : ε → κ
  number : ε → Nat
  rowKey_bump : ∀ row, rowKey (bump row) = rowKey row
  counter_bump : ∀ row, counter (bump row) = counter row + 1

variable {κ ρ ι ε τ : Type}

/-- What a transaction in flight has written: versions of rows, whose locks it
holds, and entries; and the number it has reserved for the next one. -/
structure Transaction (N : Numbering κ ρ ι ε) where
  versions : Table N.rowKey
  entries : List ε
  reserved : Option (κ × Nat)

/-- Nothing has been written, and no number is reserved. -/
def Transaction.empty {N : Numbering κ ρ ι ε} : Transaction N where
  versions := .empty
  entries := []
  reserved := none

/-- The committed rows and entries, and the transactions in flight. -/
structure Database (N : Numbering κ ρ ι ε) (τ : Type) where
  rows : Table N.rowKey
  entries : Table N.entryKey
  inFlight : Table (Prod.fst : τ × Transaction N → τ)

variable {N : Numbering κ ρ ι ε}

namespace Database

/-! ## What transactions do -/

/-- No rows, no entries and no transactions. -/
def empty : Database N τ where
  rows := .empty
  entries := .empty
  inFlight := .empty

section Lookups

variable [DecidableEq τ]

/-- What the transaction has written so far. -/
def transaction? (db : Database N τ) (t : τ) : Option (Transaction N) :=
  (db.inFlight.lookup t).map Prod.snd

/-- The transaction goes on. -/
def moved (db : Database N τ) (t : τ) (tx : Transaction N) : Database N τ :=
  { db with inFlight := db.inFlight.put (t, tx) }

/-- A transaction begins under a name that no other in flight has. -/
def begin? (db : Database N τ) (t : τ) : Option (Database N τ) :=
  (db.inFlight.insert? (t, .empty)).map fun inFlight => { db with inFlight := inFlight }

/-- Forget everything and release the locks. -/
def rollback (db : Database N τ) (t : τ) : Database N τ :=
  { db with inFlight := db.inFlight.delete fun other => other.1 = t }

end Lookups

section Statements

variable [DecidableEq κ]

/-- The row that a transaction sees: its own version, or the committed one. -/
def visible (db : Database N τ) (tx : Transaction N) (k : κ) : Option ρ :=
  (tx.versions.lookup k).or (db.rows.lookup k)

/-- No other transaction holds the lock of the row. -/
abbrev Unlocked [DecidableEq τ] (db : Database N τ) (t : τ) (k : κ) : Prop :=
  ∀ other ∈ db.inFlight.rows, other.1 ≠ t → (other.2.versions.lookup k).isNone = true

variable [DecidableEq τ]

/-- Write a version of a row, or wait for its lock. -/
def write? (db : Database N τ) (t : τ) (row : ρ) : Option (Database N τ) :=
  match db.transaction? t with
  | none => none
  | some tx =>
      if db.Unlocked t (N.rowKey row) then
        some (db.moved t { tx with versions := tx.versions.put row })
      else none

/-- Bump the counter of a row and reserve the number, or wait for the lock. -/
def reserve? (db : Database N τ) (t : τ) (k : κ) : Option (Database N τ) :=
  match db.transaction? t with
  | none => none
  | some tx =>
      match db.visible tx k with
      | none => none
      | some row =>
          if db.Unlocked t k ∧ tx.reserved.isNone = true then
            some (db.moved t { tx with
              versions := tx.versions.put (N.bump row)
              reserved := some (k, N.counter row) })
          else none

/-- Insert an entry with the reserved number. -/
def insert? (db : Database N τ) (t : τ) (entry : ε) : Option (Database N τ) :=
  match db.transaction? t with
  | none => none
  | some tx =>
      if tx.reserved = some (N.owner entry, N.number entry) then
        some (db.moved t { tx with entries := tx.entries ++ [entry], reserved := none })
      else none

/-- Make everything visible and release the locks; an entry whose key is taken
forbids it. -/
def commit? [DecidableEq ι] (db : Database N τ) (t : τ) : Option (Database N τ) :=
  match db.transaction? t with
  | none => none
  | some tx =>
      if tx.reserved.isNone = true then
        (db.entries.insertAll? tx.entries).map fun entries =>
          { rows := db.rows.overlay tx.versions
            entries := entries
            inFlight := db.inFlight.delete fun other => other.1 = t }
      else none

/-- The committed entries of a row, in order. -/
def log (db : Database N τ) (k : κ) : List ε :=
  inOrder N.number (db.entries.select fun entry => N.owner entry = k)

/-! ## Consistency -/

/-- The number that the next committed entry of a row gets. -/
def next (rows : Table N.rowKey) (k : κ) : Nat := ((rows.lookup k).map N.counter).getD 1

end Statements

end Database

variable [DecidableEq κ]

open Database

/-- The entries that a transaction has for a row continue the committed ones, and
with them and a reservation the counter comes to a value. -/
def Transaction.Counts (tx : Transaction N) (rows : Table N.rowKey) (k : κ) (value : Nat) : Prop :=
  ∃ count, (tx.entries.filter fun entry => N.owner entry = k).map N.number =
      List.range' (next rows k) count ∧
    value = next rows k + count + if tx.reserved.map Prod.fst = some k then 1 else 0

/-- The entries of a transaction continue the committed ones of the rows that it
holds, up to the counters in its versions. -/
structure Transaction.Continues (tx : Transaction N) (rows : Table N.rowKey) : Prop where
  owned : ∀ entry ∈ tx.entries, ∃ row, tx.versions.lookup (N.owner entry) = some row
  counted : ∀ k row, tx.versions.lookup k = some row → tx.Counts rows k (N.counter row)
  reserved : ∀ k n, tx.reserved = some (k, n) → ∃ row,
    tx.versions.lookup k = some row ∧ N.counter row = n + 1

/-- A row that the transaction has not touched counts as it was committed. -/
theorem Transaction.Continues.untouched {tx : Transaction N} {rows : Table N.rowKey}
    (continues : tx.Continues rows) {k : κ} (free : tx.versions.lookup k = none) :
    tx.Counts rows k (next rows k) := by
  refine ⟨0, ?_, ?_⟩
  · have empty : (tx.entries.filter fun entry => N.owner entry = k) = [] := by
      refine List.filter_eq_nil_iff.mpr fun entry member => ?_
      simp only [decide_eq_true_eq]
      rintro rfl
      obtain ⟨row, version⟩ := continues.owned entry member
      exact Table.not_free free version
    rw [empty]
    rfl
  · rw [if_neg]
    · rfl
    · intro same
      obtain ⟨⟨k', n⟩, reserved, rfl⟩ := Option.map_eq_some_iff.mp same
      obtain ⟨row, version, _⟩ := continues.reserved k' n reserved
      exact Table.not_free free version

namespace Database

/-- **What every interleaving keeps.** -/
structure Consistent [DecidableEq τ] (db : Database N τ) : Prop where
  positive : ∀ k row, db.rows.lookup k = some row → 1 ≤ N.counter row
  numbered : ∀ k, Numbered N.number (db.entries.select fun entry => N.owner entry = k)
    (next db.rows k - 1)
  continues : ∀ t tx, db.transaction? t = some tx → tx.Continues db.rows
  exclusive : ∀ t t' tx tx' k row, db.transaction? t = some tx → db.transaction? t' = some tx' →
    t ≠ t' → tx.versions.lookup k = some row → tx'.versions.lookup k = none

section Steps

variable [DecidableEq τ] {db db' : Database N τ} {t t' : τ} {tx tx' : Transaction N}

omit [DecidableEq κ] in
theorem mem_inFlight (found : db.transaction? t = some tx) : (t, tx) ∈ db.inFlight.rows := by
  obtain ⟨entry, present, rfl⟩ := Option.map_eq_some_iff.mp found
  have named : entry.1 = t := Table.key_of_lookup present
  rw [← named]
  exact Table.mem_of_lookup present

omit [DecidableEq κ] in
theorem transaction?_moved : (db.moved t tx).transaction? t' =
    if t = t' then some tx else db.transaction? t' := by
  unfold transaction? moved
  rw [Table.lookup_put]
  by_cases same : t = t' <;> simp [same]

omit [DecidableEq κ] in
/-- The others are left after a transaction has ended. -/
theorem transaction?_delete {inFlight : Table (Prod.fst : τ × Transaction N → τ)}
    {other : τ} {txOther : Transaction N}
    (found : ((inFlight.delete fun entry => entry.1 = t).lookup other).map Prod.snd =
      some txOther) :
    other ≠ t ∧ (inFlight.lookup other).map Prod.snd = some txOther := by
  obtain ⟨entry, present, rfl⟩ := Option.map_eq_some_iff.mp found
  obtain ⟨before, apart⟩ := Table.lookup_delete_eq_some.mp present
  have named : entry.1 = other := Table.key_of_lookup before
  exact ⟨named ▸ apart, by rw [before, Option.map_some]⟩

theorem consistent_empty : (empty : Database N τ).Consistent where
  positive _ _ found := by cases found
  numbered k := by
    refine ⟨List.nodup_nil, ?_, fun n => ?_⟩
    · intro a member
      cases member
    · have none : next (empty : Database N τ).rows k = 1 := rfl
      rw [none]
      constructor
      · rintro ⟨a, member, _⟩
        cases member
      · omega
  continues _ _ found := by cases found
  exclusive _ _ _ _ _ _ found := by cases found

namespace Consistent

/-- A step of one transaction that commits nothing. -/
theorem moved (consistent : db.Consistent) (found : db.transaction? t = some tx)
    (continues : tx'.Continues db.rows)
    (locked : ∀ k row, tx'.versions.lookup k = some row →
      (∃ before, tx.versions.lookup k = some before) ∨ db.Unlocked t k) :
    (db.moved t tx').Consistent where
  positive := consistent.positive
  numbered := consistent.numbered
  continues t₁ tx₁ found₁ := by
    rw [transaction?_moved] at found₁
    split at found₁
    · cases found₁
      exact continues
    · exact consistent.continues t₁ tx₁ found₁
  exclusive := by
    -- what the transaction has locked now, no other one has
    have apart : ∀ t₁ tx₁ k row, db.transaction? t₁ = some tx₁ → t ≠ t₁ →
        tx'.versions.lookup k = some row → tx₁.versions.lookup k = none := by
      intro t₁ tx₁ k row found₁ different holds
      rcases locked k row holds with ⟨before, held⟩ | unlocked
      · exact consistent.exclusive t t₁ tx tx₁ k before found found₁ different held
      · exact Option.isNone_iff_eq_none.mp (unlocked _ (mem_inFlight found₁) (Ne.symm different))
    intro t₁ t₂ tx₁ tx₂ k row found₁ found₂ different holds
    rw [transaction?_moved] at found₁ found₂
    split at found₁
    next same =>
      cases found₁
      rw [if_neg (same ▸ different)] at found₂
      exact apart t₂ tx₂ k row found₂ (same ▸ different) holds
    next other =>
      split at found₂
      next same =>
        cases found₂
        cases taken : tx'.versions.lookup k with
        | none => rfl
        | some row' =>
            have free := apart t₁ tx₁ k row' found₁ other taken
            rw [holds] at free
            cases free
      · exact consistent.exclusive t₁ t₂ tx₁ tx₂ k row found₁ found₂ different holds

theorem begin? (consistent : db.Consistent) (begun : db.begin? t = some db') : db'.Consistent := by
  obtain ⟨inFlight, inserted, rfl⟩ := Option.map_eq_some_iff.mp begun
  obtain ⟨free, rfl⟩ := Table.insert?_eq_some.mp inserted
  have found : ∀ {t₁ : τ} {tx₁ : Transaction N},
      ((db.inFlight.put (t, .empty)).lookup t₁).map Prod.snd = some tx₁ →
        tx₁ = .empty ∨ db.transaction? t₁ = some tx₁ := by
    intro t₁ tx₁ present
    rw [Table.lookup_put] at present
    split at present
    · cases present
      exact .inl rfl
    · exact .inr present
  refine ⟨consistent.positive, consistent.numbered, ?_, ?_⟩
  · intro t₁ tx₁ present
    rcases found present with rfl | before
    · refine ⟨?_, ?_, ?_⟩
      · intro entry member
        cases member
      · intro k row version
        cases version
      · intro k n reserved
        cases reserved
    · exact consistent.continues t₁ tx₁ before
  · intro t₁ t₂ tx₁ tx₂ k row present₁ present₂ different holds
    rcases found present₁ with rfl | before₁
    · cases holds
    · rcases found present₂ with rfl | before₂
      · rfl
      · exact consistent.exclusive t₁ t₂ tx₁ tx₂ k row before₁ before₂ different holds

theorem rollback (consistent : db.Consistent) : (db.rollback t).Consistent where
  positive := consistent.positive
  numbered := consistent.numbered
  continues t₁ tx₁ found := consistent.continues t₁ tx₁ (transaction?_delete found).2
  exclusive t₁ t₂ tx₁ tx₂ k row found₁ found₂ := consistent.exclusive t₁ t₂ tx₁ tx₂ k row
    (transaction?_delete found₁).2 (transaction?_delete found₂).2

/-- The counter that a transaction sees, one for a row that is not there. -/
theorem counts_visible (consistent : db.Consistent) (found : db.transaction? t = some tx) (k : κ) :
    tx.Counts db.rows k (((db.visible tx k).map N.counter).getD 1) := by
  have continues := consistent.continues t tx found
  unfold visible
  cases version : tx.versions.lookup k with
  | none => exact continues.untouched version
  | some row => exact continues.counted k row version

omit [DecidableEq τ] in
theorem rowKey_of_visible {k : κ} {row : ρ} (seen : db.visible tx k = some row) :
    N.rowKey row = k := by
  rcases Option.or_eq_some_iff.mp seen with version | ⟨_, committed⟩
  · exact Table.key_of_lookup version
  · exact Table.key_of_lookup committed

omit [DecidableEq τ] in
/-- Writing one version keeps the other ones. -/
theorem held_put {versions : Table N.rowKey} (row : ρ) {k : κ} {row' : ρ}
    (held : versions.lookup k = some row') : ∃ row'', (versions.put row).lookup k = some row'' := by
  rw [Table.lookup_put]
  split
  · exact ⟨row, rfl⟩
  · exact ⟨row', held⟩

/-- A write may change anything of a row but its counter, and a new row begins to
count at one. -/
theorem write? (consistent : db.Consistent) {row : ρ} (written : db.write? t row = some db')
    (counter : ∀ tx, db.transaction? t = some tx →
      N.counter row = ((db.visible tx (N.rowKey row)).map N.counter).getD 1) :
    db'.Consistent := by
  unfold Database.write? at written
  split at written
  · cases written
  next tx found =>
    split at written
    next unlocked =>
      cases written
      have continues := consistent.continues t tx found
      refine consistent.moved found ⟨?_, ?_, ?_⟩ ?_
      · intro entry member
        obtain ⟨row', held⟩ := continues.owned entry member
        exact held_put row held
      · intro k row' held
        rcases Table.lookup_put_eq_some.mp held with ⟨rfl, rfl⟩ | ⟨_, before⟩
        · rw [counter tx found]
          exact consistent.counts_visible found _
        · exact continues.counted k row' before
      · intro k n reserved
        obtain ⟨row', held, value⟩ := continues.reserved k n reserved
        by_cases same : N.rowKey row = k
        · subst same
          refine ⟨row, Table.lookup_put_self _ row, ?_⟩
          rw [counter tx found, visible, held]
          exact value
        · exact ⟨row', (Table.lookup_put_of_ne _ same).trans held, value⟩
      · intro k row' held
        rcases Table.lookup_put_eq_some.mp held with ⟨rfl, _⟩ | ⟨_, before⟩
        · exact .inr unlocked
        · exact .inl ⟨row', before⟩
    · cases written

theorem reserve? (consistent : db.Consistent) {k : κ} (done : db.reserve? t k = some db') :
    db'.Consistent := by
  unfold Database.reserve? at done
  split at done
  · cases done
  next tx found =>
    split at done
    · cases done
    next row seen =>
      split at done
      next free =>
        cases done
        have continues := consistent.continues t tx found
        have named : N.rowKey (N.bump row) = k := (N.rowKey_bump row).trans (rowKey_of_visible seen)
        have counts := consistent.counts_visible found k
        rw [seen, Option.map_some, Option.getD_some] at counts
        have unreserved : tx.reserved = none := Option.isNone_iff_eq_none.mp free.2
        refine consistent.moved found ⟨?_, ?_, ?_⟩ ?_
        · intro entry member
          obtain ⟨row', held⟩ := continues.owned entry member
          exact held_put _ held
        · intro k' row' held
          rcases Table.lookup_put_eq_some.mp held with ⟨same, rfl⟩ | ⟨apart, before⟩
          · obtain rfl : k = k' := named.symm.trans same
            obtain ⟨count, numbers, value⟩ := counts
            refine ⟨count, numbers, ?_⟩
            rw [unreserved] at value
            rw [N.counter_bump, value]
            simp
          · obtain ⟨count, numbers, value⟩ := continues.counted k' row' before
            refine ⟨count, numbers, ?_⟩
            have other : ¬ k = k' := fun same => apart (named.trans same)
            rw [unreserved] at value
            rw [value]
            simp [other]
        · rintro k' n reserved
          cases reserved
          exact ⟨N.bump row, named ▸ Table.lookup_put_self _ _, N.counter_bump row⟩
        · intro k' row' held
          rcases Table.lookup_put_eq_some.mp held with ⟨same, _⟩ | ⟨_, before⟩
          · exact .inr (named.symm.trans same ▸ free.1)
          · exact .inl ⟨row', before⟩
      · cases done

theorem insert? (consistent : db.Consistent) {entry : ε} (done : db.insert? t entry = some db') :
    db'.Consistent := by
  unfold Database.insert? at done
  split at done
  · cases done
  next tx found =>
    split at done
    next reserved =>
      cases done
      have continues := consistent.continues t tx found
      obtain ⟨row, held, next_⟩ := continues.reserved _ _ reserved
      refine consistent.moved found ⟨?_, ?_, ?_⟩ fun k row' held => .inl ⟨row', held⟩
      · intro other member
        rcases List.mem_append.mp member with before | isNew
        · exact continues.owned other before
        · rw [List.mem_singleton.mp isNew]
          exact ⟨row, held⟩
      · intro k row' version
        obtain ⟨count, numbers, value⟩ := continues.counted k row' version
        rw [reserved] at value
        by_cases same : N.owner entry = k
        · subst same
          obtain rfl := Option.some.inj (held.symm.trans version)
          -- the reservation becomes an entry
          have number : N.number entry = next db.rows (N.owner entry) + count := by
            simp only [Option.map_some, if_true] at value
            omega
          refine ⟨count + 1, ?_, ?_⟩
          · rw [List.filter_append, List.map_append, numbers, List.range'_1_concat]
            simp [number]
          · rw [next_, number]
            simp [Nat.add_assoc]
        · refine ⟨count, ?_, ?_⟩
          · rw [List.filter_append, List.map_append, numbers]
            simp [same]
          · rw [value]
            simp [same]
      · intro k n nothing
        cases nothing
    · cases done

theorem next_pos (consistent : db.Consistent) (k : κ) : 1 ≤ next db.rows k := by
  unfold next
  cases found : db.rows.lookup k with
  | none => exact Nat.le_refl 1
  | some row => exact consistent.positive k row found

/-- **A commit makes the entries of the transaction visible, in line.** -/
theorem commit? [DecidableEq ι] (consistent : db.Consistent) (done : db.commit? t = some db') :
    db'.Consistent := by
  unfold Database.commit? at done
  split at done
  · cases done
  next tx found =>
    split at done
    next free =>
      obtain ⟨entries, inserted, rfl⟩ := Option.map_eq_some_iff.mp done
      have continues := consistent.continues t tx found
      have unreserved : tx.reserved = none := Option.isNone_iff_eq_none.mp free
      have counts : ∀ k, ∃ count,
          (tx.entries.filter fun entry => N.owner entry = k).map N.number =
              List.range' (next db.rows k) count ∧
            next (db.rows.overlay tx.versions) k = next db.rows k + count := by
        intro k
        obtain ⟨count, numbers, value⟩ := consistent.counts_visible found k
        refine ⟨count, numbers, ?_⟩
        rw [next, Table.lookup_overlay]
        simpa [unreserved, visible] using value
      refine ⟨?_, ?_, ?_, ?_⟩
      · intro k row present
        obtain ⟨count, _, value⟩ := counts k
        have positive := consistent.next_pos k
        rw [next, present, Option.map_some, Option.getD_some] at value
        omega
      · intro k
        obtain ⟨count, numbers, value⟩ := counts k
        have positive := consistent.next_pos k
        have bound : next db.rows k - 1 + 1 = next db.rows k := by omega
        rw [← bound] at numbers
        have members : ∀ entry, (entry ∈ entries.select fun entry => N.owner entry = k) ↔
            (entry ∈ tx.entries.filter fun entry => N.owner entry = k) ∨
              entry ∈ db.entries.select fun entry => N.owner entry = k := by
          intro entry
          simp only [Table.mem_select, Table.lookup_insertAll? inserted, List.mem_filter,
            decide_eq_true_eq]
          tauto
        rw [value, show next db.rows k + count - 1 = next db.rows k - 1 + count by omega]
        exact (consistent.numbered k).extend numbers (entries.nodup_rows.filter _) members
      · intro t₁ tx₁ present
        obtain ⟨apart, before⟩ := transaction?_delete present
        have others := consistent.continues t₁ tx₁ before
        refine ⟨others.owned, fun k row version => ?_, others.reserved⟩
        -- the rows that the other transactions hold are not among the committed versions
        have same : next (db.rows.overlay tx.versions) k = next db.rows k := by
          have held := consistent.exclusive t₁ t tx₁ tx k row before found apart version
          rw [next, Table.lookup_overlay, held]
          rfl
        have counted := others.counted k row version
        rw [Transaction.Counts, ← same] at counted
        exact counted
      · intro t₁ t₂ tx₁ tx₂ k row present₁ present₂
        exact consistent.exclusive t₁ t₂ tx₁ tx₂ k row (transaction?_delete present₁).2
          (transaction?_delete present₂).2
    · cases done

/-! ## Reading -/

/-- **The committed entries of every row are a sequenced log.** -/
theorem sequenced_log (consistent : db.Consistent) (k : κ) : Sequenced N.number (db.log k) :=
  (consistent.numbered k).sequenced_inOrder

/-- `WHERE owner = k AND cursor < number ORDER BY number LIMIT limit`. -/
theorem page_eq (consistent : db.Consistent) (k : κ) (cursor limit : Nat) :
    (inOrder N.number (db.entries.select fun entry =>
      N.owner entry = k ∧ cursor < N.number entry)).take limit =
      ((db.log k).drop cursor).take limit := by
  have selected : (db.entries.select fun entry => N.owner entry = k ∧ cursor < N.number entry) =
      (db.entries.select fun entry => N.owner entry = k).filter fun entry =>
        cursor < N.number entry := by
    unfold Table.select
    rw [List.filter_filter]
    refine List.filter_congr fun entry _ => ?_
    rw [Bool.and_comm, ← Bool.decide_and]
  rw [selected, (consistent.numbered k).inOrder_filter]
  rfl

end Consistent

end Steps

/-! ## What is committed -/

/-- Only a commit changes what is committed. -/
structure SameCommitted (db db' : Database N τ) : Prop where
  rows : db'.rows = db.rows
  entries : db'.entries = db.entries

section SameCommitted

variable [DecidableEq τ] {db db' : Database N τ} {t : τ}

omit [DecidableEq κ] in
theorem sameCommitted_begin? (begun : db.begin? t = some db') : SameCommitted db db' := by
  obtain ⟨_, _, rfl⟩ := Option.map_eq_some_iff.mp begun
  exact ⟨rfl, rfl⟩

theorem sameCommitted_write? {row : ρ} (written : db.write? t row = some db') :
    SameCommitted db db' := by
  unfold write? at written
  split at written
  · cases written
  · split at written
    · cases written
      exact ⟨rfl, rfl⟩
    · cases written

theorem sameCommitted_reserve? {k : κ} (reserved : db.reserve? t k = some db') :
    SameCommitted db db' := by
  unfold reserve? at reserved
  split at reserved
  · cases reserved
  · split at reserved
    · cases reserved
    · split at reserved
      · cases reserved
        exact ⟨rfl, rfl⟩
      · cases reserved

theorem sameCommitted_insert? {entry : ε} (inserted : db.insert? t entry = some db') :
    SameCommitted db db' := by
  unfold insert? at inserted
  split at inserted
  · cases inserted
  · split at inserted
    · cases inserted
      exact ⟨rfl, rfl⟩
    · cases inserted

/-- A commit keeps the committed entries. -/
theorem kept_commit? [DecidableEq ι] (done : db.commit? t = some db') {key : ι} {entry : ε}
    (found : db.entries.lookup key = some entry) : db'.entries.lookup key = some entry := by
  unfold commit? at done
  split at done
  · cases done
  · split at done
    · obtain ⟨entries, inserted, rfl⟩ := Option.map_eq_some_iff.mp done
      exact (Table.lookup_insertAll? inserted).mpr (.inr found)
    · cases done

end SameCommitted

/-- Committed entries stay. -/
theorem log_prefix [DecidableEq ι] [DecidableEq τ] {db db' : Database N τ}
    (consistent : db.Consistent) (consistent' : db'.Consistent)
    (kept : ∀ key entry, db.entries.lookup key = some entry → db'.entries.lookup key = some entry)
    (k : κ) : db.log k <+: db'.log k := by
  refine (consistent.sequenced_log k).prefix_of_subset (consistent'.sequenced_log k) ?_
  intro entry member
  rw [log, mem_inOrder, Table.mem_select] at member ⊢
  exact ⟨kept _ entry member.1, member.2⟩

end Database

end OpsComposer.Foundations
