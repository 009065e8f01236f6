import OpsComposer.Foundations.ReadCommitted
import OpsComposer.Foundations.Transition

/-!
# Row locks

What a step of a database can do (`Db.Effect`), and what the locks give:

* `Command.perform_changes` — a statement changes a row as its kind says, and only
  rows that it locks;
* `Db.Exclusive` — no two unfinished transactions hold one row, in every run;
* `Db.view_commit` — a commit changes what another transaction sees exactly under the
  keys that the committed transaction held;
* `Db.AtPoints` — what holds everywhere in a program holds of every transaction.
-/

set_option autoImplicit false

namespace OpsComposer.Foundations

open RowStore

variable {σ κ ρ S ε α C : Type} [DecidableEq κ] [RowStore σ κ ρ]

/-! ## What a statement writes -/

namespace RowStore

variable {ws : List (Write κ ρ)} {k : κ}

theorem mem_touched :
    k ∈ touched σ ws ↔ ∃ w ∈ ws, written σ w = k := List.mem_map

/-- Writes that agree about a key leave what they say. -/
theorem lookup_applyAll_uniform {row? : Option ρ} (s : σ) (member : k ∈ touched σ ws)
    (agree : ∀ w ∈ ws, written σ w = k → left w = row?) : lookup (applyAll s ws) k = row? := by
  induction ws generalizing s with
  | nil => cases member
  | cons w ws ih =>
      have rest : ∀ w' ∈ ws, written σ w' = k → left w' = row? := fun w' tail =>
        agree w' (List.mem_cons_of_mem _ tail)
      by_cases later : k ∈ touched σ ws
      · exact ih (apply s w) later rest
      · obtain rfl : k = written σ w := (List.mem_cons.mp member).resolve_right later
        rw [applyAll_cons, lookup_applyAll_of_not_mem _ later, lookup_apply, if_pos rfl]
        exact agree w (List.mem_cons_self ..) rfl

/-- When nothing erases a key that is written, the view shows a row that was put. -/
theorem lookup_applyAll_of_puts (s : σ)
    (member : k ∈ touched σ ws) (puts : ∀ w ∈ ws, written σ w = k → ∃ row, w = .put row) :
    ∃ row, .put row ∈ ws ∧ lookup (applyAll s ws) k = some row := by
  induction ws generalizing s with
  | nil => cases member
  | cons w ws ih =>
      by_cases later : k ∈ touched σ ws
      · obtain ⟨row, put, shown⟩ := ih (apply s w) later fun w' tail =>
          puts w' (List.mem_cons_of_mem _ tail)
        exact ⟨row, List.mem_cons_of_mem _ put, shown⟩
      · obtain rfl : k = written σ w := (List.mem_cons.mp member).resolve_right later
        obtain ⟨row, rfl⟩ := puts w (List.mem_cons_self ..) rfl
        refine ⟨row, List.mem_cons_self .., ?_⟩
        rw [applyAll_cons, lookup_applyAll_of_not_mem _ later, lookup_apply, if_pos rfl]
        rfl

/-- A key that has a row, or gets one, keeps a row when nothing erases it. -/
theorem exists_lookup_applyAll {s : σ} (kept : .erase k ∉ ws)
    (there : k ∈ touched σ ws ∨ ∃ row, lookup s k = some row) :
    ∃ row, lookup (applyAll s ws) k = some row := by
  by_cases member : k ∈ touched σ ws
  · have puts : ∀ w ∈ ws, written σ w = k → ∃ row, w = .put row := by
      intro w isWritten same
      cases w with
      | put row => exact ⟨row, rfl⟩
      | erase k' =>
          obtain rfl : k' = k := same
          exact absurd isWritten kept
    obtain ⟨row, -, after⟩ := lookup_applyAll_of_puts s member puts
    exact ⟨row, after⟩
  · rw [lookup_applyAll_of_not_mem s member]
    exact there.resolve_left member

end RowStore

namespace Command

theorem found_mem_targets {snapshot current : σ} {condition : ρ → Bool} {row : ρ}
    (member : row ∈ found snapshot current condition) :
    key σ row ∈ ((rows snapshot).filter condition).map (key σ) := by
  obtain ⟨-, -, old, shown, holds⟩ := mem_found.mp member
  exact List.mem_map.mpr
    ⟨old, List.mem_filter.mpr ⟨mem_of_lookup shown, holds⟩, key_of_lookup shown⟩

section Perform

variable {clash : ρ → ρ → Bool} {snapshot current : σ} {command : Command σ κ ρ}
  {shown : List ρ} {writes : List (Write κ ρ)}

variable {row : ρ} {condition : ρ → Bool} {f : ρ → ρ} {keeps : ∀ r, key σ (f r) = key σ r}

/-- The shape of an update's result. -/
theorem perform_update
    {watched : Bool} {returning : ρ → List ρ}
    (done : (Command.update condition f keeps watched returning).perform clash snapshot current =
      some (shown, writes)) :
    shown = ((found snapshot current condition).map f).flatMap returning ∧
      writes = ((found snapshot current condition).map f).map .put := by
  simpa [perform, eq_comm] using done

/-- The rows that an update returns are the ones that it has written. -/
theorem perform_set
    (done : (Command.set condition f keeps).perform clash snapshot current = some (shown, writes)) :
    shown = (found snapshot current condition).map f ∧ writes = shown.map .put := by
  obtain ⟨rfl, rfl⟩ := perform_update done
  simp [List.flatMap_singleton']

theorem perform_delete
    (done : (Command.delete condition).perform clash snapshot current = some (shown, writes)) :
    shown = found snapshot current condition ∧
      writes = shown.map fun row => .erase (key σ row) := by
  obtain ⟨rfl, rfl⟩ := Prod.mk.inj (Option.some.inj done)
  exact ⟨rfl, rfl⟩

/-- An insert adds its row, or does nothing beside a row that it cannot stand beside. -/
theorem perform_insert {doNothing : Bool}
    (done : (Command.insert row doNothing : Command σ κ ρ).perform clash snapshot current =
      some (shown, writes)) :
    lookup current (key σ row) = none ∧
      ((collides clash current row = true ∧ doNothing = true ∧ shown = [] ∧ writes = []) ∨
        (collides clash current row = false ∧ shown = [row] ∧ writes = [.put row])) := by
  cases taken : lookup current (key σ row) with
  | some old => simp [perform, taken] at done
  | none =>
      refine ⟨rfl, ?_⟩
      cases collision : collides clash current row with
      | false => exact .inr ⟨rfl, by simpa [perform, taken, collision, eq_comm] using done⟩
      | true =>
          cases doNothing with
          | false => simp [perform, taken, collision] at done
          | true => exact .inl ⟨rfl, rfl, by simpa [perform, taken, collision, eq_comm] using done⟩

/-- An insert that does nothing under a key that has a row. -/
theorem perform_insertAbsent
    (done : (Command.insertAbsent row : Command σ κ ρ).perform clash snapshot current =
      some (shown, writes)) :
    ((∃ old, lookup current (key σ row) = some old) ∧ shown = [] ∧ writes = []) ∨
      (lookup current (key σ row) = none ∧ shown = [row] ∧ writes = [.put row]) := by
  cases taken : lookup current (key σ row) with
  | some old => exact .inl ⟨⟨old, rfl⟩, by simpa [perform, taken, eq_comm] using done⟩
  | none =>
      cases collision : collides clash current row with
      | true => simp [perform, taken, collision] at done
      | false => exact .inr ⟨rfl, by simpa [perform, taken, collision, eq_comm] using done⟩

/-- An insert that changes the row that it finds. -/
theorem perform_upsert
    (done : (Command.upsert row f keeps).perform clash snapshot current = some (shown, writes)) :
    (lookup current (key σ row) = none ∧ shown = [row] ∧ writes = [.put row]) ∨
      ∃ old, lookup current (key σ row) = some old ∧ shown = [f old] ∧
        writes = [.put (f old)] := by
  cases taken : lookup current (key σ row) with
  | some old => exact .inr ⟨old, rfl, by simpa [perform, taken, eq_comm] using done⟩
  | none =>
      cases collision : collides clash current row with
      | true => simp [perform, taken, collision] at done
      | false => exact .inl ⟨rfl, by simpa [perform, taken, collision, eq_comm] using done⟩

/-- An insert that changes the row that it finds when that meets a condition. -/
theorem perform_upsertIf
    (done : (Command.upsertIf row condition f keeps).perform clash snapshot current =
      some (shown, writes)) :
    (lookup current (key σ row) = none ∧ shown = [row] ∧ writes = [.put row]) ∨
      ∃ old, lookup current (key σ row) = some old ∧
        ((condition old = true ∧ shown = [f old] ∧ writes = [.put (f old)]) ∨
          (condition old = false ∧ shown = [] ∧ writes = [])) := by
  cases taken : lookup current (key σ row) with
  | some old =>
      refine .inr ⟨old, rfl, ?_⟩
      cases meets : condition old with
      | true => exact .inl ⟨rfl, by simpa [perform, taken, meets, eq_comm] using done⟩
      | false => exact .inr ⟨rfl, by simpa [perform, taken, meets, eq_comm] using done⟩
  | none =>
      cases collision : collides clash current row with
      | true => simp [perform, taken, collision] at done
      | false => exact .inl ⟨rfl, by simpa [perform, taken, collision, eq_comm] using done⟩

theorem perform_rewrite {keys : List κ} {change : σ → ρ → Option (Option ρ)}
    {keeps : ∀ s r r', change s r = some (some r') → key σ r' = key σ r}
    (done : (Command.rewrite keys change keeps).perform clash snapshot current =
      some (shown, writes)) :
    shown = (changed current keys change).map (fun entry => entry.2.getD entry.1) ∧
      writes = (changed current keys change).map (writeOf σ) := by
  obtain ⟨rfl, rfl⟩ := Prod.mk.inj (Option.some.inj done)
  exact ⟨rfl, rfl⟩

/-- The write of a change is about the row that is changed, and leaves what the change says. -/
theorem written_writeOf {keys : List κ} {change : σ → ρ → Option (Option ρ)}
    (keeps : ∀ s r r', change s r = some (some r') → key σ r' = key σ r)
    {after : Option ρ} (member : (row, after) ∈ changed current keys change) :
    written σ (writeOf σ (row, after)) = key σ row ∧ left (writeOf σ (row, after)) = after := by
  obtain ⟨-, -, isChange⟩ := mem_changed.mp member
  cases after with
  | none => exact ⟨rfl, rfl⟩
  | some row' => exact ⟨keeps current row row' isChange, rfl⟩

/-- **One statement.** What a statement writes lies under keys that it has locked,
and is a change that a statement of its kind makes. -/
theorem perform_changes (done : command.perform clash snapshot current = some (shown, writes))
    {k : κ} (member : k ∈ touched σ writes) :
    k ∈ command.targets snapshot ∧
      Changes command (lookup current k) (lookup (applyAll current writes) k) := by
  cases command with
  | select rows =>
      obtain ⟨-, rfl⟩ : shown = rows ∧ writes = [] := by simpa [perform, eq_comm] using done
      cases member
  | update condition f keeps watched returning =>
      obtain ⟨-, rfl⟩ := perform_update done
      obtain ⟨write, put, rfl⟩ := mem_touched.mp member
      simp only [List.map_map, List.mem_map, Function.comp_apply] at put
      obtain ⟨old, isFound, rfl⟩ := put
      have before : lookup current (key σ old) = some old :=
        lookup_of_mem (mem_found.mp isFound).1
      have under : written σ (Write.put (κ := κ) (f old)) = key σ old := keeps old
      have after : lookup (applyAll current
          (((found snapshot current condition).map f).map .put)) (key σ old) = some (f old) := by
        refine lookup_applyAll_uniform current (under ▸ member) ?_
        intro write put same
        simp only [List.map_map, List.mem_map, Function.comp_apply] at put
        obtain ⟨other, isFound', rfl⟩ := put
        have also : lookup current (key σ old) = some other :=
          ((keeps other).symm.trans same) ▸ lookup_of_mem (mem_found.mp isFound').1
        obtain rfl : other = old := Option.some.inj (also.symm.trans before)
        rfl
      rw [under, before, after]
      exact ⟨found_mem_targets isFound, .update (mem_found.mp isFound).2.1⟩
  | delete condition =>
      obtain ⟨rfl, rfl⟩ := perform_delete done
      obtain ⟨write, erased, rfl⟩ := mem_touched.mp member
      obtain ⟨old, isFound, rfl⟩ := List.mem_map.mp erased
      have before : lookup current (key σ old) = some old :=
        lookup_of_mem (mem_found.mp isFound).1
      have after : lookup (applyAll current ((found snapshot current condition).map
          fun row => .erase (key σ row))) (key σ old) = none := by
        refine lookup_applyAll_uniform current member ?_
        intro write erased _
        obtain ⟨other, -, rfl⟩ := List.mem_map.mp erased
        rfl
      refine ⟨found_mem_targets isFound, ?_⟩
      simp only [written, before, after]
      exact .delete (mem_found.mp isFound).2.1
  | insert row doNothing =>
      obtain ⟨taken, ⟨-, -, -, rfl⟩ | ⟨-, -, rfl⟩⟩ := perform_insert done
      · cases member
      · obtain rfl : k = key σ row := by simpa [touched, written] using member
        refine ⟨by simp [targets], ?_⟩
        simp only [applyAll_cons, applyAll_nil, lookup_apply, written, left, if_true, taken]
        exact .insert
  | insertAbsent row =>
      rcases perform_insertAbsent done with ⟨-, -, rfl⟩ | ⟨taken, -, rfl⟩
      · cases member
      · obtain rfl : k = key σ row := by simpa [touched, written] using member
        refine ⟨by simp [targets], ?_⟩
        simp only [applyAll_cons, applyAll_nil, lookup_apply, written, left, if_true, taken]
        exact .inserted
  | upsert row f keeps =>
      rcases perform_upsert done with ⟨taken, -, rfl⟩ | ⟨old, taken, -, rfl⟩
      · obtain rfl : k = key σ row := by simpa [touched, written] using member
        refine ⟨by simp [targets], ?_⟩
        simp only [applyAll_cons, applyAll_nil, lookup_apply, written, left, if_true, taken]
        exact .added
      · have same : key σ (f old) = key σ row := (keeps old).trans (key_of_lookup taken)
        obtain rfl : k = key σ row := by simpa [touched, written, same] using member
        refine ⟨by simp [targets], ?_⟩
        simp only [applyAll_cons, applyAll_nil, lookup_apply, written, left, same, if_true, taken]
        exact .replaced (key_of_lookup taken)
  | upsertIf row condition f keeps =>
      rcases perform_upsertIf done with ⟨taken, -, rfl⟩ | ⟨old, taken, ⟨holds, -, rfl⟩ | ⟨-, -, rfl⟩⟩
      · obtain rfl : k = key σ row := by simpa [touched, written] using member
        refine ⟨by simp [targets], ?_⟩
        simp only [applyAll_cons, applyAll_nil, lookup_apply, written, left, if_true, taken]
        exact .addedIf
      · have same : key σ (f old) = key σ row := (keeps old).trans (key_of_lookup taken)
        obtain rfl : k = key σ row := by simpa [touched, written, same] using member
        refine ⟨by simp [targets], ?_⟩
        simp only [applyAll_cons, applyAll_nil, lookup_apply, written, left, same, if_true, taken]
        exact .replacedIf (key_of_lookup taken) holds
      · cases member
  | rewrite keys change keeps =>
      obtain ⟨-, rfl⟩ := perform_rewrite done
      obtain ⟨write, isWrite, rfl⟩ := mem_touched.mp member
      obtain ⟨⟨old, after⟩, isChanged, rfl⟩ := List.mem_map.mp isWrite
      obtain ⟨isRow, among, isChange⟩ := mem_changed.mp isChanged
      obtain ⟨under, leaves⟩ := written_writeOf keeps isChanged
      have before : lookup current (key σ old) = some old := lookup_of_mem isRow
      have shown : lookup (applyAll current ((changed current keys change).map (writeOf σ)))
          (key σ old) = after := by
        refine lookup_applyAll_uniform current (under ▸ member) ?_
        intro write isWrite same
        obtain ⟨⟨other, after'⟩, isChanged', rfl⟩ := List.mem_map.mp isWrite
        obtain ⟨isRow', -, isChange'⟩ := mem_changed.mp isChanged'
        obtain ⟨under', leaves'⟩ := written_writeOf keeps isChanged'
        have also : lookup current (key σ old) = some other :=
          (under'.symm.trans same) ▸ lookup_of_mem isRow'
        obtain rfl : other = old := Option.some.inj (also.symm.trans before)
        obtain rfl : after' = after := Option.some.inj (isChange'.symm.trans isChange)
        exact leaves'
      rw [under, before, shown]
      exact ⟨among, .rewritten before among isChange⟩

end Perform

end Command

/-! ## What a step does -/

/-- A statement returns only rows that it can return. -/
def Service.Tells (service : Service σ κ ρ S ε α C) (told : S → List ρ → Prop) : Prop :=
  ∀ statement snapshot current shown writes,
    (service.meaning statement snapshot).perform service.clash snapshot current =
      some (shown, writes) → told statement shown

/-- A call that begins is admitted, and the clock that is read shows the time. -/
def DbAction.Within (admits : C → Prop) (time : Nat) : DbAction C → Prop
  | .begin call => admits call
  | .clock _ now => now = time
  | _ => True

namespace Db

/-- What a step does to the transaction that takes it, when the clock shows `time`. -/
inductive Moves (service : Service σ κ ρ S ε α C) (time : Nat) (db : Db σ κ ρ S ε α C) (id : Nat) :
    Txn σ κ ρ S ε α C → Txn σ κ ρ S ε α C → Prop where
  | clock {txn : Txn σ κ ρ S ε α C} {next : Nat → Program S ρ ε α}
      (running : txn.status = .running) (stands : txn.program = .clock next) :
      Moves service time db id txn { txn with program := next time, log := txn.log ++ [.clock time] }
  | snapshot {txn : Txn σ κ ρ S ε α C} {statement : S} {next : List ρ → Program S ρ ε α}
      (running : txn.status = .running) (stands : txn.program = .run statement next)
      (waits : (service.meaning statement (txn.view db.state)).isSelect = false) :
      Moves service time db id txn { txn with snapshot := some ⟨db.state, db.history.length⟩ }
  | performed {txn : Txn σ κ ρ S ε α C} {statement : S} {next : List ρ → Program S ρ ε α}
      {shown : List ρ} {writes : List (Write κ ρ)}
      (running : txn.status = .running) (stands : txn.program = .run statement next)
      (result : db.performed service id txn statement = some (some (shown, writes))) :
      Moves service time db id txn (db.afterStatement service txn statement next shown writes)
  | checked {txn : Txn σ κ ρ S ε α C} {answer : α} (running : txn.status = .running)
      (stands : txn.program = .done answer) (isWatched : txn.watched = true)
      (alone : ∀ other ∈ db.others id, other.status ≠ .checked)
      (holds : service.constraint (txn.view db.state) = true) :
      Moves service time db id txn { txn with status := .checked }
  | aborted {txn : Txn σ κ ρ S ε α C} (live : txn.live = true) :
      Moves service time db id txn { txn with status := .aborted }

/-- What a step does to a database when the clock shows `time`. -/
inductive Effect (service : Service σ κ ρ S ε α C) (admits : C → Prop) (time : Nat)
    (db : Db σ κ ρ S ε α C) :
    Db σ κ ρ S ε α C → Prop where
  | begun {call : C} (admitted : admits call) :
      Effect service admits time db { db with txns := db.txns ++ [Txn.start service call] }
  | moved {id : Nat} {txn txn' : Txn σ κ ρ S ε α C} (found : db.txns[id]? = some txn)
      (moves : Moves service time db id txn txn') : Effect service admits time db (db.replace id txn')
  | committed {id : Nat} {txn : Txn σ κ ρ S ε α C} {answer : α}
      (found : db.txns[id]? = some txn) (stands : txn.program = .done answer)
      (ready : txn.status = .checked ∨ (txn.status = .running ∧ txn.watched = false)) :
      Effect service admits time db
        { state := txn.view db.state
          txns := db.txns.set id { txn with status := .committed }
          history := db.history ++ [id] }

variable {admits : C → Prop} {db db' : Db σ κ ρ S ε α C} {action : DbAction C} {id time : Nat}
  {service : Service σ κ ρ S ε α C} {txn txn' : Txn σ κ ρ S ε α C}

theorem Moves.live (moves : Moves service time db id txn txn') : txn.live = true := by
  cases moves with
  | aborted live => exact live
  | clock running _ | snapshot running _ _ | performed running _ _ | checked running _ _ _ _ =>
      simp [Txn.live, running]

theorem Moves.call (moves : Moves service time db id txn txn') : txn'.call = txn.call := by
  cases moves <;> rfl

/-- A step of a transaction that is running does not commit it. -/
theorem Moves.uncommitted (moves : Moves service time db id txn txn') :
    txn'.status ≠ .committed := by
  intro done
  cases moves with
  | clock running _ | snapshot running _ _ | performed running _ _ =>
      exact absurd (running.symm.trans done) (by simp)
  | checked _ _ _ _ _ | aborted _ => cases done

/-- One step of a running transaction is one of the list. -/
theorem moves_of_move (running : txn.status = .running) (within : action.Within admits time)
    (step : db.move service id txn action = some txn') : Moves service time db id txn txn' := by
  have live : txn.live = true := by simp [Txn.live, running]
  obtain ⟨call, program, waiting, writes, watched, status, log⟩ := txn
  cases action with
  | begin call | commit id | abort id => cases step
  | clock id' now =>
      cases program with
      | clock next => exact Option.some.inj step ▸ within ▸ .clock running rfl
      | done answer | fail error | run statement next => cases step
  | snapshot id' =>
      cases program with
      | run statement next =>
          simp only [move] at step
          split at step
          · cases step
          · rename_i waits
            exact Option.some.inj step ▸ .snapshot running rfl (by simpa using waits)
      | done answer | fail error | clock next => cases step
  | perform id' =>
      cases program with
      | run statement next =>
          obtain ⟨result, performed, after⟩ := Option.map_eq_some_iff.mp step
          cases result with
          | none => exact after ▸ .aborted live
          | some result => exact after ▸ .performed running rfl performed
      | done answer | fail error | clock next => cases step
  | check id' =>
      cases program with
      | done answer =>
          simp only [move] at step
          split at step
          · cases step
          · rename_i refused
            obtain ⟨isWatched, alone⟩ := not_or.mp refused
            split at step
            · rename_i holds
              exact Option.some.inj step ▸
                .checked running rfl (by simpa using isWatched) (by simpa using alone) holds
            · exact Option.some.inj step ▸ .aborted live
      | fail error | clock next | run statement next => cases step

theorem effect_of_advance (within : action.Within admits time)
    (step : step.advance service db id action = some db') : Effect service admits time db db' := by
  obtain ⟨txn, found, rest⟩ := Option.bind_eq_some_iff.mp step
  by_cases running : txn.status = .running
  · rw [if_pos running] at rest
    obtain ⟨txn', moved, rfl⟩ := Option.map_eq_some_iff.mp rest
    exact .moved found (moves_of_move running within moved)
  · rw [if_neg running] at rest
    cases rest

/-- **Inversion.** Every step is one of the list. -/
theorem effect_of_step (within : action.Within admits time)
    (step : db.step service action = some db') : Effect service admits time db db' := by
  cases action with
  | begin call => exact Option.some.inj step ▸ .begun within
  | clock id now | snapshot id | perform id | check id => exact effect_of_advance within step
  | commit id =>
      obtain ⟨⟨call, program, waiting, writes, watched, status, log⟩, found, rest⟩ :=
        Option.bind_eq_some_iff.mp step
      cases program with
      | done answer =>
          simp only [commit] at rest
          split at rest
          · rename_i ready
            exact Option.some.inj rest ▸ .committed found rfl ready
          · cases rest
      | fail error | clock next | run statement next => cases rest
  | abort id =>
      obtain ⟨txn, found, rest⟩ := Option.bind_eq_some_iff.mp step
      by_cases live : txn.live = true
      · rw [if_pos live] at rest
        exact Option.some.inj rest ▸ .moved found (.aborted live)
      · rw [if_neg live] at rest
        cases rest

/-- Only commits add to the history. -/
theorem history_of_step (step : db.step service action = some db') :
    db'.history = db.history ∨
      ∃ id, action = .commit id ∧ db'.history = db.history ++ [id] := by
  have advanced : ∀ {id : Nat} {moved : DbAction C},
      Db.step.advance service db id moved = some db' → db'.history = db.history := by
    intro id moved rest
    obtain ⟨txn, -, rest⟩ := Option.bind_eq_some_iff.mp rest
    split at rest
    · obtain ⟨txn', -, rfl⟩ := Option.map_eq_some_iff.mp rest
      rfl
    · cases rest
  cases action with
  | begin call => exact .inl (Option.some.inj step ▸ rfl)
  | clock id now | snapshot id | perform id | check id => exact .inl (advanced step)
  | commit id =>
      obtain ⟨txn, -, rest⟩ := Option.bind_eq_some_iff.mp step
      simp only [commit] at rest
      split at rest
      · split at rest
        · exact .inr ⟨id, rfl, Option.some.inj rest ▸ rfl⟩
        · cases rest
      · cases rest
  | abort id =>
      obtain ⟨txn, -, rest⟩ := Option.bind_eq_some_iff.mp step
      split at rest
      · exact .inl (Option.some.inj rest ▸ rfl)
      · cases rest

/-! ## Transactions after a step -/

section After

omit [DecidableEq κ] [RowStore σ κ ρ]

variable {db : Db σ κ ρ S ε α C} {id j : Nat} {txn txn' t : Txn σ κ ρ S ε α C}

theorem getElem?_set_of_found (found : db.txns[id]? = some txn) :
    (db.txns.set id txn')[j]? = if id = j then some txn' else db.txns[j]? := by
  obtain ⟨bound, -⟩ := List.getElem?_eq_some_iff.mp found
  by_cases same : id = j
  · subst same
    simp [bound]
  · simp [same]

theorem of_getElem?_set (found : db.txns[id]? = some txn)
    (after : (db.txns.set id txn')[j]? = some t) :
    (id = j ∧ t = txn') ∨ (id ≠ j ∧ db.txns[j]? = some t) := by
  rw [getElem?_set_of_found found] at after
  by_cases same : id = j
  · rw [if_pos same] at after
    exact .inl ⟨same, (Option.some.inj after).symm⟩
  · rw [if_neg same] at after
    exact .inr ⟨same, after⟩

theorem of_getElem?_append (after : (db.txns ++ [txn])[j]? = some t) :
    (j = db.txns.length ∧ t = txn) ∨ db.txns[j]? = some t := by
  rcases List.getElem?_eq_some_iff.mp after with ⟨bound, value⟩
  rw [List.length_append, List.length_singleton] at bound
  by_cases old : j < db.txns.length
  · rw [List.getElem?_append_left old] at after
    exact .inr after
  · obtain rfl : j = db.txns.length := by omega
    exact .inl ⟨rfl, by simpa using after.symm⟩

/-- A transaction that is ready to commit is unfinished. -/
theorem live_of_ready
    (ready : txn.status = .checked ∨ (txn.status = .running ∧ txn.watched = false)) :
    txn.live = true := by
  rcases ready with checked | ⟨running, -⟩
  · simp [Txn.live, checked]
  · simp [Txn.live, running]

end After

variable {admits : C → Prop} {db db' : Db σ κ ρ S ε α C} {j time : Nat}
  {service : Service σ κ ρ S ε α C} {t : Txn σ κ ρ S ε α C}

/-- A committed transaction stays as it is. -/
theorem Effect.committed_stays (effect : Effect service admits time db db')
    (present : db.txns[j]? = some t) (done : t.status = .committed) : db'.txns[j]? = some t := by
  have apart : ∀ {id : Nat} {txn : Txn σ κ ρ S ε α C}, db.txns[id]? = some txn →
      txn.live = true → id ≠ j := by
    rintro id txn found live rfl
    obtain rfl : txn = t := Option.some.inj (found.symm.trans present)
    simp [Txn.live, done] at live
  cases effect with
  | begun _ =>
      obtain ⟨bound, -⟩ := List.getElem?_eq_some_iff.mp present
      exact (List.getElem?_append_left bound).trans present
  | moved found moves =>
      exact (getElem?_set_of_found found).trans ((if_neg (apart found moves.live)).trans present)
  | committed found _ ready =>
      exact (getElem?_set_of_found found).trans
        ((if_neg (apart found (live_of_ready ready))).trans present)

/-- A transaction was there before, with its call, or it has just begun. -/
theorem Effect.origin (effect : Effect service admits time db db') (present : db'.txns[j]? = some t) :
    (∃ old : Txn σ κ ρ S ε α C, db.txns[j]? = some old ∧ t.call = old.call) ∨
      (j = db.txns.length ∧ admits t.call) := by
  cases effect with
  | begun admitted =>
      rcases of_getElem?_append present with ⟨last, rfl⟩ | old
      · exact .inr ⟨last, admitted⟩
      · exact .inl ⟨t, old, rfl⟩
  | moved found moves =>
      rcases of_getElem?_set found present with ⟨rfl, rfl⟩ | ⟨-, old⟩
      · exact .inl ⟨_, found, moves.call⟩
      · exact .inl ⟨t, old, rfl⟩
  | committed found _ _ =>
      rcases of_getElem?_set found present with ⟨rfl, rfl⟩ | ⟨-, old⟩
      · exact .inl ⟨_, found, rfl⟩
      · exact .inl ⟨t, old, rfl⟩

/-- A committed transaction was committed before, or is just being committed. -/
theorem Effect.committed_before (effect : Effect service admits time db db')
    (present : db'.txns[j]? = some t) (done : t.status = .committed) :
    db.txns[j]? = some t ∨
      ∃ (txn : Txn σ κ ρ S ε α C) (answer : α), db.txns[j]? = some txn ∧ txn.live = true ∧
        txn.program = .done answer ∧ t = { txn with status := .committed } ∧
          db'.state = txn.view db.state ∧ db'.history = db.history ++ [j] := by
  cases effect with
  | begun _ =>
      rcases of_getElem?_append present with ⟨-, rfl⟩ | old
      · cases done
      · exact .inl old
  | @moved id txn txn' found moves =>
      rcases of_getElem?_set found present with ⟨rfl, rfl⟩ | ⟨-, old⟩
      · exact absurd done moves.uncommitted
      · exact .inl old
  | @committed id txn answer found stands ready =>
      rcases of_getElem?_set found present with ⟨rfl, rfl⟩ | ⟨-, old⟩
      · exact .inr ⟨txn, answer, found, live_of_ready ready, stands, rfl, rfl, rfl⟩
      · exact .inl old

/-! ## Exclusion -/

/-- No two unfinished transactions hold one row. -/
def Exclusive (db : Db σ κ ρ S ε α C) : Prop :=
  ∀ (i j : Nat) (t t' : Txn σ κ ρ S ε α C), i ≠ j → db.txns[i]? = some t →
    db.txns[j]? = some t' → t.live = true → t'.live = true → ∀ k ∈ t.holds, k ∉ t'.holds

section Performed

variable {service : Service σ κ ρ S ε α C} {time : Nat} {db : Db σ κ ρ S ε α C} {id : Nat}
  {txn : Txn σ κ ρ S ε α C} {statement : S} {shown : List ρ} {writes : List (Write κ ρ)}

/-- What a statement that has been performed is told: it did not wait, and this is
its result. -/
theorem of_performed
    (result : db.performed service id txn statement = some (some (shown, writes))) :
    (∀ other ∈ db.others id, waitsFor service db.state (txn.view (db.snapshotFor txn).state)
        (service.meaning statement (txn.view (db.snapshotFor txn).state)) other = false) ∧
      (service.meaning statement (txn.view (db.snapshotFor txn).state)).perform service.clash
        (txn.view (db.snapshotFor txn).state) (txn.view db.state) = some (shown, writes) := by
  simp only [performed] at result
  split at result
  · cases result
  · rename_i free
    exact ⟨by simpa using free, Option.some.inj result⟩

/-- A statement writes only rows that no other unfinished transaction holds. -/
theorem performed_free
    (result : db.performed service id txn statement = some (some (shown, writes)))
    {k : κ} (member : k ∈ touched σ writes) : ∀ other ∈ db.others id, k ∉ other.holds := by
  intro other isOther held
  obtain ⟨free, done⟩ := of_performed result
  have target := (Command.perform_changes done member).1
  have waits := free other isOther
  simp only [waitsFor, Bool.or_eq_false_iff, List.any_eq_false] at waits
  exact waits.1 k target (decide_eq_true held)

/-- **The row after a statement**: what the transaction sees under a key stays as it
is, or the key is written now, and the row changes as the kind of the statement says. -/
theorem performed_row
    (result : db.performed service id txn statement = some (some (shown, writes))) (k : κ) :
    (k ∉ touched σ writes ∧
        lookup (applyAll db.state (txn.writes ++ writes)) k = lookup (txn.view db.state) k) ∨
      (k ∈ touched σ writes ∧
        Command.Changes (service.meaning statement (txn.view (db.snapshotFor txn).state))
          (lookup (txn.view db.state) k)
          (lookup (applyAll db.state (txn.writes ++ writes)) k)) := by
  rw [applyAll_append]
  by_cases member : k ∈ touched σ writes
  · exact .inr ⟨member, (Command.perform_changes (of_performed result).2 member).2⟩
  · exact .inl ⟨member, lookup_applyAll_of_not_mem _ member⟩

end Performed

variable {admits : C → Prop} {db db' : Db σ κ ρ S ε α C} {time : Nat}
  {service : Service σ κ ρ S ε α C} {txn : Txn σ κ ρ S ε α C} {k : κ}

/-- The keys that a transaction holds after a statement. -/
theorem holds_afterStatement {statement : S} {next : List ρ → Program S ρ ε α}
    {shown : List ρ} {writes : List (Write κ ρ)} :
    k ∈ (db.afterStatement service txn statement next shown writes).holds ↔
      k ∈ txn.holds ∨ k ∈ touched σ writes := by
  simp [Txn.holds, afterStatement]

/-- A transaction that moves holds what it held and what nobody else holds. -/
theorem Moves.holds {id : Nat} {txn' : Txn σ κ ρ S ε α C}
    (moves : Moves service time db id txn txn') (held : k ∈ txn'.holds) :
    k ∈ txn.holds ∨ ∀ other ∈ db.others id, k ∉ other.holds := by
  cases moves with
  | clock _ _ | snapshot _ _ _ | checked _ _ _ _ _ | aborted _ => exact .inl held
  | performed _ _ result =>
      rcases holds_afterStatement.mp held with old | new
      · exact .inl old
      · exact .inr (performed_free result new)

/-- **Row locks exclude.** -/
theorem Exclusive.effect
    (exclusive : Exclusive db) (effect : Effect service admits time db db') : Exclusive db' := by
  intro i j t t' apart found found' live live' k held held'
  cases effect with
  | begun _ =>
      rcases of_getElem?_append found with ⟨-, rfl⟩ | old
      · simp [Txn.start, Txn.holds] at held
      · rcases of_getElem?_append found' with ⟨-, rfl⟩ | old'
        · simp [Txn.start, Txn.holds] at held'
        · exact exclusive i j t t' apart old old' live live' k held held'
  | @moved id txn txn' present moves =>
      have free : ∀ l other, l ≠ id → db.txns[l]? = some other → other.live = true →
          k ∈ txn'.holds → k ∉ other.holds := by
        intro l other different isOther otherLive new
        rcases moves.holds new with old | nobody
        · exact exclusive id l txn other (Ne.symm different) present isOther moves.live otherLive
            k old
        · exact nobody other (mem_others.mpr ⟨l, different, isOther, otherLive⟩)
      rcases of_getElem?_set present found with ⟨rfl, rfl⟩ | ⟨different, old⟩
      · rcases of_getElem?_set present found' with ⟨same, -⟩ | ⟨-, old'⟩
        · exact apart same
        · exact free j t' (Ne.symm apart) old' live' held held'
      · rcases of_getElem?_set present found' with ⟨rfl, rfl⟩ | ⟨-, old'⟩
        · exact free i t apart old live held' held
        · exact exclusive i j t t' apart old old' live live' k held held'
  | @committed id txn answer present stands ready =>
      rcases of_getElem?_set present found with ⟨-, rfl⟩ | ⟨-, old⟩
      · simp [Txn.live] at live
      · rcases of_getElem?_set present found' with ⟨-, rfl⟩ | ⟨-, old'⟩
        · simp [Txn.live] at live'
        · exact exclusive i j t t' apart old old' live live' k held held'

/-- **What a commit shows to others**: under a key that the other transaction holds
it sees what it saw; under any other key it sees what the committed one saw. -/
theorem view_commit (other txn : Txn σ κ ρ S ε α C) (state : σ) (k : κ) :
    lookup (other.view (txn.view state)) k =
      if k ∈ other.holds then lookup (other.view state) k else lookup (txn.view state) k := by
  by_cases held : k ∈ other.holds
  · rw [if_pos held]
    exact lookup_applyAll_of_mem _ _ held
  · rw [if_neg held]
    exact lookup_applyAll_of_not_mem _ held

/-- A transaction sees the committed row under a key that it does not hold. -/
theorem view_of_not_held (state : σ) (free : k ∉ txn.holds) :
    lookup (txn.view state) k = lookup state k :=
  lookup_applyAll_of_not_mem state free

/-! ## At every point of a program -/

/-- A property of every point of its program holds of every transaction. -/
def AtPoints (told : S → List ρ → Prop)
    (P : C → List (Event S ρ) → Program S ρ ε α → Prop)
    (db : Db σ κ ρ S ε α C) : Prop :=
  ∀ (id : Nat) (txn : Txn σ κ ρ S ε α C), db.txns[id]? = some txn →
    Program.Everywhere told (P txn.call) txn.log txn.program

theorem AtPoints.effect
    {told : S → List ρ → Prop} {P : C → List (Event S ρ) → Program S ρ ε α → Prop}
    (holds : AtPoints told P db) (tells : service.Tells told)
    (programs : ∀ call, Program.Everywhere told (P call) [] (service.program call))
    (effect : Effect service admits time db db') : AtPoints told P db' := by
  intro j t present
  cases effect with
  | begun _ =>
      rcases of_getElem?_append present with ⟨-, rfl⟩ | old
      · exact programs _
      · exact holds j t old
  | @moved id txn txn' found moves =>
      rcases of_getElem?_set found present with ⟨rfl, rfl⟩ | ⟨-, old⟩
      · have before := holds id txn found
        cases moves with
        | clock _ stands =>
            rw [stands] at before
            exact before.2 time
        | snapshot _ _ _ | checked _ _ _ _ _ | aborted _ => exact before
        | performed _ stands result =>
            rw [stands] at before
            exact before.2 _ _ (tells _ _ _ _ _ (of_performed result).2)
      · exact holds j t old
  | @committed id txn _ found _ _ =>
      rcases of_getElem?_set found present with ⟨rfl, rfl⟩ | ⟨-, old⟩
      · exact holds id txn found
      · exact holds j t old

/-! ## The history -/

/-- The history lists the committed transactions, each once. -/
structure Recorded (db : Db σ κ ρ S ε α C) : Prop where
  nodup : db.history.Nodup
  iff : ∀ id, id ∈ db.history ↔
    ∃ txn : Txn σ κ ρ S ε α C, db.txns[id]? = some txn ∧ txn.status = .committed

theorem Recorded.effect
    (recorded : Recorded db) (effect : Effect service admits time db db') : Recorded db' := by
  cases effect with
  | begun _ =>
      refine ⟨recorded.nodup, fun id => (recorded.iff id).trans ?_⟩
      constructor
      · rintro ⟨txn, found, done⟩
        obtain ⟨bound, -⟩ := List.getElem?_eq_some_iff.mp found
        exact ⟨txn, by rw [List.getElem?_append_left bound, found], done⟩
      · rintro ⟨txn, found, done⟩
        rcases of_getElem?_append found with ⟨-, rfl⟩ | old
        · cases done
        · exact ⟨txn, old, done⟩
  | @moved id txn txn' found moves =>
      refine ⟨recorded.nodup, fun j => (recorded.iff j).trans ?_⟩
      have unfinished : txn.status ≠ .committed ∧ txn'.status ≠ .committed := by
        have live := moves.live
        exact ⟨fun done => by simp [Txn.live, done] at live, moves.uncommitted⟩
      simp only [replace, getElem?_set_of_found found]
      by_cases same : id = j
      · subst same
        simp [found, unfinished]
      · simp [same]
  | @committed id txn answer found stands ready =>
      have fresh : id ∉ db.history := by
        intro member
        obtain ⟨other, found', done⟩ := (recorded.iff id).mp member
        obtain rfl : txn = other := Option.some.inj (found.symm.trans found')
        rcases ready with checked | ⟨running, -⟩
        · exact absurd (checked.symm.trans done) (by simp)
        · exact absurd (running.symm.trans done) (by simp)
      refine ⟨List.nodup_append.mpr ⟨recorded.nodup, by simp, ?_⟩, fun j => ?_⟩
      · intro a member b single same
        obtain rfl : b = id := by simpa using single
        exact fresh (same ▸ member)
      · simp only [List.mem_append, List.mem_singleton, getElem?_set_of_found found]
        by_cases same : id = j
        · simp [same]
        · simp [same, Ne.symm same, recorded.iff j]

end Db

end OpsComposer.Foundations
