import Mathlib.Data.List.Basic

/-!
# Transaction programs

The code of a unit of work, as a tree of what it asks for: it reads the clock,
executes statements and goes on with the rows they return, and ends with an
answer or with an exception.  What it has asked so far and was told is a list of
events.

`Program.Everywhere` says that something holds at every point that a program can
come to, given what its statements can return.  Facts about the programs of a service are proved
in this form, by going through their code once, and hold at the point where an
unfinished transaction stands as well as at its end.
-/

set_option autoImplicit false

namespace OpsComposer.Foundations

/-- A program that executes statements `S` returning rows `ρ`. -/
inductive Program (S ρ ε α : Type) where
  | done (answer : α)
  | fail (error : ε)
  | clock (next : Nat → Program S ρ ε α)
  | run (statement : S) (next : List ρ → Program S ρ ε α)

/-- What a program was told: a reading of the clock, or the rows of a statement,
with the number of commits that its snapshot has seen. -/
inductive Event (S ρ : Type) where
  | clock (now : Nat)
  | ran (statement : S) (rows : List ρ) (seen : Nat)

namespace Program

variable {S ρ ε α β : Type}

/-- The second program goes on with the answer of the first. -/
def bind : Program S ρ ε α → (α → Program S ρ ε β) → Program S ρ ε β
  | .done answer, f => f answer
  | .fail error, _ => .fail error
  | .clock next, f => .clock fun now => (next now).bind f
  | .run statement next, f => .run statement fun rows => (next rows).bind f

instance : Monad (Program S ρ ε) where
  pure := .done
  bind := .bind

/-- `utc_now()`. -/
def now : Program S ρ ε Nat := .clock .done

/-- One statement with the rows it returns. -/
def execute (statement : S) : Program S ρ ε (List ρ) := .run statement .done

/-- Go on with a value, or raise. -/
def orFail (error : ε) : Option α → Program S ρ ε α
  | none => .fail error
  | some value => .done value

/-- `if condition: raise error`. -/
def raiseIf (error : ε) (condition : Bool) : Program S ρ ε Unit :=
  if condition then .fail error else .done ()

/-- Go on with an answer, or raise. -/
def ofAnswer : Except ε α → Program S ρ ε α
  | .error error => .fail error
  | .ok value => .done value

@[simp] theorem pure_bind' (answer : α) (f : α → Program S ρ ε β) :
    (pure answer : Program S ρ ε α) >>= f = f answer := rfl

@[simp] theorem done_bind (answer : α) (f : α → Program S ρ ε β) :
    Program.done answer >>= f = f answer := rfl

@[simp] theorem fail_bind (error : ε) (f : α → Program S ρ ε β) :
    (Program.fail error : Program S ρ ε α) >>= f = .fail error := rfl

@[simp] theorem clock_bind (next : Nat → Program S ρ ε α) (f : α → Program S ρ ε β) :
    Program.clock next >>= f = .clock fun now => next now >>= f := rfl

@[simp] theorem run_bind (statement : S) (next : List ρ → Program S ρ ε α)
    (f : α → Program S ρ ε β) :
    Program.run statement next >>= f = .run statement fun rows => next rows >>= f := rfl

@[simp] theorem now_bind (f : Nat → Program S ρ ε β) :
    (now : Program S ρ ε Nat) >>= f = .clock f := rfl

@[simp] theorem execute_bind (statement : S) (f : List ρ → Program S ρ ε β) :
    execute statement >>= f = .run statement f := rfl

theorem bind_assoc {γ : Type} (first : Program S ρ ε α) (second : α → Program S ρ ε β)
    (third : β → Program S ρ ε γ) :
    first >>= second >>= third = first >>= fun answer => second answer >>= third := by
  induction first with
  | done answer | fail error => rfl
  | clock next ih => exact congrArg Program.clock (funext ih)
  | run statement next ih => exact congrArg (Program.run statement) (funext ih)

/-- The statement that a program executes next. -/
def next? : Program S ρ ε α → Option S
  | .run statement _ => some statement
  | _ => none

/-! ## At every point of a program -/

/-- A property of every point that a program can come to from a log, when its
statements return only what they can return. -/
def Everywhere (told : S → List ρ → Prop) (P : List (Event S ρ) → Program S ρ ε α → Prop) :
    List (Event S ρ) → Program S ρ ε α → Prop
  | log, .done answer => P log (.done answer)
  | log, .fail error => P log (.fail error)
  | log, .clock next =>
      P log (.clock next) ∧ ∀ now, Everywhere told P (log ++ [.clock now]) (next now)
  | log, .run statement next =>
      P log (.run statement next) ∧
        ∀ rows seen, told statement rows →
          Everywhere told P (log ++ [.ran statement rows seen]) (next rows)

section Everywhere

variable {told : S → List ρ → Prop} {P Q : List (Event S ρ) → Program S ρ ε α → Prop}
  {log : List (Event S ρ)}

@[simp] theorem everywhere_done {answer : α} :
    Everywhere told P log (.done answer) ↔ P log (.done answer) := Iff.rfl

@[simp] theorem everywhere_pure {answer : α} :
    Everywhere told P log (pure answer) ↔ P log (.done answer) := Iff.rfl

@[simp] theorem everywhere_fail {error : ε} :
    Everywhere told P log (.fail error) ↔ P log (.fail error) := Iff.rfl

@[simp] theorem everywhere_clock {next : Nat → Program S ρ ε α} :
    Everywhere told P log (.clock next) ↔
      P log (.clock next) ∧ ∀ now, Everywhere told P (log ++ [.clock now]) (next now) := Iff.rfl

@[simp] theorem everywhere_run {statement : S} {next : List ρ → Program S ρ ε α} :
    Everywhere told P log (.run statement next) ↔
      P log (.run statement next) ∧
        ∀ rows seen, told statement rows →
          Everywhere told P (log ++ [.ran statement rows seen]) (next rows) := Iff.rfl

variable {program : Program S ρ ε α}

/-- What holds everywhere holds here. -/
theorem Everywhere.here (all : Everywhere told P log program) : P log program := by
  cases program with
  | done answer | fail error => exact all
  | clock next | run statement next => exact all.1

theorem Everywhere.mono (all : Everywhere told P log program)
    (weaker : ∀ log program, P log program → Q log program) : Everywhere told Q log program := by
  induction program generalizing log with
  | done answer | fail error => exact weaker _ _ all
  | clock next ih => exact ⟨weaker _ _ all.1, fun now => ih now (all.2 now)⟩
  | run statement next ih =>
      exact ⟨weaker _ _ all.1, fun rows seen can => ih rows (all.2 rows seen can)⟩

theorem everywhere_true (program : Program S ρ ε α) (log : List (Event S ρ)) :
    Everywhere told (fun _ _ => True) log program := by
  induction program generalizing log with
  | done answer | fail error => trivial
  | clock next ih => exact ⟨trivial, fun now => ih now _⟩
  | run statement next ih => exact ⟨trivial, fun rows seen _ => ih rows _⟩

/-- What holds whenever a statement comes next holds of every logged statement and the
part of the log before it. -/
theorem Everywhere.logged {Q : List (Event S ρ) → S → Prop}
    (next : Everywhere told (fun log program => ∀ s ∈ program.next?, Q log s) log program)
    (before : ∀ earlier s rows seen later, log = earlier ++ .ran s rows seen :: later →
      Q earlier s) :
    Everywhere told (fun log program => (∀ s ∈ program.next?, Q log s) ∧
      ∀ earlier s rows seen later, log = earlier ++ .ran s rows seen :: later → Q earlier s)
      log program := by
  -- an event splits a longer log where it split the shorter one, or it is the new one
  have snoc : ∀ {log earlier later : List (Event S ρ)} {event last : Event S ρ},
      log ++ [last] = earlier ++ event :: later →
        (log = earlier ∧ last = event) ∨ ∃ rest, log = earlier ++ event :: rest := by
    intro log earlier later event last split
    rcases List.eq_nil_or_concat later with rfl | ⟨rest, x, rfl⟩
    · obtain ⟨rfl, same⟩ := List.append_inj' split rfl
      exact .inl ⟨rfl, List.singleton_inj.mp same⟩
    · rw [List.concat_eq_append, ← List.cons_append, ← List.append_assoc] at split
      exact .inr ⟨rest, (List.append_inj' split rfl).1⟩
  induction program generalizing log with
  | done answer | fail error => exact ⟨next, before⟩
  | clock go ih =>
      refine ⟨⟨next.1, before⟩, fun now => ih now (next.2 now) ?_⟩
      intro earlier s rows seen later split
      rcases snoc split with ⟨-, same⟩ | ⟨rest, split⟩
      · cases same
      · exact before earlier s rows seen rest split
  | run statement go ih =>
      refine ⟨⟨next.1, before⟩, fun rows seen can => ih rows (next.2 rows seen can) ?_⟩
      intro earlier s rows' seen' later split
      rcases snoc split with ⟨rfl, same⟩ | ⟨rest, split⟩
      · obtain ⟨rfl, -, -⟩ := Event.ran.inj same
        exact next.1 statement rfl
      · exact before earlier s rows' seen' rest split

end Everywhere

/-! ## The end of a program -/

/-- Every log with which a program comes to an answer meets a condition. -/
def Ends (told : S → List ρ → Prop) (Q : α → List (Event S ρ) → Prop) (log : List (Event S ρ))
    (program : Program S ρ ε α) : Prop :=
  Everywhere told (fun log program => ∀ answer, program = .done answer → Q answer log) log program

section Ends

variable {told : S → List ρ → Prop} {Q : β → List (Event S ρ) → Prop} {log : List (Event S ρ)}

theorem ends_done {answer : β} (holds : Q answer log) :
    Ends told Q log (.done answer : Program S ρ ε β) := by
  rintro _ ⟨⟩
  exact holds

theorem ends_fail (error : ε) : Ends told Q log (.fail error : Program S ρ ε β) := by
  rintro _ ⟨⟩

theorem ends_clock {next : Nat → Program S ρ ε β}
    (each : ∀ now, Ends told Q (log ++ [.clock now]) (next now)) :
    Ends told Q log (.clock next) := by
  refine ⟨?_, each⟩
  rintro _ ⟨⟩

theorem ends_run {statement : S} {next : List ρ → Program S ρ ε β}
    (each : ∀ rows seen, told statement rows →
      Ends told Q (log ++ [.ran statement rows seen]) (next rows)) :
    Ends told Q log (.run statement next) := by
  refine ⟨?_, each⟩
  rintro _ ⟨⟩

theorem ends_orFail {error : ε} {value? : Option α} {next : α → Program S ρ ε β}
    (each : ∀ value, value? = some value → Ends told Q log (next value)) :
    Ends told Q log (orFail error value? >>= next) := by
  cases value? with
  | none => exact ends_fail error
  | some value => exact each value rfl

theorem ends_raiseIf {error : ε} {condition : Bool} {next : Unit → Program S ρ ε β}
    (rest : condition = false → Ends told Q log (next ())) :
    Ends told Q log (raiseIf error condition >>= next) := by
  cases condition with
  | false => exact rest rfl
  | true => exact ends_fail error

theorem ends_ofAnswer {answer : Except ε α} {next : α → Program S ρ ε β}
    (each : ∀ value, answer = .ok value → Ends told Q log (next value)) :
    Ends told Q log (ofAnswer answer >>= next) := by
  cases answer with
  | error error => exact ends_fail error
  | ok value => exact each value rfl

end Ends

/-! ## The statements of a program -/

/-- Every statement that a program may execute meets a condition. -/
def Issues (allowed : S → Prop) : Program S ρ ε α → Prop
  | .done _ => True
  | .fail _ => True
  | .clock next => ∀ now, Issues allowed (next now)
  | .run statement next => allowed statement ∧ ∀ rows, Issues allowed (next rows)

section Issues

variable {allowed : S → Prop}

@[simp] theorem issues_done {answer : α} :
    Issues allowed (.done answer : Program S ρ ε α) := trivial

@[simp] theorem issues_pure {answer : α} :
    Issues allowed (pure answer : Program S ρ ε α) := trivial

@[simp] theorem issues_fail {error : ε} :
    Issues allowed (.fail error : Program S ρ ε α) := trivial

@[simp] theorem issues_clock {next : Nat → Program S ρ ε α} :
    Issues allowed (.clock next) ↔ ∀ now, Issues allowed (next now) := Iff.rfl

@[simp] theorem issues_run {statement : S} {next : List ρ → Program S ρ ε α} :
    Issues allowed (.run statement next) ↔
      allowed statement ∧ ∀ rows, Issues allowed (next rows) := Iff.rfl

@[simp] theorem issues_now : Issues allowed (now : Program S ρ ε Nat) := fun _ => trivial

@[simp] theorem issues_execute {statement : S} :
    Issues allowed (execute statement : Program S ρ ε (List ρ)) ↔ allowed statement :=
  ⟨And.left, fun holds => ⟨holds, fun _ => trivial⟩⟩

theorem issues_bind {first : Program S ρ ε α} {second : α → Program S ρ ε β}
    (head : Issues allowed first) (tail : ∀ answer, Issues allowed (second answer)) :
    Issues allowed (first >>= second) := by
  induction first with
  | done answer => exact tail answer
  | fail error => trivial
  | clock next ih => exact fun now => ih now (head now)
  | run statement next ih => exact ⟨head.1, fun rows => ih rows (head.2 rows)⟩

variable {program : Program S ρ ε α}

theorem Issues.mono {allowed' : S → Prop} (issues : Issues allowed program)
    (weaker : ∀ s, allowed s → allowed' s) : Issues allowed' program := by
  induction program with
  | done answer | fail error => trivial
  | clock next ih => exact fun now => ih now (issues now)
  | run statement next ih => exact ⟨weaker _ issues.1, fun rows => ih rows (issues.2 rows)⟩

/-- A program whose statements all meet a condition executes one of them next, wherever
it stands. -/
theorem Issues.next (issues : Issues allowed program)
    {told : S → List ρ → Prop} {log : List (Event S ρ)} :
    Everywhere told (fun _ program => ∀ s ∈ program.next?, allowed s) log program := by
  induction program generalizing log with
  | done answer | fail error => simp [next?]
  | clock next ih => exact ⟨by simp [next?], fun now => ih now (issues now)⟩
  | run statement next ih =>
      exact ⟨by simp [next?, issues.1], fun rows seen _ => ih rows (issues.2 rows)⟩

/-- Such a program has only such statements in its log, too. -/
theorem Issues.everywhere (issues : Issues allowed program) {told : S → List ρ → Prop}
    {log : List (Event S ρ)} (before : ∀ s rows seen, .ran s rows seen ∈ log → allowed s) :
    Everywhere told (fun log program => (∀ s rows seen, .ran s rows seen ∈ log → allowed s) ∧
      ∀ s ∈ program.next?, allowed s) log program := by
  induction program generalizing log with
  | done answer | fail error => exact ⟨before, by simp [next?]⟩
  | clock next ih =>
      refine ⟨⟨before, by simp [next?]⟩, fun now => ih now (issues now) ?_⟩
      intro s rows seen member
      rcases List.mem_append.mp member with old | new
      · exact before s rows seen old
      · simp at new
  | run statement next ih =>
      refine ⟨⟨before, by simp [next?, issues.1]⟩, fun rows seen _ => ih rows (issues.2 rows) ?_⟩
      intro s rows' seen' member
      rcases List.mem_append.mp member with old | new
      · exact before s rows' seen' old
      · obtain ⟨rfl, -, -⟩ : s = statement ∧ rows' = rows ∧ seen' = seen := by simpa using new
        exact issues.1

end Issues

end Program

end OpsComposer.Foundations
