/-
Module: FunctionBundler.Program
Purpose: Computations that ask their surroundings, as data.
Trusted boundary: none
Main exports:
  Program, Program.bind, Program.query, Program.answerWith, Program.Trace
-/

namespace FunctionBundler

/-!
What a computation does to the outside is a question it asks, and it goes on with
the answer.  As data it can be run against any answers: a handler in some monad
answers questions in `answerWith`, and `Trace` relates a program to every list of
questions with answers after which it ends.
-/

/-- A computation that asks queries and ends with a result. -/
inductive Program (Query : Type) (Answer : Query → Type) (α : Type) where
  | done (result : α)
  | ask (query : Query) (resume : Answer query → Program Query Answer α)

namespace Program

variable {Query : Type} {Answer : Query → Type} {α β : Type}

/-- Go on with another program when the first has ended. -/
def bind (program : Program Query Answer α) (next : α → Program Query Answer β) :
    Program Query Answer β :=
  match program with
  | .done result => next result
  | .ask query resume => .ask query fun answer => (resume answer).bind next

instance : Monad (Program Query Answer) where
  pure := .done
  bind := bind

/-- Ask one query. -/
def query (query : Query) : Program Query Answer (Answer query) :=
  .ask query .done

/-- Run a program with a handler for its queries. -/
def answerWith {m : Type → Type} [Monad m] (handler : (query : Query) → m (Answer query)) :
    Program Query Answer α → m α
  | .done result => Pure.pure result
  | .ask query resume => do
    let answer ← handler query
    answerWith handler (resume answer)

/-- A query together with an answer to it. -/
abbrev Exchange (Query : Type) (Answer : Query → Type) := (query : Query) × Answer query

/-- The program asks the queries of a list one after the other, is given their answers, and then
ends with a result. -/
inductive Trace : Program Query Answer α → List (Exchange Query Answer) → α → Prop where
  | done (result : α) : Trace (.done result) [] result
  | ask {query : Query} {resume : Answer query → Program Query Answer α} {result : α}
      {rest : List (Exchange Query Answer)} (answer : Answer query) :
      Trace (resume answer) rest result → Trace (.ask query resume) (⟨query, answer⟩ :: rest) result

@[simp] theorem pure_eq (result : α) :
    (Pure.pure result : Program Query Answer α) = .done result := rfl

@[simp] theorem bind_eq (program : Program Query Answer α) (next : α → Program Query Answer β) :
    program >>= next = program.bind next := rfl

@[simp] theorem bind_done (result : α) (next : α → Program Query Answer β) :
    (done result).bind next = next result := rfl

@[simp] theorem bind_ask (query : Query) (resume : Answer query → Program Query Answer α)
    (next : α → Program Query Answer β) :
    (ask query resume).bind next = .ask query fun answer => (resume answer).bind next := rfl

/-- Programs that follow each other may be grouped in any way. -/
theorem bind_assoc {γ : Type} (program : Program Query Answer α)
    (first : α → Program Query Answer β) (second : β → Program Query Answer γ) :
    (program.bind first).bind second = program.bind fun result => (first result).bind second := by
  induction program with
  | done result => rfl
  | ask query resume ih => simp [ih]

/-- Nothing changes if a program's result is passed on. -/
theorem bind_pure (program : Program Query Answer α) : program.bind .done = program := by
  induction program with
  | done result => rfl
  | ask query resume ih => simp [ih]

instance : LawfulMonad (Program Query Answer) :=
  LawfulMonad.mk' _ bind_pure (fun _ _ => rfl) bind_assoc

end Program

end FunctionBundler
