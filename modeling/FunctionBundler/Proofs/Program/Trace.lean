/-
Module: FunctionBundler.Proofs.Program.Trace
Purpose: What a program asks before it ends, and on the way there.
Trusted boundary: none
Main exports:
  Program.Reaches, Program.trace_bind_iff, Program.trace_run_bind_iff, Program.Trace.unique,
  Program.exists_trace, Program.Reaches.exists_trace, Program.answerWith_eq_ok_iff,
  Program.Reaches.answerWith_eq_error, Program.resultOn, Program.exists_trace_resultOn,
  Program.resultOn_run_bind
-/
import FunctionBundler.Program
import FunctionBundler.Proofs.Fallible

namespace FunctionBundler.Program

/-!
A program that goes on with another one asks what the first asks and then what the
second asks, so its traces are those of the parts put together.  `Reaches` is about
programs that have not ended yet.  Where every query has some answer, a program can
always be answered until it ends, and where the answers are at hand, `resultOn` is what
it ends with.
-/

variable {Query : Type} {Answer : Query → Type} {α β ε : Type}
  {said : List (Exchange Query Answer)}

/-- A program that is done asks nothing more. -/
theorem trace_done_iff {result other : α} :
    Trace (done result : Program Query Answer α) said other ↔ said = [] ∧ other = result := by
  constructor
  · intro trace
    cases trace
    exact ⟨rfl, rfl⟩
  · intro same
    obtain ⟨rfl, rfl⟩ := same
    exact .done other

/-- A program that asks goes on as it is answered. -/
theorem trace_ask_iff {query : Query} {resume : Answer query → Program Query Answer α}
    {result : α} :
    Trace (ask query resume) said result ↔
      ∃ answer later, said = ⟨query, answer⟩ :: later ∧ Trace (resume answer) later result := by
  constructor
  · intro trace
    cases trace with
    | ask answer later => exact ⟨answer, _, rfl, later⟩
  · intro parts
    obtain ⟨answer, later, rfl, trace⟩ := parts
    exact .ask answer trace

/-- A query asks once and returns the answer. -/
theorem trace_query_iff {query : Query} {result : Answer query} :
    Trace (Program.query query : Program Query Answer _) said result ↔
      said = [⟨query, result⟩] := by
  rw [Program.query, trace_ask_iff]
  constructor
  · intro parts
    obtain ⟨answer, later, rfl, trace⟩ := parts
    obtain ⟨rfl, rfl⟩ := trace_done_iff.mp trace
    rfl
  · rintro rfl
    exact ⟨result, [], rfl, .done result⟩

/-- What two programs after each other ask, the first asks and then the second. -/
theorem trace_bind_iff {program : Program Query Answer α} {next : α → Program Query Answer β}
    {result : β} :
    Trace (program.bind next) said result ↔
      ∃ before middle after, said = before ++ after ∧ Trace program before middle ∧
        Trace (next middle) after result := by
  induction program generalizing said with
  | done value =>
      simp only [bind_done, trace_done_iff]
      constructor
      · intro trace
        exact ⟨[], value, said, rfl, ⟨rfl, rfl⟩, trace⟩
      · intro parts
        obtain ⟨before, middle, after, rfl, ⟨rfl, rfl⟩, trace⟩ := parts
        exact trace
  | ask query resume ih =>
      simp only [bind_ask, trace_ask_iff]
      constructor
      · intro trace
        obtain ⟨answer, later, rfl, trace⟩ := trace
        obtain ⟨before, middle, after, rfl, first, second⟩ := (ih answer).mp trace
        exact ⟨⟨query, answer⟩ :: before, middle, after, rfl, ⟨answer, before, rfl, first⟩, second⟩
      · intro parts
        obtain ⟨before, middle, after, rfl, ⟨answer, rest, rfl, first⟩, second⟩ := parts
        exact
          ⟨answer, rest ++ after, rfl, (ih answer).mpr ⟨rest, middle, after, rfl, first, second⟩⟩

/-- A program that begins with a query goes on with its answer. -/
theorem trace_query_bind_iff {query : Query} {next : Answer query → Program Query Answer β}
    {result : β} :
    Trace (Program.query query >>= next) said result ↔
      ∃ answer later, said = ⟨query, answer⟩ :: later ∧ Trace (next answer) later result :=
  trace_ask_iff

/-- What only rewrites a result asks nothing. -/
theorem trace_bind_done_iff {program : Program Query Answer α}
    {next : α → Program Query Answer β} {rewrite : α → β} {result : β}
    (rewrites : ∀ value, next value = .done (rewrite value)) :
    Trace (program.bind next) said result ↔
      ∃ value, Trace program said value ∧ result = rewrite value := by
  rw [trace_bind_iff]
  constructor
  · intro parts
    obtain ⟨before, value, after, rfl, first, second⟩ := parts
    rw [rewrites] at second
    obtain ⟨rfl, rfl⟩ := trace_done_iff.mp second
    rw [List.append_nil]
    exact ⟨value, first, rfl⟩
  · intro parts
    obtain ⟨value, first, rfl⟩ := parts
    refine ⟨said, value, [], (List.append_nil said).symm, first, ?_⟩
    rw [rewrites]
    exact .done _

/-- A computation that may fail ends with its first failure, or goes on. -/
theorem trace_run_bind_iff {first : ExceptT ε (Program Query Answer) α}
    {next : α → ExceptT ε (Program Query Answer) β} {result : Except ε β} :
    Trace (first >>= next).run said result ↔
      (∃ failure, Trace first.run said (.error failure) ∧ result = .error failure) ∨
        ∃ before value after, said = before ++ after ∧ Trace first.run before (.ok value) ∧
          Trace (next value).run after result := by
  rw [ExceptT.run_bind, bind_eq, trace_bind_iff]
  constructor
  · intro parts
    obtain ⟨before, middle, after, rfl, one, two⟩ := parts
    cases middle with
    | error failure =>
        obtain ⟨rfl, rfl⟩ := trace_done_iff.mp two
        rw [List.append_nil]
        exact Or.inl ⟨failure, one, rfl⟩
    | ok value => exact Or.inr ⟨before, value, after, rfl, one, two⟩
  · intro parts
    rcases parts with ⟨failure, one, rfl⟩ | ⟨before, value, after, rfl, one, two⟩
    · exact ⟨said, .error failure, [], (List.append_nil said).symm, one, .done _⟩
    · exact ⟨before, .ok value, after, rfl, one, two⟩

/-- The same answers lead a program to the same end, and no further. -/
theorem Trace.unique {program : Program Query Answer α}
    {one two later other : List (Exchange Query Answer)} {first second : α}
    (firstTrace : Trace program one first) (secondTrace : Trace program two second)
    (same : one ++ later = two ++ other) : one = two ∧ first = second := by
  induction firstTrace generalizing two with
  | done result =>
      obtain ⟨rfl, rfl⟩ := trace_done_iff.mp secondTrace
      exact ⟨rfl, rfl⟩
  | ask answer _ ih =>
      obtain ⟨otherAnswer, rest, rfl, restTrace⟩ := trace_ask_iff.mp secondTrace
      rw [List.cons_append, List.cons_append, List.cons.injEq] at same
      obtain ⟨sameExchange, sameRest⟩ := same
      cases sameExchange
      obtain ⟨rfl, rfl⟩ := ih restTrace sameRest
      exact ⟨rfl, rfl⟩

/-! ### On the way -/

/-- The program asks the queries of a list one after the other, is given their answers, and goes
on as another one. -/
inductive Reaches : Program Query Answer α → List (Exchange Query Answer) →
    Program Query Answer α → Prop where
  | here (program : Program Query Answer α) : Reaches program [] program
  | ask {query : Query} {resume : Answer query → Program Query Answer α}
      {last : Program Query Answer α} {rest : List (Exchange Query Answer)}
      (answer : Answer query) :
      Reaches (resume answer) rest last → Reaches (.ask query resume) (⟨query, answer⟩ :: rest) last

namespace Reaches

variable {first middle last : Program Query Answer α}
  {before after : List (Exchange Query Answer)}

/-- From where a program has come to, it can go on to its result. -/
theorem trace_append {result : α} (reaches : Reaches first before middle)
    (trace : Trace middle after result) : Trace first (before ++ after) result := by
  induction reaches with
  | here => exact trace
  | ask answer _ ih => exact .ask answer (ih trace)

/-- A program that has come to its result has traced it. -/
theorem trace {result : α} (reaches : Reaches first before (.done result)) :
    Trace first before result := by
  have whole := reaches.trace_append (.done result)
  rwa [List.append_nil] at whole

/-- A program that asks comes further with the answer. -/
theorem concat {query : Query} {resume : Answer query → Program Query Answer α}
    (reaches : Reaches first before (.ask query resume)) (answer : Answer query) :
    Reaches first (before ++ [⟨query, answer⟩]) (resume answer) := by
  generalize same : Program.ask query resume = last at reaches
  induction reaches with
  | here =>
      subst same
      exact .ask answer (.here _)
  | ask earlier _ ih => exact .ask earlier (ih same)

end Reaches

/-- Where every query has an answer, a program can be answered to its end. -/
theorem exists_trace [∀ query, Nonempty (Answer query)] (program : Program Query Answer α) :
    ∃ said result, Trace program said result := by
  induction program with
  | done result => exact ⟨[], result, .done result⟩
  | ask query resume ih =>
      obtain ⟨answer⟩ := (inferInstance : Nonempty (Answer query))
      obtain ⟨said, result, trace⟩ := ih answer
      exact ⟨_, result, .ask answer trace⟩

/-- From wherever it has come to, a program has a way to a result. -/
theorem Reaches.exists_trace [∀ query, Nonempty (Answer query)]
    {first middle : Program Query Answer α} {before : List (Exchange Query Answer)}
    (reaches : Reaches first before middle) :
    ∃ later result, Trace first (before ++ later) result := by
  obtain ⟨later, result, trace⟩ := Program.exists_trace middle
  exact ⟨later, result, reaches.trace_append trace⟩

/-! ### Handlers that may fail -/

/-- A program is answered to its end by a handler if it has a trace of the handler's answers. -/
theorem answerWith_eq_ok_iff {handler : (query : Query) → Except ε (Answer query)}
    {program : Program Query Answer α} {result : α} :
    program.answerWith handler = .ok result ↔
      ∃ said, Trace program said result ∧
        ∀ exchange ∈ said, handler exchange.1 = .ok exchange.2 := by
  induction program with
  | done other =>
      constructor
      · rintro ⟨⟩
        exact ⟨[], .done result, List.forall_mem_nil _⟩
      · intro found
        obtain ⟨said, trace, -⟩ := found
        rw [(trace_done_iff.mp trace).2]
        rfl
  | ask query resume ih =>
      rw [answerWith, bind_eq_ok_iff]
      constructor
      · intro found
        obtain ⟨answer, handles, later⟩ := found
        obtain ⟨said, trace, handled⟩ := (ih answer).mp later
        exact ⟨_, .ask answer trace, List.forall_mem_cons.mpr ⟨handles, handled⟩⟩
      · intro found
        obtain ⟨said, trace, handled⟩ := found
        obtain ⟨answer, later, rfl, rest⟩ := trace_ask_iff.mp trace
        obtain ⟨handles, handledLater⟩ := List.forall_mem_cons.mp handled
        exact ⟨answer, handles, (ih answer).mpr ⟨later, rest, handledLater⟩⟩

/-- A program is not answered to its end if it comes to a query that is not answered. -/
theorem Reaches.answerWith_eq_error {handler : (query : Query) → Except ε (Answer query)}
    {program : Program Query Answer α} {query : Query}
    {resume : Answer query → Program Query Answer α} {fault : ε}
    (reaches : Reaches program said (.ask query resume))
    (handled : ∀ exchange ∈ said, handler exchange.1 = .ok exchange.2)
    (fails : handler query = .error fault) : program.answerWith handler = .error fault := by
  generalize same : Program.ask query resume = last at reaches
  induction reaches with
  | here =>
      subst same
      rw [answerWith, fails]
      rfl
  | ask answer _ ih =>
      obtain ⟨handles, handledLater⟩ := List.forall_mem_cons.mp handled
      rw [answerWith, handles]
      exact ih handledLater same

/-! ### Answers at hand -/

/-- What a program comes to whose queries have answers at hand. -/
def resultOn (answers : (query : Query) → Answer query) (program : Program Query Answer α) : α :=
  program.answerWith (m := Id) answers

variable {answers : (query : Query) → Answer query}

/-- What a program comes to, it comes to by a trace. -/
theorem exists_trace_resultOn (program : Program Query Answer α) :
    ∃ said, Trace program said (resultOn answers program) := by
  induction program with
  | done result => exact ⟨[], .done result⟩
  | ask query resume ih =>
      obtain ⟨said, trace⟩ := ih (answers query)
      exact ⟨_, .ask (answers query) trace⟩

/-- The result of two programs after each other under fixed answers. -/
theorem resultOn_bind (program : Program Query Answer α) (next : α → Program Query Answer β) :
    resultOn answers (program.bind next) = resultOn answers (next (resultOn answers program)) := by
  induction program with
  | done result => rfl
  | ask query resume ih => exact ih (answers query)

/-- A computation that may fail comes to its first failure, or goes on. -/
theorem resultOn_run_bind (first : ExceptT ε (Program Query Answer) α)
    (next : α → ExceptT ε (Program Query Answer) β) :
    resultOn answers (first >>= next).run =
      resultOn answers first.run >>= fun value => resultOn answers (next value).run := by
  rw [ExceptT.run_bind, bind_eq, resultOn_bind]
  cases resultOn answers first.run <;> rfl

/-- Answers may themselves be worked out by programs. -/
theorem resultOn_answerWith {Outer : Type} {OuterAnswer : Outer → Type}
    {answers : (query : Outer) → OuterAnswer query}
    (inner : (query : Query) → Program Outer OuterAnswer (Answer query))
    (program : Program Query Answer α) :
    resultOn answers (program.answerWith inner) =
      resultOn (fun query => resultOn answers (inner query)) program := by
  induction program with
  | done result => rfl
  | ask query resume ih =>
      rw [answerWith, bind_eq, resultOn_bind]
      exact ih (resultOn answers (inner query))

end FunctionBundler.Program
