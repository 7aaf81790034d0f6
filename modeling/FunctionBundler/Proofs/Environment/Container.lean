/-
Module: FunctionBundler.Proofs.Environment.Container
Purpose: What a container environment asks its engine for, call after call.
Trusted boundary: none
Main exports:
  Container.Performs, Container.trace_perform_iff, Container.Call, Container.Session,
  Container.launchedIn, Container.removedIn, Container.Session.balance, Container.Orderly,
  Container.session_lifecycle
-/
import FunctionBundler.Environment
import FunctionBundler.Proofs.Program.Trace

namespace FunctionBundler.Container

open Environment

/-!
A container environment asks its engine at most once in a call: to launch a container
when none is held, to run a tool in the one that is held, or to remove it.  So the
environment's state between the calls says everything.  `Performs` is what one call can
do; the identifiers that were launched are then those that were handed to removal and
the one that is held, after every number of calls.
-/

/-- What was asked of the engine, with the answers. -/
abbrev Said := List (Program.Exchange Query Query.Answer)

/-! ### One call -/

/-- The command that an operation runs in the container, if it runs one, and what is read from the
text that the command prints. -/
def tool? (container : Container) : (operation : Operation) →
    Option (Except Failure (String × List String) × (String → operation.Result))
  | .start | .stop => none
  | .strip executable =>
    some ((container.pathInside executable).map fun inside => ("strip", [inside.text]), fun _ => ())
  | .dependencies executable =>
    some ((container.pathInside executable).map fun inside => ("ldd", [inside.text]),
      Listing.libraries)
  | .baseLibraries =>
    some (.ok imagePackages.query,
      fun listing => .ofList ((imagePackages.contents listing).map .ofPath))

/-- What an operation asks of the engine, the container after it, and what it gives. -/
inductive Performs (container : Container) :
    (operation : Operation) → Said → Container → operation.Answer → Prop where
  | kept {identifier : String} (held : container.held = some identifier) :
      Performs container .start [] container (.ok ())
  | unmounted {failure : Failure} (idle : container.held = none)
      (relative : container.bindMount = .error failure) :
      Performs container .start [] container (.error failure)
  | unlaunched {mount : String} (failure : Failure) (idle : container.held = none)
      (mounts : container.bindMount = .ok mount) :
      Performs container .start [⟨.launch container.image mount, .error failure⟩] container
        (.error failure)
  | launched {mount : String} (identifier : String) (idle : container.held = none)
      (mounts : container.bindMount = .ok mount) :
      Performs container .start [⟨.launch container.image mount, .ok identifier⟩]
        { container with held := some identifier } (.ok ())
  | absent (idle : container.held = none) : Performs container .stop [] container (.ok ())
  | removed {identifier : String} (answer : Except Failure Unit)
      (held : container.held = some identifier) :
      Performs container .stop [⟨.remove identifier, answer⟩] { container with held := none } answer
  | barred {operation : Operation} {failure : Failure} {reads : String → operation.Result}
      (tool : container.tool? operation = some (.error failure, reads)) :
      Performs container operation [] container (.error failure)
  | unstarted {operation : Operation} {command : String × List String}
      {reads : String → operation.Result}
      (tool : container.tool? operation = some (.ok command, reads))
      (idle : container.held = none) :
      Performs container operation [] container (.error .notStarted)
  | ran {operation : Operation} {command : String × List String}
      {reads : String → operation.Result} {identifier : String} (printed : Except Failure String)
      (tool : container.tool? operation = some (.ok command, reads))
      (held : container.held = some identifier) :
      Performs container operation [⟨.execute identifier command.1 command.2, printed⟩] container
        (printed.map reads)

/-- Run a command in the held container, if there is one to run. -/
def executeAny (container : Container) :
    Except Failure (String × List String) → Work (Except Failure String)
  | .error failure => .done (.error failure)
  | .ok command => container.execute command.1 command.2

private theorem executeOn_eq (container : Container) (program : String) (path : Path) :
    container.executeOn program path =
      container.executeAny ((container.pathInside path).map fun inside =>
        (program, [inside.text])) := by
  rw [executeOn]
  cases container.pathInside path <;> rfl

/-- An operation with a tool runs it, reads what it prints and leaves the container as it is. -/
theorem perform_eq_of_tool {container : Container} {operation : Operation}
    {command : Except Failure (String × List String)} {reads : String → operation.Result}
    (tool : container.tool? operation = some (command, reads)) :
    (Environment.container container).perform operation =
      (container.executeAny command).bind fun printed =>
        .done (.container container, printed.map reads) := by
  cases operation with
  | start | stop => cases tool
  | strip executable =>
      cases tool
      rw [perform, unchanged, strip, executeOn_eq]
      exact Program.bind_assoc ..
  | dependencies executable =>
      cases tool
      rw [perform, unchanged, dependencies, executeOn_eq]
      exact Program.bind_assoc ..
  | baseLibraries =>
      cases tool
      exact Program.bind_assoc ..

section

variable {container : Container} {said : Said} {environment : Environment}

private theorem trace_start_iff {answer : Except Failure Unit} :
    Program.Trace ((Environment.container container).perform .start) said (environment, answer) ↔
      ∃ next, environment = .container next ∧ Performs container .start said next answer := by
  have keeps : Program.Trace ((Environment.container container).perform .start) said
      (environment, answer) ↔ ∃ found, Program.Trace container.launch said found ∧
        (environment, answer) = (.container found.1, found.2) :=
    Program.trace_bind_done_iff fun _ => rfl
  rw [keeps, launch]
  constructor
  · rintro ⟨⟨next, found⟩, trace, same⟩
    cases same
    refine ⟨next, rfl, ?_⟩
    split at trace
    case h_1 held =>
        obtain ⟨rfl, same⟩ := Program.trace_done_iff.mp trace
        cases same
        exact .kept held
    case h_2 idle relative =>
        obtain ⟨rfl, same⟩ := Program.trace_done_iff.mp trace
        cases same
        exact .unmounted idle relative
    case h_3 idle mounts =>
        obtain ⟨reply, later, rfl, ended⟩ := Program.trace_query_bind_iff.mp trace
        cases reply with
        | error failure =>
            obtain ⟨rfl, same⟩ := Program.trace_done_iff.mp ended
            cases same
            exact .unlaunched failure idle mounts
        | ok identifier =>
            obtain ⟨rfl, same⟩ := Program.trace_done_iff.mp ended
            cases same
            exact .launched identifier idle mounts
  · rintro ⟨next, rfl, performs⟩
    refine ⟨(next, answer), ?_, rfl⟩
    cases performs with
    | kept held =>
        rw [held]
        exact .done _
    | unmounted idle relative =>
        rw [idle, relative]
        exact .done _
    | unlaunched failure idle mounts =>
        rw [idle, mounts]
        exact Program.trace_query_bind_iff.mpr ⟨.error failure, [], rfl, .done _⟩
    | launched identifier idle mounts =>
        rw [idle, mounts]
        exact Program.trace_query_bind_iff.mpr ⟨.ok identifier, [], rfl, .done _⟩
    | barred tool | unstarted tool | ran _ tool => cases tool

private theorem trace_stop_iff {answer : Except Failure Unit} :
    Program.Trace ((Environment.container container).perform .stop) said (environment, answer) ↔
      ∃ next, environment = .container next ∧ Performs container .stop said next answer := by
  have keeps : Program.Trace ((Environment.container container).perform .stop) said
      (environment, answer) ↔ ∃ found, Program.Trace container.discard said found ∧
        (environment, answer) = (.container found.1, found.2) :=
    Program.trace_bind_done_iff fun _ => rfl
  rw [keeps, discard]
  constructor
  · rintro ⟨⟨next, found⟩, trace, same⟩
    cases same
    refine ⟨next, rfl, ?_⟩
    split at trace
    case h_1 idle =>
        obtain ⟨rfl, same⟩ := Program.trace_done_iff.mp trace
        cases same
        exact .absent idle
    case h_2 held =>
        obtain ⟨reply, later, rfl, ended⟩ := Program.trace_query_bind_iff.mp trace
        obtain ⟨rfl, same⟩ := Program.trace_done_iff.mp ended
        cases same
        exact .removed _ held
  · rintro ⟨next, rfl, performs⟩
    refine ⟨(next, answer), ?_, rfl⟩
    cases performs with
    | absent idle =>
        rw [idle]
        exact .done _
    | removed answer held =>
        rw [held]
        exact Program.trace_query_bind_iff.mpr ⟨answer, [], rfl, .done _⟩
    | barred tool | unstarted tool | ran _ tool => cases tool

private theorem trace_tool_iff {operation : Operation} {answer : operation.Answer}
    {command : Except Failure (String × List String)} {reads : String → operation.Result}
    (tool : container.tool? operation = some (command, reads)) :
    Program.Trace ((Environment.container container).perform operation) said
      (environment, answer) ↔
      ∃ next, environment = .container next ∧ Performs container operation said next answer := by
  have keeps : Program.Trace ((Environment.container container).perform operation) said
      (environment, answer) ↔
        ∃ printed, Program.Trace (container.executeAny command) said printed ∧
          (environment, answer) = (.container container, printed.map reads) := by
    rw [perform_eq_of_tool tool]
    exact Program.trace_bind_done_iff fun _ => rfl
  rw [keeps]
  constructor
  · rintro ⟨printed, trace, same⟩
    cases same
    refine ⟨container, rfl, ?_⟩
    cases command with
    | error failure =>
        obtain ⟨rfl, rfl⟩ := Program.trace_done_iff.mp trace
        exact .barred tool
    | ok command =>
        rw [executeAny, execute, running] at trace
        cases held : container.held with
        | none =>
            rw [held] at trace
            obtain ⟨rfl, rfl⟩ := Program.trace_done_iff.mp trace
            exact .unstarted tool held
        | some identifier =>
            rw [held] at trace
            cases Program.trace_query_iff.mp trace
            exact .ran printed tool held
  · rintro ⟨next, rfl, performs⟩
    cases performs with
    | kept | unmounted | unlaunched | launched | absent | removed => cases tool
    | barred found =>
        cases tool.symm.trans found
        exact ⟨_, .done _, rfl⟩
    | unstarted found idle =>
        cases tool.symm.trans found
        refine ⟨.error .notStarted, ?_, rfl⟩
        rw [executeAny, execute, running, idle]
        exact .done _
    | ran printed found held =>
        cases tool.symm.trans found
        refine ⟨printed, ?_, rfl⟩
        rw [executeAny, execute, running, held]
        exact Program.trace_query_iff.mpr rfl

/-- What an operation says to the engine, and what the container is after it. -/
theorem trace_perform_iff {operation : Operation} {answer : operation.Answer} :
    Program.Trace ((Environment.container container).perform operation) said
      (environment, answer) ↔
      ∃ next, environment = .container next ∧ Performs container operation said next answer := by
  cases operation with
  | start => exact trace_start_iff
  | stop => exact trace_stop_iff
  | strip | dependencies | baseLibraries => exact trace_tool_iff rfl

end

/-! ### Call after call -/

/-- One call of an environment: the operation, what was asked of the engine, and what it gave. -/
structure Call where
  operation : Operation
  said : Said
  answer : operation.Answer

/-- Calls one after the other, in any order and number and with any answers of the engine. -/
inductive Session : Container → List Call → Container → Prop where
  | done (container : Container) : Session container [] container
  | call {first next last : Container} {call : Call} {later : List Call}
      (performed : Program.Trace ((Environment.container first).perform call.operation) call.said
        (.container next, call.answer))
      (rest : Session next later last) : Session first (call :: later) last

/-- All that was asked of the engine in a list of calls. -/
def saidIn (calls : List Call) : Said :=
  calls.flatMap Call.said

/-- The identifiers of the containers that were launched, one for each launch that succeeded. -/
def launchedIn (said : Said) : List String :=
  said.filterMap fun
    | ⟨.launch _ _, .ok identifier⟩ => some identifier
    | _ => none

/-- The identifiers that were handed to removal, whatever came of it. -/
def removedIn (said : Said) : List String :=
  said.filterMap fun
    | ⟨.remove identifier, _⟩ => some identifier
    | _ => none

private theorem launchedIn_append (before after : Said) :
    launchedIn (before ++ after) = launchedIn before ++ launchedIn after :=
  List.filterMap_append

/-- Removals in two parts are those of the first and then those of the second. -/
theorem removedIn_append (before after : Said) :
    removedIn (before ++ after) = removedIn before ++ removedIn after :=
  List.filterMap_append

/-- What is said in a session is said call after call. -/
theorem saidIn_cons (call : Call) (later : List Call) :
    saidIn (call :: later) = call.said ++ saidIn later :=
  List.flatMap_cons

/-- What a call launches is held after it or was handed to removal. -/
theorem Performs.balance {container next : Container} {operation : Operation} {said : Said}
    {answer : operation.Answer} (performs : Performs container operation said next answer) :
    container.held.toList ++ launchedIn said = removedIn said ++ next.held.toList := by
  cases performs with
  | kept | unmounted | unlaunched | absent | barred | unstarted | ran =>
      exact List.append_nil _
  | launched identifier idle =>
      rw [idle]
      rfl
  | removed answer held =>
      rw [held]
      rfl

/-- In a session, what was held and what was launched is what was removed and what is held. -/
theorem Session.balance {first last : Container} {calls : List Call}
    (session : Session first calls last) :
    first.held.toList ++ launchedIn (saidIn calls) =
      removedIn (saidIn calls) ++ last.held.toList := by
  induction session with
  | done => exact List.append_nil _
  | @call first next last call later performed rest ih =>
      obtain ⟨_, same, performs⟩ := trace_perform_iff.mp performed
      cases same
      rw [saidIn_cons, launchedIn_append, removedIn_append]
      calc first.held.toList ++ (launchedIn call.said ++ launchedIn (saidIn later))
          = (first.held.toList ++ launchedIn call.said) ++ launchedIn (saidIn later) :=
            (List.append_assoc ..).symm
        _ = removedIn call.said ++ (next.held.toList ++ launchedIn (saidIn later)) := by
            rw [performs.balance, List.append_assoc]
        _ = removedIn call.said ++ removedIn (saidIn later) ++ last.held.toList := by
            rw [ih, List.append_assoc]

/-- A session can be cut between any two calls. -/
theorem Session.of_append {first last : Container} {before after : List Call}
    (session : Session first (before ++ after) last) :
    ∃ now, Session first before now ∧ Session now after last := by
  induction before generalizing first with
  | nil => exact ⟨first, .done first, session⟩
  | cons call later ih =>
      cases session with
      | call performed rest =>
          obtain ⟨now, beginning, ending⟩ := ih rest
          exact ⟨now, .call performed beginning, ending⟩

/-- Only the identifier that is held changes. -/
theorem Performs.eq_with_held {container next : Container} {operation : Operation} {said : Said}
    {answer : operation.Answer} (performs : Performs container operation said next answer) :
    next = { container with held := next.held } := by
  cases performs <;> rfl

private theorem Session.eq_with_held {first last : Container} {calls : List Call}
    (session : Session first calls last) : last = { first with held := last.held } := by
  induction session with
  | done => rfl
  | call performed rest ih =>
      obtain ⟨_, same, performs⟩ := trace_perform_iff.mp performed
      cases same
      rw [ih, performs.eq_with_held]

/-! ### What is kept to -/

/-- Why a tool is not run on a path when no container is held. -/
def refusal (container : Container) (path : Path) : Failure :=
  match path.stripBase? container.project with
  | some _ => .notStarted
  | none => .outsideProject path container.project

/-- What a call does when no container is held: a start that launches none leaves none held, a stop
succeeds, and a tool is refused, without a word to the engine. -/
def Idle (now : Container) (call : Call) (next : Container) : Prop :=
  match call with
  | ⟨.start, said, answer⟩ =>
    (now.project.isAbsolute = false → said = [] ∧ answer.isOk = false ∧ next = now) ∧
    ∀ image mount failure, ⟨.launch image mount, .error failure⟩ ∈ said →
      answer = .error failure ∧ next = now
  | ⟨.stop, said, answer⟩ => said = [] ∧ answer = .ok () ∧ next = now
  | ⟨.strip executable, said, answer⟩ =>
    said = [] ∧ answer = .error (now.refusal executable) ∧ next = now
  | ⟨.dependencies executable, said, answer⟩ =>
    said = [] ∧ answer = .error (now.refusal executable) ∧ next = now
  | ⟨.baseLibraries, said, answer⟩ => said = [] ∧ answer = .error .notStarted ∧ next = now

/-- What a call keeps to, after all that was asked of the engine before it. -/
structure Orderly (earlier : Said) (now : Container) (call : Call) (next : Container) : Prop where
  single : call.said.length ≤ 1
  before : launchedIn earlier = removedIn earlier ++ now.held.toList
  after : launchedIn (earlier ++ call.said) = removedIn (earlier ++ call.said) ++ next.held.toList
  launches : ∀ image mount answer, ⟨.launch image mount, answer⟩ ∈ call.said →
    call.operation = .start ∧ now.held = none ∧ next.held = answer.toOption
  executes : ∀ identifier program arguments answer,
    ⟨.execute identifier program arguments, answer⟩ ∈ call.said →
    now.held = some identifier ∧ (launchedIn earlier).getLast? = some identifier ∧ next = now
  removes : ∀ identifier answer, ⟨.remove identifier, answer⟩ ∈ call.said →
    call.operation = .stop ∧ now.held = some identifier ∧ next.held = none
  idle : now.held = none → Idle now call next

/-- Why a command is not run when no container is held: what is wrong with the command comes
first. -/
def reasonAgainst : Except Failure (String × List String) → Failure
  | .error failure => failure
  | .ok _ => .notStarted

private theorem reasonAgainst_pathInside (container : Container) (program : String) (path : Path) :
    reasonAgainst ((container.pathInside path).map fun inside => (program, [inside.text])) =
      container.refusal path := by
  rw [refusal, pathInside]
  cases path.stripBase? container.project <;> rfl

/-- Without a container, a tool is refused and nothing is said. -/
theorem Performs.refused {now next : Container} {operation : Operation} {said : Said}
    {answer : operation.Answer} {command : Except Failure (String × List String)}
    {reads : String → operation.Result} (performs : Performs now operation said next answer)
    (tool : now.tool? operation = some (command, reads)) (idle : now.held = none) :
    said = [] ∧ answer = .error (reasonAgainst command) ∧ next = now := by
  cases performs with
  | kept | unmounted | unlaunched | launched | absent | removed => cases tool
  | barred found | unstarted found =>
      cases tool.symm.trans found
      exact ⟨rfl, rfl, rfl⟩
  | ran printed found held => cases idle.symm.trans held

/-- Where no container is held, an operation does what is done without one. -/
theorem Performs.idle {now next : Container} {operation : Operation} {said : Said}
    {answer : operation.Answer} (performs : Performs now operation said next answer)
    (idle : now.held = none) : Idle now ⟨operation, said, answer⟩ next := by
  cases operation with
  | start =>
      cases performs with
      | kept held => cases idle.symm.trans held
      | unmounted => exact ⟨fun _ => ⟨rfl, rfl, rfl⟩, nofun⟩
      | unlaunched failure idle mounts =>
          refine ⟨fun relative => ?_, fun image mount other member => ?_⟩
          · rw [bindMount, relative] at mounts
            cases mounts
          · cases List.mem_singleton.mp member
            exact ⟨rfl, rfl⟩
      | launched identifier idle mounts =>
          refine ⟨fun relative => ?_, fun image mount other member => ?_⟩
          · rw [bindMount, relative] at mounts
            cases mounts
          · cases List.mem_singleton.mp member
      | barred tool | unstarted tool | ran _ tool => cases tool
  | stop =>
      cases performs with
      | absent => exact ⟨rfl, rfl, rfl⟩
      | removed answer held => cases idle.symm.trans held
      | barred tool | unstarted tool | ran _ tool => cases tool
  | strip executable =>
      rw [Idle, ← reasonAgainst_pathInside now "strip"]
      exact performs.refused rfl idle
  | dependencies executable =>
      rw [Idle, ← reasonAgainst_pathInside now "ldd"]
      exact performs.refused rfl idle
  | baseLibraries => exact performs.refused rfl idle

/-- An operation keeps launches and removals in order. -/
theorem Performs.orderly {now next : Container} {operation : Operation} {said earlier : Said}
    {answer : operation.Answer} (performs : Performs now operation said next answer)
    (before : launchedIn earlier = removedIn earlier ++ now.held.toList) :
    Orderly earlier now ⟨operation, said, answer⟩ next := by
  have after : launchedIn (earlier ++ said) = removedIn (earlier ++ said) ++ next.held.toList := by
    rw [launchedIn_append, removedIn_append, before, List.append_assoc, performs.balance,
      List.append_assoc]
  have idle := performs.idle
  cases performs with
  | kept | unmounted | absent | barred | unstarted =>
      exact ⟨Nat.zero_le 1, before, after, fun _ _ _ member => absurd member List.not_mem_nil,
        fun _ _ _ _ member => absurd member List.not_mem_nil,
        fun _ _ member => absurd member List.not_mem_nil, idle⟩
  | unlaunched failure isIdle =>
      refine ⟨Nat.le_refl 1, before, after, fun _ _ _ member => ?_, fun _ _ _ _ member => ?_,
        fun _ _ member => ?_, idle⟩ <;> cases List.mem_singleton.mp member
      exact ⟨rfl, isIdle, isIdle⟩
  | launched identifier isIdle =>
      refine ⟨Nat.le_refl 1, before, after, fun _ _ _ member => ?_, fun _ _ _ _ member => ?_,
        fun _ _ member => ?_, idle⟩ <;> cases List.mem_singleton.mp member
      exact ⟨rfl, isIdle, rfl⟩
  | removed answer held =>
      refine ⟨Nat.le_refl 1, before, after, fun _ _ _ member => ?_, fun _ _ _ _ member => ?_,
        fun _ _ member => ?_, idle⟩ <;> cases List.mem_singleton.mp member
      exact ⟨rfl, held, rfl⟩
  | ran printed tool held =>
      refine ⟨Nat.le_refl 1, before, after, fun _ _ _ member => ?_, fun _ _ _ _ member => ?_,
        fun _ _ member => ?_, idle⟩ <;> cases List.mem_singleton.mp member
      refine ⟨held, ?_, rfl⟩
      rw [before, held]
      exact List.getLast?_concat

/-- An environment that is dropped where something can wait for it has the container that it holds
removed, and otherwise asks for nothing. -/
theorem balance_of_drop {container : Container} {said : Said}
    (dropped : Program.Trace ((Environment.container container).drop true) said ()) :
    container.held.toList ++ launchedIn said = removedIn said := by
  obtain ⟨image, project, sysroot, held⟩ := container
  cases held with
  | none =>
      obtain ⟨rfl, -⟩ := Program.trace_done_iff.mp dropped
      rfl
  | some identifier =>
      obtain ⟨answer, later, rfl, ended⟩ := Program.trace_query_bind_iff.mp dropped
      obtain ⟨rfl, -⟩ := Program.trace_done_iff.mp ended
      rfl

/-- A session that began without a container has removed all that it launched but the one that it
holds. -/
theorem Session.balance_of_idle {first last : Container} {calls : List Call}
    (idle : first.held = none) (session : Session first calls last) :
    launchedIn (saidIn calls) = removedIn (saidIn calls) ++ last.held.toList := by
  have balance := session.balance
  rw [idle] at balance
  exact balance

/-- However a container environment is used, and whatever its engine answers: between the calls the
identifiers that were launched are those that were handed to removal and the one that is held, every
call is orderly, and when the environment is dropped where something can wait for it, each launched
container has been handed to removal. -/
theorem session_lifecycle {container last : Container} {calls : List Call}
    (idle : container.held = none) (session : Session container calls last) :
    (∀ before call after, calls = before ++ call :: after →
      ∃ now next, Session container before now ∧ Session next after last ∧
        now = { container with held := now.held } ∧
        Program.Trace ((Environment.container now).perform call.operation) call.said
          (.container next, call.answer) ∧
        Orderly (saidIn before) now call next) ∧
    launchedIn (saidIn calls) = removedIn (saidIn calls) ++ last.held.toList ∧
    ∀ said, Program.Trace ((Environment.container last).drop true) said () →
      launchedIn (saidIn calls ++ said) = removedIn (saidIn calls ++ said) := by
  refine ⟨fun before call after split => ?_, session.balance_of_idle idle, fun said dropped => ?_⟩
  · subst split
    obtain ⟨now, beginning, ending⟩ := session.of_append
    cases ending with
    | @call _ next _ _ _ performed rest =>
        obtain ⟨_, same, performs⟩ := trace_perform_iff.mp performed
        cases same
        exact ⟨now, next, beginning, rest, beginning.eq_with_held, performed,
          performs.orderly (beginning.balance_of_idle idle)⟩
  · rw [launchedIn_append, removedIn_append, session.balance_of_idle idle, List.append_assoc,
      balance_of_drop dropped]

/-- A second start, a stop, another start, a tool on a path outside the project, and the end. -/
theorem session_lifecycle_restarted :
    let idle : Container := ⟨"image", ⟨"/p"⟩, ⟨""⟩, none⟩
    let calls : List Call :=
      [⟨.start, [⟨.launch "image" "/p:/usr/src/project:rw", .ok "one"⟩], .ok ()⟩,
        ⟨.start, [], .ok ()⟩,
        ⟨.strip ⟨"/p/a"⟩, [⟨.execute "one" "strip" ["/usr/src/project/a"], .ok ""⟩], .ok ()⟩,
        ⟨.stop, [⟨.remove "one", .ok ()⟩], .ok ()⟩,
        ⟨.stop, [], .ok ()⟩,
        ⟨.start, [⟨.launch "image" "/p:/usr/src/project:rw", .ok "two"⟩], .ok ()⟩,
        ⟨.strip ⟨"/q"⟩, [], .error (.outsideProject ⟨"/q"⟩ ⟨"/p"⟩)⟩]
    let last : Container := { idle with held := some "two" }
    idle.held = none ∧ Session idle calls last ∧
      launchedIn (saidIn calls) = ["one", "two"] ∧
      launchedIn (saidIn calls ++ [⟨.remove "two", .ok ()⟩]) =
        removedIn (saidIn calls ++ [⟨.remove "two", .ok ()⟩]) := by
  intro idle calls last
  let one : Container := { idle with held := some "one" }
  have absolute : idle.project.isAbsolute = true := by decide +kernel
  have mounts : idle.bindMount = .ok "/p:/usr/src/project:rw" := by
    rw [bindMount, if_pos absolute]
    rfl
  have below : (⟨"/p/a"⟩ : Path).stripBase? ⟨"/p"⟩ = some ⟨"a"⟩ := by decide +kernel
  have joined : mount.join ⟨"a"⟩ = ⟨"/usr/src/project/a"⟩ := by decide +kernel
  have inside : one.pathInside ⟨"/p/a"⟩ = .ok ⟨"/usr/src/project/a"⟩ := by
    rw [pathInside, below, ← joined]
  have beside : (⟨"/q"⟩ : Path).stripBase? ⟨"/p"⟩ = none := by decide +kernel
  have outside : last.pathInside ⟨"/q"⟩ = .error (.outsideProject ⟨"/q"⟩ ⟨"/p"⟩) := by
    rw [pathInside, beside]
  have strips : one.tool? (.strip ⟨"/p/a"⟩) =
      some (.ok ("strip", ["/usr/src/project/a"]), fun _ => ()) := by
    rw [tool?, inside]
    rfl
  have refuses : last.tool? (.strip ⟨"/q"⟩) =
      some (.error (.outsideProject ⟨"/q"⟩ ⟨"/p"⟩), fun _ => ()) := by
    rw [tool?, outside]
    rfl
  have session : Session idle calls last :=
    .call (trace_perform_iff.mpr ⟨_, rfl, .launched "one" rfl mounts⟩) <|
    .call (trace_perform_iff.mpr ⟨_, rfl, .kept rfl⟩) <|
    .call (trace_perform_iff.mpr ⟨_, rfl, .ran (.ok "") strips rfl⟩) <|
    .call (trace_perform_iff.mpr ⟨_, rfl, .removed (.ok ()) rfl⟩) <|
    .call (trace_perform_iff.mpr ⟨_, rfl, .absent rfl⟩) <|
    .call (trace_perform_iff.mpr ⟨_, rfl, .launched "two" rfl mounts⟩) <|
    .call (trace_perform_iff.mpr ⟨_, rfl, .barred refuses⟩) <|
    .done last
  have dropped : Program.Trace ((Environment.container last).drop true)
      [⟨.remove "two", .ok ()⟩] () :=
    Program.trace_query_bind_iff.mpr ⟨.ok (), [], rfl, .done ()⟩
  exact ⟨rfl, session, rfl, (session_lifecycle rfl session).2.2 _ dropped⟩

end FunctionBundler.Container
