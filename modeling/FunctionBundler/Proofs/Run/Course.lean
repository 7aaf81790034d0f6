/-
Module: FunctionBundler.Proofs.Run.Course
Purpose: What each turn of a run does, and what a whole run means for each of its tasks.
Trusted boundary: none
Main exports:
  Run.Conducts, Scene.Moves, Scene.moves_of_step, Scene.Course, Scene.course_of_trace, Habit,
  Scene.Under, heard, Panics, Stands, Scene.start, Scene.Course.stands, Scene.Course.wants_of_takes
-/
import FunctionBundler.Proofs.Entry.Account
import FunctionBundler.Proofs.Task.Pool
import FunctionBundler.Run.Trace
import Mathlib.Data.List.Induction

namespace FunctionBundler

/-!
A turn of a run is a turn of its conductor, which leaves the tasks and the files alone,
or a turn of one task while the conductor waits for them.  A course is a trace that
grows at its end, every turn of which may be asked to keep something.  What it means for
one task is the part of it that this task has heard: the task has run by itself on
exactly these answers, and has gone on since or was ended by a panic.
-/

/-! ### Turns -/

/-- What the conductor of a run does in one turn, and the phase after it. -/
inductive Run.Conducts (run : Run) : Label → Phase → Prop where
  | started (starting : run.phase = .starting) :
      Run.Conducts run (.exchange .conductor (.environment .start) (.answered (.ok ()))) .heading
  | notStarted (starting : run.phase = .starting) (failure : Failure) :
      Run.Conducts run (.exchange .conductor (.environment .start) (.answered (.error failure)))
        (.stopping (.error failure))
  | startCrashed (starting : run.phase = .starting) (cause : String) :
      Run.Conducts run (.exchange .conductor (.environment .start) (.panicked cause)) .crashed
  | headed (heading : run.phase = .heading) :
      Run.Conducts run (.exchange .conductor (.announce (.heading "Packaging")) (.answered ()))
        .working
  | joined {results : List (EntryPoint × Outcome)} (working : run.phase = .working)
      (ended : run.results? = some results) :
      Run.Conducts run (.moved .conductor) (.lamenting (Run.abortions results))
  | lamented {entry cause : String} {rest : List (String × String)}
      (lamenting : run.phase = .lamenting ((entry, cause) :: rest)) :
      Run.Conducts run
        (.exchange .conductor (.announce ((Outcome.aborted cause).event entry)) (.answered ()))
        (.lamenting rest)
  | consoled (lamenting : run.phase = .lamenting []) :
      Run.Conducts run (.moved .conductor) (.stopping (.ok ()))
  | stopped {started : Except Failure Unit} (stopping : run.phase = .stopping started) :
      Run.Conducts run (.exchange .conductor (.environment .stop) (.answered (.ok ())))
        (.ended started)
  | notStopped {started : Except Failure Unit} (stopping : run.phase = .stopping started)
      (failure : Failure) :
      Run.Conducts run (.exchange .conductor (.environment .stop) (.answered (.error failure)))
        (.warning failure started)
  | stopCrashed {started : Except Failure Unit} (stopping : run.phase = .stopping started)
      (cause : String) :
      Run.Conducts run (.exchange .conductor (.environment .stop) (.panicked cause)) .crashed
  | warned {failure : Failure} {started : Except Failure Unit}
      (warning : run.phase = .warning failure started) (message : String) :
      Run.Conducts run (.exchange .conductor (.announce (.warning message)) (.answered ()))
        (.ended started)

/-- The label of a turn of a task. -/
def Label.ofTask (index : Nat) : Option ((request : Request) × Reply request.Answer) → Label
  | none => .moved (.entry index)
  | some ⟨request, reply⟩ => .exchange (.entry index) request reply

/-- What one turn does to a run and its files. -/
inductive Scene.Moves (scene : Scene) : Label → Scene → Prop where
  | conductor {label : Label} {phase : Phase} (conducts : scene.run.Conducts label phase) :
      Scene.Moves scene label { scene with run := scene.run.goTo phase }
  | moved {index : Nat} {pool : Pool EntryTask} (working : scene.run.phase = .working)
      (takes : scene.run.pool.Takes index none pool) :
      Scene.Moves scene (.moved (.entry index)) { scene with run := { scene.run with pool } }
  | exchange {index : Nat} {request : Request} {reply : Reply request.Answer}
      {pool : Pool EntryTask} {files : Files} (working : scene.run.phase = .working)
      (takes : scene.run.pool.Takes index (some ⟨request, reply⟩) pool)
      (reacts : Reacts scene.files request reply files) :
      Scene.Moves scene (.exchange (.entry index) request reply) ⟨{ scene.run with pool }, files⟩

namespace Run

variable {run next : Run}

private theorem conducts_of_turn_moved (turn : run.conductorTurn = some (.moved next)) :
    ∃ phase, run.Conducts (.moved .conductor) phase ∧ next = run.goTo phase := by
  obtain ⟨entries, phase, pool⟩ := run
  cases phase with
  | starting | heading | stopping | warning | ended | crashed => cases turn
  | lamenting names =>
      cases names with
      | nil =>
          cases turn
          exact ⟨_, .consoled rfl, rfl⟩
      | cons => cases turn
  | working =>
      obtain ⟨results, ended, moves⟩ := Option.map_eq_some_iff.mp turn
      cases moves
      exact ⟨_, .joined rfl ended, rfl⟩

private theorem conducts_of_turn_asked {request : Request} {resume : Reply request.Answer → Run}
    (turn : run.conductorTurn = some (.asked request resume)) {files after : Files}
    {reply : Reply request.Answer} (reacts : Reacts files request reply after) :
    after = files ∧
      ∃ phase, run.Conducts (.exchange .conductor request reply) phase ∧
        resume reply = run.goTo phase := by
  obtain ⟨entries, phase, pool⟩ := run
  cases phase with
  | starting =>
      cases turn
      cases reacts
      refine ⟨rfl, ?_⟩
      cases reply with
      | panicked cause => exact ⟨_, .startCrashed rfl cause, rfl⟩
      | answered answer =>
          cases answer with
          | ok => exact ⟨_, .started rfl, rfl⟩
          | error failure => exact ⟨_, .notStarted rfl failure, rfl⟩
  | heading =>
      cases turn
      cases reacts
      exact ⟨rfl, _, .headed rfl, rfl⟩
  | working =>
      obtain ⟨results, -, moves⟩ := Option.map_eq_some_iff.mp turn
      cases moves
  | lamenting names =>
      cases names with
      | nil => cases turn
      | cons entry rest =>
          cases turn
          cases reacts
          exact ⟨rfl, _, .lamented rfl, rfl⟩
  | stopping started =>
      cases turn
      cases reacts
      refine ⟨rfl, ?_⟩
      cases reply with
      | panicked cause => exact ⟨_, .stopCrashed rfl cause, rfl⟩
      | answered answer =>
          cases answer with
          | ok => exact ⟨_, .stopped rfl, rfl⟩
          | error failure => exact ⟨_, .notStopped rfl failure, rfl⟩
  | warning failure started =>
      cases turn
      cases reacts
      exact ⟨rfl, _, .warned rfl _, rfl⟩
  | ended | crashed => cases turn

end Run

namespace Run

/-- A task that moves without asking moves in its pool, while tasks work. -/
theorem takes_of_turn_moved {run next : Run} {index : Nat}
    (turn : run.turn (.entry index) = some (.moved next)) :
    run.phase = .working ∧ ∃ pool, run.pool.Takes index none pool ∧ next = { run with pool } := by
  rw [Run.turn] at turn
  split at turn
  case h_1 working =>
      obtain ⟨taken, poolTurn, moves⟩ := Option.map_eq_some_iff.mp turn
      cases taken with
      | moved pool =>
          cases moves
          exact ⟨working, pool, Pool.takes_of_turn_moved poolTurn, rfl⟩
      | asked => cases moves
  case h_2 => cases turn

/-- A task that asks goes on in its pool, while tasks work. -/
theorem takes_of_turn_asked {run : Run} {index : Nat} {request : Request}
    {resume : Reply request.Answer → Run}
    (turn : run.turn (.entry index) = some (.asked request resume)) (reply : Reply request.Answer) :
    run.phase = .working ∧
      ∃ pool, run.pool.Takes index (some ⟨request, reply⟩) pool ∧
        resume reply = { run with pool } := by
  rw [Run.turn] at turn
  split at turn
  case h_1 working =>
      obtain ⟨taken, poolTurn, moves⟩ := Option.map_eq_some_iff.mp turn
      cases taken with
      | moved => cases moves
      | asked request resume =>
          cases moves
          exact ⟨working, resume reply, Pool.takes_of_turn_asked poolTurn reply, rfl⟩
  case h_2 => cases turn

end Run

namespace Scene

/-- Every step is one of the turns. -/
theorem moves_of_step {scene next : Scene} {label : Label} (step : scene.Step label next) :
    scene.Moves label next := by
  cases step with
  | @moved actor after turn =>
      cases actor with
      | conductor =>
          obtain ⟨phase, conducts, rfl⟩ := Run.conducts_of_turn_moved turn
          exact .conductor conducts
      | entry index =>
          obtain ⟨working, pool, takes, rfl⟩ := Run.takes_of_turn_moved turn
          exact .moved working takes
  | @exchange actor request resume reply files turn reacts =>
      cases actor with
      | conductor =>
          obtain ⟨rfl, phase, conducts, same⟩ := Run.conducts_of_turn_asked turn reacts
          rw [same]
          exact .conductor conducts
      | entry index =>
          obtain ⟨working, pool, takes, same⟩ := Run.takes_of_turn_asked turn reply
          rw [same]
          exact .exchange working takes reacts

/-- A step in which a task asks is a turn of this task, to which the surroundings react. -/
theorem takes_of_step {scene next : Scene} {index : Nat} {request : Request}
    {reply : Reply request.Answer}
    (step : scene.Step (.exchange (.entry index) request reply) next) :
    scene.run.pool.Takes index (some ⟨request, reply⟩) next.run.pool ∧
      Reacts scene.files request reply next.files := by
  generalize asked : Label.exchange (.entry index) request reply = label at step
  cases moves_of_step step with
  | conductor conducts => cases conducts <;> cases asked
  | moved => cases asked
  | exchange _ takes reacts =>
      cases asked
      exact ⟨takes, reacts⟩

/-! ### Courses -/

/-- A trace that grows at its end, each turn of which keeps something. -/
inductive Course (keeps : Scene → Label → Scene → Prop) (first : Scene) :
    List Label → Scene → Prop where
  | nil : Course keeps first [] first
  | concat {labels : List Label} {middle last : Scene} {label : Label}
      (course : Course keeps first labels middle) (step : Scene.Step middle label last)
      (kept : keeps middle label last) : Course keeps first (labels ++ [label]) last

/-- Traces can be continued. -/
theorem Trace.append {first middle last : Scene} {before after : List Label}
    (one : Scene.Trace first before middle) (two : Scene.Trace middle after last) :
    Scene.Trace first (before ++ after) last := by
  induction one with
  | nil => exact two
  | cons step _ ih => exact .cons step (ih two)

/-- A course is a trace. -/
theorem Course.trace {keeps : Scene → Label → Scene → Prop} {first last : Scene}
    {labels : List Label} (course : Course keeps first labels last) :
    Scene.Trace first labels last := by
  induction course with
  | nil => exact .nil first
  | concat _ step _ ih => exact ih.append (.cons step (.nil _))

/-- Courses can be continued. -/
theorem Course.append {keeps : Scene → Label → Scene → Prop} {first middle last : Scene}
    {before after : List Label} (one : Course keeps first before middle)
    (two : Course keeps middle after last) : Course keeps first (before ++ after) last := by
  induction two with
  | nil => rwa [List.append_nil]
  | concat _ step kept ih =>
      rw [← List.append_assoc]
      exact ih.concat step kept

/-- A course keeps to all that its steps imply. -/
theorem Course.mono {keeps also : Scene → Label → Scene → Prop} {first last : Scene}
    {labels : List Label} (course : Course keeps first labels last)
    (more : ∀ scene label next, keeps scene label next → also scene label next) :
    Course also first labels last := by
  induction course with
  | nil => exact .nil
  | concat _ step kept ih => exact ih.concat step (more _ _ _ kept)

/-- Every trace is a course. -/
theorem course_of_trace {first last : Scene} {labels : List Label}
    (trace : Scene.Trace first labels last) :
    Course (fun _ _ _ => True) first labels last := by
  induction trace with
  | nil => exact .nil
  | cons step _ ih => exact (Course.nil.concat step trivial).append ih

/-- A course can be looked at wherever it has been. -/
theorem Course.split {keeps : Scene → Label → Scene → Prop} {first last : Scene}
    {before after : List Label} (course : Course keeps first (before ++ after) last) :
    ∃ middle, Course keeps first before middle ∧ Course keeps middle after last := by
  induction after using List.reverseRecOn generalizing last with
  | nil =>
      rw [List.append_nil] at course
      exact ⟨last, course, .nil⟩
  | append_singleton later label ih =>
      generalize whole : before ++ (later ++ [label]) = labels at course
      cases course with
      | nil => simp at whole
      | @concat labels previous _ final course step kept =>
          rw [← List.append_assoc] at whole
          obtain ⟨rfl, same⟩ := List.append_inj' whole rfl
          cases same
          obtain ⟨middle, one, two⟩ := ih course
          exact ⟨middle, one, two.concat step kept⟩

/-- A course can be looked at right before and right after a turn. -/
theorem Course.split_at {keeps : Scene → Label → Scene → Prop} {first last : Scene}
    {before after : List Label} {label : Label}
    (course : Course keeps first (before ++ label :: after) last) :
    ∃ middle next, Course keeps first before middle ∧ middle.Step label next ∧
      keeps middle label next ∧ Course keeps next after last := by
  rw [List.append_cons] at course
  obtain ⟨next, one, two⟩ := course.split
  generalize whole : before ++ [label] = labels at one
  cases one with
  | nil => simp at whole
  | @concat labels middle _ last course step kept =>
      obtain ⟨rfl, same⟩ := List.append_inj' whole rfl
      cases same
      exact ⟨middle, next, course, step, kept, two⟩

end Scene

/-! ### Surroundings -/

/-- What is known of surroundings: which replies to a request, with which files after it, occur. -/
abbrev Habit := Files → (request : Request) → Reply request.Answer → Files → Prop

/-- A turn in which the surroundings keep to a habit. -/
def Scene.Under (habit : Habit) (scene : Scene) (label : Label) (next : Scene) : Prop :=
  match label with
  | .moved _ => True
  | .exchange _ request reply => habit scene.files request reply next.files

/-! ### One task -/

/-- What a label tells the task of an index. -/
def Label.heard? (index : Nat) : Label → Option Exchanged
  | .exchange (.entry other) request (.answered answer) =>
    if other = index then some ⟨request, answer⟩ else none
  | _ => none

/-- The exchanges of the task of an index. -/
def heard (index : Nat) (labels : List Label) : List Exchanged :=
  labels.filterMap (Label.heard? index)

/-- The task of an index was ended by a panic. -/
def Panics (index : Nat) (labels : List Label) : Prop :=
  ∃ request cause, Label.exchange (.entry index) request (.panicked cause) ∈ labels

/-- What a task hears in two parts it hears in the first and then in the second. -/
theorem heard_append (index : Nat) (before after : List Label) :
    heard index (before ++ after) = heard index before ++ heard index after :=
  List.filterMap_append

/-- A task hears exactly what it is answered. -/
theorem mem_heard_iff {index : Nat} {labels : List Label} {request : Request}
    {answer : request.Answer} :
    (⟨request, answer⟩ : Exchanged) ∈ heard index labels ↔
      Label.exchange (.entry index) request (.answered answer) ∈ labels := by
  rw [heard, List.mem_filterMap]
  constructor
  · intro found
    obtain ⟨label, member, hears⟩ := found
    match label with
    | .moved _ | .exchange .conductor _ _ | .exchange (.entry _) _ (.panicked _) => cases hears
    | .exchange (.entry other) made (.answered given) =>
        change (if other = index then some (⟨made, given⟩ : Exchanged) else none) = _ at hears
        split at hears
        case isTrue same =>
            cases hears
            rwa [← same]
        case isFalse => cases hears
  · intro member
    exact ⟨_, member, if_pos rfl⟩

private theorem panics_append_iff {index : Nat} {before after : List Label} :
    Panics index (before ++ after) ↔ Panics index before ∨ Panics index after := by
  simp only [Panics, List.mem_append, exists_or]

private theorem panics_singleton_iff {index : Nat} {label : Label} :
    Panics index [label] ↔
      ∃ request cause, label = .exchange (.entry index) request (.panicked cause) := by
  simp only [Panics, List.mem_singleton, eq_comm]

/-- What a slot of a run holds after what its task has heard. -/
inductive Stands (build : Build) (entry : EntryPoint) (index : Nat) (labels : List Label) :
    Option (Slot EntryTask) → Prop where
  | active {state : EntryTask}
      (runs : Task.Runs (EntryTask.start build entry) (heard index labels) state)
      (unharmed : ¬Panics index labels) : Stands build entry index labels (some (.active state))
  | aborted {state : EntryTask} {request : Request} {resume : request.Answer → EntryTask}
      {cause : String} (runs : Task.Runs (EntryTask.start build entry) (heard index labels) state)
      (asks : Task.step state = .ask request resume)
      (panicked : Label.exchange (.entry index) request (.panicked cause) ∈ labels) :
      Stands build entry index labels (some (.aborted cause))

section

variable {build : Build} {entry : EntryPoint} {index : Nat} {labels : List Label}

private theorem heard_concat_of_none {label : Label} (deaf : label.heard? index = none) :
    heard index (labels ++ [label]) = heard index labels := by
  rw [heard_append, heard, heard, List.filterMap_cons_none deaf, List.filterMap_nil,
    List.append_nil]

/-- What a task hears last is heard behind all else. -/
theorem heard_concat_of_some {label : Label} {exchange : Exchanged}
    (hears : label.heard? index = some exchange) :
    heard index (labels ++ [label]) = heard index labels ++ [exchange] := by
  rw [heard_append, heard, heard, List.filterMap_cons_some hears, List.filterMap_nil]

/-- A label that is none of the task's exchanges leaves it where it stands. -/
theorem Stands.concat {slot : Option (Slot EntryTask)} {label : Label}
    (stands : Stands build entry index labels slot) (deaf : label.heard? index = none)
    (unharmed : ∀ request cause, label ≠ .exchange (.entry index) request (.panicked cause)) :
    Stands build entry index (labels ++ [label]) slot := by
  cases stands with
  | active runs calm =>
      rw [← heard_concat_of_none deaf] at runs
      refine .active runs fun panics => ?_
      rcases panics_append_iff.mp panics with earlier | now
      · exact calm earlier
      · obtain ⟨request, cause, same⟩ := panics_singleton_iff.mp now
        exact unharmed request cause same
  | aborted runs asks panicked =>
      rw [← heard_concat_of_none deaf] at runs
      exact .aborted runs asks (List.mem_append_left _ panicked)

/-- A turn of the task leads it on. -/
theorem Stands.does {state : EntryTask} {slot : Slot EntryTask}
    {asked : Option ((request : Request) × Reply request.Answer)}
    (stands : Stands build entry index labels (some (.active state)))
    (does : Pool.Does state asked slot) :
    Stands build entry index (labels ++ [.ofTask index asked]) (some slot) := by
  have moved {after : EntryTask} (runs : Task.Runs (EntryTask.start build entry)
      (heard index labels) state) (goes : Task.Runs state [] after) (calm : ¬Panics index labels) :
      Stands build entry index (labels ++ [.moved (.entry index)]) (some (.active after)) := by
    have later := runs.append goes
    rw [List.append_nil] at later
    exact (Stands.active later calm).concat rfl nofun
  cases stands with
  | active runs calm =>
      cases does with
      | acquires acquires => exact moved runs (.acquire acquires (.here _)) calm
      | releases releases => exact moved runs (.release releases (.here _)) calm
      | @answered request resume asks answer =>
          have hears : (Label.ofTask index (some ⟨request, .answered answer⟩)).heard? index =
              some ⟨request, answer⟩ := if_pos rfl
          have later := runs.append (.ask asks answer (.here _))
          rw [← heard_concat_of_some hears] at later
          refine .active later fun panics => ?_
          rcases panics_append_iff.mp panics with earlier | now
          · exact calm earlier
          · obtain ⟨request, cause, same⟩ := panics_singleton_iff.mp now
            cases same
      | @panicked request resume asks cause =>
          have deaf : (Label.ofTask index (some ⟨request, .panicked cause⟩)).heard? index =
              none := rfl
          rw [← heard_concat_of_none deaf] at runs
          exact .aborted runs asks (List.mem_append_right _ List.mem_cons_self)

/-- A turn of another task leaves the task where it stands. -/
theorem Stands.ofTask_ne {slot : Option (Slot EntryTask)} {other : Nat}
    {asked : Option ((request : Request) × Reply request.Answer)}
    (stands : Stands build entry index labels slot) (differs : other ≠ index) :
    Stands build entry index (labels ++ [.ofTask other asked]) slot := by
  cases asked with
  | none => exact stands.concat rfl nofun
  | some made =>
      obtain ⟨request, reply⟩ := made
      cases reply with
      | answered answer => exact stands.concat (if_neg differs) nofun
      | panicked =>
          apply stands.concat rfl
          intro request cause same
          cases same
          exact differs rfl

end

/-! ### Whole courses -/

/-- Who acts under a label. -/
def Label.actor : Label → Actor
  | .moved actor | .exchange actor _ _ => actor

/-- Conducting is done by the conductor. -/
theorem Run.Conducts.actor_eq {run : Run} {label : Label} {phase : Phase}
    (conducts : run.Conducts label phase) : label.actor = .conductor := by
  cases conducts <;> rfl

/-- What the conductor does leaves every task where it stands. -/
theorem Stands.conductor {build : Build} {entry : EntryPoint} {index : Nat} {labels : List Label}
    {slot : Option (Slot EntryTask)} {label : Label}
    (stands : Stands build entry index labels slot) (conducted : label.actor = .conductor) :
    Stands build entry index (labels ++ [label]) slot := by
  cases label with
  | moved actor => exact stands.concat rfl nofun
  | exchange actor request reply =>
      cases conducted
      exact stands.concat rfl nofun

namespace Scene

/-- The scene in which a run begins. -/
def start (build : Build) (permits : Nat) (entries : List EntryPoint) (files : Files) : Scene :=
  ⟨.start build permits entries, files⟩

section

variable {build : Build} {permits : Nat} {entries : List EntryPoint} {files : Files}
  {keeps : Scene → Label → Scene → Prop} {labels : List Label} {last : Scene}

private theorem getElem?_start (index : Nat) :
    (start build permits entries files).run.pool.slots[index]? =
      entries[index]?.map fun entry => .active (.start build entry) := by
  change ((entries.map (EntryTask.start build)).map Slot.active)[index]? = _
  rw [List.map_map, List.getElem?_map]
  rfl

/-- No move changes the entry points. -/
theorem Moves.entries_eq {scene next : Scene} {label : Label} (moves : scene.Moves label next) :
    next.run.entries = scene.run.entries := by
  cases moves <;> rfl

/-- A run keeps the entry points that it began with. -/
theorem Course.entries_eq (course : Course keeps (start build permits entries files) labels last) :
    last.run.entries = entries := by
  induction course with
  | nil => rfl
  | concat _ step _ ih => exact (moves_of_step step).entries_eq.trans ih

/-- What a turn of one task keeps of a pool, a run keeps. -/
theorem Course.pool_invariant {holds : Pool EntryTask → Prop}
    (keepsHolds : ∀ {pool next : Pool EntryTask} {index asked},
      pool.Takes index asked next → holds pool → holds next)
    (course : Course keeps (start build permits entries files) labels last)
    (initially : holds (start build permits entries files).run.pool) : holds last.run.pool := by
  induction course with
  | nil => exact initially
  | concat _ step _ ih =>
      cases moves_of_step step with
      | conductor => exact ih
      | moved _ takes | exchange _ takes => exact keepsHolds takes ih

/-- There is a slot for each entry point. -/
theorem Course.length_slots
    (course : Course keeps (start build permits entries files) labels last) :
    last.run.pool.slots.length = entries.length := by
  apply course.pool_invariant fun takes same => takes.length_eq.trans same
  change ((entries.map (EntryTask.start build)).map Slot.active).length = entries.length
  rw [List.length_map, List.length_map]

/-- Permits that are held and permits that are left add up in every run. -/
theorem Course.balanced (course : Course keeps (start build permits entries files) labels last) :
    Pool.Balanced (max permits 1) last.run.pool := by
  apply course.pool_invariant Pool.Takes.balanced
  apply Pool.balanced_start
  intro task member
  obtain ⟨entry, -, rfl⟩ := List.mem_map.mp member
  rfl

/-- Every task stands where what it has heard leads it. -/
theorem Course.stands (course : Course keeps (start build permits entries files) labels last)
    {index : Nat} {entry : EntryPoint} (there : entries[index]? = some entry) :
    Stands build entry index labels last.run.pool.slots[index]? := by
  induction course with
  | nil =>
      rw [getElem?_start, there]
      exact .active (.here _) nofun
  | @concat labels middle last label course step _ ih =>
      have turn {other : Nat} {pool : Pool EntryTask}
          {asked : Option ((request : Request) × Reply request.Answer)}
          (takes : middle.run.pool.Takes other asked pool) :
          Stands build entry index (labels ++ [.ofTask other asked]) pool.slots[index]? := by
        by_cases own : other = index
        · subst own
          obtain ⟨state, slot, active, after, does⟩ := takes.does
          rw [active] at ih
          rw [after]
          exact ih.does does
        · rw [takes.getElem?_ne own]
          exact ih.ofTask_ne own
      cases moves_of_step step with
      | conductor conducts => exact ih.conductor conducts.actor_eq
      | moved _ takes => exact turn takes
      | exchange _ takes => exact turn takes

/-- The task that has a turn is that of an entry point, and stands where it has been led. -/
theorem Course.runs_of_active
    (course : Course keeps (start build permits entries files) labels last) {index : Nat}
    {state : EntryTask} (active : last.run.pool.slots[index]? = some (.active state)) :
    ∃ entry, entries[index]? = some entry ∧
      Task.Runs (EntryTask.start build entry) (heard index labels) state ∧
      ¬Panics index labels := by
  obtain ⟨inside, -⟩ := List.getElem?_eq_some_iff.mp active
  rw [course.length_slots] at inside
  have there : entries[index]? = some entries[index] := List.getElem?_eq_getElem inside
  have stands := course.stands there
  rw [active] at stands
  cases stands with
  | active runs unharmed => exact ⟨entries[index], there, runs, unharmed⟩

/-- What a task asks in its turn is what it can ask after what it has heard. -/
theorem Course.wants_of_takes
    (course : Course keeps (start build permits entries files) labels last) {index : Nat}
    {request : Request} {reply : Reply request.Answer} {pool : Pool EntryTask}
    (takes : last.run.pool.Takes index (some ⟨request, reply⟩) pool) :
    ∃ entry, entries[index]? = some entry ∧
      EntryTask.Wants build entry (heard index labels) request ∧ ¬Panics index labels := by
  obtain ⟨state, slot, active, -, does⟩ := takes.does
  obtain ⟨entry, there, runs, unharmed⟩ := course.runs_of_active active
  cases does with
  | answered asks | panicked asks =>
      exact ⟨entry, there, EntryTask.wants_of_ask runs asks, unharmed⟩

end

end Scene

end FunctionBundler
