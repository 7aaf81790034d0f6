/-
Module: FunctionBundler.Proofs.Run.Termination
Purpose: A run goes on until its conductor has ended, and it cannot go on for ever.
Trusted boundary: none
Main exports:
  Scene.Over, Scene.Course.phase_of_over, Label.Stalls, Habit.Live, Habit.live_settled,
  Scene.exists_stalls, Scene.exists_over
-/
import FunctionBundler.Proofs.Run.Changes
import FunctionBundler.Proofs.Task.Halting

namespace FunctionBundler

/-!
Before the conductor has ended, somebody in a run has a turn: the conductor itself, or a
task that it waits for.  Turns of the conductor lead through its phases, and turns of the
tasks lead each of them to its end, except for the answer that a function is not stable
yet.  So a run either ends or is given that answer again and again for ever.
-/

namespace Scene

/-- Nobody has a turn any more. -/
def Over (scene : Scene) : Prop :=
  ∀ actor, scene.run.turn actor = none

section

variable {build : Build} {permits : Nat} {entries : List EntryPoint} {files : Files}
  {keeps : Scene → Label → Scene → Prop} {labels : List Label} {last : Scene}

/-- When nobody has a turn any more, the conductor has ended. -/
theorem Course.phase_of_over
    (course : Course keeps (start build permits entries files) labels last) (isOver : last.Over) :
    last.run.phase = .crashed ∨ ∃ started, last.run.phase = .ended started := by
  have waits : last.run.conductorTurn = none := isOver .conductor
  rw [Run.conductorTurn] at waits
  cases phase : last.run.phase with
  | crashed => exact Or.inl rfl
  | ended started => exact Or.inr ⟨started, rfl⟩
  | starting | heading | stopping | warning =>
      rw [phase] at waits
      cases waits
  | lamenting names =>
      rw [phase] at waits
      cases names <;> cases waits
  | working =>
      rw [phase] at waits
      have unfinished : last.run.pool.results? = none :=
        Option.map_eq_none_iff.mp (Option.map_eq_none_iff.mp waits)
      obtain ⟨index, turn⟩ := Pool.exists_turn course.balanced (by omega) unfinished
      have waits := isOver (.entry index)
      rw [Run.turn, phase] at waits
      exact absurd (Option.map_eq_none_iff.mp waits) turn

end

end Scene

/-! ### What cannot go on for ever -/

/-- The answer that a function is not stable yet. -/
def Label.Stalls (label : Label) : Prop :=
  ∃ actor function, label = .exchange actor (.call (.isStable function)) (.answered (.ok false))

/-- How many turns the conductor has left at most, with so many entry points. -/
def Phase.turnsLeft (entries : Nat) : Phase → Nat
  | .starting => entries + 6
  | .heading => entries + 5
  | .working => entries + 4
  | .lamenting names => names.length + 3
  | .stopping _ => 2
  | .warning _ _ => 1
  | .ended _ | .crashed => 0

/-- No more tasks are lamented than there are entry points. -/
theorem Run.length_abortions_le {run : Run} {results : List (EntryPoint × Outcome)}
    (ended : run.results? = some results) :
    (Run.abortions results).length ≤ run.entries.length := by
  obtain ⟨ends, -, rfl⟩ := Option.map_eq_some_iff.mp ended
  calc (Run.abortions (run.entries.zip (ends.map Run.outcomeOf))).length
      ≤ (run.entries.zip (ends.map Run.outcomeOf)).length := List.length_filterMap_le _ _
    _ ≤ run.entries.length := by
        rw [List.length_zip]
        exact Nat.min_le_left _ _

private theorem Run.Conducts.turnsLeft_lt {run : Run} {label : Label} {phase : Phase}
    (conducts : run.Conducts label phase) :
    phase.turnsLeft run.entries.length < run.phase.turnsLeft run.entries.length := by
  cases conducts with
  | joined working ended =>
      have few := Run.length_abortions_le ended
      rw [working]
      simp only [Phase.turnsLeft]
      omega
  | started standing | notStarted standing | startCrashed standing | headed standing
  | lamented standing | consoled standing | stopped standing | notStopped standing
  | stopCrashed standing | warned standing =>
      rw [standing]
      simp only [Phase.turnsLeft, List.length_cons, List.length_nil]
      omega

/-- Surroundings with a habit always have a reaction that does not tell that a function is not
stable. -/
def Habit.Live (habit : Habit) : Prop :=
  ∀ files request, ∃ reply after, Reacts files request reply after ∧
    habit files request reply after ∧ ∀ answer, reply = .answered answer → ¬Unstable request answer

/-- An environment that always replies alike. -/
theorem Habit.live_settled (answers : FixedAnswers) : (Settled answers).Live := by
  intro files request
  cases request with
  | access wanted => exact ⟨_, _, .access _ wanted, trivial, fun _ _ => id⟩
  | announce event => exact ⟨_, _, .announce _ event, trivial, fun _ _ => id⟩
  | clock => exact ⟨_, _, .clock _ 0, trivial, fun _ _ => id⟩
  | sleep duration => exact ⟨_, _, .sleep _ duration, trivial, fun _ _ => id⟩
  | environment operation =>
      exact ⟨_, _, .environment _ operation (answers operation), ⟨rfl, rfl⟩, fun _ _ => id⟩
  | call made => exact ⟨_, _, .call _ made (.panicked ""), trivial, nofun⟩

/-- Surroundings that may react in any way. -/
theorem Habit.live_any : Habit.Live fun _ _ _ _ => True := by
  intro files request
  obtain ⟨reply, after, reacts, -, settled⟩ :=
    Habit.live_settled (fun _ => .panicked "") files request
  exact ⟨reply, after, reacts, trivial, settled⟩

namespace Scene

/-- What a turn can lead to, unless it tells that a function is not stable. -/
def Advances (next scene : Scene) : Prop :=
  ∃ label, scene.Step label next ∧ ¬label.Stalls

private theorem unstable_iff_stalls {actor : Actor} {request : Request} {answer : request.Answer} :
    Unstable request answer ↔ (Label.exchange actor request (.answered answer)).Stalls := by
  constructor
  · intro unstable
    cases request with
    | call made =>
        cases made with
        | isStable function =>
            change answer = .ok false at unstable
            subst unstable
            exact ⟨actor, function, rfl⟩
        | _ => cases unstable
    | _ => cases unstable
  · intro stalls
    obtain ⟨actor, function, same⟩ := stalls
    cases same
    rfl

/-- The conductor's turns come first, then the tasks that it waits for. -/
theorem wellFounded_advances : WellFounded Advances := by
  have pools := Pool.wellFounded_goes EntryTask.halting
  let order := Prod.Lex (fun first second : Nat => first < second) (@Pool.Goes EntryTask _ _)
  have ordered : WellFounded order := (Prod.lex ⟨_, Nat.lt_wfRel.wf⟩ ⟨_, pools⟩).wf
  let place (scene : Scene) : Nat × Pool EntryTask :=
    (scene.run.phase.turnsLeft scene.run.entries.length, scene.run.pool)
  have below : Subrelation Advances (InvImage order place) := by
    intro next scene advances
    obtain ⟨label, step, settled⟩ := advances
    have turns {pool : Pool EntryTask} {files : Files}
        (goes : Pool.Goes pool scene.run.pool) :
        order (place ⟨{ scene.run with pool }, files⟩) (place scene) := .right _ goes
    cases moves_of_step step with
    | conductor conducts => exact .left _ _ conducts.turnsLeft_lt
    | moved _ takes =>
        refine turns ⟨_, none, takes, fun made answer same => ?_⟩
        cases same
    | @exchange index request reply pool files working takes _ =>
        refine turns ⟨_, _, takes, fun made answer same unstable => settled ?_⟩
        cases same
        exact unstable_iff_stalls.mp unstable
  exact below.wf (InvImage.wf place ordered)

/-- A run that never ends is told again and again that a function is not stable. -/
theorem exists_stalls {scenes : Nat → Scene} {labels : Nat → Label}
    (steps : ∀ turn, (scenes turn).Step (labels turn) (scenes (turn + 1))) (since : Nat) :
    ∃ turn, since ≤ turn ∧ (labels turn).Stalls := by
  apply Classical.byContradiction
  intro settled
  have impossible (scene : Scene) : ∀ turn, since ≤ turn → scenes turn = scene → False := by
    induction scene using wellFounded_advances.induction with
    | _ scene ih =>
        intro turn later same
        subst same
        have advances : Advances (scenes (turn + 1)) (scenes turn) :=
          ⟨labels turn, steps turn, fun stalls => settled ⟨turn, later, stalls⟩⟩
        exact ih (scenes (turn + 1)) advances (turn + 1) (Nat.le_succ_of_le later) rfl
  exact impossible (scenes since) since (Nat.le_refl _) rfl

/-- Somebody who has a turn can take it, in a way that leads closer to the end. -/
theorem exists_advances {habit : Habit} (live : habit.Live) {scene : Scene}
    (goesOn : ¬scene.Over) :
    ∃ label next, scene.Step label next ∧ scene.Under habit label next ∧ ¬label.Stalls := by
  obtain ⟨actor, turn⟩ := Classical.not_forall.mp goesOn
  cases taken : scene.run.turn actor with
  | none => exact absurd taken turn
  | some turn =>
      cases turn with
      | moved next =>
          refine ⟨_, _, .moved taken, trivial, fun stalls => ?_⟩
          obtain ⟨_, _, same⟩ := stalls
          cases same
      | asked request resume =>
          obtain ⟨reply, after, reacts, kept, settled⟩ := live scene.files request
          refine ⟨_, _, .exchange taken reacts, kept, fun stalls => ?_⟩
          cases reply with
          | answered answer => exact settled answer rfl (unstable_iff_stalls.mpr stalls)
          | panicked =>
              obtain ⟨_, _, same⟩ := stalls
              cases same

/-- Every run can be led to its end. -/
theorem exists_over {habit : Habit} (live : habit.Live) (scene : Scene) :
    ∃ labels last, Course (Under habit) scene labels last ∧ last.Over := by
  induction scene using wellFounded_advances.induction with
  | _ scene ih =>
      by_cases isOver : scene.Over
      · exact ⟨[], scene, .nil, isOver⟩
      · obtain ⟨label, next, step, kept, settled⟩ := exists_advances live isOver
        obtain ⟨labels, last, course, isOver⟩ := ih next ⟨label, step, settled⟩
        exact ⟨[label] ++ labels, last, (Course.nil.concat step kept).append course, isOver⟩

end Scene

end FunctionBundler
