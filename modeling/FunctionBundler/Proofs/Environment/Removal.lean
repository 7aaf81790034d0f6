/-
Module: FunctionBundler.Proofs.Environment.Removal
Purpose: What becomes of a container whose removal fails.
Trusted boundary: none
Main exports:
  Container.goneIn, Container.lostIn, Container.removedIn_perm, Container.Forgotten,
  Container.session_forgets_failed, Container.session_loses_container
-/
import Mathlib.Data.List.Nodup
import FunctionBundler.Proofs.Environment.Container

namespace FunctionBundler.Container

open Environment

/-!
A container is let go of before its removal is asked for, and what comes of the removal
changes nothing.  So of the containers that were launched some were removed, one may be
held, and those whose removal failed are lost: no later call asks for them, and another
one is launched beside them.  Only where no removal fails, a launch finds all earlier
containers removed.
-/

/-! ### What comes of removals -/

/-- The identifiers of the containers that were removed. -/
def goneIn (said : Said) : List String :=
  said.filterMap fun
    | ⟨.remove identifier, .ok _⟩ => some identifier
    | _ => none

/-- The identifiers of the containers whose removal failed. -/
def lostIn (said : Said) : List String :=
  said.filterMap fun
    | ⟨.remove identifier, .error _⟩ => some identifier
    | _ => none

/-- A removal succeeds or fails. -/
theorem removedIn_perm (said : Said) : (removedIn said).Perm (goneIn said ++ lostIn said) := by
  induction said with
  | nil => exact .refl []
  | cons exchange later ih =>
      obtain ⟨query, answer⟩ := exchange
      cases query with
      | remove identifier =>
          cases answer with
          | ok => exact ih.cons identifier
          | error => exact (ih.cons identifier).trans List.perm_middle.symm
      | present | installed | run | launch | execute => exact ih

private theorem removedIn_eq_goneIn {said : Said} (kept : lostIn said = []) :
    removedIn said = goneIn said := by
  induction said with
  | nil => rfl
  | cons exchange later ih =>
      obtain ⟨query, answer⟩ := exchange
      cases query with
      | remove identifier =>
          cases answer with
          | ok => exact congrArg (identifier :: ·) (ih kept)
          | error => cases kept
      | present | installed | run | launch | execute => exact ih kept

/-! ### After a failed removal -/

variable {container now next last : Container} {calls before later : List Call}
  {identifier : String}

/-- With no container held and none launched, there is none to remove and none is held later. -/
theorem Session.quiet (session : Session next calls last) (idle : next.held = none)
    (quiet : launchedIn (saidIn calls) = []) :
    removedIn (saidIn calls) = [] ∧ last.held = none := by
  have balance := session.balance_of_idle idle
  rw [quiet] at balance
  obtain ⟨unasked, unheld⟩ := List.append_eq_nil_iff.mp balance.symm
  exact ⟨unasked, Option.toList_eq_nil_iff.mp unheld⟩

private theorem eq_nil_of_drop {said : Said} {waiting : Bool} (idle : last.held = none)
    (dropped : Program.Trace ((Environment.container last).drop waiting) said ()) : said = [] := by
  obtain ⟨image, project, sysroot, held⟩ := last
  cases idle
  exact (Program.trace_done_iff.mp dropped).1

/-- What a stop that fails was told, and what it leaves. -/
theorem Performs.of_failed_stop {said : Said} {failure : Failure}
    (performs : Performs now .stop said next (.error failure)) :
    ∃ identifier, now.held = some identifier ∧ said = [⟨.remove identifier, .error failure⟩] ∧
      next = { now with held := none } := by
  generalize failed : (Except.error failure : Except Failure Unit) = answer at performs
  cases performs with
  | absent => cases failed
  | removed answer held =>
      cases failed
      exact ⟨_, held, rfl, rfl⟩
  | barred tool | unstarted tool | ran _ tool => cases tool

/-- A container whose removal failed, after which `later` is called: it is not held, nothing is
asked of the engine for it as long as no other one is launched, neither in calls nor at the end, and
nothing ever if the engine gives no identifier twice. -/
structure Forgotten (identifier : String) (calls later : List Call) (next last : Container) : Prop
    where
  unheld : next.held = none
  silent : ∀ quiet rest, later = quiet ++ rest → launchedIn (saidIn quiet) = [] →
    removedIn (saidIn quiet) = []
  undropped : launchedIn (saidIn later) = [] → ∀ waiting said,
    Program.Trace ((Environment.container last).drop waiting) said () → said = []
  never : (launchedIn (saidIn calls)).Nodup →
    identifier ∉ removedIn (saidIn later) ∧ last.held ≠ some identifier

private theorem Session.forgotten {call : Call} (idle : container.held = none)
    (session : Session container (before ++ call :: later) last)
    (ending : Session next later last) (unheld : next.held = none)
    (asked : removedIn call.said = [identifier]) :
    Forgotten identifier (before ++ call :: later) later next last := by
  refine ⟨unheld, fun quiet rest split unlaunched => ?_, fun unlaunched waiting said dropped => ?_,
    fun distinct => ?_⟩
  · subst split
    obtain ⟨_, beginning, -⟩ := ending.of_append
    exact (beginning.quiet unheld unlaunched).1
  · exact eq_nil_of_drop (ending.quiet unheld unlaunched).2 dropped
  · -- What was launched is what was handed to removal, this container included, and what is held.
    have removals : removedIn (saidIn (before ++ call :: later)) =
        removedIn (saidIn before) ++ identifier :: removedIn (saidIn later) := by
      rw [saidIn, List.flatMap_append, removedIn_append, ← saidIn, ← saidIn, saidIn_cons,
        removedIn_append, asked]
      rfl
    rw [session.balance_of_idle idle, removals, List.append_assoc, List.cons_append] at distinct
    have others := (List.nodup_cons.mp (List.nodup_middle.mp distinct)).1
    simp only [List.mem_append, Option.mem_toList, not_or] at others
    exact others.2

/-- However a container environment is used, and whatever its engine answers: the containers that
were launched are those that were removed, those whose removal failed, and the one that is held.  A
stop that fails gives the engine's failure and forgets the container.  When a container is launched,
all earlier ones were removed or their removal failed. -/
theorem session_forgets_failed (idle : container.held = none)
    (session : Session container calls last) :
    (launchedIn (saidIn calls)).Perm
      (goneIn (saidIn calls) ++ lostIn (saidIn calls) ++ last.held.toList) ∧
    (∀ before said failure later, calls = before ++ ⟨.stop, said, .error failure⟩ :: later →
      ∃ identifier now next, Session container before now ∧ now.held = some identifier ∧
        said = [⟨.remove identifier, .error failure⟩] ∧ Session next later last ∧
        Forgotten identifier calls later next last) ∧
    ∀ before call later, calls = before ++ call :: later →
      ∀ image mount answer, ⟨.launch image mount, answer⟩ ∈ call.said →
        (launchedIn (saidIn before)).Perm (goneIn (saidIn before) ++ lostIn (saidIn before)) ∧
        (lostIn (saidIn before) = [] → launchedIn (saidIn before) = goneIn (saidIn before)) := by
  refine ⟨?_, fun before said failure later split => ?_,
    fun before call later split image mount answer launch => ?_⟩
  · rw [session.balance_of_idle idle]
    exact (removedIn_perm _).append_right _
  · subst split
    obtain ⟨now, beginning, ending⟩ := session.of_append
    cases ending with
    | @call _ next _ _ _ performed rest =>
        obtain ⟨_, same, performs⟩ := trace_perform_iff.mp performed
        cases same
        obtain ⟨identifier, held, rfl, rfl⟩ := performs.of_failed_stop
        exact ⟨identifier, now, _, beginning, held, rfl, rest,
          session.forgotten idle rest rfl rfl⟩
  · subst split
    obtain ⟨now, beginning, ending⟩ := session.of_append
    cases ending with
    | @call _ next _ _ _ performed rest =>
        obtain ⟨_, same, performs⟩ := trace_perform_iff.mp performed
        have orderly := performs.orderly (beginning.balance_of_idle idle)
        have balance := orderly.before
        rw [(orderly.launches image mount answer launch).2.1, Option.toList_none,
          List.append_nil] at balance
        rw [balance]
        exact ⟨removedIn_perm _, removedIn_eq_goneIn⟩

/-! ### A container that is lost -/

/-- A container is launched, its removal fails, it is stopped again, and another one is launched. -/
def relaunching (image mount first second : String) (failure : Failure) : List Call :=
  [⟨.start, [⟨.launch image mount, .ok first⟩], .ok ()⟩,
    ⟨.stop, [⟨.remove first, .error failure⟩], .error failure⟩,
    ⟨.stop, [], .ok ()⟩,
    ⟨.start, [⟨.launch image mount, .ok second⟩], .ok ()⟩]

private theorem session_relaunching {mount : String} (idle : container.held = none)
    (mounts : container.bindMount = .ok mount) (first second : String) (failure : Failure) :
    Session container (relaunching container.image mount first second failure)
      { container with held := some second } := by
  have forgets : { container with held := none } = container := by rw [← idle]
  refine .call (trace_perform_iff.mpr ⟨_, rfl, .launched first idle mounts⟩) <|
    .call (trace_perform_iff.mpr ⟨_, rfl, .removed (.error failure) rfl⟩) ?_
  rw [forgets]
  exact .call (trace_perform_iff.mpr ⟨_, rfl, .absent idle⟩) <|
    .call (trace_perform_iff.mpr ⟨_, rfl, .launched second idle mounts⟩) (.done _)

private theorem bindMount_of_isAbsolute (container : Container)
    (absolute : container.project.isAbsolute = true) :
    container.bindMount = .ok s!"{container.project.text}:{mount.text}:rw" := by
  rw [bindMount, if_pos absolute]

/-- Of two containers that were launched, the first is forgotten and the second is held. -/
theorem session_forgets_failed_relaunching :
    let idle : Container := ⟨"image", ⟨"/p"⟩, ⟨""⟩, none⟩
    let last : Container := { idle with held := some "two" }
    let calls := relaunching "image" "/p:/usr/src/project:rw" "one" "two"
      (.command "docker rm" "busy")
    idle.held = none ∧ Session idle calls last ∧
      ∃ next, Forgotten "one" calls (calls.drop 2) next last := by
  intro idle last calls
  have mounts := bindMount_of_isAbsolute idle (by decide +kernel)
  have session : Session idle calls last := session_relaunching rfl mounts "one" "two" _
  obtain ⟨identifier, now, next, -, -, asked, -, forgotten⟩ :=
    (session_forgets_failed rfl session).2.1 (calls.take 1) _ _ _ rfl
  cases asked
  exact ⟨rfl, session, next, forgotten⟩

/-- After a stop that failed no container is held, another stop asks for nothing, and a second
container is launched; only that one is removed at the end. -/
theorem session_loses_container :
    let idle : Container := ⟨"image", ⟨"/p"⟩, ⟨""⟩, none⟩
    let last : Container := { idle with held := some "two" }
    let calls := relaunching "image" "/p:/usr/src/project:rw" "one" "two"
      (.command "docker rm" "busy")
    idle.held = none ∧ Session idle calls last ∧ Session idle (calls.take 2) idle ∧
      launchedIn (saidIn calls) = ["one", "two"] ∧ goneIn (saidIn calls) = [] ∧
      lostIn (saidIn calls) = ["one"] ∧
      ∀ said, Program.Trace ((Environment.container last).drop true) said () →
        removedIn said = ["two"] := by
  intro idle last calls
  have mounts := bindMount_of_isAbsolute idle (by decide +kernel)
  have session : Session idle calls last := session_relaunching rfl mounts "one" "two" _
  have failed : Session idle (calls.take 2) idle :=
    .call (trace_perform_iff.mpr ⟨_, rfl, .launched "one" rfl mounts⟩) <|
    .call (trace_perform_iff.mpr ⟨_, rfl, .removed (.error _) rfl⟩) (.done idle)
  refine ⟨rfl, session, failed, rfl, rfl, rfl, fun said dropped => ?_⟩
  obtain ⟨answer, later, rfl, ended⟩ := Program.trace_query_bind_iff.mp dropped
  obtain ⟨rfl, -⟩ := Program.trace_done_iff.mp ended
  rfl

end FunctionBundler.Container
