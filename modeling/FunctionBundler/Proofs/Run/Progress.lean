/-
Module: FunctionBundler.Proofs.Run.Progress
Purpose: What is told about each entry point in the course of a run matches its outcome.
Trusted boundary: none
Main exports:
  Event.subject?, Event.Final, Outcome.progress, assign, eventsOf, eventsAbout, Narrates,
  Scene.Course.narrates, Scene.trace_progress
-/
import FunctionBundler.Proofs.Deploy.Preview
import FunctionBundler.Proofs.Run.Announcements
import FunctionBundler.Proofs.Run.Isolation

namespace FunctionBundler

/-!
What a task tells is about its entry point.  What the conductor tells as a failure is
about one of the entry points that a panic ended, and these it tells in their order.  So
each event can be assigned to the entry point that it is about, and what is assigned to
one of them is read off what its task has heard.
-/

/-! ### Whom an event is about -/

/-- The entry point that an event is about, if it is about one. -/
def Event.subject? : Event → Option String
  | .packaging entry | .packaged entry _ _ | .deploying entry _ | .deployed entry _ _
  | .failed entry _ => some entry
  | .heading _ | .warning _ => none

/-- An event with which an entry point ends. -/
def Event.Final : Event → Prop
  | .packaged _ _ _ | .deployed _ _ _ | .failed _ _ => True
  | .heading _ | .packaging _ | .deploying _ _ | .warning _ => False

/-- What is told about an entry point that has an outcome, from its beginning to its end. -/
def Outcome.progress (entry : String) : Outcome → List Event
  | .packaged archive size => [.packaging entry, .packaged entry archive size]
  | .deployed function actions =>
      [.packaging entry, .deploying entry function,
        .deployed entry function
          (if actions = [] then "up to date" else ", ".intercalate (actions.map DeployAction.name))]
  | .deployFailed function failure =>
      [.packaging entry, .deploying entry function, .failed entry failure.message]
  | .failed failure => [.packaging entry, .failed entry failure.message]
  | .aborted cause => [.packaging entry, .failed entry s!"packaging task aborted: {cause}"]

/-- What is told in the place of a task that a panic ended. -/
def Outcome.lamented (entry : String) (outcome : Outcome) : List Event :=
  outcome.panic?.toList.map fun cause => (Outcome.aborted cause).event entry

/-- The indices of the entry points that a panic ended, in their order, with their names and the
causes. -/
def abortedFrom : Nat → List (EntryPoint × Outcome) → List (Nat × String × String)
  | _, [] => []
  | index, (entry, outcome) :: later =>
      match outcome.panic? with
      | some cause => (index, entry.fileName, cause) :: abortedFrom (index + 1) later
      | none => abortedFrom (index + 1) later

/-- What was told together with the index of the entry point that it is about: the one whose task
tells it, or the next of those that a panic ended if the conductor tells a failure. -/
def assign : List Nat → List (Actor × Event) → List (Option Nat × Event)
  | _, [] => []
  | aborted, (.entry index, event) :: later => (some index, event) :: assign aborted later
  | index :: aborted, (.conductor, .failed entry reason) :: later =>
      (some index, .failed entry reason) :: assign aborted later
  | aborted, (.conductor, event) :: later => (none, event) :: assign aborted later

/-- The events about the entry point of an index. -/
def eventsOf (index : Nat) (assigned : List (Option Nat × Event)) : List Event :=
  assigned.filterMap fun item => if item.1 = some index then some item.2 else none

/-- What a task tells is about itself. -/
def owned : Actor × Event → Option Nat × Event
  | (.entry index, event) => (some index, event)
  | (.conductor, event) => (none, event)

private theorem eventsOf_append (index : Nat) (before after : List (Option Nat × Event)) :
    eventsOf index (before ++ after) = eventsOf index before ++ eventsOf index after :=
  List.filterMap_append

private theorem map_snd_abortedFrom (results : List (EntryPoint × Outcome)) :
    ∀ index, (abortedFrom index results).map Prod.snd = Run.abortions results := by
  induction results with
  | nil => exact fun _ => rfl
  | cons result later ih =>
      intro index
      obtain ⟨entry, outcome⟩ := result
      have rest := ih (index + 1)
      rw [Run.abortions] at rest ⊢
      rw [abortedFrom]
      cases panics : outcome.panic? with
      | none => simp [panics, rest]
      | some cause => simp [panics, rest]

private theorem assign_tasks {told : List (Actor × Event)} (byTasks : ByTasks told)
    (aborted : List Nat) (later : List (Actor × Event)) :
    assign aborted (told ++ later) = told.map owned ++ assign aborted later := by
  induction told with
  | nil => rfl
  | cons item told ih =>
      obtain ⟨⟨index, same⟩, others⟩ := List.forall_mem_cons.mp byTasks
      obtain ⟨actor, event⟩ := item
      cases same
      rw [List.cons_append, assign, ih others]
      rfl

private theorem assign_laments (aborted : List (Nat × String × String))
    (later : List (Actor × Event)) :
    assign (aborted.map Prod.fst) ((aborted.map Prod.snd).map lament ++ later) =
      (aborted.map fun item => (some item.1, (lament item.2).2)) ++ assign [] later := by
  induction aborted with
  | nil => rfl
  | cons item aborted ih =>
      rw [List.map_cons, List.map_cons, List.map_cons, List.cons_append, List.map_cons,
        List.cons_append, ← ih]
      rfl

private theorem assign_nil (told : List (Actor × Event)) : assign [] told = told.map owned := by
  induction told with
  | nil => rfl
  | cons item told ih =>
      obtain ⟨actor, event⟩ := item
      have first : assign [] ((actor, event) :: told) = owned (actor, event) :: assign [] told := by
        cases actor with
        | conductor => cases event <;> rfl
        | entry => rfl
      rw [first, ih, List.map_cons]

/-- Nothing is added or left out when it is told apart. -/
theorem map_snd_assign (told : List (Actor × Event)) :
    ∀ aborted, (assign aborted told).map Prod.snd = told.map Prod.snd := by
  intro aborted
  induction aborted, told using assign.induct with
  | case1 => simp [assign]
  | case2 _ _ _ _ ih => simp [assign, ih]
  | case3 _ _ _ _ _ ih => simp [assign, ih]
  | case4 _ _ _ _ ih => simp [assign, ih]

/-- What a task tells is what is told by it. -/
theorem eventsOf_owned (index : Nat) (labels : List Label) :
    eventsOf index ((announcements labels).map owned) = announced (heard index labels) := by
  rw [eventsOf, announcements, List.filterMap_map, List.filterMap_filterMap, announced, heard,
    List.filterMap_filterMap]
  congr 1
  funext label
  cases label with
  | moved => rfl
  | exchange actor request reply =>
      cases reply with
      | panicked => cases actor <;> cases request <;> rfl
      | answered answer =>
          cases actor with
          | conductor => cases request <;> simp [Label.announcement?, Label.heard?, owned]
          | entry other =>
              by_cases same : other = index
              · subst same
                cases request <;> simp [Label.announcement?, Label.heard?, announced?, owned]
              · cases request <;> simp [Label.announcement?, Label.heard?, owned, same]

/-- A task that has ended has told what belongs to its outcome. -/
theorem EntryTask.Account.announced_eq {build : Build} {entry : EntryPoint}
    {said : List Exchanged} {outcome : Outcome}
    (account : EntryTask.Account build entry said outcome) :
    outcome.panic? = none ∧ announced said = outcome.progress entry.fileName := by
  cases account with
  | mk lived =>
      rw [announced_append]
      cases lived with
      | failed packaging | packaged packaging =>
          rw [announced_told_cons, Build.announced_of_trace packaging]
          exact ⟨rfl, rfl⟩
      | deployed packaging deploys runs ended =>
          rw [announced_append, announced_told_cons, announced_told_cons,
            Build.announced_of_trace packaging, Reconciliation.announced_of_runs runs,
            ← Reconciliation.function_of_ended runs ended]
          exact ⟨rfl, rfl⟩
      | deployFailed packaging deploys runs ended =>
          rw [announced_append, announced_told_cons, announced_told_cons,
            Build.announced_of_trace packaging, Reconciliation.announced_of_runs runs]
          exact ⟨rfl, rfl⟩

/-! ### What is told about one entry point -/

/-- What is told about the entry point of an index matches its outcome.  If the platform panicked,
it has been told before that the entry point is deployed. -/
inductive Narrates (labels : List Label) (index : Nat) (entry : String) :
    Outcome → List Event → Prop where
  | progress (outcome : Outcome) : Narrates labels index entry outcome (outcome.progress entry)
  | lost {call : RemoteCall} {cause : String} (function : FunctionName)
      (panicked : Label.exchange (.entry index) (.call call) (.panicked cause) ∈ labels) :
      Narrates labels index entry (.aborted cause)
        [.packaging entry, .deploying entry function,
          .failed entry s!"packaging task aborted: {cause}"]

/-- The events about an entry point of this name. -/
def eventsAbout (entry : String) (told : List (Actor × Event)) : List Event :=
  (told.map Prod.snd).filter fun event => event.subject? = some entry

section

variable {labels : List Label} {index : Nat} {entry : String} {outcome : Outcome}
  {events : List Event}

private theorem Outcome.final_event (outcome : Outcome) (entry : String) :
    (outcome.event entry).Final := by
  cases outcome <;> exact trivial

/-- An entry point ends with one final event. -/
theorem Narrates.exists_final (narrates : Narrates labels index entry outcome events) :
    ∃ before, events = before ++ [outcome.event entry] ∧ ∀ earlier ∈ before, ¬earlier.Final := by
  have begun : ∀ earlier ∈ [Event.packaging entry], ¬earlier.Final :=
    List.forall_mem_singleton.mpr id
  have deployed (function : FunctionName) :
      ∀ earlier ∈ [Event.packaging entry, .deploying entry function], ¬earlier.Final :=
    List.forall_mem_cons.mpr ⟨id, List.forall_mem_singleton.mpr id⟩
  cases narrates with
  | lost function => exact ⟨_, rfl, deployed function⟩
  | progress =>
      cases outcome with
      | packaged | failed | aborted => exact ⟨_, rfl, begun⟩
      | deployed function | deployFailed function => exact ⟨_, rfl, deployed function⟩

private theorem Narrates.subject?_eq (narrates : Narrates labels index entry outcome events)
    {event : Event} (member : event ∈ events) : event.subject? = some entry := by
  have all : ∀ event ∈ events, event.subject? = some entry := by
    cases narrates with
    | lost => simp [Event.subject?]
    | progress => cases outcome <;> simp [Outcome.progress, Event.subject?]
  exact all event member

private theorem mem_eventsOf_iff {event : Event} {assigned : List (Option Nat × Event)} :
    event ∈ eventsOf index assigned ↔ (some index, event) ∈ assigned := by
  rw [eventsOf, List.mem_filterMap]
  constructor
  · intro found
    obtain ⟨⟨owner, other⟩, member, same⟩ := found
    dsimp only at same
    split at same
    case isTrue owns =>
        cases same
        rwa [← owns]
    case isFalse => cases same
  · intro member
    exact ⟨_, member, if_pos rfl⟩

/-- Names tell as much as indices if they name the same events. -/
theorem filter_map_snd_eq_eventsOf {assigned : List (Option Nat × Event)}
    (agree : ∀ item ∈ assigned, item.2.subject? = some entry ↔ item.1 = some index) :
    ((assigned.map Prod.snd).filter fun event => event.subject? = some entry) =
      eventsOf index assigned := by
  induction assigned with
  | nil => rfl
  | cons item assigned ih =>
      obtain ⟨now, later⟩ := List.forall_mem_cons.mp agree
      rw [eventsOf, List.map_cons, List.filter_cons, List.filterMap_cons, ih later]
      by_cases own : item.1 = some index
      · simp [own, now.mpr own, eventsOf]
      · simp [own, mt now.mp own, eventsOf]

/-! ### The ends that the conductor tells -/

/-- The ends of the entry points that a panic ended. -/
def lamentsFrom (base : Nat) (results : List (EntryPoint × Outcome)) : List (Option Nat × Event) :=
  (abortedFrom base results).map fun item => (some item.1, (lament item.2).2)

private theorem lamentsFrom_cons (base : Nat) (result : EntryPoint × Outcome)
    (later : List (EntryPoint × Outcome)) :
    lamentsFrom base (result :: later) =
      (result.2.lamented result.1.fileName).map (some base, ·) ++ lamentsFrom (base + 1) later := by
  obtain ⟨entry, outcome⟩ := result
  rw [lamentsFrom, abortedFrom, Outcome.lamented]
  cases outcome.panic? <;> rfl

private theorem index_of_mem_lamentsFrom {results : List (EntryPoint × Outcome)} :
    ∀ {base : Nat}, ∀ item ∈ lamentsFrom base results,
      ∃ index, base ≤ index ∧ index < base + results.length ∧ item.1 = some index := by
  induction results with
  | nil => exact List.forall_mem_nil _
  | cons result later ih =>
      intro base item member
      have inLater (member : item ∈ lamentsFrom (base + 1) later) :
          ∃ index, base ≤ index ∧ index < base + (result :: later).length ∧
            item.1 = some index := by
        obtain ⟨index, above, below, same⟩ := ih item member
        exact ⟨index, by omega, by rw [List.length_cons]; omega, same⟩
      rw [lamentsFrom_cons] at member
      rcases List.mem_append.mp member with now | member
      · obtain ⟨event, -, rfl⟩ := List.mem_map.mp now
        exact ⟨base, Nat.le_refl base, by rw [List.length_cons]; omega, rfl⟩
      · exact inLater member

private theorem eventsOf_eq_nil {assigned : List (Option Nat × Event)}
    (others : ∀ item ∈ assigned, item.1 ≠ some index) : eventsOf index assigned = [] := by
  rw [eventsOf, List.filterMap_eq_nil_iff]
  exact fun item member => if_neg (others item member)

/-- All that is about an entry point is about it. -/
theorem eventsOf_map_own (index : Nat) (events : List Event) :
    eventsOf index (events.map (some index, ·)) = events := by
  rw [eventsOf, List.filterMap_map]
  have same : (fun item : Option Nat × Event =>
      if item.1 = some index then some item.2 else none) ∘ (some index, ·) = some :=
    funext fun event => if_pos rfl
  rw [same, List.filterMap_some]

private theorem eventsOf_lamentsFrom {results : List (EntryPoint × Outcome)} {entry : EntryPoint} :
    ∀ (base : Nat) {offset : Nat}, results[offset]? = some (entry, outcome) →
      eventsOf (base + offset) (lamentsFrom base results) = outcome.lamented entry.fileName := by
  induction results with
  | nil => exact fun _ _ => nofun
  | cons result later ih =>
      intro base offset there
      rw [lamentsFrom_cons, eventsOf_append]
      cases offset with
      | zero =>
          cases there
          have rest : eventsOf (base + 0) (lamentsFrom (base + 1) later) = [] := by
            apply eventsOf_eq_nil
            intro item member same
            obtain ⟨index, above, -, other⟩ := index_of_mem_lamentsFrom item member
            cases other.symm.trans same
            omega
          rw [rest, List.append_nil]
          exact eventsOf_map_own base _
      | succ offset =>
          have first : eventsOf (base + (offset + 1))
              ((result.2.lamented result.1.fileName).map (some base, ·)) = [] := by
            apply eventsOf_eq_nil
            intro item member same
            obtain ⟨event, -, rfl⟩ := List.mem_map.mp member
            cases same
          rw [first, List.nil_append, ← ih (base + 1) there]
          congr 1
          omega

private theorem assign_headed (aborted : List Nat) (later : List (Actor × Event)) :
    assign aborted (headed :: later) = (none, .heading "Packaging") :: assign aborted later := by
  cases aborted <;> rfl

/-- What the conductor tells, no task tells. -/
theorem eventsOf_conductor {told : List (Actor × Event)}
    (conducted : ∀ item ∈ told, item.1 = .conductor) : eventsOf index (told.map owned) = [] := by
  apply eventsOf_eq_nil
  intro item member same
  obtain ⟨⟨actor, event⟩, listed, rfl⟩ := List.mem_map.mp member
  cases conducted _ listed
  cases same

end

namespace Telling

variable {labels : List Label} {results : List (EntryPoint × Outcome)}
  {told closing : List (Actor × Event)}

/-- What is told after the heading, and whom it is about. -/
def rest (results : List (EntryPoint × Outcome)) (told closing : List (Actor × Event)) :
    List (Option Nat × Event) :=
  told.map owned ++ (lamentsFrom 0 results ++ closing.map owned)

private theorem assign_eq (telling : Telling labels results told closing) :
    assign ((abortedFrom 0 results).map Prod.fst) (announcements labels) =
      (none, .heading "Packaging") :: rest results told closing := by
  rw [telling.whole, assign_headed, assign_tasks telling.byTasks,
    ← map_snd_abortedFrom results 0, assign_laments, assign_nil]
  rfl

/-- What closes the telling is told by the conductor. -/
theorem conducted (telling : Telling labels results told closing) :
    ∀ item ∈ closing, item.1 = .conductor := by
  intro item member
  obtain ⟨message, rfl⟩ := telling.warns item member
  rfl

/-- What tasks tell is told by the tasks, or in their place. -/
theorem eventsOf_told (telling : Telling labels results told closing) (index : Nat) :
    eventsOf index (told.map owned) = announced (heard index labels) := by
  have lamented : ∀ item ∈ (Run.abortions results).map lament, item.1 = .conductor := by
    intro item member
    obtain ⟨name, -, rfl⟩ := List.mem_map.mp member
    rfl
  have others := List.forall_mem_append.mpr ⟨lamented, telling.conducted⟩
  rw [← eventsOf_owned, telling.whole, List.map_cons, List.map_append, ← List.singleton_append,
    eventsOf_append, eventsOf_append, eventsOf_conductor others, List.append_nil]
  rfl

private theorem eventsOf_rest (telling : Telling labels results told closing) {index : Nat}
    {entry : EntryPoint} {outcome : Outcome} (there : results[index]? = some (entry, outcome)) :
    eventsOf index (rest results told closing) =
      announced (heard index labels) ++ outcome.lamented entry.fileName := by
  have lamented := eventsOf_lamentsFrom 0 there
  rw [Nat.zero_add] at lamented
  rw [rest, eventsOf_append, eventsOf_append, telling.eventsOf_told, lamented,
    eventsOf_conductor telling.conducted, List.append_nil]

end Telling

namespace Scene

variable {build : Build} {permits : Nat} {entries : List EntryPoint} {files : Files}
  {keeps : Scene → Label → Scene → Prop} {labels : List Label} {last : Scene}

/-- What a task has told, and the end that is told in its place if a panic ended it. -/
theorem Course.narrates (course : Course keeps (start build permits entries files) labels last)
    {index : Nat} {entry : EntryPoint} {outcome : Outcome} (there : entries[index]? = some entry)
    (ends : Ends build entry index labels outcome) :
    Narrates labels index entry.fileName outcome
      (announced (heard index labels) ++ outcome.lamented entry.fileName) := by
  cases ends with
  | account account unharmed =>
      obtain ⟨unaborted, same⟩ := account.announced_eq
      rw [same, Outcome.lamented, unaborted]
      change Narrates _ _ _ _ (_ ++ [])
      rw [List.append_nil]
      exact .progress outcome
  | @panicked request cause panicked =>
      obtain ⟨panicking, ⟨entry', there', wants⟩, -⟩ := course.of_panicked panicked
      cases there.symm.trans there'
      generalize heard index labels = said at wants
      cases wants with
      | tells => rcases panicking with ⟨_, same⟩ | ⟨_, same⟩ <;> cases same
      | packages reaches =>
          rw [announced_told_cons, Build.announced_of_reaches reaches]
          exact .progress (.aborted cause)
      | reconciles packaging deploys runs asks =>
          rw [announced_append, announced_told_cons, announced_told_cons,
            Build.announced_of_trace packaging, Reconciliation.announced_of_runs runs]
          rcases panicking with ⟨operation, rfl⟩ | ⟨call, rfl⟩
          · rcases Reconciliation.asks_remotely asks with ⟨_, same⟩ | same | ⟨_, same⟩ <;>
              cases same
          · exact .lost _ panicked

/-- After the heading, everything but warnings is about an entry point. -/
theorem Course.about (course : Course keeps (start build permits entries files) labels last)
    {results : List (EntryPoint × Outcome)} {told closing : List (Actor × Event)}
    (telling : Telling labels results told closing) (sameLength : results.length = entries.length) :
    ∀ item ∈ Telling.rest results told closing,
      (∃ message, item = (none, .warning message)) ∨
        ∃ index < entries.length, item.1 = some index := by
  refine List.forall_mem_append.mpr ⟨fun item member => ?_, List.forall_mem_append.mpr
    ⟨fun item member => ?_, fun item member => ?_⟩⟩
  · obtain ⟨⟨actor, event⟩, inTold, rfl⟩ := List.mem_map.mp member
    obtain ⟨index, same⟩ := telling.byTasks _ inTold
    cases same
    have listed : (.entry index, event) ∈ announcements labels := by
      rw [telling.whole]
      exact List.mem_cons_of_mem _ (List.mem_append_left _ inTold)
    exact Or.inr ⟨index, course.lt_of_announcement listed, rfl⟩
  · obtain ⟨index, -, below, same⟩ := index_of_mem_lamentsFrom item member
    exact Or.inr ⟨index, by omega, same⟩
  · obtain ⟨warning, inClosing, rfl⟩ := List.mem_map.mp member
    obtain ⟨message, rfl⟩ := telling.warns warning inClosing
    exact Or.inl ⟨message, rfl⟩

/-- Where names differ, the events about an entry point are those that name it. -/
theorem subject?_eq_iff {results : List (EntryPoint × Outcome)} {rest : List (Option Nat × Event)}
    (about : ∀ item ∈ rest, (∃ message, item = (none, .warning message)) ∨
      ∃ index < results.length, item.1 = some index)
    (narrates : ∀ {index entry outcome}, results[index]? = some (entry, outcome) →
      Narrates labels index entry.fileName outcome (eventsOf index rest))
    (distinct : (results.map fun result => result.1.fileName).Nodup) {index : Nat}
    {entry : EntryPoint} {outcome : Outcome} (there : results[index]? = some (entry, outcome)) :
    ∀ item ∈ rest, item.2.subject? = some entry.fileName ↔ item.1 = some index := by
  intro item member
  rcases about item member with ⟨message, rfl⟩ | ⟨other, below, owner⟩
  · exact ⟨nofun, nofun⟩
  have found : results[other]? = some results[other] := List.getElem?_eq_getElem below
  have named : item.2.subject? = some results[other].1.fileName := by
    refine (narrates found).subject?_eq (mem_eventsOf_iff.mpr ?_)
    rwa [← owner]
  rw [named, owner]
  constructor
  · intro same
    have names : (results.map fun result => result.1.fileName)[other]? =
        (results.map fun result => result.1.fileName)[index]? := by
      rw [List.getElem?_map, List.getElem?_map, found, there]
      exact same
    have inside : other < (results.map fun result => result.1.fileName).length := by
      rwa [List.length_map]
    exact congrArg some ((List.getElem?_inj inside distinct).mp names)
  · intro same
    cases same
    rw [Option.some.inj (found.symm.trans there)]

/-- In every run that is over and whose environment has started, the heading is told first, and
after it only about the entry points, warnings apart.  What is told about one of them, by its task
or in its place, is what its outcome says, and has one final event, which is the last.  With
different names, these are the events that name it. -/
theorem trace_progress (build : Build) (permits : Nat) (entries : List EntryPoint) (files : Files)
    {labels : List Label} {last : Scene}
    (trace : Scene.Trace (start build permits entries files) labels last) (isOver : last.Over)
    (started : startLabel (.answered (.ok ())) ∈ labels) :
    ∃ results later, last.run.results? = some results ∧ results.map Prod.fst = entries ∧
      (∀ report, last.run.report? = some report → report = .ok ⟨results⟩) ∧
      assign ((abortedFrom 0 results).map Prod.fst) (announcements labels) =
        (none, .heading "Packaging") :: later ∧
      (∀ item ∈ later, (∃ message, item = (none, .warning message)) ∨
        ∃ index < entries.length, item.1 = some index) ∧
      ∀ index entry outcome, results[index]? = some (entry, outcome) →
        Narrates labels index entry.fileName outcome (eventsOf index later) ∧
        (∃ before, eventsOf index later = before ++ [outcome.event entry.fileName] ∧
          (outcome.event entry.fileName).Final ∧ ∀ earlier ∈ before, ¬earlier.Final) ∧
        ((entries.map EntryPoint.fileName).Nodup →
          eventsAbout entry.fileName (announcements labels) = eventsOf index later) := by
  have course := course_of_trace trace
  obtain ⟨results, told, closing, found, returns, telling⟩ := course.exists_telling isOver started
  obtain ⟨inOrder, ends⟩ := course.of_results? found
  have sameLength : results.length = entries.length := by rw [← inOrder, List.length_map]
  have about := course.about telling sameLength
  have narrates {index : Nat} {entry : EntryPoint} {outcome : Outcome}
      (there : results[index]? = some (entry, outcome)) :
      Narrates labels index entry.fileName outcome
        (eventsOf index (Telling.rest results told closing)) := by
    rw [telling.eventsOf_rest there]
    exact course.narrates (ends index entry outcome there).1 (ends index entry outcome there).2
  refine ⟨results, _, found, inOrder, returns, telling.assign_eq, about,
    fun index entry outcome there => ⟨narrates there, ?_, fun distinct => ?_⟩⟩
  · obtain ⟨before, same, unfinished⟩ := (narrates there).exists_final
    exact ⟨before, same, outcome.final_event _, unfinished⟩
  · rw [← sameLength] at about
    rw [← inOrder, List.map_map] at distinct
    rw [← filter_map_snd_eq_eventsOf (subject?_eq_iff about narrates distinct there), eventsAbout,
      ← map_snd_assign (announcements labels) ((abortedFrom 0 results).map Prod.fst),
      telling.assign_eq]
    rfl

/-- The environment panics while it lists the libraries of the only entry point: the conductor tells
its end. -/
theorem trace_progress_panicked :
    let parameters : Parameters := ⟨"f", 128, 3, 512⟩
    let entry : EntryPoint := ⟨"b", Base64.encode (Codec.encode parameters.toValue), none⟩
    let build : Build := ⟨⟨⟨"/p/app"⟩, ⟨"/p/app.json"⟩, "app", none, ⟨"/p"⟩, none, none, false,
      .x86_64, false, none⟩, none, none, .standard⟩
    let files : Files := ⟨[], [(["p"], .directory), (["p", "b"], .file [2])]⟩
    ∃ labels last, Scene.Trace (start build 1 [entry] files) labels last ∧ last.Over ∧
      last.run.report? = some (.ok ⟨[(entry, .aborted "no such tool")]⟩) ∧
      eventsAbout "b" (announcements labels) =
        [.packaging "b", .failed "b" "packaging task aborted: no such tool"] := by
  intro parameters entry build files
  let answers := FixedAnswers.listing fun _ => .panicked "no such tool"
  have stays (packaged : Packaged) : build.deployment? packaged = none := rfl
  have known : entry.parameters = .ok parameters :=
    EntryPoint.parameters_toValue _ _ ⟨by decide, by decide, by decide⟩ (by decide)
  have alone : build.packagedAlone answers files entry = .error "no such tool" := by
    rw [Build.packagedAlone, Build.package, known]
    decide +kernel
  obtain ⟨labels, last, course, isOver⟩ :=
    exists_over (Habit.live_settled answers) (start build 1 [entry] files)
  have reported := course.report?_eq stays (Apart.singleton entry) isOver
  rw [List.map_singleton, Build.outcomeAlone, alone] at reported
  have started : startLabel (.answered (.ok ())) ∈ labels := by
    cases course.parts isOver with
    | crashed whole => cases course.starts whole
    | stopped whole =>
        cases course.starts whole
        rw [whole]
        exact List.mem_cons_self
  obtain ⟨results, later, -, -, returns, -, -, narrates⟩ :=
    trace_progress build 1 [entry] files course.trace isOver started
  cases returns _ reported
  obtain ⟨narrated, -, named⟩ := narrates 0 entry (.aborted "no such tool") rfl
  refine ⟨labels, last, course.trace, isOver, reported, (named (by simp)).trans ?_⟩
  generalize eventsOf 0 later = events at narrated
  cases narrated with
  | progress => rfl
  | lost _ panicked =>
      -- Nothing is called in a run that does not deploy.
      obtain ⟨-, ⟨_, _, wants⟩, -⟩ := course.of_panicked panicked
      generalize heard 0 labels = said at wants
      cases wants with
      | packages reaches => cases (Build.asks_of_reaches reaches).1
      | reconciles _ deploys => cases (stays _).symm.trans deploys

end Scene

end FunctionBundler
