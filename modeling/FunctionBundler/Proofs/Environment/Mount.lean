/-
Module: FunctionBundler.Proofs.Environment.Mount
Purpose: Which paths of the project a container is given, and where they lead in it.
Trusted boundary: none
Main exports:
  Container.exists_pathInside_iff, Container.pathInside_exact, Container.executableOf?,
  Container.Mirrors, Container.perform_mirrors, Container.perform_escapes
-/
import FunctionBundler.Entry.Packaging
import FunctionBundler.Proofs.Environment.Container
import FunctionBundler.Proofs.Path.Place

namespace FunctionBundler

/-!
A path of the project is given to the container as its components behind those of the
project directory, put behind the mount point.  Nothing else of it counts, and nothing of
it is lost, so the path in the container can be taken back.  But the components are taken
as they are, `..` included: these lead from the mount point where they lead from the
project directory as long as they do not lead above it, and then take away directories
of the mount point instead.
-/

namespace Container

open Environment

variable {container : Container} {path inside : Path}

private theorem isAbsolute_mount : mount.isAbsolute = true := by
  decide +kernel

section

variable (absolute : container.project.isAbsolute = true)
include absolute

/-- A path has one inside the mount exactly if it begins with the project. -/
theorem exists_pathInside_iff :
    (∃ inside, container.pathInside path = .ok inside) ↔
      container.project.components <+: path.components := by
  rw [← Path.exists_stripBase?_iff absolute, pathInside]
  cases path.stripBase? container.project <;> simp

private theorem pathInside_eq_error (outside : ¬container.project.components <+: path.components) :
    container.pathInside path = .error (.outsideProject path container.project) := by
  rw [pathInside]
  cases found : path.stripBase? container.project with
  | none => rfl
  | some rest => exact absurd ((Path.exists_stripBase?_iff absolute).mp ⟨rest, found⟩) outside

/-- Behind the mount point stand the components that stand behind the project directory. -/
theorem exists_below_of_pathInside (found : container.pathInside path = .ok inside) :
    ∃ below, (∀ c ∈ below, Component.IsStep c) ∧
      path.components = container.project.components ++ below ∧
      inside.components = mount.components ++ below := by
  rw [pathInside] at found
  cases cut : path.stripBase? container.project with
  | none =>
      rw [cut] at found
      cases found
  | some rest =>
      rw [cut] at found
      cases found
      have steps := Path.stepsOnly_of_stripBase? absolute cut
      exact ⟨rest.components, steps, Path.components_of_stripBase? absolute cut,
        Path.components_join_of_stepsOnly isAbsolute_mount steps⟩

end

/-- Paths are translated exactly.  A path is given to the container if the components of the project
directory begin its own, and refused otherwise; cut off at the mount point and joined to the project
directory, its place there means the path again; and paths of different components never come to
the same place. -/
theorem pathInside_exact (absolute : container.project.isAbsolute = true) :
    (∀ path, (∃ inside, container.pathInside path = .ok inside) ↔
      container.project.components <+: path.components) ∧
    (∀ path, ¬container.project.components <+: path.components →
      container.pathInside path = .error (.outsideProject path container.project)) ∧
    (∀ path inside, container.pathInside path = .ok inside →
      ∃ rest, inside.stripBase? mount = some rest ∧
        (container.project.join rest).components = path.components) ∧
    ∀ first second one other, container.pathInside first = .ok one →
      container.pathInside second = .ok other →
      (one.components = other.components ↔ first.components = second.components) := by
  refine ⟨fun _ => exists_pathInside_iff absolute, fun _ => pathInside_eq_error absolute,
    fun path inside found => ?_, fun first second one other found also => ?_⟩
  · obtain ⟨below, -, outer, inner⟩ := exists_below_of_pathInside absolute found
    obtain ⟨rest, cut⟩ := (Path.exists_stripBase?_iff isAbsolute_mount).mpr
      (inner ▸ List.prefix_append mount.components below)
    have same : rest.components = below := by
      have split := Path.components_of_stripBase? isAbsolute_mount cut
      exact List.append_cancel_left (split.symm.trans inner)
    refine ⟨rest, cut, ?_⟩
    rw [Path.components_join_of_stepsOnly absolute
      (Path.stepsOnly_of_stripBase? isAbsolute_mount cut), same, outer]
  · obtain ⟨below, -, outer, inner⟩ := exists_below_of_pathInside absolute found
    obtain ⟨below', -, outer', inner'⟩ := exists_below_of_pathInside absolute also
    rw [inner, inner', outer, outer', List.append_cancel_left_eq, List.append_cancel_left_eq]

/-- A project directory in a spelling of its own, a path in it, and one beside it whose text begins
the same way. -/
theorem pathInside_exact_sibling :
    let container : Container := ⟨"image", ⟨"/home//dev/./p/"⟩, ⟨""⟩, none⟩
    container.project.isAbsolute = true ∧
      (∃ inside rest, container.pathInside ⟨"/home/dev/p//build/../app/."⟩ = .ok inside ∧
        inside.stripBase? mount = some rest ∧
        (container.project.join rest).components =
          (⟨"/home/dev/p//build/../app/."⟩ : Path).components) ∧
      container.pathInside ⟨"/home/dev/p-x/app"⟩ =
        .error (.outsideProject ⟨"/home/dev/p-x/app"⟩ container.project) := by
  intro container
  have absolute : container.project.isAbsolute = true := by decide +kernel
  obtain ⟨given, refused, back, -⟩ := pathInside_exact absolute
  obtain ⟨inside, found⟩ := (given ⟨"/home/dev/p//build/../app/."⟩).mpr (by decide +kernel)
  obtain ⟨rest, cut, same⟩ := back _ inside found
  exact ⟨absolute, ⟨inside, rest, found, cut, same⟩, refused _ (by decide +kernel)⟩

/-! ### Where tools are run -/

/-- The executable that an operation runs a tool on. -/
def executableOf? : Operation → Option Path
  | .strip executable | .dependencies executable => some executable
  | .start | .stop | .baseLibraries => none

/-- A path in the container that mirrors a path of the project: the same components stand behind
the mount point and behind the project directory.  Whether it leads to a place under the mount point
depends on how far they lead above where they start, and only if they stay below that do both
paths lead to the same place, each under its own directory. -/
structure Mirrors (project path inside : Path) (below : List Component) : Prop where
  outer : path.components = project.components ++ below
  inner : inside.components = mount.components ++ below
  under_iff : mount.place <+: inside.place ↔
    mount.place.rtake (Trail.of below).up <+: (Trail.of below).down
  inner_iff : inside.place = mount.place ++ (Trail.of below).down ↔ Path.StaysBelow below
  outer_of_staysBelow : Path.StaysBelow below →
    path.place = project.place ++ (Trail.of below).down

private theorem mirrors_of_pathInside (absolute : container.project.isAbsolute = true)
    (found : container.pathInside path = .ok inside) :
    ∃ below, Mirrors container.project path inside below := by
  obtain ⟨below, steps, outer, inner⟩ := exists_below_of_pathInside absolute found
  have rootless : .root ∉ below := fun member => (steps _ member).ne_root rfl
  have placed := Path.place_of_components inner
  have nonempty : mount.place ≠ [] := by decide +kernel
  refine ⟨below, outer, inner, ?_, ?_, fun stays => ?_⟩
  · rw [placed, Path.prefix_placeFrom_iff rootless]
  · rw [placed, ← Path.placeFrom_nil rootless, Path.placeFrom_eq_append_iff rootless]
    exact or_iff_left nonempty
  · rw [Path.place_of_components outer, ← Path.placeFrom_nil rootless]
    exact (Path.placeFrom_eq_append_iff rootless).mpr (Or.inl stays)

private theorem exists_tool? (container : Container) {operation : Operation}
    (tool : executableOf? operation = some path) :
    ∃ program reads, container.tool? operation =
      some ((container.pathInside path).map fun inside => (program, [inside.text]), reads) := by
  cases operation with
  | strip executable | dependencies executable =>
      cases tool
      exact ⟨_, _, rfl⟩
  | start | stop | baseLibraries => cases tool

/-- What a tool on an executable comes to: it is refused for a path that the container is not given,
or nothing else is run than the tool on the path inside. -/
theorem Performs.on_executable {next : Container} {operation : Operation} {said : Said}
    {answer : operation.Answer} (performs : Performs container operation said next answer)
    (tool : executableOf? operation = some path) :
    (∃ failure, container.pathInside path = .error failure ∧ said = [] ∧
        answer = .error failure) ∨
      ∃ inside, container.pathInside path = .ok inside ∧
        ∀ exchange ∈ said, ∃ identifier program printed,
          exchange = ⟨.execute identifier program [inside.text], printed⟩ ∧
            container.held = some identifier := by
  obtain ⟨program, reads, same⟩ := exists_tool? container tool
  cases performs with
  | kept | unmounted | unlaunched | launched | absent | removed => cases tool
  | barred found =>
      rw [same] at found
      cases translated : container.pathInside path with
      | ok inside =>
          rw [translated] at found
          cases found
      | error failure =>
          rw [translated] at found
          cases found
          exact Or.inl ⟨_, rfl, rfl, rfl⟩
  | unstarted found =>
      rw [same] at found
      cases translated : container.pathInside path with
      | error failure =>
          rw [translated] at found
          cases found
      | ok inside => exact Or.inr ⟨inside, rfl, List.forall_mem_nil _⟩
  | @ran _ _ _ identifier printed found held =>
      rw [same] at found
      cases translated : container.pathInside path with
      | error failure =>
          rw [translated] at found
          cases found
      | ok inside =>
          rw [translated] at found
          cases found
          exact Or.inr ⟨inside, rfl, List.forall_mem_singleton.mpr ⟨_, _, _, rfl, held⟩⟩

/-- Tools are run on paths that mirror those of the project.  If stripping the executable of an
entry point, or listing its libraries, runs a command in the container, the command is given a
single path that mirrors the executable; and an executable whose components do not begin with those
of the project directory is refused without a word to the engine. -/
theorem perform_mirrors {build : Build} {entry : EntryPoint} {operation : Operation} {said : Said}
    {environment : Environment} {answer : operation.Answer}
    (absolute : container.project.isAbsolute = true)
    (tool : executableOf? operation = some (build.executable entry))
    (performed : Program.Trace ((Environment.container container).perform operation) said
      (environment, answer)) :
    (∀ exchange ∈ said, ∃ identifier program argument printed below,
      exchange = ⟨.execute identifier program [argument], printed⟩ ∧
        container.held = some identifier ∧
        Mirrors container.project (build.executable entry) ⟨argument⟩ below) ∧
    (¬container.project.components <+: (build.executable entry).components →
      said = [] ∧
        answer = .error (.outsideProject (build.executable entry) container.project)) := by
  obtain ⟨next, -, performs⟩ := trace_perform_iff.mp performed
  rcases performs.on_executable tool with ⟨failure, refused, rfl, rfl⟩ | ⟨inside, given, runs⟩
  · refine ⟨List.forall_mem_nil _, fun outside => ⟨rfl, congrArg Except.error ?_⟩⟩
    exact Except.error.inj (refused.symm.trans (pathInside_eq_error absolute outside))
  · refine ⟨fun exchange member => ?_, fun outside => ?_⟩
    · obtain ⟨identifier, program, printed, same, held⟩ := runs exchange member
      obtain ⟨below, mirrors⟩ := mirrors_of_pathInside absolute given
      exact ⟨identifier, program, inside.text, printed, below, same, held, mirrors⟩
    · exact absurd ((exists_pathInside_iff absolute).mp ⟨inside, given⟩) outside

/-- Stripping an executable that the held container is given. -/
theorem trace_strip {executable : Path} {identifier : String} (printed : Except Failure String)
    (given : container.pathInside executable = .ok inside)
    (held : container.held = some identifier) :
    Program.Trace ((Environment.container container).perform (.strip executable))
      [⟨.execute identifier "strip" [inside.text], printed⟩]
      (.container container, printed.map fun _ => ()) := by
  have tool : container.tool? (.strip executable) =
      some (.ok ("strip", [inside.text]), fun _ => ()) := by
    rw [tool?, given]
    rfl
  exact trace_perform_iff.mpr ⟨container, rfl, .ran printed tool held⟩

/-- A container that has the project `/p` mounted. -/
def mounted : Container :=
  ⟨"image", ⟨"/p"⟩, ⟨"/s"⟩, some "one"⟩

/-- A build in a directory of that project. -/
def mountedBuild : Build :=
  ⟨⟨⟨"/p/build/app"⟩, ⟨"/p/build/app.json"⟩, "app", some ⟨"/s"⟩, ⟨"/p"⟩, some "image", none, true,
    .x86_64, true, none⟩, some ⟨"/s"⟩, none, .standard⟩

/-- An executable beside the build directory, for which a `..` stays in the project. -/
theorem perform_mirrors_beside :
    let entry : EntryPoint := ⟨"../out/app", "", none⟩
    let argument := "/usr/src/project/build/../out/app"
    mounted.project.isAbsolute = true ∧
      Program.Trace ((Environment.container mounted).perform
        (.strip (mountedBuild.executable entry)))
        [⟨.execute "one" "strip" [argument], .ok ""⟩] (.container mounted, .ok ()) ∧
      (⟨argument⟩ : Path).place = mount.place ++ ["out", "app"] := by
  intro entry argument
  have absolute : mounted.project.isAbsolute = true := by decide +kernel
  have given : mounted.pathInside (mountedBuild.executable entry) = .ok ⟨argument⟩ := by
    decide +kernel
  have trace := trace_strip (.ok "") given rfl
  obtain ⟨identifier, program, other, printed, below, same, -, mirrors⟩ :=
    (perform_mirrors absolute rfl trace).1 _ (List.mem_singleton_self _)
  cases same
  have stands : below = [.name "build", .parent, .name "out", .name "app"] :=
    List.append_cancel_left (mirrors.inner.symm.trans (by decide +kernel))
  subst stands
  exact ⟨absolute, trace, mirrors.inner_iff.mpr (by decide +kernel)⟩

/-- Enough `..` lead out of the mount point and out of the project, and the tool is run all the
same: in the container on another file than the one that is packaged. -/
theorem perform_escapes :
    let entry : EntryPoint := ⟨"../../q/app", "", none⟩
    let argument := "/usr/src/project/build/../../q/app"
    mounted.project.isAbsolute = true ∧ .parent ∉ mounted.project.components ∧
      Program.Trace ((Environment.container mounted).perform
        (.strip (mountedBuild.executable entry)))
        [⟨.execute "one" "strip" [argument], .ok ""⟩] (.container mounted, .ok ()) ∧
      (⟨argument⟩ : Path).place = ["usr", "src", "q", "app"] ∧
      ¬mount.place <+: (⟨argument⟩ : Path).place ∧
      (mountedBuild.executable entry).place = ["q", "app"] := by
  intro entry argument
  have given : mounted.pathInside (mountedBuild.executable entry) = .ok ⟨argument⟩ := by
    decide +kernel
  exact ⟨by decide +kernel, by decide +kernel, trace_strip (.ok "") given rfl, by decide +kernel,
    by decide +kernel, by decide +kernel⟩

end Container

end FunctionBundler
