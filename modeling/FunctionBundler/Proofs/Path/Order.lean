/-
Module: FunctionBundler.Proofs.Path.Order
Purpose: The order of paths by their components, and where it is not the order of their texts.
Trusted boundary: none
Main exports:
  Component.Less, Path.Precedes, Path.Crosses, Path.compare_eq_lt_iff, Path.text_lt_iff
-/
import FunctionBundler.Proofs.Path.Rebasing
import FunctionBundler.Proofs.Text.Order

namespace FunctionBundler

/-!
Where two paths first differ, the order of the paths compares two components, and the order
of their plain texts compares what is written from there on.  Neither text of two such
components begins the other unless the lesser component's text begins the greater one's.
In that case the texts go on: one with a character of a name, the other one with a
separator or not at all.  A separator is not the least character, so the text of the lesser
path can be the greater one.
-/

/-! ### Components -/

namespace Component

/-- The order of components: the root, then `.`, then `..`, then names by their bytes. -/
inductive Less : Component → Component → Prop where
  | kind {c d : Component} (rank : c.rank < d.rank) : Less c d
  | name {first second : String} (bytes : Bytes.ofText first < Bytes.ofText second) :
      Less (.name first) (.name second)

/-- One component compares below another exactly if it is less. -/
theorem compare_eq_lt_iff {c d : Component} : compare c d = .lt ↔ Less c d := by
  have parts : compare c d = .lt ↔ c.rank < d.rank ∨ c.rank = d.rank ∧ c.text < d.text := by
    change (Ord.compare c.rank d.rank).then (Ord.compare c.text d.text) = .lt ↔ _
    rw [Ordering.then_eq_lt, Nat.compare_eq_lt, Nat.compare_eq_eq]
    exact or_congr_right (and_congr_right fun _ => compareOfLessAndEq_eq_lt)
  rw [parts]
  constructor
  · rintro (rank | ⟨same, text⟩)
    · exact .kind rank
    · cases c with
      | name first =>
          cases d with
          | name second => exact .name (Bytes.ofText_lt_iff.mpr text)
          | root | current | parent => cases same
      | root | current | parent =>
          cases d with
          | root | current | parent | name =>
              first
              | exact absurd text (String.lt_irrefl _)
              | cases same
  · intro less
    cases less with
    | kind rank => exact Or.inl rank
    | name bytes => exact Or.inr ⟨rfl, Bytes.ofText_lt_iff.mp bytes⟩

private theorem Less.ne {c d : Component} (less : Less c d) : c ≠ d := by
  rintro rfl
  have same : compare c c = .eq := Std.ReflCmp.compare_self
  cases (compare_eq_lt_iff.mpr less).symm.trans same

/-- What a component of a path can be: the root or `.` at its start, or a step. -/
def Stands (c : Component) : Prop :=
  c = .root ∨ c = .current ∨ c.IsStep

variable {c d : Component}

private theorem Stands.separator_not_mem (stands : c.Stands) : '/' ∉ c.text.toList := by
  rcases stands with rfl | rfl | step
  · decide
  · decide
  · exact step.2

/-- A step's text begins `..` only as a whole. -/
theorem IsStep.eq_parent_of_prefix (step : d.IsStep) (begins : d.text.toList <+: ['.', '.']) :
    d = .parent := by
  rcases List.prefix_cons_iff.mp begins with none | ⟨more, text, others⟩
  · exact absurd none step.text_ne_nil
  rcases List.prefix_cons_iff.mp others with rfl | ⟨last, rfl, ended⟩
  · exact absurd text step.text_ne_dot
  · have read := step.1
    rw [text, List.prefix_nil.mp ended] at read
    exact (Option.some.inj read).symm

/-- The text of a greater component does not begin that of a lesser one. -/
theorem Less.not_prefix (less : Less c d) (stands : d.Stands) :
    ¬d.text.toList <+: c.text.toList := by
  intro begins
  cases less with
  | @name first second bytes =>
      have before := String.lt_iff_toList_lt.mp (Bytes.ofText_lt_iff.mp bytes)
      obtain ⟨more, same⟩ := begins
      rw [← show second.toList ++ more = first.toList from same] at before
      exact List.not_lt.mpr List.le_append_left before
  | kind rank =>
      rcases stands with rfl | rfl | step
      · exact Nat.not_lt_zero _ rank
      · cases c with
        | root => exact absurd (List.prefix_nil.mp begins) (by decide)
        | current | parent | name => exact absurd rank (by simp [Component.rank])
      · cases c with
        | name => cases d <;> exact absurd rank (by simp [Component.rank])
        | parent =>
            rw [step.eq_parent_of_prefix begins] at rank
            exact Nat.lt_irrefl _ rank
        | root | current =>
            rw [step.eq_parent_of_prefix (begins.trans (by decide))] at begins
            exact absurd begins (by decide)

end Component

/-! ### Paths -/

namespace Path

open Component

/-- One list of components comes before another: it begins it, or it has the lesser component where
the two first differ. -/
inductive Precedes : List Component → List Component → Prop where
  | begins (before : List Component) (c : Component) (rest : List Component) :
      Precedes before (before ++ c :: rest)
  | differs (common : List Component) {c d : Component} (rest others : List Component)
      (less : Less c d) : Precedes (common ++ c :: rest) (common ++ d :: others)

/-- What precedes still does behind a common component. -/
theorem Precedes.cons {first second : List Component} (precedes : Precedes first second)
    (c : Component) : Precedes (c :: first) (c :: second) := by
  cases precedes with
  | begins _ d rest => exact .begins (c :: first) d rest
  | differs common rest others less => exact .differs (c :: common) rest others less

private theorem compareLex_eq_lt_iff {first second : List Component} :
    List.compareLex Component.compare first second = .lt ↔ Precedes first second := by
  constructor
  · intro less
    induction first generalizing second with
    | nil =>
        cases second with
        | nil => cases less
        | cons d others => exact .begins [] d others
    | cons c rest ih =>
        cases second with
        | nil => cases less
        | cons d others =>
            rw [List.compareLex_cons_cons, Ordering.then_eq_lt] at less
            rcases less with less | ⟨same, less⟩
            · exact .differs [] rest others (compare_eq_lt_iff.mp less)
            · cases eq_of_compare_eq same
              exact (ih less).cons c
  · intro precedes
    have common (c : Component) : Component.compare c c = .eq := Std.ReflCmp.compare_self
    cases precedes with
    | begins _ d rest =>
        induction first with
        | nil => rfl
        | cons c first ih =>
            rw [List.cons_append, List.compareLex_cons_cons, common]
            exact ih
    | differs shared rest others less =>
        induction shared with
        | nil =>
            rw [List.nil_append, List.nil_append, List.compareLex_cons_cons,
              compare_eq_lt_iff.mpr less]
            rfl
        | cons c shared ih =>
            rw [List.cons_append, List.cons_append, List.compareLex_cons_cons, common]
            exact ih

/-! ### Plain texts -/

/-- Components as they are written behind others, each behind a separator. -/
def separated (rest : List Component) : List Char :=
  rest.flatMap fun c => '/' :: c.text.toList

/-- What is written behind a component: a separator follows the root even where it stands alone. -/
def following (c : Component) (rest : List Component) : List Char :=
  if c = .root ∧ rest = [] then ['/'] else separated rest

/-- What is written before a component that comes behind others. -/
def leading : List Component → List Char
  | [] => []
  | c :: rest => c.text.toList ++ separated rest ++ ['/']

private theorem following_of_ne_nil (c : Component) {rest : List Component} (more : rest ≠ []) :
    following c rest = separated rest :=
  if_neg fun alone => more alone.2

private theorem intercalate_map_text (c : Component) (rest : List Component) :
    List.intercalate ['/'] ((c :: rest).map fun c => c.text.toList) =
      c.text.toList ++ separated rest := by
  rw [List.map_cons, Text.intercalate_cons, List.flatMap_map, separated]

private theorem chars_ofComponents_cons (c : Component) (rest : List Component) :
    (ofComponents (c :: rest)).chars = c.text.toList ++ following c rest := by
  cases c with
  | root =>
      cases rest with
      | nil => rfl
      | cons d others =>
          rw [following_of_ne_nil _ (List.cons_ne_nil d others), ofComponents, chars,
            String.toList_ofList, intercalate_map_text]
          rfl
  | current | parent | name =>
      rw [following, if_neg fun alone => Component.noConfusion alone.1, ofComponents, ofPieces,
        chars, String.toList_ofList, intercalate_map_text]
      exact fun _ same => Component.noConfusion (List.cons.inj same).1

private theorem chars_ofComponents_append {c : Component} {common rest : List Component}
    (inside : common = [] ∨ c ≠ .root) :
    (ofComponents (common ++ c :: rest)).chars =
      leading common ++ (c.text.toList ++ following c rest) := by
  cases common with
  | nil => exact chars_ofComponents_cons c rest
  | cons first common =>
      have step : c ≠ .root := inside.resolve_left (List.cons_ne_nil first common)
      have more : common ++ c :: rest ≠ [] :=
        List.append_ne_nil_of_right_ne_nil _ (List.cons_ne_nil c rest)
      rw [List.cons_append, chars_ofComponents_cons, following_of_ne_nil _ more, following,
        if_neg fun alone => step alone.1]
      simp [leading, separated]

/-! ### The order of texts -/

private theorem append_lt_append_iff {first second rest others : List Char}
    (differs : ¬first <+: second)
    (apart : ¬second <+: first) : first ++ rest < second ++ others ↔ first < second := by
  induction first generalizing second with
  | nil => exact absurd List.nil_prefix differs
  | cons c first ih =>
      cases second with
      | nil => exact absurd List.nil_prefix apart
      | cons d second =>
          rw [List.cons_append, List.cons_append, List.cons_lt_cons_iff, List.cons_lt_cons_iff]
          refine or_congr_right (and_congr_right ?_)
          rintro rfl
          rw [List.cons_prefix_cons] at differs apart
          exact ih (fun begins => differs ⟨rfl, begins⟩) fun begins => apart ⟨rfl, begins⟩

private theorem append_left_lt_iff {common first second : List Char} :
    common ++ first < common ++ second ↔ first < second := by
  induction common with
  | nil => rfl
  | cons c common ih =>
      rw [List.cons_append, List.cons_append, List.cons_lt_cons_iff, ih]
      exact ⟨fun less => (less.resolve_left (lt_irrefl c)).2, fun less => Or.inr ⟨rfl, less⟩⟩

/-- The texts of two paths that first differ in a component `c`, before others, and in a greater `d`
are not in the order of the paths: the text of `d` is the lesser one, or it continues that of `c`
with a character below the separator that stands behind `c`. -/
def Crossed (c : Component) (rest : List Component) (d : Component) : Prop :=
  d.text < c.text ∨ (c = .root ∨ rest ≠ []) ∧
    ∃ next more, d.text.toList = c.text.toList ++ next :: more ∧ next < '/'

/-- The texts of two paths are not in the order of the paths. -/
def Crosses : List Component → List Component → Prop
  | c :: rest, d :: others => if c = d then Crosses rest others else Crossed c rest d
  | _, _ => False

/-- What is written behind a component begins with a separator, if there is anything. -/
theorem following_eq (c : Component) (rest : List Component) :
    (c = .root ∨ rest ≠ []) ∧ (∃ more, following c rest = '/' :: more) ∨
      ¬(c = .root ∨ rest ≠ []) ∧ following c rest = [] := by
  cases rest with
  | nil =>
      by_cases isRoot : c = .root
      · exact Or.inl ⟨Or.inl isRoot, [], if_pos ⟨isRoot, rfl⟩⟩
      · exact Or.inr ⟨by simpa using isRoot, if_neg fun alone => isRoot alone.1⟩
  | cons d others =>
      have more : d :: others ≠ [] := List.cons_ne_nil d others
      exact Or.inl ⟨Or.inr more, _, following_of_ne_nil c more⟩

/-- From the first difference on, the texts are in the order of the components unless they cross. -/
theorem lt_iff_not_crossed {c d : Component} {rest others : List Component} (less : Less c d)
    (stands : d.Stands) :
    c.text.toList ++ following c rest < d.text.toList ++ following d others ↔
      ¬Crossed c rest d := by
  have apart := less.not_prefix stands
  by_cases begins : c.text.toList <+: d.text.toList
  · obtain ⟨continued, text⟩ := begins
    obtain ⟨next, more, rfl⟩ := List.exists_cons_of_ne_nil (l := continued) fun none =>
      apart ⟨[], by rw [← text, none, List.append_nil, List.append_nil]⟩
    have notSooner : ¬d.text < c.text := by
      rw [String.lt_iff_toList_lt, ← text]
      exact List.not_lt.mpr List.le_append_left
    have notSeparator : next ≠ '/' := by
      rintro rfl
      exact stands.separator_not_mem (text ▸ List.mem_append_right _ List.mem_cons_self)
    have crossed : Crossed c rest d ↔ (c = .root ∨ rest ≠ []) ∧ next < '/' := by
      rw [Crossed, or_iff_right notSooner]
      refine and_congr_right fun _ => ⟨?_, fun below => ⟨next, more, text.symm, below⟩⟩
      rintro ⟨next', more', text', below⟩
      cases List.append_cancel_left (text.trans text')
      exact below
    rw [crossed, ← text, List.append_assoc, append_left_lt_iff]
    rcases following_eq c rest with ⟨goesOn, written, same⟩ | ⟨ends, same⟩
    · rw [same, List.cons_append, List.cons_lt_cons_iff, and_iff_right goesOn, not_lt,
        or_iff_left fun equal => notSeparator equal.1.symm]
      exact ⟨le_of_lt, fun above => lt_of_le_of_ne above (Ne.symm notSeparator)⟩
    · rw [same]
      exact iff_of_true (List.nil_lt_cons _ _) fun goesOn => ends goesOn.1
  · have notContinued :
        ¬∃ next more, d.text.toList = c.text.toList ++ next :: more ∧ next < '/' := by
      rintro ⟨next, more, text, -⟩
      exact begins ⟨_, text.symm⟩
    have differs : c.text ≠ d.text := fun same => begins (same ▸ List.prefix_refl _)
    rw [append_lt_append_iff begins apart, Crossed, ← String.lt_iff_toList_lt,
      or_iff_left fun continued => notContinued continued.2, not_lt]
    exact ⟨le_of_lt, fun less => lt_of_le_of_ne less differs⟩

/-! ### Paths and their texts -/

private theorem crosses_append (common : List Component) {c d : Component}
    {rest others : List Component} (differs : c ≠ d) :
    Crosses (common ++ c :: rest) (common ++ d :: others) ↔ Crossed c rest d := by
  induction common with
  | nil => rw [List.nil_append, List.nil_append, Crosses, if_neg differs]
  | cons first common ih => rwa [List.cons_append, List.cons_append, Crosses, if_pos rfl]

private theorem not_crosses_append (before rest : List Component) :
    ¬Crosses before (before ++ rest) := by
  induction before with
  | nil => exact fun crosses => crosses
  | cons c before ih => rwa [List.cons_append, Crosses, if_pos rfl]

private theorem stands_of_mem_components {path : Path} {c : Component}
    (member : c ∈ path.components) :
    c.Stands := by
  obtain ⟨body, steps, shape⟩ := components_shape path
  rcases shape with shape | shape | shape
  · rw [shape, List.mem_cons] at member
    exact member.imp id fun inBody => Or.inr (steps c inBody)
  · rw [shape, List.mem_cons] at member
    exact Or.inr (member.imp id (steps c))
  · exact Or.inr (Or.inr (steps c (shape ▸ member)))

/-- Behind other components stand steps alone. -/
theorem isStep_of_components_eq {path : Path} {c : Component} {common rest : List Component}
    (split : path.components = common ++ c :: rest) (inside : common ≠ []) : c.IsStep := by
  obtain ⟨first, others, rfl⟩ := List.exists_cons_of_ne_nil inside
  have member : c ∈ others ++ c :: rest := List.mem_append_right _ List.mem_cons_self
  obtain ⟨body, steps, shape⟩ := components_shape path
  rcases shape with shape | shape | shape
  · exact steps c ((List.cons.inj (split.symm.trans shape)).2 ▸ member)
  · exact steps c ((List.cons.inj (split.symm.trans shape)).2 ▸ member)
  · exact steps c (shape ▸ split ▸ List.mem_append_right _ List.mem_cons_self)

private theorem inside_of_components_eq {path : Path} {c : Component} {common rest : List Component}
    (split : path.components = common ++ c :: rest) : common = [] ∨ c ≠ .root :=
  (eq_or_ne common []).imp id fun inside => (isStep_of_components_eq split inside).ne_root

private theorem chars_normalize_of_eq {path : Path} {c : Component} {common rest : List Component}
    (split : path.components = common ++ c :: rest) :
    path.normalize.chars = leading common ++ (c.text.toList ++ following c rest) := by
  rw [normalize, split, chars_ofComponents_append (inside_of_components_eq split)]

/-- A path that goes on has a longer text. -/
theorem exists_chars_normalize_append {path : Path} {c : Component} {before rest : List Component}
    (split : path.components = before ++ c :: rest) :
    ∃ more, more ≠ [] ∧ path.normalize.chars = (ofComponents before).chars ++ more := by
  rw [chars_normalize_of_eq split]
  cases before with
  | nil =>
      refine ⟨c.text.toList ++ following c rest, ?_, rfl⟩
      have member : c ∈ path.components := by
        rw [split]
        exact List.mem_cons_self
      have stands := stands_of_mem_components member
      rcases stands with rfl | rfl | step
      · rcases following_eq .root rest with ⟨-, more, same⟩ | ⟨ends, -⟩
        · rw [same]
          exact List.append_ne_nil_of_right_ne_nil _ (List.cons_ne_nil '/' more)
        · exact absurd (Or.inl rfl) ends
      · exact List.cons_ne_nil _ _
      · exact List.append_ne_nil_of_left_ne_nil step.text_ne_nil _
  | cons first before =>
      have step := isStep_of_components_eq split (List.cons_ne_nil first before)
      by_cases alone : first = .root ∧ before = []
      · obtain ⟨rfl, rfl⟩ := alone
        exact ⟨_, List.append_ne_nil_of_left_ne_nil step.text_ne_nil _, rfl⟩
      · have same : following first before = separated before := if_neg alone
        refine ⟨'/' :: (c.text.toList ++ following c rest), List.cons_ne_nil _ _, ?_⟩
        rw [chars_ofComponents_cons, same, leading, List.append_assoc]
        rfl

variable {first second : Path}

/-- Paths are ordered by the first component in which they differ. -/
theorem compare_eq_lt_iff :
    first.compare second = .lt ↔ Precedes first.components second.components :=
  compareLex_eq_lt_iff

/-- The plain texts of two paths are in the order of the paths unless they cross. -/
theorem text_lt_iff (less : first.compare second = .lt) :
    first.normalize.text < second.normalize.text ↔
      ¬Crosses first.components second.components := by
  have precedes := compare_eq_lt_iff.mp less
  rw [String.lt_iff_toList_lt]
  change first.normalize.chars < second.normalize.chars ↔ _
  generalize isFirst : first.components = before at precedes
  generalize isSecond : second.components = behind at precedes
  cases precedes with
  | begins _ c rest =>
      obtain ⟨more, some, longer⟩ := exists_chars_normalize_append isSecond
      have shorter : first.normalize.chars = (ofComponents before).chars := by
        rw [normalize, isFirst]
      rw [longer, shorter]
      obtain ⟨next, more, rfl⟩ := List.exists_cons_of_ne_nil some
      refine iff_of_true ?_ (not_crosses_append before _)
      nth_rewrite 1 [← List.append_nil (ofComponents before).chars]
      exact append_left_lt_iff.mpr (List.nil_lt_cons _ _)
  | differs common rest others lesser =>
      have stands := stands_of_mem_components
        (isSecond ▸ List.mem_append_right _ List.mem_cons_self : _ ∈ second.components)
      rw [chars_normalize_of_eq isFirst, chars_normalize_of_eq isSecond, append_left_lt_iff,
        crosses_append common lesser.ne, lt_iff_not_crossed lesser stands]

end Path

end FunctionBundler
