import Mathlib.Data.List.Induction

namespace Machines

-- A machine is a step relation with labels. Its runs grow at their end, as the
-- histories they are do.
abbrev Machine (State Label : Type) := State → Label → State → Prop

variable {State Other Label : Type} {left : Machine State Label} {right : Machine Other Label}
  {start s next : State} {begin t : Other} {labels : List Label}

inductive Runs (machine : Machine State Label) (start : State) : List Label → State → Prop where
  | nil : Runs machine start [] start
  | step : Runs machine start earlier middle → machine middle label after → Runs machine start (earlier ++ [label]) after

@[simp]
theorem runs_nil {machine : Machine State Label} : Runs machine start [] s ↔ s = start := by
  constructor
  · intro path
    generalize none : ([] : List Label) = labels at path
    cases path with
    | nil => rfl
    | step => simp at none
  · rintro rfl
    exact .nil

theorem runs_snoc {machine : Machine State Label} {label : Label} :
    Runs machine start (labels ++ [label]) s ↔ ∃ middle, Runs machine start labels middle ∧ machine middle label s := by
  constructor
  · intro path
    generalize whole : labels ++ [label] = trace at path
    cases path with
    | nil => simp at whole
    | step prior step =>
      obtain ⟨rfl,last⟩ := List.append_inj' whole rfl
      cases last
      exact ⟨_,prior,step⟩
  · intro steps
    obtain ⟨middle,prior,step⟩ := steps
    exact prior.step step

theorem runs_single {machine : Machine State Label} {label : Label} :
    Runs machine start [label] s ↔ machine start label s := by
  rw [← List.nil_append [label],runs_snoc]
  simp

theorem runs_append {machine : Machine State Label} {later : List Label} :
    Runs machine start (labels ++ later) s ↔ ∃ middle, Runs machine start labels middle ∧ Runs machine middle later s := by
  induction later using List.reverseRecOn generalizing s with
  | nil => simp
  | append_singleton before label ih =>
    simp only [← List.append_assoc,runs_snoc,ih]
    constructor
    · intro steps
      obtain ⟨last,⟨middle,prior,path⟩,step⟩ := steps
      exact ⟨middle,prior,last,path,step⟩
    · intro steps
      obtain ⟨middle,prior,last,path,step⟩ := steps
      exact ⟨last,⟨middle,prior,path⟩,step⟩

theorem runs_unique {machine : Machine State Label}
    (functional : ∀ s label first second, machine s label first → machine s label second → first = second)
    (path : Runs machine start labels s) (again : Runs machine start labels next) : s = next := by
  induction path generalizing next with
  | nil => exact (runs_nil.mp again).symm
  | step prior step ih =>
    obtain ⟨middle,before,last⟩ := runs_snoc.mp again
    rw [← ih before] at last
    exact functional _ _ _ _ step last

-- A place in a history that has grown by one is an old place or the new one.
theorem place_snoc {before earlier later : List Label} {last own : Label}
    (split : before ++ [last] = earlier ++ own :: later) :
    (later = [] ∧ before = earlier ∧ last = own) ∨
      ∃ others, later = others ++ [last] ∧ before = earlier ++ own :: others := by
  induction later using List.reverseRecOn with
  | nil =>
    obtain ⟨rfl,same⟩ := List.append_inj' split rfl
    cases same
    exact Or.inl ⟨rfl,rfl,rfl⟩
  | append_singleton others newest =>
    rw [← List.cons_append,← List.append_assoc] at split
    obtain ⟨rfl,same⟩ := List.append_inj' split rfl
    cases same
    exact Or.inr ⟨others,rfl,rfl⟩

structure Bisimulation (left : Machine State Label) (right : Machine Other Label) (Related : State → Other → Prop) :
    Prop where
  forth : ∀ s t label next, Related s t → left s label next → ∃ after, right t label after ∧ Related next after
  back : ∀ s t label after, Related s t → right t label after → ∃ next, left s label next ∧ Related next after

variable {Related : State → Other → Prop}

theorem Bisimulation.swap (both : Bisimulation left right Related) :
    Bisimulation right left fun t s => Related s t :=
  ⟨fun t s => both.back s t,fun t s => both.forth s t⟩

theorem Bisimulation.runs_forth (both : Bisimulation left right Related) (related : Related start begin)
    (path : Runs left start labels s) : ∃ t, Runs right begin labels t ∧ Related s t := by
  induction path with
  | nil => exact ⟨begin,.nil,related⟩
  | step prior step ih =>
    obtain ⟨middle,earlier,same⟩ := ih
    obtain ⟨after,taken,kept⟩ := both.forth _ _ _ _ same step
    exact ⟨after,earlier.step taken,kept⟩

theorem Bisimulation.same_runs (both : Bisimulation left right Related) (related : Related start begin)
    (labels : List Label) : (∃ s, Runs left start labels s) ↔ ∃ t, Runs right begin labels t := by
  constructor
  · intro ran
    obtain ⟨s,path⟩ := ran
    exact (both.runs_forth related path).imp fun t found => found.1
  · intro ran
    obtain ⟨t,path⟩ := ran
    exact (both.swap.runs_forth related path).imp fun s found => found.1

end Machines
