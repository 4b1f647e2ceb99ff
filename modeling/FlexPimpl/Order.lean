import FlexPimpl.History

namespace FlexPimpl.Order
open Settings CodeGenerator Tooling Steps History

variable {Record : Type} {host : Host Record} {dchecks : Bool} {start s t : State Record}

theorem asked_operations (rows : List (Invocation Record × Emission)) :
    ((rows.map fun row => (row.1,Except.ok row.2)).filterMap (asked host dchecks)).map Prod.fst =
      (rows.map Prod.fst).filterMap (operation host dchecks) := by
  induction rows with
  | nil => rfl
  | cons row rest ih =>
    cases plan : operation host dchecks row.1 with
    | none => simpa [asked,plan] using ih
    | some planned => simpa [asked,plan] using ih

theorem completes_planned {rows : List (Invocation Record × Emission)} (path : Completes host dchecks start rows s) :
    ∀ invocation ∈ rows.map Prod.fst, ∃ planned, operation host dchecks invocation = some planned := by
  intro invocation member
  obtain ⟨row,inside,rfl⟩ := List.mem_map.mp member
  obtain ⟨planned,plan,_⟩ := runs_settled path (List.mem_map.mpr ⟨row,inside,rfl⟩)
  exact ⟨planned,plan⟩

theorem completes_lift {annotations : List (Invocation Record)} {steps store}
    (planned : ∀ invocation ∈ annotations, ∃ planned, operation host dchecks invocation = some planned)
    (same : steps.map Prod.fst = annotations.filterMap (operation host dchecks))
    (path : WriteOnce.Runs start.view steps store) :
    ∃ rows final, rows.map Prod.fst = annotations ∧ Completes host dchecks start rows final ∧ final.view = store := by
  induction annotations using List.reverseRecOn generalizing steps store with
  | nil =>
    have empty : steps = [] := by simpa using same
    subst empty
    exact ⟨[],start,rfl,.nil,(Machines.runs_nil.mp path).symm⟩
  | append_singleton earlier invocation ih =>
    obtain ⟨operation,plan⟩ := planned invocation (by simp)
    rw [List.filterMap_append] at same
    have last : [invocation].filterMap (History.operation host dchecks) = [operation] := by simp [plan]
    rw [last] at same
    obtain ⟨before,after,rfl,sameBefore,sameAfter⟩ := List.map_eq_append_iff.mp same
    obtain ⟨⟨_,answer⟩,rfl,rfl⟩ := List.map_eq_singleton_iff.mp sameAfter
    obtain ⟨middle,prior,step⟩ := Machines.runs_snoc.mp path
    obtain ⟨rows,reached,sameRows,completes,rfl⟩ :=
      ih (fun old member => planned old (List.mem_append_left _ member)) sameBefore prior
    obtain ⟨final,ran,sameStore⟩ := invoke_completes plan step
    exact ⟨rows ++ [(invocation,answer)],final,by simp [sameRows],completes.completed ran,sameStore⟩

theorem operation_isWrite {invocation : Invocation Record} {planned}
    (plan : operation host dchecks invocation = some planned) : planned.isWrite = isReflection invocation := by
  obtain ⟨rule,options⟩ := invocation
  unfold operation at plan
  split at plan
  · cases plan
  · cases rule with
    | inject_pimpl_storage | inject_pimpl_method_calls =>
      cases plan
      rfl
    | reflect_for_pimpl =>
      dsimp only at plan
      split at plan
      · cases plan
      · cases plan
        rfl

theorem operations_isWrite {annotations : List (Invocation Record)} {writes : Bool}
    (all : ∀ invocation ∈ annotations, isReflection invocation = writes) :
    ∀ planned ∈ annotations.filterMap (operation host dchecks), planned.isWrite = writes := by
  intro planned member
  obtain ⟨invocation,inside,plan⟩ := List.mem_filterMap.mp member
  rw [operation_isWrite plan,all invocation inside]

theorem completes_refine {rows : List (Invocation Record × Emission)} (path : Completes host dchecks start rows s) :
    ∃ steps, steps.map Prod.fst = (rows.map Prod.fst).filterMap (operation host dchecks) ∧
      WriteOnce.Runs start.view steps s.view :=
  ⟨_,asked_operations rows,runs_refine path⟩

theorem completes_perm {left right : List (Invocation Record × Emission)}
    (ranLeft : Completes host dchecks start left s) (ranRight : Completes host dchecks start right t)
    (reordered : (left.map Prod.fst).Perm (right.map Prod.fst)) : s.view = t.view := by
  obtain ⟨leftSteps,sameLeft,leftPath⟩ := completes_refine ranLeft
  obtain ⟨rightSteps,sameRight,rightPath⟩ := completes_refine ranRight
  refine WriteOnce.runs_perm leftPath rightPath ?_
  rw [sameLeft,sameRight]
  exact reordered.filterMap _

theorem completes_text {left right : List (Invocation Record × Emission)} {invocation : Invocation Record}
    {first second : Emission} (ranLeft : Completes host dchecks start left s)
    (ranRight : Completes host dchecks start right t) (sameCache : s.view = t.view)
    (atLeft : (invocation,first) ∈ left) (atRight : (invocation,second) ∈ right) : first = second := by
  obtain ⟨planned,plan,answer⟩ := runs_settled ranLeft (List.mem_map.mpr ⟨_,atLeft,rfl⟩)
  obtain ⟨again,replan,reanswer⟩ := runs_settled ranRight (List.mem_map.mpr ⟨_,atRight,rfl⟩)
  rw [plan] at replan
  cases replan
  rw [sameCache,reanswer] at answer
  exact (Option.some.inj answer).symm

theorem completes_reflections_first {rows : List (Invocation Record × Emission)}
    {reflections injections : List (Invocation Record)} (path : Completes host dchecks start rows s)
    (reordered : (rows.map Prod.fst).Perm (reflections ++ injections))
    (onlyReflections : ∀ invocation ∈ reflections, isReflection invocation = true)
    (onlyInjections : ∀ invocation ∈ injections, isReflection invocation = false) :
    ∃ moved final, moved.map Prod.fst = reflections ++ injections ∧ Completes host dchecks start moved final := by
  obtain ⟨steps,same,ran⟩ := completes_refine path
  have operations := reordered.filterMap (operation host dchecks)
  rw [← same,List.filterMap_append] at operations
  obtain ⟨movedSteps,sameMoved,ranMoved⟩ := WriteOnce.writes_first ran operations
    (operations_isWrite onlyReflections) (operations_isWrite onlyInjections)
  rw [← List.filterMap_append] at sameMoved
  have planned : ∀ invocation ∈ reflections ++ injections, ∃ planned, operation host dchecks invocation = some planned :=
    fun invocation member => completes_planned path invocation (reordered.mem_iff.mpr member)
  obtain ⟨moved,final,sameRows,completes,_⟩ := completes_lift planned sameMoved ranMoved
  exact ⟨moved,final,sameRows,completes⟩

-- Two orders of the same annotations that both complete cannot be told apart
-- afterwards, and reflecting first never turns a completing order into a
-- failing one.
theorem runs_order_independent (host : Host Record) (dchecks : Bool) (annotations : List (Invocation Record)) :
    (∀ left right s t, (left.map Prod.fst).Perm annotations → (right.map Prod.fst).Perm annotations →
      Completes host dchecks State.start left s → Completes host dchecks State.start right t →
      s.view = t.view ∧ ∀ invocation ∈ annotations, ∀ first second, (invocation,first) ∈ left →
        (invocation,second) ∈ right → first.replacer = second.replacer) ∧
    (∀ rows s, (rows.map Prod.fst).Perm annotations → Completes host dchecks State.start rows s →
      ∃ moved final, moved.map Prod.fst =
          annotations.filter isReflection ++ annotations.filter (fun invocation => !isReflection invocation) ∧
        Completes host dchecks State.start moved final) := by
  constructor
  · intro left right s t leftOrder rightOrder ranLeft ranRight
    have sameCache := completes_perm ranLeft ranRight (leftOrder.trans rightOrder.symm)
    refine ⟨sameCache,?_⟩
    intro invocation _ first second atLeft atRight
    rw [completes_text ranLeft ranRight sameCache atLeft atRight]
  · intro rows s order path
    refine completes_reflections_first path ?_ ?_ ?_
    · exact order.trans (List.filter_append_perm isReflection annotations).symm
    · exact fun invocation member => (List.mem_filter.mp member).2
    · intro invocation member
      simpa using (List.mem_filter.mp member).2

def fooAndBar : Host Bool := plainHost fun second =>
  if second then ⟨"BarImpl",some true,[{name := "bar",decl := some {annotations := []}}],64,16⟩
  else ⟨"FooImpl",some false,[{name := "foo",decl := some {annotations := []}}],32,8⟩

def fooReflection : Invocation Bool := ⟨.reflect_for_pimpl,plainOptions [plainParameter "impl" "FooImpl" false] []⟩
def barReflection : Invocation Bool := ⟨.reflect_for_pimpl,plainOptions [plainParameter "impl" "BarImpl" true] []⟩
def fooStorage : Invocation Bool :=
  ⟨.inject_pimpl_storage,plainOptions [plainParameter "impl" "FooImpl" false] [⟨"sizePadding","8"⟩]⟩

theorem runs_order_witness :
    ∃ s t, Completes fooAndBar true State.start
        [(fooReflection,⟨"",[]⟩),(fooStorage,⟨storageText "FooImpl" 40 8,[]⟩),(barReflection,⟨"",[]⟩)] s ∧
      Completes fooAndBar true State.start
        [(barReflection,⟨"",[]⟩),(fooReflection,⟨"",[]⟩),(fooStorage,⟨storageText "FooImpl" 40 8,[]⟩)] t ∧
      s.view = t.view := by
  have left := ((Completes.nil.completed (rfl : invoke fooAndBar true fooReflection State.start = .completed _ _)).completed
    (rfl : invoke _ _ fooStorage _ = .completed _ _)).completed (rfl : invoke _ _ barReflection _ = .completed _ _)
  have right := ((Completes.nil.completed (rfl : invoke fooAndBar true barReflection State.start = .completed _ _)).completed
    (rfl : invoke _ _ fooReflection _ = .completed _ _)).completed (rfl : invoke _ _ fooStorage _ = .completed _ _)
  refine ⟨_,_,left,right,?_⟩
  exact ((runs_order_independent fooAndBar true [fooReflection,fooStorage,barReflection]).1 _ _ _ _
    (by decide) (by decide) left right).1

end FlexPimpl.Order
