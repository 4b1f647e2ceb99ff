import FlexPimpl.Isolation

namespace FlexPimpl.Heap
open Settings CodeGenerator Tooling Steps History

variable {Record : Type} {host : Host Record} {dchecks : Bool} {s t : State Record}
  {trace : List (Invocation Record × Except Failure Emission)} {invocation : Invocation Record}
  {answer : Except Failure Emission}

-- A reflection whose template parameters are accepted makes an object for the
-- class, whether it completes afterwards or not.
structure Attempt (Record : Type) where
  key : String
  record : Record
deriving DecidableEq, Repr

def attempt (host : Host Record) (dchecks : Bool) (row : Invocation Record × Except Failure Emission) :
    Option (Attempt Record) :=
  if isReflection row.1 then
    (resolve host dchecks row.1.options.node).toOption.map fun found => ⟨found.1.implParameterQualType,found.2⟩
  else none

def attempts (host : Host Record) (dchecks : Bool) (trace : List (Invocation Record × Except Failure Emission)) :
    List (Attempt Record) := trace.filterMap (attempt host dchecks)

def stores (host : Host Record) (key : String) (attempt : Attempt Record) : Bool :=
  attempt.key == key && !(host.ReflectClass attempt.record).methods.isEmpty

def edit (row : Invocation Record × Except Failure Emission) : Option Edit :=
  match row.2 with
  | .ok emission => some ⟨row.1.options.decl,emission.replacer⟩
  | .error _ => none

-- The state a history leads to, in closed form: one object for each attempt at
-- its place among them, each key bound to the first attempt that stores it, and
-- one edit for each answer that is not a failure.
def stateAfter (host : Host Record) (dchecks : Bool) (trace : List (Invocation Record × Except Failure Emission)) :
    State Record where
  heap := fun pointer => ((attempts host dchecks trace)[pointer]?.map fun attempt =>
    cleaned (host.ReflectClass attempt.record)).getD default
  allocated := (attempts host dchecks trace).length
  reflectionCache_ := fun key => (attempts host dchecks trace).findIdx? (stores host key)
  edits := trace.filterMap edit
  live := fun _ _ cached => (List.findIdx?_eq_some_iff_getElem.mp cached).1

theorem state_ext (heap : s.heap = t.heap) (allocated : s.allocated = t.allocated)
    (reflectionCache_ : s.reflectionCache_ = t.reflectionCache_) (edits : s.edits = t.edits) : s = t := by
  obtain ⟨_,_,_,_,_⟩ := s
  obtain ⟨_,_,_,_,_⟩ := t
  cases heap
  cases allocated
  cases reflectionCache_
  cases edits
  rfl

theorem attempts_snoc (row : Invocation Record × Except Failure Emission) :
    attempts host dchecks (trace ++ [row]) = attempts host dchecks trace ++ (attempt host dchecks row).toList := by
  unfold attempts
  rw [List.filterMap_append]
  cases made : attempt host dchecks row <;> simp [made]

theorem edits_snoc (row : Invocation Record × Except Failure Emission) :
    (stateAfter host dchecks (trace ++ [row])).edits = (stateAfter host dchecks trace).edits ++ (edit row).toList := by
  unfold stateAfter
  rw [List.filterMap_append]
  cases told : edit row <;> simp [told]

theorem quiet_snoc (trace : List (Invocation Record × Except Failure Emission))
    {row : Invocation Record × Except Failure Emission} (quiet : attempt host dchecks row = none) :
    (stateAfter host dchecks (trace ++ [row])).heap = (stateAfter host dchecks trace).heap ∧
      (stateAfter host dchecks (trace ++ [row])).allocated = (stateAfter host dchecks trace).allocated ∧
      (stateAfter host dchecks (trace ++ [row])).reflectionCache_ = (stateAfter host dchecks trace).reflectionCache_ := by
  simp only [stateAfter,attempts_snoc,quiet,Option.toList_none,List.append_nil,and_self]

section Snoc
variable {row : Invocation Record × Except Failure Emission} {tried : Attempt Record}
  (made : attempt host dchecks row = some tried)
include made

theorem heap_snoc : (stateAfter host dchecks (trace ++ [row])).heap = fun pointer =>
    if pointer = (stateAfter host dchecks trace).allocated then cleaned (host.ReflectClass tried.record)
    else (stateAfter host dchecks trace).heap pointer := by
  funext pointer
  have objects : (stateAfter host dchecks (trace ++ [row])).heap pointer =
      ((attempts host dchecks trace ++ [tried])[pointer]?.map fun attempt =>
        cleaned (host.ReflectClass attempt.record)).getD default := by
    simp only [stateAfter,attempts_snoc,made,Option.toList_some]
  have size : (stateAfter host dchecks trace).allocated = (attempts host dchecks trace).length := rfl
  rw [objects]
  rcases Nat.lt_trichotomy pointer (attempts host dchecks trace).length with before | same | after
  · rw [List.getElem?_append_left before,if_neg (by omega)]
    rfl
  · rw [if_pos (by omega),same,List.getElem?_concat_length]
    rfl
  · have outside : (attempts host dchecks trace ++ [tried])[pointer]? = none := by
      rw [List.getElem?_eq_none_iff,List.length_append,List.length_singleton]
      omega
    have unused : (attempts host dchecks trace)[pointer]? = none := List.getElem?_eq_none_iff.mpr (Nat.le_of_lt after)
    rw [outside,if_neg (by omega)]
    simp only [stateAfter,unused]

theorem allocated_snoc :
    (stateAfter host dchecks (trace ++ [row])).allocated = (stateAfter host dchecks trace).allocated + 1 := by
  simp [stateAfter,attempts_snoc,made]

theorem cache_snoc : (stateAfter host dchecks (trace ++ [row])).reflectionCache_ = fun key =>
    ((stateAfter host dchecks trace).reflectionCache_ key).or
      (if stores host key tried then some (stateAfter host dchecks trace).allocated else none) := by
  funext key
  simp only [stateAfter,attempts_snoc,made,Option.toList_some,List.findIdx?_append]
  cases stored : stores host key tried <;> simp [stored]

end Snoc

theorem attempt_reflection {options : SourceTransformOptions Record} {settings : ReflectForPimplSettings Record}
    {record : Record} (resolved : resolve host dchecks options.node = .ok (settings,record)) :
    attempt host dchecks (⟨.reflect_for_pimpl,options⟩,answer) = some ⟨settings.implParameterQualType,record⟩ := by
  simp [attempt,isReflection,resolved,Except.toOption]

theorem attempt_refused {failure : Failure} (refused : resolve host dchecks invocation.options.node = .error failure) :
    attempt host dchecks (invocation,answer) = none := by
  simp [attempt,refused,Except.toOption]

theorem heap_reflected (s : State Record) (info : ClassInfo Record) :
    ((s.allocate info).setMethods s.allocated (info.methods.filter keepsMethod)).heap = fun pointer =>
      if pointer = s.allocated then cleaned info else s.heap pointer := by
  funext pointer
  by_cases same : pointer = s.allocated <;> simp [State.setMethods,State.allocate,cleaned,same]

theorem cleaned_empty {info : ClassInfo Record} (none : info.methods = []) : cleaned info = info := by
  obtain ⟨name,decl,methods,size,alignment⟩ := info
  cases none
  rfl

theorem reflect_step (trace : List (Invocation Record × Except Failure Emission))
    (options : SourceTransformOptions Record) {outcome : Outcome Record}
    (ran : reflectForPimpl host dchecks options (stateAfter host dchecks trace) = outcome) :
    outcome.state = stateAfter host dchecks (trace ++ [(⟨.reflect_for_pimpl,options⟩,outcome.result)]) := by
  unfold reflectForPimpl at ran
  split at ran
  · rename_i failure refused
    subst ran
    have quiet : attempt host dchecks (⟨.reflect_for_pimpl,options⟩,.error failure) = none := attempt_refused refused
    obtain ⟨heap,allocated,cache⟩ := quiet_snoc trace quiet
    exact state_ext heap.symm allocated.symm cache.symm (by simp [edits_snoc,edit,Outcome.state,Outcome.result])
  · rename_i settings record resolved
    have made : ∀ answer, attempt host dchecks (⟨.reflect_for_pimpl,options⟩,answer) =
        some ⟨settings.implParameterQualType,record⟩ := fun _ => attempt_reflection resolved
    simp only [heap_allocate,cache_filtered] at ran
    split at ran
    · rename_i empty
      subst ran
      have none : (host.ReflectClass record).methods = [] := List.isEmpty_iff.mp empty
      apply state_ext
      · rw [heap_snoc (made _),cleaned_empty none]
        rfl
      · rw [allocated_snoc (made _)]
        rfl
      · rw [cache_snoc (made _)]
        funext key
        simp [Outcome.state,State.allocate,stores,none]
      · simp [edits_snoc,edit,Outcome.state,Outcome.result,State.allocate]
    · rename_i present
      split at ran
      · rename_i pointer cached
        subst ran
        apply state_ext
        · rw [heap_snoc (made _)]
          exact heap_reflected _ _
        · rw [allocated_snoc (made _)]
          rfl
        · rw [cache_snoc (made _)]
          funext key
          by_cases same : settings.implParameterQualType = key
          · subst same
            simp [Outcome.state,cache_filtered,cached]
          · simp [Outcome.state,cache_filtered,stores,same]
        · simp [edits_snoc,edit,Outcome.state,Outcome.result,State.allocate,State.setMethods]
      · rename_i fresh
        subst ran
        apply state_ext
        · rw [heap_snoc (made _)]
          exact heap_reflected _ _
        · rw [allocated_snoc (made _)]
          rfl
        · rw [cache_snoc (made _)]
          funext key
          by_cases same : key = settings.implParameterQualType
          · subst same
            simp [Outcome.state,State.replaceWith,State.insert,fresh,stores,present]
          · have other : stores host key ⟨settings.implParameterQualType,record⟩ = false := by
              simp [stores,Ne.symm same]
            simp [Outcome.state,State.replaceWith,State.insert,cache_filtered,same,other]
        · simp [edits_snoc,edit,Outcome.state,Outcome.result,State.allocate,State.setMethods,State.insert,
            State.replaceWith]

theorem inject_step (reply : ReflectForPimplSettings Record → List Arg → ClassInfo Record → Except Failure Emission)
    (trace : List (Invocation Record × Except Failure Emission)) {invocation : Invocation Record}
    (injector : isReflection invocation = false) {outcome : Outcome Record}
    (ran : inject host dchecks reply invocation.options (stateAfter host dchecks trace) = outcome) :
    outcome.state = stateAfter host dchecks (trace ++ [(invocation,outcome.result)]) := by
  have quiet : ∀ answer, attempt host dchecks (invocation,answer) = none := by simp [attempt,injector]
  cases outcome with
  | failed failure next =>
    obtain ⟨heap,allocated,cache⟩ := quiet_snoc trace (quiet (.error failure))
    rw [Outcome.state,inject_failed ran]
    exact state_ext heap.symm allocated.symm cache.symm (by simp [edits_snoc,edit,Outcome.result])
  | completed emission next =>
    obtain ⟨heap,allocated,cache⟩ := quiet_snoc trace (quiet (.ok emission))
    obtain ⟨settings,record,info,injected⟩ := inject_completed.mp ran
    rw [Outcome.state,injected.after]
    exact state_ext heap.symm allocated.symm cache.symm
      (by simp [edits_snoc,edit,Outcome.result,State.replaceWith])

theorem invoke_step (trace : List (Invocation Record × Except Failure Emission)) (invocation : Invocation Record) :
    (invoke host dchecks invocation (stateAfter host dchecks trace)).state = stateAfter host dchecks
      (trace ++ [(invocation,(invoke host dchecks invocation (stateAfter host dchecks trace)).result)]) := by
  obtain ⟨rule,options⟩ := invocation
  cases rule with
  | inject_pimpl_storage => exact inject_step (storageReply host dchecks) trace rfl rfl
  | inject_pimpl_method_calls => exact inject_step (methodCallsReply host dchecks) trace rfl rfl
  | reflect_for_pimpl => exact reflect_step trace options rfl

theorem stateAfter_nil (host : Host Record) (dchecks : Bool) : stateAfter host dchecks [] = State.start :=
  state_ext rfl rfl rfl rfl

-- The whole state, objects and addresses included, is a function of the history:
-- a list of answers is a run exactly when each is what its invocation gives in
-- the state of the answers before it.
theorem runs_exact (host : Host Record) (dchecks : Bool) (trace : List (Invocation Record × Except Failure Emission))
    (s : State Record) : Runs host dchecks State.start trace s ↔
      s = stateAfter host dchecks trace ∧ ∀ earlier invocation answer later,
        trace = earlier ++ (invocation,answer) :: later →
          answer = (invoke host dchecks invocation (stateAfter host dchecks earlier)).result := by
  induction trace using List.reverseRecOn generalizing s with
  | nil =>
    rw [stateAfter_nil]
    constructor
    · intro path
      refine ⟨Machines.runs_nil.mp path,?_⟩
      intro earlier invocation answer later split
      simp at split
    · intro both
      rw [both.1]
      exact .nil
  | append_singleton before row ih =>
    obtain ⟨invocation,answer⟩ := row
    constructor
    · intro path
      obtain ⟨middle,prior,rfl,rfl⟩ := runs_snoc.mp path
      obtain ⟨rfl,answers⟩ := (ih middle).mp prior
      refine ⟨invoke_step before invocation,?_⟩
      intro earlier own given later split
      rcases Machines.place_snoc split with ⟨_,rfl,same⟩ | ⟨others,_,old⟩
      · cases same
        rfl
      · exact answers earlier own given others old
    · intro both
      rcases both with ⟨rfl,answers⟩
      have prior := (ih _).mpr ⟨rfl,fun earlier own given later split =>
        answers earlier own given (later ++ [(invocation,answer)]) (by simp [split])⟩
      rw [answers before invocation answer [] rfl,← invoke_step before invocation]
      exact runs_invoke prior invocation

-- The other way to a class, which no handler takes: it reflects first, and turns
-- to the cache for a class without methods.
def reflectOrGetFromCache (host : Host Record) (reflect_target : Record) (settings : ReflectForPimplSettings Record)
    (s : State Record) : Except Failure Nat × State Record :=
  let reflectedClass := s.allocated
  let reflected := s.allocate (host.ReflectClass reflect_target)
  if (reflected.heap reflectedClass).methods.isEmpty then
    match reflected.reflectionCache_ settings.implParameterQualType with
    | some cached => (.ok cached,reflected)
    | none => (.error (.notInCache settings.implParameterQualType),reflected)
  else (.ok reflectedClass,reflected)

-- Where an injector finds a class, this way leads to the same one exactly when
-- there is nothing to reflect or nothing was cleaned from it; the cache stays as it is.
theorem lookups_agree {settings : ReflectForPimplSettings Record} {record : Record} {pointer : Nat}
    (found : reflectFromCache s settings = .ok pointer) :
    SameCache s (reflectOrGetFromCache host record settings s).2 ∧ ∃ other,
      (reflectOrGetFromCache host record settings s).1 = .ok other ∧
        ((reflectOrGetFromCache host record settings s).2.heap other = s.heap pointer ↔
          (host.ReflectClass record).methods = [] ∨ host.ReflectClass record = s.heap pointer) := by
  have cached := reflectFromCache_some.mp found
  have older : pointer ≠ s.allocated := by
    rintro rfl
    exact not_cached_fresh s _ cached
  have kept : (s.allocate (host.ReflectClass record)).reflectionCache_ settings.implParameterQualType = some pointer := cached
  unfold reflectOrGetFromCache
  simp only [heap_allocate,kept]
  split
  · rename_i empty
    refine ⟨⟨rfl,view_allocate _ _⟩,pointer,rfl,iff_of_true ?_ (Or.inl (List.isEmpty_iff.mp empty))⟩
    simp [State.allocate,older]
  · rename_i present
    refine ⟨⟨rfl,view_allocate _ _⟩,s.allocated,rfl,?_⟩
    rw [heap_allocate]
    exact (or_iff_right fun none => present (List.isEmpty_iff.mpr none)).symm

end FlexPimpl.Heap
