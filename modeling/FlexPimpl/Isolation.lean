import FlexPimpl.History

namespace FlexPimpl.Isolation
open Settings CodeGenerator Tooling Steps History

variable {Record : Type} {host : Host Record} {dchecks : Bool} {start s t : State Record}
  {invocation : Invocation Record} {key : String}

theorem runs_unique {trace : List (Invocation Record × Except Failure Emission)}
    (path : Runs host dchecks start trace s) (again : Runs host dchecks start trace t) : s = t := by
  refine Machines.runs_unique ?_ path again
  intro s label first second left right
  rw [left.2,right.2]

-- The class an annotation is about: the spelling of its impl, when its template
-- parameters are accepted.
def classOf (host : Host Record) (dchecks : Bool) (invocation : Invocation Record) : Option String :=
  match resolve host dchecks invocation.options.node with
  | .error _ => none
  | .ok (settings,_) => some settings.implParameterQualType

def answerOf (reply : ReflectForPimplSettings Record → List Arg → ClassInfo Record → Except Failure Emission)
    (settings : ReflectForPimplSettings Record) (args : List Arg) : Option (ClassInfo Record) → Except Failure Emission
  | none => .error (.notInCache settings.implParameterQualType)
  | some info => if info.methods.isEmpty then .error (.noMethods info.name) else reply settings args info

def reflectionAnswer (info : ClassInfo Record) (entry : Option (ClassInfo Record)) : Except Failure Emission :=
  if info.methods.isEmpty then .error (.noMethods info.name)
  else if entry.isSome then .error (.alreadyInCache info.name) else .ok ⟨"",[]⟩

theorem inject_answer (reply : ReflectForPimplSettings Record → List Arg → ClassInfo Record → Except Failure Emission)
    {options : SourceTransformOptions Record} {settings : ReflectForPimplSettings Record} {record : Record}
    (resolved : resolve host dchecks options.node = .ok (settings,record)) (s : State Record) :
    (inject host dchecks reply options s).result =
      answerOf reply settings options.args (s.view settings.implParameterQualType) := by
  unfold inject reflectFromCache
  rw [resolved]
  cases cached : s.reflectionCache_ settings.implParameterQualType with
  | none => simp [State.view,cached,answerOf,Outcome.result]
  | some pointer =>
    simp only [State.view,cached,Option.map_some,answerOf]
    split
    · rfl
    · cases reply settings options.args (s.heap pointer) <;> rfl

theorem reflect_answer {options : SourceTransformOptions Record} {settings : ReflectForPimplSettings Record}
    {record : Record} (resolved : resolve host dchecks options.node = .ok (settings,record)) (s : State Record) :
    (reflectForPimpl host dchecks options s).result =
      reflectionAnswer (host.ReflectClass record) (s.view settings.implParameterQualType) := by
  unfold reflectForPimpl
  simp only [resolved,heap_allocate]
  have named : ∀ methods, (((s.allocate (host.ReflectClass record)).setMethods s.allocated methods).heap
      s.allocated).name = (host.ReflectClass record).name := by
    intro methods
    simp [State.setMethods,State.allocate]
  unfold reflectionAnswer
  split
  · rfl
  · split <;> rename_i held <;> rw [cache_filtered] at held
    · simp [State.view,held,Outcome.result,named]
    · simp [State.view,held,Outcome.result]

theorem invoke_unresolved {failure : Failure} (refused : resolve host dchecks invocation.options.node = .error failure)
    (s : State Record) : (invoke host dchecks invocation s).result = .error failure := by
  obtain ⟨rule,options⟩ := invocation
  cases rule with
  | inject_pimpl_storage | inject_pimpl_method_calls =>
    simp only [invoke,injectPimplStorage,injectPimplMethodCalls,inject,refused,Outcome.result]
  | reflect_for_pimpl => simp only [invoke,reflectForPimpl,refused,Outcome.result]

theorem invoke_result_congr (same : ∀ key, classOf host dchecks invocation = some key → s.view key = t.view key) :
    (invoke host dchecks invocation s).result = (invoke host dchecks invocation t).result := by
  cases resolved : resolve host dchecks invocation.options.node with
  | error failure => rw [invoke_unresolved resolved,invoke_unresolved resolved]
  | ok found =>
    obtain ⟨rule,options⟩ := invocation
    obtain ⟨settings,record⟩ := found
    simp only [classOf,resolved,Option.some.injEq,forall_eq'] at same
    cases rule with
    | inject_pimpl_storage | inject_pimpl_method_calls =>
      simp only [invoke,injectPimplStorage,injectPimplMethodCalls,inject_answer _ resolved,same]
    | reflect_for_pimpl => simp only [invoke,reflect_answer resolved,same]

theorem invoke_view_other (other : classOf host dchecks invocation ≠ some key) :
    (invoke host dchecks invocation s).state.view key = s.view key := by
  cases ran : invoke host dchecks invocation s with
  | failed failure next => exact congrFun (invoke_failed ran).2 key
  | completed emission next =>
    obtain ⟨rule,options⟩ := invocation
    cases rule with
    | reflect_for_pimpl =>
      obtain ⟨settings,record,reflected⟩ := reflect_completed ran
      have different : key ≠ settings.implParameterQualType := by
        rintro rfl
        exact other (by simp [classOf,reflected.resolved])
      rw [Outcome.state,reflected.stored,WriteOnce.put_other _ _ different]
    | inject_pimpl_storage | inject_pimpl_method_calls =>
      obtain ⟨settings,record,info,injected⟩ := inject_completed.mp ran
      rw [Outcome.state,injected.after,view_replaceWith]

theorem invoke_view_congr (same : s.view key = t.view key) :
    (invoke host dchecks invocation s).state.view key = (invoke host dchecks invocation t).state.view key := by
  by_cases own : classOf host dchecks invocation = some key
  · have results : (invoke host dchecks invocation s).result = (invoke host dchecks invocation t).result := by
      apply invoke_result_congr
      intro other named
      rw [own] at named
      cases named
      exact same
    cases left : invoke host dchecks invocation s with
    | failed failure next =>
      cases right : invoke host dchecks invocation t with
      | failed failure again => simp only [Outcome.state,(invoke_failed left).2,(invoke_failed right).2,same]
      | completed emission again => simp [left,right,Outcome.result] at results
    | completed emission next =>
      cases right : invoke host dchecks invocation t with
      | failed failure again => simp [left,right,Outcome.result] at results
      | completed emission again =>
        obtain ⟨planned,plan,first⟩ := invoke_refines left
        obtain ⟨replanned,replan,second⟩ := invoke_refines right
        rw [plan] at replan
        cases replan
        exact WriteOnce.step_congr first second same
  · rw [invoke_view_other own,invoke_view_other own,same]

def about (host : Host Record) (dchecks : Bool) (key : String) (row : Invocation Record × Except Failure Emission) :
    Bool := classOf host dchecks row.1 == some key

-- Taking every other class out of a run leaves a run of the same answers.
theorem runs_about {trace : List (Invocation Record × Except Failure Emission)} (path : Runs host dchecks start trace s)
    (key : String) :
    ∃ t, Runs host dchecks start (trace.filter (about host dchecks key)) t ∧ t.view key = s.view key := by
  induction path using runs_induct with
  | nil => exact ⟨start,.nil,rfl⟩
  | step earlier middle invocation prior ih =>
    obtain ⟨t,alone,same⟩ := ih
    rw [List.filter_append]
    by_cases own : classOf host dchecks invocation = some key
    · have kept : [(invocation,(invoke host dchecks invocation middle).result)].filter (about host dchecks key) =
          [(invocation,(invoke host dchecks invocation t).result)] := by
        have results : (invoke host dchecks invocation t).result = (invoke host dchecks invocation middle).result := by
          apply invoke_result_congr
          intro other named
          rw [own] at named
          cases named
          exact same
        simp [about,own,results]
      rw [kept]
      exact ⟨_,runs_invoke alone invocation,invoke_view_congr same⟩
    · have dropped : [(invocation,(invoke host dchecks invocation middle).result)].filter (about host dchecks key) = [] := by
        simp [about,own]
      rw [dropped,List.append_nil]
      exact ⟨t,alone,by rw [same,invoke_view_other own]⟩

theorem runs_unresolved {trace : List (Invocation Record × Except Failure Emission)}
    (path : Runs host dchecks start trace s) : ∀ row ∈ trace, ∀ failure,
      resolve host dchecks row.1.options.node = .error failure → row.2 = .error failure := by
  induction path using runs_induct with
  | nil => intro row member; cases member
  | step earlier middle invocation prior ih =>
    intro row member failure refused
    rcases List.mem_append.mp member with old | new
    · exact ih row old failure refused
    · cases List.mem_singleton.mp new
      exact invoke_unresolved refused _

theorem classOf_none (unnamed : classOf host dchecks invocation = none) :
    ∃ failure, resolve host dchecks invocation.options.node = .error failure := by
  unfold classOf at unnamed
  split at unnamed
  · rename_i failure refused
    exact ⟨failure,refused⟩
  · cases unnamed

-- Classes do not meet: answers given to annotations of many classes, in any
-- interleaving, are those of a run exactly when for each class its own part is
-- one, and an annotation that names no class fails as it does alone.
theorem runs_by_class (host : Host Record) (dchecks : Bool) (start : State Record)
    (trace : List (Invocation Record × Except Failure Emission)) :
    (∃ s, Runs host dchecks start trace s) ↔
      (∀ key, ∃ t, Runs host dchecks start (trace.filter (about host dchecks key)) t) ∧
        ∀ row ∈ trace, ∀ failure, resolve host dchecks row.1.options.node = .error failure → row.2 = .error failure := by
  constructor
  · intro ran
    obtain ⟨s,path⟩ := ran
    exact ⟨fun key => (runs_about path key).imp fun t alone => alone.1,runs_unresolved path⟩
  · intro parts
    rcases parts with ⟨each,unresolved⟩
    induction trace using List.reverseRecOn with
    | nil => exact ⟨start,.nil⟩
    | append_singleton earlier row ih =>
      obtain ⟨invocation,answer⟩ := row
      have earlierEach : ∀ key, ∃ t, Runs host dchecks start (earlier.filter (about host dchecks key)) t := by
        intro key
        obtain ⟨t,alone⟩ := each key
        rw [List.filter_append] at alone
        by_cases own : about host dchecks key (invocation,answer) = true
        · rw [List.filter_cons_of_pos own,List.filter_nil] at alone
          obtain ⟨middle,prior,_⟩ := runs_snoc.mp alone
          exact ⟨middle,prior⟩
        · rw [List.filter_cons_of_neg own,List.filter_nil,List.append_nil] at alone
          exact ⟨t,alone⟩
      obtain ⟨s,path⟩ := ih earlierEach fun row member => unresolved row (List.mem_append_left _ member)
      have answered : answer = (invoke host dchecks invocation s).result := by
        cases named : classOf host dchecks invocation with
        | none =>
          obtain ⟨failure,refused⟩ := classOf_none named
          rw [invoke_unresolved refused]
          exact unresolved (invocation,answer) (by simp) failure refused
        | some key =>
          obtain ⟨t,alone⟩ := each key
          have own : about host dchecks key (invocation,answer) = true := by simp [about,named]
          rw [List.filter_append,List.filter_cons_of_pos own,List.filter_nil] at alone
          obtain ⟨middle,prior,rfl,_⟩ := runs_snoc.mp alone
          obtain ⟨same,again,view⟩ := runs_about path key
          rw [runs_unique prior again]
          apply invoke_result_congr
          intro other known
          rw [named] at known
          cases known
          exact view
      rw [answered]
      exact ⟨_,runs_invoke path invocation⟩

end FlexPimpl.Isolation
