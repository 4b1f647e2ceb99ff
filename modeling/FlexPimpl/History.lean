import FlexPimpl.Steps

namespace FlexPimpl.History
open Settings CodeGenerator Tooling Steps

variable {Record : Type} {host : Host Record} {dchecks : Bool} {s next : State Record}

-- A failed CHECK ends the process. Runs here may go on after a failure, in the
-- state it left, so that what holds of them does not rest on the stop.
def machine (host : Host Record) (dchecks : Bool) :
    Machines.Machine (State Record) (Invocation Record × Except Failure Emission) := fun s row next =>
  row.2 = (invoke host dchecks row.1 s).result ∧ next = (invoke host dchecks row.1 s).state

abbrev Runs (host : Host Record) (dchecks : Bool) (start : State Record)
    (trace : List (Invocation Record × Except Failure Emission)) (s : State Record) : Prop :=
  Machines.Runs (machine host dchecks) start trace s

theorem runs_invoke {start : State Record} {earlier : List (Invocation Record × Except Failure Emission)}
    (prior : Runs host dchecks start earlier s) (invocation : Invocation Record) :
    Runs host dchecks start (earlier ++ [(invocation,(invoke host dchecks invocation s).result)])
      (invoke host dchecks invocation s).state := Machines.Runs.step prior ⟨rfl,rfl⟩

theorem runs_snoc {start : State Record} {trace : List (Invocation Record × Except Failure Emission)}
    {invocation : Invocation Record} {answer : Except Failure Emission} :
    Runs host dchecks start (trace ++ [(invocation,answer)]) s ↔ ∃ middle, Runs host dchecks start trace middle ∧
      answer = (invoke host dchecks invocation middle).result ∧ s = (invoke host dchecks invocation middle).state :=
  Machines.runs_snoc

theorem runs_completed {start : State Record} {earlier : List (Invocation Record × Except Failure Emission)}
    {invocation : Invocation Record} {emission : Emission} (prior : Runs host dchecks start earlier s)
    (ran : invoke host dchecks invocation s = .completed emission next) :
    Runs host dchecks start (earlier ++ [(invocation,.ok emission)]) next := by
  have step := runs_invoke prior invocation
  rwa [ran] at step

@[elab_as_elim]
theorem runs_induct {start : State Record}
    {motive : ∀ trace s, Runs host dchecks start trace s → Prop} (nil : motive [] start .nil)
    (step : ∀ earlier middle invocation prior, motive earlier middle prior →
      motive (earlier ++ [(invocation,(invoke host dchecks invocation middle).result)])
        (invoke host dchecks invocation middle).state (runs_invoke prior invocation))
    {trace : List (Invocation Record × Except Failure Emission)} {final : State Record}
    (path : Runs host dchecks start trace final) : motive trace final path := by
  induction path with
  | nil => exact nil
  | @step earlier middle row after prior answered ih =>
    obtain ⟨invocation,answer⟩ := row
    obtain ⟨same,rfl⟩ := answered
    dsimp only at same
    subst same
    exact step earlier middle invocation prior ih

def Completes (host : Host Record) (dchecks : Bool) (start : State Record)
    (rows : List (Invocation Record × Emission)) (final : State Record) : Prop :=
  Runs host dchecks start (rows.map fun row => (row.1,.ok row.2)) final

theorem Completes.nil {start : State Record} : Completes host dchecks start [] start := Machines.Runs.nil

theorem Completes.completed {start middle : State Record} {earlier : List (Invocation Record × Emission)}
    {invocation : Invocation Record} {emission : Emission} (prior : Completes host dchecks start earlier middle)
    (ran : invoke host dchecks invocation middle = .completed emission next) :
    Completes host dchecks start (earlier ++ [(invocation,emission)]) next := by
  unfold Completes
  rw [List.map_append]
  exact runs_completed prior ran

-- What an injection answers from an entry, and what an invocation asks of the
-- cache once its own checks are passed; `none` when they are not.
def replyOf (reply : ReflectForPimplSettings Record → List Arg → ClassInfo Record → Except Failure Emission)
    (settings : ReflectForPimplSettings Record) (args : List Arg) (info : ClassInfo Record) : Option Emission :=
  if info.methods.isEmpty then none else (reply settings args info).toOption

def operation (host : Host Record) (dchecks : Bool) (invocation : Invocation Record) :
    Option (WriteOnce.Operation String (ClassInfo Record) Emission) :=
  match resolve host dchecks invocation.options.node with
  | .error _ => none
  | .ok (settings,record) =>
    let key := settings.implParameterQualType
    match invocation.rule with
    | .inject_pimpl_storage =>
      some (.read key (replyOf (storageReply host dchecks) settings invocation.options.args))
    | .inject_pimpl_method_calls =>
      some (.read key (replyOf (methodCallsReply host dchecks) settings invocation.options.args))
    | .reflect_for_pimpl =>
      if (host.ReflectClass record).methods.isEmpty then none
      else some (.write key (cleaned (host.ReflectClass record)) ⟨"",[]⟩)

theorem replyOf_some {reply : ReflectForPimplSettings Record → List Arg → ClassInfo Record → Except Failure Emission}
    {settings : ReflectForPimplSettings Record} {args : List Arg} {info : ClassInfo Record} {emission : Emission} :
    replyOf reply settings args info = some emission ↔ info.methods ≠ [] ∧ reply settings args info = .ok emission := by
  unfold replyOf
  cases replied : reply settings args info <;> simp [Except.toOption]

theorem injected_step
    {reply : ReflectForPimplSettings Record → List Arg → ClassInfo Record → Except Failure Emission}
    {options : SourceTransformOptions Record} {settings : ReflectForPimplSettings Record} {record : Record}
    {info : ClassInfo Record} {emission : Emission}
    (injected : Injected host dchecks reply options s emission next settings record info) :
    WriteOnce.Step s.view (.read settings.implParameterQualType (replyOf reply settings options.args))
      emission next.view := by
  rw [injected.after,view_replaceWith]
  exact .read injected.found (replyOf_some.mpr ⟨injected.methods,injected.replied⟩)

-- The handler on shared objects and the write-once store on values take the
-- same steps.
theorem invoke_refines {invocation : Invocation Record} {emission : Emission}
    (ran : invoke host dchecks invocation s = .completed emission next) :
    ∃ planned, operation host dchecks invocation = some planned ∧
      WriteOnce.Step s.view planned emission next.view := by
  obtain ⟨rule,options⟩ := invocation
  cases rule with
  | reflect_for_pimpl =>
    obtain ⟨settings,record,reflected⟩ := reflect_completed ran
    refine ⟨.write settings.implParameterQualType (cleaned (host.ReflectClass record)) ⟨"",[]⟩,?_,?_⟩
    · simp [operation,reflected.resolved,reflected.methods]
    · rw [reflected.stored,reflected.silent]
      exact .write (cached_none.mpr reflected.fresh)
  | inject_pimpl_storage =>
    obtain ⟨settings,record,info,injected⟩ := inject_completed.mp ran
    exact ⟨.read settings.implParameterQualType (replyOf (storageReply host dchecks) settings options.args),
      by simp [operation,injected.resolved],injected_step injected⟩
  | inject_pimpl_method_calls =>
    obtain ⟨settings,record,info,injected⟩ := inject_completed.mp ran
    exact ⟨.read settings.implParameterQualType (replyOf (methodCallsReply host dchecks) settings options.args),
      by simp [operation,injected.resolved],injected_step injected⟩

theorem invoke_completes {invocation : Invocation Record} {emission : Emission}
    {planned : WriteOnce.Operation String (ClassInfo Record) Emission}
    {store : WriteOnce.Store String (ClassInfo Record)}
    (plan : operation host dchecks invocation = some planned)
    (step : WriteOnce.Step s.view planned emission store) :
    ∃ next, invoke host dchecks invocation s = .completed emission next ∧ next.view = store := by
  obtain ⟨rule,options⟩ := invocation
  unfold operation at plan
  split at plan
  · cases plan
  · rename_i settings record resolved
    cases rule with
    | reflect_for_pimpl =>
      dsimp only at plan
      split at plan
      · cases plan
      · rename_i present
        cases plan
        cases step with
        | write absent =>
          obtain ⟨next,ran⟩ := reflect_completes resolved (by simpa using present) (cached_none.mp absent)
          exact ⟨next,ran,(reflect_resolved ran resolved).stored⟩
    | inject_pimpl_storage | inject_pimpl_method_calls =>
      cases plan
      cases step with
      | read found replied =>
        obtain ⟨methods,replied⟩ := replyOf_some.mp replied
        exact ⟨s.replaceWith options.decl emission.replacer,
          inject_completed.mpr ⟨settings,record,_,resolved,found,methods,replied,rfl⟩,rfl⟩

theorem invoke_failed {invocation : Invocation Record} {failure : Failure}
    (ran : invoke host dchecks invocation s = .failed failure next) : SameCache s next := by
  obtain ⟨rule,options⟩ := invocation
  cases rule with
  | reflect_for_pimpl => exact (reflect_failed ran).1
  | inject_pimpl_storage | inject_pimpl_method_calls =>
    rw [inject_failed ran]
    exact SameCache.refl s

def asked (host : Host Record) (dchecks : Bool) (row : Invocation Record × Except Failure Emission) :
    Option (WriteOnce.Operation String (ClassInfo Record) Emission × Emission) :=
  match row.2 with
  | .error _ => none
  | .ok emission => (operation host dchecks row.1).map fun planned => (planned,emission)

theorem runs_refine {start : State Record} {trace : List (Invocation Record × Except Failure Emission)}
    (path : Runs host dchecks start trace s) :
    WriteOnce.Runs start.view (trace.filterMap (asked host dchecks)) s.view := by
  induction path using runs_induct with
  | nil => exact .nil
  | step earlier middle invocation prior ih =>
    rw [List.filterMap_append]
    cases ran : invoke host dchecks invocation middle with
    | completed emission next =>
      obtain ⟨planned,plan,step⟩ := invoke_refines ran
      simpa [Outcome.result,Outcome.state,asked,plan] using WriteOnce.runs_step ih step
    | failed failure next =>
      have silent : [(invocation,(Outcome.failed failure next).result)].filterMap (asked host dchecks) = [] := rfl
      rw [silent,List.append_nil]
      simpa only [Outcome.state,(invoke_failed ran).2] using ih

theorem runs_extends {start : State Record} {trace : List (Invocation Record × Except Failure Emission)}
    (path : Runs host dchecks start trace s) : WriteOnce.Extends start.view s.view :=
  WriteOnce.runs_extends (runs_refine path)

-- Every completed step of a run still has its answer in the final cache.
theorem runs_settled {start : State Record} {trace : List (Invocation Record × Except Failure Emission)}
    {invocation : Invocation Record} {emission : Emission}
    (path : Runs host dchecks start trace s) (member : (invocation,.ok emission) ∈ trace) :
    ∃ planned, operation host dchecks invocation = some planned ∧
      WriteOnce.settled s.view planned = some emission := by
  have planned : ∃ planned, operation host dchecks invocation = some planned := by
    induction path using runs_induct with
    | nil => cases member
    | step earlier middle ran prior ih =>
      rcases List.mem_append.mp member with old | new
      · exact ih old
      · have equal := List.mem_singleton.mp new
        cases outcome : invoke host dchecks ran middle with
        | completed written next =>
          simp only [outcome,Outcome.result,Prod.mk.injEq] at equal
          obtain ⟨planned,plan,_⟩ := invoke_refines outcome
          exact ⟨planned,by rw [equal.1,plan]⟩
        | failed failure next =>
          simp [outcome,Outcome.result] at equal
  obtain ⟨planned,plan⟩ := planned
  refine ⟨planned,plan,?_⟩
  have inside : (planned,emission) ∈ trace.filterMap (asked host dchecks) :=
    List.mem_filterMap.mpr ⟨_,member,by simp [asked,plan]⟩
  exact WriteOnce.runs_settled (runs_refine path) _ inside

theorem reflected_found {reflection : SourceTransformOptions Record} {stored start : State Record}
    {removed : Emission} {settings : ReflectForPimplSettings Record} {record : Record}
    {trace : List (Invocation Record × Except Failure Emission)}
    (reflects : reflectForPimpl host dchecks reflection start = .completed removed stored)
    (resolved : resolve host dchecks reflection.node = .ok (settings,record))
    (path : Runs host dchecks stored trace s) :
    s.view settings.implParameterQualType = some (cleaned (host.ReflectClass record)) := by
  apply runs_extends path
  rw [(reflect_resolved reflects resolved).stored,WriteOnce.put_same]

theorem methodCalls_settled {start : State Record} {trace : List (Invocation Record × Except Failure Emission)}
    {invocation : Invocation Record} {emission : Emission} {settings : ReflectForPimplSettings Record}
    {record : Record} (path : Runs host dchecks start trace s) (member : (invocation,.ok emission) ∈ trace)
    (calls : invocation.rule = .inject_pimpl_method_calls)
    (resolved : resolve host dchecks invocation.options.node = .ok (settings,record)) :
    ∃ info, s.view settings.implParameterQualType = some info ∧
      methodCallsReply host dchecks settings invocation.options.args info = .ok emission := by
  obtain ⟨planned,plan,answer⟩ := runs_settled path member
  simp only [operation,resolved,calls,Option.some.injEq] at plan
  subst plan
  obtain ⟨info,found,replied⟩ := Option.bind_eq_some_iff.mp answer
  exact ⟨info,found,(replyOf_some.mp replied).2⟩

structure ReflectedAs (host : Host Record) (dchecks : Bool) (row : Invocation Record × Except Failure Emission)
    (key : String) (record : Record) : Prop where
  rule : row.1.rule = .reflect_for_pimpl
  completed : ∃ emission, row.2 = .ok emission
  resolved : ∃ settings, resolve host dchecks row.1.options.node = .ok (settings,record) ∧
    settings.implParameterQualType = key

theorem operation_write {invocation : Invocation Record} {key : String} {info : ClassInfo Record} {answer : Emission} :
    operation host dchecks invocation = some (.write key info answer) ↔
      invocation.rule = .reflect_for_pimpl ∧ answer = ⟨"",[]⟩ ∧ ∃ settings record,
        resolve host dchecks invocation.options.node = .ok (settings,record) ∧
        settings.implParameterQualType = key ∧ (host.ReflectClass record).methods ≠ [] ∧
        info = cleaned (host.ReflectClass record) := by
  constructor
  · intro plan
    unfold operation at plan
    split at plan
    · cases plan
    · rename_i settings record resolved
      cases rule : invocation.rule with
      | inject_pimpl_storage | inject_pimpl_method_calls => simp [rule] at plan
      | reflect_for_pimpl =>
        simp only [rule] at plan
        split at plan
        · cases plan
        · rename_i present
          cases plan
          exact ⟨rfl,rfl,settings,record,resolved,rfl,by simpa using present,rfl⟩
  · intro write
    rcases write with ⟨rule,rfl,settings,record,resolved,rfl,methods,rfl⟩
    simp [operation,resolved,rule,methods]

theorem reflected_operation {row : Invocation Record × Except Failure Emission} {planned}
    {key : String} {record : Record} (reflected : ReflectedAs host dchecks row key record)
    (plan : operation host dchecks row.1 = some planned) :
    planned = .write key (cleaned (host.ReflectClass record)) ⟨"",[]⟩ := by
  obtain ⟨settings,resolved,rfl⟩ := reflected.resolved
  simp only [operation,resolved,reflected.rule] at plan
  split at plan
  · cases plan
  · exact (Option.some.inj plan).symm

-- The cache after a run from the empty one: each entry is the filtered
-- reflection of the record that some completed step stored under its key.
theorem view_reflected {trace : List (Invocation Record × Except Failure Emission)}
    (path : Runs host dchecks State.start trace s) (key : String) (info : ClassInfo Record) :
    s.view key = some info ↔
      ∃ row ∈ trace, ∃ record, ReflectedAs host dchecks row key record ∧ info = cleaned (host.ReflectClass record) := by
  rw [WriteOnce.runs_lookup (runs_refine path)]
  simp only [view_start,reduceCtorEq,false_or]
  constructor
  · intro wrote
    rcases wrote with ⟨answer,member⟩
    obtain ⟨⟨planned,emission⟩,inside,rfl⟩ := List.mem_map.mp member
    obtain ⟨row,atRow,step⟩ := List.mem_filterMap.mp inside
    unfold asked at step
    split at step
    · cases step
    · rename_i written ran
      obtain ⟨_,plan,equal⟩ := Option.map_eq_some_iff.mp step
      cases equal
      obtain ⟨rule,_,settings,record,resolved,stored,_,rfl⟩ := operation_write.mp plan
      exact ⟨row,atRow,record,⟨rule,⟨_,ran⟩,settings,resolved,stored⟩,rfl⟩
  · intro earlier
    rcases earlier with ⟨⟨invocation,outcome⟩,member,record,reflected,rfl⟩
    obtain ⟨emission,rfl⟩ := reflected.completed
    obtain ⟨planned,plan,_⟩ := runs_settled path member
    have write := reflected_operation reflected plan
    subst write
    refine ⟨⟨"",[]⟩,List.mem_map.mpr ⟨(_,emission),List.mem_filterMap.mpr ⟨_,member,?_⟩,rfl⟩⟩
    simp [asked,plan]

end FlexPimpl.History
