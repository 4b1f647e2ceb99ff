import FlexPimpl.History

namespace FlexPimpl.Entries
open Settings CodeGenerator Tooling Steps History

variable {Record : Type} {host : Host Record} {dchecks : Bool} {s next : State Record}

-- flexlib's reflector keeps the declaration it was given.
def RecordsDecl (host : Host Record) : Prop := ∀ record, (host.ReflectClass record).decl = some record

@[simp] theorem cleaned_decl (info : ClassInfo Record) : (cleaned info).decl = info.decl := rfl

def ArgsAccepted (host : Host Record) (dchecks : Bool) (invocation : Invocation Record) : Prop :=
  match invocation.rule with
  | .inject_pimpl_storage => ∃ extra_size_bytes, parseStorageArgs host dchecks invocation.options.args 0 = .ok extra_size_bytes
  | .inject_pimpl_method_calls => ∃ without_method_body, parseMethodCallsArgs dchecks invocation.options.args false = .ok without_method_body
  | .reflect_for_pimpl => True

theorem resolve_named {node : AnnotatedNode Record} {settings : ReflectForPimplSettings Record} {record : Record}
    (resolved : resolve host dchecks node = .ok (settings,record)) : settings.implParameterQualType ≠ "" := by
  unfold resolve at resolved
  split at resolved
  · cases resolved
  · rename_i parsed
    split at resolved
    · cases resolved
    · rename_i denoted
      cases resolved
      obtain ⟨name,template⟩ := node
      cases template with
      | none => simp [getReflectForPimplSettings] at parsed
      | some parameters =>
        apply settings_named parsed
        intro unset
        simp [implRecord,unset] at denoted

theorem storageReply_completes {settings : ReflectForPimplSettings Record} {args : List Arg} {info : ClassInfo Record}
    (accepted : ∃ extra_size_bytes, parseStorageArgs host dchecks args 0 = .ok extra_size_bytes)
    (declared : info.decl ≠ none) (named : settings.implParameterQualType ≠ "") :
    ∃ emission, storageReply host dchecks settings args info = .ok emission := by
  obtain ⟨extra_size_bytes,parsed⟩ := accepted
  have present : info.decl.isNone = false := by
    cases found : info.decl with
    | none => exact absurd found declared
    | some decl => rfl
  exact ⟨_,by simp only [storageReply,parsed,present,named,Bool.false_eq_true,and_false,if_false]; rfl⟩

theorem view_completed {rows : List (Invocation Record × Emission)}
    (path : Completes host dchecks State.start rows s) (key : String) (info : ClassInfo Record) :
    s.view key = some info ↔ ∃ row ∈ rows, ∃ reflected,
      ReflectedAs host dchecks (row.1,.ok row.2) key reflected ∧ info = cleaned (host.ReflectClass reflected) := by
  rw [view_reflected path]
  simp only [List.mem_map,exists_exists_and_eq_and]

theorem injector_completed {invocation : Invocation Record} {emission : Emission}
    {settings : ReflectForPimplSettings Record} {record : Record} (injector : isReflection invocation = false)
    (resolved : resolve host dchecks invocation.options.node = .ok (settings,record))
    (ran : invoke host dchecks invocation s = .completed emission next) :
    ∃ reply info, Injected host dchecks reply invocation.options s emission next settings record info := by
  obtain ⟨rule,options⟩ := invocation
  cases rule with
  | inject_pimpl_storage | inject_pimpl_method_calls => exact ⟨_,inject_resolved ran resolved⟩
  | reflect_for_pimpl => cases injector

theorem injector_completes {invocation : Invocation Record} {settings : ReflectForPimplSettings Record}
    {record : Record} {info : ClassInfo Record} (injector : isReflection invocation = false)
    (resolved : resolve host dchecks invocation.options.node = .ok (settings,record))
    (accepted : ArgsAccepted host dchecks invocation) (found : s.view settings.implParameterQualType = some info)
    (declared : info.decl ≠ none) (methods : info.methods ≠ []) :
    ∃ emission next, invoke host dchecks invocation s = .completed emission next := by
  obtain ⟨rule,options⟩ := invocation
  cases rule with
  | reflect_for_pimpl => cases injector
  | inject_pimpl_storage =>
    obtain ⟨emission,replied⟩ := storageReply_completes accepted declared (resolve_named resolved)
    exact ⟨emission,_,inject_completed.mpr ⟨settings,record,info,resolved,found,methods,replied,rfl⟩⟩
  | inject_pimpl_method_calls =>
    obtain ⟨without_method_body,parsed⟩ := accepted
    have replied : ∃ emission, methodCallsReply host dchecks settings options.args info = .ok emission :=
      ⟨_,by simp only [methodCallsReply,parsed]; rfl⟩
    obtain ⟨emission,replied⟩ := replied
    exact ⟨emission,_,inject_completed.mpr ⟨settings,record,info,resolved,found,methods,replied,rfl⟩⟩

-- Once its own input is accepted, an injection depends on nothing but an
-- earlier reflection under its key that kept a method.
theorem injection_completes_exact (host : Host Record) (dchecks : Bool) (recorded : RecordsDecl host)
    {rows : List (Invocation Record × Emission)} (path : Completes host dchecks State.start rows s)
    (invocation : Invocation Record) (injector : isReflection invocation = false)
    {settings : ReflectForPimplSettings Record} {record : Record}
    (resolved : resolve host dchecks invocation.options.node = .ok (settings,record))
    (accepted : ArgsAccepted host dchecks invocation) :
    (∃ emission next, invoke host dchecks invocation s = .completed emission next) ↔
      ∃ row ∈ rows, ∃ reflected,
        ReflectedAs host dchecks (row.1,.ok row.2) settings.implParameterQualType reflected ∧
        (cleaned (host.ReflectClass reflected)).methods ≠ [] := by
  constructor
  · intro completes
    rcases completes with ⟨emission,next,ran⟩
    obtain ⟨_,info,injected⟩ := injector_completed injector resolved ran
    obtain ⟨row,member,reflected,stored,rfl⟩ := (view_completed path _ _).mp injected.found
    exact ⟨row,member,reflected,stored,injected.methods⟩
  · intro earlier
    rcases earlier with ⟨row,member,reflected,stored,methods⟩
    have found := (view_completed path _ _).mpr ⟨row,member,reflected,stored,rfl⟩
    have declared : (cleaned (host.ReflectClass reflected)).decl ≠ none := by
      simp [recorded reflected]
    exact injector_completes injector resolved accepted found declared methods

def storageOf (args : List Arg) : Invocation Unit :=
  ⟨.inject_pimpl_storage,plainOptions [plainParameter "impl" "FooImpl" ()] args⟩

def reflectorOf : Invocation Unit := ⟨.reflect_for_pimpl,plainOptions [plainParameter "impl" "FooImpl" ()] []⟩

def onlyBaz : ClassInfo Unit := ⟨"FooImpl",some (),[{name := "baz",decl := some {annotations := []}}],32,8⟩

theorem injection_completes_witness :
    (∃ emission next, invoke (plainHost fun _ => onlyBaz) true (storageOf [])
      (invoke (plainHost fun _ => onlyBaz) true reflectorOf State.start).state = .completed emission next) ↔
      ∃ row ∈ [(reflectorOf,(⟨"",[]⟩ : Emission))], ∃ reflected,
        ReflectedAs (plainHost fun _ => onlyBaz) true (row.1,.ok row.2) "FooImpl" reflected ∧
        (cleaned ((plainHost fun _ => onlyBaz).ReflectClass reflected)).methods ≠ [] :=
  injection_completes_exact (plainHost fun _ => onlyBaz) true (fun _ => rfl)
    (Completes.nil.completed (rfl : invoke _ _ reflectorOf _ = .completed ⟨"",[]⟩ _)) (storageOf []) rfl rfl ⟨_,rfl⟩

-- A class of which the filter leaves no method is accepted and cached, and from
-- then on both injectors refuse it.
theorem skipped_refused {reflection : SourceTransformOptions Record} {settings : ReflectForPimplSettings Record}
    {record : Record} (resolved : resolve host dchecks reflection.node = .ok (settings,record))
    (methods : (host.ReflectClass record).methods ≠ []) (skipped : (cleaned (host.ReflectClass record)).methods = [])
    (fresh : s.reflectionCache_ settings.implParameterQualType = none) :
    ∃ stored, reflectForPimpl host dchecks reflection s = .completed ⟨"",[]⟩ stored ∧
      ∀ trace found, Runs host dchecks stored trace found → ∀ invocation own same, isReflection invocation = false →
        resolve host dchecks invocation.options.node = .ok (own,same) →
        own.implParameterQualType = settings.implParameterQualType →
        invoke host dchecks invocation found = .failed (.noMethods (host.ReflectClass record).name) found := by
  obtain ⟨stored,reflects⟩ := reflect_completes resolved methods fresh
  refine ⟨stored,reflects,?_⟩
  intro trace found path invocation own same injector injected sameKey
  have entry := reflected_found reflects resolved path
  rw [← sameKey] at entry
  obtain ⟨pointer,cached,held⟩ := cached_some.mp entry
  have refused : ∀ reply, inject host dchecks reply invocation.options found =
      .failed (.noMethods (host.ReflectClass record).name) found := by
    intro reply
    unfold inject
    simp only [injected,reflectFromCache_some.mpr cached,held,skipped,List.isEmpty_nil,if_true]
    rfl
  obtain ⟨rule,options⟩ := invocation
  cases rule with
  | inject_pimpl_storage | inject_pimpl_method_calls => exact refused _
  | reflect_for_pimpl => cases injector

def allSkipped : ClassInfo Unit :=
  ⟨"FooImpl",some (),[{name := "bar",decl := some {annotations := ["skip_pimpl"]}}],32,8⟩

-- Both injections have accepted arguments, and the class is accepted and cached.
theorem all_skipped_refused :
    ∃ stored, invoke (plainHost fun _ => allSkipped) false reflectorOf State.start = .completed ⟨"",[]⟩ stored ∧
      resolve (plainHost fun _ => allSkipped) false (storageOf []).options.node =
        .ok ({implParameterQualType := "FooImpl",implArgQualType := some ⟨"FooImpl",some ()⟩},()) ∧
      ArgsAccepted (plainHost fun _ => allSkipped) false (storageOf []) ∧
      invoke (plainHost fun _ => allSkipped) false (storageOf []) stored = .failed (.noMethods "FooImpl") stored ∧
      ArgsAccepted (plainHost fun _ => allSkipped) false ⟨.inject_pimpl_method_calls,(storageOf []).options⟩ ∧
      invoke (plainHost fun _ => allSkipped) false ⟨.inject_pimpl_method_calls,(storageOf []).options⟩ stored =
        .failed (.noMethods "FooImpl") stored :=
  ⟨_,rfl,rfl,⟨_,rfl⟩,rfl,⟨_,rfl⟩,rfl⟩

def ReflectedEarlier (host : Host Record) (dchecks : Bool) (trace : List (Invocation Record × Except Failure Emission))
    (record : Record) : Prop := ∃ row ∈ trace, ∃ key, ReflectedAs host dchecks row key record

open Classical in
noncomputable def identityCache (host : Host Record) (dchecks : Bool)
    (trace : List (Invocation Record × Except Failure Emission)) : WriteOnce.Store Record (ClassInfo Record) :=
  fun record => if ReflectedEarlier host dchecks trace record then some (cleaned (host.ReflectClass record)) else none

-- An invocation sees the string-keyed cache of its run as that cache.
structure FollowsIdentity (host : Host Record) (dchecks : Bool)
    (trace : List (Invocation Record × Except Failure Emission)) (s : State Record) (invocation : Invocation Record)
    (settings : ReflectForPimplSettings Record) (record : Record) : Prop where
  refines : s.view settings.implParameterQualType = identityCache host dchecks trace record
  refused : invocation.rule = .reflect_for_pimpl →
    ((∃ name next, invoke host dchecks invocation s = .failed (.alreadyInCache name) next) ↔
      ReflectedEarlier host dchecks trace record)
  found : (∃ pointer, reflectFromCache s settings = .ok pointer) ↔ ReflectedEarlier host dchecks trace record
  own : ∀ pointer, reflectFromCache s settings = .ok pointer → s.heap pointer = cleaned (host.ReflectClass record)

-- A condition on spellings: what was reflected under the invocation's spelling
-- is its own record, and its record, if reflected at all, was also under it.
def SpelledApart (host : Host Record) (dchecks : Bool) (trace : List (Invocation Record × Except Failure Emission))
    (settings : ReflectForPimplSettings Record) (record : Record) : Prop :=
  (∀ row ∈ trace, ∀ other, ReflectedAs host dchecks row settings.implParameterQualType other → other = record) ∧
    (∀ row ∈ trace, ∀ key, ReflectedAs host dchecks row key record →
      ∃ again ∈ trace, ReflectedAs host dchecks again settings.implParameterQualType record)

theorem reflect_refused {options : SourceTransformOptions Record} {settings : ReflectForPimplSettings Record}
    {record : Record} (resolved : resolve host dchecks options.node = .ok (settings,record)) :
    (∃ name next, reflectForPimpl host dchecks options s = .failed (.alreadyInCache name) next) ↔
      (host.ReflectClass record).methods ≠ [] ∧ s.reflectionCache_ settings.implParameterQualType ≠ none := by
  unfold reflectForPimpl
  simp only [resolved,heap_allocate,List.isEmpty_iff]
  by_cases empty : (host.ReflectClass record).methods = []
  · simp [empty]
  · simp only [empty,if_false,cache_filtered]
    cases cached : s.reflectionCache_ settings.implParameterQualType with
    | none => split <;> rename_i held <;> simp_all
    | some pointer => split <;> rename_i held <;> simp_all

theorem reflected_methods {trace : List (Invocation Record × Except Failure Emission)} {start : State Record}
    {row : Invocation Record × Except Failure Emission} {key : String} {record : Record}
    (path : Runs host dchecks start trace s) (member : row ∈ trace)
    (reflected : ReflectedAs host dchecks row key record) : (host.ReflectClass record).methods ≠ [] := by
  obtain ⟨emission,ran⟩ := reflected.completed
  obtain ⟨planned,plan,_⟩ := runs_settled path (ran ▸ member : (row.1,Except.ok emission) ∈ trace)
  have write := reflected_operation reflected plan
  subst write
  obtain ⟨_,_,_,other,same,_,methods,_⟩ := operation_write.mp plan
  obtain ⟨_,own,_⟩ := reflected.resolved
  rw [own] at same
  cases same
  exact methods

theorem follows_of_apart {trace : List (Invocation Record × Except Failure Emission)}
    (path : Runs host dchecks State.start trace s) {invocation : Invocation Record}
    {settings : ReflectForPimplSettings Record} {record : Record}
    (resolved : resolve host dchecks invocation.options.node = .ok (settings,record))
    (apart : SpelledApart host dchecks trace settings record) :
    FollowsIdentity host dchecks trace s invocation settings record := by
  have entry : ∀ info, s.view settings.implParameterQualType = some info ↔
      ReflectedEarlier host dchecks trace record ∧ info = cleaned (host.ReflectClass record) := by
    intro info
    rw [view_reflected path]
    constructor
    · intro earlier
      rcases earlier with ⟨row,member,other,reflected,rfl⟩
      have same := apart.1 row member other reflected
      subst same
      exact ⟨⟨row,member,_,reflected⟩,rfl⟩
    · intro both
      rcases both with ⟨⟨row,member,key,reflected⟩,rfl⟩
      obtain ⟨again,inside,spelled⟩ := apart.2 row member key reflected
      exact ⟨again,inside,record,spelled,rfl⟩
  have found : (∃ pointer, s.reflectionCache_ settings.implParameterQualType = some pointer) ↔
      ReflectedEarlier host dchecks trace record := by
    constructor
    · intro cached
      rcases cached with ⟨pointer,cached⟩
      exact ((entry _).mp (cached_some.mpr ⟨pointer,cached,rfl⟩)).1
    · intro earlier
      obtain ⟨pointer,cached,_⟩ := cached_some.mp ((entry _).mpr ⟨earlier,rfl⟩)
      exact ⟨pointer,cached⟩
  refine ⟨?_,?_,?_,?_⟩
  · apply Option.ext
    intro info
    rw [entry,identityCache]
    split <;> rename_i earlier <;> simp [earlier,eq_comm]
  · intro rule
    have refused := reflect_refused (s := s) resolved
    simp only [invoke,rule]
    rw [refused,← found,Option.ne_none_iff_exists']
    refine ⟨fun both => both.2,fun cached => ⟨?_,cached⟩⟩
    obtain ⟨row,member,key,reflected⟩ := found.mp cached
    exact reflected_methods path member reflected
  · simpa only [reflectFromCache_some] using found
  · intro pointer cached
    rw [reflectFromCache_some] at cached
    exact ((entry _).mp (cached_some.mpr ⟨pointer,cached,rfl⟩)).2

theorem apart_of_follows (recorded : RecordsDecl host) {trace : List (Invocation Record × Except Failure Emission)}
    (path : Runs host dchecks State.start trace s) {invocation : Invocation Record}
    {settings : ReflectForPimplSettings Record} {record : Record}
    (follows : FollowsIdentity host dchecks trace s invocation settings record) :
    SpelledApart host dchecks trace settings record := by
  have own : ∀ row ∈ trace, ∀ other,
      ReflectedAs host dchecks row settings.implParameterQualType other → other = record := by
    intro row member other reflected
    obtain ⟨pointer,cached,held⟩ := cached_some.mp ((view_reflected path _ _).mpr ⟨row,member,other,reflected,rfl⟩)
    rw [follows.own pointer (reflectFromCache_some.mpr cached)] at held
    have declared := congrArg ClassInfo.decl held
    rw [cleaned_decl,cleaned_decl,recorded,recorded] at declared
    exact (Option.some.inj declared).symm
  refine ⟨own,?_⟩
  intro row member key reflected
  obtain ⟨pointer,cached⟩ := follows.found.mpr ⟨row,member,key,reflected⟩
  obtain ⟨again,inside,other,spelled,_⟩ := (view_reflected path _ _).mp
    (cached_some.mpr ⟨pointer,reflectFromCache_some.mp cached,rfl⟩)
  have same := own again inside other spelled
  subst same
  exact ⟨again,inside,spelled⟩

-- At every point of every run, failing steps included.
theorem cache_follows_identity (host : Host Record) (dchecks : Bool) (recorded : RecordsDecl host)
    {trace : List (Invocation Record × Except Failure Emission)} (path : Runs host dchecks State.start trace s)
    (invocation : Invocation Record) {settings : ReflectForPimplSettings Record} {record : Record}
    (resolved : resolve host dchecks invocation.options.node = .ok (settings,record)) :
    FollowsIdentity host dchecks trace s invocation settings record ↔
      SpelledApart host dchecks trace settings record :=
  ⟨apart_of_follows recorded path,follows_of_apart path resolved⟩

def alike : Host Bool := plainHost fun outer =>
  if outer then ⟨"Impl",some true,[{name := "baz",decl := some {annotations := []}}],64,16⟩
  else ⟨"Impl",some false,[{name := "foo",decl := some {annotations := []}}],8,8⟩

def alikeReflector (spelling : String) (record : Bool) : Invocation Bool :=
  ⟨.reflect_for_pimpl,plainOptions [plainParameter "impl" spelling record] []⟩

def alikeStorage (spelling : String) (record : Bool) : Invocation Bool :=
  ⟨.inject_pimpl_storage,plainOptions [plainParameter "impl" spelling record] []⟩

def alikeSettings (spelling : String) (record : Bool) : ReflectForPimplSettings Bool :=
  {implParameterQualType := spelling,implArgQualType := some ⟨spelling,some record⟩}

theorem alike_recorded : RecordsDecl alike := by
  intro record
  cases record <;> rfl

theorem alike_reflected {spelling key : String} {record other : Bool} {answer : Except Failure Emission}
    (named : spelling ≠ "") (reflected : ReflectedAs alike false (alikeReflector spelling record,answer) key other) :
    key = spelling ∧ other = record := by
  obtain ⟨settings,resolved,spelled⟩ := reflected.resolved
  have own : resolve alike false (alikeReflector spelling record).options.node =
      .ok (alikeSettings spelling record,record) := by
    simp [alike,alikeReflector,alikeSettings,resolve,implRecord,getReflectForPimplSettings,parseParameters,
      parseParameter,plainOptions,plainParameter,plainHost,named]
  rw [own] at resolved
  cases resolved
  exact ⟨spelled.symm,rfl⟩

theorem cache_follows_witness :
    ∃ s, (∃ pointer, reflectFromCache s (alikeSettings "b::inner::Impl" true) = .ok pointer) ∧
      FollowsIdentity alike false
        ([] ++ [(alikeReflector "a::inner::Impl" false,.ok ⟨"",[]⟩)] ++ [(alikeReflector "b::inner::Impl" true,.ok ⟨"",[]⟩)])
        s (alikeStorage "b::inner::Impl" true) (alikeSettings "b::inner::Impl" true) true := by
  have first : Runs alike false State.start _ _ :=
    runs_completed .nil (rfl : invoke _ _ (alikeReflector "a::inner::Impl" false) _ = .completed ⟨"",[]⟩ _)
  have second := runs_completed first (rfl : invoke _ _ (alikeReflector "b::inner::Impl" true) _ = .completed ⟨"",[]⟩ _)
  refine ⟨_,⟨1,rfl⟩,(cache_follows_identity alike false alike_recorded second
    (alikeStorage "b::inner::Impl" true) rfl).mpr ⟨?_,?_⟩⟩
  · intro row member other reflected
    simp only [List.nil_append,List.mem_append,List.mem_singleton] at member
    rcases member with rfl | rfl
    · exact absurd (alike_reflected (by decide) reflected).1 (by decide)
    · exact (alike_reflected (by decide) reflected).2
  · intro row member key reflected
    simp only [List.nil_append,List.mem_append,List.mem_singleton] at member
    rcases member with rfl | rfl
    · cases (alike_reflected (by decide) reflected).2
    · obtain ⟨rfl,_⟩ := alike_reflected (by decide) reflected
      exact ⟨_,by simp,reflected⟩

-- The second class was never reflected, yet its storage is emitted with the
-- first one's size.
theorem alike_spellings_collide :
    ∃ s next, Runs alike false State.start [(alikeReflector "inner::Impl" false,.ok ⟨"",[]⟩)] s ∧
      resolve alike false (alikeStorage "inner::Impl" true).options.node =
        .ok (alikeSettings "inner::Impl" true,true) ∧
      invoke alike false (alikeStorage "inner::Impl" true) s =
        .completed ⟨storageText "inner::Impl" 8 8,[]⟩ next ∧
      ¬ FollowsIdentity alike false [(alikeReflector "inner::Impl" false,.ok ⟨"",[]⟩)] s
        (alikeStorage "inner::Impl" true) (alikeSettings "inner::Impl" true) true := by
  refine ⟨_,_,runs_completed .nil (rfl : invoke _ _ (alikeReflector "inner::Impl" false) _ = .completed ⟨"",[]⟩ _),
    rfl,rfl,?_⟩
  intro follows
  obtain ⟨row,member,key,reflected⟩ := follows.found.mp ⟨0,rfl⟩
  cases List.mem_singleton.mp member
  cases (alike_reflected (by decide) reflected).2

end FlexPimpl.Entries
