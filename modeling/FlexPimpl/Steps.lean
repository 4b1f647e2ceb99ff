import FlexPimpl.Tooling

namespace FlexPimpl.Steps
open Settings CodeGenerator Tooling

variable {Record : Type} {host : Host Record} {dchecks : Bool} {s next : State Record}
  {options : SourceTransformOptions Record} {emission : Emission} {failure : Failure}

def SameCache (before after : State Record) : Prop :=
  after.reflectionCache_ = before.reflectionCache_ ∧ after.view = before.view

theorem SameCache.refl (s : State Record) : SameCache s s := ⟨rfl,rfl⟩

theorem cached_some {key : String} {info : ClassInfo Record} :
    s.view key = some info ↔ ∃ pointer, s.reflectionCache_ key = some pointer ∧ s.heap pointer = info := by
  simp [State.view]

theorem cached_none {key : String} : s.view key = none ↔ s.reflectionCache_ key = none := by simp [State.view]

theorem reflectFromCache_some {settings : ReflectForPimplSettings Record} {pointer : Nat} :
    reflectFromCache s settings = .ok pointer ↔ s.reflectionCache_ settings.implParameterQualType = some pointer := by
  unfold reflectFromCache
  split <;> rename_i cached <;> simp [cached]

-- An injector that completes has found a reflected class with methods, and has
-- told the rewriter about the annotated declaration and nothing else.
structure Injected (host : Host Record) (dchecks : Bool)
    (reply : ReflectForPimplSettings Record → List Arg → ClassInfo Record → Except Failure Emission)
    (options : SourceTransformOptions Record) (s : State Record) (emission : Emission) (next : State Record)
    (settings : ReflectForPimplSettings Record) (record : Record) (info : ClassInfo Record) : Prop where
  resolved : resolve host dchecks options.node = .ok (settings,record)
  found : s.view settings.implParameterQualType = some info
  methods : info.methods ≠ []
  replied : reply settings options.args info = .ok emission
  after : next = s.replaceWith options.decl emission.replacer

variable {reply : ReflectForPimplSettings Record → List Arg → ClassInfo Record → Except Failure Emission}

theorem inject_completed : inject host dchecks reply options s = .completed emission next ↔
    ∃ settings record info, Injected host dchecks reply options s emission next settings record info := by
  constructor
  · intro ran
    unfold inject at ran
    split at ran
    · cases ran
    · rename_i settings record resolved
      split at ran
      · cases ran
      · rename_i pointer cached
        split at ran
        · cases ran
        · rename_i present
          split at ran
          · cases ran
          · rename_i replied
            cases ran
            have found := cached_some.mpr ⟨pointer,reflectFromCache_some.mp cached,rfl⟩
            exact ⟨settings,record,_,resolved,found,by simpa using present,replied,rfl⟩
  · intro injected
    rcases injected with ⟨settings,record,info,resolved,found,methods,replied,rfl⟩
    obtain ⟨pointer,cached,rfl⟩ := cached_some.mp found
    simp [inject,resolved,reflectFromCache_some.mpr cached,methods,replied]

theorem inject_resolved {settings : ReflectForPimplSettings Record} {record : Record}
    (ran : inject host dchecks reply options s = .completed emission next)
    (resolved : resolve host dchecks options.node = .ok (settings,record)) :
    ∃ info, Injected host dchecks reply options s emission next settings record info := by
  obtain ⟨own,same,info,injected⟩ := inject_completed.mp ran
  have equal := injected.resolved
  rw [resolved] at equal
  cases equal
  exact ⟨info,injected⟩

theorem inject_failed (ran : inject host dchecks reply options s = .failed failure next) : next = s := by
  unfold inject at ran
  repeat' split at ran
  all_goals cases ran
  all_goals rfl

structure Reflected (host : Host Record) (dchecks : Bool) (options : SourceTransformOptions Record)
    (s : State Record) (emission : Emission) (next : State Record)
    (settings : ReflectForPimplSettings Record) (record : Record) : Prop where
  resolved : resolve host dchecks options.node = .ok (settings,record)
  methods : (host.ReflectClass record).methods ≠ []
  fresh : s.reflectionCache_ settings.implParameterQualType = none
  silent : emission = ⟨"",[]⟩
  pointers : ∀ key, key ≠ settings.implParameterQualType → next.reflectionCache_ key = s.reflectionCache_ key
  stored : next.view = WriteOnce.put s.view settings.implParameterQualType (cleaned (host.ReflectClass record))
  edited : next.edits = s.edits ++ [⟨options.decl,""⟩]

theorem view_filtered (s : State Record) (info : ClassInfo Record) (methods : List MethodInfo) :
    ((s.allocate info).setMethods s.allocated methods).view = s.view := by
  have uncached : ∀ key, (s.allocate info).reflectionCache_ key ≠ some s.allocated := not_cached_fresh s
  rw [view_setMethods methods uncached,view_allocate]

theorem heap_filtered (s : State Record) (info : ClassInfo Record) :
    ((s.allocate info).setMethods s.allocated (info.methods.filter keepsMethod)).heap s.allocated = cleaned info := by
  simp [State.setMethods,State.allocate,cleaned]

theorem heap_allocate (s : State Record) (info : ClassInfo Record) : (s.allocate info).heap s.allocated = info := by
  simp [State.allocate]

theorem cache_filtered (s : State Record) (info : ClassInfo Record) (methods : List MethodInfo) :
    ((s.allocate info).setMethods s.allocated methods).reflectionCache_ = s.reflectionCache_ := rfl

theorem reflect_completed (ran : reflectForPimpl host dchecks options s = .completed emission next) :
    ∃ settings record, Reflected host dchecks options s emission next settings record := by
  unfold reflectForPimpl at ran
  split at ran
  · cases ran
  · rename_i settings record resolved
    simp only [heap_allocate] at ran
    split at ran
    · cases ran
    · rename_i present
      split at ran
      · cases ran
      · rename_i fresh
        cases ran
        refine ⟨settings,record,resolved,by simpa using present,fresh,rfl,?_,?_,rfl⟩
        · intro key other
          simp only [State.replaceWith,State.insert,if_neg other]
          rfl
        · rw [view_replaceWith,view_insert,view_filtered,heap_filtered]

theorem reflect_resolved {settings : ReflectForPimplSettings Record} {record : Record}
    (ran : reflectForPimpl host dchecks options s = .completed emission next)
    (resolved : resolve host dchecks options.node = .ok (settings,record)) :
    Reflected host dchecks options s emission next settings record := by
  obtain ⟨own,same,reflected⟩ := reflect_completed ran
  have equal := reflected.resolved
  rw [resolved] at equal
  cases equal
  exact reflected

theorem reflect_completes {settings : ReflectForPimplSettings Record} {record : Record}
    (resolved : resolve host dchecks options.node = .ok (settings,record))
    (methods : (host.ReflectClass record).methods ≠ [])
    (fresh : s.reflectionCache_ settings.implParameterQualType = none) :
    ∃ next, reflectForPimpl host dchecks options s = .completed ⟨"",[]⟩ next := by
  unfold reflectForPimpl
  simp only [resolved,heap_allocate,List.isEmpty_iff,methods,if_false]
  split
  · rename_i cached
    rw [cache_filtered,fresh] at cached
    cases cached
  · exact ⟨_,rfl⟩

theorem reflect_failed (ran : reflectForPimpl host dchecks options s = .failed failure next) :
    SameCache s next ∧ next.edits = s.edits := by
  unfold reflectForPimpl at ran
  split at ran
  · cases ran
    exact ⟨SameCache.refl s,rfl⟩
  · simp only [heap_allocate] at ran
    split at ran
    · cases ran
      exact ⟨⟨rfl,view_allocate _ _⟩,rfl⟩
    · split at ran
      · cases ran
        exact ⟨⟨rfl,view_filtered _ _ _⟩,rfl⟩
      · cases ran

-- Exactly one key appears, and no other entry is redirected or rewritten.
def Grows (before after : State Record) : Prop :=
  ∃ key info, before.view key = none ∧ after.view key = some info ∧
    ∀ other, other ≠ key → after.reflectionCache_ other = before.reflectionCache_ other ∧
      after.view other = before.view other

theorem Reflected.grows {settings : ReflectForPimplSettings Record} {record : Record}
    (reflected : Reflected host dchecks options s emission next settings record) : Grows s next := by
  refine ⟨settings.implParameterQualType,cleaned (host.ReflectClass record),cached_none.mpr reflected.fresh,?_,?_⟩
  · rw [reflected.stored,WriteOnce.put_same]
  · intro other different
    exact ⟨reflected.pointers other different,by rw [reflected.stored,WriteOnce.put_other _ _ different]⟩

def isReflection (invocation : Invocation Record) : Bool := invocation.rule == .reflect_for_pimpl

-- A handler that fails leaves the cache and the pending edits as they were,
-- whichever check stops it. One that completes edits the annotated declaration
-- once; only a reflection touches the cache, and only by one new key.
theorem invoke_atomic (host : Host Record) (dchecks : Bool) (invocation : Invocation Record) (s : State Record) :
    match invoke host dchecks invocation s with
    | .failed _ next => SameCache s next ∧ next.edits = s.edits
    | .completed emission next =>
      next.edits = s.edits ++ [⟨invocation.options.decl,emission.replacer⟩] ∧
      if isReflection invocation then Grows s next else SameCache s next := by
  obtain ⟨rule,options⟩ := invocation
  cases rule with
  | reflect_for_pimpl =>
    simp only [invoke]
    split
    · rename_i failed
      exact reflect_failed failed
    · rename_i completed
      obtain ⟨settings,record,reflected⟩ := reflect_completed completed
      exact ⟨by rw [reflected.edited,reflected.silent],reflected.grows⟩
  | inject_pimpl_storage | inject_pimpl_method_calls =>
    simp only [invoke]
    split
    · rename_i failed
      rw [inject_failed failed]
      exact ⟨SameCache.refl s,rfl⟩
    · rename_i completed
      obtain ⟨_,_,_,injected⟩ := inject_completed.mp completed
      rw [injected.after]
      exact ⟨rfl,rfl,rfl⟩

def loop (step : Value → Arg → Except Failure Value) : List Arg → Value → Except Failure Value
  | [],value => .ok value
  | arg :: rest,value =>
    match step value arg with
    | .error failure => .error failure
    | .ok next => loop step rest next

theorem parseStorageArgs_loop (args : List Arg) (extra_size_bytes : BitVec 32) :
    parseStorageArgs host dchecks args extra_size_bytes = loop (parseStorageArg host dchecks) args extra_size_bytes := by
  induction args generalizing extra_size_bytes with
  | nil => rfl
  | cons arg rest ih =>
    cases stepped : parseStorageArg host dchecks extra_size_bytes arg with
    | error failure => simp only [parseStorageArgs,loop,stepped]
    | ok next => simp only [parseStorageArgs,loop,stepped,ih]

theorem parseMethodCallsArgs_loop (args : List Arg) (without_method_body : Bool) :
    parseMethodCallsArgs dchecks args without_method_body =
      loop (parseMethodCallsArg dchecks) args without_method_body := by
  induction args generalizing without_method_body with
  | nil => rfl
  | cons arg rest ih =>
    cases stepped : parseMethodCallsArg dchecks without_method_body arg with
    | error failure => simp only [parseMethodCallsArgs,loop,stepped]
    | ok next => simp only [parseMethodCallsArgs,loop,stepped,ih]

theorem loop_failure {step : Value → Arg → Except Failure Value} {Refused : Failure → Prop} {args : List Arg}
    {value : Value} (refuses : ∀ value arg failure, step value arg = .error failure → Refused failure)
    (failed : loop step args value = .error failure) : Refused failure := by
  induction args generalizing value with
  | nil => cases failed
  | cons arg rest ih =>
    unfold loop at failed
    split at failed
    · rename_i stopped
      cases failed
      exact refuses value arg _ stopped
    · exact ih failed

-- Only the `->` on the impl type can go through an unset QualType.
theorem parseStorageArgs_failure {args : List Arg} {extra_size_bytes : BitVec 32}
    (failed : parseStorageArgs host dchecks args extra_size_bytes = .error failure) : failure ≠ .nullQualType := by
  rw [parseStorageArgs_loop] at failed
  apply loop_failure _ failed
  intro extra_size_bytes arg failure stopped
  rintro rfl
  unfold parseStorageArg at stopped
  repeat' split at stopped
  all_goals simp at stopped

theorem parseMethodCallsArgs_failure {args : List Arg} {without_method_body : Bool}
    (failed : parseMethodCallsArgs dchecks args without_method_body = .error failure) : failure ≠ .nullQualType := by
  rw [parseMethodCallsArgs_loop] at failed
  apply loop_failure _ failed
  intro without_method_body arg failure stopped
  rintro rfl
  unfold parseMethodCallsArg at stopped
  repeat' split at stopped
  all_goals simp at stopped

theorem storageReply_failure {settings : ReflectForPimplSettings Record} {args : List Arg} {info : ClassInfo Record}
    (failed : storageReply host dchecks settings args info = .error failure) : failure ≠ .nullQualType := by
  unfold storageReply at failed
  split at failed
  · rename_i stopped
    cases failed
    exact parseStorageArgs_failure stopped
  · rintro rfl
    repeat' split at failed
    all_goals simp at failed

theorem methodCallsReply_failure {settings : ReflectForPimplSettings Record} {args : List Arg} {info : ClassInfo Record}
    (failed : methodCallsReply host dchecks settings args info = .error failure) : failure ≠ .nullQualType := by
  unfold methodCallsReply at failed
  split at failed
  · rename_i stopped
    cases failed
    exact parseMethodCallsArgs_failure stopped
  · cases failed

theorem resolve_null {node : AnnotatedNode Record} (failed : resolve host dchecks node = .error .nullQualType) :
    ∃ settings, getReflectForPimplSettings host node = .ok settings ∧ settings.implArgQualType = none := by
  unfold resolve at failed
  split at failed
  · rename_i stopped
    cases failed
    exact absurd rfl (settings_failure stopped)
  · rename_i settings parsed
    refine ⟨settings,parsed,?_⟩
    cases unset : settings.implArgQualType with
    | none => rfl
    | some impl =>
      cases denoted : impl.getAsCXXRecordDecl <;> cases dchecks <;> simp [implRecord,unset,denoted] at failed

theorem inject_null (reply : ReflectForPimplSettings Record → List Arg → ClassInfo Record → Except Failure Emission)
    (clean : ∀ settings args info, reply settings args info ≠ .error .nullQualType)
    (failed : inject host dchecks reply options s = .failed .nullQualType next) :
    resolve host dchecks options.node = .error .nullQualType := by
  unfold inject at failed
  split at failed
  · rename_i stopped
    cases failed
    exact stopped
  · split at failed
    · rename_i stopped
      unfold reflectFromCache at stopped
      cases failed
      split at stopped <;> cases stopped
    · split at failed
      · cases failed
      · split at failed
        · rename_i stopped
          cases failed
          exact absurd stopped (clean _ _ _)
        · cases failed

theorem invoke_null {invocation : Invocation Record}
    (failed : invoke host dchecks invocation s = .failed .nullQualType next) :
    resolve host dchecks invocation.options.node = .error .nullQualType := by
  obtain ⟨rule,options⟩ := invocation
  cases rule with
  | inject_pimpl_storage => exact inject_null (storageReply host dchecks) (fun _ _ _ stopped => storageReply_failure stopped rfl) failed
  | inject_pimpl_method_calls => exact inject_null (methodCallsReply host dchecks) (fun _ _ _ stopped => methodCallsReply_failure stopped rfl) failed
  | reflect_for_pimpl =>
    simp only [invoke,reflectForPimpl] at failed
    split at failed
    · rename_i stopped
      cases failed
      exact stopped
    · repeat' split at failed
      all_goals cases failed

-- The contract of the settings parser on one list of template parameters: what
-- it accepts, what it returns, and that its callers may use the impl type.
structure SettingsContract (host : Host Record) (dchecks : Bool) (name : String)
    (parameters : List (NamedDecl Record)) : Prop where
  completes : (∃ settings, getReflectForPimplSettings host ⟨name,some parameters⟩ = .ok settings) ↔
    parameters ≠ [] ∧ Accepted host parameters ∧ ∃ parameter_decl ∈ parameters, parameter_decl.name = "impl"
  impl : ∀ settings, getReflectForPimplSettings host ⟨name,some parameters⟩ = .ok settings →
    ∃ parameter_decl ∈ parameters, ∃ argument, parameter_decl.name = "impl" ∧
      NamedDecl.argument parameter_decl = some argument ∧ settings.implArgQualType = some argument ∧
      settings.implParameterQualType = host.extractTypeName argument.getAsString
  interface : ∀ settings, getReflectForPimplSettings host ⟨name,some parameters⟩ = .ok settings →
    (∃ parameter_decl ∈ parameters, ∃ argument, parameter_decl.name = "interface" ∧
      NamedDecl.argument parameter_decl = some argument ∧
      settings.interfaceParameterQualType = host.extractTypeName argument.getAsString) ∨
    ((∀ parameter_decl ∈ parameters, parameter_decl.name ≠ "interface") ∧
      settings.interfaceParameterQualType = "")
  order : ∀ settings reordered, parameters.Perm reordered →
    getReflectForPimplSettings host ⟨name,some parameters⟩ = .ok settings →
    getReflectForPimplSettings host ⟨name,some reordered⟩ = .ok settings
  safe : ∀ (invocation : Invocation Record) (s next : State Record),
    invocation.options.node = ⟨name,some parameters⟩ →
    invoke host dchecks invocation s ≠ .failed .nullQualType next

-- The one kind of list that slips through: an interface alone.
def OnlyInterface (host : Host Record) (parameters : List (NamedDecl Record)) : Prop :=
  ∃ parameter_decl argument, parameters = [parameter_decl] ∧ parameter_decl.name = "interface" ∧
    Accepts host parameter_decl argument

theorem accepted_impl {parameters : List (NamedDecl Record)} (distinct : (parameters.map NamedDecl.name).Nodup)
    (filled : parameters ≠ []) (accepted : Accepted host parameters) (more : ¬ OnlyInterface host parameters) :
    ∃ parameter_decl ∈ parameters, parameter_decl.name = "impl" := by
  cases parameters with
  | nil => exact absurd rfl filled
  | cons first rest =>
    obtain ⟨argument,takes⟩ := accepted first (by simp)
    rcases takes.known with impl | isInterface
    · exact ⟨first,by simp,impl⟩
    · cases rest with
      | nil => exact absurd ⟨first,argument,rfl,isInterface,takes⟩ more
      | cons second others =>
        obtain ⟨_,also⟩ := accepted second (by simp)
        rcases also.known with impl | same
        · exact ⟨second,by simp,impl⟩
        · simp [isInterface,same] at distinct

theorem impl_required {name : String} {parameters : List (NamedDecl Record)}
    (distinct : (parameters.map NamedDecl.name).Nodup) (more : ¬ OnlyInterface host parameters) :
    (∃ settings, getReflectForPimplSettings host ⟨name,some parameters⟩ = .ok settings) ↔
      parameters ≠ [] ∧ Accepted host parameters ∧ ∃ parameter_decl ∈ parameters, parameter_decl.name = "impl" := by
  constructor
  · intro completes
    rcases completes with ⟨settings,parsed⟩
    obtain ⟨filled,accepted,_⟩ := settings_exact.mp parsed
    exact ⟨filled,accepted,accepted_impl distinct filled accepted more⟩
  · intro fulfilled
    rcases fulfilled with ⟨filled,accepted,_⟩
    exact ⟨_,settings_exact.mpr ⟨filled,accepted,rfl⟩⟩

theorem impl_returned {name : String} {parameters : List (NamedDecl Record)}
    {settings : ReflectForPimplSettings Record} (distinct : (parameters.map NamedDecl.name).Nodup)
    (more : ¬ OnlyInterface host parameters)
    (parsed : getReflectForPimplSettings host ⟨name,some parameters⟩ = .ok settings) :
    ∃ parameter_decl ∈ parameters, ∃ argument, parameter_decl.name = "impl" ∧
      NamedDecl.argument parameter_decl = some argument ∧ settings.implArgQualType = some argument ∧
      settings.implParameterQualType = host.extractTypeName argument.getAsString := by
  obtain ⟨filled,accepted,rfl⟩ := settings_exact.mp parsed
  obtain ⟨parameter_decl,member,impl⟩ := accepted_impl distinct filled accepted more
  obtain ⟨argument,takes⟩ := accepted parameter_decl member
  have slot := fold_named {} .impl accepted distinct member impl takes
  exact ⟨parameter_decl,member,argument,impl,by simp [NamedDecl.argument,takes.typename],
    congrArg Prod.fst slot,congrArg Prod.snd slot⟩

theorem interface_returned {name : String} {parameters : List (NamedDecl Record)}
    {settings : ReflectForPimplSettings Record} (distinct : (parameters.map NamedDecl.name).Nodup)
    (parsed : getReflectForPimplSettings host ⟨name,some parameters⟩ = .ok settings) :
    (∃ parameter_decl ∈ parameters, ∃ argument, parameter_decl.name = "interface" ∧
      NamedDecl.argument parameter_decl = some argument ∧
      settings.interfaceParameterQualType = host.extractTypeName argument.getAsString) ∨
    ((∀ parameter_decl ∈ parameters, parameter_decl.name ≠ "interface") ∧
      settings.interfaceParameterQualType = "") := by
  obtain ⟨filled,accepted,rfl⟩ := settings_exact.mp parsed
  by_cases present : ∃ parameter_decl ∈ parameters, parameter_decl.name = "interface"
  · obtain ⟨parameter_decl,member,named⟩ := present
    obtain ⟨argument,takes⟩ := accepted parameter_decl member
    have slot := fold_named {} .interface accepted distinct member named takes
    exact .inl ⟨parameter_decl,member,argument,named,by simp [NamedDecl.argument,takes.typename],
      congrArg Prod.snd slot⟩
  · have absent : ∀ parameter_decl ∈ parameters, parameter_decl.name ≠ "interface" :=
      fun parameter_decl member named => present ⟨parameter_decl,member,named⟩
    exact .inr ⟨absent,congrArg Prod.snd (fold_unnamed {} .interface accepted absent)⟩

theorem parameters_reordered {name : String} {parameters reordered : List (NamedDecl Record)}
    {settings : ReflectForPimplSettings Record} (distinct : (parameters.map NamedDecl.name).Nodup)
    (permuted : parameters.Perm reordered)
    (parsed : getReflectForPimplSettings host ⟨name,some parameters⟩ = .ok settings) :
    getReflectForPimplSettings host ⟨name,some reordered⟩ = .ok settings := by
  obtain ⟨filled,accepted,rfl⟩ := settings_exact.mp parsed
  apply settings_exact.mpr
  refine ⟨?_,fun p member => accepted p (permuted.mem_iff.mpr member),fold_perm accepted distinct permuted⟩
  intro empty
  subst empty
  exact filled permuted.eq_nil

theorem never_dereferences_null {name : String} {parameters : List (NamedDecl Record)}
    (distinct : (parameters.map NamedDecl.name).Nodup) (more : ¬ OnlyInterface host parameters)
    (invocation : Invocation Record) (s next : State Record)
    (sameNode : invocation.options.node = ⟨name,some parameters⟩) :
    invoke host dchecks invocation s ≠ .failed .nullQualType next := by
  intro failed
  obtain ⟨settings,parsed,unset⟩ := resolve_null (invoke_null failed)
  rw [sameNode] at parsed
  obtain ⟨filled,accepted,_⟩ := settings_exact.mp parsed
  obtain ⟨parameter_decl,member,impl⟩ := accepted_impl distinct filled accepted more
  exact (settings_unset distinct parsed).mp unset parameter_decl member impl

theorem settings_contract_exact (host : Host Record) (dchecks : Bool) (name : String)
    (parameters : List (NamedDecl Record)) (distinct : (parameters.map NamedDecl.name).Nodup) :
    SettingsContract host dchecks name parameters ↔ ¬ OnlyInterface host parameters := by
  constructor
  · intro contract only
    rcases only with ⟨parameter_decl,argument,rfl,isInterface,takes⟩
    have accepted : Accepted host [parameter_decl] := by
      intro other member
      cases List.mem_singleton.mp member
      exact ⟨argument,takes⟩
    obtain ⟨_,_,other,member,impl⟩ := contract.completes.mp ⟨_,settings_exact.mpr ⟨by simp,accepted,rfl⟩⟩
    cases List.mem_singleton.mp member
    rw [isInterface] at impl
    exact absurd impl (by decide)
  · intro more
    exact ⟨impl_required distinct more,fun _ parsed => impl_returned distinct more parsed,
      fun _ parsed => interface_returned distinct parsed,
      fun _ _ permuted parsed => parameters_reordered distinct permuted parsed,
      never_dereferences_null distinct more⟩

def implAndInterface : List (NamedDecl Unit) := [plainParameter "impl" "FooImpl" (),plainParameter "interface" "Foo" ()]

theorem settings_contract_witness :
    SettingsContract (plainHost fun _ => default) false "Injector" implAndInterface ↔
      ¬ OnlyInterface (plainHost fun _ => default) implAndInterface :=
  settings_contract_exact (plainHost fun _ => default) false "Injector" implAndInterface (by decide)

-- An interface alone is parsed, and the handlers then look into an unset type.
theorem interface_alone_dereferences :
    let options := plainOptions [plainParameter "interface" "Foo" ()] []
    getReflectForPimplSettings (plainHost fun _ => default) options.node =
        .ok {interfaceParameterQualType := "Foo",interfaceArgQualType := some ⟨"Foo",some ()⟩} ∧
      (∀ rule, invoke (plainHost fun _ => default) false ⟨rule,options⟩ State.start =
        .failed .nullQualType State.start) ∧
      ¬ SettingsContract (plainHost fun _ => default) false "Injector" [plainParameter "interface" "Foo" ()] := by
  have unset : ∀ rule, invoke (plainHost fun _ => default) false
      ⟨rule,plainOptions [plainParameter "interface" "Foo" ()] []⟩ State.start = .failed .nullQualType State.start := by
    intro rule
    cases rule <;> rfl
  refine ⟨rfl,unset,?_⟩
  intro contract
  exact contract.safe _ _ _ rfl (unset .reflect_for_pimpl)

end FlexPimpl.Steps
