import FlexPimpl.History

namespace FlexPimpl.MethodCalls
open Settings CodeGenerator Tooling Steps History

variable {Record : Type} {host : Host Record} {dchecks : Bool} {s next : State Record}

theorem methodCallsReply_ok {settings : ReflectForPimplSettings Record} {args : List Arg} {info : ClassInfo Record}
    {emission : Emission} (replied : methodCallsReply host dchecks settings args info = .ok emission) :
    ∃ without_method_body, parseMethodCallsArgs dchecks args false = .ok without_method_body ∧
      emission = emitMethodCalls host settings.interfaceParameterQualType without_method_body info.methods ⟨"",[]⟩ := by
  unfold methodCallsReply at replied
  split at replied
  · cases replied
  · rename_i without_method_body parsed
    cases replied
    exact ⟨without_method_body,parsed,rfl⟩

theorem reply_wrappers {settings : ReflectForPimplSettings Record} {args : List Arg} {info : ClassInfo Record}
    {emission : Emission} (replied : methodCallsReply host dchecks settings args info = .ok emission) :
    emission.replacer = String.join (emission.wrappers.map Wrapper.text) ∧
      ∃ without_method_body, parseMethodCallsArgs dchecks args false = .ok without_method_body ∧
        emission.wrappers = (info.methods.filter isPimplMethod).map
          (wrapperOf host settings.interfaceParameterQualType without_method_body) := by
  obtain ⟨without_method_body,parsed,rfl⟩ := methodCallsReply_ok replied
  refine ⟨emitMethodCalls_text _ _ _ _ _ (by simp),without_method_body,parsed,?_⟩
  simpa using emitMethodCalls_wrappers host settings.interfaceParameterQualType without_method_body info.methods ⟨"",[]⟩

theorem wrappers_methods (interfaceParameterQualType : String) (without_method_body : Bool) (methods : List MethodInfo) :
    (methods.map (wrapperOf host interfaceParameterQualType without_method_body)).map Wrapper.method = methods := by
  rw [List.map_map]
  exact (List.map_congr_left fun _ _ => rfl).trans (List.map_id _)

def skips (annotationCode : String) : Bool := starts_with annotationCode kSkipPimplAttr

-- The methods that should get a wrapper: every annotation counts, not the first.
def selected (method : MethodInfo) : Bool :=
  match method.decl with
  | none => false
  | some decl => !decl.annotations.any skips && isPimplMethod method

-- Where a wrapped method is marked to be skipped, its first annotation says so.
def SkipComesFirst (methods : List MethodInfo) : Prop :=
  ∀ method ∈ methods, ∀ decl, method.decl = some decl → isPimplMethod method = true →
    decl.annotations.any skips = true → ∃ first, decl.getAnnotateAttr = some first ∧ skips first = true

theorem keepsMethod_exact (method : MethodInfo) : keepsMethod method = true ↔
    ∃ decl, method.decl = some decl ∧ ∀ first, decl.getAnnotateAttr = some first → skips first = false := by
  unfold keepsMethod
  cases method.decl with
  | none => simp
  | some decl => cases found : decl.getAnnotateAttr <;> simp [found,skips]

theorem selected_exact (method : MethodInfo) : selected method = true ↔
    ∃ decl, method.decl = some decl ∧ (∀ annotationCode ∈ decl.annotations, skips annotationCode = false) ∧
      isPimplMethod method = true := by
  unfold selected
  cases method.decl with
  | none => simp
  | some decl => simp [List.any_eq_false]

theorem selected_kept (method : MethodInfo) (chosen : selected method = true) :
    (keepsMethod method && isPimplMethod method) = true := by
  obtain ⟨decl,declared,unmarked,pimpl⟩ := (selected_exact method).mp chosen
  rw [Bool.and_eq_true]
  refine ⟨(keepsMethod_exact method).mpr ⟨decl,declared,?_⟩,pimpl⟩
  intro first found
  exact unmarked first (List.mem_of_mem_head? found)

theorem kept_selected (method : MethodInfo) :
    ((keepsMethod method && isPimplMethod method) = true → selected method = true) ↔
      ∀ decl, method.decl = some decl → isPimplMethod method = true →
        decl.annotations.any skips = true → ∃ first, decl.getAnnotateAttr = some first ∧ skips first = true := by
  rw [Bool.and_eq_true,keepsMethod_exact,selected_exact]
  constructor
  · intro agree decl declared pimpl marked
    apply Classical.byContradiction
    intro unmarkedFirst
    have kept : ∀ first, decl.getAnnotateAttr = some first → skips first = false :=
      fun first found => Bool.eq_false_iff.mpr fun skipped => unmarkedFirst ⟨first,found,skipped⟩
    obtain ⟨own,sameDecl,unmarked,_⟩ := agree ⟨⟨decl,declared,kept⟩,pimpl⟩
    rw [declared] at sameDecl
    cases sameDecl
    obtain ⟨annotationCode,member,skipped⟩ := List.any_eq_true.mp marked
    rw [unmarked annotationCode member] at skipped
    cases skipped
  · intro honest kept
    rcases kept with ⟨⟨decl,declared,kept⟩,pimpl⟩
    refine ⟨decl,declared,?_,pimpl⟩
    intro annotationCode member
    apply Bool.eq_false_iff.mpr
    intro skipped
    obtain ⟨first,found,skippedFirst⟩ := honest decl declared pimpl (List.any_eq_true.mpr ⟨annotationCode,member,skipped⟩)
    rw [kept first found] at skippedFirst
    cases skippedFirst

theorem filter_agree {methods : List MethodInfo} {weak strong : MethodInfo → Bool}
    (stronger : ∀ method, strong method = true → weak method = true) :
    methods.filter weak = methods.filter strong ↔ ∀ method ∈ methods, weak method = true → strong method = true := by
  constructor
  · intro equal method member passes
    have inside : method ∈ methods.filter strong := by
      rw [← equal]
      exact List.mem_filter.mpr ⟨member,passes⟩
    exact (List.mem_filter.mp inside).2
  · intro agree
    apply List.filter_congr
    intro method member
    exact Bool.eq_iff_iff.mpr ⟨agree method member,stronger method⟩

-- Selection across both handlers: the reflection stores the class, any run may
-- follow, and the injection emits its wrappers from what it finds. The methods
-- wrapped are the intended ones exactly when a skip mark always comes first.
theorem wrapped_methods_exact (host : Host Record) (dchecks : Bool) (start : State Record)
    (reflection injection : SourceTransformOptions Record) {stored found final : State Record}
    {settings other : ReflectForPimplSettings Record} {record same : Record}
    {trace : List (Invocation Record × Except Failure Emission)} {removed emission : Emission}
    (reflects : reflectForPimpl host dchecks reflection start = .completed removed stored)
    (reflected : resolve host dchecks reflection.node = .ok (settings,record))
    (path : Runs host dchecks stored trace found)
    (injects : injectPimplMethodCalls host dchecks injection found = .completed emission final)
    (injected : resolve host dchecks injection.node = .ok (other,same))
    (sameKey : other.implParameterQualType = settings.implParameterQualType) :
    emission.replacer = String.join (emission.wrappers.map Wrapper.text) ∧
      (emission.wrappers.map Wrapper.method = (host.ReflectClass record).methods.filter selected ↔
        SkipComesFirst (host.ReflectClass record).methods) := by
  have kept := reflected_found reflects reflected path
  obtain ⟨info,read⟩ := inject_resolved injects injected
  have entry := read.found
  rw [sameKey,kept] at entry
  cases entry
  obtain ⟨written,without_method_body,_,wrappers⟩ := reply_wrappers read.replied
  refine ⟨written,?_⟩
  rw [wrappers,wrappers_methods,cleaned,List.filter_filter]
  simp only [Bool.and_comm (isPimplMethod _)]
  rw [filter_agree selected_kept]
  exact forall₂_congr fun method _ => kept_selected method

-- The class of the repository's own test.
def fooImpl : ClassInfo Unit where
  name := "FooImpl"
  decl := some ()
  methods := [
    {name := "FooImpl",decl := some {annotations := []},isCtor := true},
    {name := "~FooImpl",decl := some {annotations := []},isDtor := true},
    {name := "foo",decl := some {annotations := [],isConst := true,isNoexcept := true,returnType := "int"},
     params := [⟨"arg1","int&& arg1"⟩,⟨"arg2","const int& arg2"⟩]},
    {name := "baz",decl := some {annotations := [],returnType := "const std::string"}},
    {name := "bar",decl := some {annotations := ["skip_pimpl"],returnType := "int"},params := [⟨"a","int a"⟩]}]
  ASTRecordSize := 32
  ASTRecordNonVirtualAlignment := 8

def fooReflector : Invocation Unit := ⟨.reflect_for_pimpl,plainOptions [plainParameter "impl" "FooImpl" ()] []⟩
def fooDeclarations : Invocation Unit :=
  ⟨.inject_pimpl_method_calls,plainOptions [plainParameter "impl" "FooImpl" ()] [⟨"","without_method_body"⟩]⟩
def fooDefinitions : Invocation Unit :=
  ⟨.inject_pimpl_method_calls,
    plainOptions [plainParameter "impl" "FooImpl" (),plainParameter "interface" "Foo" ()] []⟩

instance (methods : List MethodInfo) : Decidable (SkipComesFirst methods) :=
  inferInstanceAs (Decidable (∀ method ∈ methods, ∀ decl ∈ method.decl, isPimplMethod method = true →
    decl.annotations.any skips = true → ∃ first ∈ decl.getAnnotateAttr, skips first = true))

-- The declarations are injected between the reflection and the definitions.
theorem wrapped_methods_witness :
    let host := plainHost fun _ => fooImpl
    let emission := emitMethodCalls host "Foo" false (cleaned fooImpl).methods ⟨"",[]⟩
    emission.replacer = String.join (emission.wrappers.map Wrapper.text) ∧
      emission.wrappers.map Wrapper.method = fooImpl.methods.filter selected :=
  have exactly := wrapped_methods_exact (plainHost fun _ => fooImpl) false State.start fooReflector.options
    fooDefinitions.options rfl rfl (runs_completed .nil (rfl : invoke _ _ fooDeclarations _ = .completed _ _)) rfl rfl rfl
  ⟨exactly.1,exactly.2.mpr (by decide)⟩

def markedSecond : ClassInfo Unit :=
  ⟨"FooImpl",some (),[{name := "bar",decl := some {annotations := ["nodiscard","skip_pimpl"]}}],8,8⟩

theorem second_annotation_wrapped :
    ∃ removed stored emission final,
      reflectForPimpl (plainHost fun _ => markedSecond) false (plainOptions [plainParameter "impl" "FooImpl" ()] [])
        State.start = .completed removed stored ∧
      injectPimplMethodCalls (plainHost fun _ => markedSecond) false
        (plainOptions [plainParameter "impl" "FooImpl" ()] []) stored = .completed emission final ∧
      emission.wrappers.map Wrapper.method ≠ markedSecond.methods.filter selected :=
  ⟨_,_,_,_,rfl,rfl,by decide⟩

-- A declaration and a definition of one method: the same fragments, apart from
-- the qualifier before the name and what stands after the trailer.
structure Matches (host : Host Record) (interfaceParameterQualType : String) (declaration definition : Wrapper) :
    Prop where
  method : declaration.method = definition.method
  templateHead : declaration.templateHead = definition.templateHead
  methodForwarding : declaration.methodForwarding = definition.methodForwarding
  params : declaration.params = definition.params
  methodTrailing : declaration.methodTrailing = definition.methodTrailing
  unqualified : declaration.qualifier = ""
  qualified : definition.qualifier = interfaceParameterQualType ++ "::"
  ended : declaration.body = ";\n"
  forwarded : definition.body = "\n\x7b\n return impl_->" ++ definition.method.name ++ "(" ++
    host.forwardMethodParamNames definition.method.params ++ ");\n\x7d\n"

theorem wrapperOf_matches {interfaceParameterQualType : String} (qualified : interfaceParameterQualType ≠ "")
    (method : MethodInfo) : Matches host interfaceParameterQualType (wrapperOf host "" true method)
      (wrapperOf host interfaceParameterQualType false method) where
  method := rfl
  templateHead := rfl
  methodForwarding := rfl
  params := rfl
  methodTrailing := rfl
  unqualified := rfl
  qualified := by simp [wrapperOf,qualified]
  ended := rfl
  forwarded := by
    simp only [wrapperOf,Bool.not_false,if_true,String.append_assoc]
    rfl

-- At whatever two points of a run, and in whichever order, the two injections
-- read the same entry, since nothing rewrites an entry once it is stored.
theorem declarations_match_definitions (host : Host Record) (dchecks : Bool) (start : State Record)
    {trace : List (Invocation Record × Except Failure Emission)}
    {declaration definition : Invocation Record} {declared defined : Emission}
    {inClass outOfClass : ReflectForPimplSettings Record} {record other : Record}
    (path : Runs host dchecks start trace s)
    (first : (declaration,.ok declared) ∈ trace) (second : (definition,.ok defined) ∈ trace)
    (firstRule : declaration.rule = .inject_pimpl_method_calls)
    (secondRule : definition.rule = .inject_pimpl_method_calls)
    (firstResolved : resolve host dchecks declaration.options.node = .ok (inClass,record))
    (secondResolved : resolve host dchecks definition.options.node = .ok (outOfClass,other))
    (sameKey : inClass.implParameterQualType = outOfClass.implParameterQualType)
    (bodiless : parseMethodCallsArgs dchecks declaration.options.args false = .ok true)
    (bodied : parseMethodCallsArgs dchecks definition.options.args false = .ok false)
    (unqualified : inClass.interfaceParameterQualType = "")
    (qualified : outOfClass.interfaceParameterQualType ≠ "") :
    declared.replacer = String.join (declared.wrappers.map Wrapper.text) ∧
      defined.replacer = String.join (defined.wrappers.map Wrapper.text) ∧
      declared.wrappers.length = defined.wrappers.length ∧
      ∀ (i : Nat) inClassWrapper outOfClassWrapper, declared.wrappers[i]? = some inClassWrapper →
        defined.wrappers[i]? = some outOfClassWrapper →
        Matches host outOfClass.interfaceParameterQualType inClassWrapper outOfClassWrapper := by
  obtain ⟨info,found,firstReply⟩ := methodCalls_settled path first firstRule firstResolved
  obtain ⟨again,foundAgain,secondReply⟩ := methodCalls_settled path second secondRule secondResolved
  rw [sameKey,foundAgain] at found
  cases found
  obtain ⟨firstText,_,firstParsed,firstWrappers⟩ := reply_wrappers firstReply
  obtain ⟨secondText,_,secondParsed,secondWrappers⟩ := reply_wrappers secondReply
  rw [bodiless] at firstParsed
  rw [bodied] at secondParsed
  cases firstParsed
  cases secondParsed
  rw [unqualified] at firstWrappers
  refine ⟨firstText,secondText,by simp [firstWrappers,secondWrappers],?_⟩
  intro i inClassWrapper outOfClassWrapper atFirst atSecond
  rw [firstWrappers,List.getElem?_map,Option.map_eq_some_iff] at atFirst
  rw [secondWrappers,List.getElem?_map,Option.map_eq_some_iff] at atSecond
  obtain ⟨method,atMethod,rfl⟩ := atFirst
  obtain ⟨same,atSame,rfl⟩ := atSecond
  rw [atMethod] at atSame
  cases atSame
  exact wrapperOf_matches qualified method

theorem declarations_match_witness :
    let host := plainHost fun _ => fooImpl
    let declared := emitMethodCalls host "" true (cleaned fooImpl).methods ⟨"",[]⟩
    let defined := emitMethodCalls host "Foo" false (cleaned fooImpl).methods ⟨"",[]⟩
    declared.replacer = String.join (declared.wrappers.map Wrapper.text) ∧
      defined.replacer = String.join (defined.wrappers.map Wrapper.text) ∧
      declared.wrappers.length = defined.wrappers.length ∧
      ∀ (i : Nat) inClassWrapper outOfClassWrapper, declared.wrappers[i]? = some inClassWrapper →
        defined.wrappers[i]? = some outOfClassWrapper →
        Matches host "Foo" inClassWrapper outOfClassWrapper :=
  declarations_match_definitions (plainHost fun _ => fooImpl) false State.start
    (runs_completed (runs_completed (runs_completed .nil (rfl : invoke _ _ fooReflector _ = .completed ⟨"",[]⟩ _))
      (rfl : invoke _ _ fooDeclarations _ = .completed _ _)) (rfl : invoke _ _ fooDefinitions _ = .completed _ _))
    (List.mem_append_left _ (List.mem_append_right _ (List.mem_singleton_self _)))
    (List.mem_append_right _ (List.mem_singleton_self _))
    rfl rfl rfl rfl rfl rfl rfl rfl (by decide)

end FlexPimpl.MethodCalls
