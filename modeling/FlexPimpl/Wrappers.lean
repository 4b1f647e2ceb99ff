import FlexPimpl.MethodCalls

namespace FlexPimpl.Wrappers
open Settings CodeGenerator Tooling Steps History MethodCalls

variable {Record : Type} {host : Host Record} {dchecks : Bool} {record : Record}

def wrapped (host : Host Record) (record : Record) : List MethodInfo :=
  (host.ReflectClass record).methods.filter fun method => keepsMethod method && isPimplMethod method

-- An emission of method calls for `record`: its class was reflected, any run
-- followed, and an injection that names the same class then completed.
inductive Generated (host : Host Record) (dchecks : Bool) (record : Record) : String → Bool → Emission → Prop where
  | completed {start stored found final : State Record} {reflection injection : SourceTransformOptions Record}
      {settings own : ReflectForPimplSettings Record} {same : Record} {removed emission : Emission}
      {trace : List (Invocation Record × Except Failure Emission)} {interfaceParameterQualType : String}
      {without_method_body : Bool}
      (reflects : reflectForPimpl host dchecks reflection start = .completed removed stored)
      (reflected : resolve host dchecks reflection.node = .ok (settings,record))
      (path : Runs host dchecks stored trace found)
      (injects : injectPimplMethodCalls host dchecks injection found = .completed emission final)
      (injected : resolve host dchecks injection.node = .ok (own,same))
      (sameKey : own.implParameterQualType = settings.implParameterQualType)
      (interface : own.interfaceParameterQualType = interfaceParameterQualType)
      (parsed : parseMethodCallsArgs dchecks injection.args false = .ok without_method_body) :
      Generated host dchecks record interfaceParameterQualType without_method_body emission

theorem generated_wrappers {interfaceParameterQualType : String} {without_method_body : Bool} {emission : Emission}
    (generated : Generated host dchecks record interfaceParameterQualType without_method_body emission) :
    emission.replacer = String.join (emission.wrappers.map Wrapper.text) ∧
      emission.wrappers =
        (wrapped host record).map (wrapperOf host interfaceParameterQualType without_method_body) := by
  cases generated with
  | completed reflects reflected path injects injected sameKey interface parsed =>
    have kept := reflected_found reflects reflected path
    obtain ⟨info,read⟩ := inject_resolved injects injected
    have entry := read.found
    rw [sameKey,kept] at entry
    cases entry
    obtain ⟨written,flag,parsedSame,wrappers⟩ := reply_wrappers read.replied
    rw [parsed] at parsedSame
    cases parsedSame
    rw [interface] at wrappers
    refine ⟨written,?_⟩
    rw [wrappers,cleaned,List.filter_filter]
    simp only [Bool.and_comm (isPimplMethod _),wrapped]

theorem generated_methods {interfaceParameterQualType : String} {without_method_body : Bool} {emission : Emission}
    (generated : Generated host dchecks record interfaceParameterQualType without_method_body emission) :
    emission.wrappers.map Wrapper.method = wrapped host record := by
  rw [(generated_wrappers generated).2,wrappers_methods]

theorem generated_wrapper {interfaceParameterQualType : String} {without_method_body : Bool} {emission : Emission}
    (generated : Generated host dchecks record interfaceParameterQualType without_method_body emission)
    {wrapper : Wrapper} (member : wrapper ∈ emission.wrappers) :
    ∃ method ∈ wrapped host record, wrapper = wrapperOf host interfaceParameterQualType without_method_body method := by
  rw [(generated_wrappers generated).2] at member
  obtain ⟨method,inside,same⟩ := List.mem_map.mp member
  exact ⟨method,inside,same.symm⟩

section Fields
variable (interfaceParameterQualType : String) (without_method_body : Bool) (method : MethodInfo)

@[simp] theorem wrapperOf_method :
    (wrapperOf host interfaceParameterQualType without_method_body method).method = method := rfl
@[simp] theorem wrapperOf_params :
    (wrapperOf host interfaceParameterQualType without_method_body method).params = methodParamDecls host method.params :=
  rfl

end Fields

theorem body_forwards (interfaceParameterQualType : String) (method : MethodInfo) :
    (wrapperOf host interfaceParameterQualType false method).body =
      "\n\x7b\n return impl_->" ++ method.name ++ "(" ++ host.forwardMethodParamNames method.params ++ ");\n\x7d\n" := by
  simp only [wrapperOf,Bool.not_false,if_true,String.append_assoc]
  rfl

-- From an empty cache, a reflection of a class that keeps a method and an
-- injection for it always complete.
theorem generated_completes {reflection injection : SourceTransformOptions Record}
    {settings own : ReflectForPimplSettings Record} {same : Record} {interfaceParameterQualType : String}
    {without_method_body : Bool} (reflected : resolve host dchecks reflection.node = .ok (settings,record))
    (injected : resolve host dchecks injection.node = .ok (own,same))
    (sameKey : own.implParameterQualType = settings.implParameterQualType)
    (interface : own.interfaceParameterQualType = interfaceParameterQualType)
    (parsed : parseMethodCallsArgs dchecks injection.args false = .ok without_method_body)
    (present : (cleaned (host.ReflectClass record)).methods ≠ []) :
    Generated host dchecks record interfaceParameterQualType without_method_body
      (emitMethodCalls host interfaceParameterQualType without_method_body
        (cleaned (host.ReflectClass record)).methods ⟨"",[]⟩) := by
  have some : (host.ReflectClass record).methods ≠ [] := by
    intro none
    exact present (by simp [cleaned,none])
  obtain ⟨stored,reflects⟩ := reflect_completes (s := State.start) reflected some rfl
  have found := reflected_found reflects reflected .nil
  rw [← sameKey] at found
  have replied : methodCallsReply host dchecks own injection.args (cleaned (host.ReflectClass record)) =
      .ok (emitMethodCalls host interfaceParameterQualType without_method_body
        (cleaned (host.ReflectClass record)).methods ⟨"",[]⟩) := by
    unfold methodCallsReply
    rw [parsed,interface]
  have injects := inject_completed.mpr ⟨own,same,_,injected,found,present,replied,rfl⟩
  exact .completed reflects reflected .nil injects injected sameKey interface parsed

-- The same for annotations of plain type names: in the class, and for an interface.
section Plain
variable {interface : String} (plain : host.extractTypeName = id)
  (present : (cleaned (host.ReflectClass record)).methods ≠ [])
include plain

theorem resolve_impl (record : Record) (args : List Arg) :
    resolve host dchecks (plainOptions [plainParameter "impl" "Impl" record] args).node =
      .ok ({implParameterQualType := "Impl",implArgQualType := some ⟨"Impl",some record⟩},record) := by
  simp [resolve,implRecord,getReflectForPimplSettings,parseParameters,parseParameter,plainOptions,plainParameter,plain]

theorem resolve_interface (interfaceNamed : interface ≠ "") (record : Record) (args : List Arg) :
    resolve host dchecks
        (plainOptions [plainParameter "impl" "Impl" record,plainParameter "interface" interface record] args).node =
      .ok ({implParameterQualType := "Impl",implArgQualType := some ⟨"Impl",some record⟩,
            interfaceParameterQualType := interface,interfaceArgQualType := some ⟨interface,some record⟩},record) := by
  simp [resolve,implRecord,getReflectForPimplSettings,parseParameters,parseParameter,plainOptions,plainParameter,plain,
    interfaceNamed]

variable (dchecks record) in
include present in
theorem generated_declarations : Generated host dchecks record "" true
    (emitMethodCalls host "" true (cleaned (host.ReflectClass record)).methods ⟨"",[]⟩) := by
  have parsed : parseMethodCallsArgs dchecks [⟨"","without_method_body"⟩] false = .ok true := by cases dchecks <;> rfl
  exact generated_completes (resolve_impl plain record []) (resolve_impl plain record _) rfl rfl
    parsed present

variable (dchecks record) in
include present in
theorem generated_definitions (interfaceNamed : interface ≠ "") : Generated host dchecks record interface false
    (emitMethodCalls host interface false (cleaned (host.ReflectClass record)).methods ⟨"",[]⟩) :=
  generated_completes (resolve_impl plain record [])
    (resolve_interface plain interfaceNamed record []) rfl rfl rfl present

end Plain

end FlexPimpl.Wrappers
