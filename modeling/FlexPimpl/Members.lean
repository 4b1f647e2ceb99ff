import FlexPimpl.CppTokens
import FlexPimpl.Wrappers

namespace FlexPimpl.Members
open CodeGenerator Wrappers CppTokens

variable {Record : Type} {host : Host Record} {dchecks : Bool} {record : Record}

-- A member function as the class of the implementation declares it. The plugin
-- sees none of this: it sees the texts that were printed from it.
inductive Access where
  | AS_public | AS_protected | AS_private
deriving DecidableEq, Repr

structure Parameter where
  name : Option String := none
  type : String
  defaultArgument : Option String := none
deriving DecidableEq, Repr

structure TemplateParameter where
  name : Option String := none
  kind : String
  defaultArgument : Option String := none
deriving DecidableEq, Repr

structure Member extends MethodQualifiers where
  access : Access := .AS_public
  isDeleted : Bool := false
  templateParameters : List TemplateParameter := []
  params : List Parameter := []
  isVariadic : Bool := false
deriving DecidableEq, Repr

-- What C++ allows on a declaration inside the class only.
inductive ClassOnlyPart where
  | staticSpecifier
  | defaultArgument (parameter : Nat)
  | templateDefaultArgument (parameter : Nat)
deriving DecidableEq, Repr

def Member.Has (member : Member) : ClassOnlyPart → Prop
  | .staticSpecifier => member.isStatic = true
  | .defaultArgument i => ∃ parameter, member.params[i]? = some parameter ∧ parameter.defaultArgument ≠ none
  | .templateDefaultArgument i =>
    ∃ parameter, member.templateParameters[i]? = some parameter ∧ parameter.defaultArgument ≠ none

def fragment (wrapper : Wrapper) : ClassOnlyPart → String
  | .staticSpecifier => wrapper.methodForwarding
  | .defaultArgument _ => wrapper.params
  | .templateDefaultArgument _ => wrapper.templateHead

-- However a fragment is searched for a part, the part stands in the declaration
-- and not in the definition.
def KeptInClass (shows : ClassOnlyPart → String → Prop) (member : Member) (declaration definition : Wrapper) : Prop :=
  ∀ part, member.Has part → shows part (fragment declaration part) ∧ ¬ shows part (fragment definition part)

theorem fragment_mode (interfaceParameterQualType : String) (method : MethodInfo) (part : ClassOnlyPart) :
    fragment (wrapperOf host "" true method) part =
      fragment (wrapperOf host interfaceParameterQualType false method) part := by
  cases part <;> rfl

-- Both modes print the same fragments, so a part is in both or in neither.
theorem class_only_parts {interfaceParameterQualType : String} {declared defined : Emission}
    (declaration : Generated host dchecks record "" true declared)
    (definition : Generated host dchecks record interfaceParameterQualType false defined)
    (shows : ClassOnlyPart → String → Prop) (source : MethodInfo → Member) :
    declared.wrappers.length = defined.wrappers.length ∧
      ∀ (i : Nat) inClass outOfClass, declared.wrappers[i]? = some inClass → defined.wrappers[i]? = some outOfClass →
        inClass.method = outOfClass.method ∧
        (KeptInClass shows (source inClass.method) inClass outOfClass ↔
          ∀ part, ¬ (source inClass.method).Has part) := by
  have first := (generated_wrappers declaration).2
  have second := (generated_wrappers definition).2
  refine ⟨by simp [first,second],?_⟩
  intro i inClass outOfClass atFirst atSecond
  rw [first,List.getElem?_map,Option.map_eq_some_iff] at atFirst
  rw [second,List.getElem?_map,Option.map_eq_some_iff] at atSecond
  obtain ⟨method,atMethod,rfl⟩ := atFirst
  obtain ⟨same,atSame,rfl⟩ := atSecond
  rw [atMethod] at atSame
  cases atSame
  refine ⟨rfl,?_⟩
  constructor
  · intro kept part has
    obtain ⟨shown,hidden⟩ := kept part has
    rw [fragment_mode interfaceParameterQualType] at shown
    exact hidden shown
  · intro none part has
    exact absurd has (none part)

def bufferImpl : ClassInfo Unit where
  name := "BufferImpl"
  decl := some ()
  methods := [
    {name := "resize",decl := some {annotations := []},params := [⟨"size","int size = 0"⟩]},
    {name := "create",decl := some {annotations := [],isStatic := true,returnType := "int"}},
    {name := "grow",decl := some {annotations := []}}]
  ASTRecordSize := 8
  ASTRecordNonVirtualAlignment := 8

def bufferHost : Host Unit := plainHost fun _ => bufferImpl

def bufferMember (method : MethodInfo) : Member :=
  if method.name = "resize" then {params := [{name := some "size",type := "int",defaultArgument := some "0"}]}
  else if method.name = "create" then {isStatic := true}
  else {access := .AS_private}

def bufferDeclarations : Emission := emitMethodCalls bufferHost "" true bufferImpl.methods ⟨"",[]⟩
def bufferDefinitions : Emission := emitMethodCalls bufferHost "Buffer" false bufferImpl.methods ⟨"",[]⟩

def showsPart : ClassOnlyPart → String → Prop
  | .staticSpecifier,text => .word "static" ∈ lex text
  | .defaultArgument _,text | .templateDefaultArgument _,text => .punct '=' ∈ lex text

instance (part : ClassOnlyPart) (text : String) : Decidable (showsPart part text) := by
  cases part <;> exact inferInstanceAs (Decidable (_ ∈ _))

theorem class_only_parts_witness :
    bufferDeclarations.wrappers.length = bufferDefinitions.wrappers.length ∧
      ∀ (i : Nat) inClass outOfClass, bufferDeclarations.wrappers[i]? = some inClass →
        bufferDefinitions.wrappers[i]? = some outOfClass →
        inClass.method = outOfClass.method ∧
        (KeptInClass showsPart (bufferMember inClass.method) inClass outOfClass ↔
          ∀ part, ¬ (bufferMember inClass.method).Has part) :=
  class_only_parts (generated_declarations false () rfl (by decide))
    (generated_definitions false () rfl (by decide) (by decide)) showsPart bufferMember

theorem default_argument_repeated : Generated bufferHost false () "" true bufferDeclarations ∧
    Generated bufferHost false () "Buffer" false bufferDefinitions ∧
    ∃ inClass outOfClass, bufferDeclarations.wrappers[0]? = some inClass ∧
      bufferDefinitions.wrappers[0]? = some outOfClass ∧
      ¬ KeptInClass showsPart (bufferMember inClass.method) inClass outOfClass := by
  refine ⟨generated_declarations false () rfl (by decide),generated_definitions false () rfl (by decide) (by decide),
    _,_,rfl,rfl,?_⟩
  intro kept
  have part := kept (.defaultArgument 0) ⟨_,rfl,by decide⟩
  exact part.2 (by decide)

-- The printer's option for the static specifier: part of ALL, apart from VIRTUAL.
structure StaticPrinter (host : Host Record) (methods : List MethodInfo) (source : MethodInfo → Member)
    (forwardingStatic : BitVec 32) : Prop where
  nonzero : forwardingStatic ≠ 0
  included : host.forwardingAll &&& forwardingStatic = forwardingStatic
  apart : host.forwardingVirtual &&& forwardingStatic = 0
  printed : ∀ method ∈ methods, ∀ options,
    Token.word "static" ∈ lex (host.printMethodForwarding method host.kSeparatorWhitespace options) ↔
      (source method).isStatic = true ∧ options &&& forwardingStatic ≠ 0

def Member.parameterNames (member : Member) : List String :=
  member.templateParameters.filterMap TemplateParameter.name ++ member.params.filterMap Parameter.name

-- A call of an accessible method, from a function whose `impl_` is the member.
structure Callable (source : MethodInfo → Member) (wrapper : Wrapper) : Prop where
  calls : ∃ arguments, wrapper.body =
    "\n\x7b\n return impl_->" ++ wrapper.method.name ++ "(" ++ arguments ++ ");\n\x7d\n"
  accessible : (source wrapper.method).access = .AS_public
  defined : (source wrapper.method).isDeleted = false
  nonstatic : Token.word "static" ∉ lex wrapper.methodForwarding
  unshadowed : "impl_" ∉ (source wrapper.method).parameterNames

theorem mask_keeps {all virtual static : BitVec 32} (included : all &&& static = static)
    (apart : virtual &&& static = 0) : all &&& ~~~virtual &&& static = static := by
  ext i inside
  have first := congrArg (fun options => options[i]) included
  have second := congrArg (fun options => options[i]) apart
  simp only [BitVec.ofNat_eq_ofNat,BitVec.getElem_and,BitVec.getElem_not,BitVec.getElem_zero] at first second ⊢
  grind

theorem static_forwarded {methods : List MethodInfo} {source : MethodInfo → Member} {forwardingStatic : BitVec 32}
    (printer : StaticPrinter host methods source forwardingStatic) {method : MethodInfo} (member : method ∈ methods) :
    Token.word "static" ∈ lex (methodForwarding host method) ↔ (source method).isStatic = true := by
  unfold methodForwarding
  rw [printer.printed method member,mask_keeps printer.included printer.apart]
  exact and_iff_left printer.nonzero

-- The filters ask neither for access, nor for a definition, an object or names.
theorem wrappers_callable {interfaceParameterQualType : String} {emission : Emission}
    (generated : Generated host dchecks record interfaceParameterQualType false emission)
    {source : MethodInfo → Member} {forwardingStatic : BitVec 32}
    (printer : StaticPrinter host (wrapped host record) source forwardingStatic) :
    emission.wrappers.map Wrapper.method = wrapped host record ∧
      ∀ wrapper ∈ emission.wrappers, Callable source wrapper ↔
        (source wrapper.method).access = .AS_public ∧ (source wrapper.method).isDeleted = false ∧
          (source wrapper.method).isStatic = false ∧ "impl_" ∉ (source wrapper.method).parameterNames := by
  refine ⟨generated_methods generated,?_⟩
  intro wrapper member
  obtain ⟨method,inside,rfl⟩ := generated_wrapper generated member
  have static := static_forwarded printer inside
  constructor
  · intro callable
    refine ⟨callable.accessible,callable.defined,?_,callable.unshadowed⟩
    apply Bool.eq_false_iff.mpr
    intro isStatic
    exact callable.nonstatic (static.mpr isStatic)
  · intro ordinary
    rcases ordinary with ⟨accessible,defined,nonstatic,unshadowed⟩
    refine ⟨⟨host.forwardMethodParamNames method.params,body_forwards _ _⟩,accessible,defined,?_,unshadowed⟩
    intro printed
    exact Bool.false_ne_true (nonstatic.symm.trans (static.mp printed))

theorem bufferPrinter : StaticPrinter bufferHost (wrapped bufferHost ()) bufferMember 1 where
  nonzero := by decide
  included := by decide
  apart := by decide
  printed := by
    intro method member options
    have known : method ∈ bufferImpl.methods := (List.mem_filter.mp member).1
    simp only [bufferImpl,List.mem_cons,List.not_mem_nil,or_false] at known
    rcases known with rfl | rfl | rfl
    · simp only [bufferHost,plainHost,Bool.false_eq_true,false_and,if_false]
      exact iff_of_false (by decide) fun flag => absurd flag.1 (by decide)
    · by_cases allowed : options &&& 1 = 0
      · simp only [bufferHost,plainHost,allowed,ne_eq,not_true_eq_false,and_false,if_false,Bool.false_eq_true,false_and]
        decide
      · simp only [bufferHost,plainHost,allowed,ne_eq,not_false_eq_true,and_true,if_true,Bool.false_eq_true,false_and,
          if_false]
        decide
    · simp only [bufferHost,plainHost,Bool.false_eq_true,false_and,if_false]
      exact iff_of_false (by decide) fun flag => absurd flag.1 (by decide)

theorem wrappers_callable_witness :
    bufferDefinitions.wrappers.map Wrapper.method = wrapped bufferHost () ∧
      ∀ wrapper ∈ bufferDefinitions.wrappers, Callable bufferMember wrapper ↔
        (bufferMember wrapper.method).access = .AS_public ∧ (bufferMember wrapper.method).isDeleted = false ∧
          (bufferMember wrapper.method).isStatic = false ∧ "impl_" ∉ (bufferMember wrapper.method).parameterNames :=
  wrappers_callable (generated_definitions false () rfl (by decide) (by decide)) bufferPrinter

theorem static_and_private_wrapped : Generated bufferHost false () "Buffer" false bufferDefinitions ∧
    (∃ wrapper ∈ bufferDefinitions.wrappers, wrapper.method.name = "create" ∧ ¬ Callable bufferMember wrapper) ∧
    ∃ wrapper ∈ bufferDefinitions.wrappers, wrapper.method.name = "grow" ∧ ¬ Callable bufferMember wrapper := by
  refine ⟨generated_definitions false () rfl (by decide) (by decide),?_,?_⟩
  · refine ⟨wrapperOf bufferHost "Buffer" false
      {name := "create",decl := some {annotations := [],isStatic := true,returnType := "int"}},by decide,rfl,?_⟩
    intro callable
    exact callable.nonstatic (by decide)
  · refine ⟨wrapperOf bufferHost "Buffer" false {name := "grow",decl := some {annotations := []}},by decide,rfl,?_⟩
    intro callable
    cases callable.accessible

end FlexPimpl.Members
