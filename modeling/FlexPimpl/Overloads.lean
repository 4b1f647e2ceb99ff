import FlexPimpl.Members

namespace FlexPimpl.Overloads
open CodeGenerator Wrappers Members CppTokens

variable {Record : Type} {host : Host Record} {dchecks : Bool} {record : Record} {methods : List MethodInfo}
  {source : MethodInfo → Member}

structure Overload where
  name : String
  templateParameters : List String
  parameterTypes : List String
  isConst : Bool
  isVolatile : Bool
  refQualifier : RefQualifierKind
deriving DecidableEq, Repr

structure Qualifiers where
  isConst : Bool
  isVolatile : Bool
  refQualifier : RefQualifierKind
deriving DecidableEq, Repr

def overload (source : MethodInfo → Member) (method : MethodInfo) : Overload where
  name := method.name
  templateParameters := (source method).templateParameters.map TemplateParameter.kind
  parameterTypes := (source method).params.map Parameter.type ++ if (source method).isVariadic then ["..."] else []
  isConst := (source method).isConst
  isVolatile := (source method).isVolatile
  refQualifier := (source method).refQualifier

structure Reader where
  templateParameters : String → List String
  parameterTypes : String → List String
  qualifiers : String → Qualifiers

def Reader.overload (reader : Reader) (wrapper : Wrapper) : Overload where
  name := wrapper.qualifier ++ wrapper.method.name
  templateParameters := reader.templateParameters wrapper.templateHead
  parameterTypes := reader.parameterTypes wrapper.params
  isConst := (reader.qualifiers wrapper.methodTrailing).isConst
  isVolatile := (reader.qualifiers wrapper.methodTrailing).isVolatile
  refQualifier := (reader.qualifiers wrapper.methodTrailing).refQualifier

-- The options that the trailing printer has for the two other qualifiers.
structure TrailingOptions where
  volatileOption : BitVec 32
  refOption : BitVec 32

-- What is left of the qualifiers of a member when only some may be printed.
def allowed (member : Member) (allowsConst allowsVolatile allowsRef : Bool) : Qualifiers where
  isConst := member.isConst && allowsConst
  isVolatile := member.isVolatile && allowsVolatile
  refQualifier := if allowsRef then member.refQualifier else .none

-- The parameter texts tell what was declared, and the trailing printer prints
-- the qualifiers that its options allow; the options for const, volatile and
-- references are bits of their own.
structure ReadAs (host : Host Record) (methods : List MethodInfo) (source : MethodInfo → Member) (reader : Reader)
    (trailing : TrailingOptions) : Prop where
  templateHeads : ∀ method ∈ methods, reader.templateParameters (wrapperOf host "" true method).templateHead =
    (overload source method).templateParameters
  parameters : ∀ method ∈ methods, reader.parameterTypes (methodParamDecls host method.params) =
    (overload source method).parameterTypes
  qualifiers : ∀ method ∈ methods, ∀ options,
    reader.qualifiers (host.printMethodTrailing method host.kSeparatorWhitespace options) =
      allowed (source method) (options &&& host.trailingConst != 0) (options &&& trailing.volatileOption != 0)
        (options &&& trailing.refOption != 0)
  constOption : host.trailingConst ≠ 0
  volatileOption : (host.trailingNothing ||| host.trailingConst ||| host.trailingNoexcept) &&&
    trailing.volatileOption = 0
  refOption : (host.trailingNothing ||| host.trailingConst ||| host.trailingNoexcept) &&& trailing.refOption = 0

def Overload.dropped (overload : Overload) : Overload := {overload with isVolatile := false,refQualifier := .none}

def Overload.qualified (overload : Overload) (qualifier : String) : Overload :=
  {overload with name := qualifier ++ overload.name}

theorem mask_allows (nothing allowed noexcept : BitVec 32) : (nothing ||| allowed ||| noexcept) &&& allowed = allowed := by
  ext i inside
  simp only [BitVec.getElem_and,BitVec.getElem_or]
  grind

theorem trailing_read {reader : Reader} {trailing : TrailingOptions}
    (read : ReadAs host methods source reader trailing) {method : MethodInfo} (member : method ∈ methods) :
    reader.qualifiers (methodTrailing host method) = ⟨(source method).isConst,false,.none⟩ := by
  unfold methodTrailing
  rw [read.qualifiers method member]
  have kept : (host.trailingConst != 0) = true := bne_iff_ne.mpr read.constOption
  rw [read.volatileOption,read.refOption,mask_allows,kept]
  simp [allowed]

theorem overload_read {reader : Reader} {trailing : TrailingOptions}
    (read : ReadAs host methods source reader trailing) (interfaceParameterQualType : String)
    (without_method_body : Bool) {method : MethodInfo} (member : method ∈ methods) :
    reader.overload (wrapperOf host interfaceParameterQualType without_method_body method) =
      (overload source method).dropped.qualified
        (wrapperOf host interfaceParameterQualType without_method_body method).qualifier := by
  have head := read.templateHeads method member
  have params := read.parameters method member
  have trail := trailing_read read member
  unfold Reader.overload Overload.qualified Overload.dropped
  simp only [wrapperOf] at head ⊢
  rw [head,params,trail]
  rfl

theorem qualified_eq {first second : Overload} {qualifier : String} :
    first.qualified qualifier = second.qualified qualifier ↔ first = second := by
  obtain ⟨name,_⟩ := first
  obtain ⟨other,_⟩ := second
  simp [Overload.qualified,String.append_right_inj]

-- Two methods that only a dropped qualifier tells apart.
def DroppedApart (source : MethodInfo → Member) (first second : MethodInfo) : Prop :=
  overload source first ≠ overload source second ∧
    (overload source first).dropped = (overload source second).dropped

-- Distinct overloads stay distinct, in declarations as in definitions, exactly
-- when volatile and the reference qualifier tell no two of them apart.
theorem overloads_distinct {interfaceParameterQualType : String} {without_method_body : Bool} {emission : Emission}
    (generated : Generated host dchecks record interfaceParameterQualType without_method_body emission)
    {reader : Reader} {trailing : TrailingOptions}
    (read : ReadAs host (wrapped host record) source reader trailing)
    (distinct : ((wrapped host record).map (overload source)).Nodup) :
    (emission.wrappers.map reader.overload).Nodup ↔
      (wrapped host record).Pairwise fun first second => ¬ DroppedApart source first second := by
  have emitted : (emission.wrappers.map reader.overload).Nodup ↔ (wrapped host record).Pairwise fun first second =>
      (overload source first).dropped ≠ (overload source second).dropped := by
    rw [(generated_wrappers generated).2,List.map_map,List.Nodup,List.pairwise_map]
    apply List.Pairwise.iff_of_mem
    intro first second firstMember secondMember
    have sameQualifier : (wrapperOf host interfaceParameterQualType without_method_body second).qualifier =
        (wrapperOf host interfaceParameterQualType without_method_body first).qualifier := rfl
    simp only [Function.comp_apply,overload_read read _ _ firstMember,overload_read read _ _ secondMember]
    rw [sameQualifier,ne_eq,qualified_eq]
  have apart : (wrapped host record).Pairwise fun first second => overload source first ≠ overload source second :=
    List.pairwise_map.mp distinct
  rw [emitted]
  constructor
  · intro pairwise
    exact pairwise.imp fun different dropped => different dropped.2
  · intro pairwise
    exact (pairwise.and apart).imp fun both same => both.1 ⟨both.2,same⟩

def optionalImpl : ClassInfo Unit where
  name := "OptionalImpl"
  decl := some ()
  methods := [
    {name := "value",decl := some {annotations := [],refQualifier := .lValue,returnType := "int"}},
    {name := "value",decl := some {annotations := [],refQualifier := .rValue,returnType := "int"}},
    {name := "value",decl := some {annotations := [],isConst := true,returnType := "int"}},
    {name := "value",decl := some {annotations := [],returnType := "int"},params := [⟨"other","int other"⟩]}]
  ASTRecordSize := 8
  ASTRecordNonVirtualAlignment := 8

def optionalTrailing (method : MethodInfo) (allowsConst allowsVolatile allowsRef : Bool) : List String :=
  match method.decl with
  | none => []
  | some decl =>
    (if decl.isConst && allowsConst then ["const"] else []) ++
    (if decl.isVolatile && allowsVolatile then ["volatile"] else []) ++
    (match decl.refQualifier,allowsRef with
      | .lValue,true => ["&"]
      | .rValue,true => ["&&"]
      | _,_ => [])

def optionalHost : Host Unit := {plainHost (fun _ => optionalImpl) with
  printMethodTrailing := fun method separator options =>
    separator.intercalate (optionalTrailing method (options &&& 1 != 0) (options &&& 4 != 0) (options &&& 8 != 0))}

def optionalMember (method : MethodInfo) : Member :=
  match method.decl with
  | none => {}
  | some decl =>
    {toMethodQualifiers := decl.toMethodQualifiers,
     params := method.params.map fun parameter => {name := some parameter.name,type := "int"}}

def optionalReader : Reader where
  templateParameters := fun _ => []
  parameterTypes := fun text => if text = "" then [] else ["int"]
  qualifiers := fun text =>
    ⟨(lex text).contains (.word "const"),(lex text).contains (.word "volatile"),
      match (lex text).count (.punct '&') with
      | 0 => .none
      | 1 => .lValue
      | _ => .rValue⟩

theorem optional_qualifiers : ∀ method ∈ wrapped optionalHost (), ∀ allowsConst allowsVolatile allowsRef,
    optionalReader.qualifiers (" ".intercalate (optionalTrailing method allowsConst allowsVolatile allowsRef)) =
      allowed (optionalMember method) allowsConst allowsVolatile allowsRef := by decide

theorem optional_readAs : ReadAs optionalHost (wrapped optionalHost ()) optionalMember optionalReader ⟨4,8⟩ where
  templateHeads := by decide
  parameters := by decide
  qualifiers := fun method member _ => optional_qualifiers method member _ _ _
  constOption := by decide
  volatileOption := by decide
  refOption := by decide

def optionalDefinitions : Emission :=
  emitMethodCalls optionalHost "Optional" false (Tooling.cleaned optionalImpl).methods ⟨"",[]⟩

theorem overloads_distinct_witness :
    (optionalDefinitions.wrappers.map optionalReader.overload).Nodup ↔
      (wrapped optionalHost ()).Pairwise fun first second => ¬ DroppedApart optionalMember first second :=
  overloads_distinct (generated_definitions false () rfl (by decide) (by decide)) optional_readAs (by decide)

-- `int Optional::value() ` twice, for `value() &` and `value() &&`.
theorem ref_qualified_merged : Generated optionalHost false () "Optional" false optionalDefinitions ∧
    ReadAs optionalHost (wrapped optionalHost ()) optionalMember optionalReader ⟨4,8⟩ ∧
    ((wrapped optionalHost ()).map (overload optionalMember)).Nodup ∧
    ¬ (optionalDefinitions.wrappers.map optionalReader.overload).Nodup :=
  ⟨generated_definitions false () rfl (by decide) (by decide),optional_readAs,by decide,by decide⟩

end FlexPimpl.Overloads
