import FlexPimpl.Forwarding
import FlexPimpl.Overloading

namespace FlexPimpl.ConstOverloads
open CodeGenerator Wrappers Members Declarations Definitions Objects Forwarding CppTypes Overloading

variable {Record : Type} {host : Host Record} {dchecks : Bool} {record : Record}
  {interfaceParameterQualType : String} {expression : MethodParamInfo → String}

-- What is read from the texts of a member function that is no template, and
-- whether an object can be made from an lvalue of its type.
structure TypeReader extends NameReader where
  name : String → String
  type : String → Argument String
  isConst : String → Bool
  isStatic : String → Bool
  copies : Argument String → Bool

-- The member that the body calls through, unless the function has no object or
-- a parameter of that name.
def TypeReader.reachesImpl (reader : TypeReader) (definition : Definition) : Bool :=
  !reader.isStatic definition.declarator && definition.params.all fun param => reader.declares param != some "impl_"

def TypeReader.makesAll (reader : TypeReader) (definition : Definition) : Bool :=
  definition.params.all fun param => (reader.type param).isReference || reader.copies (reader.type param)

-- An argument is an lvalue, whatever the parameter it names refers to. In a
-- const member function what `impl_` leads to is const.
def constFrontEnd (reader : TypeReader) : FrontEnd (Function String String) (Query String String) Unit where
  declares := reader.declares
  refersTo := reader.refersTo
  signature := fun definition =>
    ⟨reader.name definition.declarator,definition.params.map reader.type,reader.isConst definition.trailing,
      reader.isStatic definition.declarator⟩
  call := fun definition _ =>
    if reader.reachesImpl definition && reader.makesAll definition then
      (pick (definition.params.map fun param => named (reader.type param))
          (definition.arguments.map (place reader.toNameReader definition.params))).map fun arguments =>
        ⟨definition.callee,reader.isConst definition.trailing,arguments⟩
    else none
  resolve := resolution

-- A class without member templates, variadic methods, volatile and reference
-- qualifiers. No two of its methods differ only in what parameters take by value.
structure PlainClass (host : Host Record) (record : Record) (source : MethodInfo → Member)
    (declared : MethodInfo → Function String String) : Prop where
  plain : ∀ method ∈ (host.ReflectClass record).methods, method.isTemplate = false
  fixed : ∀ method ∈ (host.ReflectClass record).methods, (source method).isVariadic = false
  unqualified : ∀ method ∈ (host.ReflectClass record).methods,
    (source method).isVolatile = false ∧ (source method).refQualifier = .none
  names : ∀ method ∈ (host.ReflectClass record).methods, (declared method).name = method.name
  qualifiers : ∀ method ∈ (host.ReflectClass record).methods,
    (declared method).isConst = (source method).isConst ∧ (declared method).isStatic = (source method).isStatic
  objects : ∀ method ∈ (host.ReflectClass record).methods, ∀ param ∈ (declared method).params,
    param.referred.isFunction = false
  apart : ((host.ReflectClass record).methods.map declared).Pairwise fun first second => ¬ Ties first second

structure Forwardable (copies : Argument String → Bool) (source : MethodInfo → Member)
    (declared : MethodInfo → Function String String) (method : MethodInfo) : Prop where
  accessible : (source method).access = .AS_public
  defined : (source method).isDeleted = false
  nonstatic : (source method).isStatic = false
  named : ∀ param ∈ method.params, param.name ≠ ""
  unshadowed : ∀ param ∈ method.params, param.name ≠ "impl_"
  lvalues : ∀ param ∈ (declared method).params, param.isRvalueReference = false
  copied : ∀ param ∈ (declared method).params, param.isReference = true ∨ copies param = true

instance (copies : Argument String → Bool) (source : MethodInfo → Member)
    (declared : MethodInfo → Function String String) (method : MethodInfo) :
    Decidable (Forwardable copies source declared method) :=
  decidable_of_iff
    ((source method).access = .AS_public ∧ (source method).isDeleted = false ∧ (source method).isStatic = false ∧
      (∀ param ∈ method.params, param.name ≠ "") ∧ (∀ param ∈ method.params, param.name ≠ "impl_") ∧
      (∀ param ∈ (declared method).params, param.isRvalueReference = false) ∧
      ∀ param ∈ (declared method).params, param.isReference = true ∨ copies param = true)
    ⟨fun all => ⟨all.1,all.2.1,all.2.2.1,all.2.2.2.1,all.2.2.2.2.1,all.2.2.2.2.2.1,all.2.2.2.2.2.2⟩,
      fun all => ⟨all.accessible,all.defined,all.nonstatic,all.named,all.unshadowed,all.lvalues,all.copied⟩⟩

theorem wrapped_sublist (host : Host Record) (record : Record) :
    (wrapped host record).Sublist (host.ReflectClass record).methods := List.filter_sublist

theorem const_counts {reader : TypeReader} {query : Query String String} {n : Nat} {wrapper : MethodInfo} {special : Unit}
    (chosen : (interface host interfaceParameterQualType expression (constFrontEnd reader) record).chosen resolution
      query n = some (wrapper,special)) : wrapper.params.length = n := by
  obtain ⟨counted,viable⟩ := chosen_viable chosen
  have sizes := viable.binds.length_eq
  rw [← counted,← sizes]
  simp [interface,constFrontEnd,printedOf,Definition.printed,definitionOf,original]

section Calls
variable {reader : TypeReader} {source : MethodInfo → Member} {declared : MethodInfo → Function String String}
  {method : MethodInfo}
  (reads : ReadsAs host interfaceParameterQualType expression (constFrontEnd reader) record)
  (signatures : ∀ method ∈ wrapped host record,
    (constFrontEnd reader).signature (printedOf host interfaceParameterQualType expression method) = declared method)
  (inside : method ∈ wrapped host record)
include signatures inside

theorem declared_params : (declared method).params = (original method).params.map reader.type := by
  rw [← signatures method inside]
  rfl

theorem makes_exact : reader.makesAll (printedOf host interfaceParameterQualType expression method) = true ↔
    ∀ param ∈ (declared method).params, param.isReference = true ∨ reader.copies param = true := by
  have params : (printedOf host interfaceParameterQualType expression method).params = (original method).params := rfl
  rw [declared_params signatures inside]
  simp [TypeReader.makesAll,params]

include reads

theorem reaches_exact : reader.reachesImpl (printedOf host interfaceParameterQualType expression method) = true ↔
    (declared method).isStatic = false ∧ ∀ param ∈ method.params, param.name ≠ "impl_" := by
  have isStatic : reader.isStatic (printedOf host interfaceParameterQualType expression method).declarator =
      (declared method).isStatic := congrArg Function.isStatic (signatures method inside)
  have params : (printedOf host interfaceParameterQualType expression method).params =
      method.params.map MethodParamInfo.fullDecl := rfl
  have declares : ∀ param ∈ method.params, reader.declares param.fullDecl = nameOf param := reads.declares method inside
  have shadows : ∀ param : MethodParamInfo, nameOf param = some "impl_" ↔ param.name = "impl_" := by
    intro param
    unfold nameOf
    split
    · rename_i unnamed
      simp [unnamed]
    · simp
  simp only [TypeReader.reachesImpl,isStatic,params,Bool.and_eq_true,Bool.not_eq_true',List.all_map,List.all_eq_true,
    Function.comp_apply,bne_iff_ne]
  refine and_congr_right fun _ => forall₂_congr fun param listed => ?_
  rw [declares param listed,ne_eq,shadows]

theorem named_arguments (allNamed : ∀ param ∈ method.params, param.name ≠ "") :
    pick ((printedOf host interfaceParameterQualType expression method).params.map fun param => named (reader.type param))
        ((printedOf host interfaceParameterQualType expression method).arguments.map
          (place reader.toNameReader (printedOf host interfaceParameterQualType expression method).params)) =
      some ((declared method).params.map named) := by
  have places := (member_places reads inside).mpr allNamed
  have size : method.params.length = ((declared method).params.map named).length := by
    simp [declared_params signatures inside,original]
  have all := pick_all ((declared method).params.map named)
  rw [← size,← places,declared_params signatures inside,List.map_map] at all
  rw [declared_params signatures inside,List.map_map]
  exact all

theorem call_named (name : (declared method).name = method.name) (allNamed : ∀ param ∈ method.params, param.name ≠ "") :
    (constFrontEnd reader).call (printedOf host interfaceParameterQualType expression method) () =
      if reader.reachesImpl (printedOf host interfaceParameterQualType expression method) &&
          reader.makesAll (printedOf host interfaceParameterQualType expression method) then
        some ⟨(declared method).name,(declared method).isConst,(declared method).params.map named⟩
      else none := by
  have isConst : reader.isConst (printedOf host interfaceParameterQualType expression method).trailing =
      (declared method).isConst := congrArg Function.isConst (signatures method inside)
  have callee : (printedOf host interfaceParameterQualType expression method).callee = method.name := rfl
  simp only [constFrontEnd]
  rw [named_arguments reads signatures inside allNamed,isConst,callee,name,Option.map_some]

theorem calls_exact (plain : PlainClass host record source declared) :
    Calls host interfaceParameterQualType expression (constFrontEnd reader) source declared record method () method () ↔
      Forwardable reader.copies source declared method := by
  have declaredIn := (wrapped_sublist host record).subset inside
  have name := plain.names method declaredIn
  have size : (declared method).params.length = method.params.length := by
    simp [declared_params signatures inside,original]
  constructor
  · intro calls
    obtain ⟨query,called,chosen⟩ := calls.selects
    rw [call_named reads signatures inside name calls.named] at called
    split at called
    · rename_i possible
      cases called
      rw [Bool.and_eq_true,reaches_exact reads signatures inside,makes_exact signatures inside] at possible
      obtain ⟨⟨nonstatic,unshadowed⟩,copied⟩ := possible
      have binds := (chosen_viable chosen).2.binds
      rw [List.forall₂_map_right_iff] at binds
      refine ⟨calls.accessible,calls.defined,?_,calls.named,unshadowed,?_,copied⟩
      · rw [← (plain.qualifiers method declaredIn).2,nonstatic]
      · intro param listed
        exact (named_binds param).mp (List.forall₂_same.mp binds param listed)
    · cases called
  · intro forwardable
    have possible : (reader.reachesImpl (printedOf host interfaceParameterQualType expression method) &&
        reader.makesAll (printedOf host interfaceParameterQualType expression method)) = true := by
      rw [Bool.and_eq_true,reaches_exact reads signatures inside,makes_exact signatures inside,
        (plain.qualifiers method declaredIn).2]
      exact ⟨⟨forwardable.nonstatic,forwardable.unshadowed⟩,forwardable.copied⟩
    have arguments : (declared method).params.map named = (declared method).params.map passed :=
      List.map_congr_left fun param listed => named_passed (forwardable.lvalues param listed)
    refine ⟨forwardable.named,⟨(declared method).site,?_,?_⟩,forwardable.accessible,forwardable.defined⟩
    · rw [call_named reads signatures inside name forwardable.named,if_pos possible,arguments]
      rfl
    · rw [← size]
      exact site_chosen plain.apart declaredIn

end Calls

-- A pair of const overloads, and one of two others that is skipped.
def boxImpl : ClassInfo Unit where
  name := "BoxImpl"
  decl := some ()
  methods := [
    {name := "value",decl := some {annotations := [],isConst := true,returnType := "int"}},
    {name := "value",decl := some {annotations := [],returnType := "int&"}},
    {name := "put",decl := some {annotations := []},params := [⟨"text","const std::string& text"⟩]},
    {name := "put",decl := some {annotations := ["skip_pimpl"]},params := [⟨"text","std::string&& text"⟩]}]
  ASTRecordSize := 8
  ASTRecordNonVirtualAlignment := 8

def boxHost : Host Unit := plainHost fun _ => boxImpl

def boxType (text : String) : Argument String :=
  if text = "const std::string& text" then .reference .lvalue (.constant (true,false) "std::string")
  else .reference .rvalue (.constant ⊥ "std::string")

def boxReader : TypeReader where
  declares := lastWord
  refersTo := lastWord
  name := fun text => (lastWord text).getD ""
  type := boxType
  isConst := fun text => " const".toList.isPrefixOf text.toList
  isStatic := fun text => "static ".toList.isPrefixOf text.toList
  copies := fun _ => true

def boxSource (method : MethodInfo) : Member :=
  match method.decl with
  | none => {}
  | some decl => {toMethodQualifiers := decl.toMethodQualifiers}

def boxDeclared (method : MethodInfo) : Function String String where
  name := method.name
  params := method.params.map fun param => boxType param.fullDecl
  isConst := (boxSource method).isConst
  isStatic := (boxSource method).isStatic

def forwardedBox : Emission := emitMethodCalls boxHost "Box" false (Tooling.cleaned boxImpl).methods ⟨"",[]⟩

theorem forwardedBox_reads : ReadsAs boxHost "Box" MethodParamInfo.name (constFrontEnd boxReader) () :=
  ⟨by decide,by decide,by decide,by decide,fun _ _ _ _ chosen => const_counts chosen⟩

theorem boxPlain : PlainClass boxHost () boxSource boxDeclared :=
  ⟨by decide,by decide,by decide,by decide,by decide,by decide,by decide⟩

end FlexPimpl.ConstOverloads
