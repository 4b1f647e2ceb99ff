import FlexPimpl.Declarations
import FlexPimpl.TemplateSelection

namespace FlexPimpl.Templates
open CodeGenerator Wrappers CppTypes TemplateDeduction

variable {Record : Type} {host : Host Record} {dchecks : Bool} {record : Record}

abbrev Signature := FunctionTemplate String String
abbrev Instantiation := Assignment String String

def callText (wrapper : Wrapper) : List Char :=
  (wrapper.body.toList.dropPrefix? ("\n\x7b\n return impl_->" ++ wrapper.method.name).toList).getD []

-- The template arguments written between the called name and its arguments.
def explicitText (wrapper : Wrapper) : Option (List Char) :=
  match callText wrapper with
  | '<' :: rest => (Brackets.group Declarations.role .angle [] rest).map Prod.fst
  | _ => none

def argumentText (wrapper : Wrapper) : String :=
  String.ofList ((callText wrapper).tail.take ((callText wrapper).tail.length - ");\n\x7d\n".length))

-- How texts read: a template head with a parameter list, template arguments that
-- are written out, and how each argument of a call passes on a parameter.
structure Reader where
  signature : String → String → Signature
  written : List Char → Instantiation → List (Supplied String)
  passings : String → List (Option Passing)

section Calls
variable (meaning : String → Argument String → Argument String)
  (makes : Expression String → Argument String → Prop) (reader : Reader) (signature : MethodInfo → Signature)

-- In an instantiation of the wrapper, the call in its body selects the
-- specialization of the method with the same template arguments. They are the
-- ones written out, or what C++ finds from the expressions that the call passes.
def ForwardsFaithfully (wrapper : Wrapper) (a : Instantiation) : Prop :=
  match explicitText wrapper with
  | some text => reader.written text a = (signature wrapper.method).parameters.map a.supplied
  | none => ∃ arguments,
    passed meaning a (reader.signature wrapper.templateHead wrapper.params).params
        (reader.passings (argumentText wrapper)) = some arguments ∧
      Selects meaning makes a (signature wrapper.method) arguments

end Calls

structure AsWritten (host : Host Record) (methods : List MethodInfo) (interfaceParameterQualType : String)
    (reader : Reader) (signature : MethodInfo → Signature) (use : MethodParamInfo → Option Passing) : Prop where
  signature : ∀ method ∈ methods, reader.signature
    (wrapperOf host interfaceParameterQualType false method).templateHead (methodParamDecls host method.params) =
      signature method
  passings : ∀ method ∈ methods,
    reader.passings (host.forwardMethodParamNames method.params) = method.params.map use

theorem emitted_call (interfaceParameterQualType : String) (method : MethodInfo) :
    callText (wrapperOf host interfaceParameterQualType false method) =
      '(' :: (host.forwardMethodParamNames method.params).toList ++ ");\n\x7d\n".toList := by
  have body : (wrapperOf host interfaceParameterQualType false method).body.toList =
      ("\n\x7b\n return impl_->" ++ method.name).toList ++
        ('(' :: (host.forwardMethodParamNames method.params).toList ++ ");\n\x7d\n".toList) := by
    rw [body_forwards]
    simp [String.toList_append]
  unfold callText
  rw [wrapperOf_method,body,List.dropPrefix?_append_of_beq _ (beq_self_eq_true _)]
  rfl

theorem emitted_implicit (interfaceParameterQualType : String) (method : MethodInfo) :
    explicitText (wrapperOf host interfaceParameterQualType false method) = none := by
  unfold explicitText
  rw [emitted_call]
  rfl

theorem emitted_arguments (interfaceParameterQualType : String) (method : MethodInfo) :
    argumentText (wrapperOf host interfaceParameterQualType false method) =
      host.forwardMethodParamNames method.params := by
  have size : ");\n\x7d\n".length = 5 := rfl
  unfold argumentText
  rw [emitted_call,size]
  simp

def parserImpl : ClassInfo Unit where
  name := "ParserImpl"
  decl := some ()
  methods := [
    {name := "parse",decl := some {annotations := []},isTemplate := true,tplParams := [⟨"typename T"⟩],
     params := [⟨"value","T value"⟩]},
    {name := "take",decl := some {annotations := []},isTemplate := true,tplParams := [⟨"typename T"⟩],
     params := [⟨"value","T&& value"⟩]},
    {name := "make",decl := some {annotations := [],returnType := "int"},isTemplate := true,
     tplParams := [⟨"typename T = int"⟩]}]
  ASTRecordSize := 8
  ASTRecordNonVirtualAlignment := 8

def parserHost : Host Unit := plainHost fun _ => parserImpl

def byValue : Signature where
  parameters := [{name := "T"}]
  params := [.one (.parameter ⊥ (.single "T")) false]
  declares := by simp [FunctionParameter.Scoped,Pattern.Scoped,Declares]

def byReference : Signature where
  parameters := [{name := "T"}]
  params := [.one (.reference .rvalue (.parameter ⊥ (.single "T"))) false]
  declares := by simp [FunctionParameter.Scoped,Pattern.Scoped,Declares]

def byDefault : Signature where
  parameters := [{name := "T",defaultArgument := some fun _ => .constant ⊥ "int"}]
  params := []
  declares := by simp

def parserSignature (method : MethodInfo) : Signature :=
  if method.name = "parse" then byValue else if method.name = "take" then byReference else byDefault

def parserReader : Reader where
  signature := fun _ params => if params = "T value" then byValue else if params = "T&& value" then byReference else byDefault
  written := fun _ _ => []
  passings := fun text => if text = "" then [] else [some {use := .name}]

def parserDefinitions : Emission := emitMethodCalls parserHost "Parser" false parserImpl.methods ⟨"",[]⟩

theorem parserAsWritten : AsWritten parserHost (wrapped parserHost ()) "Parser" parserReader parserSignature
    fun _ => some {use := .name} where
  signature := by
    have listed : wrapped parserHost () = parserImpl.methods := by decide
    have value : methodParamDecls parserHost [⟨"value","T value"⟩] = "T value" := by decide
    have reference : methodParamDecls parserHost [⟨"value","T&& value"⟩] = "T&& value" := by decide
    have nothing : methodParamDecls parserHost [] = "" := by decide
    rw [listed]
    simp [parserImpl,parserReader,parserSignature,value,reference,nothing]
  passings := by decide

def makesSame (argument : Expression String) (type : Argument String) : Prop := argument.type.decayed = type

theorem other_selected {reader : Reader} {signature : MethodInfo → Signature} {wrapper : Wrapper} {a : Instantiation}
    {meaning : String → Argument String → Argument String} {makes : Expression String → Argument String → Prop}
    {arguments : List (Expression String)} (implicit : explicitText wrapper = none)
    (written : passed meaning a (reader.signature wrapper.templateHead wrapper.params).params
      (reader.passings (argumentText wrapper)) = some arguments)
    (differs : select (signature wrapper.method) arguments ≠
      some ((signature wrapper.method).parameters.map a.supplied)) :
    ¬ ForwardsFaithfully meaning makes reader signature wrapper a := by
  unfold ForwardsFaithfully
  rw [implicit]
  rintro ⟨own,passes,selects⟩
  rw [written] at passes
  cases passes
  exact differs selects.selected

end FlexPimpl.Templates
