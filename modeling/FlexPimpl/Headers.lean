import FlexPimpl.CppTokens
import FlexPimpl.Wrappers

namespace FlexPimpl.Headers
open CodeGenerator Wrappers CppTokens

variable {Record : Type} {host : Host Record} {dchecks : Bool} {record : Record}

def headerText (wrapper : Wrapper) : String :=
  wrapper.methodForwarding ++ " " ++ wrapper.qualifier ++ wrapper.method.name ++ "(" ++ wrapper.params ++ ")" ++ " " ++
    wrapper.methodTrailing ++ wrapper.body

-- What the fragments read as, each by itself: the interface annotation as a
-- name that may start with `::`, and the printed specifiers and return type of
-- each method as a type.
structure PrintedAs (host : Host Record) (methods : List MethodInfo) (interfaceParameterQualType : String)
    (interface : QualifiedName) (returnType : MethodInfo → TypeText) : Prop where
  interface : lex interfaceParameterQualType = interface.tokens ∧ interface.WellFormed
  types : ∀ method ∈ methods,
    lex (methodForwarding host method) = (returnType method).tokens ∧ (returnType method).WellFormed
  names : ∀ method ∈ methods, lex method.name = [.word method.name] ∧ isName (.word method.name) = true

def declaratorId (interface : QualifiedName) (name : String) : QualifiedName :=
  ⟨interface.isGlobal,interface.components ++ [⟨name,none⟩]⟩

theorem declaratorId_formed {interface : QualifiedName} {name : String} (formed : interface.WellFormed)
    (named : isName (.word name) = true) : (declaratorId interface name).WellFormed := by
  refine ⟨by simp [declaratorId],?_⟩
  intro component member
  rcases List.mem_append.mp member with old | last
  · exact formed.components component old
  · rw [List.mem_singleton.mp last]
    exact ⟨named,by simp⟩

theorem declaratorId_tokens {interface : QualifiedName} (formed : interface.WellFormed) (name : String) :
    (declaratorId interface name).tokens = interface.tokens ++ [.scope,.word name] := by
  have parts := nested_append formed.some (by simp : [(⟨name,none⟩ : Component)] ≠ [])
  unfold declaratorId QualifiedName.tokens
  dsimp only
  rw [parts]
  split <;> rfl

theorem templateHead_ends (host : Host Record) (interfaceParameterQualType : String) (without_method_body : Bool) (method : MethodInfo) :
    (wrapperOf host interfaceParameterQualType without_method_body method).templateHead = "" ∨
      ∃ front, (wrapperOf host interfaceParameterQualType without_method_body method).templateHead = front ++ ">" := by
  unfold wrapperOf
  dsimp only
  split
  · exact Or.inr ⟨_,rfl⟩
  · exact Or.inl rfl

-- A template head ends in a bracket, so nothing after it is read into it.
theorem lex_text (interfaceParameterQualType : String) (without_method_body : Bool) (method : MethodInfo) :
    lex (wrapperOf host interfaceParameterQualType without_method_body method).text =
      lex (wrapperOf host interfaceParameterQualType without_method_body method).templateHead ++
        lex (headerText (wrapperOf host interfaceParameterQualType without_method_body method)) := by
  have split : (wrapperOf host interfaceParameterQualType without_method_body method).text =
      (wrapperOf host interfaceParameterQualType without_method_body method).templateHead ++
        headerText (wrapperOf host interfaceParameterQualType without_method_body method) := by
    simp only [Wrapper.text,headerText,String.append_assoc]
  rw [split]
  rcases templateHead_ends host interfaceParameterQualType without_method_body method with none | some
  · have nothing : lex "" = [] := rfl
    rw [none,String.empty_append,nothing,List.nil_append]
  · obtain ⟨front,head⟩ := some
    rw [head]
    exact lex_close front _

theorem lex_header {methods : List MethodInfo} {interfaceParameterQualType : String} {interface : QualifiedName}
    {returnType : MethodInfo → TypeText}
    (printed : PrintedAs host methods interfaceParameterQualType interface returnType) {method : MethodInfo}
    (member : method ∈ methods) (without_method_body : Bool) :
    ∃ rest, lex (headerText (wrapperOf host interfaceParameterQualType without_method_body method)) =
      (returnType method).tokens ++ ((declaratorId interface method.name).tokens ++ .punct '(' :: rest) := by
  have qualified : interfaceParameterQualType ≠ "" := by
    intro empty
    have nothing := printed.interface.1
    rw [empty] at nothing
    obtain ⟨token,head,_⟩ := name_head printed.interface.2 []
    rw [List.append_nil,← nothing] at head
    cases head
  have apart : (lex interfaceParameterQualType).getLast? ≠ some (.punct ':') := by
    rw [printed.interface.1]
    exact name_last interface
  refine ⟨lex (methodParamDecls host method.params ++ ")" ++ " " ++ methodTrailing host method ++
    (wrapperOf host interfaceParameterQualType without_method_body method).body),?_⟩
  have split : headerText (wrapperOf host interfaceParameterQualType without_method_body method) =
      methodForwarding host method ++ " " ++ (interfaceParameterQualType ++ "::" ++ (method.name ++ "(" ++
        (methodParamDecls host method.params ++ ")" ++ " " ++ methodTrailing host method ++
          (wrapperOf host interfaceParameterQualType without_method_body method).body))) := by
    simp only [headerText,wrapperOf,if_pos qualified,String.append_assoc]
  rw [split,lex_blank,lex_scope apart,lex_open,(printed.types method member).1,printed.interface.1,
    (printed.names method member).1,declaratorId_tokens printed.interface.2]
  simp only [List.append_assoc,List.cons_append,List.nil_append]

-- A header reads back as its return type and the declared name unless the first
-- ends in a name of its own and the second starts with `::`, which then makes
-- one name of the two.
theorem headers_parse {interfaceParameterQualType : String} {without_method_body : Bool} {emission : Emission}
    {interface : QualifiedName} {returnType : MethodInfo → TypeText}
    (generated : Generated host dchecks record interfaceParameterQualType without_method_body emission)
    (printed : PrintedAs host (wrapped host record) interfaceParameterQualType interface returnType) :
    emission.replacer = String.join (emission.wrappers.map Wrapper.text) ∧ ∀ wrapper ∈ emission.wrappers,
      lex wrapper.text = lex wrapper.templateHead ++ lex (headerText wrapper) ∧
      (readHeader (lex (headerText wrapper)) =
          some (returnType wrapper.method,declaratorId interface wrapper.method.name) ↔
        ¬ (interface.isGlobal = true ∧ (returnType wrapper.method).suffix = [] ∧
          ∃ own, (returnType wrapper.method).base = .named own)) := by
  refine ⟨(generated_wrappers generated).1,?_⟩
  intro wrapper member
  obtain ⟨method,inside,rfl⟩ := generated_wrapper generated member
  refine ⟨lex_text _ _ _,?_⟩
  obtain ⟨rest,tokens⟩ := lex_header printed inside without_method_body
  have formed := (printed.types method inside).2
  have named := declaratorId_formed printed.interface.2 (printed.names method inside).2
  rw [tokens]
  constructor
  · intro read glued
    rw [readHeader_glued formed named glued] at read
    cases read
  · intro apart
    exact readHeader_tokens formed named apart rest

def globalFoo : QualifiedName := ⟨true,[⟨"only_for_code_generation",none⟩,⟨"Foo",none⟩]⟩

def fooReturnType (method : MethodInfo) : TypeText :=
  if method.name = "foo" then ⟨[],.fundamental [.word "int"],[]⟩
  else ⟨[.word "const"],.named ⟨false,[⟨"std",none⟩,⟨"string",none⟩]⟩,[]⟩

def globalDefinitions : Emission :=
  emitMethodCalls (plainHost fun _ : Unit => MethodCalls.fooImpl) "::only_for_code_generation::Foo" false
    (Tooling.cleaned MethodCalls.fooImpl).methods ⟨"",[]⟩

theorem globalDefinitions_printed : PrintedAs (plainHost fun _ : Unit => MethodCalls.fooImpl)
    (wrapped (plainHost fun _ : Unit => MethodCalls.fooImpl) ()) "::only_for_code_generation::Foo" globalFoo
    fooReturnType :=
  ⟨by decide,by decide,by decide⟩

theorem headers_parse_witness :
    globalDefinitions.replacer = String.join (globalDefinitions.wrappers.map Wrapper.text) ∧
      ∀ wrapper ∈ globalDefinitions.wrappers,
        lex wrapper.text = lex wrapper.templateHead ++ lex (headerText wrapper) ∧
        (readHeader (lex (headerText wrapper)) =
            some (fooReturnType wrapper.method,declaratorId globalFoo wrapper.method.name) ↔
          ¬ (globalFoo.isGlobal = true ∧ (fooReturnType wrapper.method).suffix = [] ∧
            ∃ own, (fooReturnType wrapper.method).base = .named own)) :=
  headers_parse (generated_definitions false () rfl (by decide) (by decide)) globalDefinitions_printed

-- `const std::string ::only_for_code_generation::Foo::baz()` declares nothing.
theorem qualifier_glued : Generated (plainHost fun _ : Unit => MethodCalls.fooImpl) false ()
      "::only_for_code_generation::Foo" false globalDefinitions ∧
    PrintedAs (plainHost fun _ : Unit => MethodCalls.fooImpl)
      (wrapped (plainHost fun _ : Unit => MethodCalls.fooImpl) ()) "::only_for_code_generation::Foo" globalFoo
      fooReturnType ∧
    ∃ wrapper ∈ globalDefinitions.wrappers, wrapper.methodForwarding = "const std::string" ∧
      readHeader (lex (headerText wrapper)) ≠
        some (fooReturnType wrapper.method,declaratorId globalFoo wrapper.method.name) :=
  ⟨generated_definitions false () rfl (by decide) (by decide),globalDefinitions_printed,
    wrapperOf (plainHost fun _ : Unit => MethodCalls.fooImpl) "::only_for_code_generation::Foo" false
      {name := "baz",decl := some {annotations := [],returnType := "const std::string"}},by decide,by decide,by decide⟩

end FlexPimpl.Headers
