import FlexPimpl.Reflection

namespace FlexPimpl.CodeGenerator

-- The loop shared by the two printers: a separator follows every text but the
-- last, which the running counter recognises.
def separated (separator : String) (size : Nat) : List String → Nat → String → String
  | [],_,out => out
  | decl :: rest,paramIter,out =>
    if paramIter + 1 ≠ size then separated separator size rest (paramIter + 1) (out ++ decl ++ separator)
    else separated separator size rest (paramIter + 1) (out ++ decl)

def expandTemplateNames (host : Host Record) (params : List TemplateParamInfo) : String :=
  separated host.kSeparatorCommaAndWhitespace params.length (params.map TemplateParamInfo.tplDeclName) 0 ""

def methodParamDecls (host : Host Record) (params : List MethodParamInfo) : String :=
  separated host.kSeparatorCommaAndWhitespace params.length (params.map MethodParamInfo.fullDecl) 0 ""

theorem separated_intercalate (separator : String) (texts : List String) (done : Nat) (out : String) :
    separated separator (done + texts.length) texts done out = out ++ separator.intercalate texts := by
  induction texts generalizing done out with
  | nil => simp [separated]
  | cons decl rest ih =>
    have counted : done + (decl :: rest).length = done + 1 + rest.length := by simp only [List.length_cons]; omega
    rw [counted,separated]
    cases rest with
    | nil =>
      simp [separated]
    | cons next others =>
      have unfinished : done + 1 ≠ done + 1 + (next :: others).length := by simp
      rw [if_pos unfinished,ih,String.intercalate_cons_cons]
      simp only [String.append_assoc]

theorem expandTemplateNames_eq (host : Host Record) (params : List TemplateParamInfo) :
    expandTemplateNames host params =
      host.kSeparatorCommaAndWhitespace.intercalate (params.map TemplateParamInfo.tplDeclName) := by
  have loop := separated_intercalate host.kSeparatorCommaAndWhitespace (params.map TemplateParamInfo.tplDeclName) 0 ""
  simpa [expandTemplateNames] using loop

theorem methodParamDecls_eq (host : Host Record) (params : List MethodParamInfo) :
    methodParamDecls host params =
      host.kSeparatorCommaAndWhitespace.intercalate (params.map MethodParamInfo.fullDecl) := by
  have loop := separated_intercalate host.kSeparatorCommaAndWhitespace (params.map MethodParamInfo.fullDecl) 0 ""
  simpa [methodParamDecls] using loop

def isPimplMethod (methodInfo : MethodInfo) : Bool :=
  !methodInfo.isImplicit && !methodInfo.isOperator && !methodInfo.isCtor && !methodInfo.isDtor

structure Wrapper where
  method : MethodInfo
  templateHead : String
  methodForwarding : String
  qualifier : String
  params : String
  methodTrailing : String
  body : String
deriving DecidableEq, Repr

def Wrapper.text (wrapper : Wrapper) : String :=
  wrapper.templateHead ++ wrapper.methodForwarding ++ " " ++ wrapper.qualifier ++ wrapper.method.name ++
    "(" ++ wrapper.params ++ ")" ++ " " ++ wrapper.methodTrailing ++ wrapper.body

section Emission
variable (host : Host Record) (interfaceParameterQualType : String) (without_method_body : Bool)

def methodForwarding (method : MethodInfo) : String :=
  host.printMethodForwarding method host.kSeparatorWhitespace (host.forwardingAll &&& ~~~host.forwardingVirtual)

def methodTrailing (method : MethodInfo) : String :=
  host.printMethodTrailing method host.kSeparatorWhitespace
    (host.trailingNothing ||| host.trailingConst ||| host.trailingNoexcept)

-- The chain of `replacer +=` for one method.
def appendMethod (replacer : String) (method : MethodInfo) : String :=
  let replacer := if method.isTemplate
    then replacer ++ "template<" ++ expandTemplateNames host method.tplParams ++ ">" else replacer
  let replacer := replacer ++ methodForwarding host method ++ " "
  let replacer := if interfaceParameterQualType ≠ ""
    then replacer ++ interfaceParameterQualType ++ "::" else replacer
  let replacer := replacer ++ method.name ++ "(" ++ methodParamDecls host method.params ++ ")" ++ " " ++
    methodTrailing host method
  if !without_method_body
  then replacer ++ "\n" ++ "\x7b" ++ "\n" ++ " return impl_->" ++ method.name ++ "(" ++
    host.forwardMethodParamNames method.params ++ ")" ++ ";" ++ "\n" ++ "\x7d" ++ "\n"
  else replacer ++ ";" ++ "\n"

def wrapperOf (method : MethodInfo) : Wrapper where
  method := method
  templateHead := if method.isTemplate then "template<" ++ expandTemplateNames host method.tplParams ++ ">" else ""
  methodForwarding := methodForwarding host method
  qualifier := if interfaceParameterQualType ≠ "" then interfaceParameterQualType ++ "::" else ""
  params := methodParamDecls host method.params
  methodTrailing := methodTrailing host method
  body := if !without_method_body
    then "\n" ++ "\x7b" ++ "\n" ++ " return impl_->" ++ method.name ++ "(" ++
      host.forwardMethodParamNames method.params ++ ")" ++ ";" ++ "\n" ++ "\x7d" ++ "\n"
    else ";" ++ "\n"

theorem appendMethod_text (replacer : String) (method : MethodInfo) :
    appendMethod host interfaceParameterQualType without_method_body replacer method =
      replacer ++ (wrapperOf host interfaceParameterQualType without_method_body method).text := by
  unfold appendMethod wrapperOf Wrapper.text
  split <;> split <;> split <;> simp only [String.append_assoc,String.empty_append]

-- The text that replaces an annotation. `wrappers` is not in the source: it
-- records which methods the loop appended, and how, in order.
structure Emission where
  replacer : String
  wrappers : List Wrapper
deriving DecidableEq, Repr

def emitMethodCalls : List MethodInfo → Emission → Emission
  | [],emission => emission
  | method :: rest,emission =>
    if isPimplMethod method then
      emitMethodCalls rest
        ⟨appendMethod host interfaceParameterQualType without_method_body emission.replacer method,
          emission.wrappers ++ [wrapperOf host interfaceParameterQualType without_method_body method]⟩
    else emitMethodCalls rest emission

theorem emitMethodCalls_wrappers (methods : List MethodInfo) (emission : Emission) :
    (emitMethodCalls host interfaceParameterQualType without_method_body methods emission).wrappers =
      emission.wrappers ++ (methods.filter isPimplMethod).map
        (wrapperOf host interfaceParameterQualType without_method_body) := by
  induction methods generalizing emission with
  | nil => simp [emitMethodCalls]
  | cons method rest ih =>
    by_cases kept : isPimplMethod method = true
    · simp [emitMethodCalls,kept,ih]
    · simp [emitMethodCalls,kept,ih]

theorem emitMethodCalls_text (methods : List MethodInfo) (emission : Emission)
    (written : emission.replacer = String.join (emission.wrappers.map Wrapper.text)) :
    (emitMethodCalls host interfaceParameterQualType without_method_body methods emission).replacer =
      String.join ((emitMethodCalls host interfaceParameterQualType without_method_body methods emission).wrappers.map
        Wrapper.text) := by
  induction methods generalizing emission with
  | nil => exact written
  | cons method rest ih =>
    by_cases kept : isPimplMethod method = true
    · simp only [emitMethodCalls,kept,if_true]
      apply ih
      rw [appendMethod_text,written]
      simp [String.join_append]
    · simp only [emitMethodCalls,kept]
      exact ih emission written

end Emission
end FlexPimpl.CodeGenerator
