import FlexPimpl.Declarations
import FlexPimpl.Members
import Mathlib.Data.List.Forall2

namespace FlexPimpl.Parameters
open CodeGenerator Wrappers Members

variable {Record : Type} {host : Host Record} {dchecks : Bool} {record : Record} {methods : List MethodInfo}
  {source : MethodInfo → Member}

-- The entries of a parameter list: declarations, named or not, and `...`.
inductive Entry where
  | parameter (name : Option String) (type : String)
  | ellipsis
deriving DecidableEq, Repr

def entryOf (own : Parameter) : Entry := .parameter own.name own.type

def Member.entries (member : Member) : List Entry :=
  member.params.map entryOf ++ if member.isVariadic then [.ellipsis] else []

-- How the two lists of a wrapper read: a parameter list entry by entry, an
-- argument list expression by expression, and the parameter an expression names.
structure Reader where
  entry : String → Entry
  entries : String → List Entry
  arguments : String → List String
  refersTo : String → Option String

-- Every declaration is as written, the two lists read member by member, and the
-- forwarding printer prints one expression for each name.
structure AsWritten (host : Host Record) (methods : List MethodInfo) (source : MethodInfo → Member) (reader : Reader)
    (expression : String → String) : Prop where
  separator : host.kSeparatorCommaAndWhitespace = ", "
  parameters : ∀ method ∈ methods, List.Forall₂
    (fun param own => reader.entry param.fullDecl = entryOf own ∧ param.name = own.name.getD "" ∧ own.name ≠ some "")
    method.params (source method).params
  entries : ∀ method ∈ methods, reader.entries (", ".intercalate (method.params.map MethodParamInfo.fullDecl)) =
    method.params.map fun param => reader.entry param.fullDecl
  forwards : ∀ method ∈ methods, host.forwardMethodParamNames method.params =
    ", ".intercalate (method.params.map fun param => expression param.name)
  arguments : ∀ method ∈ methods, (∀ own ∈ (source method).params, own.name ≠ none) →
    reader.arguments (", ".intercalate (method.params.map fun param => expression param.name)) =
      method.params.map fun param => expression param.name
  refers : ∀ name, name ≠ "" → reader.refersTo (expression name) = some name

def Forwards (reader : Reader) (entry : Entry) (argument : String) : Prop :=
  ∃ name type, entry = .parameter (some name) type ∧ reader.refersTo argument = some name

structure WellScoped (source : MethodInfo → Member) (reader : Reader) (wrapper : Wrapper) : Prop where
  declares : reader.entries wrapper.params = Member.entries (source wrapper.method)
  forwards : ∃ text,
    wrapper.body = "\n\x7b\n return impl_->" ++ wrapper.method.name ++ "(" ++ text ++ ");\n\x7d\n" ∧
      List.Forall₂ (Forwards reader) (reader.entries wrapper.params) (reader.arguments text)

theorem entries_read {reader : Reader} {expression : String → String}
    (written : AsWritten host methods source reader expression) {method : MethodInfo} (member : method ∈ methods) :
    reader.entries (methodParamDecls host method.params) = (source method).params.map entryOf := by
  have listed := written.parameters method member
  have same : method.params.map (fun param => reader.entry param.fullDecl) = (source method).params.map entryOf := by
    apply List.forall₂_eq_eq_eq ▸ List.forall₂_map_left_iff.mpr (List.forall₂_map_right_iff.mpr _)
    exact listed.imp fun param own read => read.1
  rw [methodParamDecls_eq,written.separator,written.entries method member,same]

theorem arguments_forward {reader : Reader} {expression : String → String}
    (refers : ∀ name, name ≠ "" → reader.refersTo (expression name) = some name)
    {params : List MethodParamInfo} {owns : List Parameter}
    (listed : List.Forall₂ (fun param own => reader.entry param.fullDecl = entryOf own ∧
      param.name = own.name.getD "" ∧ own.name ≠ some "") params owns)
    (named : ∀ own ∈ owns, own.name ≠ none) :
    List.Forall₂ (Forwards reader) (owns.map entryOf) (params.map fun param => expression param.name) := by
  induction listed with
  | nil => exact .nil
  | @cons param own params owns read _ ih =>
    refine .cons ?_ (ih fun other member => named other (List.mem_cons_of_mem _ member))
    obtain ⟨_,same,filled⟩ := read
    cases name : own.name with
    | none => exact absurd name (named own (by simp))
    | some text =>
      have nonempty : text ≠ "" := by
        intro empty
        exact filled (by rw [name,empty])
      refine ⟨text,own.type,by rw [entryOf,name],?_⟩
      have listed : param.name = text := by rw [same,name,Option.getD_some]
      dsimp only
      rw [listed]
      exact refers text nonempty

theorem named_of_forwards {reader : Reader} {owns : List Parameter} {arguments : List String}
    (forwards : List.Forall₂ (Forwards reader) (owns.map entryOf) arguments) : ∀ own ∈ owns, own.name ≠ none := by
  induction owns generalizing arguments with
  | nil => intro own member; cases member
  | cons first owns ih =>
    cases forwards with
    | cons head tail =>
      intro own member
      rcases List.mem_cons.mp member with rfl | old
      · obtain ⟨name,type,declared,_⟩ := head
        intro unnamed
        rw [entryOf,unnamed] at declared
        cases declared
      · exact ih tail own old

-- A wrapper is well scoped exactly when its method is not variadic and gives
-- every parameter a name.
theorem wrappers_well_scoped {interfaceParameterQualType : String} {emission : Emission}
    (generated : Generated host dchecks record interfaceParameterQualType false emission)
    {reader : Reader} {expression : String → String}
    (written : AsWritten host (wrapped host record) source reader expression) :
    emission.wrappers.map Wrapper.method = wrapped host record ∧
      ∀ wrapper ∈ emission.wrappers, WellScoped source reader wrapper ↔
        (source wrapper.method).isVariadic = false ∧ ∀ own ∈ (source wrapper.method).params, own.name ≠ none := by
  refine ⟨generated_methods generated,?_⟩
  intro wrapper member
  obtain ⟨method,inside,rfl⟩ := generated_wrapper generated member
  have entries := entries_read written inside
  constructor
  · intro sound
    constructor
    · have declares := sound.declares
      rw [wrapperOf_params,wrapperOf_method,entries] at declares
      have size := congrArg List.length declares
      simpa [Member.entries] using size
    · obtain ⟨text,_,forwards⟩ := sound.forwards
      rw [wrapperOf_params,entries] at forwards
      exact named_of_forwards forwards
  · intro ordinary
    rcases ordinary with ⟨fixed,named⟩
    constructor
    · rw [wrapperOf_params,wrapperOf_method,entries]
      simpa [Member.entries] using fixed
    · refine ⟨_,body_forwards _ _,?_⟩
      rw [wrapperOf_params,entries,written.forwards method inside,written.arguments method inside named]
      exact arguments_forward written.refers (written.parameters method inside) named

def loggerImpl : ClassInfo Unit where
  name := "LoggerImpl"
  decl := some ()
  methods := [
    {name := "log",decl := some {annotations := []},
     params := [⟨"level","int level"⟩,⟨"limits","std::pair<int, int> limits"⟩]},
    {name := "debug",decl := some {annotations := []},params := [⟨"","int"⟩]},
    {name := "format",decl := some {annotations := []},params := [⟨"text","const char* text"⟩]}]
  ASTRecordSize := 8
  ASTRecordNonVirtualAlignment := 8

def loggerHost : Host Unit := plainHost fun _ => loggerImpl

def loggerMember (method : MethodInfo) : Member :=
  if method.name = "log" then
    {params := [{name := some "level",type := "int"},{name := some "limits",type := "std::pair<int, int>"}]}
  else if method.name = "debug" then {params := [{type := "int"}]}
  else {params := [{name := some "text",type := "const char*"}],isVariadic := true}

def loggerPieces (text : String) : List String :=
  ((Brackets.list Declarations.role Declarations.isComma [' '] text.toList).getD []).map String.ofList

def loggerEntry (text : String) : Entry :=
  if text = "int level" then .parameter (some "level") "int"
  else if text = "std::pair<int, int> limits" then .parameter (some "limits") "std::pair<int, int>"
  else if text = "int" then .parameter none "int"
  else if text = "const char* text" then .parameter (some "text") "const char*"
  else .ellipsis

def loggerReader : Reader where
  entry := loggerEntry
  entries := fun text => (loggerPieces text).map loggerEntry
  arguments := loggerPieces
  refersTo := some

def loggerDefinitions : Emission := emitMethodCalls loggerHost "Logger" false loggerImpl.methods ⟨"",[]⟩

theorem loggerAsWritten : AsWritten loggerHost (wrapped loggerHost ()) loggerMember loggerReader id where
  separator := rfl
  parameters := by decide
  entries := by decide
  forwards := by decide
  arguments := by decide
  refers := fun _ _ => rfl

theorem wrappers_well_scoped_witness :
    loggerDefinitions.wrappers.map Wrapper.method = wrapped loggerHost () ∧
      ∀ wrapper ∈ loggerDefinitions.wrappers, WellScoped loggerMember loggerReader wrapper ↔
        (loggerMember wrapper.method).isVariadic = false ∧
          ∀ own ∈ (loggerMember wrapper.method).params, own.name ≠ none :=
  wrappers_well_scoped (generated_definitions false () rfl (by decide) (by decide)) loggerAsWritten

-- `void Logger::debug(int)` calls `impl_->debug()`, and the `...` of `format` is lost.
theorem unnamed_and_variadic_lost : Generated loggerHost false () "Logger" false loggerDefinitions ∧
    (∃ wrapper ∈ loggerDefinitions.wrappers, wrapper.method.name = "debug" ∧
      ¬ WellScoped loggerMember loggerReader wrapper) ∧
    ∃ wrapper ∈ loggerDefinitions.wrappers, wrapper.method.name = "format" ∧
      ¬ WellScoped loggerMember loggerReader wrapper := by
  refine ⟨generated_definitions false () rfl (by decide) (by decide),?_,?_⟩
  · refine ⟨wrapperOf loggerHost "Logger" false
      {name := "debug",decl := some {annotations := []},params := [⟨"","int"⟩]},by decide,rfl,?_⟩
    intro sound
    obtain ⟨_,_,forwards⟩ := sound.forwards
    have named : ∀ own ∈ [({type := "int"} : Parameter)], own.name ≠ none := named_of_forwards forwards
    exact named {type := "int"} (by simp) rfl
  · refine ⟨wrapperOf loggerHost "Logger" false
      {name := "format",decl := some {annotations := []},params := [⟨"text","const char* text"⟩]},by decide,rfl,?_⟩
    intro sound
    exact absurd sound.declares (by decide)

end FlexPimpl.Parameters
