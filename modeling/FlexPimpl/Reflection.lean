import Mathlib.Algebra.Group.Nat.Defs

namespace FlexPimpl

-- The text is printed under the rewriter's policy, as the source spells it.
structure QualType (Record : Type) where
  getAsString : String
  getAsCXXRecordDecl : Option Record
deriving DecidableEq, Repr

inductive RefQualifierKind where
  | none | lValue | rValue
deriving DecidableEq, Repr

structure MethodQualifiers where
  isStatic : Bool := false
  isConst : Bool := false
  isVolatile : Bool := false
  refQualifier : RefQualifierKind := .none
deriving DecidableEq, Repr

-- The plugin itself reads only the annotations of a declaration; the rest
-- reaches the text through flexlib's method printers.
structure CXXMethodDecl extends MethodQualifiers where
  annotations : List String
  isVirtual : Bool := false
  isNoexcept : Bool := false
  returnType : String := "void"
deriving DecidableEq, Repr

-- getAttr<clang::AnnotateAttr>() is the first annotation of the declaration.
def CXXMethodDecl.getAnnotateAttr (decl : CXXMethodDecl) : Option String := decl.annotations.head?

structure MethodParamInfo where
  name : String
  fullDecl : String
deriving DecidableEq, Repr

structure TemplateParamInfo where
  tplDeclName : String
deriving DecidableEq, Repr

structure MethodInfo where
  name : String
  decl : Option CXXMethodDecl
  isImplicit : Bool := false
  isOperator : Bool := false
  isCtor : Bool := false
  isDtor : Bool := false
  isTemplate : Bool := false
  tplParams : List TemplateParamInfo := []
  params : List MethodParamInfo := []
deriving DecidableEq, Repr

structure ClassInfo (Record : Type) where
  name : String
  decl : Option Record
  methods : List MethodInfo
  ASTRecordSize : BitVec 64
  ASTRecordNonVirtualAlignment : BitVec 64
deriving DecidableEq, Repr

instance : Inhabited (ClassInfo Record) := ⟨⟨"",none,[],0,0⟩⟩

-- ReflectClass starts from an empty namespace tree each time, so what it builds
-- depends on the declaration alone.
structure Host (Record : Type) where
  extractTypeName : String → String
  ReflectClass : Record → ClassInfo Record
  StringToInt : String → Option (BitVec 32)
  printMethodForwarding : MethodInfo → String → BitVec 32 → String
  printMethodTrailing : MethodInfo → String → BitVec 32 → String
  forwardMethodParamNames : List MethodParamInfo → String
  kSeparatorWhitespace : String
  kSeparatorCommaAndWhitespace : String
  forwardingAll : BitVec 32
  forwardingVirtual : BitVec 32
  trailingNothing : BitVec 32
  trailingConst : BitVec 32
  trailingNoexcept : BitVec 32

inductive TemplateParameterKind (Record : Type) where
  | templateTypeParm (wasDeclaredWithTypename : Bool) (defaultArgument : Option (QualType Record))
  | nonTypeTemplateParm
  | templateTemplateParm
deriving DecidableEq, Repr

structure NamedDecl (Record : Type) where
  name : String
  isParameterPack : Bool
  kind : TemplateParameterKind Record
deriving DecidableEq, Repr

structure AnnotatedNode (Record : Type) where
  name : String
  describedClassTemplate : Option (List (NamedDecl Record))
deriving DecidableEq, Repr

structure Arg where
  name_ : String
  value_ : String
deriving DecidableEq, Repr

structure SourceTransformOptions (Record : Type) where
  node : AnnotatedNode Record
  decl : Nat
  args : List Arg
deriving DecidableEq, Repr

inductive Failure where
  | notTemplate (node : String)
  | noParameters (node : String)
  | parameterPack (node : String)
  | notTypename (node : String)
  | noDefaultArgument (node : String)
  | emptyTypeName (node : String)
  | unknownParameter (name value : String)
  | notTypeParameter (node : String)
  | notRecord (implParameterQualType : String)
  | notInCache (implParameterQualType : String)
  | alreadyInCache (className : String)
  | noMethods (className : String)
  | unknownArgument (name value : String)
  | notInt (name value : String)
  | dcheck (condition : String)
  | nullQualType
deriving DecidableEq, Repr

-- A DCHECK streams nothing, and a call through an unset QualType is no check.
def Failure.message : Failure → String
  | .notTemplate node => "node " ++ node ++ " must be template"
  | .noParameters node => "expected not empty template parameter list: " ++ node
  | .parameterPack node | .notTypename node | .noDefaultArgument node | .emptyTypeName node => node
  | .unknownParameter name value => "(pimpl) unknown argument: " ++ name ++ " with value: " ++ value
  | .notTypeParameter node => "expected default template parameter: " ++ node
  | .notRecord key => "must be CXXRecordDecl: " ++ key
  | .notInCache key => "not in cache " ++ key
  | .alreadyInCache name => "already in cache " ++ name
  | .noMethods name => "no methods in " ++ name
  | .unknownArgument name value => "(pimpl) unknown argument: " ++ name ++ " with value: " ++ value
  | .notInt name value => "(pimpl) unable to convert to int argument: " ++ name ++ " with value: " ++ value
  | .dcheck _ | .nullQualType => ""

def readDigits (digits : List Char) : Option Nat :=
  if digits ≠ [] ∧ digits.all Char.isDigit then some (digits.foldl (fun n c => 10 * n + (c.toNat - '0'.toNat)) 0)
  else none

def decimalInt32 (text : String) : Option (BitVec 32) :=
  match text.toList with
  | '-' :: digits => (readDigits digits).bind fun n => if n ≤ 2 ^ 31 then some (-BitVec.ofNat 32 n) else none
  | digits => (readDigits digits).bind fun n => if n < 2 ^ 31 then some (BitVec.ofNat 32 n) else none

def plainHost (reflect : Record → ClassInfo Record) : Host Record where
  extractTypeName := id
  ReflectClass := reflect
  StringToInt := decimalInt32
  printMethodForwarding := fun method separator options =>
    match method.decl with
    | none => ""
    | some decl =>
      (if decl.isStatic ∧ options &&& 1 ≠ 0 then "static" ++ separator else "") ++
      (if decl.isVirtual ∧ options &&& 2 ≠ 0 then "virtual" ++ separator else "") ++ decl.returnType
  printMethodTrailing := fun method separator options =>
    match method.decl with
    | none => ""
    | some decl =>
      (if decl.isConst ∧ options &&& 1 ≠ 0 then "const" ++ separator else "") ++
      (if decl.isNoexcept ∧ options &&& 2 ≠ 0 then "noexcept" ++ separator else "")
  forwardMethodParamNames := fun params => ", ".intercalate (params.map MethodParamInfo.name)
  kSeparatorWhitespace := " "
  kSeparatorCommaAndWhitespace := ", "
  forwardingAll := 3
  forwardingVirtual := 2
  trailingNothing := 0
  trailingConst := 1
  trailingNoexcept := 2

def plainParameter (name spelling : String) (record : Record) : NamedDecl Record :=
  ⟨name,false,.templateTypeParm true (some ⟨spelling,some record⟩)⟩

def plainOptions (parameters : List (NamedDecl Record)) (args : List Arg) : SourceTransformOptions Record :=
  ⟨⟨"Injector",some parameters⟩,0,args⟩

end FlexPimpl
