import FlexPimpl.CodeGenerator
import FlexPimpl.Settings
import FlexPimpl.WriteOnce

namespace FlexPimpl.Tooling
open Settings CodeGenerator

variable {Record : Type}

structure Edit where
  decl : Nat
  replacer : String
deriving DecidableEq, Repr

-- reflectionCache_ maps keys to shared pointers; the objects they point to live
-- in `heap`, where handlers may change them in place. Addresses from
-- `allocated` on are unused. `edits` is what the rewriter has been told so far.
structure State (Record : Type) where
  heap : Nat → ClassInfo Record
  allocated : Nat
  reflectionCache_ : String → Option Nat
  edits : List Edit
  live : ∀ key pointer, reflectionCache_ key = some pointer → pointer < allocated

def State.start : State Record where
  heap := fun _ => default
  allocated := 0
  reflectionCache_ := fun _ => none
  edits := []
  live := by simp

def State.allocate (s : State Record) (info : ClassInfo Record) : State Record :=
  {s with
    heap := fun pointer => if pointer = s.allocated then info else s.heap pointer
    allocated := s.allocated + 1
    live := fun key pointer cached => Nat.lt_succ_of_lt (s.live key pointer cached)}

def State.setMethods (s : State Record) (target : Nat) (methods : List MethodInfo) : State Record :=
  {s with heap := fun pointer => if pointer = target then {s.heap pointer with methods := methods} else s.heap pointer}

def State.insert (s : State Record) (written : String) (target : Nat) (alive : target < s.allocated) : State Record :=
  {s with
    reflectionCache_ := fun key => if key = written then some target else s.reflectionCache_ key
    live := by
      intro key pointer cached
      split at cached
      · cases cached; exact alive
      · exact s.live key pointer cached}

def State.replaceWith (s : State Record) (decl : Nat) (replacer : String) : State Record :=
  {s with edits := s.edits ++ [⟨decl,replacer⟩]}

def State.view (s : State Record) : WriteOnce.Store String (ClassInfo Record) :=
  fun key => (s.reflectionCache_ key).map s.heap

@[simp] theorem view_start : (State.start : State Record).view = fun _ => none := rfl
@[simp] theorem view_replaceWith (s : State Record) (decl : Nat) (replacer : String) :
    (s.replaceWith decl replacer).view = s.view := rfl
theorem not_cached_fresh (s : State Record) (key : String) : s.reflectionCache_ key ≠ some s.allocated :=
  fun cached => Nat.lt_irrefl _ (s.live key _ cached)

@[simp] theorem view_allocate (s : State Record) (info : ClassInfo Record) : (s.allocate info).view = s.view := by
  funext key
  cases cached : s.reflectionCache_ key with
  | none => simp [State.view,State.allocate,cached]
  | some pointer =>
    have older : pointer ≠ s.allocated := by
      rintro rfl
      exact not_cached_fresh s key cached
    simp [State.view,State.allocate,cached,older]

theorem view_setMethods {s : State Record} {target : Nat} (methods : List MethodInfo)
    (uncached : ∀ key, s.reflectionCache_ key ≠ some target) : (s.setMethods target methods).view = s.view := by
  funext key
  cases cached : s.reflectionCache_ key with
  | none => simp [State.view,State.setMethods,cached]
  | some pointer =>
    have other : pointer ≠ target := by
      rintro rfl
      exact uncached key cached
    simp [State.view,State.setMethods,cached,other]

theorem view_insert (s : State Record) (written : String) (target : Nat) (alive : target < s.allocated) :
    (s.insert written target alive).view = WriteOnce.put s.view written (s.heap target) := by
  funext key
  by_cases same : key = written <;> simp [State.view,State.insert,WriteOnce.put,same]

def kSkipPimplAttr : String := "skip_pimpl"

def starts_with (text start : String) : Bool := start.toList.isPrefixOf text.toList

-- The loop that fills cleaned_methods: a method is pushed unless it has no
-- declaration or its annotation says to skip it.
def keepsMethod (method : MethodInfo) : Bool :=
  match method.decl with
  | none => false
  | some decl =>
    match decl.getAnnotateAttr with
    | some annotationCode => !starts_with annotationCode kSkipPimplAttr
    | none => true

def cleaned (info : ClassInfo Record) : ClassInfo Record :=
  {info with methods := info.methods.filter keepsMethod}

inductive Outcome (Record : Type) where
  | completed (emission : Emission) (state : State Record)
  | failed (failure : Failure) (state : State Record)

def Outcome.state : Outcome Record → State Record
  | .completed _ state => state
  | .failed _ state => state

def Outcome.result : Outcome Record → Except Failure Emission
  | .completed emission _ => .ok emission
  | .failed failure _ => .error failure

section Handlers
variable (host : Host Record) (dchecks : Bool)

-- `implArgQualType->getAsCXXRecordDecl()`, first under a DCHECK, then under a CHECK.
def implRecord (settings : ReflectForPimplSettings Record) : Except Failure Record :=
  match settings.implArgQualType with
  | none => .error .nullQualType
  | some impl =>
    match impl.getAsCXXRecordDecl with
    | some record => .ok record
    | none =>
      if dchecks then .error (.dcheck "reflectForPimplSettings.implArgQualType->getAsCXXRecordDecl()")
      else .error (.notRecord settings.implParameterQualType)

def resolve (node : AnnotatedNode Record) : Except Failure (ReflectForPimplSettings Record × Record) :=
  match getReflectForPimplSettings host node with
  | .error failure => .error failure
  | .ok settings =>
    match implRecord dchecks settings with
    | .error failure => .error failure
    | .ok record => .ok (settings,record)

def reflectFromCache (s : State Record) (settings : ReflectForPimplSettings Record) : Except Failure Nat :=
  match s.reflectionCache_ settings.implParameterQualType with
  | some reflectedClass => .ok reflectedClass
  | none => .error (.notInCache settings.implParameterQualType)

def parseStorageArg (extra_size_bytes : BitVec 32) (arg : Arg) : Except Failure (BitVec 32) :=
  if arg.name_ = "" ∧ arg.value_ = "" then .ok extra_size_bytes
  else if arg.name_ = "sizePadding" then
    if dchecks ∧ extra_size_bytes ≠ 0 then .error (.dcheck "extra_size_bytes == 0") else
    match host.StringToInt arg.value_ with
    | some value => .ok value
    | none => .error (.notInt arg.name_ arg.value_)
  else .error (.unknownArgument arg.name_ arg.value_)

def parseStorageArgs : List Arg → BitVec 32 → Except Failure (BitVec 32)
  | [],extra_size_bytes => .ok extra_size_bytes
  | arg :: rest,extra_size_bytes =>
    match parseStorageArg host dchecks extra_size_bytes arg with
    | .error failure => .error failure
    | .ok next => parseStorageArgs rest next

def parseMethodCallsArg (without_method_body : Bool) (arg : Arg) : Except Failure Bool :=
  if arg.name_ = "" ∧ arg.value_ = "" then .ok without_method_body
  else if arg.value_ = "without_method_body" then
    if dchecks ∧ without_method_body then .error (.dcheck "!without_method_body") else .ok true
  else .error (.unknownArgument arg.name_ arg.value_)

def parseMethodCallsArgs : List Arg → Bool → Except Failure Bool
  | [],without_method_body => .ok without_method_body
  | arg :: rest,without_method_body =>
    match parseMethodCallsArg dchecks without_method_body arg with
    | .error failure => .error failure
    | .ok next => parseMethodCallsArgs rest next

-- The int is converted to uint64_t, so a negative padding wraps.
def typeSize (info : ClassInfo Record) (extra_size_bytes : BitVec 32) : BitVec 64 :=
  info.ASTRecordSize + extra_size_bytes.signExtend 64

def fieldAlign (info : ClassInfo Record) : BitVec 32 := info.ASTRecordNonVirtualAlignment.setWidth 32

def storageText (implParameterQualType : String) (size alignment : Nat) : String :=
  "::basis::FastPimpl<" ++ "\n" ++ implParameterQualType ++ "\n" ++ ", /*Size*/" ++ toString size ++ "\n" ++
    ", /*Alignment*/" ++ toString alignment ++ "\n" ++ ", ::basis::pimpl::SizePolicy::AtLeast" ++ "\n" ++
    ", ::basis::pimpl::AlignPolicy::AtLeast" ++ "\n" ++ "> impl_;"

def storageReply (settings : ReflectForPimplSettings Record) (args : List Arg) (info : ClassInfo Record) :
    Except Failure Emission :=
  match parseStorageArgs host dchecks args 0 with
  | .error failure => .error failure
  | .ok extra_size_bytes =>
    if dchecks ∧ info.decl.isNone then .error (.dcheck "reflectedClass->decl")
    else if dchecks ∧ settings.implParameterQualType = "" then
      .error (.dcheck "!reflectForPimplSettings.implParameterQualType.empty()")
    else .ok ⟨storageText settings.implParameterQualType (typeSize info extra_size_bytes).toNat
      (fieldAlign info).toNat,[]⟩

def methodCallsReply (settings : ReflectForPimplSettings Record) (args : List Arg) (info : ClassInfo Record) :
    Except Failure Emission :=
  match parseMethodCallsArgs dchecks args false with
  | .error failure => .error failure
  | .ok without_method_body =>
    .ok (emitMethodCalls host settings.interfaceParameterQualType without_method_body info.methods ⟨"",[]⟩)

-- Both injectors: find the entry, refuse one without methods, build the text
-- and put it in place of the annotated declaration.
def inject (reply : ReflectForPimplSettings Record → List Arg → ClassInfo Record → Except Failure Emission)
    (options : SourceTransformOptions Record) (s : State Record) : Outcome Record :=
  match resolve host dchecks options.node with
  | .error failure => .failed failure s
  | .ok (settings,_) =>
    match reflectFromCache s settings with
    | .error failure => .failed failure s
    | .ok reflectedClass =>
      if (s.heap reflectedClass).methods.isEmpty then .failed (.noMethods (s.heap reflectedClass).name) s else
      match reply settings options.args (s.heap reflectedClass) with
      | .error failure => .failed failure s
      | .ok emission => .completed emission (s.replaceWith options.decl emission.replacer)

def injectPimplStorage : SourceTransformOptions Record → State Record → Outcome Record :=
  inject host dchecks (storageReply host dchecks)

def injectPimplMethodCalls : SourceTransformOptions Record → State Record → Outcome Record :=
  inject host dchecks (methodCallsReply host dchecks)

-- The new object's method list is replaced before the cache is consulted, so a
-- refused reflection has already changed the heap.
def reflectForPimpl (options : SourceTransformOptions Record) (s : State Record) : Outcome Record :=
  match resolve host dchecks options.node with
  | .error failure => .failed failure s
  | .ok (settings,record) =>
    let reflectedClass := s.allocated
    let reflected := s.allocate (host.ReflectClass record)
    if (reflected.heap reflectedClass).methods.isEmpty then
      .failed (.noMethods (reflected.heap reflectedClass).name) reflected
    else
      let cleaned_methods := (reflected.heap reflectedClass).methods.filter keepsMethod
      let filtered := reflected.setMethods reflectedClass cleaned_methods
      match filtered.reflectionCache_ settings.implParameterQualType with
      | some _ => .failed (.alreadyInCache (filtered.heap reflectedClass).name) filtered
      | none =>
        let stored := filtered.insert settings.implParameterQualType reflectedClass (Nat.lt_succ_self _)
        .completed ⟨"",[]⟩ (stored.replaceWith options.decl "")

inductive Rule where
  | inject_pimpl_storage | inject_pimpl_method_calls | reflect_for_pimpl
deriving DecidableEq, Repr

structure Invocation (Record : Type) where
  rule : Rule
  options : SourceTransformOptions Record
deriving DecidableEq, Repr

def invoke (invocation : Invocation Record) (s : State Record) : Outcome Record :=
  match invocation.rule with
  | .inject_pimpl_storage => injectPimplStorage host dchecks invocation.options s
  | .inject_pimpl_method_calls => injectPimplMethodCalls host dchecks invocation.options s
  | .reflect_for_pimpl => reflectForPimpl host dchecks invocation.options s

end Handlers
end FlexPimpl.Tooling
