import FlexPimpl.Reflection
import Mathlib.Data.List.Perm.Basic

namespace FlexPimpl.Settings

-- An unset clang::QualType is `none`; an unset name is the empty text.
structure ReflectForPimplSettings (Record : Type) where
  implParameterQualType : String := ""
  implArgQualType : Option (QualType Record) := none
  interfaceParameterQualType : String := ""
  interfaceArgQualType : Option (QualType Record) := none
deriving DecidableEq, Repr

variable {Record : Type} {failure : Failure} (host : Host Record)

def parseParameter (node : String) (result : ReflectForPimplSettings Record) (parameter_decl : NamedDecl Record) :
    Except Failure (ReflectForPimplSettings Record) :=
  if parameter_decl.isParameterPack then .error (.parameterPack node) else
  match parameter_decl.kind with
  | .templateTypeParm wasDeclaredWithTypename defaultArgument =>
    if !wasDeclaredWithTypename then .error (.notTypename node) else
    match defaultArgument with
    | none => .error (.noDefaultArgument node)
    | some argument =>
      let name := host.extractTypeName argument.getAsString
      if parameter_decl.name = "impl" then
        if name = "" then .error (.emptyTypeName node)
        else .ok {result with implArgQualType := some argument,implParameterQualType := name}
      else if parameter_decl.name = "interface" then
        if name = "" then .error (.emptyTypeName node)
        else .ok {result with interfaceArgQualType := some argument,interfaceParameterQualType := name}
      else .error (.unknownParameter parameter_decl.name argument.getAsString)
  | .nonTypeTemplateParm | .templateTemplateParm => .error (.notTypeParameter node)

def parseParameters (node : String) :
    List (NamedDecl Record) → ReflectForPimplSettings Record → Except Failure (ReflectForPimplSettings Record)
  | [],result => .ok result
  | parameter_decl :: rest,result =>
    match parseParameter host node result parameter_decl with
    | .error failure => .error failure
    | .ok next => parseParameters node rest next

def getReflectForPimplSettings (node : AnnotatedNode Record) : Except Failure (ReflectForPimplSettings Record) :=
  match node.describedClassTemplate with
  | none => .error (.notTemplate node.name)
  | some [] => .error (.noParameters node.name)
  | some (first :: rest) => parseParameters host node.name (first :: rest) {}

structure Accepts (parameter_decl : NamedDecl Record) (argument : QualType Record) : Prop where
  single : parameter_decl.isParameterPack = false
  typename : parameter_decl.kind = .templateTypeParm true (some argument)
  named : host.extractTypeName argument.getAsString ≠ ""
  known : parameter_decl.name = "impl" ∨ parameter_decl.name = "interface"

def assign (result : ReflectForPimplSettings Record) (parameter_decl : NamedDecl Record)
    (argument : QualType Record) : ReflectForPimplSettings Record :=
  if parameter_decl.name = "impl" then
    {result with implArgQualType := some argument,implParameterQualType := host.extractTypeName argument.getAsString}
  else
    {result with interfaceArgQualType := some argument,
                 interfaceParameterQualType := host.extractTypeName argument.getAsString}

variable {host}

theorem parseParameter_exact {node : String} {result next : ReflectForPimplSettings Record}
    {parameter_decl : NamedDecl Record} :
    parseParameter host node result parameter_decl = .ok next ↔
      ∃ argument, Accepts host parameter_decl argument ∧ next = assign host result parameter_decl argument := by
  constructor
  · intro parsed
    unfold parseParameter at parsed
    split at parsed
    · cases parsed
    · rename_i single
      split at parsed
      · rename_i typename defaultArgument kind
        split at parsed
        · cases parsed
        · rename_i declared
          have declared : typename = true := by simpa using declared
          subst declared
          cases defaultArgument with
          | none => cases parsed
          | some argument =>
            simp only at parsed
            split at parsed
            · rename_i impl
              split at parsed
              · cases parsed
              · rename_i named
                cases parsed
                exact ⟨argument,⟨by simpa using single,kind,named,.inl impl⟩,by simp [assign,impl]⟩
            · rename_i other
              split at parsed
              · rename_i isInterface
                split at parsed
                · cases parsed
                · rename_i named
                  cases parsed
                  exact ⟨argument,⟨by simpa using single,kind,named,.inr isInterface⟩,by simp [assign,other]⟩
              · cases parsed
      · cases parsed
      · cases parsed
  · intro takes
    rcases takes with ⟨argument,⟨single,typename,named,known⟩,rfl⟩
    rcases known with impl | isInterface
    · simp [parseParameter,assign,single,typename,named,impl]
    · simp [parseParameter,assign,single,typename,named,isInterface]

-- No branch of the loop body touches an unset type.
theorem parseParameter_failure {node : String} {result : ReflectForPimplSettings Record}
    {parameter_decl : NamedDecl Record} (failed : parseParameter host node result parameter_decl = .error failure) :
    failure ≠ .nullQualType := by
  rintro rfl
  unfold parseParameter at failed
  dsimp only at failed
  repeat' split at failed
  all_goals simp at failed

theorem parseParameters_failure {node : String} {parameters : List (NamedDecl Record)}
    {result : ReflectForPimplSettings Record}
    (failed : parseParameters host node parameters result = .error failure) : failure ≠ .nullQualType := by
  induction parameters generalizing result with
  | nil => cases failed
  | cons parameter_decl rest ih =>
    unfold parseParameters at failed
    split at failed
    · rename_i stopped
      cases failed
      exact parseParameter_failure stopped
    · exact ih failed

theorem settings_failure {node : AnnotatedNode Record}
    (failed : getReflectForPimplSettings host node = .error failure) : failure ≠ .nullQualType := by
  unfold getReflectForPimplSettings at failed
  split at failed
  · cases failed; simp
  · cases failed; simp
  · exact parseParameters_failure failed

def Accepted (host : Host Record) (parameters : List (NamedDecl Record)) : Prop :=
  ∀ parameter_decl ∈ parameters, ∃ argument, Accepts host parameter_decl argument

def NamedDecl.argument (parameter_decl : NamedDecl Record) : Option (QualType Record) :=
  match parameter_decl.kind with
  | .templateTypeParm _ defaultArgument => defaultArgument
  | _ => none

def assignParameter (host : Host Record) (result : ReflectForPimplSettings Record)
    (parameter_decl : NamedDecl Record) : ReflectForPimplSettings Record :=
  match NamedDecl.argument parameter_decl with
  | some argument => assign host result parameter_decl argument
  | none => result

theorem assignParameter_accepts {result : ReflectForPimplSettings Record} {parameter_decl : NamedDecl Record}
    {argument : QualType Record} (accepted : Accepts host parameter_decl argument) :
    assignParameter host result parameter_decl = assign host result parameter_decl argument := by
  simp [assignParameter,NamedDecl.argument,accepted.typename]

theorem parseParameters_exact {node : String} {parameters : List (NamedDecl Record)}
    {result final : ReflectForPimplSettings Record} :
    parseParameters host node parameters result = .ok final ↔
      Accepted host parameters ∧ final = parameters.foldl (assignParameter host) result := by
  induction parameters generalizing result with
  | nil => simp [parseParameters,Accepted,eq_comm]
  | cons parameter_decl rest ih =>
    unfold parseParameters
    cases parsed : parseParameter host node result parameter_decl with
    | error failure =>
      simp only [reduceCtorEq,false_iff,not_and]
      intro accepted
      obtain ⟨argument,ok⟩ := accepted parameter_decl (by simp)
      rw [parseParameter_exact.mpr ⟨argument,ok,rfl⟩] at parsed
      cases parsed
    | ok next =>
      obtain ⟨argument,ok,rfl⟩ := parseParameter_exact.mp parsed
      simp only [ih,Accepted,List.forall_mem_cons,List.foldl_cons,assignParameter_accepts ok]
      exact ⟨fun ⟨accepted,equal⟩ => ⟨⟨⟨argument,ok⟩,accepted⟩,equal⟩,
        fun ⟨⟨_,accepted⟩,equal⟩ => ⟨accepted,equal⟩⟩

theorem settings_exact {name : String} {parameters : List (NamedDecl Record)}
    {settings : ReflectForPimplSettings Record} :
    getReflectForPimplSettings host ⟨name,some parameters⟩ = .ok settings ↔
      parameters ≠ [] ∧ Accepted host parameters ∧ settings = parameters.foldl (assignParameter host) {} := by
  cases parameters with
  | nil => simp [getReflectForPimplSettings]
  | cons first rest => simp [getReflectForPimplSettings,parseParameters_exact]

-- The two parameters a template may have, and what the settings keep of each.
inductive Role where
  | impl | interface
deriving DecidableEq, Repr

def Role.parameter : Role → String
  | .impl => "impl"
  | .interface => "interface"

def ReflectForPimplSettings.slot (settings : ReflectForPimplSettings Record) :
    Role → Option (QualType Record) × String
  | .impl => (settings.implArgQualType,settings.implParameterQualType)
  | .interface => (settings.interfaceArgQualType,settings.interfaceParameterQualType)

theorem slots_ext {left right : ReflectForPimplSettings Record}
    (same : ∀ role, left.slot role = right.slot role) : left = right := by
  have impl := same .impl
  have isInterface := same .interface
  cases left
  cases right
  simp_all [ReflectForPimplSettings.slot]

theorem accepted_role {parameter_decl : NamedDecl Record} {argument : QualType Record}
    (accepted : Accepts host parameter_decl argument) : ∃ role : Role, parameter_decl.name = role.parameter := by
  rcases accepted.known with impl | isInterface
  · exact ⟨.impl,impl⟩
  · exact ⟨.interface,isInterface⟩

theorem assign_slot {result : ReflectForPimplSettings Record} {parameter_decl : NamedDecl Record}
    {argument : QualType Record} {own : Role} (role : Role) (named : parameter_decl.name = own.parameter) :
    (assign host result parameter_decl argument).slot role =
      if role = own then (some argument,host.extractTypeName argument.getAsString) else result.slot role := by
  cases own <;> cases role <;> simp [assign,named,Role.parameter,ReflectForPimplSettings.slot]

theorem fold_unnamed {parameters : List (NamedDecl Record)} (result : ReflectForPimplSettings Record) (role : Role)
    (accepted : Accepted host parameters) (absent : ∀ parameter_decl ∈ parameters, parameter_decl.name ≠ role.parameter) :
    (parameters.foldl (assignParameter host) result).slot role = result.slot role := by
  induction parameters generalizing result with
  | nil => rfl
  | cons first rest ih =>
    obtain ⟨argument,ok⟩ := accepted first (by simp)
    obtain ⟨own,named⟩ := accepted_role ok
    have different : role ≠ own := by
      intro same
      exact absent first (by simp) (by rw [named,same])
    rw [List.foldl_cons,assignParameter_accepts ok,
      ih _ (fun p member => accepted p (List.mem_cons_of_mem _ member))
        (fun p member => absent p (List.mem_cons_of_mem _ member)),
      assign_slot role named,if_neg different]

theorem fold_named {parameters : List (NamedDecl Record)} (result : ReflectForPimplSettings Record) (role : Role)
    {parameter_decl : NamedDecl Record} {argument : QualType Record}
    (accepted : Accepted host parameters) (distinct : (parameters.map NamedDecl.name).Nodup)
    (member : parameter_decl ∈ parameters) (named : parameter_decl.name = role.parameter)
    (takes : Accepts host parameter_decl argument) :
    (parameters.foldl (assignParameter host) result).slot role =
      (some argument,host.extractTypeName argument.getAsString) := by
  induction parameters generalizing result with
  | nil => cases member
  | cons first rest ih =>
    obtain ⟨fresh,others⟩ := List.nodup_cons.mp distinct
    have restAccepted : Accepted host rest := fun p inside => accepted p (List.mem_cons_of_mem _ inside)
    rw [List.foldl_cons]
    rcases List.mem_cons.mp member with rfl | inside
    · have unnamed : ∀ p ∈ rest, p.name ≠ role.parameter := by
        intro p inside same
        apply fresh
        rw [named,← same]
        exact List.mem_map_of_mem inside
      rw [fold_unnamed _ role restAccepted unnamed,assignParameter_accepts takes,assign_slot role named,if_pos rfl]
    · exact ih _ restAccepted others inside

-- With distinct names the settings do not see the order of the parameters.
theorem fold_perm {left right : List (NamedDecl Record)} (accepted : Accepted host left)
    (distinct : (left.map NamedDecl.name).Nodup) (reordered : left.Perm right) :
    left.foldl (assignParameter host) {} = right.foldl (assignParameter host) {} := by
  have rightAccepted : Accepted host right := fun p member => accepted p (reordered.mem_iff.mpr member)
  have rightDistinct : (right.map NamedDecl.name).Nodup := (reordered.map _).nodup_iff.mp distinct
  apply slots_ext
  intro role
  by_cases present : ∃ parameter_decl ∈ left, parameter_decl.name = role.parameter
  · obtain ⟨parameter_decl,member,named⟩ := present
    obtain ⟨argument,takes⟩ := accepted parameter_decl member
    rw [fold_named _ role accepted distinct member named takes,
      fold_named _ role rightAccepted rightDistinct (reordered.mem_iff.mp member) named takes]
  · have absent : ∀ parameter_decl ∈ left, parameter_decl.name ≠ role.parameter := by
      intro parameter_decl member named
      exact present ⟨parameter_decl,member,named⟩
    rw [fold_unnamed _ role accepted absent,
      fold_unnamed _ role rightAccepted fun p member => absent p (reordered.mem_iff.mpr member)]

-- Nothing forces a parameter called impl: its type is unset exactly when the
-- list has none.
theorem settings_unset {name : String} {parameters : List (NamedDecl Record)}
    {settings : ReflectForPimplSettings Record} (distinct : (parameters.map NamedDecl.name).Nodup)
    (parsed : getReflectForPimplSettings host ⟨name,some parameters⟩ = .ok settings) :
    settings.implArgQualType = none ↔ ∀ parameter_decl ∈ parameters, parameter_decl.name ≠ "impl" := by
  obtain ⟨_,accepted,rfl⟩ := settings_exact.mp parsed
  constructor
  · intro unset parameter_decl member named
    obtain ⟨argument,takes⟩ := accepted parameter_decl member
    have slot := fold_named {} .impl accepted distinct member named takes
    exact absurd (unset.symm.trans (congrArg Prod.fst slot)) (by simp)
  · intro absent
    exact congrArg Prod.fst (fold_unnamed {} .impl accepted absent)

theorem settings_named {name : String} {parameters : List (NamedDecl Record)}
    {settings : ReflectForPimplSettings Record}
    (parsed : getReflectForPimplSettings host ⟨name,some parameters⟩ = .ok settings)
    (taken : settings.implArgQualType ≠ none) : settings.implParameterQualType ≠ "" := by
  obtain ⟨_,accepted,rfl⟩ := settings_exact.mp parsed
  have invariant : ∀ (rest : List (NamedDecl Record)) (result : ReflectForPimplSettings Record),
      Accepted host rest → (result.implArgQualType ≠ none → result.implParameterQualType ≠ "") →
      (rest.foldl (assignParameter host) result).implArgQualType ≠ none →
      (rest.foldl (assignParameter host) result).implParameterQualType ≠ "" := by
    intro rest
    induction rest with
    | nil => intro result _ named; exact named
    | cons first others ih =>
      intro result ok named
      obtain ⟨argument,takes⟩ := ok first (by simp)
      rw [List.foldl_cons,assignParameter_accepts takes]
      apply ih _ fun p member => ok p (List.mem_cons_of_mem _ member)
      unfold assign
      split
      · intro _
        exact takes.named
      · exact named
  exact invariant parameters {} accepted (by simp) taken

end FlexPimpl.Settings
