import FlexPimpl.Steps

namespace FlexPimpl.Arguments
open Settings CodeGenerator Tooling Steps

variable {Record : Type} {host : Host Record} {dchecks : Bool} {args : List Arg}

def isFilled (arg : Arg) : Bool := !(arg.name_ == "" && arg.value_ == "")
def filled (args : List Arg) : List Arg := args.filter isFilled

def IsPadding (host : Host Record) (arg : Arg) : Prop :=
  arg.name_ = "sizePadding" ∧ ∃ value, host.StringToInt arg.value_ = some value

theorem isFilled_iff {arg : Arg} : isFilled arg = true ↔ ¬ (arg.name_ = "" ∧ arg.value_ = "") := by
  simp [isFilled,imp_iff_not_or]

theorem filled_cons (arg : Arg) (rest : List Arg) :
    filled (arg :: rest) = if isFilled arg then arg :: filled rest else filled rest := by
  simp [filled,List.filter_cons]

section Loop
variable {step : Value → Arg → Except Failure Value} {Taken : Arg → Prop}

theorem loop_filled (skips : ∀ value arg, ¬ isFilled arg = true → step value arg = .ok value) (args : List Arg)
    (value : Value) : loop step args value = loop step (filled args) value := by
  induction args generalizing value with
  | nil => rfl
  | cons arg rest ih =>
    rw [filled_cons]
    split
    · unfold loop
      split
      · rfl
      · exact ih _
    · rename_i blank
      rw [loop,skips value arg blank]
      exact ih _

theorem loop_taken (takes : ∀ value next arg, isFilled arg = true → step value arg = .ok next → Taken arg)
    {value result : Value} (others : ∀ arg ∈ args, isFilled arg = true) (ran : loop step args value = .ok result) :
    ∀ arg ∈ args, Taken arg := by
  induction args generalizing value with
  | nil => intro arg member; cases member
  | cons arg rest ih =>
    unfold loop at ran
    split at ran
    · cases ran
    · rename_i next stepped
      intro other member
      rcases List.mem_cons.mp member with rfl | old
      · exact takes value next other (others other (by simp)) stepped
      · exact ih (fun arg inside => others arg (List.mem_cons_of_mem _ inside)) ran other old

theorem loop_accepts (accepts : ∀ value arg, Taken arg → ∃ next, step value arg = .ok next)
    (all : ∀ arg ∈ args, Taken arg) (value : Value) : ∃ result, loop step args value = .ok result := by
  induction args generalizing value with
  | nil => exact ⟨value,rfl⟩
  | cons arg rest ih =>
    obtain ⟨next,stepped⟩ := accepts value arg (all arg (by simp))
    obtain ⟨result,ran⟩ := ih (fun other member => all other (List.mem_cons_of_mem _ member)) next
    exact ⟨result,by rw [loop,stepped]; exact ran⟩

end Loop

theorem parseStorageArg_skips (extra_size_bytes : BitVec 32) (arg : Arg) (blank : ¬ isFilled arg = true) :
    parseStorageArg host dchecks extra_size_bytes arg = .ok extra_size_bytes :=
  if_pos (Classical.not_not.mp fun other => blank (isFilled_iff.mpr other))

theorem parseMethodCallsArg_skips (without_method_body : Bool) (arg : Arg) (blank : ¬ isFilled arg = true) :
    parseMethodCallsArg dchecks without_method_body arg = .ok without_method_body :=
  if_pos (Classical.not_not.mp fun other => blank (isFilled_iff.mpr other))

theorem parseStorageArg_takes (extra_size_bytes next : BitVec 32) (arg : Arg) (other : isFilled arg = true)
    (taken : parseStorageArg host dchecks extra_size_bytes arg = .ok next) : IsPadding host arg := by
  unfold parseStorageArg at taken
  rw [if_neg (isFilled_iff.mp other)] at taken
  split at taken
  · rename_i named
    split at taken
    · cases taken
    · split at taken
      · rename_i value converted
        exact ⟨named,value,converted⟩
      · cases taken
  · cases taken

theorem parseMethodCallsArg_takes (without_method_body next : Bool) (arg : Arg) (other : isFilled arg = true)
    (taken : parseMethodCallsArg dchecks without_method_body arg = .ok next) : arg.value_ = "without_method_body" := by
  unfold parseMethodCallsArg at taken
  rw [if_neg (isFilled_iff.mp other)] at taken
  split at taken
  · rename_i flag
    exact flag
  · cases taken

theorem parseStorageArgs_release (paddings : ∀ arg ∈ filled args, IsPadding host arg) :
    ∃ result, parseStorageArgs host false args 0 = .ok result := by
  rw [parseStorageArgs_loop,loop_filled parseStorageArg_skips]
  apply loop_accepts _ paddings
  intro extra_size_bytes arg padding
  obtain ⟨named,value,converted⟩ := padding
  exact ⟨value,by simp [parseStorageArg,named,converted]⟩

theorem parseMethodCallsArgs_release (flags : ∀ arg ∈ filled args, arg.value_ = "without_method_body") :
    ∃ result, parseMethodCallsArgs false args false = .ok result := by
  rw [parseMethodCallsArgs_loop,loop_filled parseMethodCallsArg_skips]
  apply loop_accepts _ flags
  intro without_method_body arg flag
  exact ⟨true,by simp [parseMethodCallsArg,flag]⟩

-- What each handler is to make of its arguments, read independently of their order.
def atMostOne (absent : Value) (read : Arg → Option Value) : List Arg → Option Value
  | [] => some absent
  | [arg] => read arg
  | _ :: _ :: _ => none

def strictPadding (host : Host Record) (args : List Arg) : Option (BitVec 32) :=
  atMostOne 0 (fun arg => if arg.name_ = "sizePadding" then host.StringToInt arg.value_ else none) (filled args)

def strictFlag (args : List Arg) : Option Bool :=
  atMostOne false (fun arg => if arg.name_ = "" ∧ arg.value_ = "without_method_body" then some true else none) (filled args)

structure StrictArguments (host : Host Record) (args : List Arg) : Prop where
  storage : ∀ dchecks settings info,
    (dchecks = true → info.decl ≠ none ∧ settings.implParameterQualType ≠ "") →
    (storageReply host dchecks settings args info).toOption = (strictPadding host args).map fun extra_size_bytes =>
      ⟨storageText settings.implParameterQualType (typeSize info extra_size_bytes).toNat (fieldAlign info).toNat,[]⟩
  methodCalls : ∀ dchecks settings info,
    (methodCallsReply host dchecks settings args info).toOption = (strictFlag args).map fun without_method_body =>
      emitMethodCalls host settings.interfaceParameterQualType without_method_body info.methods ⟨"",[]⟩
  order : ∀ dchecks (options : SourceTransformOptions Record) s, options.args.Perm args →
    (injectPimplStorage host dchecks options s).result.toOption =
        (injectPimplStorage host dchecks {options with args := args} s).result.toOption ∧
      (injectPimplMethodCalls host dchecks options s).result.toOption =
        (injectPimplMethodCalls host dchecks {options with args := args} s).result.toOption

-- The vectors that the loops take although they should not: the padding given
-- more than once, and the flag given more than once or under a name.
def RepeatedPadding (host : Host Record) (args : List Arg) : Prop :=
  2 ≤ (filled args).length ∧ ∀ arg ∈ filled args, IsPadding host arg

def LooseFlag (args : List Arg) : Prop :=
  (2 ≤ (filled args).length ∨ ∃ arg ∈ filled args, arg.name_ ≠ "") ∧
    ∀ arg ∈ filled args, arg.value_ = "without_method_body"

theorem filled_others (arg : Arg) (member : arg ∈ filled args) : isFilled arg = true :=
  (List.mem_filter.mp member).2

theorem atMostOne_congr {absent : Value} {read other : Arg → Option Value} {args : List Arg}
    (same : ∀ arg, args = [arg] → read arg = other arg) : atMostOne absent read args = atMostOne absent other args := by
  match args with
  | [] => rfl
  | [arg] => exact same arg rfl
  | _ :: _ :: _ => rfl

theorem loop_single {step : Value → Arg → Except Failure Value} {Taken : Arg → Prop}
    (skips : ∀ value arg, ¬ isFilled arg = true → step value arg = .ok value)
    (takes : ∀ value next arg, isFilled arg = true → step value arg = .ok next → Taken arg) (value : Value)
    (single : ¬ (2 ≤ (filled args).length ∧ ∀ arg ∈ filled args, Taken arg)) :
    (loop step args value).toOption = atMostOne value (fun arg => (step value arg).toOption) (filled args) := by
  have others : ∀ arg ∈ filled args, isFilled arg = true := filled_others
  rw [loop_filled skips]
  match size : filled args with
  | [] => rfl
  | [arg] =>
    cases stepped : step value arg <;> simp [atMostOne,loop,stepped,Except.toOption]
  | first :: second :: rest =>
    rw [size] at single others
    cases ran : loop step (first :: second :: rest) value with
    | error failure => rfl
    | ok result => exact absurd ⟨by simp,loop_taken takes others ran⟩ single

theorem parseStorageArgs_strict (single : ¬ RepeatedPadding host args) :
    (parseStorageArgs host dchecks args 0).toOption = strictPadding host args := by
  rw [parseStorageArgs_loop,loop_single parseStorageArg_skips parseStorageArg_takes 0 single]
  apply atMostOne_congr
  intro arg alone
  have member : arg ∈ filled args := by simp [alone]
  have blank : ¬ (arg.name_ = "" ∧ arg.value_ = "") := isFilled_iff.mp (filled_others arg member)
  by_cases named : arg.name_ = "sizePadding"
  · cases converted : host.StringToInt arg.value_ <;> simp [parseStorageArg,named,converted,Except.toOption]
  · simp [parseStorageArg,named,blank,Except.toOption]

theorem parseMethodCallsArgs_strict (tight : ¬ LooseFlag args) :
    (parseMethodCallsArgs dchecks args false).toOption = strictFlag args := by
  have single : ¬ (2 ≤ (filled args).length ∧ ∀ arg ∈ filled args, arg.value_ = "without_method_body") :=
    fun many => tight ⟨Or.inl many.1,many.2⟩
  rw [parseMethodCallsArgs_loop,loop_single parseMethodCallsArg_skips parseMethodCallsArg_takes false single]
  apply atMostOne_congr
  intro arg alone
  have member : arg ∈ filled args := by simp [alone]
  have blank : ¬ (arg.name_ = "" ∧ arg.value_ = "") := isFilled_iff.mp (filled_others arg member)
  by_cases flag : arg.value_ = "without_method_body"
  · have unnamed : arg.name_ = "" := by
      apply Classical.byContradiction
      intro named
      exact tight ⟨Or.inr ⟨arg,member,named⟩,by simpa [alone] using flag⟩
    simp [parseMethodCallsArg,flag,unnamed,Except.toOption]
  · simp [parseMethodCallsArg,flag,blank,Except.toOption]

theorem storageReply_strict {settings : ReflectForPimplSettings Record} {info : ClassInfo Record}
    (checked : dchecks = true → info.decl ≠ none ∧ settings.implParameterQualType ≠ "") :
    (storageReply host dchecks settings args info).toOption =
      (parseStorageArgs host dchecks args 0).toOption.map fun extra_size_bytes =>
        ⟨storageText settings.implParameterQualType (typeSize info extra_size_bytes).toNat
          (fieldAlign info).toNat,[]⟩ := by
  unfold storageReply
  split
  · rename_i refused
    rw [refused]
    rfl
  · rename_i parsed
    rw [parsed]
    have declared : ¬ (dchecks = true ∧ info.decl.isNone = true) :=
      fun stop => (checked stop.1).1 (Option.isNone_iff_eq_none.mp stop.2)
    have named : ¬ (dchecks = true ∧ settings.implParameterQualType = "") := fun stop => (checked stop.1).2 stop.2
    rw [if_neg declared,if_neg named]
    rfl

theorem storageReply_congr {others : List Arg} {settings : ReflectForPimplSettings Record} {info : ClassInfo Record}
    (same : (parseStorageArgs host dchecks others 0).toOption = (parseStorageArgs host dchecks args 0).toOption) :
    (storageReply host dchecks settings others info).toOption =
      (storageReply host dchecks settings args info).toOption := by
  unfold storageReply
  cases first : parseStorageArgs host dchecks others 0 <;> cases second : parseStorageArgs host dchecks args 0 <;>
    rw [first,second] at same <;> cases same <;> rfl

theorem methodCallsReply_strict (settings : ReflectForPimplSettings Record) (info : ClassInfo Record) :
    (methodCallsReply host dchecks settings args info).toOption =
      (parseMethodCallsArgs dchecks args false).toOption.map fun without_method_body =>
        emitMethodCalls host settings.interfaceParameterQualType without_method_body info.methods ⟨"",[]⟩ := by
  unfold methodCallsReply
  split <;> rename_i parsed <;> rw [parsed] <;> rfl

theorem inject_congr {reply : ReflectForPimplSettings Record → List Arg → ClassInfo Record → Except Failure Emission}
    {options : SourceTransformOptions Record} (s : State Record)
    (same : ∀ settings info, (reply settings options.args info).toOption = (reply settings args info).toOption) :
    (inject host dchecks reply options s).result.toOption =
      (inject host dchecks reply {options with args := args} s).result.toOption := by
  unfold inject
  dsimp only
  split
  · rfl
  · rename_i settings record resolved
    split
    · rfl
    · rename_i pointer cached
      split
      · rfl
      · have equal := same settings (s.heap pointer)
        cases first : reply settings options.args (s.heap pointer) <;>
          cases second : reply settings args (s.heap pointer) <;> rw [first,second] at equal <;> cases equal <;> rfl

theorem atMostOne_perm {absent : Value} {read : Arg → Option Value} {permuted : List Arg} (order : permuted.Perm args) :
    atMostOne absent read permuted = atMostOne absent read args := by
  match permuted,args with
  | [],[] => rfl
  | [one],[other] =>
    cases List.singleton_perm_singleton.mp order
    rfl
  | _ :: _ :: _,_ :: _ :: _ => rfl
  | [],_ :: _ | _ :: _,[] | [_],_ :: _ :: _ | _ :: _ :: _,[_] =>
    have size := order.length_eq
    simp at size

theorem filled_perm {permuted : List Arg} (order : permuted.Perm args) : (filled permuted).Perm (filled args) :=
  order.filter isFilled

theorem repeatedPadding_perm {permuted : List Arg} (order : permuted.Perm args)
    (repeated : RepeatedPadding host permuted) : RepeatedPadding host args := by
  have order := filled_perm order
  refine ⟨order.length_eq ▸ repeated.1,?_⟩
  intro arg member
  exact repeated.2 arg (order.mem_iff.mpr member)

theorem looseFlag_perm {permuted : List Arg} (order : permuted.Perm args) (loose : LooseFlag permuted) :
    LooseFlag args := by
  have order := filled_perm order
  refine ⟨?_,fun arg member => loose.2 arg (order.mem_iff.mpr member)⟩
  rcases loose.1 with many | named
  · exact Or.inl (order.length_eq ▸ many)
  · obtain ⟨arg,member,other⟩ := named
    exact Or.inr ⟨arg,order.mem_iff.mp member,other⟩

theorem repeated_not_strict (repeated : RepeatedPadding host args) : ¬ StrictArguments host args := by
  intro strict
  obtain ⟨value,parsed⟩ := parseStorageArgs_release repeated.2
  have reply := strict.storage false {} default (fun debug => by cases debug)
  have refused : strictPadding host args = none := by
    unfold strictPadding
    match filled args,repeated.1 with
    | _ :: _ :: _,_ => rfl
  rw [storageReply_strict (fun debug => by cases debug),parsed,refused] at reply
  cases reply

theorem loose_not_strict (loose : LooseFlag args) : ¬ StrictArguments host args := by
  intro strict
  obtain ⟨value,parsed⟩ := parseMethodCallsArgs_release loose.2
  have reply := strict.methodCalls false {} default
  have refused : strictFlag args = none := by
    unfold strictFlag
    match filled args,loose.1 with
    | [],bad => simp at bad
    | [arg],bad =>
      have named : arg.name_ ≠ "" := by simpa using bad
      exact if_neg fun unnamed => named unnamed.1
    | _ :: _ :: _,_ => rfl
  rw [methodCallsReply_strict,parsed,refused] at reply
  cases reply

-- The loops are strict exactly on the vectors that neither of them takes by
-- mistake. A release build shows both mistakes; under DCHECKs a padding of zero
-- may still be repeated, and the flag may still have a name.
theorem arguments_strict (host : Host Record) (args : List Arg) :
    StrictArguments host args ↔ ¬ RepeatedPadding host args ∧ ¬ LooseFlag args := by
  constructor
  · intro strict
    exact ⟨fun repeated => repeated_not_strict repeated strict,fun loose => loose_not_strict loose strict⟩
  · intro conditions
    rcases conditions with ⟨single,tight⟩
    refine ⟨?_,?_,?_⟩
    · intro dchecks settings info checked
      rw [storageReply_strict checked,parseStorageArgs_strict single]
    · intro dchecks settings info
      rw [methodCallsReply_strict,parseMethodCallsArgs_strict tight]
    · intro dchecks options s order
      constructor
      · apply inject_congr
        intro settings info
        apply storageReply_congr
        rw [parseStorageArgs_strict single,
          parseStorageArgs_strict fun repeated => single (repeatedPadding_perm order repeated)]
        exact atMostOne_perm (filled_perm order)
      · apply inject_congr
        intro settings info
        rw [methodCallsReply_strict,methodCallsReply_strict,parseMethodCallsArgs_strict tight,
          parseMethodCallsArgs_strict fun loose => tight (looseFlag_perm order loose)]
        exact congrArg _ (atMostOne_perm (filled_perm order))

theorem repeated_padding_accepted :
    ¬ StrictArguments (plainHost fun _ : Unit => default) [⟨"sizePadding","8"⟩,⟨"sizePadding","16"⟩] := by
  intro strict
  have reply := strict.storage false {} default (fun debug => by cases debug)
  revert reply
  decide

end FlexPimpl.Arguments
