import FlexPimpl.History

namespace FlexPimpl.EventHandler
open Tooling

variable {Pipeline Record : Type}

def kVersion : String := "v0.0.1"
def kVersionCommand : String := "/version"
def kPluginDebugLogName : String := "(Flexpimpl plugin)"

def ruleName : Rule → String
  | .inject_pimpl_storage => "inject_pimpl_storage"
  | .inject_pimpl_method_calls => "inject_pimpl_method_calls"
  | .reflect_for_pimpl => "reflect_for_pimpl"

-- A bound method keeps the identity of its receiver and does not keep the
-- receiver alive. What other plugins register is opaque here.
inductive Binding where
  | bindRepeating (method : Rule) (receiver : Nat)
  | foreign
deriving DecidableEq, Repr

structure Instance (Record : Type) where
  id : Nat
  state : State Record

-- The handler, the pipelines it was ever given, and its log. The only live
-- pimplTooling is the one tooling_ owns; assigning tooling_ destroys the old
-- one. No identity from `constructed` on has been used.
structure World (Pipeline Record : Type) where
  tooling_ : Option (Instance Record)
  clingInterpreter_ : Option Nat
  sourceTransformRules : Pipeline → String → Option Binding
  constructed : Nat
  log : List String
  bound : ∀ pipeline name method receiver,
    sourceTransformRules pipeline name = some (.bindRepeating method receiver) → receiver < constructed

-- Before the first event a pipeline may hold rules, but none of this handler's.
-- The constructor leaves clingInterpreter_ unset; that it is read so is a fault
-- as a null pointer is.
def World.start (others : Pipeline → String → Bool) : World Pipeline Record where
  tooling_ := none
  clingInterpreter_ := none
  sourceTransformRules := fun pipeline name => if others pipeline name then some .foreign else none
  constructed := 0
  log := []
  bound := by
    intro pipeline name method receiver placed
    split at placed <;> cases placed

inductive Fault where
  | dcheck (condition : String)
  | nullPointer (pointer : String)
  | destroyed (receiver : Nat)
  | handler (failure : Failure)
deriving DecidableEq, Repr

inductive Event (Pipeline : Type) where
  | init (argc : Nat)
  | stringCommand (split_parts : List String)
  | registerClingInterpreter (clingInterpreter : Option Nat)
  | registerAnnotationMethods (sourceTransformPipeline : Option Pipeline)

def World.makeTooling (w : World Pipeline Record) : World Pipeline Record :=
  {w with
    tooling_ := some ⟨w.constructed,State.start⟩
    constructed := w.constructed + 1
    bound := fun pipeline name method receiver placed =>
      Nat.lt_succ_of_lt (w.bound pipeline name method receiver placed)}

theorem makeTooling_made (w : World Pipeline Record) : w.constructed < w.makeTooling.constructed :=
  Nat.lt_succ_self w.constructed

def World.assign [DecidableEq Pipeline] (w : World Pipeline Record) (pipeline : Pipeline) (rule : Rule)
    (receiver : Nat) (made : receiver < w.constructed) : World Pipeline Record :=
  {w with
    sourceTransformRules := fun other name =>
      if other = pipeline ∧ name = ruleName rule then some (.bindRepeating rule receiver)
      else w.sourceTransformRules other name
    bound := by
      intro other name method old placed
      split at placed
      · cases placed
        exact made
      · exact w.bound other name method old placed}

theorem assign_made [DecidableEq Pipeline] {w : World Pipeline Record} {pipeline : Pipeline} {rule : Rule}
    {receiver : Nat} {made : receiver < w.constructed} (bound : other < w.constructed) :
    other < (w.assign pipeline rule receiver made).constructed := bound

section Handler
variable (host : Host Record) (dchecks : Bool) (buildType : String)

def StringCommand (split_parts : List String) (w : World Pipeline Record) : World Pipeline Record :=
  match split_parts with
  | [command] =>
    if command = kVersionCommand then
      {w with log := w.log ++ [kPluginDebugLogName ++ " application version: " ++ kVersion,
        kPluginDebugLogName ++ " application build type: " ++ buildType]}
    else w
  | _ => w

def RegisterClingInterpreter (clingInterpreter : Option Nat) (w : World Pipeline Record) :
    Except Fault (World Pipeline Record) :=
  if dchecks ∧ clingInterpreter = none then .error (.dcheck "event.clingInterpreter")
  else .ok {w with clingInterpreter_ := clingInterpreter}

-- The host tool runs the rule a pipeline holds under a name. A rule of this
-- handler calls a method on its receiver, wherever that may be by then.
def runRule (pipeline : Pipeline) (name : String) (options : SourceTransformOptions Record)
    (w : World Pipeline Record) : Except Fault (World Pipeline Record) :=
  match w.sourceTransformRules pipeline name with
  | none | some .foreign => .ok w
  | some (.bindRepeating method receiver) =>
    match w.tooling_ with
    | none => .error (.destroyed receiver)
    | some tooling =>
      if tooling.id ≠ receiver then .error (.destroyed receiver) else
      match invoke host dchecks ⟨method,options⟩ tooling.state with
      | .failed failure _ => .error (.handler failure)
      | .completed _ state => .ok {w with tooling_ := some {tooling with state := state}}

variable [DecidableEq Pipeline]

-- The two pointers are checked in debug builds and followed in all of them, by
-- the constructor of pimplTooling, before tooling_ is assigned. From there on
-- every CHECK(tooling_) holds.
def RegisterAnnotationMethods (sourceTransformPipeline : Option Pipeline) (w : World Pipeline Record) :
    Except Fault (World Pipeline Record) :=
  match w.clingInterpreter_ with
  | none => .error (if dchecks then .dcheck "clingInterpreter_" else .nullPointer "clingInterpreter_")
  | some _ =>
    match sourceTransformPipeline with
    | none => .error (if dchecks then .dcheck "event.sourceTransformPipeline" else .nullPointer "event.sourceTransformPipeline")
    | some pipeline =>
      let tooling := w.makeTooling
      let made := makeTooling_made w
      let storage := tooling.assign pipeline .inject_pimpl_storage w.constructed made
      let calls := storage.assign pipeline .inject_pimpl_method_calls w.constructed (assign_made made)
      .ok (calls.assign pipeline .reflect_for_pimpl w.constructed (assign_made (assign_made made)))

def handle (event : Event Pipeline) (w : World Pipeline Record) : Except Fault (World Pipeline Record) :=
  match event with
  | .init _ => .ok w
  | .stringCommand split_parts => .ok (StringCommand buildType split_parts w)
  | .registerClingInterpreter clingInterpreter => RegisterClingInterpreter dchecks clingInterpreter w
  | .registerAnnotationMethods sourceTransformPipeline => RegisterAnnotationMethods dchecks sourceTransformPipeline w

inductive Action (Pipeline Record : Type) where
  | handle (event : Event Pipeline)
  | runRule (pipeline : Pipeline) (name : String) (options : SourceTransformOptions Record)

def act (action : Action Pipeline Record) (w : World Pipeline Record) : Except Fault (World Pipeline Record) :=
  match action with
  | .handle event => handle dchecks buildType event w
  | .runRule pipeline name options => runRule host dchecks pipeline name options w

end Handler

section Runs
variable {host : Host Record} {dchecks : Bool} {buildType : String}
  {w next : World Pipeline Record} {pipeline : Pipeline} {registered : List Pipeline}

def BoundTo (w : World Pipeline Record) (pipeline : Pipeline) (receiver : Nat) : Prop :=
  ∀ rule, w.sourceTransformRules pipeline (ruleName rule) = some (.bindRepeating rule receiver)

structure Registered (w : World Pipeline Record) (pipeline : Pipeline) (next : World Pipeline Record) : Prop where
  tooling : next.tooling_ = some ⟨w.constructed,State.start⟩
  own : BoundTo next pipeline w.constructed
  others : ∀ other, other ≠ pipeline → next.sourceTransformRules other = w.sourceTransformRules other
  names : ∀ name, (∀ rule, name ≠ ruleName rule) →
    next.sourceTransformRules pipeline name = w.sourceTransformRules pipeline name

def Quiet (w next : World Pipeline Record) : Prop :=
  next.sourceTransformRules = w.sourceTransformRules ∧ next.tooling_.map Instance.id = w.tooling_.map Instance.id

theorem StringCommand_quiet (split_parts : List String) (w : World Pipeline Record) :
    Quiet w (StringCommand buildType split_parts w) := by
  unfold StringCommand
  repeat' split
  all_goals exact ⟨rfl,rfl⟩

theorem runRule_quiet {name : String} {options : SourceTransformOptions Record}
    (ran : runRule host dchecks pipeline name options w = .ok next) : Quiet w next := by
  unfold runRule at ran
  split at ran
  · cases ran
    exact ⟨rfl,rfl⟩
  · cases ran
    exact ⟨rfl,rfl⟩
  · split at ran
    · cases ran
    · rename_i tooling owned
      split at ran
      · cases ran
      · split at ran
        · cases ran
        · cases ran
          exact ⟨rfl,by simp [owned]⟩

def Action.registers : Action Pipeline Record → Option Pipeline
  | .handle (.registerAnnotationMethods sourceTransformPipeline) => sourceTransformPipeline
  | _ => none

-- Where the handler's rules are, given the pipelines registered so far: the
-- latest pipeline calls the owned object, and no other pipeline does.
structure Placed (registered : List Pipeline) (w : World Pipeline Record) : Prop where
  only : ∀ pipeline name method receiver, w.sourceTransformRules pipeline name = some (.bindRepeating method receiver) →
    pipeline ∈ registered ∧ name = ruleName method
  each : ∀ pipeline ∈ registered, ∃ receiver, BoundTo w pipeline receiver
  latest : ∀ pipeline, registered.getLast? = some pipeline → ∃ tooling, w.tooling_ = some tooling ∧
    ∀ other ∈ registered, BoundTo w other tooling.id ↔ other = pipeline

theorem start_placed (others : Pipeline → String → Bool) : Placed [] (World.start others : World Pipeline Record) := by
  refine ⟨?_,by simp,by simp⟩
  intro pipeline name method receiver placed
  simp only [World.start] at placed
  split at placed <;> cases placed

theorem quiet_placed (quiet : Quiet w next) (placed : Placed registered w) : Placed registered next := by
  obtain ⟨rules,owned⟩ := quiet
  refine ⟨?_,?_,?_⟩
  · rw [rules]
    exact placed.only
  · simpa only [BoundTo,rules] using placed.each
  · intro pipeline last
    obtain ⟨tooling,held,exactly⟩ := placed.latest pipeline last
    rw [held,Option.map_some,Option.map_eq_some_iff] at owned
    obtain ⟨same,still,sameId⟩ := owned
    refine ⟨same,still,?_⟩
    simpa only [BoundTo,rules,sameId] using exactly

def registrations (actions : List (Action Pipeline Record)) : List Pipeline := actions.filterMap Action.registers

-- No rule outlives its receiver, and the rules of one pipeline share theirs.
structure RulesCurrent (w : World Pipeline Record) : Prop where
  current : ∀ pipeline name method receiver, w.sourceTransformRules pipeline name = some (.bindRepeating method receiver) →
    ∃ tooling, w.tooling_ = some tooling ∧ tooling.id = receiver
  shared : ∀ pipeline first second method other left right,
    w.sourceTransformRules pipeline first = some (.bindRepeating method left) →
    w.sourceTransformRules pipeline second = some (.bindRepeating other right) → left = right

theorem placed_receiver (placed : Placed registered w) {name : String} {method : Rule} {receiver : Nat}
    (found : w.sourceTransformRules pipeline name = some (.bindRepeating method receiver)) :
    BoundTo w pipeline receiver := by
  obtain ⟨member,rfl⟩ := placed.only pipeline name method receiver found
  obtain ⟨held,bound⟩ := placed.each pipeline member
  rw [bound method] at found
  cases found
  exact bound

theorem placed_current (placed : Placed registered w) (member : pipeline ∈ registered) :
    ∃ last tooling, last ∈ registered ∧ w.tooling_ = some tooling ∧
      ∀ other ∈ registered, BoundTo w other tooling.id ↔ other = last := by
  obtain ⟨last,newest⟩ := Option.isSome_iff_exists.mp (List.getLast?_isSome.mpr (List.ne_nil_of_mem member))
  obtain ⟨tooling,owned,exactly⟩ := placed.latest last newest
  exact ⟨last,tooling,List.mem_of_getLast? newest,owned,exactly⟩

theorem placed_shared (placed : Placed registered w) {first second : String} {method other : Rule} {left right : Nat}
    (atFirst : w.sourceTransformRules pipeline first = some (.bindRepeating method left))
    (atSecond : w.sourceTransformRules pipeline second = some (.bindRepeating other right)) : left = right := by
  have bound := placed_receiver placed atFirst
  obtain ⟨_,rfl⟩ := placed.only _ _ _ _ atSecond
  rw [bound other] at atSecond
  cases atSecond
  rfl

variable [DecidableEq Pipeline]

theorem assign_rules (w : World Pipeline Record) (pipeline : Pipeline) (rule : Rule) (receiver : Nat)
    (made : receiver < w.constructed) (other : Pipeline) (name : String) :
    (w.assign pipeline rule receiver made).sourceTransformRules other name =
      if other = pipeline ∧ name = ruleName rule then some (.bindRepeating rule receiver)
      else w.sourceTransformRules other name := rfl

theorem RegisterAnnotationMethods_registered {sourceTransformPipeline : Option Pipeline}
    (accepted : RegisterAnnotationMethods dchecks sourceTransformPipeline w = .ok next) :
    ∃ pipeline, sourceTransformPipeline = some pipeline ∧ Registered w pipeline next := by
  unfold RegisterAnnotationMethods at accepted
  split at accepted
  · cases accepted
  · split at accepted
    · cases accepted
    · rename_i pipeline
      cases accepted
      refine ⟨pipeline,rfl,rfl,?_,?_,?_⟩
      · intro rule
        simp only [assign_rules,true_and]
        cases rule <;> rfl
      · intro other different
        funext name
        simp only [assign_rules,different,false_and,if_false]
        rfl
      · intro name unlisted
        simp only [assign_rules,unlisted,and_false,if_false]
        rfl

theorem act_cases {action : Action Pipeline Record} (accepted : act host dchecks buildType action w = .ok next) :
    (∃ pipeline, action.registers = some pipeline ∧ Registered w pipeline next) ∨
      (action.registers = none ∧ Quiet w next) := by
  cases action with
  | runRule pipeline name options => exact .inr ⟨rfl,runRule_quiet accepted⟩
  | handle event =>
    cases event with
    | init argc =>
      cases accepted
      exact .inr ⟨rfl,rfl,rfl⟩
    | stringCommand split_parts =>
      cases accepted
      exact .inr ⟨rfl,StringCommand_quiet split_parts w⟩
    | registerClingInterpreter clingInterpreter =>
      simp only [act,handle,RegisterClingInterpreter] at accepted
      split at accepted
      · cases accepted
      · cases accepted
        exact .inr ⟨rfl,rfl,rfl⟩
    | registerAnnotationMethods sourceTransformPipeline =>
      exact .inl (RegisterAnnotationMethods_registered accepted)

-- A fault ends the process, so a run has none.
def machine (host : Host Record) (dchecks : Bool) (buildType : String) :
    Machines.Machine (World Pipeline Record) (Action Pipeline Record) :=
  fun w action next => act host dchecks buildType action w = .ok next

abbrev Runs (host : Host Record) (dchecks : Bool) (buildType : String) (start : World Pipeline Record)
    (actions : List (Action Pipeline Record)) (w : World Pipeline Record) : Prop :=
  Machines.Runs (machine host dchecks buildType) start actions w

theorem registered_placed (registers : Registered w pipeline next) (placed : Placed registered w) :
    Placed (registered ++ [pipeline]) next := by
  have kept : ∀ other, other ≠ pipeline → ∀ receiver, BoundTo next other receiver ↔ BoundTo w other receiver := by
    intro other different receiver
    simp only [BoundTo,registers.others other different]
  refine ⟨?_,?_,?_⟩
  · intro other name method receiver found
    by_cases same : other = pipeline
    · subst same
      refine ⟨by simp,?_⟩
      by_cases listed : ∃ rule, name = ruleName rule
      · obtain ⟨rule,rfl⟩ := listed
        rw [registers.own rule] at found
        cases found
        rfl
      · rw [registers.names name fun rule named => listed ⟨rule,named⟩] at found
        exact (placed.only other name method receiver found).2
    · rw [registers.others other same] at found
      obtain ⟨member,named⟩ := placed.only other name method receiver found
      exact ⟨List.mem_append_left _ member,named⟩
  · intro other member
    by_cases same : other = pipeline
    · subst same
      exact ⟨_,registers.own⟩
    · obtain ⟨receiver,held⟩ := placed.each other ((List.mem_append.mp member).resolve_right (by simpa using same))
      exact ⟨receiver,(kept other same receiver).mpr held⟩
  · intro last newest
    have same : pipeline = last := by simpa using newest
    subst same
    refine ⟨_,registers.tooling,?_⟩
    intro other member
    refine ⟨?_,fun same => same ▸ registers.own⟩
    -- An older binding names an object constructed before this one.
    intro current
    apply Classical.byContradiction
    intro different
    have older := w.bound _ _ _ _ (((kept other different _).mp current) .reflect_for_pimpl)
    exact Nat.lt_irrefl _ older

theorem runs_placed {others : Pipeline → String → Bool} {actions : List (Action Pipeline Record)}
    (path : Runs host dchecks buildType (World.start others) actions w) : Placed (registrations actions) w := by
  induction path with
  | nil => exact start_placed others
  | @step earlier middle action next prior accepted ih =>
    rw [registrations,List.filterMap_append]
    rcases act_cases accepted with ⟨pipeline,named,registers⟩ | ⟨unnamed,quiet⟩
    · have added : [action].filterMap Action.registers = [pipeline] := by simp [named]
      rw [added]
      exact registered_placed registers ih
    · have added : [action].filterMap Action.registers = [] := by simp [unnamed]
      rw [added,List.append_nil]
      exact quiet_placed quiet ih

-- Over any events, with the rules run at any moments in between: every rule is
-- current as long as one pipeline only is ever registered.
theorem rules_current_exact (host : Host Record) (dchecks : Bool) (buildType : String)
    {others : Pipeline → String → Bool} {actions : List (Action Pipeline Record)}
    (path : Runs host dchecks buildType (World.start others) actions w) :
    RulesCurrent w ↔ ∀ first ∈ registrations actions, ∀ second ∈ registrations actions, first = second := by
  have placed := runs_placed path
  constructor
  · intro current first firstMember second secondMember
    obtain ⟨last,tooling,_,owned,exactly⟩ := placed_current placed firstMember
    have only : ∀ pipeline ∈ registrations actions, pipeline = last := by
      intro pipeline member
      obtain ⟨receiver,bound⟩ := placed.each pipeline member
      obtain ⟨_,same,rfl⟩ := current.current _ _ _ _ (bound .reflect_for_pimpl)
      rw [owned] at same
      cases same
      exact (exactly pipeline member).mp bound
    rw [only first firstMember,only second secondMember]
  · intro single
    refine ⟨?_,fun _ _ _ _ _ _ _ atFirst atSecond => placed_shared placed atFirst atSecond⟩
    intro pipeline name method receiver found
    obtain ⟨member,rfl⟩ := placed.only pipeline name method receiver found
    obtain ⟨last,tooling,lastMember,owned,exactly⟩ := placed_current placed member
    have bound := (exactly pipeline member).mpr (single pipeline member last lastMember)
    rw [bound method] at found
    cases found
    exact ⟨tooling,owned,rfl⟩

end Runs

def anyHost : Host Unit := plainHost fun _ => default
def interpreter : Action Bool Unit := .handle (.registerClingInterpreter (some 0))
def registration (pipeline : Bool) : Action Bool Unit := .handle (.registerAnnotationMethods (some pipeline))

theorem rules_current_witness :
    ∃ w, Runs anyHost true "local build" (World.start fun _ _ => false)
        [interpreter,registration false,registration false] w ∧ RulesCurrent w := by
  have first : Runs anyHost true "local build" _ _ _ :=
    Machines.Runs.nil.step (rfl : act anyHost true "local build" interpreter (World.start fun _ _ => false) = .ok _)
  have second := first.step (rfl : act _ _ _ (registration false) _ = .ok _)
  have third := second.step (rfl : act _ _ _ (registration false) _ = .ok _)
  exact ⟨_,third,(rules_current_exact anyHost true "local build" third).mpr (by decide)⟩

theorem second_pipeline_destroys :
    ∃ w, Runs anyHost true "local build" (World.start fun _ _ => false)
        [interpreter,registration false,registration true] w ∧
      runRule anyHost true false "reflect_for_pimpl" (plainOptions [plainParameter "impl" "FooImpl" ()] []) w =
        .error (.destroyed 0) ∧ ¬ RulesCurrent w := by
  have first : Runs anyHost true "local build" _ _ _ :=
    Machines.Runs.nil.step (rfl : act anyHost true "local build" interpreter (World.start fun _ _ => false) = .ok _)
  have second := first.step (rfl : act _ _ _ (registration false) _ = .ok _)
  have third := second.step (rfl : act _ _ _ (registration true) _ = .ok _)
  refine ⟨_,third,rfl,?_⟩
  intro all
  obtain ⟨tooling,owned,same⟩ := all.current false "reflect_for_pimpl" .reflect_for_pimpl 0 rfl
  cases owned
  cases same

end FlexPimpl.EventHandler
