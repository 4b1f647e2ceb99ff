import FlexPimpl.Construction

namespace FlexPimpl.Faults
open CodeGenerator Tooling History EventHandler Lifetime

variable {Pipeline Record Disk : Type}

-- How an action ends the process, given what the past amounts to, the
-- interpreter and the disk. A rule of an older pipeline calls the object of that
-- pipeline's last registration, which a later one has destroyed; objects are
-- numbered by their registrations.
inductive Stops (platform : Construction.Platform Disk) (host : Host Record) (dchecks : Bool)
    (phase : Phase Pipeline Record) (clingInterpreter : Option Nat) (disk : Disk) :
    Action Pipeline Record → Fault → Prop where
  | nullInterpreter (debug : dchecks = true) :
      Stops platform host dchecks phase clingInterpreter disk (.handle (.registerClingInterpreter none))
        (.dcheck "event.clingInterpreter")
  | constructor {fault : Fault}
      (refuses : Construction.Refuses platform dchecks disk clingInterpreter sourceTransformPipeline fault) :
      Stops platform host dchecks phase clingInterpreter disk
        (.handle (.registerAnnotationMethods sourceTransformPipeline)) fault
  | destroyed (order : phase.registered = earlier ++ pipeline :: later) (newest : pipeline ∉ later) (stale : later ≠ []) :
      Stops platform host dchecks phase clingInterpreter disk (.runRule pipeline (ruleName rule) options)
        (.destroyed earlier.length)
  | handler {failure : Failure} (latest : phase.registered.getLast? = some pipeline)
      (path : Completes host dchecks State.start rows state) (served : rows.map Prod.fst = phase.served)
      (failed : (invoke host dchecks ⟨rule,options⟩ state).result = .error failure) :
      Stops platform host dchecks phase clingInterpreter disk (.runRule pipeline (ruleName rule) options)
        (.handler failure)

variable {host : Host Record} {dchecks : Bool} {buildType : String} {registered : List Pipeline} {pipeline : Pipeline}
  {w next : World Pipeline Record} {phase : Phase Pipeline Record}

-- Objects by number: the owned one is the newest, and a pipeline's rules call
-- the one made at its last registration.
structure Numbered (registered : List Pipeline) (w : World Pipeline Record) : Prop where
  constructed : w.constructed = registered.length
  owned : ∀ tooling, w.tooling_ = some tooling → tooling.id + 1 = registered.length
  bound : ∀ earlier pipeline later, registered = earlier ++ pipeline :: later → pipeline ∉ later →
    BoundTo w pipeline earlier.length

theorem start_numbered (others : Pipeline → String → Bool) : Numbered [] (World.start others : World Pipeline Record) := by
  refine ⟨rfl,?_,?_⟩
  · intro tooling owned
    cases owned
  · intro earlier pipeline later order
    simp at order

theorem quiet_numbered (quiet : Quiet w next) (same : next.constructed = w.constructed) (numbered : Numbered registered w) :
    Numbered registered next := by
  obtain ⟨rules,ids⟩ := quiet
  refine ⟨same.trans numbered.constructed,?_,?_⟩
  · intro tooling owned
    rw [owned,Option.map_some,eq_comm,Option.map_eq_some_iff] at ids
    obtain ⟨old,held,equal⟩ := ids
    rw [← equal]
    exact numbered.owned old held
  · intro earlier pipeline later order newest
    simpa only [BoundTo,rules] using numbered.bound earlier pipeline later order newest

theorem registered_numbered (registers : Registered w pipeline next) (grown : next.constructed = w.constructed + 1)
    (numbered : Numbered registered w) : Numbered (registered ++ [pipeline]) next := by
  have length : (registered ++ [pipeline]).length = w.constructed + 1 := by simp [numbered.constructed]
  refine ⟨by rw [grown,length],?_,?_⟩
  · intro tooling owned
    rw [registers.tooling] at owned
    cases owned
    exact length.symm
  · intro earlier other later order newest
    rcases Machines.place_snoc order with ⟨_,rfl,rfl⟩ | ⟨others,rfl,before⟩
    · rw [← numbered.constructed]
      exact registers.own
    · have different : other ≠ pipeline := by
        rintro rfl
        exact newest (by simp)
      have absent : other ∉ others := fun member => newest (List.mem_append_left _ member)
      simpa only [BoundTo,registers.others other different] using numbered.bound earlier other others before absent

theorem step_registered {action : Action Pipeline Record} {after : Phase Pipeline Record}
    (step : Step host dchecks phase action after) : after.registered = phase.registered ++ action.registers.toList := by
  cases step with
  | register ready => rfl
  | init | stringCommand | interpreter | noInterpreter | elsewhere | serve => exact (List.append_nil _).symm

theorem phases_registered {actions : List (Action Pipeline Record)}
    (phases : Machines.Runs (Step host dchecks) Phase.start actions phase) : phase.registered = registrations actions := by
  induction phases with
  | nil => rfl
  | @step earlier middle action after prior step ih =>
    rw [step_registered step,ih,registrations,registrations,List.filterMap_append]
    cases named : action.registers <;> simp [named]

theorem last_place (member : pipeline ∈ registered) :
    ∃ earlier later, registered = earlier ++ pipeline :: later ∧ pipeline ∉ later := by
  obtain ⟨later,earlier,order,newest⟩ := List.eq_append_cons_of_mem (List.mem_reverse.mpr member)
  refine ⟨earlier.reverse,later.reverse,?_,by simpa using newest⟩
  rw [← List.reverse_reverse registered,order]
  simp

theorem completes_determined {rows again : List (Invocation Record × Emission)} {s t : State Record}
    (path : Completes host dchecks State.start rows s) (other : Completes host dchecks State.start again t)
    (same : rows.map Prod.fst = again.map Prod.fst) : s = t := by
  induction rows using List.reverseRecOn generalizing again s t with
  | nil =>
    have none : again = [] := List.map_eq_nil_iff.mp same.symm
    subst none
    exact Isolation.runs_unique path other
  | append_singleton earlier row ih =>
    rw [List.map_append,List.map_singleton,eq_comm,List.map_eq_append_iff] at same
    obtain ⟨before,last,rfl,old,new⟩ := same
    obtain ⟨⟨invocation,emission⟩,rfl,rfl⟩ := List.map_eq_singleton_iff.mp new
    obtain ⟨middle,prior,ran⟩ := Sources.completes_last path
    obtain ⟨center,first,reran⟩ := Sources.completes_last other
    rw [← ih prior first old.symm,ran] at reran
    cases reran
    rfl

theorem destroyed_exact (placed : Placed registered w) (numbered : Numbered registered w) {name : String}
    {options : SourceTransformOptions Record} {receiver : Nat} :
    runRule host dchecks pipeline name options w = .error (.destroyed receiver) ↔
      ∃ rule earlier later, name = ruleName rule ∧ registered = earlier ++ pipeline :: later ∧ pipeline ∉ later ∧
        later ≠ [] ∧ receiver = earlier.length := by
  constructor
  · intro ran
    unfold runRule at ran
    split at ran
    · cases ran
    · cases ran
    · rename_i method bound found
      obtain ⟨member,rfl⟩ := placed.only _ _ _ _ found
      obtain ⟨earlier,later,order,newest⟩ := last_place member
      have own := numbered.bound earlier pipeline later order newest method
      rw [found] at own
      cases own
      split at ran
      · rename_i lost
        obtain ⟨_,tooling,_,owned,_⟩ := placed_current placed member
        rw [lost] at owned
        cases owned
      · rename_i tooling owned
        split at ran
        · rename_i different
          cases ran
          refine ⟨method,earlier,later,rfl,order,newest,?_,rfl⟩
          rintro rfl
          have count := numbered.owned tooling owned
          rw [order,List.length_append,List.length_singleton] at count
          exact different (Nat.succ.inj count)
        · split at ran <;> cases ran
  · intro found
    obtain ⟨rule,earlier,later,rfl,order,newest,stale,rfl⟩ := found
    have bound := numbered.bound earlier pipeline later order newest rule
    have member : pipeline ∈ registered := by
      rw [order]
      simp
    obtain ⟨_,tooling,_,owned,_⟩ := placed_current placed member
    have count := numbered.owned tooling owned
    rw [order,List.length_append,List.length_cons] at count
    have different : tooling.id ≠ earlier.length := by
      have more := List.length_pos_iff.mpr stale
      omega
    unfold runRule
    simp only [bound,owned,ne_eq,different,not_false_eq_true,if_true]

-- A failure of a handler is that of a new object after the annotations served.
theorem failed_exact (describes : Describes host dchecks phase w) {name : String}
    {options : SourceTransformOptions Record} {failure : Failure} :
    runRule host dchecks pipeline name options w = .error (.handler failure) ↔
      ∃ rule rows state, name = ruleName rule ∧ phase.registered.getLast? = some pipeline ∧
        Completes host dchecks State.start rows state ∧ rows.map Prod.fst = phase.served ∧
        (invoke host dchecks ⟨rule,options⟩ state).result = .error failure := by
  constructor
  · intro ran
    unfold runRule at ran
    split at ran
    · cases ran
    · cases ran
    · rename_i method receiver found
      obtain ⟨_,named,tooling,owned,exactly⟩ := found_latest describes.placed found
      obtain ⟨rows,served,path⟩ := describes.tooling tooling owned
      simp only [owned] at ran
      split at ran
      · cases ran
      · rename_i current
        have latest := exactly.mp (Classical.not_not.mp current)
        split at ran
        · rename_i failed
          cases ran
          exact ⟨method,rows,tooling.state,named,latest,path,served,by rw [failed]; rfl⟩
        · cases ran
  · intro found
    obtain ⟨rule,rows,state,rfl,latest,path,served,failed⟩ := found
    obtain ⟨tooling,owned,exactly⟩ := describes.placed.latest pipeline latest
    have bound := (exactly pipeline (List.mem_of_getLast? latest)).mpr rfl rule
    obtain ⟨own,same,again⟩ := describes.tooling tooling owned
    have equal := completes_determined path again (served.trans same.symm)
    unfold runRule
    simp only [bound,owned,ne_eq,not_true_eq_false,if_false]
    rw [← equal]
    cases outcome : invoke host dchecks ⟨rule,options⟩ state with
    | failed other after =>
      rw [outcome] at failed
      cases failed
      rfl
    | completed emission after =>
      rw [outcome] at failed
      cases failed

theorem runRule_faults {name : String} {options : SourceTransformOptions Record} {fault : Fault}
    (ran : runRule host dchecks pipeline name options w = .error fault) :
    (∃ receiver, fault = .destroyed receiver) ∨ ∃ failure, fault = .handler failure := by
  unfold runRule at ran
  split at ran
  · cases ran
  · cases ran
  · rename_i receiver _
    split at ran
    · cases ran
      exact Or.inl ⟨receiver,rfl⟩
    · split at ran
      · cases ran
        exact Or.inl ⟨receiver,rfl⟩
      · split at ran
        · rename_i failure _ _
          cases ran
          exact Or.inr ⟨failure,rfl⟩
        · cases ran

variable [DecidableEq Pipeline]

theorem runs_numbered {others : Pipeline → String → Bool} {actions : List (Action Pipeline Record)}
    (path : EventHandler.Runs host dchecks buildType (World.start others) actions w) :
    Numbered (registrations actions) w := by
  induction path with
  | nil => exact start_numbered others
  | @step earlier middle action next prior accepted ih =>
    have grown := (act_members accepted).2
    rw [registrations,List.filterMap_append]
    rcases act_cases accepted with ⟨pipeline,named,registers⟩ | ⟨unnamed,quiet⟩
    · have added : [action].filterMap Action.registers = [pipeline] := by simp [named]
      rw [added]
      exact registered_numbered registers (by rw [grown,named]; rfl) ih
    · have added : [action].filterMap Action.registers = [] := by simp [unnamed]
      rw [added,List.append_nil]
      exact quiet_numbered quiet (by rw [grown,unnamed]; rfl) ih

section Process
variable {platform : Construction.Platform Disk} {process start : Construction.Process Pipeline Record Disk}
  {actions : List (Action Pipeline Record)} {fault : Fault}

theorem runs_handler (path : Machines.Runs (Construction.machine platform host dchecks buildType) start actions process) :
    EventHandler.Runs host dchecks buildType start.eventHandler_ actions process.eventHandler_ := by
  induction path with
  | nil => exact .nil
  | step prior accepted ih => exact ih.step (Construction.act_parts.mp accepted).1

-- Once the object is constructed the registration goes through.
theorem registration_exact {sourceTransformPipeline : Option Pipeline} :
    Construction.act platform host dchecks buildType (.handle (.registerAnnotationMethods sourceTransformPipeline)) process =
        .error fault ↔
      Construction.Refuses platform dchecks process.disk process.eventHandler_.clingInterpreter_ sourceTransformPipeline
        fault := by
  rw [← Construction.refused_exact,Construction.act,Construction.register]
  split
  · rename_i refused
    rw [refused]
    simp
  · rename_i outDir_ disk constructed
    obtain ⟨own,pipeline,ready,rfl,_⟩ := (Construction.constructed_exact process.outDir_).mp constructed
    obtain ⟨after,handled⟩ := Construction.RegisterAnnotationMethods_ready dchecks pipeline ready
    rw [handled,constructed]
    simp

theorem interpreter_exact {clingInterpreter : Option Nat} :
    Construction.act platform host dchecks buildType (.handle (.registerClingInterpreter clingInterpreter)) process =
        .error fault ↔
      dchecks = true ∧ clingInterpreter = none ∧ fault = .dcheck "event.clingInterpreter" := by
  simp only [Construction.act,EventHandler.act,handle,RegisterClingInterpreter]
  by_cases checked : dchecks = true ∧ clingInterpreter = none
  · simp [checked,eq_comm]
  · simp only [checked,if_false]
    constructor
    · intro ended
      cases ended
    · intro refused
      exact absurd ⟨refused.1,refused.2.1⟩ checked

theorem rule_exact {name : String} {options : SourceTransformOptions Record} :
    Construction.act platform host dchecks buildType (.runRule pipeline name options) process = .error fault ↔
      runRule host dchecks pipeline name options process.eventHandler_ = .error fault := by
  simp only [Construction.act,EventHandler.act]
  split
  · rename_i refused
    rw [refused]
    simp
  · rename_i accepted
    rw [accepted]
    simp

omit [DecidableEq Pipeline] in
theorem rule_stops {clingInterpreter : Option Nat} {disk : Disk} {name : String} {options : SourceTransformOptions Record}
    (describes : Describes host dchecks phase w) (numbered : Numbered phase.registered w) :
    runRule host dchecks pipeline name options w = .error fault ↔
      Stops platform host dchecks phase clingInterpreter disk (.runRule pipeline name options) fault := by
  constructor
  · intro ran
    rcases runRule_faults ran with ⟨receiver,rfl⟩ | ⟨failure,rfl⟩
    · obtain ⟨rule,earlier,later,rfl,order,newest,stale,rfl⟩ := (destroyed_exact describes.placed numbered).mp ran
      exact .destroyed order newest stale
    · obtain ⟨rule,rows,state,rfl,latest,completes,served,failed⟩ := (failed_exact describes).mp ran
      exact .handler latest completes served failed
  · intro stops
    cases stops with
    | destroyed order newest stale =>
      exact (destroyed_exact describes.placed numbered).mpr ⟨_,_,_,rfl,order,newest,stale,rfl⟩
    | handler latest completes served failed =>
      exact (failed_exact describes).mpr ⟨_,_,_,rfl,latest,completes,served,failed⟩

theorem phases_reach (recorded : Entries.RecordsDecl host) {others : Pipeline → String → Bool}
    (path : EventHandler.Runs host dchecks buildType (World.start others) actions w)
    (phases : Machines.Runs (Step host dchecks) Phase.start actions phase) : Describes host dchecks phase w := by
  obtain ⟨found,reached,describes⟩ := (phases_describe recorded buildType).runs_forth (start_describes others) phases
  have same : found = w := by
    apply Machines.runs_unique _ reached path
    intro s label first second left right
    exact Except.ok.inj (left.symm.trans right)
  rwa [same] at describes

theorem action_stops (recorded : Entries.RecordsDecl host) {others : Pipeline → String → Bool}
    (handled : EventHandler.Runs host dchecks buildType (World.start others) actions process.eventHandler_)
    (phases : Machines.Runs (Step host dchecks) Phase.start actions phase) (action : Action Pipeline Record) :
    Construction.act platform host dchecks buildType action process = .error fault ↔
      Stops platform host dchecks phase (actions.foldl interpreterAfter none) process.disk action fault := by
  have interpreter := Construction.runs_interpreter handled
  have numbered := runs_numbered handled
  rw [← phases_registered phases] at numbered
  cases action with
  | runRule pipeline name options => exact rule_exact.trans (rule_stops (phases_reach recorded handled phases) numbered)
  | handle event =>
    cases event with
    | init argc | stringCommand split_parts => exact ⟨nofun,nofun⟩
    | registerClingInterpreter clingInterpreter =>
      rw [interpreter_exact]
      constructor
      · rintro ⟨debug,rfl,rfl⟩
        exact .nullInterpreter debug
      · intro stops
        cases stops with
        | nullInterpreter debug => exact ⟨debug,rfl,rfl⟩
    | registerAnnotationMethods sourceTransformPipeline =>
      rw [registration_exact,interpreter]
      constructor
      · exact .constructor
      · intro stops
        cases stops with
        | constructor refuses => exact refuses

-- Every way a process ends, over all histories of the handler and its objects,
-- the constructor's own checks included.
theorem faults_exact (platform : Construction.Platform Disk) (host : Host Record) (dchecks : Bool) (buildType : String)
    (recorded : Entries.RecordsDecl host) {others : Pipeline → String → Bool}
    (begun : start.eventHandler_ = World.start others)
    (path : Machines.Runs (Construction.machine platform host dchecks buildType) start actions process) :
    (∃ phase, Machines.Runs (Step host dchecks) Phase.start actions phase) ∧
      ∀ phase, Machines.Runs (Step host dchecks) Phase.start actions phase →
        ∀ (action : Action Pipeline Record) (fault : Fault),
          Construction.act platform host dchecks buildType action process = .error fault ↔
            Stops platform host dchecks phase (actions.foldl interpreterAfter none) process.disk action fault := by
  have handled := runs_handler path
  rw [begun] at handled
  constructor
  · obtain ⟨phase,phases,_⟩ := (phases_describe recorded buildType).swap.runs_forth (start_describes others) handled
    exact ⟨phase,phases⟩
  · intro phase phases action fault
    exact action_stops recorded handled phases action

end Process

def bazHost : Host Unit := plainHost fun _ => Entries.onlyBaz

-- The first pipeline's rules call the first object, which the second registration
-- destroyed.
theorem faults_exact_witness :
    ∃ process phase, Machines.Runs (Construction.machine Construction.plainPlatform bazHost true "local build")
        ⟨World.start fun _ _ => false,"",["bin"]⟩ [interpreter,registration false,registration true] process ∧
      Stops Construction.plainPlatform bazHost true phase (some 0) process.disk
        (.runRule false "reflect_for_pimpl" Entries.reflectorOf.options) (.destroyed 0) := by
  have first : Machines.Runs (Construction.machine Construction.plainPlatform bazHost true "local build")
      ⟨World.start fun _ _ => false,"",["bin"]⟩ [interpreter] _ :=
    Machines.Runs.nil.step (rfl : Construction.act _ _ _ _ interpreter _ = .ok _)
  have second := first.step (rfl : Construction.act _ _ _ _ (registration false) _ = .ok _)
  have third := second.step (rfl : Construction.act _ _ _ _ (registration true) _ = .ok _)
  have phases : Machines.Runs (Step bazHost true) Phase.start [interpreter,registration false,registration true] _ :=
    ((Machines.Runs.nil.step (.interpreter 0)).step (.register rfl)).step (.register rfl)
  have stops := (faults_exact Construction.plainPlatform bazHost true "local build" (fun _ => rfl) rfl third).2 _ phases
  exact ⟨_,_,third,(stops _ _).mp rfl⟩

end FlexPimpl.Faults
