import FlexPimpl.EventHandler
import FlexPimpl.Sources

namespace FlexPimpl.Lifetime
open Tooling Steps History EventHandler

variable {Pipeline Record : Type} {host : Host Record} {dchecks : Bool} {buildType : String}

-- What the handler's past amounts to: whether there is an interpreter, the
-- pipelines it was registered with, and the annotations served since the latest.
structure Phase (Pipeline Record : Type) where
  interpreter : Bool
  registered : List Pipeline
  served : List (Invocation Record)

def Phase.start : Phase Pipeline Record := ⟨false,[],[]⟩

def Phase.Owns (phase : Phase Pipeline Record) (pipeline : Pipeline) (name : String) : Prop :=
  pipeline ∈ phase.registered ∧ ∃ rule, name = ruleName rule

-- The handler without its objects: no cache, no identities, nothing to destroy.
inductive Step (host : Host Record) (dchecks : Bool) (phase : Phase Pipeline Record) :
    Action Pipeline Record → Phase Pipeline Record → Prop where
  | init (argc : Nat) : Step host dchecks phase (.handle (.init argc)) phase
  | stringCommand (split_parts : List String) : Step host dchecks phase (.handle (.stringCommand split_parts)) phase
  | interpreter (clingInterpreter : Nat) :
      Step host dchecks phase (.handle (.registerClingInterpreter (some clingInterpreter))) {phase with interpreter := true}
  | noInterpreter (release : dchecks = false) :
      Step host dchecks phase (.handle (.registerClingInterpreter none)) {phase with interpreter := false}
  | register (ready : phase.interpreter = true) :
      Step host dchecks phase (.handle (.registerAnnotationMethods (some pipeline)))
        {phase with registered := phase.registered ++ [pipeline],served := []}
  | elsewhere (other : ¬ phase.Owns pipeline name) : Step host dchecks phase (.runRule pipeline name options) phase
  | serve (latest : phase.registered.getLast? = some pipeline) (next : Sources.Next host dchecks phase.served ⟨rule,options⟩) :
      Step host dchecks phase (.runRule pipeline (ruleName rule) options) {phase with served := phase.served ++ [⟨rule,options⟩]}

structure Describes (host : Host Record) (dchecks : Bool) (phase : Phase Pipeline Record)
    (w : World Pipeline Record) : Prop where
  interpreter : phase.interpreter = w.clingInterpreter_.isSome
  placed : Placed phase.registered w
  tooling : ∀ tooling, w.tooling_ = some tooling → ∃ rows, rows.map Prod.fst = phase.served ∧
    Completes host dchecks State.start rows tooling.state

variable {phase after : Phase Pipeline Record} {w next : World Pipeline Record} {pipeline : Pipeline}

theorem start_describes (others : Pipeline → String → Bool) :
    Describes host dchecks (Phase.start : Phase Pipeline Record) (World.start others) :=
  ⟨rfl,start_placed others,fun _ owned => by cases owned⟩

theorem found_latest {registered : List Pipeline} (placed : Placed registered w) {name : String} {method : Rule}
    {receiver : Nat} (found : w.sourceTransformRules pipeline name = some (.bindRepeating method receiver)) :
    pipeline ∈ registered ∧ name = ruleName method ∧ ∃ tooling, w.tooling_ = some tooling ∧
      (tooling.id = receiver ↔ registered.getLast? = some pipeline) := by
  obtain ⟨member,named⟩ := placed.only pipeline name method receiver found
  obtain ⟨last,newest⟩ := Option.isSome_iff_exists.mp (List.getLast?_isSome.mpr (List.ne_nil_of_mem member))
  obtain ⟨tooling,owned,exactly⟩ := placed.latest last newest
  have bound := placed_receiver placed found
  refine ⟨member,named,tooling,owned,?_⟩
  rw [newest,Option.some.injEq]
  constructor
  · rintro rfl
    exact ((exactly pipeline member).mp bound).symm
  · intro same
    have own := (exactly pipeline member).mpr same.symm method
    rw [bound method] at own
    cases own
    rfl

theorem unfound_elsewhere (describes : Describes host dchecks phase w) {name : String}
    (other : ¬ phase.Owns pipeline name) :
    ∀ method receiver, w.sourceTransformRules pipeline name ≠ some (.bindRepeating method receiver) := by
  intro method receiver found
  obtain ⟨member,named,_⟩ := found_latest describes.placed found
  exact other ⟨member,method,named⟩

theorem quiet_describes (describes : Describes host dchecks phase w) (quiet : Quiet w next)
    (kept : next.tooling_ = w.tooling_) {interpreter : Bool} (same : interpreter = next.clingInterpreter_.isSome) :
    Describes host dchecks {phase with interpreter := interpreter} next :=
  ⟨same,quiet_placed quiet describes.placed,by rw [kept]; exact describes.tooling⟩

theorem StringCommand_kept (buildType : String) (split_parts : List String) (w : World Pipeline Record) :
    (StringCommand buildType split_parts w).tooling_ = w.tooling_ ∧
      (StringCommand buildType split_parts w).clingInterpreter_ = w.clingInterpreter_ := by
  unfold StringCommand
  repeat' split
  all_goals exact ⟨rfl,rfl⟩

def interpreterAfter (clingInterpreter : Option Nat) : Action Pipeline Record → Option Nat
  | .handle (.registerClingInterpreter clingInterpreter) => clingInterpreter
  | _ => clingInterpreter

theorem act_members [DecidableEq Pipeline] {action : Action Pipeline Record}
    (accepted : act host dchecks buildType action w = .ok next) :
    next.clingInterpreter_ = interpreterAfter w.clingInterpreter_ action ∧
      next.constructed = w.constructed + action.registers.toList.length := by
  cases action with
  | runRule pipeline name options =>
    simp only [act,runRule] at accepted
    split at accepted
    · cases accepted
      exact ⟨rfl,rfl⟩
    · cases accepted
      exact ⟨rfl,rfl⟩
    · split at accepted
      · cases accepted
      · split at accepted
        · cases accepted
        · split at accepted
          · cases accepted
          · cases accepted
            exact ⟨rfl,rfl⟩
  | handle event =>
    cases event with
    | init argc =>
      cases accepted
      exact ⟨rfl,rfl⟩
    | stringCommand split_parts =>
      cases accepted
      simp only [StringCommand]
      repeat' split
      all_goals exact ⟨rfl,rfl⟩
    | registerClingInterpreter clingInterpreter =>
      simp only [act,handle,RegisterClingInterpreter] at accepted
      split at accepted
      · cases accepted
      · cases accepted
        exact ⟨rfl,rfl⟩
    | registerAnnotationMethods sourceTransformPipeline =>
      simp only [act,handle,RegisterAnnotationMethods] at accepted
      split at accepted
      · cases accepted
      · split at accepted
        · cases accepted
        · cases accepted
          exact ⟨rfl,rfl⟩

theorem runRule_served (recorded : Entries.RecordsDecl host) (describes : Describes host dchecks phase w)
    (latest : phase.registered.getLast? = some pipeline) (rule : Rule) (options : SourceTransformOptions Record) :
    (∃ next, runRule host dchecks pipeline (ruleName rule) options w = .ok next) ↔
      Sources.Next host dchecks phase.served ⟨rule,options⟩ := by
  obtain ⟨tooling,owned,exactly⟩ := describes.placed.latest pipeline latest
  have found := (exactly pipeline (List.mem_of_getLast? latest)).mpr rfl rule
  obtain ⟨rows,same,path⟩ := describes.tooling tooling owned
  rw [← same,← Sources.next_exact recorded path]
  unfold runRule
  simp only [found,owned,ne_eq,not_true_eq_false,if_false]
  cases invoke host dchecks ⟨rule,options⟩ tooling.state <;> simp

theorem served_describes (describes : Describes host dchecks phase w)
    (latest : phase.registered.getLast? = some pipeline) {rule : Rule} {options : SourceTransformOptions Record}
    (ran : runRule host dchecks pipeline (ruleName rule) options w = .ok next) :
    Describes host dchecks {phase with served := phase.served ++ [⟨rule,options⟩]} next := by
  have quiet := runRule_quiet ran
  obtain ⟨tooling,owned,exactly⟩ := describes.placed.latest pipeline latest
  have found := (exactly pipeline (List.mem_of_getLast? latest)).mpr rfl rule
  obtain ⟨rows,same,path⟩ := describes.tooling tooling owned
  simp only [runRule,found,owned,ne_eq,not_true_eq_false,if_false] at ran
  split at ran
  · cases ran
  · rename_i emission state completed
    cases ran
    refine ⟨describes.interpreter,quiet_placed quiet describes.placed,?_⟩
    intro held stays
    cases stays
    exact ⟨rows ++ [(⟨rule,options⟩,emission)],by simp [same],path.completed completed⟩

variable [DecidableEq Pipeline]

theorem step_acts (recorded : Entries.RecordsDecl host) (buildType : String) {action : Action Pipeline Record}
    (describes : Describes host dchecks phase w) (step : Step host dchecks phase action after) :
    ∃ next, act host dchecks buildType action w = .ok next ∧ Describes host dchecks after next := by
  cases step with
  | init argc => exact ⟨w,rfl,describes⟩
  | stringCommand split_parts =>
    obtain ⟨tooling,interpreter⟩ := StringCommand_kept buildType split_parts w
    have same : phase.interpreter = (StringCommand buildType split_parts w).clingInterpreter_.isSome := by
      rw [interpreter]
      exact describes.interpreter
    exact ⟨_,rfl,quiet_describes describes (StringCommand_quiet split_parts w) tooling same⟩
  | interpreter clingInterpreter =>
    have quiet : Quiet w {w with clingInterpreter_ := some clingInterpreter} := ⟨rfl,rfl⟩
    refine ⟨{w with clingInterpreter_ := some clingInterpreter},by simp [act,handle,RegisterClingInterpreter],?_⟩
    exact quiet_describes describes quiet rfl rfl
  | noInterpreter release =>
    have quiet : Quiet w {w with clingInterpreter_ := none} := ⟨rfl,rfl⟩
    refine ⟨{w with clingInterpreter_ := none},by simp [act,handle,RegisterClingInterpreter,release],?_⟩
    exact quiet_describes describes quiet rfl rfl
  | @register pipeline ready =>
    obtain ⟨interpreter,held⟩ := Option.isSome_iff_exists.mp (describes.interpreter ▸ ready)
    have accepted : ∃ next, RegisterAnnotationMethods dchecks (some pipeline) w = .ok next ∧
        next.clingInterpreter_ = w.clingInterpreter_ := by
      unfold RegisterAnnotationMethods
      rw [held]
      exact ⟨_,rfl,held⟩
    obtain ⟨next,accepted,kept⟩ := accepted
    obtain ⟨_,same,registers⟩ := RegisterAnnotationMethods_registered accepted
    cases same
    refine ⟨next,accepted,by rw [kept]; exact describes.interpreter,registered_placed registers describes.placed,?_⟩
    intro tooling owned
    rw [registers.tooling] at owned
    cases owned
    exact ⟨[],rfl,Completes.nil⟩
  | @elsewhere pipeline name options other =>
    have unfound := unfound_elsewhere describes other
    refine ⟨w,?_,describes⟩
    unfold act runRule
    dsimp only
    split
    · rfl
    · rfl
    · rename_i method receiver found
      exact absurd found (unfound method receiver)
  | @serve pipeline rule options latest served =>
    obtain ⟨next,ran⟩ := (runRule_served recorded describes latest rule options).mpr served
    exact ⟨next,ran,served_describes describes latest ran⟩

theorem acts_step (recorded : Entries.RecordsDecl host) {action : Action Pipeline Record}
    (describes : Describes host dchecks phase w) (accepted : act host dchecks buildType action w = .ok next) :
    ∃ after, Step host dchecks phase action after := by
  cases action with
  | handle event =>
    cases event with
    | init argc => exact ⟨phase,.init argc⟩
    | stringCommand split_parts => exact ⟨phase,.stringCommand split_parts⟩
    | registerClingInterpreter clingInterpreter =>
      cases clingInterpreter with
      | some clingInterpreter => exact ⟨_,.interpreter clingInterpreter⟩
      | none =>
        simp only [act,handle,RegisterClingInterpreter,and_true] at accepted
        split at accepted
        · cases accepted
        · rename_i release
          exact ⟨_,.noInterpreter (Bool.eq_false_iff.mpr release)⟩
    | registerAnnotationMethods sourceTransformPipeline =>
      simp only [act,handle,RegisterAnnotationMethods] at accepted
      split at accepted
      · cases accepted
      · rename_i interpreter held
        split at accepted
        · cases accepted
        · exact ⟨_,.register (by rw [describes.interpreter,held]; rfl)⟩
  | runRule pipeline name options =>
    by_cases owns : phase.Owns pipeline name
    · obtain ⟨member,rule,rfl⟩ := owns
      obtain ⟨receiver,bound⟩ := describes.placed.each pipeline member
      obtain ⟨_,_,tooling,owned,exactly⟩ := found_latest describes.placed (bound rule)
      have current : tooling.id = receiver := by
        apply Classical.byContradiction
        intro other
        simp [act,runRule,bound rule,owned,other] at accepted
      have latest := exactly.mp current
      exact ⟨_,.serve latest ((runRule_served recorded describes latest rule options).mp ⟨next,accepted⟩)⟩
    · exact ⟨phase,.elsewhere owns⟩

theorem phases_describe (recorded : Entries.RecordsDecl host) (buildType : String) :
    Machines.Bisimulation (Step host dchecks) (EventHandler.machine host dchecks buildType)
      (fun (phase : Phase Pipeline Record) w => Describes host dchecks phase w) := by
  constructor
  · intro phase w action after describes step
    exact step_acts recorded buildType describes step
  · intro phase w action next describes accepted
    obtain ⟨after,step⟩ := acts_step recorded describes accepted
    obtain ⟨same,again,kept⟩ := step_acts recorded buildType describes step
    rw [accepted] at again
    cases again
    exact ⟨after,step,kept⟩

-- The events and rule runs a process survives are those of the machine without
-- objects: an interpreter before each registration, rules run on the latest
-- pipeline only, and on it a well ordered source since the registration.
theorem lifetime_exact (host : Host Record) (dchecks : Bool) (buildType : String) (recorded : Entries.RecordsDecl host)
    (others : Pipeline → String → Bool) (actions : List (Action Pipeline Record)) :
    (∃ w, EventHandler.Runs host dchecks buildType (World.start others) actions w) ↔
      ∃ phase, Machines.Runs (Step host dchecks) Phase.start actions phase := by
  exact ((phases_describe recorded buildType).same_runs (start_describes others) actions).symm

theorem lifetime_exact_witness :
    ∃ phase, Machines.Runs (Step (plainHost fun _ => Entries.onlyBaz) true) Phase.start
      [.handle (.registerClingInterpreter (some 0)),.handle (.registerAnnotationMethods (some false)),
        .runRule false "reflect_for_pimpl" Entries.reflectorOf.options,
        .runRule false "inject_pimpl_storage" (Entries.storageOf []).options] phase := by
  have first : EventHandler.Runs _ true "local build" _ _ _ :=
    Machines.Runs.nil.step (rfl : act (plainHost fun _ => Entries.onlyBaz) true "local build"
      (.handle (.registerClingInterpreter (some 0))) (World.start fun (_ : Bool) _ => false) = .ok _)
  have second := first.step (rfl : act _ _ _ (.handle (.registerAnnotationMethods (some false))) _ = .ok _)
  have third := second.step (rfl : act _ _ _ (.runRule false "reflect_for_pimpl" Entries.reflectorOf.options) _ = .ok _)
  have fourth := third.step (rfl : act _ _ _ (.runRule false "inject_pimpl_storage" (Entries.storageOf []).options) _ =
    .ok _)
  exact (lifetime_exact (plainHost fun _ => Entries.onlyBaz) true "local build" (fun _ => rfl) (fun _ _ => false) _).mp
    ⟨_,fourth⟩

end FlexPimpl.Lifetime
