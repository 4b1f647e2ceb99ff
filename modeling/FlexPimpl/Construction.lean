import FlexPimpl.Lifetime

namespace FlexPimpl.Construction
open EventHandler
open Lifetime (interpreterAfter)

variable {Pipeline Record Disk : Type}

abbrev FilePath := String

inductive CompilationResult where
  | kSuccess | kFailure | kMoreInputExpected
deriving DecidableEq, Repr

structure SettingsCall where
  compilationResult : CompilationResult
  outDir : String
  hasValue : Bool
  isValid : Bool
  isVoid : Bool
deriving DecidableEq, Repr

-- The functions of Cling and base that the constructor calls. Those of base see
-- the disk as it is, and only the creation of a directory changes it. An
-- interpreter answers each call of its script alike.
structure Platform (Disk : Type) where
  callFunctionByName : Nat → SettingsCall
  Get : Option FilePath
  Append : FilePath → String → FilePath
  PathExists : Disk → FilePath → Bool
  CreateDirectoryAndGetError : Disk → FilePath → Bool × Disk
  MakeAbsoluteFilePath : Disk → FilePath → FilePath

section Constructor
variable (platform : Platform Disk) (dchecks : Bool)

-- The directory of the settings if they name one, else one beside the program.
def chosenDir (clingInterpreter : Nat) : FilePath :=
  let settings_ := platform.callFunctionByName clingInterpreter
  if settings_.outDir ≠ "" then settings_.outDir else platform.Append (platform.Get.getD "") "generated"

-- That the directory cannot be created is logged only.
def ensureDir (disk : Disk) (outDir_ : FilePath) : Disk :=
  if platform.PathExists disk outDir_ then disk else (platform.CreateDirectoryAndGetError disk outDir_).2

def pointerFault (pointer : String) : Fault := if dchecks then .dcheck pointer else .nullPointer pointer

def pimplTooling (clingInterpreter : Option Nat) (sourceTransformPipeline : Option Pipeline) (disk : Disk) :
    Except Fault (FilePath × Disk) :=
  match clingInterpreter with
  | none => .error (pointerFault dchecks "clingInterpreter_")
  | some clingInterpreter =>
    let call := platform.callFunctionByName clingInterpreter
    if dchecks ∧ call.compilationResult ≠ .kSuccess ∧ call.outDir ≠ "" then .error (.dcheck "settings_.outDir.empty()")
    else if dchecks ∧ call.hasValue ∧ ¬ (call.isValid ∧ call.isVoid) then
      .error (.dcheck "clingResult.hasValue() ? clingResult.isValid() && clingResult.isVoid() : true")
    else
      match sourceTransformPipeline with
      | none => .error (pointerFault dchecks "event.sourceTransformPipeline")
      | some _ =>
        if dchecks ∧ platform.Get = none then .error (.dcheck "NOTREACHED()")
        else if dchecks ∧ platform.Get = some "" then .error (.dcheck "!dir_exe_.empty()")
        else
          let made := ensureDir platform disk (chosenDir platform clingInterpreter)
          let outDir_ := platform.MakeAbsoluteFilePath made (chosenDir platform clingInterpreter)
          if dchecks ∧ outDir_ = "" then .error (.dcheck "!outDir_.empty()") else .ok (outDir_,made)

end Constructor

-- The handler with the directory of the object it owns, and the disk.
@[ext]
structure Process (Pipeline Record Disk : Type) where
  eventHandler_ : World Pipeline Record
  outDir_ : FilePath
  disk : Disk

section Machine
variable (platform : Platform Disk) (host : Host Record) (dchecks : Bool) (buildType : String) [DecidableEq Pipeline]

-- The object is constructed before the handler assigns it and binds its rules.
def register (sourceTransformPipeline : Option Pipeline) (process : Process Pipeline Record Disk) :
    Except Fault (Process Pipeline Record Disk) :=
  match pimplTooling platform dchecks process.eventHandler_.clingInterpreter_ sourceTransformPipeline process.disk with
  | .error fault => .error fault
  | .ok (outDir_,disk) =>
    match RegisterAnnotationMethods dchecks sourceTransformPipeline process.eventHandler_ with
    | .error fault => .error fault
    | .ok eventHandler_ => .ok ⟨eventHandler_,outDir_,disk⟩

def act (action : Action Pipeline Record) (process : Process Pipeline Record Disk) :
    Except Fault (Process Pipeline Record Disk) :=
  match action with
  | .handle (.registerAnnotationMethods sourceTransformPipeline) =>
    register platform dchecks sourceTransformPipeline process
  | action =>
    match EventHandler.act host dchecks buildType action process.eventHandler_ with
    | .error fault => .error fault
    | .ok eventHandler_ => .ok {process with eventHandler_ := eventHandler_}

def machine : Machines.Machine (Process Pipeline Record Disk) (Action Pipeline Record) :=
  fun process action next => act platform host dchecks buildType action process = .ok next

end Machine

-- Creating a directory takes no other away and moves none, and only a path that
-- exists can be made absolute.
structure Platform.Lawful (platform : Platform Disk) : Prop where
  kept : ∀ disk dir other, platform.PathExists disk other = true →
    platform.PathExists (platform.CreateDirectoryAndGetError disk dir).2 other = true ∧
      platform.MakeAbsoluteFilePath (platform.CreateDirectoryAndGetError disk dir).2 other =
        platform.MakeAbsoluteFilePath disk other
  absolute : ∀ disk dir, platform.MakeAbsoluteFilePath disk dir ≠ "" → platform.PathExists disk dir = true

-- What the checks of a debug build ask of the settings, and of the program's place.
structure Answers (platform : Platform Disk) (dchecks : Bool) (clingInterpreter : Nat) : Prop where
  defaults : dchecks = true → (platform.callFunctionByName clingInterpreter).compilationResult ≠ .kSuccess →
    (platform.callFunctionByName clingInterpreter).outDir = ""
  returns : dchecks = true → (platform.callFunctionByName clingInterpreter).hasValue = true →
    (platform.callFunctionByName clingInterpreter).isValid = true ∧
      (platform.callFunctionByName clingInterpreter).isVoid = true

structure SettingsAccepted (platform : Platform Disk) (dchecks : Bool) (clingInterpreter : Nat) : Prop
    extends Answers platform dchecks clingInterpreter where
  located : dchecks = true → platform.Get ≠ none ∧ platform.Get ≠ some ""

def construction (platform : Platform Disk) (dchecks : Bool) : Machines.Machine (FilePath × Disk) Nat :=
  fun place clingInterpreter next =>
    SettingsAccepted platform dchecks clingInterpreter ∧
      next.2 = ensureDir platform place.2 (chosenDir platform clingInterpreter) ∧
      next.1 = platform.MakeAbsoluteFilePath next.2 (chosenDir platform clingInterpreter) ∧ (dchecks = true → next.1 ≠ "")

def constructedBy : Option Nat → Action Pipeline Record → List Nat
  | some clingInterpreter,.handle (.registerAnnotationMethods _) => [clingInterpreter]
  | _,_ => []

variable {platform : Platform Disk} {host : Host Record} {dchecks : Bool} {buildType : String}
  {sourceTransformPipeline : Option Pipeline} {disk made : Disk} {outDir_ : FilePath}

section Checks
variable {α : Type} {condition : Prop} [Decidable condition] {failure fault : Fault} {rest : Except Fault α} {result : α}

theorem checked_ok : (if condition then .error failure else rest) = .ok result ↔ ¬ condition ∧ rest = .ok result := by
  split <;> simp_all

theorem checked_error : (if condition then .error failure else rest) = .error fault ↔
    (condition ∧ failure = fault) ∨ (¬ condition ∧ rest = .error fault) := by
  split <;> simp_all

end Checks

theorem answers_exact {own : Nat} : Answers platform dchecks own ↔
    ¬ (dchecks = true ∧ (platform.callFunctionByName own).compilationResult ≠ .kSuccess ∧
        (platform.callFunctionByName own).outDir ≠ "") ∧
      ¬ (dchecks = true ∧ (platform.callFunctionByName own).hasValue = true ∧
        ¬ ((platform.callFunctionByName own).isValid = true ∧ (platform.callFunctionByName own).isVoid = true)) := by
  constructor
  · intro answers
    exact ⟨fun failed => failed.2.2 (answers.defaults failed.1 failed.2.1),
      fun failed => failed.2.2 (answers.returns failed.1 failed.2.1)⟩
  · intro checks
    exact ⟨fun debug failed => Classical.not_not.mp fun named => checks.1 ⟨debug,failed,named⟩,
      fun debug valued => Classical.not_not.mp fun other => checks.2 ⟨debug,valued,other⟩⟩

theorem accepted_exact {own : Nat} : SettingsAccepted platform dchecks own ↔
    Answers platform dchecks own ∧ ¬ (dchecks = true ∧ platform.Get = none) ∧
      ¬ (dchecks = true ∧ platform.Get = some "") := by
  constructor
  · intro accepted
    exact ⟨accepted.toAnswers,fun failed => (accepted.located failed.1).1 failed.2,
      fun failed => (accepted.located failed.1).2 failed.2⟩
  · intro checks
    exact ⟨checks.1,fun debug => ⟨fun unknown => checks.2.1 ⟨debug,unknown⟩,fun empty => checks.2.2 ⟨debug,empty⟩⟩⟩

theorem constructed_exact (before : FilePath) {clingInterpreter : Option Nat} :
    pimplTooling platform dchecks clingInterpreter sourceTransformPipeline disk = .ok (outDir_,made) ↔
      ∃ own pipeline, clingInterpreter = some own ∧ sourceTransformPipeline = some pipeline ∧
        construction platform dchecks (before,disk) own (outDir_,made) := by
  cases clingInterpreter with
  | none => simp [pimplTooling]
  | some own =>
    cases sourceTransformPipeline with
    | none => simp [pimplTooling,checked_ok]
    | some pipeline =>
      simp only [pimplTooling,checked_ok,construction,accepted_exact,answers_exact,Except.ok.injEq,Prod.mk.injEq,
        Option.some.injEq]
      constructor
      · rintro ⟨defaults,returns,reached,located,found,rfl,rfl⟩
        exact ⟨own,pipeline,rfl,rfl,⟨⟨defaults,returns⟩,reached,located⟩,rfl,rfl,fun debug empty => found ⟨debug,empty⟩⟩
      · rintro ⟨_,_,rfl,rfl,⟨⟨defaults,returns⟩,reached,located⟩,rfl,rfl,found⟩
        exact ⟨defaults,returns,reached,located,fun failed => found failed.1 failed.2,rfl,rfl⟩

-- How the constructor ends the process: the first check that does not hold.
inductive Refuses (platform : Platform Disk) (dchecks : Bool) (disk : Disk) :
    Option Nat → Option Pipeline → Fault → Prop where
  | noInterpreter (sourceTransformPipeline : Option Pipeline) :
      Refuses platform dchecks disk none sourceTransformPipeline (pointerFault dchecks "clingInterpreter_")
  | settings {own : Nat} (debug : dchecks = true)
      (failed : (platform.callFunctionByName own).compilationResult ≠ .kSuccess)
      (named : (platform.callFunctionByName own).outDir ≠ "") (sourceTransformPipeline : Option Pipeline) :
      Refuses platform dchecks disk (some own) sourceTransformPipeline (.dcheck "settings_.outDir.empty()")
  | result {own : Nat} (debug : dchecks = true)
      (earlier : (platform.callFunctionByName own).compilationResult = .kSuccess ∨
        (platform.callFunctionByName own).outDir = "")
      (valued : (platform.callFunctionByName own).hasValue = true)
      (other : ¬ ((platform.callFunctionByName own).isValid = true ∧ (platform.callFunctionByName own).isVoid = true))
      (sourceTransformPipeline : Option Pipeline) :
      Refuses platform dchecks disk (some own) sourceTransformPipeline
        (.dcheck "clingResult.hasValue() ? clingResult.isValid() && clingResult.isVoid() : true")
  | noPipeline {own : Nat} (earlier : Answers platform dchecks own) :
      Refuses platform dchecks disk (some own) none (pointerFault dchecks "event.sourceTransformPipeline")
  | unknown {own : Nat} (debug : dchecks = true) (earlier : Answers platform dchecks own) (missing : platform.Get = none)
      (pipeline : Pipeline) : Refuses platform dchecks disk (some own) (some pipeline) (.dcheck "NOTREACHED()")
  | nowhere {own : Nat} (debug : dchecks = true) (earlier : Answers platform dchecks own) (empty : platform.Get = some "")
      (pipeline : Pipeline) : Refuses platform dchecks disk (some own) (some pipeline) (.dcheck "!dir_exe_.empty()")
  | unresolved {own : Nat} (debug : dchecks = true) (earlier : SettingsAccepted platform dchecks own)
      (empty : platform.MakeAbsoluteFilePath (ensureDir platform disk (chosenDir platform own)) (chosenDir platform own) = "")
      (pipeline : Pipeline) : Refuses platform dchecks disk (some own) (some pipeline) (.dcheck "!outDir_.empty()")

theorem refused_exact {clingInterpreter : Option Nat} {fault : Fault} :
    pimplTooling platform dchecks clingInterpreter sourceTransformPipeline disk = .error fault ↔
      Refuses platform dchecks disk clingInterpreter sourceTransformPipeline fault := by
  constructor
  · intro ran
    cases clingInterpreter with
    | none =>
      cases ran
      exact .noInterpreter sourceTransformPipeline
    | some own =>
      simp only [pimplTooling,checked_error] at ran
      rcases ran with ⟨⟨debug,failed,named⟩,rfl⟩ | ⟨defaults,⟨⟨debug,valued,other⟩,rfl⟩ | ⟨returns,ran⟩⟩
      · exact .settings debug failed named sourceTransformPipeline
      · refine .result debug ?_ valued other sourceTransformPipeline
        simpa [debug,or_iff_not_imp_left] using defaults
      · have answers := answers_exact.mpr ⟨defaults,returns⟩
        cases sourceTransformPipeline with
        | none =>
          cases ran
          exact .noPipeline answers
        | some pipeline =>
          simp only [checked_error] at ran
          rcases ran with ⟨⟨debug,missing⟩,rfl⟩ | ⟨reached,⟨⟨debug,empty⟩,rfl⟩ | ⟨located,⟨⟨debug,empty⟩,rfl⟩ | ⟨_,ran⟩⟩⟩
          · exact .unknown debug answers missing pipeline
          · exact .nowhere debug answers empty pipeline
          · exact .unresolved debug (accepted_exact.mpr ⟨answers,reached,located⟩) empty pipeline
          · cases ran
  · intro refuses
    cases refuses with
    | noInterpreter => rfl
    | settings debug failed named => simp [pimplTooling,debug,failed,named]
    | result debug earlier valued other =>
      simp only [pimplTooling]
      rw [if_neg,if_pos ⟨debug,valued,other⟩]
      rintro ⟨_,failed,named⟩
      exact earlier.elim failed named
    | noPipeline earlier =>
      obtain ⟨defaults,returns⟩ := answers_exact.mp earlier
      simp only [pimplTooling]
      rw [if_neg defaults,if_neg returns]
    | unknown debug earlier missing pipeline =>
      obtain ⟨defaults,returns⟩ := answers_exact.mp earlier
      simp only [pimplTooling]
      rw [if_neg defaults,if_neg returns,if_pos ⟨debug,missing⟩]
    | nowhere debug earlier empty pipeline =>
      obtain ⟨defaults,returns⟩ := answers_exact.mp earlier
      have reached : ¬ (dchecks = true ∧ platform.Get = none) := by simp [empty]
      simp only [pimplTooling]
      rw [if_neg defaults,if_neg returns,if_neg reached,if_pos ⟨debug,empty⟩]
    | unresolved debug earlier empty pipeline =>
      obtain ⟨answers,reached,located⟩ := accepted_exact.mp earlier
      obtain ⟨defaults,returns⟩ := answers_exact.mp answers
      simp only [pimplTooling]
      rw [if_neg defaults,if_neg returns,if_neg reached,if_neg located,if_pos ⟨debug,empty⟩]

section Registrations
variable [DecidableEq Pipeline] {action : Action Pipeline Record} {actions : List (Action Pipeline Record)}
  {process next : Process Pipeline Record Disk}

theorem RegisterAnnotationMethods_ready (dchecks : Bool) (pipeline : Pipeline) {clingInterpreter : Nat}
    {w : World Pipeline Record} (ready : w.clingInterpreter_ = some clingInterpreter) :
    ∃ after, RegisterAnnotationMethods dchecks (some pipeline) w = .ok after := by
  unfold RegisterAnnotationMethods
  rw [ready]
  exact ⟨_,rfl⟩

theorem registers_ready {w after : World Pipeline Record}
    (handled : RegisterAnnotationMethods dchecks sourceTransformPipeline w = .ok after) :
    ∃ own, w.clingInterpreter_ = some own := by
  unfold RegisterAnnotationMethods at handled
  split at handled
  · cases handled
  · rename_i own ready
    exact ⟨own,ready⟩

theorem register_exact : register platform dchecks sourceTransformPipeline process = .ok next ↔
    pimplTooling platform dchecks process.eventHandler_.clingInterpreter_ sourceTransformPipeline process.disk =
        .ok (next.outDir_,next.disk) ∧
      RegisterAnnotationMethods dchecks sourceTransformPipeline process.eventHandler_ = .ok next.eventHandler_ := by
  obtain ⟨eventHandler_,outDir_,disk⟩ := next
  unfold register
  constructor
  · intro accepted
    split at accepted
    · cases accepted
    · rename_i constructed
      split at accepted
      · cases accepted
      · rename_i registered
        cases accepted
        exact ⟨constructed,registered⟩
  · intro both
    rw [both.1,both.2]

theorem quiet_parts
    (delegated : act platform host dchecks buildType action process =
      match EventHandler.act host dchecks buildType action process.eventHandler_ with
      | .error fault => .error fault
      | .ok eventHandler_ => .ok {process with eventHandler_ := eventHandler_}) :
    act platform host dchecks buildType action process = .ok next ↔
      EventHandler.act host dchecks buildType action process.eventHandler_ = .ok next.eventHandler_ ∧
        (next.outDir_,next.disk) = (process.outDir_,process.disk) := by
  obtain ⟨eventHandler_,outDir_,disk⟩ := next
  rw [delegated]
  constructor
  · intro accepted
    split at accepted
    · cases accepted
    · rename_i handled
      cases accepted
      exact ⟨handled,rfl⟩
  · intro parts
    obtain ⟨handled,same⟩ := parts
    cases same
    rw [handled]

theorem act_parts : act platform host dchecks buildType action process = .ok next ↔
    EventHandler.act host dchecks buildType action process.eventHandler_ = .ok next.eventHandler_ ∧
      Machines.Runs (construction platform dchecks) (process.outDir_,process.disk)
        (constructedBy process.eventHandler_.clingInterpreter_ action) (next.outDir_,next.disk) := by
  cases action with
  | runRule pipeline name options =>
    rw [quiet_parts rfl]
    simp [constructedBy]
  | handle event =>
    cases event with
    | init argc | stringCommand split_parts | registerClingInterpreter clingInterpreter =>
      rw [quiet_parts rfl]
      simp [constructedBy]
    | registerAnnotationMethods sourceTransformPipeline =>
      have exactly : act platform host dchecks buildType (.handle (.registerAnnotationMethods sourceTransformPipeline))
          process = .ok next ↔ _ := register_exact
      rw [exactly,constructed_exact process.outDir_,and_comm]
      refine and_congr_right fun handled => ?_
      obtain ⟨pipeline,rfl,_⟩ := RegisterAnnotationMethods_registered handled
      obtain ⟨own,ready⟩ := registers_ready handled
      rw [ready]
      simp [constructedBy,Machines.runs_single]

-- The directory of an interpreter's settings is there, and this is its absolute path.
def Settled (platform : Platform Disk) (clingInterpreter : Nat) (outDir_ : FilePath) (disk : Disk) : Prop :=
  platform.PathExists disk (chosenDir platform clingInterpreter) = true ∧
    platform.MakeAbsoluteFilePath disk (chosenDir platform clingInterpreter) = outDir_

theorem construction_settled (lawful : platform.Lawful) {clingInterpreter own : Nat} {place next : FilePath × Disk}
    (settled : Settled platform clingInterpreter outDir_ place.2) (constructed : construction platform dchecks place own next) :
    Settled platform clingInterpreter outDir_ next.2 := by
  rw [constructed.2.1]
  unfold ensureDir
  split
  · exact settled
  · obtain ⟨stays,same⟩ := lawful.kept place.2 (chosenDir platform own) _ settled.1
    exact ⟨stays,same.trans settled.2⟩

theorem constructions_settled (lawful : platform.Lawful) {clingInterpreter : Nat} {place next : FilePath × Disk}
    {interpreters : List Nat} (settled : Settled platform clingInterpreter outDir_ place.2)
    (path : Machines.Runs (construction platform dchecks) place interpreters next) :
    Settled platform clingInterpreter outDir_ next.2 := by
  induction path with
  | nil => exact settled
  | step prior constructed ih => exact construction_settled lawful ih constructed

theorem runs_settled (lawful : platform.Lawful) {clingInterpreter : Nat}
    (settled : Settled platform clingInterpreter outDir_ process.disk)
    (path : Machines.Runs (machine platform host dchecks buildType) process actions next) :
    Settled platform clingInterpreter outDir_ next.disk := by
  induction path with
  | nil => exact settled
  | step prior accepted ih => exact constructions_settled lawful ih (act_parts.mp accepted).2

-- Once a registration has found its directory, each later one with the same
-- interpreter succeeds, finds the same and leaves the disk alone.
theorem registrations_settle {host : Host Record} {buildType : String} {first : Process Pipeline Record Disk}
    {clingInterpreter : Nat} {pipeline : Pipeline} (lawful : platform.Lawful)
    (ready : first.eventHandler_.clingInterpreter_ = some clingInterpreter)
    (registered : act platform host dchecks buildType (.handle (.registerAnnotationMethods (some pipeline))) first =
      .ok process)
    (found : process.outDir_ ≠ "") (path : Machines.Runs (machine platform host dchecks buildType) process actions next)
    (held : next.eventHandler_.clingInterpreter_ = some clingInterpreter) (other : Pipeline) :
    ∃ after, act platform host dchecks buildType (.handle (.registerAnnotationMethods (some other))) next = .ok after ∧
      after.disk = next.disk ∧ after.outDir_ = process.outDir_ := by
  obtain ⟨constructed,_⟩ := register_exact.mp registered
  rw [ready] at constructed
  obtain ⟨own,_,same,_,accepted,_,absolute,_⟩ := (constructed_exact first.outDir_).mp constructed
  cases same
  have settled : Settled platform clingInterpreter process.outDir_ process.disk :=
    ⟨lawful.absolute _ _ (absolute ▸ found),absolute.symm⟩
  have later := runs_settled lawful settled path
  have kept : next.disk = ensureDir platform next.disk (chosenDir platform clingInterpreter) :=
    (if_pos later.1).symm
  have again : pimplTooling platform dchecks next.eventHandler_.clingInterpreter_ (some other) next.disk =
      .ok (process.outDir_,next.disk) :=
    (constructed_exact next.outDir_).mpr ⟨clingInterpreter,other,held,rfl,accepted,kept,later.2.symm,fun _ => found⟩
  obtain ⟨eventHandler_,handled⟩ := RegisterAnnotationMethods_ready dchecks other held
  exact ⟨⟨eventHandler_,process.outDir_,next.disk⟩,register_exact.mpr ⟨again,handled⟩,rfl,rfl⟩

def plainPlatform : Platform (List FilePath) where
  callFunctionByName := fun _ => ⟨.kSuccess,"out",true,true,true⟩
  Get := some "bin"
  Append := fun dir name => dir ++ "/" ++ name
  PathExists := fun disk dir => disk.contains dir
  CreateDirectoryAndGetError := fun disk dir => (true,dir :: disk)
  MakeAbsoluteFilePath := fun disk dir => if disk.contains dir then "/" ++ dir else ""

theorem plainPlatform_lawful : plainPlatform.Lawful := by
  constructor
  · intro disk dir other there
    have stays : (dir :: disk).contains other = true := by
      rw [List.contains_cons,Bool.or_eq_true]
      exact Or.inr there
    exact ⟨stays,(if_pos stays).trans (if_pos there).symm⟩
  · intro disk dir found
    apply Classical.byContradiction
    intro absent
    exact found (if_neg absent)

def plainProcess : Process Bool Unit (List FilePath) :=
  ⟨{World.start fun _ _ => false with clingInterpreter_ := some 0},"",["bin"]⟩

theorem registrations_settle_witness :
    ∃ next after, Machines.Runs (machine plainPlatform anyHost true "local build") plainProcess
        [registration false,registration true] next ∧
      act plainPlatform anyHost true "local build" (registration false) next = .ok after ∧
        after.disk = next.disk ∧ after.outDir_ = "/out" := by
  have first : act plainPlatform anyHost true "local build" (registration false) plainProcess = .ok _ := rfl
  have opened : Machines.Runs (machine plainPlatform anyHost true "local build") plainProcess [registration false] _ :=
    Machines.Runs.nil.step first
  have path := opened.step (rfl : act _ _ _ _ (registration true) _ = .ok _)
  obtain ⟨after,again,disk,same⟩ := registrations_settle plainPlatform_lawful (rfl : _ = some 0) first (by decide)
    (Machines.Runs.nil.step (rfl : act plainPlatform anyHost true "local build" (registration true) _ = .ok _)) rfl false
  exact ⟨_,after,path,again,disk,same⟩

end Registrations

section Constructions
variable {clingInterpreter : Option Nat} {earlier : List (Action Pipeline Record)} {action : Action Pipeline Record}

def constructedWith : Option Nat → List (Action Pipeline Record) → List Nat
  | _,[] => []
  | clingInterpreter,action :: rest =>
    constructedBy clingInterpreter action ++ constructedWith (interpreterAfter clingInterpreter action) rest

theorem constructedWith_snoc : constructedWith clingInterpreter (earlier ++ [action]) =
    constructedWith clingInterpreter earlier ++ constructedBy (earlier.foldl interpreterAfter clingInterpreter) action := by
  induction earlier generalizing clingInterpreter with
  | nil => simp [constructedWith]
  | cons first rest ih => simp [constructedWith,ih]

variable [DecidableEq Pipeline]

theorem runs_interpreter {start w : World Pipeline Record} {actions : List (Action Pipeline Record)}
    (path : EventHandler.Runs host dchecks buildType start actions w) :
    w.clingInterpreter_ = actions.foldl interpreterAfter start.clingInterpreter_ := by
  induction path with
  | nil => rfl
  | step prior accepted ih =>
    rw [List.foldl_append,List.foldl_cons,List.foldl_nil,← ih]
    exact (Lifetime.act_members accepted).1

-- The handler and the constructions run side by side: only the interpreters of
-- its registrations pass between them.
theorem constructions_exact (platform : Platform Disk) (host : Host Record) (dchecks : Bool) (buildType : String)
    (start next : Process Pipeline Record Disk) (actions : List (Action Pipeline Record)) :
    Machines.Runs (machine platform host dchecks buildType) start actions next ↔
      EventHandler.Runs host dchecks buildType start.eventHandler_ actions next.eventHandler_ ∧
        Machines.Runs (construction platform dchecks) (start.outDir_,start.disk)
          (constructedWith start.eventHandler_.clingInterpreter_ actions) (next.outDir_,next.disk) := by
  induction actions using List.reverseRecOn generalizing next with
  | nil =>
    obtain ⟨eventHandler_,outDir_,disk⟩ := next
    simp [constructedWith,Process.ext_iff]
  | append_singleton earlier action ih =>
    rw [Machines.runs_snoc,EventHandler.Runs,Machines.runs_snoc,constructedWith_snoc,Machines.runs_append]
    constructor
    · intro steps
      obtain ⟨middle,prior,accepted⟩ := steps
      obtain ⟨handled,before⟩ := (ih middle).mp prior
      obtain ⟨acted,after⟩ := act_parts.mp accepted
      rw [runs_interpreter handled] at after
      exact ⟨⟨middle.eventHandler_,handled,acted⟩,⟨_,before,after⟩⟩
    · intro parts
      obtain ⟨⟨middle,handled,acted⟩,⟨⟨placed,made⟩,before,after⟩⟩ := parts
      rw [← runs_interpreter handled] at after
      exact ⟨⟨middle,placed,made⟩,(ih ⟨middle,placed,made⟩).mpr ⟨handled,before⟩,act_parts.mpr ⟨acted,after⟩⟩

end Constructions

end FlexPimpl.Construction
