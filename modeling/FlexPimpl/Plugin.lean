import FlexPimpl.Lifetime

namespace Signals

-- A hub calls the listeners connected for the kind of an event. In which order
-- is its own affair.
structure Dispatcher (Hub Kind Listener : Type) where
  listeners : Hub → Kind → List Listener
  connect : Kind → Listener → Hub → Hub
  disconnect : Kind → Listener → Hub → Hub

section Listeners
variable {Hub Kind Listener : Type} [DecidableEq Kind] [DecidableEq Listener]
  {dispatcher : Dispatcher Hub Kind Listener}

-- An operation on one listener for one kind that leaves it connected so often,
-- and everything else as it was.
def Dispatcher.Sets (dispatcher : Dispatcher Hub Kind Listener) (operation : Kind → Listener → Hub → Hub)
    (result : Nat) : Prop :=
  ∀ hub kind listener other own, (dispatcher.listeners (operation kind listener hub) other).count own =
    if other = kind ∧ own = listener then result else (dispatcher.listeners hub other).count own

-- Connecting twice is connecting once.
structure Dispatcher.Lawful (dispatcher : Dispatcher Hub Kind Listener) : Prop where
  connect : dispatcher.Sets dispatcher.connect 1
  disconnect : dispatcher.Sets dispatcher.disconnect 0

def operateAll (operation : Kind → Listener → Hub → Hub) (sinks : List (Kind × Listener)) (hub : Hub) : Hub :=
  sinks.foldl (fun hub sink => operation sink.1 sink.2 hub) hub

theorem operateAll_count {operation : Kind → Listener → Hub → Hub} {result : Nat} (sets : dispatcher.Sets operation result)
    (sinks : List (Kind × Listener)) (hub : Hub) (kind : Kind) (listener : Listener) :
    (dispatcher.listeners (operateAll operation sinks hub) kind).count listener =
      if (kind,listener) ∈ sinks then result else (dispatcher.listeners hub kind).count listener := by
  induction sinks using List.reverseRecOn with
  | nil => rfl
  | append_singleton earlier sink ih =>
    have last : operateAll operation (earlier ++ [sink]) hub =
        operation sink.1 sink.2 (operateAll operation earlier hub) := by
      simp [operateAll]
    rw [last,sets,ih]
    by_cases same : (kind,listener) = sink
    · subst same
      simp
    · have other : ¬ (kind = sink.1 ∧ listener = sink.2) := fun both => same (Prod.ext both.1 both.2)
      simp [same,other]

end Listeners

section Calls
variable {Listener State Error : Type} {call : Listener → State → Except Error State} {own : Listener}

def publish (call : Listener → State → Except Error State) : List Listener → State → Except Error State
  | [],s => .ok s
  | listener :: rest,s =>
    match call listener s with
    | .error failure => .error failure
    | .ok next => publish call rest next

variable [DecidableEq Listener]

theorem publish_absent (others : ∀ listener, listener ≠ own → ∀ s, call listener s = .ok s) {listeners : List Listener}
    (absent : listeners.count own = 0) (s : State) : publish call listeners s = .ok s := by
  induction listeners with
  | nil => rfl
  | cons listener rest ih =>
    have different : listener ≠ own := by
      rintro rfl
      simp at absent
    rw [publish,others listener different]
    exact ih (by simpa [List.count_cons,different] using absent)

-- If all but one of the listeners do nothing, how often that one is connected
-- is all that matters.
theorem publish_once (others : ∀ listener, listener ≠ own → ∀ s, call listener s = .ok s) {listeners : List Listener}
    (once : listeners.count own = 1) (s : State) : publish call listeners s = call own s := by
  induction listeners with
  | nil => simp at once
  | cons listener rest ih =>
    rw [publish]
    by_cases same : listener = own
    · subst same
      have rest : rest.count listener = 0 := by simpa using once
      cases call listener s with
      | error failure => rfl
      | ok next => exact publish_absent others rest next
    · rw [others listener same]
      exact ih (by simpa [List.count_cons,same] using once)

end Calls
end Signals

namespace FlexPimpl.Plugin
open Tooling EventHandler

variable {Hub Foreign Pipeline Record : Type}

inductive Kind where
  | init | stringCommand | registerAnnotationMethods | registerClingInterpreter
deriving DecidableEq, Repr

def kind : Event Pipeline → Kind
  | .init _ => .init
  | .stringCommand _ => .stringCommand
  | .registerAnnotationMethods _ => .registerAnnotationMethods
  | .registerClingInterpreter _ => .registerClingInterpreter

-- A method of this plugin's eventHandler_, or what other plugins connect.
inductive Listener (Foreign : Type) where
  | handler (method : Kind)
  | foreign (listener : Foreign)
deriving DecidableEq, Repr

structure Tool (Hub Pipeline Record : Type) where
  event_dispatcher : Hub
  eventHandler_ : World Pipeline Record

inductive Action (Foreign Pipeline Record : Type) where
  | connect_to_dispatcher
  | disconnect_dispatcher
  | connect (kind : Kind) (listener : Foreign)
  | disconnect (kind : Kind) (listener : Foreign)
  | trigger (event : Event Pipeline)
  | runRule (pipeline : Pipeline) (name : String) (options : SourceTransformOptions Record)

section Plugin
variable (dispatcher : Signals.Dispatcher Hub Kind (Listener Foreign)) (clingIsOn : Bool)

def connect_to_dispatcher (event_dispatcher : Hub) : Hub :=
  let event_dispatcher := dispatcher.connect .init (.handler .init) event_dispatcher
  let event_dispatcher := dispatcher.connect .stringCommand (.handler .stringCommand) event_dispatcher
  let event_dispatcher :=
    dispatcher.connect .registerAnnotationMethods (.handler .registerAnnotationMethods) event_dispatcher
  if clingIsOn then dispatcher.connect .registerClingInterpreter (.handler .registerClingInterpreter) event_dispatcher
  else event_dispatcher

def disconnect_dispatcher (event_dispatcher : Hub) : Hub :=
  let event_dispatcher := dispatcher.disconnect .init (.handler .init) event_dispatcher
  let event_dispatcher := dispatcher.disconnect .stringCommand (.handler .stringCommand) event_dispatcher
  let event_dispatcher :=
    dispatcher.disconnect .registerAnnotationMethods (.handler .registerAnnotationMethods) event_dispatcher
  if clingIsOn then dispatcher.disconnect .registerClingInterpreter (.handler .registerClingInterpreter) event_dispatcher
  else event_dispatcher

variable (host : Host Record) (dchecks : Bool) (buildType : String) [DecidableEq Pipeline]

-- A listener is only ever connected for events of the type its method takes.
def call (event : Event Pipeline) (listener : Listener Foreign) (w : World Pipeline Record) :
    Except Fault (World Pipeline Record) :=
  match listener with
  | .foreign _ => .ok w
  | .handler method => if method = kind event then handle dchecks buildType event w else .ok w

def act (action : Action Foreign Pipeline Record) (tool : Tool Hub Pipeline Record) :
    Except Fault (Tool Hub Pipeline Record) :=
  match action with
  | .connect_to_dispatcher => .ok {tool with event_dispatcher := connect_to_dispatcher dispatcher clingIsOn tool.event_dispatcher}
  | .disconnect_dispatcher => .ok {tool with event_dispatcher := disconnect_dispatcher dispatcher clingIsOn tool.event_dispatcher}
  | .connect kind listener =>
    .ok {tool with event_dispatcher := dispatcher.connect kind (.foreign listener) tool.event_dispatcher}
  | .disconnect kind listener =>
    .ok {tool with event_dispatcher := dispatcher.disconnect kind (.foreign listener) tool.event_dispatcher}
  | .trigger event =>
    match Signals.publish (call dchecks buildType event) (dispatcher.listeners tool.event_dispatcher (kind event))
        tool.eventHandler_ with
    | .error fault => .error fault
    | .ok w => .ok {tool with eventHandler_ := w}
  | .runRule pipeline name options =>
    match EventHandler.runRule host dchecks pipeline name options tool.eventHandler_ with
    | .error fault => .error fault
    | .ok w => .ok {tool with eventHandler_ := w}

abbrev machine : Machines.Machine (Tool Hub Pipeline Record) (Action Foreign Pipeline Record) := fun tool action next =>
  act dispatcher clingIsOn host dchecks buildType action tool = .ok next

end Plugin

section Delivery
variable (clingIsOn : Bool)

def listens : Kind → Bool
  | .init | .stringCommand | .registerAnnotationMethods => true
  | .registerClingInterpreter => clingIsOn

def Action.connects (connected : Bool) : Action Foreign Pipeline Record → Bool
  | .connect_to_dispatcher => true
  | .disconnect_dispatcher => false
  | _ => connected

def isConnected (actions : List (Action Foreign Pipeline Record)) : Bool :=
  actions.foldl (fun connected action => action.connects connected) false

def heard (connected : Bool) : Action Foreign Pipeline Record → Option (EventHandler.Action Pipeline Record)
  | .trigger event => if connected && listens clingIsOn (kind event) then some (.handle event) else none
  | .runRule pipeline name options => some (.runRule pipeline name options)
  | _ => none

-- What a history comes to for the handler: the events triggered while it was
-- connected, each once and in their order, and the rules run in between.
def delivered : Bool → List (Action Foreign Pipeline Record) → List (EventHandler.Action Pipeline Record)
  | _,[] => []
  | connected,action :: rest => (heard clingIsOn connected action).toList ++ delivered (action.connects connected) rest

theorem delivered_append (connected : Bool) (earlier later : List (Action Foreign Pipeline Record)) :
    delivered clingIsOn connected (earlier ++ later) = delivered clingIsOn connected earlier ++
      delivered clingIsOn (earlier.foldl (fun connected action => action.connects connected) connected) later := by
  induction earlier generalizing connected with
  | nil => rfl
  | cons action rest ih => simp [delivered,ih]

theorem delivered_snoc (earlier : List (Action Foreign Pipeline Record)) (action : Action Foreign Pipeline Record) :
    delivered clingIsOn false (earlier ++ [action]) =
      delivered clingIsOn false earlier ++ (heard clingIsOn (isConnected earlier) action).toList := by
  rw [delivered_append]
  simp [delivered,isConnected]

theorem isConnected_snoc (actions : List (Action Foreign Pipeline Record)) (action : Action Foreign Pipeline Record) :
    isConnected (actions ++ [action]) = action.connects (isConnected actions) := by
  simp [isConnected]

def Action.isForeign : Action Foreign Pipeline Record → Bool
  | .connect _ _ | .disconnect _ _ => true
  | _ => false

theorem foreign_isConnected (actions : List (Action Foreign Pipeline Record)) :
    isConnected (actions.filter Action.isForeign) = false := by
  induction actions using List.reverseRecOn with
  | nil => rfl
  | append_singleton earlier action ih =>
    rw [List.filter_append]
    cases action with
    | connect kind listener | disconnect kind listener =>
      rw [List.filter_cons_of_pos rfl,List.filter_nil,isConnected_snoc]
      exact ih
    | connect_to_dispatcher | disconnect_dispatcher | trigger event | runRule pipeline name options =>
      rw [List.filter_cons_of_neg Bool.false_ne_true,List.filter_nil,List.append_nil]
      exact ih

end Delivery

section Sinks
variable {dispatcher : Signals.Dispatcher Hub Kind (Listener Foreign)} {clingIsOn : Bool}

def sinks (clingIsOn : Bool) : List (Kind × Listener Foreign) :=
  [(.init,.handler .init),(.stringCommand,.handler .stringCommand),
    (.registerAnnotationMethods,.handler .registerAnnotationMethods)] ++
    if clingIsOn then [(.registerClingInterpreter,.handler .registerClingInterpreter)] else []

theorem connect_sinks (event_dispatcher : Hub) : connect_to_dispatcher dispatcher clingIsOn event_dispatcher =
    Signals.operateAll dispatcher.connect (sinks clingIsOn) event_dispatcher := by
  cases clingIsOn <;> rfl

theorem disconnect_sinks (event_dispatcher : Hub) : disconnect_dispatcher dispatcher clingIsOn event_dispatcher =
    Signals.operateAll dispatcher.disconnect (sinks clingIsOn) event_dispatcher := by
  cases clingIsOn <;> rfl

theorem sinks_own (kind method : Kind) :
    (kind,(.handler method : Listener Foreign)) ∈ sinks clingIsOn ↔ method = kind ∧ listens clingIsOn kind = true := by
  cases clingIsOn <;> cases kind <;> cases method <;> simp [sinks,listens]

theorem sinks_foreign (kind : Kind) (listener : Foreign) : (kind,Listener.foreign listener) ∉ sinks clingIsOn := by
  cases clingIsOn <;> simp [sinks]

end Sinks

section Steps
variable {dispatcher : Signals.Dispatcher Hub Kind (Listener Foreign)} {clingIsOn : Bool} {host : Host Record}
  {dchecks : Bool} {buildType : String} [DecidableEq Pipeline] {start : Tool Hub Pipeline Record}
  {action : Action Foreign Pipeline Record}

theorem tool_last {w : World Pipeline Record} {earlier : List (Action Foreign Pipeline Record)} :
    (∃ event_dispatcher, Machines.Runs (machine dispatcher clingIsOn host dchecks buildType) start (earlier ++ [action])
        ⟨event_dispatcher,w⟩) ↔
      ∃ middle, Machines.Runs (machine dispatcher clingIsOn host dchecks buildType) start earlier middle ∧
        ∃ event_dispatcher, act dispatcher clingIsOn host dchecks buildType action middle = .ok ⟨event_dispatcher,w⟩ := by
  constructor
  · intro path
    obtain ⟨event_dispatcher,path⟩ := path
    obtain ⟨middle,prior,accepted⟩ := Machines.runs_snoc.mp path
    exact ⟨middle,prior,event_dispatcher,accepted⟩
  · intro steps
    obtain ⟨middle,prior,event_dispatcher,accepted⟩ := steps
    exact ⟨event_dispatcher,prior.step accepted⟩

end Steps

section Histories
variable [DecidableEq Foreign] {dispatcher : Signals.Dispatcher Hub Kind (Listener Foreign)} {clingIsOn : Bool}
  {actions : List (Action Foreign Pipeline Record)} {start tool next : Tool Hub Pipeline Record}
  {action : Action Foreign Pipeline Record}

def foreignCount (kind : Kind) (listener : Foreign) (count : Nat) : Action Foreign Pipeline Record → Nat
  | .connect other own => if kind = other ∧ listener = own then 1 else count
  | .disconnect other own => if kind = other ∧ listener = own then 0 else count
  | _ => count

-- The dispatcher after a history: this plugin's methods are connected once or
-- not at all, and the others as if it were not there.
structure Linked (dispatcher : Signals.Dispatcher Hub Kind (Listener Foreign)) (clingIsOn : Bool) (start : Hub)
    (actions : List (Action Foreign Pipeline Record)) (event_dispatcher : Hub) : Prop where
  own : ∀ kind method, (dispatcher.listeners event_dispatcher kind).count (.handler method) =
    if isConnected actions = true ∧ method = kind ∧ listens clingIsOn kind = true then 1 else 0
  foreign : ∀ kind listener, (dispatcher.listeners event_dispatcher kind).count (.foreign listener) =
    actions.foldl (foreignCount kind listener) ((dispatcher.listeners start kind).count (.foreign listener))

variable {host : Host Record} {dchecks : Bool} {buildType : String} [DecidableEq Pipeline]

theorem act_linked (lawful : dispatcher.Lawful)
    (linked : Linked dispatcher clingIsOn start.event_dispatcher actions tool.event_dispatcher)
    (accepted : act dispatcher clingIsOn host dchecks buildType action tool = .ok next) :
    Linked dispatcher clingIsOn start.event_dispatcher (actions ++ [action]) next.event_dispatcher := by
  constructor
  all_goals simp only [isConnected_snoc,List.foldl_append,List.foldl_cons,List.foldl_nil,← linked.foreign]
  · intro kind method
    have before := linked.own kind method
    cases action with
    | connect_to_dispatcher =>
      cases accepted
      simp only [connect_sinks,Signals.operateAll_count lawful.connect,sinks_own,before,Action.connects,true_and]
      by_cases sink : method = kind ∧ listens clingIsOn kind = true
      · rw [if_pos sink,if_pos sink]
      · rw [if_neg sink,if_neg sink,if_neg fun all => sink all.2]
    | disconnect_dispatcher =>
      cases accepted
      simp only [disconnect_sinks,Signals.operateAll_count lawful.disconnect,sinks_own,before,Action.connects,
        Bool.false_eq_true,false_and,if_false]
      by_cases sink : method = kind ∧ listens clingIsOn kind = true
      · rw [if_pos sink]
      · rw [if_neg sink,if_neg fun all => sink all.2]
    | connect other listener =>
      cases accepted
      rw [lawful.connect,if_neg (by simp)]
      exact before
    | disconnect other listener =>
      cases accepted
      rw [lawful.disconnect,if_neg (by simp)]
      exact before
    | trigger event | runRule pipeline name options =>
      simp only [act] at accepted
      split at accepted
      · cases accepted
      · cases accepted
        exact before
  · intro kind listener
    cases action with
    | connect_to_dispatcher =>
      cases accepted
      simp only [connect_sinks,Signals.operateAll_count lawful.connect,sinks_foreign,if_false,foreignCount]
    | disconnect_dispatcher =>
      cases accepted
      simp only [disconnect_sinks,Signals.operateAll_count lawful.disconnect,sinks_foreign,if_false,foreignCount]
    | connect other own =>
      cases accepted
      simp [lawful.connect _ _ _ _ _,foreignCount]
    | disconnect other own =>
      cases accepted
      simp [lawful.disconnect _ _ _ _ _,foreignCount]
    | trigger event | runRule pipeline name options =>
      simp only [act] at accepted
      split at accepted
      · cases accepted
      · cases accepted
        rfl

theorem runs_linked (lawful : dispatcher.Lawful)
    (fresh : ∀ kind method, (dispatcher.listeners start.event_dispatcher kind).count (.handler method) = 0)
    (path : Machines.Runs (machine dispatcher clingIsOn host dchecks buildType) start actions tool) :
    Linked dispatcher clingIsOn start.event_dispatcher actions tool.event_dispatcher := by
  induction path with
  | nil => exact ⟨fun kind method => by simp [fresh,isConnected],fun _ _ => rfl⟩
  | step prior accepted ih => exact act_linked lawful ih accepted

theorem act_heard (linked : Linked dispatcher clingIsOn start.event_dispatcher actions tool.event_dispatcher)
    (w : World Pipeline Record) :
    (∃ event_dispatcher, act dispatcher clingIsOn host dchecks buildType action tool = .ok ⟨event_dispatcher,w⟩) ↔
      match heard clingIsOn (isConnected actions) action with
      | none => w = tool.eventHandler_
      | some own => EventHandler.act host dchecks buildType own tool.eventHandler_ = .ok w := by
  cases action with
  | connect_to_dispatcher | disconnect_dispatcher | connect kind listener | disconnect kind listener =>
    simp [act,heard,eq_comm]
  | runRule pipeline name options =>
    simp only [act,heard,EventHandler.act]
    cases EventHandler.runRule host dchecks pipeline name options tool.eventHandler_ <;> simp
  | trigger event =>
    have others : ∀ listener : Listener Foreign, listener ≠ .handler (kind event) →
        ∀ s : World Pipeline Record, call dchecks buildType event listener s = .ok s := by
      intro listener other s
      cases listener with
      | foreign listener => rfl
      | handler method => exact if_neg fun same => other (by rw [same])
    have own := linked.own (kind event) (kind event)
    simp only [act,heard,Bool.and_eq_true]
    by_cases hears : isConnected actions = true ∧ listens clingIsOn (kind event) = true
    · rw [if_pos ⟨hears.1,rfl,hears.2⟩] at own
      rw [if_pos hears,Signals.publish_once others own]
      simp only [call,if_true,EventHandler.act]
      cases handle dchecks buildType event tool.eventHandler_ <;> simp
    · rw [if_neg fun all => hears ⟨all.1,all.2.2⟩] at own
      rw [if_neg hears,Signals.publish_absent others own]
      simp [eq_comm]

-- No event is lost and none comes twice: for the handler a history of the tool
-- is exactly the events triggered while the plugin was connected.
theorem delivered_exact (lawful : dispatcher.Lawful)
    (fresh : ∀ kind method, (dispatcher.listeners start.event_dispatcher kind).count (.handler method) = 0)
    (actions : List (Action Foreign Pipeline Record)) (w : World Pipeline Record) :
    (∃ event_dispatcher, Machines.Runs (machine dispatcher clingIsOn host dchecks buildType) start actions ⟨event_dispatcher,w⟩) ↔
      EventHandler.Runs host dchecks buildType start.eventHandler_ (delivered clingIsOn false actions) w := by
  induction actions using List.reverseRecOn generalizing w with
  | nil =>
    constructor
    · intro path
      obtain ⟨event_dispatcher,path⟩ := path
      cases Machines.runs_nil.mp path
      exact .nil
    · intro path
      cases Machines.runs_nil.mp path
      exact ⟨start.event_dispatcher,.nil⟩
  | append_singleton earlier action ih =>
    rw [tool_last,delivered_snoc]
    have heardStep : ∀ middle, Machines.Runs (machine dispatcher clingIsOn host dchecks buildType) start earlier middle →
        ((∃ event_dispatcher, act dispatcher clingIsOn host dchecks buildType action middle = .ok ⟨event_dispatcher,w⟩) ↔
          match heard clingIsOn (isConnected earlier) action with
          | none => w = middle.eventHandler_
          | some own => EventHandler.act host dchecks buildType own middle.eventHandler_ = .ok w) :=
      fun middle prior => act_heard (runs_linked lawful fresh prior) w
    cases own : heard clingIsOn (isConnected earlier) action with
    | none =>
      simp only [own] at heardStep
      simp only [Option.toList_none,List.append_nil,← ih]
      constructor
      · intro steps
        obtain ⟨⟨event_dispatcher,handler⟩,prior,accepted⟩ := steps
        cases (heardStep _ prior).mp accepted
        exact ⟨event_dispatcher,prior⟩
      · intro path
        obtain ⟨event_dispatcher,prior⟩ := path
        exact ⟨_,prior,(heardStep _ prior).mpr rfl⟩
    | some heardAction =>
      simp only [own] at heardStep
      simp only [Option.toList_some,EventHandler.Runs,Machines.runs_snoc]
      constructor
      · intro steps
        obtain ⟨⟨event_dispatcher,handler⟩,prior,accepted⟩ := steps
        exact ⟨handler,(ih handler).mp ⟨event_dispatcher,prior⟩,(heardStep _ prior).mp accepted⟩
      · intro steps
        obtain ⟨handler,prior,accepted⟩ := steps
        obtain ⟨event_dispatcher,prior⟩ := (ih handler).mpr prior
        exact ⟨_,prior,(heardStep _ prior).mpr accepted⟩

def plainDispatcher : Signals.Dispatcher (Kind → List (Listener Nat)) Kind (Listener Nat) where
  listeners := id
  connect := fun kind listener hub other =>
    if other = kind then (hub kind).filter (· ≠ listener) ++ [listener] else hub other
  disconnect := fun kind listener hub other => if other = kind then (hub kind).filter (· ≠ listener) else hub other

theorem plainDispatcher_lawful : plainDispatcher.Lawful := by
  constructor
  all_goals
    intro hub kind listener other own
    by_cases sameKind : other = kind
    · subst sameKind
      by_cases same : own = listener
      · subst same
        simp [plainDispatcher,List.count_eq_zero]
      · simp [plainDispatcher,same,List.count_filter,Ne.symm same]
    · simp [plainDispatcher,sameKind]

def plainTool : Tool (Kind → List (Listener Nat)) Bool Unit := ⟨fun _ => [],World.start fun _ _ => false⟩

def version : Action Nat Bool Unit := .trigger (.stringCommand ["/version"])

-- Connected twice and disconnected once, the plugin answers one of three events.
theorem delivered_exact_witness :
    ∃ event_dispatcher, Machines.Runs (machine plainDispatcher true anyHost true "local build") plainTool
      [version,.connect_to_dispatcher,.connect_to_dispatcher,version,.disconnect_dispatcher,version]
      ⟨event_dispatcher,StringCommand "local build" ["/version"] (World.start fun _ _ => false)⟩ :=
  (delivered_exact plainDispatcher_lawful (fun _ _ => rfl) _ _).mpr
    (Machines.Runs.nil.step (rfl : EventHandler.act anyHost true "local build" (.handle (.stringCommand ["/version"])) _ =
      .ok _))

-- The dispatcher is as if the plugin had never been there exactly when it is
-- not connected; so nothing of it can be called after it is unloaded.
theorem unplugged_exact {other : Tool Hub Pipeline Record} (lawful : dispatcher.Lawful)
    (fresh : ∀ kind method, (dispatcher.listeners start.event_dispatcher kind).count (.handler method) = 0)
    (path : Machines.Runs (machine dispatcher clingIsOn host dchecks buildType) start actions tool)
    (alone : Machines.Runs (machine dispatcher clingIsOn host dchecks buildType) start (actions.filter Action.isForeign) other) :
    (∀ kind, (dispatcher.listeners tool.event_dispatcher kind).Perm (dispatcher.listeners other.event_dispatcher kind)) ↔
      isConnected actions = false := by
  have linked := runs_linked lawful fresh path
  have unlinked := runs_linked lawful fresh alone
  have never := foreign_isConnected actions
  constructor
  · intro same
    have counts := (same .init).count_eq (.handler .init)
    rw [linked.own,unlinked.own,never] at counts
    simpa [listens] using counts
  · intro unplugged kind
    rw [List.perm_iff_count]
    intro listener
    cases listener with
    | handler method => rw [linked.own,unlinked.own,unplugged,never]
    | foreign listener =>
      rw [linked.foreign,unlinked.foreign,List.foldl_filter]
      congr 1
      funext count action
      cases action <;> rfl

def unplugging : List (Action Nat Bool Unit) := [.connect .init 7,.connect_to_dispatcher,.disconnect_dispatcher]

theorem unplugged_exact_witness :
    ∃ tool other : Tool (Kind → List (Listener Nat)) Bool Unit,
      Machines.Runs (machine plainDispatcher true anyHost true "local build") plainTool unplugging tool ∧
        Machines.Runs (machine plainDispatcher true anyHost true "local build") plainTool
          (unplugging.filter Action.isForeign) other ∧
        ∀ kind, (plainDispatcher.listeners tool.event_dispatcher kind).Perm
          (plainDispatcher.listeners other.event_dispatcher kind) := by
  have first : Machines.Runs (machine plainDispatcher true anyHost true "local build") plainTool
      [.connect .init 7] _ := Machines.Runs.nil.step (rfl : act _ _ _ _ _ _ _ = .ok _)
  have second := first.step (rfl : act _ _ _ _ _ .connect_to_dispatcher _ = .ok _)
  have third := second.step (rfl : act _ _ _ _ _ .disconnect_dispatcher _ = .ok _)
  exact ⟨_,_,third,first,(unplugged_exact plainDispatcher_lawful (fun _ _ => rfl) third first).mpr rfl⟩

end Histories
end FlexPimpl.Plugin
