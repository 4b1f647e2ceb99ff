import FlexPimpl.Machines

namespace Objects

structure Class (Signature Member : Type) where
  members : List Member
  signature : Member → Signature
  allows : Member → Bool

-- The place of the signature that is selected, and its specialization if it is a template.
abbrev Resolution (Signature Query Special : Type) := List Signature → Query → Nat → Option (Nat × Special)

structure Call (Query Value : Type) where
  query : Query
  arguments : List Value

abbrev Code (Member Special Value State : Type) := Member → Special → List Value → State → Option (Value × State)

-- A member that only calls a member of another class with some of its own parameters.
structure Forwarder (Signature Query Special : Type) where
  signature : Signature
  query : Special → Option Query
  arguments : List (Option Nat)

section Calls
variable {Signature Query Special Member Value State : Type} (resolve : Resolution Signature Query Special)

def Class.chosen (type : Class Signature Member) (query : Query) (n : Nat) : Option (Member × Special) :=
  (resolve (type.members.map type.signature) query n).bind fun found =>
    (type.members[found.1]?).map fun member => (member,found.2)

def Class.reached (type : Class Signature Member) (query : Query) (n : Nat) : Option (Member × Special) :=
  (type.chosen resolve query n).filter fun found => type.allows found.1

def Class.call (type : Class Signature Member) (code : Code Member Special Value State) (call : Call Query Value)
    (s : State) : Option (Value × State) :=
  (type.reached resolve call.query call.arguments.length).bind fun found => code found.1 found.2 call.arguments s

def object (type : Class Signature Member) (code : Code Member Special Value State) :
    Machines.Machine State (Call Query Value × Value) :=
  fun s label next => type.call resolve code label.1 s = some (label.2,next)

def pick (values : List Value) : List (Option Nat) → Option (List Value)
  | [] => some []
  | place :: rest => (place.bind fun i => values[i]?).bind fun value => (pick values rest).map (value :: ·)

def proxy (forwarders : List (Forwarder Signature Query Special)) :
    Class Signature (Forwarder Signature Query Special) := ⟨forwarders,Forwarder.signature,fun _ => true⟩

def Class.offers (type : Class Signature Member) (targets : List Member) : Class Signature Member :=
  {type with members := targets,allows := fun _ => true}

def Forwarder.leads (inner : Class Signature Member) (forwarder : Forwarder Signature Query Special)
    (special : Special) : Option (Member × Special) :=
  (forwarder.query special).bind fun query => inner.reached resolve query forwarder.arguments.length

def forward (inner : Class Signature Member) (code : Code Member Special Value State) :
    Code (Forwarder Signature Query Special) Special Value State :=
  fun forwarder special values s => (pick values forwarder.arguments).bind fun passed =>
    (forwarder.leads resolve inner special).bind fun found => code found.1 found.2 passed s

-- Whatever the members of the inner class do, a proxy object over it goes
-- through the same calls as an object that offers just the targets.
def Faithful (inner : Class Signature Member) (forwarders : List (Forwarder Signature Query Special))
    (targets : List Member) : Prop :=
  ∀ (Value State : Type) (code : Code Member Special Value State) (start : State)
    (trace : List (Call Query Value × Value)) (s : State),
    Machines.Runs (object resolve (proxy forwarders) (forward resolve inner code)) start trace s ↔
      Machines.Runs (object resolve (inner.offers targets) code) start trace s

structure Forwards (inner : Class Signature Member) (forwarder : Forwarder Signature Query Special) (n : Nat)
    (special : Special) (target : Member) (own : Special) : Prop where
  leads : forwarder.leads resolve inner special = some (target,own)
  arguments : forwarder.arguments = (List.range n).map some

def Stuck (inner : Class Signature Member) (forwarder : Forwarder Signature Query Special) (n : Nat)
    (special : Special) : Prop :=
  forwarder.leads resolve inner special = none ∨ pick (List.range n) forwarder.arguments = none

-- A call that finds a target finds a forwarder to it, in the same specialization
-- and with all arguments in their order; no other call gets through.
structure Routed (inner : Class Signature Member) (forwarders : List (Forwarder Signature Query Special))
    (targets : List Member) (query : Query) (n : Nat) : Prop where
  forwards : ∀ target own, (inner.offers targets).chosen resolve query n = some (target,own) →
    ∃ forwarder special, (proxy forwarders).chosen resolve query n = some (forwarder,special) ∧
      Forwards resolve inner forwarder n special target own
  refuses : (inner.offers targets).chosen resolve query n = none → ∀ forwarder special,
    (proxy forwarders).chosen resolve query n = some (forwarder,special) → Stuck resolve inner forwarder n special

end Calls

variable {Signature Query Special Member Value State : Type} {resolve : Resolution Signature Query Special}
  {inner : Class Signature Member} {forwarders : List (Forwarder Signature Query Special)} {targets : List Member}

section Picks
variable {values passed : List Value} {places : List (Option Nat)}

theorem pick_exact :
    pick values places = some passed ↔ places.map (fun place => place.bind fun i => values[i]?) = passed.map some := by
  induction places generalizing passed with
  | nil => cases passed <;> simp [pick]
  | cons place rest ih =>
    cases found : place.bind fun i => values[i]? with
    | none => cases passed <;> simp [pick,found]
    | some value =>
      cases passed with
      | nil => simp [pick,found]
      | cons first others => simp [pick,found,ih,and_comm]

theorem pick_all (values : List Value) : pick values ((List.range values.length).map some) = some values := by
  rw [pick_exact,List.map_map]
  apply List.ext_getElem
  · simp
  · intro i inside _
    simp at inside
    simp [inside]

-- Whether there is something to pick depends on the number of values alone.
theorem pick_none : pick values places = none ↔ ∃ place ∈ places, ∀ i < values.length, place ≠ some i := by
  induction places with
  | nil => simp [pick]
  | cons place rest ih =>
    have head : (place.bind fun i => values[i]?) = none ↔ ∀ i < values.length, place ≠ some i := by
      cases place with
      | none => simp
      | some j =>
        rw [Option.bind_some,List.getElem?_eq_none_iff]
        constructor
        · intro outside i inside same
          cases same
          omega
        · intro apart
          by_contra inside
          exact apart j (by omega) rfl
    simp only [List.mem_cons,exists_eq_or_imp]
    rw [← head,← ih]
    cases found : place.bind fun i => values[i]? <;> simp [pick,found]

theorem pick_range : pick values places = none ↔ pick (List.range values.length) places = none := by
  rw [pick_none,pick_none,List.length_range]

theorem pick_places {n : Nat} {passed : List Nat} (picked : pick (List.range n) places = some passed) :
    places = passed.map some := by
  rw [pick_exact] at picked
  induction places generalizing passed with
  | nil => cases passed <;> simp_all
  | cons place rest ih =>
    cases passed with
    | nil => simp at picked
    | cons value others =>
      simp only [List.map_cons,List.cons.injEq] at picked ⊢
      refine ⟨?_,ih picked.2⟩
      obtain ⟨i,rfl,found⟩ := Option.bind_eq_some_iff.mp picked.1
      obtain ⟨inside,own⟩ := List.getElem?_eq_some_iff.mp found
      rw [List.getElem_range] at own
      rw [own]

end Picks

section Chosen
variable {query : Query} {n : Nat}

@[simp] theorem offers_reached :
    (inner.offers targets).reached resolve query n = (inner.offers targets).chosen resolve query n := by
  unfold Class.reached
  cases (inner.offers targets).chosen resolve query n <;> rfl

@[simp] theorem proxy_reached :
    (proxy forwarders).reached resolve query n = (proxy forwarders).chosen resolve query n := by
  unfold Class.reached
  cases (proxy forwarders).chosen resolve query n <;> rfl

theorem reached_exact {target : Member} {own : Special} : inner.reached resolve query n = some (target,own) ↔
    inner.chosen resolve query n = some (target,own) ∧ inner.allows target = true := Option.filter_eq_some_iff

theorem chosen_member {target : Member} {own : Special} (found : inner.chosen resolve query n = some (target,own)) :
    target ∈ inner.members := by
  obtain ⟨answer,_,placed⟩ := Option.bind_eq_some_iff.mp found
  obtain ⟨member,listed,same⟩ := Option.map_eq_some_iff.mp placed
  cases same
  exact List.mem_of_getElem? listed

theorem chosen_map {Item : Type} {items : List Item} {member : Item → Member} {signature : Member → Signature}
    {allows : Member → Bool} {permits : Item → Bool} :
    (Class.mk (items.map member) signature allows).chosen resolve query n =
      ((Class.mk items (fun item => signature (member item)) permits).chosen resolve query n).map
        fun found => (member found.1,found.2) := by
  unfold Class.chosen
  rw [List.map_map,Option.map_bind]
  apply Option.bind_congr
  intro found _
  rw [List.getElem?_map,Function.comp_apply,Option.map_map,Option.map_map]
  rfl

end Chosen

theorem faithful_calls : Faithful resolve inner forwarders targets ↔
    ∀ (Value State : Type) (code : Code Member Special Value State) (call : Call Query Value) (s : State),
      (proxy forwarders).call resolve (forward resolve inner code) call s = (inner.offers targets).call resolve code call s := by
  constructor
  · intro faithful Value State code call s
    apply Option.ext
    intro answer
    have single := faithful Value State code s [(call,answer.1)] answer.2
    rwa [Machines.runs_single,Machines.runs_single] at single
  · intro same Value State code start trace s
    have machines : object resolve (proxy forwarders) (forward resolve inner code) =
        object resolve (inner.offers targets) code := by
      funext s label next
      unfold object
      rw [same]
    rw [machines]

theorem routed_call (routed : ∀ query n, Routed resolve inner forwarders targets query n)
    (code : Code Member Special Value State) (call : Call Query Value) (s : State) :
    (proxy forwarders).call resolve (forward resolve inner code) call s = (inner.offers targets).call resolve code call s := by
  obtain ⟨query,values⟩ := call
  unfold Class.call
  rw [proxy_reached,offers_reached]
  cases found : (inner.offers targets).chosen resolve query values.length with
  | some answer =>
    obtain ⟨forwarder,special,chosen,forwards⟩ := (routed query values.length).forwards _ _ found
    rw [chosen,Option.bind_some,forward,forwards.arguments,pick_all,forwards.leads]
    rfl
  | none =>
    cases chosen : (proxy forwarders).chosen resolve query values.length with
    | none => rfl
    | some answer =>
      rw [Option.bind_some,forward,Option.bind_none]
      rcases (routed query values.length).refuses found _ _ chosen with nowhere | missing
      · rw [nowhere]
        cases pick values answer.1.arguments <;> rfl
      · rw [pick_range.mpr missing]
        rfl

-- Members that only record how they were called.
def recording : Code Member Special Nat (Option (Member × Special × List Nat)) :=
  fun member special values _ => some (0,some (member,special,values))

theorem faithful_exact : Faithful resolve inner forwarders targets ↔
    ∀ query n, Routed resolve inner forwarders targets query n := by
  rw [faithful_calls]
  constructor
  · intro same query n
    have recorded := same Nat _ recording ⟨query,List.range n⟩ none
    unfold Class.call at recorded
    rw [proxy_reached,offers_reached,List.length_range] at recorded
    constructor
    · intro target own found
      rw [found] at recorded
      obtain ⟨⟨forwarder,special⟩,chosen,ran⟩ := Option.bind_eq_some_iff.mp recorded
      obtain ⟨passed,picked,ran⟩ := Option.bind_eq_some_iff.mp ran
      obtain ⟨⟨member,other⟩,leads,called⟩ := Option.bind_eq_some_iff.mp ran
      cases called
      exact ⟨forwarder,special,chosen,leads,pick_places picked⟩
    · intro found forwarder special chosen
      rw [found,chosen,Option.bind_some,Option.bind_none,forward] at recorded
      cases picked : pick (List.range n) forwarder.arguments with
      | none => exact Or.inr picked
      | some passed =>
        rw [picked,Option.bind_some] at recorded
        cases leads : forwarder.leads resolve inner special with
        | none => exact Or.inl leads
        | some target =>
          rw [leads] at recorded
          cases recorded
  · intro routed Value State code call s
    exact routed_call routed code call s

end Objects
