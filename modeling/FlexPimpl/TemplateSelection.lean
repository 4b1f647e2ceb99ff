import FlexPimpl.TemplateCalls

namespace TemplateDeduction
open CppTypes

variable {Name Constant : Type}

inductive Supplied (Constant : Type) where
  | one (argument : Argument Constant)
  | many (arguments : List (Argument Constant))
deriving DecidableEq, Repr

-- A default argument may mention the arguments before it.
structure TemplateParameter (Name Constant : Type) where
  name : Name
  isPack : Bool := false
  defaultArgument : Option (List (Supplied Constant) → Argument Constant) := none

def Declares (parameters : List (TemplateParameter Name Constant)) (isPack : Bool) (name : Name) : Prop :=
  ∃ parameter ∈ parameters, parameter.name = name ∧ parameter.isPack = isPack

def Pattern.Scoped (parameters : List (TemplateParameter Name Constant)) : List Name → Pattern Name Constant → Prop
  | _,.parameter _ (.single name) => Declares parameters false name
  | packs,.parameter _ (.packed name) => name ∈ packs
  | _,.constant .. | _,.nil => True
  | packs,.apply _ first second | packs,.array first second | packs,.function first second
  | packs,.cons first second => Scoped parameters packs first ∧ Scoped parameters packs second
  | packs,.pointer _ inner | packs,.reference _ inner | packs,.passed inner | packs,.nondeduced _ inner =>
    Scoped parameters packs inner
  | _,.expansion pack others pattern =>
    (∀ name ∈ pack :: others, Declares parameters true name) ∧ Scoped parameters (pack :: others) pattern

def FunctionParameter.Scoped (parameters : List (TemplateParameter Name Constant)) :
    FunctionParameter Name Constant → Prop
  | .one pattern _ => pattern.Scoped parameters []
  | .many pack others pattern =>
    (∀ name ∈ pack :: others, Declares parameters true name) ∧ pattern.Scoped parameters (pack :: others)

structure FunctionTemplate (Name Constant : Type) where
  parameters : List (TemplateParameter Name Constant)
  params : List (FunctionParameter Name Constant)
  declares : ∀ param ∈ params, param.Scoped parameters

def Assignment.supplied (a : Assignment Name Constant) (parameter : TemplateParameter Name Constant) :
    Supplied Constant :=
  if parameter.isPack then .many (a.pack parameter.name) else .one (a.single parameter.name)

def Consistent (bindings : List (Binding Name Constant)) : Prop :=
  ∀ first ∈ bindings, ∀ second ∈ bindings, first.1 = second.1 → first.2 = second.2

section Selection
variable [DecidableEq Name]

def argumentAt (bindings : List (Binding Name Constant)) (key : Key Name) : Option (Argument Constant) :=
  match bindings.lookup key with
  | some (.argument found) => some found
  | _ => none

-- What deduction found for a template parameter, else its default argument. A
-- pack that is not deduced is empty.
def supply (bindings : List (Binding Name Constant)) (earlier : List (Supplied Constant))
    (parameter : TemplateParameter Name Constant) : Option (Supplied Constant) :=
  if parameter.isPack then
    match bindings.lookup (.size parameter.name) with
    | some (.count size) =>
      ((List.range size).mapM fun i => argumentAt bindings (.element parameter.name i)).map .many
    | _ => some (.many [])
  else
    ((argumentAt bindings (.one parameter.name)).or (parameter.defaultArgument.map (· earlier))).map .one

def complete (bindings : List (Binding Name Constant)) :
    List (Supplied Constant) → List (TemplateParameter Name Constant) → Option (List (Supplied Constant))
  | _,[] => some []
  | earlier,parameter :: rest => (supply bindings earlier parameter).bind fun own =>
    (complete bindings (earlier ++ [own]) rest).map (own :: ·)

variable [DecidableEq Constant]

instance (bindings : List (Binding Name Constant)) : Decidable (Consistent bindings) :=
  inferInstanceAs (Decidable (∀ first ∈ bindings, ∀ second ∈ bindings, first.1 = second.1 → first.2 = second.2))

-- The template arguments of the specialization that a call without explicit ones selects.
def select (template : FunctionTemplate Name Constant) (arguments : List (Expression Constant)) :
    Option (List (Supplied Constant)) :=
  (deduceCall template.params arguments).bind fun bindings =>
    if Consistent bindings then complete bindings [] template.parameters else none

end Selection

-- Whether an expression can initialize what is declared with a type. What makes
-- an object of a type from an expression is its own matter.
def Initializes (makes : Expression Constant → Argument Constant → Prop) (argument : Expression Constant) :
    Argument Constant → Prop
  | .reference .lvalue target => argument.type.qualify target.qualifiers = target ∧
    (argument.category = .lvalue ∨ target.qualifiers = (true,false))
  | .reference .rvalue target => argument.type.qualify target.qualifiers = target ∧
    (argument.category = .xvalue ∨ target.isFunction = true)
  | type => makes argument type.decayed

section Carried
variable (meaning : Constant → Argument Constant → Argument Constant)
  (makes : Expression Constant → Argument Constant → Prop) (a : Assignment Name Constant)

-- A call selects a specialization when deduction ends with its template
-- arguments and its parameters can be initialized.
structure Selects [DecidableEq Name] [DecidableEq Constant] (template : FunctionTemplate Name Constant)
    (arguments : List (Expression Constant)) : Prop where
  selected : select template arguments = some (template.parameters.map a.supplied)
  initialized : ∀ paired, pairing template.params arguments = some paired → ∀ place ∈ paired.pairs,
    Initializes makes place.2.2 (declared meaning a place.1 place.2.1)

-- The template argument is read back somewhere, or it is the default.
def Settled (found : List (Key Name)) (earlier : List (Supplied Constant))
    (parameter : TemplateParameter Name Constant) : Prop :=
  if parameter.isPack then
    a.pack parameter.name = [] ∨
      (Key.size parameter.name ∈ found ∧ ∀ i < a.count parameter.name, Key.element parameter.name i ∈ found)
  else Key.one parameter.name ∈ found ∨ parameter.defaultArgument.map (· earlier) = some (a.single parameter.name)

structure Carries (template : FunctionTemplate Name Constant) (passings : List (Option Passing)) : Prop where
  aligned : Aligned a template.params passings
  kept : ∀ place ∈ places a template.params passings, KeptArgument meaning a place.1 place.2.1 place.2.2
  initialized : ∀ place ∈ places a template.params passings,
    Initializes makes (place.2.2.expression (declared meaning a place.1 place.2.1)) (declared meaning a place.1 place.2.1)
  settled : ∀ before parameter after, template.parameters = before ++ parameter :: after →
    Settled a (callKeys a template.params passings) (before.map a.supplied) parameter

end Carried

theorem mapM_exact {α β : Type} {f : α → Option β} {values : List α} {results : List β} :
    values.mapM f = some results ↔ values.map f = results.map some := by
  induction values generalizing results with
  | nil => cases results <;> simp
  | cons value rest ih =>
    cases results with
    | nil => simp [List.mapM_cons,Option.bind_eq_some_iff]
    | cons result others => simp [List.mapM_cons,Option.bind_eq_some_iff,ih]

section Bindings
variable {a : Assignment Name Constant} {bindings : List (Binding Name Constant)}

theorem consistent_of_agrees (agrees : Agrees a bindings) : Consistent bindings := by
  intro first early second late same
  rw [agrees first early,agrees second late,same]

variable [DecidableEq Name]

theorem lookup_mem {key : Key Name} {content : Content Constant} (found : bindings.lookup key = some content) :
    (key,content) ∈ bindings := by
  obtain ⟨before,after,rfl,_⟩ := List.lookup_eq_some_iff.mp found
  simp

theorem lookup_missing {key : Key Name} (missing : key ∉ bindings.map Prod.fst) : bindings.lookup key = none := by
  rw [List.lookup_eq_none_iff]
  intro binding member
  simp only [bne_iff_ne]
  rintro rfl
  exact missing (List.mem_map_of_mem member)

theorem lookup_found (agrees : Agrees a bindings) {key : Key Name} (present : key ∈ bindings.map Prod.fst) :
    bindings.lookup key = some (a.content key) := by
  cases read : bindings.lookup key with
  | none =>
    obtain ⟨binding,member,rfl⟩ := List.mem_map.mp present
    have differs := List.lookup_eq_none_iff.mp read binding member
    simp at differs
  | some content => exact congrArg some (agrees (key,content) (lookup_mem read))

theorem supply_pack (agrees : Agrees a bindings) (name : Name) :
    (List.range (a.count name)).mapM (fun i => argumentAt bindings (.element name i)) = some (a.pack name) ↔
      ∀ i < a.count name, Key.element name i ∈ bindings.map Prod.fst := by
  rw [mapM_exact]
  constructor
  · intro same i inside
    by_contra missing
    have read := congrArg (fun all => all[i]?) same
    have bound : i < (a.pack name).length := inside
    simp [argumentAt,lookup_missing missing,inside,bound] at read
  · intro present
    apply List.ext_getElem
    · simp [Assignment.count]
    · intro i inside _
      have bound : i < a.count name := by simpa using inside
      have own : i < (a.pack name).length := bound
      simp [argumentAt,lookup_found agrees (present i bound),Assignment.content,Assignment.element,own]

theorem supply_settled (agrees : Agrees a bindings) (earlier : List (Supplied Constant))
    (parameter : TemplateParameter Name Constant) :
    supply bindings earlier parameter = some (a.supplied parameter) ↔
      Settled a (bindings.map Prod.fst) earlier parameter := by
  unfold supply Assignment.supplied Settled
  split
  · by_cases found : Key.size parameter.name ∈ bindings.map Prod.fst
    · have read := supply_pack agrees parameter.name
      simp only [lookup_found agrees found,Assignment.content,Option.map_eq_some_iff,Supplied.many.injEq,
        exists_eq_right,read,found,true_and]
      constructor
      · exact Or.inr
      · rintro (empty | all)
        · intro i inside
          simp [Assignment.count,empty] at inside
        · exact all
    · simp only [lookup_missing found,found,false_and,or_false,Option.some.injEq,Supplied.many.injEq]
      exact eq_comm
  · by_cases found : Key.one parameter.name ∈ bindings.map Prod.fst
    · simp [argumentAt,lookup_found agrees found,found,Assignment.content]
    · simp [argumentAt,lookup_missing found,found]

theorem complete_exact {earlier : List (Supplied Constant)} {parameters : List (TemplateParameter Name Constant)} :
    complete bindings earlier parameters = some (parameters.map a.supplied) ↔
      ∀ before parameter after, parameters = before ++ parameter :: after →
        supply bindings (earlier ++ before.map a.supplied) parameter = some (a.supplied parameter) := by
  induction parameters generalizing earlier with
  | nil => simp [complete]
  | cons first rest ih =>
    have step : complete bindings earlier (first :: rest) = some ((first :: rest).map a.supplied) ↔
        supply bindings earlier first = some (a.supplied first) ∧
          complete bindings (earlier ++ [a.supplied first]) rest = some (rest.map a.supplied) := by
      simp only [complete,Option.bind_eq_some_iff,Option.map_eq_some_iff,List.map_cons,List.cons.injEq]
      constructor
      · rintro ⟨own,found,others,completed,rfl,rfl⟩
        exact ⟨found,completed⟩
      · rintro ⟨found,completed⟩
        exact ⟨_,found,_,completed,rfl,rfl⟩
    rw [step,ih]
    constructor
    · rintro ⟨own,later⟩ before parameter after same
      cases before with
      | nil =>
        cases same
        simpa using own
      | cons head before =>
        cases same
        simpa using later before parameter after rfl
    · intro all
      refine ⟨by simpa using all [] first rest rfl,fun before parameter after same => ?_⟩
      have later := all (first :: before) parameter after (by rw [same]; rfl)
      simpa using later

end Bindings

section Scopes
variable {parameters : List (TemplateParameter Name Constant)}

-- A binding of one of a template's own parameters. An element lies inside the
-- size of its pack, or belongs to a pack that is being expanded at that place.
inductive Owned (parameters : List (TemplateParameter Name Constant)) (packs : List Name) (i : Nat)
    (all : List (Binding Name Constant)) : Binding Name Constant → Prop where
  | one {name : Name} {found : Argument Constant} (own : Declares parameters false name) :
      Owned parameters packs i all (.one name,.argument found)
  | size {name : Name} {size : Nat} (own : Declares parameters true name) :
      Owned parameters packs i all (.size name,.count size)
  | here {name : Name} {found : Argument Constant} (expanded : name ∈ packs) :
      Owned parameters packs i all (.element name i,.argument found)
  | inside {name : Name} {j size : Nat} {found : Argument Constant} (sized : (.size name,.count size) ∈ all)
      (bound : j < size) : Owned parameters packs i all (.element name j,.argument found)

def Owns (parameters : List (TemplateParameter Name Constant)) (packs : List Name) (i : Nat)
    (result : Option (List (Binding Name Constant))) : Prop :=
  ∀ bindings, result = some bindings → ∀ binding ∈ bindings, Owned parameters packs i bindings binding

variable {packs : List Name} {i : Nat}

theorem owned_mono {all more : List (Binding Name Constant)} {binding : Binding Name Constant}
    (owned : Owned parameters packs i all binding) (included : all ⊆ more) : Owned parameters packs i more binding := by
  cases owned with
  | one own => exact .one own
  | size own => exact .size own
  | here expanded => exact .here expanded
  | inside sized bound => exact .inside (included sized) bound

theorem owns_both {first second : Option (List (Binding Name Constant))} (early : Owns parameters packs i first)
    (late : Owns parameters packs i second) : Owns parameters packs i (both first second) := by
  intro bindings found
  obtain ⟨head,rfl,rest⟩ := Option.bind_eq_some_iff.mp found
  obtain ⟨tail,rfl,rfl⟩ := Option.map_eq_some_iff.mp rest
  intro binding member
  rcases List.mem_append.mp member with before | after
  · exact owned_mono (early head rfl binding before) (List.subset_append_left _ _)
  · exact owned_mono (late tail rfl binding after) (List.subset_append_right _ _)

theorem owns_nothing : Owns parameters packs i (some []) := by
  rintro _ ⟨⟩
  exact nofun

theorem owns_none : Owns parameters packs i none := nofun

theorem owns_if {result : Option (List (Binding Name Constant))} {condition : Prop} [Decidable condition]
    (owns : Owns parameters packs i result) : Owns parameters packs i (if condition then result else none) := by
  split
  · exact owns
  · exact nofun

theorem owns_find {own : Qualifiers} {leaf : Leaf Name} (named : Pattern.Scoped parameters packs (.parameter own leaf))
    (found : Argument Constant) : Owns parameters packs i (some (find (leaf.key i) found)) := by
  rintro _ ⟨⟩ binding member
  cases List.mem_singleton.mp member
  cases leaf with
  | single name => exact .one named
  | packed name => exact .here named

theorem owns_each {read : Nat → Argument Constant → Option (List (Binding Name Constant))}
    (owns : ∀ j type, Owns parameters packs j (read j type)) {types : List (Argument Constant)} {first : Nat}
    {bindings : List (Binding Name Constant)} (found : each read first types = some bindings)
    {binding : Binding Name Constant} (member : binding ∈ bindings) :
    ∃ j, j < first + types.length ∧ Owned parameters packs j bindings binding := by
  induction types generalizing first bindings with
  | nil =>
    cases found
    cases member
  | cons type types ih =>
    obtain ⟨head,start,rest⟩ := Option.bind_eq_some_iff.mp found
    obtain ⟨tail,later,rfl⟩ := Option.map_eq_some_iff.mp rest
    rcases List.mem_append.mp member with before | after
    · refine ⟨first,by simp,?_⟩
      exact owned_mono (owns first type head start binding before) (List.subset_append_left _ _)
    · obtain ⟨j,bound,owned⟩ := ih later after
      refine ⟨j,?_,owned_mono owned (List.subset_append_right _ _)⟩
      simp only [List.length_cons]
      omega

theorem owns_sized {pack : Name} {others : List Name} {size : Nat} {bindings : List (Binding Name Constant)}
    (declared : ∀ name ∈ pack :: others, Declares parameters true name)
    (within : ∀ binding ∈ bindings, ∃ j, j < size ∧ Owned parameters (pack :: others) j bindings binding) :
    ∀ binding ∈ sizes pack others size ++ bindings,
      Owned parameters packs i (sizes pack others size ++ bindings) binding := by
  intro binding member
  rcases List.mem_append.mp member with sized | found
  · obtain ⟨name,inside,rfl⟩ := List.mem_map.mp sized
    exact .size (declared name inside)
  · obtain ⟨j,bound,owned⟩ := within binding found
    cases owned with
    | one own => exact .one own
    | size own => exact .size own
    | here expanded => exact .inside (List.mem_append_left _ (List.mem_map_of_mem expanded)) bound
    | inside sized bound => exact .inside (List.mem_append_right _ sized) bound

variable [DecidableEq Constant]

theorem passed_owns {declared : Pattern Name Constant} (named : declared.Scoped parameters packs)
    (single : ∀ element bound, declared ≠ .array element bound)
    (owns : ∀ type, Owns parameters packs i (deduce declared i type)) (type : Argument Constant) :
    Owns parameters packs i (deduce (.passed declared) i type) := by
  cases declared with
  | parameter own leaf => exact owns_find named type
  | array element bound => exact absurd rfl (single element bound)
  | function result params =>
    cases type with
    | pointer own inner => simpa [deduce] using owns inner
    | _ => simpa [deduce] using owns_none
  | reference kind target =>
    cases forwards : Pattern.forwarding (.reference kind target) with
    | none =>
      simp only [deduce.eq_def (.passed _),forwards]
      exact owns _
    | some leaf =>
      obtain ⟨rfl,rfl⟩ := forwarding_some forwards
      simp only [deduce.eq_def (.passed _),forwards]
      split
      · rename_i same
        cases same
        exact owns_find named _
      · exact owns _
  | nondeduced symbol operand => exact owns type
  | _ => simpa [deduce,Pattern.forwarding] using owns _

theorem deduce_owns {pattern : Pattern Name Constant} (named : pattern.Scoped parameters packs) (type : Argument Constant) :
    Owns parameters packs i (deduce pattern i type) ∧ Owns parameters packs i (deduce (.passed pattern) i type) := by
  have settles {declared : Pattern Name Constant} {packs : List Name} {i : Nat}
      (named : declared.Scoped parameters packs) (single : ∀ element bound, declared ≠ .array element bound)
      (owns : ∀ type, Owns parameters packs i (deduce declared i type)) (type : Argument Constant) :
      Owns parameters packs i (deduce declared i type) ∧ Owns parameters packs i (deduce (.passed declared) i type) :=
    ⟨owns type,passed_owns named single owns type⟩
  induction pattern generalizing packs i type with
  | parameter own leaf =>
    refine settles named (by simp) (fun type => ?_) type
    intro bindings found
    obtain ⟨inner,_,rfl⟩ := Option.map_eq_some_iff.mp found
    exact owns_find named inner _ rfl
  | constant own symbol => exact settles named (by simp) (fun type => owns_if owns_nothing) type
  | apply own head operands first second =>
    refine settles named (by simp) (fun type => ?_) type
    cases type with
    | apply other early late =>
      simpa [deduce] using owns_if (owns_both (first named.1 early).1 (second named.2 late).1)
    | _ => simpa [deduce] using owns_none
  | pointer own target ih =>
    refine settles named (by simp) (fun type => ?_) type
    cases type with
    | pointer other inner => simpa [deduce] using owns_if (ih named inner).1
    | _ => simpa [deduce] using owns_none
  | reference kind target ih =>
    refine settles named (by simp) (fun type => ?_) type
    cases target with
    | nondeduced symbol operand => simpa [deduce] using owns_nothing
    | reference | passed => simpa [deduce] using owns_none
    | _ =>
      cases type with
      | reference other inner => simpa [deduce] using owns_if (ih named inner).1
      | _ => simpa [deduce] using owns_none
  | array element bound first second =>
    constructor
    · cases type with
      | array early late => simpa [deduce] using owns_both (first named.1 early).1 (second named.2 late).1
      | _ => simpa [deduce] using owns_none
    · cases type with
      | pointer own inner => simpa [deduce] using (first named.1 inner).1
      | _ => simpa [deduce] using owns_none
  | function result params first second =>
    refine settles named (by simp) (fun type => ?_) type
    cases type with
    | function early late => simpa [deduce] using owns_both (first named.1 early).1 (second named.2 late).1
    | _ => simpa [deduce] using owns_none
  | passed declared ih => exact settles named (by simp) (fun type => (ih named type).2) type
  | nil => exact settles named (by simp) (fun type => owns_if owns_nothing) type
  | cons head rest first second =>
    refine settles named (by simp) (fun type => ?_) type
    cases type with
    | cons early late => simpa [deduce] using owns_both (first named.1 early).1 (second named.2 late).1
    | _ => simpa [deduce] using owns_none
  | expansion pack others pattern ih =>
    refine settles named (by simp) (fun type => ?_) type
    intro bindings found
    obtain ⟨all,listed,read⟩ := Option.bind_eq_some_iff.mp found
    obtain ⟨rest,each,rfl⟩ := Option.map_eq_some_iff.mp read
    apply owns_sized named.1
    intro binding member
    simpa using owns_each (fun j type => (ih named.2 type).1) each member
  | nondeduced symbol operand ih => exact settles named (by simp) (fun type => owns_nothing) type

theorem argument_owns {pattern : Pattern Name Constant} (named : pattern.Scoped parameters packs)
    (argument : Expression Constant) : Owns parameters packs i (deduceArgument pattern i argument) := by
  cases pattern with
  | passed inner => exact nofun
  | reference kind target =>
    cases forwards : Pattern.forwarding (.reference kind target) with
    | none =>
      simp only [deduceArgument,forwards]
      exact (deduce_owns named _).1
    | some leaf =>
      obtain ⟨rfl,rfl⟩ := forwarding_some forwards
      simp only [deduceArgument,forwards]
      split
      · rename_i same _
        cases same
        exact owns_find named _
      · exact (deduce_owns named _).1
  | _ => exact (deduce_owns named argument.type.decayed).2

theorem all_owns {pairs : List (Pattern Name Constant × Nat × Expression Constant)}
    (named : ∀ place ∈ pairs, place.1.Scoped parameters packs) {bindings : List (Binding Name Constant)}
    (found : deduceAll pairs = some bindings) {binding : Binding Name Constant} (member : binding ∈ bindings) :
    ∃ place ∈ pairs, Owned parameters packs place.2.1 bindings binding := by
  induction pairs generalizing bindings with
  | nil =>
    cases found
    cases member
  | cons place pairs ih =>
    obtain ⟨head,start,rest⟩ := Option.bind_eq_some_iff.mp found
    obtain ⟨tail,later,rfl⟩ := Option.map_eq_some_iff.mp rest
    have first := argument_owns (i := place.2.1) (named place (by simp)) place.2.2
    rcases List.mem_append.mp member with before | after
    · exact ⟨place,by simp,owned_mono (first head start binding before) (List.subset_append_left _ _)⟩
    · obtain ⟨other,inside,owned⟩ := ih (fun other inside => named other (List.mem_cons_of_mem _ inside)) later after
      exact ⟨other,List.mem_cons_of_mem _ inside,owned_mono owned (List.subset_append_right _ _)⟩

theorem pairing_owns {params : List (FunctionParameter Name Constant)}
    (named : ∀ param ∈ params, param.Scoped parameters) {arguments : List (Expression Constant)}
    {paired : Pairing Name Constant} (found : pairing params arguments = some paired)
    {rest : List (Binding Name Constant)} (read : deduceAll paired.pairs = some rest) :
    ∀ binding ∈ paired.sizes ++ rest, Owned parameters [] 0 (paired.sizes ++ rest) binding := by
  fun_induction pairing generalizing paired rest with
  | case1 =>
    cases found
    cases read
    exact nofun
  | case2 => cases found
  | case3 pack others pattern arguments =>
    cases found
    have own := named (.many pack others pattern) (by simp)
    have places : ∀ place ∈ arguments.zipIdx.map (fun place => (pattern,place.2,place.1)),
        place.1 = pattern ∧ place.2.1 < arguments.length := by
      intro place inside
      obtain ⟨⟨argument,j⟩,listed,rfl⟩ := List.mem_map.mp inside
      exact ⟨rfl,by simpa using List.snd_lt_of_mem_zipIdx listed⟩
    apply owns_sized own.1
    intro binding member
    obtain ⟨place,inside,owned⟩ := all_owns (fun place inside => (places place inside).1 ▸ own.2) read member
    exact ⟨place.2.1,(places place inside).2,owned⟩
  | case4 pack others pattern params arguments later ih =>
    exact ih (fun param member => named param (List.mem_cons_of_mem _ member)) found read
  | case5 pattern hasDefault params argument arguments ih =>
    obtain ⟨inner,aligned,rfl⟩ := Option.map_eq_some_iff.mp found
    obtain ⟨head,start,others⟩ := Option.bind_eq_some_iff.mp read
    obtain ⟨tail,later,rfl⟩ := Option.map_eq_some_iff.mp others
    have own : pattern.Scoped parameters [] := named (.one pattern hasDefault) (by simp)
    have rest := ih (fun param member => named param (List.mem_cons_of_mem _ member)) aligned later
    intro binding member
    simp only [List.mem_append] at member
    rcases member with sized | before | after
    · exact owned_mono (rest binding (List.mem_append_left _ sized)) (by simp)
    · exact owned_mono (argument_owns own argument head start binding before) (by simp)
    · exact owned_mono (rest binding (List.mem_append_right _ after)) (by simp)
  | case6 pattern params ih =>
    exact ih (fun param member => named param (List.mem_cons_of_mem _ member)) found read
  | case7 => cases found

theorem call_owns {params : List (FunctionParameter Name Constant)} (named : ∀ param ∈ params, param.Scoped parameters)
    (arguments : List (Expression Constant)) : Owns parameters [] 0 (deduceCall params arguments) := by
  intro bindings found
  obtain ⟨paired,aligned,read⟩ := Option.bind_eq_some_iff.mp found
  obtain ⟨rest,all,rfl⟩ := Option.map_eq_some_iff.mp read
  exact pairing_owns named aligned all

end Scopes

section Chosen
variable [DecidableEq Name] [DecidableEq Constant] {meaning : Constant → Argument Constant → Argument Constant}
  {makes : Expression Constant → Argument Constant → Prop} {a : Assignment Name Constant}

variable {parameters : List (TemplateParameter Name Constant)} {bindings : List (Binding Name Constant)}

omit [DecidableEq Constant] in
theorem lookup_consistent (consistent : Consistent bindings) {key : Key Name} {content : Content Constant}
    (member : (key,content) ∈ bindings) : bindings.lookup key = some content := by
  cases read : bindings.lookup key with
  | none =>
    have differs := List.lookup_eq_none_iff.mp read _ member
    simp at differs
  | some other => exact congrArg some (consistent _ (lookup_mem read) _ member rfl)

omit [DecidableEq Constant] in
theorem completed_supply (completed : complete bindings [] parameters = some (parameters.map a.supplied))
    {parameter : TemplateParameter Name Constant} (member : parameter ∈ parameters) :
    ∃ earlier, supply bindings earlier parameter = some (a.supplied parameter) := by
  obtain ⟨before,after,same⟩ := List.append_of_mem member
  exact ⟨_,complete_exact.mp completed before parameter after same⟩

omit [DecidableEq Constant] in
theorem completed_pack (consistent : Consistent bindings)
    (completed : complete bindings [] parameters = some (parameters.map a.supplied)) {name : Name} {size : Nat}
    (declared : Declares parameters true name) (sized : (.size name,.count size) ∈ bindings) :
    (List.range size).map (fun i => argumentAt bindings (.element name i)) = (a.pack name).map some := by
  obtain ⟨parameter,member,rfl,isPack⟩ := declared
  obtain ⟨earlier,supplied⟩ := completed_supply completed member
  rw [← mapM_exact]
  simpa [supply,Assignment.supplied,isPack,lookup_consistent consistent sized] using supplied

omit [DecidableEq Constant] in
theorem selected_agrees (consistent : Consistent bindings)
    (owned : ∀ binding ∈ bindings, Owned parameters [] 0 bindings binding)
    (completed : complete bindings [] parameters = some (parameters.map a.supplied)) : Agrees a bindings := by
  intro binding member
  cases owned binding member with
  | one own =>
    obtain ⟨parameter,inside,rfl,single⟩ := own
    obtain ⟨earlier,supplied⟩ := completed_supply completed inside
    simpa [supply,Assignment.supplied,single,argumentAt,lookup_consistent consistent member,Assignment.content] using supplied
  | size own =>
    have lengths := congrArg List.length (completed_pack consistent completed own member)
    simp only [List.length_map,List.length_range] at lengths
    exact congrArg Content.count lengths
  | here expanded => cases expanded
  | inside sized bound =>
    cases owned _ sized with
    | size own =>
      rename_i name j size found
      have place := congrArg (fun all => all[j]?) (completed_pack consistent completed own sized)
      simp only [List.getElem?_map,List.getElem?_range bound,Option.map_some,argumentAt,
        lookup_consistent consistent member] at place
      cases read : (a.pack name)[j]? with
      | none => simp [read] at place
      | some own => simp_all [Assignment.content,Assignment.element,List.getD_eq_getElem?_getD]

omit [DecidableEq Name] in
theorem placed_returns {params : List (FunctionParameter Name Constant)} {passings : List (Option Passing)} :
    Returns a (deduceAll (placed meaning a params passings).pairs) ↔
      ∀ place ∈ places a params passings, KeptArgument meaning a place.1 place.2.1 place.2.2 := by
  rw [returns_all]
  simp only [placed,List.forall_mem_map,argument_kept]

-- A call selects the specialization of the function it stands in exactly when
-- every argument is kept and every other template argument is the default.
theorem carries_exact {template : FunctionTemplate Name Constant} {passings : List (Option Passing)} :
    (∃ arguments, passed meaning a template.params passings = some arguments ∧
        Selects meaning makes a template arguments) ↔ Carries meaning makes a template passings := by
  constructor
  · rintro ⟨arguments,written,selects⟩
    obtain ⟨bindings,deduced,chosen⟩ := Option.bind_eq_some_iff.mp selects.selected
    split at chosen
    · rename_i consistent
      have agrees := selected_agrees consistent (call_owns template.declares arguments bindings deduced) chosen
      obtain ⟨paired,aligned,read⟩ := Option.bind_eq_some_iff.mp deduced
      obtain ⟨rest,all,rfl⟩ := Option.map_eq_some_iff.mp read
      obtain ⟨sized,found⟩ := agrees_append.mp agrees
      obtain ⟨fits,rfl⟩ := passed_exact.mp ⟨arguments,written,aligned,sized⟩
      refine ⟨fits,placed_returns.mp ⟨rest,all,found⟩,?_,?_⟩
      · intro place member
        exact selects.initialized _ aligned _ (List.mem_map_of_mem member)
      · intro before parameter after same
        rw [← placed_keys _ read,← supply_settled agrees]
        exact complete_exact.mp chosen before parameter after same
    · cases chosen
  · intro carries
    obtain ⟨arguments,written,aligned,sized⟩ := passed_exact.mpr ⟨carries.aligned,rfl⟩
    obtain ⟨rest,all,found⟩ := placed_returns.mpr carries.kept
    have read : (deduceAll (placed meaning a template.params passings).pairs).map
        ((placed meaning a template.params passings).sizes ++ ·) = some _ := congrArg (Option.map _) all
    have agrees : Agrees a ((placed meaning a template.params passings).sizes ++ rest) :=
      agrees_append.mpr ⟨sized,found⟩
    refine ⟨arguments,written,?_,?_⟩
    · have completed : complete ((placed meaning a template.params passings).sizes ++ rest) [] template.parameters =
          some (template.parameters.map a.supplied) := by
        refine complete_exact.mpr fun before parameter after same => ?_
        rw [List.nil_append,supply_settled agrees,placed_keys _ read]
        exact carries.settled before parameter after same
      rw [select,deduceCall,aligned,Option.bind_some,read]
      exact (if_pos (consistent_of_agrees agrees)).trans completed
    · intro paired found place member
      rw [aligned] at found
      cases found
      obtain ⟨own,inside,rfl⟩ := List.mem_map.mp member
      exact carries.initialized own inside

end Chosen

-- An array bound as N + 1 is not deduced, and a forwarding pack tells lvalues
-- from rvalues.
example : select (⟨[{name := "N"}],[.one (.reference .lvalue (.array (.constant ⊥ "int")
    (.nondeduced "+ 1" (.parameter ⊥ (.single "N"))))) false],
    by simp [FunctionParameter.Scoped,Pattern.Scoped,Declares]⟩ : FunctionTemplate String String)
    [⟨.lvalue,.array (.constant ⊥ "int") (.constant ⊥ "3")⟩] = none := by decide

example : select (⟨[{name := "T",isPack := true}],[.many "T" [] (.reference .rvalue (.parameter ⊥ (.packed "T")))],
    by simp [FunctionParameter.Scoped,Pattern.Scoped,Declares]⟩ : FunctionTemplate String String)
    [⟨.lvalue,.constant ⊥ "int"⟩,⟨.xvalue,.constant ⊥ "long"⟩] =
      some [.many [.reference .lvalue (.constant ⊥ "int"),.constant ⊥ "long"]] := by decide

end TemplateDeduction
