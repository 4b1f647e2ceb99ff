import FlexPimpl.TemplateDeduction

namespace TemplateDeduction
open CppTypes

variable {Name Constant : Type}

-- How a function passes on a parameter of its own: by its name, moved, or forwarded.
inductive Use where
  | name
  | moved
  | forwarded
deriving DecidableEq, Repr

-- A moved function is an lvalue all the same.
def Use.category (use : Use) (declared : Argument Constant) : Category :=
  match use,declared with
  | .name,_ | .forwarded,.reference .lvalue _ => .lvalue
  | _,_ => if declared.referred.isFunction then .lvalue else .xvalue

def Use.expression (use : Use) (declared : Argument Constant) : Expression Constant :=
  ⟨use.category declared,declared.referred⟩

structure Passing where
  use : Use
  expanded : Bool := false
deriving DecidableEq, Repr

inductive FunctionParameter (Name Constant : Type) where
  | one (pattern : Pattern Name Constant) (hasDefault : Bool)
  | many (pack : Name) (others : List Name) (pattern : Pattern Name Constant)
deriving DecidableEq, Repr

-- Function parameters beside the arguments of a call, elements of a pack with
-- their places. A pack that is not the last parameter is never deduced.
structure Pairing (Name Constant : Type) where
  sizes : List (Binding Name Constant)
  pairs : List (Pattern Name Constant × Nat × Expression Constant)
deriving DecidableEq, Repr

def pairing : List (FunctionParameter Name Constant) → List (Expression Constant) → Option (Pairing Name Constant)
  | [],[] => some ⟨[],[]⟩
  | [],_ :: _ => none
  | [.many pack others pattern],arguments =>
    some ⟨sizes pack others arguments.length,arguments.zipIdx.map fun place => (pattern,place.2,place.1)⟩
  | .many .. :: params,arguments => pairing params arguments
  | .one pattern _ :: params,argument :: arguments =>
    (pairing params arguments).map fun rest => {rest with pairs := (pattern,0,argument) :: rest.pairs}
  | .one _ hasDefault :: params,[] => if hasDefault then pairing params [] else none

section Call
variable [DecidableEq Constant]

-- A parameter by value does not see what its argument refers to or whether it is
-- const, a reference sees no reference, and a forwarding reference sees lvalues.
def deduceArgument (pattern : Pattern Name Constant) (i : Nat) (argument : Expression Constant) :
    Option (List (Binding Name Constant)) :=
  match pattern with
  | .passed _ => none
  | .reference kind target =>
    match pattern.forwarding,argument.category with
    | some leaf,.lvalue => some (find (leaf.key i) (.reference .lvalue argument.type))
    | _,_ => deduce pattern i (.reference kind (argument.type.qualify target.qualifiers))
  | _ => deduce (.passed pattern) i argument.type.decayed

def deduceAll : List (Pattern Name Constant × Nat × Expression Constant) → Option (List (Binding Name Constant))
  | [] => some []
  | (pattern,i,argument) :: rest => both (deduceArgument pattern i argument) (deduceAll rest)

def deduceCall (params : List (FunctionParameter Name Constant)) (arguments : List (Expression Constant)) :
    Option (List (Binding Name Constant)) :=
  (pairing params arguments).bind fun paired => (deduceAll paired.pairs).map (paired.sizes ++ ·)

end Call

section Own
variable (meaning : Constant → Argument Constant → Argument Constant) (a : Assignment Name Constant)

def declared (pattern : Pattern Name Constant) (i : Nat) : Argument Constant := (instantiate meaning a pattern i).adjusted

-- The arguments of a call that passes on every parameter of a function with the
-- same parameters. An unnamed parameter leaves nothing to write.
def expressions : List (FunctionParameter Name Constant) → List (Option Passing) → Option (List (Expression Constant))
  | [],[] => some []
  | .one pattern _ :: params,some ⟨use,false⟩ :: passings =>
    (expressions params passings).map (use.expression (declared meaning a pattern 0) :: ·)
  | .many pack _ pattern :: params,some ⟨use,true⟩ :: passings =>
    (expressions params passings).map
      ((List.range (a.count pack)).map (fun i => use.expression (declared meaning a pattern i)) ++ ·)
  | _,_ => none

def passed (params : List (FunctionParameter Name Constant)) (passings : List (Option Passing)) :
    Option (List (Expression Constant)) :=
  match params,passings with
  | [_],[none] => some []
  | _,_ => expressions meaning a params passings

-- One parameter passed on: what is deduced from it is what was put in.
def KeptArgument (pattern : Pattern Name Constant) (i : Nat) (use : Use) : Prop :=
  match pattern with
  | .parameter _ leaf => (a.read i leaf).Plain
  | .passed _ => False
  | .reference .. =>
    match pattern.forwarding,use.category (declared meaning a pattern i) with
    | some leaf,.lvalue => ∃ inner, a.read i leaf = .reference .lvalue inner
    | _,_ => Kept a pattern i
  | _ => Kept a (.passed pattern) i

variable {meaning a} [DecidableEq Constant]

theorem argument_value {own : Qualifiers} {leaf : Leaf Name} {i : Nat} {use : Use} :
    Returns a (deduceArgument (.parameter own leaf) i (use.expression (declared meaning a (.parameter own leaf) i))) ↔
      (a.read i leaf).Plain := by
  simp only [deduceArgument,deduce,returns_some,agrees_find,Use.expression,declared,instantiate]
  cases value : (a.read i leaf).isReference with
  | true =>
    cases same : a.read i leaf with
    | reference kind inner =>
      simpa [Argument.qualify,Argument.adjusted,Argument.referred,Argument.Plain,Argument.isReference] using
        Argument.decayed_target kind inner
    | _ => rw [same] at value; cases value
  | false =>
    rw [Argument.referred_of_not (by simpa using value),Argument.decayed_adjusted,Argument.decayed_qualify]
    simp [Argument.Plain,value]

theorem argument_compound {pattern : Pattern Name Constant} (compound : pattern.isCompound = true) {i : Nat} {use : Use} :
    deduceArgument pattern i (use.expression (declared meaning a pattern i)) =
      deduce (.passed pattern) i (instantiate meaning a (.passed pattern) i) := by
  have plain : (instantiate meaning a pattern i).adjusted.isReference = false := by
    rw [Argument.adjusted_isReference,compound_isReference compound]
  have same : (use.expression (declared meaning a pattern i)).type.decayed = instantiate meaning a (.passed pattern) i := by
    rw [Use.expression,declared,Argument.referred_of_not plain,Argument.decayed_adjusted,instantiate]
  rw [← same]
  cases pattern with
  | parameter | reference | passed | nondeduced => cases compound
  | _ => rfl

omit [DecidableEq Constant] in
theorem instantiate_qualify (pattern : Pattern Name Constant) (i : Nat) :
    (instantiate meaning a pattern i).qualify pattern.qualifiers = instantiate meaning a pattern i := by
  induction pattern with
  | array element bound first second => simp [instantiate,Pattern.qualifiers,Argument.qualify,first]
  | _ => simp [instantiate,Pattern.qualifiers,Argument.qualify]

theorem reference_leaf {kind : ReferenceKind} {own : Qualifiers} {leaf : Leaf Name} {i : Nat} :
    Returns a (deduce (.reference kind (.parameter own leaf)) i
        (.reference kind ((declared meaning a (.reference kind (.parameter own leaf)) i).referred.qualify own))) ↔
      (a.read i leaf).isReference = false ∧ (a.read i leaf).Clear own := by
  simp only [deduce,if_true,returns_without,declared,instantiate]
  cases value : (a.read i leaf).isReference with
  | true =>
    cases same : a.read i leaf with
    | reference other inner =>
      have never := Argument.without_qualified_target own other inner
      cases other <;> cases kind <;> simpa [Argument.qualify,Argument.collapse,Argument.adjusted,Argument.referred] using never
    | _ => rw [same] at value; cases value
  | false =>
    rw [Argument.collapse_of_not (by simpa using value)]
    simp [Argument.adjusted,Argument.referred,Argument.without_qualify]

omit [DecidableEq Constant] in
theorem argument_forwarding {leaf : Leaf Name} {i : Nat} :
    Argument.reference .lvalue (declared meaning a (.reference .rvalue (.parameter ⊥ leaf)) i).referred = a.read i leaf ↔
      ∃ inner, a.read i leaf = .reference .lvalue inner := by
  simp only [declared,instantiate,Argument.qualify_none]
  cases a.read i leaf with
  | reference kind inner => cases kind <;> simp [Argument.collapse,Argument.adjusted,Argument.referred]
  | _ => simp [Argument.collapse,Argument.adjusted,Argument.referred]

omit [DecidableEq Constant] in
theorem reference_compound {target : Pattern Name Constant} (compound : target.isCompound = true) (kind : ReferenceKind)
    (i : Nat) :
    Argument.reference kind
        ((declared meaning a (.reference kind target) i).referred.qualify target.qualifiers) =
      instantiate meaning a (.reference kind target) i := by
  rw [declared,instantiate,Argument.collapse_of_not (compound_isReference compound i)]
  exact congrArg (Argument.reference kind) (instantiate_qualify target i)

theorem argument_reference {kind : ReferenceKind} {target : Pattern Name Constant} {i : Nat} :
    Returns a (deduce (.reference kind target) i
        (.reference kind ((declared meaning a (.reference kind target) i).referred.qualify target.qualifiers))) ↔
      Kept a (.reference kind target) i := by
  cases target with
  | parameter own leaf => exact reference_leaf
  | reference | passed | nondeduced => simp [deduce,Kept,Agrees]
  | _ =>
    rw [reference_compound rfl]
    exact (deduce_kept _ i).1

theorem argument_kept (pattern : Pattern Name Constant) (i : Nat) (use : Use) :
    Returns a (deduceArgument pattern i (use.expression (declared meaning a pattern i))) ↔
      KeptArgument meaning a pattern i use := by
  cases pattern with
  | parameter own leaf => exact argument_value
  | passed inner => simp [deduceArgument,KeptArgument]
  | nondeduced symbol operand => simp [deduceArgument,KeptArgument,deduce,Kept,Agrees,Pattern.forwarding]
  | reference kind target =>
    cases forwards : Pattern.forwarding (.reference kind target) with
    | none => simpa only [deduceArgument,KeptArgument,forwards,Use.expression] using argument_reference
    | some leaf =>
      obtain ⟨rfl,rfl⟩ := forwarding_some forwards
      cases category : use.category (declared meaning a (.reference .rvalue (.parameter ⊥ leaf)) i) with
      | lvalue => simpa [deduceArgument,KeptArgument,forwards,Use.expression,category] using argument_forwarding
      | xvalue => simpa [deduceArgument,KeptArgument,forwards,Use.expression,category] using argument_reference
  | _ =>
    rw [argument_compound rfl]
    exact (deduce_kept _ i).2

theorem argument_keys (pattern : Pattern Name Constant) (i : Nat) (use : Use) :
    Keyed (keys a (.passed pattern) i) (deduceArgument pattern i (use.expression (declared meaning a pattern i))) := by
  cases pattern with
  | parameter own leaf => exact keyed_some
  | passed inner => exact keyed_none
  | nondeduced symbol operand => simpa [deduceArgument,deduce,keys,Pattern.forwarding] using keyed_nothing
  | reference kind target =>
    have deduced : Keyed (keys a (.reference kind target) i) (deduce (.reference kind target) i (.reference kind
        ((declared meaning a (.reference kind target) i).referred.qualify target.qualifiers))) := by
      cases target with
      | parameter own leaf => exact keyed_reference _
      | nondeduced symbol operand => simpa [deduce,keys] using keyed_nothing
      | reference | passed => exact keyed_none
      | _ =>
        rw [reference_compound rfl]
        exact (deduce_keys _ i).1
    cases forwards : Pattern.forwarding (.reference kind target) with
    | none =>
      simp only [deduceArgument,forwards]
      exact deduced
    | some leaf =>
      obtain ⟨rfl,rfl⟩ := forwarding_some forwards
      simp only [deduceArgument,forwards,Use.expression]
      split
      · rename_i same _
        cases same
        exact keyed_some
      · exact deduced
  | _ =>
    rw [argument_compound rfl]
    exact (deduce_keys _ i).2

end Own

section Alignment
variable {meaning : Constant → Argument Constant → Argument Constant} {a : Assignment Name Constant}

-- Each parameter is passed on by one expression, a pack by one that is expanded,
-- packs before the last parameter are empty, and packs expanded together are
-- equally long.
def EachPassed (a : Assignment Name Constant) : List (FunctionParameter Name Constant) → List (Option Passing) → Prop
  | [],[] => True
  | .one _ _ :: params,some ⟨_,false⟩ :: passings => EachPassed a params passings
  | [.many pack others _],[some ⟨_,true⟩] => ∀ name ∈ others, a.count name = a.count pack
  | .many pack _ _ :: params,some ⟨_,true⟩ :: passings => a.count pack = 0 ∧ EachPassed a params passings
  | _,_ => False

-- A parameter alone may also be left to its default, and a pack alone may be empty.
def Aligned (a : Assignment Name Constant) (params : List (FunctionParameter Name Constant))
    (passings : List (Option Passing)) : Prop :=
  match params,passings with
  | [.one _ hasDefault],[none] => hasDefault = true
  | [.many pack others _],[none] => ∀ name ∈ pack :: others, a.count name = 0
  | _,_ => EachPassed a params passings

def places (a : Assignment Name Constant) :
    List (FunctionParameter Name Constant) → List (Option Passing) → List (Pattern Name Constant × Nat × Use)
  | .one pattern _ :: params,some passing :: passings => (pattern,0,passing.use) :: places a params passings
  | [.many pack _ pattern],[some passing] => (List.range (a.count pack)).map fun i => (pattern,i,passing.use)
  | .many .. :: params,_ :: passings => places a params passings
  | _,_ => []

def lastSizes (a : Assignment Name Constant) : List (FunctionParameter Name Constant) → List (Binding Name Constant)
  | [] => []
  | [.many pack others _] => sizes pack others (a.count pack)
  | _ :: params => lastSizes a params

def placed (meaning : Constant → Argument Constant → Argument Constant) (a : Assignment Name Constant)
    (params : List (FunctionParameter Name Constant)) (passings : List (Option Passing)) : Pairing Name Constant where
  sizes := lastSizes a params
  pairs := (places a params passings).map fun place =>
    (place.1,place.2.1,place.2.2.expression (declared meaning a place.1 place.2.1))

def room (a : Assignment Name Constant) : List (FunctionParameter Name Constant) → Nat
  | [] => 0
  | [.many pack _ _] => a.count pack
  | .many .. :: params => room a params
  | .one .. :: params => room a params + 1

theorem pairing_room {params : List (FunctionParameter Name Constant)} {arguments : List (Expression Constant)}
    {paired : Pairing Name Constant} (found : pairing params arguments = some paired) (agrees : Agrees a paired.sizes) :
    arguments.length ≤ room a params := by
  induction params generalizing arguments paired with
  | nil =>
    cases arguments with
    | nil => simp
    | cons argument arguments => cases found
  | cons param params ih =>
    cases param with
    | one pattern hasDefault =>
      cases arguments with
      | nil => simp
      | cons argument arguments =>
        obtain ⟨rest,read,rfl⟩ := Option.map_eq_some_iff.mp found
        simpa [room] using ih read agrees
    | many pack others pattern =>
      cases params with
      | nil =>
        cases found
        have size := agrees_sizes.mp agrees pack (by simp)
        exact Nat.le_of_eq size.symm
      | cons next params => exact ih found agrees

theorem expressions_room {params : List (FunctionParameter Name Constant)} {passings : List (Option Passing)}
    {arguments : List (Expression Constant)} (found : expressions meaning a params passings = some arguments) :
    room a params ≤ arguments.length := by
  fun_induction expressions generalizing arguments with
  | case1 => simp [room]
  | case2 pattern hasDefault params use passings ih =>
    obtain ⟨rest,read,rfl⟩ := Option.map_eq_some_iff.mp found
    simpa [room] using ih read
  | case3 pack others pattern params use passings ih =>
    obtain ⟨rest,read,rfl⟩ := Option.map_eq_some_iff.mp found
    cases params with
    | nil => simp [room]
    | cons next params =>
      have enough := ih read
      simp only [room,List.length_append]
      omega
  | case4 => cases found

theorem zipIdx_range (own : Nat → Expression Constant) (pattern : Pattern Name Constant) (size : Nat) :
    ((List.range size).map own).zipIdx.map (fun place => (pattern,place.2,place.1)) =
      (List.range size).map fun i => (pattern,i,own i) := by
  apply List.ext_getElem
  · simp
  · intro i inside _
    simp

theorem placed_one {pattern : Pattern Name Constant} {hasDefault : Bool} {params : List (FunctionParameter Name Constant)}
    {use : Use} {expanded : Bool} {passings : List (Option Passing)} :
    placed meaning a (.one pattern hasDefault :: params) (some ⟨use,expanded⟩ :: passings) =
      ⟨(placed meaning a params passings).sizes,
        (pattern,0,use.expression (declared meaning a pattern 0)) :: (placed meaning a params passings).pairs⟩ := by
  simp [placed,places,lastSizes]

-- Arguments that fit leave nothing for the packs before the last parameter.
theorem pairing_placed {params : List (FunctionParameter Name Constant)} {passings : List (Option Passing)}
    {arguments : List (Expression Constant)} {paired : Pairing Name Constant}
    (written : expressions meaning a params passings = some arguments) (found : pairing params arguments = some paired)
    (agrees : Agrees a paired.sizes) : EachPassed a params passings ∧ paired = placed meaning a params passings := by
  fun_induction expressions generalizing arguments paired with
  | case1 =>
    cases written
    cases found
    exact ⟨trivial,rfl⟩
  | case2 pattern hasDefault params use passings ih =>
    obtain ⟨rest,read,rfl⟩ := Option.map_eq_some_iff.mp written
    obtain ⟨others,aligned,rfl⟩ := Option.map_eq_some_iff.mp found
    obtain ⟨each,rfl⟩ := ih read aligned agrees
    exact ⟨each,placed_one.symm⟩
  | case3 pack others pattern params use passings ih =>
    obtain ⟨rest,read,rfl⟩ := Option.map_eq_some_iff.mp written
    cases params with
    | nil =>
      cases passings with
      | cons passing passings => cases read
      | nil =>
        cases read
        cases found
        have sized := agrees_sizes.mp agrees
        simp only [List.append_nil,List.length_map,List.length_range] at sized ⊢
        refine ⟨fun name member => sized name (List.mem_cons_of_mem _ member),?_⟩
        simp [placed,places,lastSizes,zipIdx_range]
    | cons next params =>
      have enough := expressions_room read
      have bound := pairing_room found agrees
      simp only [room,List.length_append,List.length_map,List.length_range] at bound
      have empty : a.count pack = 0 := by omega
      simp only [empty,List.range_zero,List.map_nil,List.nil_append] at found
      obtain ⟨each,rfl⟩ := ih read found agrees
      refine ⟨⟨empty,each⟩,?_⟩
      simp [placed,places,lastSizes]
  | case4 => cases written

theorem placed_pairing {params : List (FunctionParameter Name Constant)} {passings : List (Option Passing)}
    (each : EachPassed a params passings) :
    ∃ arguments, expressions meaning a params passings = some arguments ∧
      pairing params arguments = some (placed meaning a params passings) ∧ Agrees a (lastSizes a params) := by
  fun_induction EachPassed a params passings with
  | case1 => exact ⟨[],rfl,rfl,nofun⟩
  | case2 pattern hasDefault params use passings ih =>
    obtain ⟨arguments,written,found,agrees⟩ := ih each
    refine ⟨use.expression (declared meaning a pattern 0) :: arguments,?_,?_,?_⟩
    · rw [expressions,written]
      rfl
    · rw [pairing,found,placed_one]
      rfl
    · simpa [lastSizes] using agrees
  | case3 pack others pattern use =>
    refine ⟨_,rfl,?_,?_⟩
    · simp [pairing,placed,places,lastSizes,zipIdx_range]
    · exact agrees_sizes.mpr (List.forall_mem_cons.mpr ⟨rfl,each⟩)
  | case4 pack others pattern params use passings later ih =>
    obtain ⟨empty,rest⟩ := each
    obtain ⟨arguments,written,found,agrees⟩ := ih rest
    cases params with
    | nil =>
      cases passings with
      | nil => exact absurd rfl (later rfl)
      | cons passing passings => cases rest
    | cons next params =>
      refine ⟨arguments,?_,?_,agrees⟩
      · simp [expressions,written,empty]
      · rw [pairing,found]
        · simp [placed,places,lastSizes]
        · exact nofun
  | case5 => cases each

theorem passed_exact {params : List (FunctionParameter Name Constant)} {passings : List (Option Passing)}
    {paired : Pairing Name Constant} :
    (∃ arguments, passed meaning a params passings = some arguments ∧ pairing params arguments = some paired ∧
        Agrees a paired.sizes) ↔ Aligned a params passings ∧ paired = placed meaning a params passings := by
  unfold passed
  split
  · rename_i param
    cases param with
    | one pattern hasDefault =>
      cases hasDefault with
      | false => simp [pairing,Aligned]
      | true =>
        have empty : placed meaning a [.one pattern true] [none] = ⟨[],[]⟩ := rfl
        rw [empty]
        constructor
        · rintro ⟨_,⟨⟩,⟨⟩,_⟩
          exact ⟨rfl,rfl⟩
        · rintro ⟨_,rfl⟩
          exact ⟨[],rfl,rfl,nofun⟩
    | many pack others pattern =>
      constructor
      · rintro ⟨_,⟨⟩,⟨⟩,agrees⟩
        have sized := agrees_sizes.mp agrees
        refine ⟨sized,?_⟩
        simp [placed,places,lastSizes,sized pack (by simp)]
      · rintro ⟨sized,rfl⟩
        have empty : a.count pack = 0 := sized pack (by simp)
        refine ⟨[],rfl,?_,agrees_sizes.mpr ?_⟩
        · simp [pairing,placed,places,lastSizes,empty]
        · rw [empty]
          exact sized
  · rename_i several
    have aligned : Aligned a params passings ↔ EachPassed a params passings := by
      unfold Aligned
      split
      · exact (several _ rfl rfl).elim
      · exact (several _ rfl rfl).elim
      · rfl
    rw [aligned]
    constructor
    · rintro ⟨arguments,written,found,agrees⟩
      exact pairing_placed written found agrees
    · rintro ⟨each,rfl⟩
      exact placed_pairing each

variable [DecidableEq Constant]

theorem returns_all {pairs : List (Pattern Name Constant × Nat × Expression Constant)} :
    Returns a (deduceAll pairs) ↔ ∀ place ∈ pairs, Returns a (deduceArgument place.1 place.2.1 place.2.2) := by
  induction pairs with
  | nil => simp [deduceAll,Agrees]
  | cons place rest ih =>
    obtain ⟨pattern,i,argument⟩ := place
    simp [deduceAll,ih]

def callKeys (a : Assignment Name Constant) (params : List (FunctionParameter Name Constant))
    (passings : List (Option Passing)) : List (Key Name) :=
  (lastSizes a params).map Prod.fst ++
    (places a params passings).flatMap fun place => keys a (.passed place.1) place.2.1

theorem placed_keys {params : List (FunctionParameter Name Constant)} {passings : List (Option Passing)} :
    Keyed (callKeys a params passings)
      ((deduceAll (placed meaning a params passings).pairs).map ((placed meaning a params passings).sizes ++ ·)) := by
  have each (all : List (Pattern Name Constant × Nat × Use)) :
      Keyed (all.flatMap fun place => keys a (.passed place.1) place.2.1) (deduceAll (all.map fun place =>
        (place.1,place.2.1,place.2.2.expression (declared meaning a place.1 place.2.1)))) := by
    induction all with
    | nil => exact keyed_nothing
    | cons place rest ih => exact keyed_both (argument_keys place.1 place.2.1 place.2.2) ih
  intro bindings found
  obtain ⟨rest,read,rfl⟩ := Option.map_eq_some_iff.mp found
  rw [List.map_append,each _ rest read]
  rfl

end Alignment

end TemplateDeduction
